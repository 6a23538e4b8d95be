import Corvus.Db.MigrationCoverage
import Corvus.Db.MigrationOnce
import Corvus.Db.PoolAccounting
import Corvus.Db.RedisSetup
import Corvus.Refinement
import Corvus.Rely
import Corvus.Resources.Handler

/-!
# Starting up

Before a process listens, `main` reads the public key, connects to Redis for the API
keys, fills the pool, runs the migrations unless they are switched off, and connects to
Redis for the cache, in this order.  Whatever fails on the way ends the process, with an
exit code of 1 and a line on `stderr`, or with an exception that is not caught.

Any number of processes start against one database and one directory of migrations, at
any time; under other paths there is no directory.
-/

namespace Corvus.Server

open Corvus.Db Corvus.Resources

/-! ## The environment -/

/-- `getenv`. -/
abbrev Environment := String → Option String

/-- `env_or`, which the functions that read a configuration have under the name `get`. -/
def envOr (environment : Environment) (name fallback : String) : String :=
  match environment name with
  | some value => if value = "" then fallback else value
  | none => fallback

/-- `env_flag`. -/
def envFlag (environment : Environment) (name : String) (fallback : Bool) : Bool :=
  match environment name with
  | some value =>
      if value = "" then fallback
      else decide (value = "1" ∨ value = "true" ∨ value = "TRUE")
  | none => fallback

def connectionStringFromEnv (environment : Environment) : String :=
  "host=" ++ envOr environment "CORVUS_DB_HOST" "localhost" ++
    " port=" ++ envOr environment "CORVUS_DB_PORT" "5432" ++
    " dbname=" ++ envOr environment "CORVUS_DB_NAME" "corvus" ++
    " user=" ++ envOr environment "CORVUS_DB_USER" "postgres" ++
    " password=" ++ envOr environment "CORVUS_DB_PASSWORD" "" ++
    " connect_timeout=5"

/-- `std::stoi`; `none` is an exception.  What follows the digits is not looked at. -/
def stoi (raw : String) : Option Int :=
  let text := raw.toList.dropWhile isSpace
  let sign : Int := if text.head? = some '-' then -1 else 1
  let unsigned := if text.head? = some '-' ∨ text.head? = some '+' then text.drop 1 else text
  let digits := unsigned.takeWhile Char.isDigit
  let value := sign * decimalValue digits
  if digits ≠ [] ∧ -2 ^ 31 ≤ value ∧ value < 2 ^ 31 then some value else none

/-- `redis_config_from_env`; `none` is an exception of `std::stoi`. -/
def redisConfigFromEnv (environment : Environment) : Option RedisConfig := do
  let port ← stoi (envOr environment "CORVUS_REDIS_PORT" "6379")
  let db ← stoi (envOr environment "CORVUS_REDIS_DB" "0")
  return {
    host := envOr environment "CORVUS_REDIS_HOST" "localhost"
    port
    password := envOr environment "CORVUS_REDIS_PASSWORD" ""
    db }

/-- The configuration of the pool. -/
def poolConfig (environment : Environment) : PoolConfig where
  connectionString := connectionStringFromEnv environment
  minConnections := 2
  maxConnections := 10

def migrationsDir (environment : Environment) : String :=
  envOr environment "CORVUS_MIGRATIONS_DIR" "/usr/local/share/corvus/migrations"

def runMigrations (environment : Environment) : Bool :=
  envFlag environment "CORVUS_RUN_MIGRATIONS" true

/-! ## What exceptions say -/

def poolErrorText : PoolError → String
  | .dbConfigError what => what
  | .dbPoolExhausted what => what

def migrationFailureText : MigrationFailure → String
  | .migrationError what => what
  | .outOfRange what => what
  | .other what => what

/-! ## The stages of `main` -/

inductive StartPhase where
  | jwtKey
  | apiKeys (attempt : Nat)
  | postgres
  | migrations
  | migrating (run : MigrateRun)
  /-- In `current_version`, before the table is ensured, and before it is read. -/
  | versionTable (applied : Nat)
  | currentVersion (applied : Nat)
  | cache
  | listening
  | exited (line : String)
  | terminated

/-- A process that is starting, with what it has got ready so far. -/
structure Process where
  environment : Environment
  phase : StartPhase := .jwtKey
  publicKeyPem : Option String := none
  /-- The idle connection of the validator of API keys. -/
  keyConnection : Option RedisConnection := none
  pool : Option PgPool := none
  /-- The version of the schema in the log. -/
  reported : Option Nat := none
  cacheConnection : Option RedisConnection := none

/-- What a step leaves open: what Redis, Postgres and the directory answer. -/
structure StartChoice where
  handshake : Handshake := {}
  attempts : List Attempt := []
  migrate : MigrateChoice

namespace Process

/-- A line on `stderr`, and the exit code 1. -/
def exit (process : Process) (line : String) : Process :=
  { process with phase := .exited ("FATAL: " ++ line ++ "\n") }

/-- `JwtValidator::JwtValidator`. -/
def readKey (verifyPem : String → Except String Unit) (process : Process) : Process :=
  match process.environment "CORVUS_JWT_PUBLIC_KEY" with
  | none => process.exit
      "CORVUS_JWT_PUBLIC_KEY is not set. Refusing to start without a JWT public key."
  | some pem =>
      if pem = "" then
        process.exit
          "CORVUS_JWT_PUBLIC_KEY is not set. Refusing to start without a JWT public key."
      else
        match verifyPem pem with
        | .error what => process.exit ("Invalid RS256 public key PEM: " ++ what)
        | .ok () => { process with phase := .apiKeys 1, publicKeyPem := some pem }

/-- An attempt of `ApiKeyValidator::ApiKeyValidator` to connect. -/
def connectKeys (process : Process) (attempt : Nat) (handshake : Handshake) : Process :=
  match redisConfigFromEnv process.environment with
  | none => { process with phase := .terminated }
  | some config =>
      match RedisConnection.ofConfig config handshake with
      | .ok connection =>
          { process with
            phase := .postgres
            keyConnection := if connection.isConnected then some connection else none }
      | .error error =>
          if attempt < 5 then { process with phase := .apiKeys (attempt + 1) }
          else process.exit ("Redis unreachable after 5 attempts: " ++ error.what)

def fillPool (process : Process) (attempts : List Attempt) : Option Process :=
  match PgPool.construct (poolConfig process.environment) attempts with
  | none => none
  | some (.error error) => some
      (process.exit ("PostgreSQL unavailable: " ++ poolErrorText error))
  | some (.ok pool) => some
      { process with
        phase := if runMigrations process.environment then .migrations else .cache
        pool := some pool }

/-- `MigrationRunner::MigrationRunner`.  There is one directory, and it has one path: any
other text, also another spelling of that path, names no directory. -/
def openMigrations (process : Process) (db : MigrationDb) : Process :=
  if migrationsDir process.environment = db.directory.path then
    { process with phase := .migrating { phase := .discover, executed := [] } }
  else
    process.exit ("migrations failed: Migration directory does not exist: " ++
      migrationsDir process.environment)

/-- A step of `migrate`, or what follows it. -/
def migrate (process : Process) (run : MigrateRun) (choice : MigrateChoice)
    (db : MigrationDb) : Option (Process × MigrationDb) :=
  match run.phase with
  | .finished count => some ({ process with phase := .versionTable count }, db)
  | .failed failure => some
      (process.exit ("migrations failed: " ++ migrationFailureText failure), db)
  | _ => (run.step choice db).map fun stepped =>
      ({ process with phase := .migrating stepped.1 }, stepped.2)

/-- `ensure_migrations_table`, on a connection of its own acquire. -/
def ensureTable (process : Process) (applied : Nat) (choice : MigrateChoice)
    (db : MigrationDb) : Process × MigrationDb :=
  let failed := process.exit
    ("migrations failed: Failed to create schema_migrations: " ++ choice.what)
  match choice.fault with
  | .notBegun => (process.exit ("migrations failed: " ++ choice.what), db)
  | .refused => (failed, db)
  | .replyLost => (failed, db.createTable)
  | .none => ({ process with phase := .currentVersion applied }, db.createTable)

/-- The rest of `current_version`. -/
def readVersion (process : Process) (choice : MigrateChoice) (db : MigrationDb) : Process :=
  let failed := process.exit
    ("migrations failed: Failed to query current version: " ++ choice.what)
  match choice.fault with
  | .notBegun => process.exit ("migrations failed: " ++ choice.what)
  | .refused | .replyLost => failed
  | .none =>
      match db.schemaMigrations with
      | none => failed
      | some _ => { process with phase := .cache, reported := some (db.versions.foldr max 0) }

def connectCache (process : Process) (handshake : Handshake) : Process :=
  match redisConfigFromEnv process.environment with
  | none => process.exit "Redis unavailable: stoi"
  | some config =>
      match RedisConnection.ofConfig config handshake with
      | .ok connection =>
          { process with phase := .listening, cacheConnection := some connection }
      | .error error => process.exit ("Redis unavailable: " ++ error.what)

/-- One step of `main`. -/
def step (verifyPem : String → Except String Unit) (process : Process) (choice : StartChoice)
    (db : MigrationDb) : Option (Process × MigrationDb) :=
  match process.phase with
  | .jwtKey => some (process.readKey verifyPem, db)
  | .apiKeys attempt => some (process.connectKeys attempt choice.handshake, db)
  | .postgres => (process.fillPool choice.attempts).map fun next => (next, db)
  | .migrations => some (process.openMigrations db, db)
  | .migrating run => process.migrate run choice.migrate db
  | .versionTable applied => some (process.ensureTable applied choice.migrate db)
  | .currentVersion _ => some (process.readVersion choice.migrate db, db)
  | .cache => some (process.connectCache choice.handshake, db)
  | .listening | .exited _ | .terminated => none

end Process

/-- Any number of processes that start on one database and one directory. -/
def startup (verifyPem : String → Except String Unit) :
    Component MigrationDb Environment Process StartChoice DirectoryEntry where
  initial db := db.schemaMigrations = none ∧ db.completed = []
  enter environment _ := { environment }
  step := Process.step verifyPem
  happen entry db := db.addEntry entry

abbrev StartState := Concurrent MigrationDb Process

abbrev StartEvent := ConcurrentEvent Environment StartChoice DirectoryEntry

/-! ## What a step does -/

variable {verifyPem : String → Except String Unit}

/-- The steps of `main`, by what they do. -/
inductive Process.Moves (verifyPem : String → Except String Unit) (process : Process)
    (choice : StartChoice) (db : MigrationDb) : Process → MigrationDb → Prop where
  | exits {line : String} : Moves verifyPem process choice db (process.exit line) db
  | terminates : Moves verifyPem process choice db { process with phase := .terminated } db
  /-- The table is ensured, but the reply to that is lost. -/
  | tableLost {applied : Nat} {line : String} : process.phase = .versionTable applied →
      Moves verifyPem process choice db (process.exit line) db.createTable
  | keyRead {pem : String} : process.phase = .jwtKey → pem ≠ "" → verifyPem pem = .ok () →
      Moves verifyPem process choice db
        { process with phase := .apiKeys 1, publicKeyPem := some pem } db
  | keysRetried {attempt : Nat} : process.phase = .apiKeys attempt →
      Moves verifyPem process choice db { process with phase := .apiKeys (attempt + 1) } db
  | keysConnected {attempt : Nat} {keyConnection : Option RedisConnection} :
      process.phase = .apiKeys attempt →
      Moves verifyPem process choice db { process with phase := .postgres, keyConnection } db
  | pooled {pool : PgPool} : process.phase = .postgres →
      PgPool.construct (poolConfig process.environment) choice.attempts = some (.ok pool) →
      Moves verifyPem process choice db
        { process with
          phase := if runMigrations process.environment then .migrations else .cache
          pool := some pool } db
  | begins : process.phase = .migrations →
      Moves verifyPem process choice db
        { process with phase := .migrating { phase := .discover, executed := [] } } db
  | migrates {run next : MigrateRun} {after : MigrationDb} :
      process.phase = .migrating run → run.step choice.migrate db = some (next, after) →
      Moves verifyPem process choice db { process with phase := .migrating next } after
  | migrated {run : MigrateRun} {count : Nat} : process.phase = .migrating run →
      run.phase = .finished count →
      Moves verifyPem process choice db { process with phase := .versionTable count } db
  | ensured {applied : Nat} : process.phase = .versionTable applied →
      Moves verifyPem process choice db
        { process with phase := .currentVersion applied } db.createTable
  | reports {applied : Nat} : process.phase = .currentVersion applied →
      Moves verifyPem process choice db
        { process with phase := .cache, reported := some (db.versions.foldr max 0) } db
  | listens {config : RedisConfig} {connection : RedisConnection} : process.phase = .cache →
      redisConfigFromEnv process.environment = some config →
      RedisConnection.ofConfig config choice.handshake = .ok connection →
      Moves verifyPem process choice db
        { process with phase := .listening, cacheConnection := some connection } db

theorem Process.moves_of_step {process next : Process} {choice : StartChoice}
    {db after : MigrationDb}
    (stepped : process.step verifyPem choice db = some (next, after)) :
    process.Moves verifyPem choice db next after := by
  unfold Process.step at stepped
  cases phase : process.phase with
  | jwtKey =>
      simp only [phase, Option.some.injEq, Process.readKey] at stepped
      split at stepped
      · cases stepped
        exact .exits
      · split at stepped
        · cases stepped
          exact .exits
        · rename_i nonempty
          split at stepped <;> cases stepped
          · exact .exits
          · rename_i accepted
            exact .keyRead phase nonempty accepted
  | apiKeys attempt =>
      simp only [phase, Option.some.injEq, Process.connectKeys] at stepped
      split at stepped
      · cases stepped
        exact .terminates
      · split at stepped
        · cases stepped
          exact .keysConnected phase
        · split at stepped <;> cases stepped
          · exact .keysRetried phase
          · exact .exits
  | postgres =>
      simp only [phase, Process.fillPool] at stepped
      split at stepped
      · cases stepped
      · cases stepped
        exact .exits
      · rename_i constructed
        cases stepped
        exact .pooled phase constructed
  | migrations =>
      simp only [phase, Option.some.injEq, Process.openMigrations] at stepped
      split at stepped <;> cases stepped
      · exact .begins phase
      · exact .exits
  | migrating run =>
      simp only [phase, Process.migrate] at stepped
      split at stepped
      · rename_i finished
        cases stepped
        exact .migrated phase finished
      · cases stepped
        exact .exits
      · obtain ⟨⟨moved, changed⟩, runStepped, same⟩ := Option.map_eq_some_iff.mp stepped
        cases same
        exact .migrates phase runStepped
  | versionTable applied =>
      simp only [phase, Option.some.injEq, Process.ensureTable] at stepped
      split at stepped <;> cases stepped
      · exact .exits
      · exact .exits
      · exact .tableLost phase
      · exact .ensured phase
  | currentVersion applied =>
      simp only [phase, Option.some.injEq, Process.readVersion] at stepped
      split at stepped
      · cases stepped
        exact .exits
      · cases stepped
        exact .exits
      · cases stepped
        exact .exits
      · split at stepped <;> cases stepped
        · exact .exits
        · exact .reports phase
  | cache =>
      simp only [phase, Option.some.injEq, Process.connectCache] at stepped
      split at stepped
      · cases stepped
        exact .exits
      · rename_i configured
        split at stepped <;> cases stepped
        · rename_i constructed
          exact .listens phase configured constructed
        · exact .exits
  | listening => simp [phase] at stepped
  | exited line => simp [phase] at stepped
  | terminated => simp [phase] at stepped

/-! ## What is ready at each stage -/

/-- How far `main` has come. -/
def StartPhase.stage : StartPhase → Nat
  | .exited _ | .terminated => 0
  | .jwtKey => 1
  | .apiKeys _ => 2
  | .postgres => 3
  | .migrations | .migrating _ | .versionTable _ | .currentVersion _ => 4
  | .cache => 5
  | .listening => 6

/-- The public key has been accepted. -/
def Process.HasKey (verifyPem : String → Except String Unit) (process : Process) : Prop :=
  ∃ pem, process.publicKeyPem = some pem ∧ pem ≠ "" ∧ verifyPem pem = .ok ()

/-- The pool holds two idle connections, and counts no others. -/
def Process.HasPool (process : Process) : Prop :=
  ∃ pool, process.pool = some pool ∧ pool.idle = [0, 1] ∧ pool.total = 2 ∧ pool.handles = []

/-- The connection of the cache is set up as it is configured. -/
def Process.HasCache (process : Process) : Prop :=
  ∃ connection, process.cacheConnection = some connection ∧ connection.SetUp

/-- The numbers of the files are recorded, and what the log reports is no older. -/
def Process.HasSchema (files : List DirectoryEntry) (db : MigrationDb)
    (process : Process) : Prop :=
  Covers files db.versions ∧ ∃ reported, process.reported = some reported ∧
    ∀ entry ∈ files, ∀ version, entry.version = some version → version ≤ reported

/-- What is known of the schema at each stage. -/
def Process.SchemaReady (files : List DirectoryEntry) (db : MigrationDb)
    (process : Process) : Prop :=
  match process.phase with
  | .migrating run => run.Accounts files db
  | .versionTable _ | .currentVersion _ =>
      db.schemaMigrations.isSome = true ∧ Covers files db.versions
  | .cache | .listening =>
      runMigrations process.environment = true → process.HasSchema files db
  | _ => True

/-- What holds of a process that is starting, for files that were there before it. -/
structure Process.Prepared (verifyPem : String → Except String Unit)
    (files : List DirectoryEntry) (db : MigrationDb) (process : Process) : Prop where
  key : 2 ≤ process.phase.stage → process.HasKey verifyPem
  pool : 4 ≤ process.phase.stage → process.HasPool
  schema : process.SchemaReady files db
  cache : 6 ≤ process.phase.stage → process.HasCache

theorem le_foldr_max {version : Nat} {versions : List Nat} (member : version ∈ versions) :
    version ≤ versions.foldr max 0 := by
  induction versions with
  | nil => cases member
  | cons head rest ih =>
      rw [List.foldr_cons]
      rcases List.mem_cons.mp member with rfl | later
      · exact Nat.le_max_left _ _
      · exact Nat.le_trans (ih later) (Nat.le_max_right _ _)

/-- The constructor makes as many connections as its loop has rounds. -/
theorem made_of_fill {rounds : Nat} {attempts : List Attempt} {pool after : PgPool}
    (filled : PgPool.fill rounds attempts pool = some (.ok after)) :
    after.made = pool.made + rounds := by
  induction rounds generalizing pool attempts with
  | zero =>
      simp only [PgPool.fill] at filled
      split at filled <;> cases filled
      rfl
  | succ rounds ih =>
      simp only [PgPool.fill] at filled
      split at filled
      · rw [ih filled]
        change pool.made + 1 + rounds = pool.made + (rounds + 1)
        omega
      · cases filled
      · cases filled

theorem Process.hasPool_of_construct {process : Process} {environment : Environment}
    {attempts : List Attempt} {pool : PgPool} (isPool : process.pool = some pool)
    (constructed : PgPool.construct (poolConfig environment) attempts = some (.ok pool)) :
    process.HasPool := by
  obtain ⟨filling, _⟩ := PgPool.filling_of_construct constructed
  have two : pool.made = 2 := by
    unfold PgPool.construct at constructed
    rw [if_neg (by simp [poolConfig]), if_neg (by simp [poolConfig])] at constructed
    split at constructed
    · cases constructed
    · exact made_of_fill constructed
  refine ⟨pool, isPool, ?_, ?_, filling.handles_nil⟩
  · rw [filling.idle_eq, two]
    rfl
  · rw [filling.total_eq, two]

/-- A process that has ended promises nothing. -/
theorem Process.prepared_of_ended {files : List DirectoryEntry} {db : MigrationDb}
    {process : Process} (ended : process.phase.stage = 0)
    (schema : process.SchemaReady files db) : process.Prepared verifyPem files db :=
  ⟨fun late => by omega, fun late => by omega, schema, fun late => by omega⟩

theorem Process.Prepared.grown {files : List DirectoryEntry} {db after : MigrationDb}
    {process : Process} (prepared : process.Prepared verifyPem files db)
    (grows : db.GrowsTo after) : process.Prepared verifyPem files after := by
  refine ⟨prepared.key, prepared.pool, ?_, prepared.cache⟩
  have schema := prepared.schema
  unfold Process.SchemaReady at schema ⊢
  have ready : (runMigrations process.environment = true → process.HasSchema files db) →
      runMigrations process.environment = true → process.HasSchema files after :=
    fun has enabled => ⟨(has enabled).1.mono grows.versions, (has enabled).2⟩
  cases phase : process.phase with
  | migrating run =>
      simp only [phase] at schema
      exact schema.grown grows
  | versionTable applied =>
      simp only [phase] at schema
      exact ⟨grows.table schema.1, schema.2.mono grows.versions⟩
  | currentVersion applied =>
      simp only [phase] at schema
      exact ⟨grows.table schema.1, schema.2.mono grows.versions⟩
  | cache =>
      simp only [phase] at schema
      exact ready schema
  | listening =>
      simp only [phase] at schema
      exact ready schema
  | _ => trivial

theorem Process.growsTo_of_step {process next : Process} {choice : StartChoice}
    {db after : MigrationDb}
    (stepped : process.step verifyPem choice db = some (next, after)) : db.GrowsTo after := by
  cases Process.moves_of_step stepped with
  | tableLost | ensured => exact db.growsTo_createTable
  | migrates phase runStepped => exact MigrateRun.growsTo_of_step runStepped
  | _ => exact .refl db

/-- A step on the way takes nothing back. -/
theorem Process.Prepared.moved {process next : Process} {db after : MigrationDb}
    {files : List DirectoryEntry} (prepared : process.Prepared verifyPem files db)
    (sameKey : next.publicKeyPem = process.publicKeyPem) (samePool : next.pool = process.pool)
    (hadKey : 2 ≤ process.phase.stage)
    (hadPool : 4 ≤ next.phase.stage → 4 ≤ process.phase.stage)
    (notListening : next.phase.stage < 6) (schema : next.SchemaReady files after) :
    next.Prepared verifyPem files after := by
  refine ⟨fun _ => ?_, fun late => ?_, schema, fun late => by omega⟩
  · have key := prepared.key hadKey
    unfold Process.HasKey at key ⊢
    rwa [sameKey]
  · have pool := prepared.pool (hadPool late)
    unfold Process.HasPool at pool ⊢
    rwa [samePool]

/-- What one step of `main` makes ready. -/
theorem Process.Moves.prepared {process next : Process} {choice : StartChoice}
    {db after : MigrationDb} {files : List DirectoryEntry}
    (moves : process.Moves verifyPem choice db next after)
    (present : ∀ entry ∈ files, entry ∈ db.directory.entries)
    (prepared : process.Prepared verifyPem files db) :
    next.Prepared verifyPem files after := by
  have schema := prepared.schema
  cases moves with
  | exits => exact prepared_of_ended rfl trivial
  | terminates => exact prepared_of_ended rfl trivial
  | tableLost => exact prepared_of_ended rfl trivial
  | keyRead phase nonempty accepted =>
      exact ⟨fun _ => ⟨_, rfl, nonempty, accepted⟩, by simp [StartPhase.stage], trivial,
        by simp [StartPhase.stage]⟩
  | keysRetried phase =>
      exact prepared.moved rfl rfl (by simp [phase, StartPhase.stage])
        (by simp [StartPhase.stage]) (by simp [StartPhase.stage]) trivial
  | keysConnected phase =>
      exact prepared.moved rfl rfl (by simp [phase, StartPhase.stage])
        (by simp [StartPhase.stage]) (by simp [StartPhase.stage]) trivial
  | pooled phase constructed =>
      refine ⟨fun _ => prepared.key (by simp [phase, StartPhase.stage]),
        fun _ => hasPool_of_construct rfl constructed, ?_, ?_⟩
      · unfold SchemaReady
        cases runMigrations process.environment with
        | true => trivial
        | false => exact fun enabled => nomatch enabled
      · split <;> simp [StartPhase.stage]
  | begins phase =>
      exact prepared.moved rfl rfl (by simp [phase, StartPhase.stage])
        (by simp [phase, StartPhase.stage]) (by simp [StartPhase.stage]) trivial
  | migrates phase runStepped =>
      rw [SchemaReady, phase] at schema
      exact prepared.moved rfl rfl (by simp [phase, StartPhase.stage])
        (by simp [phase, StartPhase.stage]) (by simp [StartPhase.stage])
        ((MigrateRun.moves_of_step runStepped).accounts present schema)
  | migrated phase finished =>
      rw [SchemaReady, phase] at schema
      exact prepared.moved rfl rfl (by simp [phase, StartPhase.stage])
        (by simp [phase, StartPhase.stage]) (by simp [StartPhase.stage])
        (schema.of_finished finished)
  | ensured phase =>
      rw [SchemaReady, phase] at schema
      exact prepared.moved rfl rfl (by simp [phase, StartPhase.stage])
        (by simp [phase, StartPhase.stage]) (by simp [StartPhase.stage]) ⟨rfl, schema.2⟩
  | reports phase =>
      rw [SchemaReady, phase] at schema
      exact prepared.moved rfl rfl (by simp [phase, StartPhase.stage])
        (by simp [phase, StartPhase.stage]) (by simp [StartPhase.stage])
        fun _ => ⟨schema.2, _, rfl, fun entry member version isVersion =>
          le_foldr_max (schema.2 entry member version isVersion)⟩
  | listens phase configured constructed =>
      rw [SchemaReady, phase] at schema
      exact ⟨fun _ => prepared.key (by simp [phase, StartPhase.stage]),
        fun _ => prepared.pool (by simp [phase, StartPhase.stage]), schema,
        fun _ => ⟨_, rfl, RedisClient.setUp_of_ofConfig constructed⟩⟩

/-! ## Processes that listen -/

/-- The files stay, and a process is prepared for them on its own. -/
theorem relies_startup (files : List DirectoryEntry) :
    (startup verifyPem).Relies MigrationDb.GrowsTo
      (fun db => ∀ entry ∈ files, entry ∈ db.directory.entries)
      (fun db process => process.Prepared verifyPem files db) where
  entered _ _ _ :=
    ⟨by simp [startup, StartPhase.stage], by simp [startup, StartPhase.stage], trivial,
      by simp [startup, StartPhase.stage]⟩
  advanced _ _ _ _ _ present prepared stepped :=
    (Process.moves_of_step stepped).prepared present prepared
  steps _ _ _ _ _ stepped := Process.growsTo_of_step stepped
  happens _ _ _ added := MigrationDb.growsTo_addEntry added
  property_kept _ _ grows present entry member := grows.entries entry (present entry member)
  own_kept _ _ _ grows prepared := prepared.grown grows

/-- However processes start and whatever fails: a process that listens has accepted a
public key, has filled its pool and has set up the connection of its cache, and if it
migrates, every migration that was there before it is recorded and not newer than the
version it reports. -/
theorem listening_prepared {source target : StartState}
    (runs : (startup verifyPem).machine.Runs (fun _ _ => True) source target) {id : Nat}
    (absent : source.calls id = none) {process : Process}
    (found : target.calls id = some process) (listens : process.phase = .listening) :
    process.HasKey verifyPem ∧ process.HasPool ∧ process.HasCache ∧
      (runMigrations process.environment = true →
        process.HasSchema source.shared.directory.entries target.shared) := by
  have prepared := (relies_startup source.shared.directory.entries).of_runs runs absent
    (fun _ member => member) found
  have schema := prepared.schema
  rw [Process.SchemaReady, listens] at schema
  exact ⟨prepared.key (by simp [listens, StartPhase.stage]),
    prepared.pool (by simp [listens, StartPhase.stage]),
    prepared.cache (by simp [listens, StartPhase.stage]), schema⟩

/-- The environment of a process with nothing but a key in it. -/
def sampleEnvironment : Environment := fun name =>
  if name = "CORVUS_JWT_PUBLIC_KEY" then some "PEM"
  else if name = "CORVUS_MIGRATIONS_DIR" then some "/migrations"
  else none

def startChoice : StartChoice where
  attempts := [.connected, .connected]
  migrate := healthy sampleListing

/-- The process listens, and has migrated the one file. -/
def listeningState : StartState :=
  (startup fun _ => .ok ()).replay sampleDb
    (.start 0 sampleEnvironment :: List.replicate 14 (.advance 0 startChoice))

theorem listening_prepared_first : ∃ process,
    listeningState.calls 0 = some process ∧ process.phase = .listening ∧
      process.HasSchema sampleListing listeningState.shared := by
  have replayed : (listeningState.calls 0).map (fun process =>
      (process.phase, runMigrations process.environment)) = some (.listening, true) := by
    rfl
  obtain ⟨process, found, same⟩ := Option.map_eq_some_iff.mp replayed
  obtain ⟨listens, enabled⟩ := Prod.mk.inj same
  have runs : (startup fun _ => .ok ()).machine.Runs (fun _ _ => True)
      (Component.fresh sampleDb) listeningState :=
    Component.runs_replay rfl (Machine.allows_of_forall fun _ _ _ => trivial)
  exact ⟨process, found, listens,
    (listening_prepared runs rfl found listens).2.2.2 enabled⟩

/-! ## Starting processes as runs of the migrations -/

/-- The run of the migrations in a process. -/
def pickRun (process : Process) : Option MigrateRun :=
  match process.phase with
  | .migrating run => some run
  | _ => none

abbrev migrationView (state : StartState) : MigrationState :=
  Component.view id pickRun state

/-- The version table is there when it is ensured again. -/
theorem createTable_eq {db : MigrationDb} (table : db.schemaMigrations.isSome = true) :
    db.createTable = db := by
  obtain ⟨rows, found⟩ := Option.isSome_iff_exists.mp table
  unfold MigrationDb.createTable
  rw [found, Option.getD_some, ← found]

/-- In every state that is reached, the table is there when a process ensures it again. -/
theorem createTable_of_reachable {guard : StartState → StartEvent → Prop} {state : StartState}
    (reachable : (startup verifyPem).machine.Reachable guard state) {id : Nat}
    {process : Process} (found : state.calls id = some process) {applied : Nat}
    (phase : process.phase = .versionTable applied) :
    state.shared.createTable = state.shared := by
  have unguarded : (startup verifyPem).machine.Reachable (fun _ _ => True) state :=
    reachable.mono fun _ _ _ => trivial
  obtain ⟨start, isInitial, runs⟩ := unguarded
  have prepared := (relies_startup []).of_runs runs (by rw [isInitial.2])
    (fun _ member => by cases member) found
  have schema := prepared.schema
  rw [Process.SchemaReady, phase] at schema
  exact createTable_eq schema.1

section Migrations

variable {guard : StartState → StartEvent → Prop}
variable {runGuard : MigrationState → MigrationEvent → Prop}

/-- A process that has ended migrates no more. -/
theorem partStep_ended {state : StartState} {id : Nat} {own : Option MigrateRun} :
    Component.PartStep migrationRunner
      (fun request => runGuard (migrationView state) (.start id request))
      (fun choice => runGuard (migrationView state) (.advance id choice))
      state.shared own none state.shared := by
  cases own with
  | none => exact .idle none
  | some run => exact .ends run

/-- A guard that leaves it open when runs start and stop and when files are added. -/
structure RestrictsSteps (runGuard : MigrationState → MigrationEvent → Prop) : Prop where
  starts : ∀ state id, runGuard state (.start id ())
  stops : ∀ state id, runGuard state (.stop id)
  happens : ∀ state entry, runGuard state (.happen entry)

/-- Starting processes do to the migrations only what runs of them do, and step as these
may if their own steps are guarded in this way. -/
theorem hosts_migrations (restricts : RestrictsSteps runGuard)
    (guarded : ∀ state id choice, guard state (.advance id choice) →
      runGuard (migrationView state) (.advance id choice.migrate)) :
    Component.Hosts (startup verifyPem) guard migrationRunner runGuard id pickRun where
  initially _ isInitial := isInitial
  hostsAt state reachable :=
    { entered := fun _ _ _ => .idle none
      stopped := restricts.stops
      happened := fun entry _ _ added => Or.inr ⟨entry, restricts.happens _ entry, added⟩
      advanced := by
        intro id choice process next after allowed found stepped
        have tableThere : ∀ applied, process.phase = .versionTable applied →
            state.shared.createTable = state.shared :=
          fun applied phase => createTable_of_reachable reachable found phase
        cases Process.moves_of_step stepped with
        | exits => exact partStep_ended
        | terminates => exact partStep_ended
        | tableLost phase =>
            exact .unchanged (by simp [pickRun, phase, Process.exit]) (tableThere _ phase)
        | ensured phase => exact .unchanged (by simp [pickRun, phase]) (tableThere _ phase)
        | pooled phase constructed =>
            refine .unchanged ?_ rfl
            cases enabled : runMigrations process.environment <;> simp [pickRun, phase]
        | begins phase =>
            have nothing : pickRun process = none := by simp [pickRun, phase]
            rw [nothing]
            exact .begins (restricts.starts _ id)
        | @migrates run moved _ phase runStepped =>
            have running : pickRun process = some run := by simp [pickRun, phase]
            rw [running]
            exact .moves (guarded state id choice allowed) runStepped
        | @migrated run count phase finished =>
            have running : pickRun process = some run := by simp [pickRun, phase]
            rw [running]
            exact .ends run
        | keyRead phase | keysRetried phase | keysConnected phase | reports phase
        | listens phase => exact .unchanged (by simp [pickRun, phase]) rfl }

end Migrations

/-- However processes start, retry and fail: seen through their runs of the migrations,
they are runs of the migrations alone. -/
theorem startup_refines_migrations :
    (startup verifyPem).machine.Refines (fun _ _ => True) migrationRunner.machine
      (fun _ _ => True) migrationView := by
  refine (hosts_migrations ⟨?_, ?_, ?_⟩ ?_).refines
  all_goals intros; trivial

/-- The processes keep apart what their runs of the migrations do. -/
def StartsApart (state : StartState) : StartEvent → Prop
  | .advance id choice => RunsApart (migrationView state) (.advance id choice.migrate)
  | _ => True

/-- So no migration is completed twice by processes that keep their runs apart. -/
theorem startups_execute_once {state : StartState}
    (reachable : (startup verifyPem).machine.Reachable StartsApart state) :
    ExecutedOnce state.shared := by
  have restricts : RestrictsSteps RunsApart :=
    ⟨fun _ _ => trivial, fun _ _ => trivial, fun _ _ => trivial⟩
  have hosts : Component.Hosts (startup verifyPem) StartsApart migrationRunner RunsApart id
      pickRun := hosts_migrations restricts fun _ _ _ apart => apart
  exact (obligations_once.of_reachable (hosts.refines.reachable reachable)).shared

end Corvus.Server
