import Corvus.Concurrent
import Corvus.Db.Timestamp
import Mathlib.Data.List.Sort
import Mathlib.Data.List.TakeWhile

/-!
# Running the migrations of a directory

A runner discovers the migration files of a directory, asks the database which
versions are recorded, and for every other file executes its SQL and then
records its version.  These are separate statements on pooled connections, with
no lock between them.

What the SQL of a migration does to other tables is no part of the model; it
leaves `schema_migrations` alone.  Two fields are there for the statements only:
`completed`, the migrations whose SQL has run to successful completion, and
`executed`, those whose SQL a run has sent.
-/

namespace Corvus.Db

/-! ## Files -/

/-- An entry of the migration directory; a file without contents cannot be opened. -/
structure DirectoryEntry where
  filename : String
  regular : Bool
  contents : Option String
  deriving DecidableEq

/-- A directory holds at most one entry of each name. -/
structure Directory where
  path : String
  entries : List DirectoryEntry
  names_nodup : (entries.map DirectoryEntry.filename).Nodup

structure Migration where
  version : Nat
  name : String
  sql : String
  path : String
  deriving DecidableEq

/-- What ends `migrate`: a `MigrationError`, or an exception of something it calls. -/
inductive MigrationFailure where
  | migrationError (what : String)
  | outOfRange (what : String)
  | other (what : String)
  deriving DecidableEq

/-- `dir / filename` -/
def entryPath (dir filename : String) : String :=
  if dir.toList.getLast? = some '/' then dir ++ filename else dir ++ "/" ++ filename

/-- The first group of `^(\d+)_(.+)\.sql$`, where `.` is anything but a line end. -/
def versionDigits (filename : String) : Option (List Char) :=
  let digits := filename.toList.takeWhile Char.isDigit
  match filename.toList.dropWhile Char.isDigit with
  | '_' :: rest =>
      if digits ≠ [] ∧ ['.', 's', 'q', 'l'] <:+ rest ∧ 4 < rest.length ∧
          rest.all fun char => char != '\n' && char != '\r' then
        some digits
      else
        none
  | _ => none

/-- The file name without its `.sql`. -/
def stem (filename : String) : String :=
  String.ofList (filename.toList.take (filename.toList.length - 4))

/-- One round of the loop of `discover`: `none` for an entry that is skipped. -/
def readEntry (dir : String) (entry : DirectoryEntry) :
    Except MigrationFailure (Option Migration) :=
  if entry.regular = false then
    .ok none
  else
    match versionDigits entry.filename with
    | none => .ok none
    | some digits =>
        -- `std::stoll`
        if 2 ^ 63 ≤ decimalValue digits then
          .error (.outOfRange "stoll")
        else
          match entry.contents with
          | none => .error (.migrationError
              ("Cannot open migration file: " ++ entryPath dir entry.filename))
          | some sql =>
              if sql = "" then
                .error (.migrationError
                  ("Migration file is empty: " ++ entryPath dir entry.filename))
              else
                .ok (some {
                  version := decimalValue digits
                  name := stem entry.filename
                  sql
                  path := entryPath dir entry.filename })

def readEntries (dir : String) : List DirectoryEntry →
    Except MigrationFailure (List Migration)
  | [] => .ok []
  | entry :: rest => do
      let found ← readEntry dir entry
      let others ← readEntries dir rest
      .ok (found.toList ++ others)

/-- `discover`, for the order the directory iterator yields its entries in.  As any
order may be yielded, this covers all that an unstable sort may do with equal
versions. -/
def discover (dir : String) (listing : List DirectoryEntry) :
    Except MigrationFailure (List Migration) :=
  match readEntries dir listing with
  | .error failure => .error failure
  | .ok migrations =>
      .ok (migrations.insertionSort fun left right => left.version ≤ right.version)

/-! ## The database and the runs -/

structure MigrationDb where
  directory : Directory
  /-- The rows of `schema_migrations`, once there is such a table. -/
  schemaMigrations : Option (List (Nat × String))
  completed : List Migration

/-- Where `migrate` is. -/
inductive MigratePhase where
  | discover
  | ensureTable (all : List Migration)
  | selectVersions (all : List Migration)
  | applyNext (applied : List Nat) (rest : List Migration) (count : Nat)
  | record (current : Migration) (applied : List Nat) (rest : List Migration) (count : Nat)
  | finished (count : Nat)
  | failed (failure : MigrationFailure)
  deriving DecidableEq

structure MigrateRun where
  phase : MigratePhase
  executed : List Migration
  deriving DecidableEq

/-- What may go wrong with a statement: there is no connection or no transaction to
send it in, it is refused, or its reply is lost and it has taken effect. -/
inductive StatementFault where
  | none
  | notBegun
  | refused
  | replyLost
  deriving DecidableEq

/-- What a step leaves open: the order of a listing, and the fate of a statement
with the message of the exception it throws. -/
structure MigrateChoice where
  listing : List DirectoryEntry
  fault : StatementFault
  what : String

namespace MigrationDb

/-- `CREATE TABLE IF NOT EXISTS schema_migrations` -/
def createTable (db : MigrationDb) : MigrationDb :=
  { db with schemaMigrations := some (db.schemaMigrations.getD []) }

/-- `INSERT ... ON CONFLICT (version) DO NOTHING` -/
def insertVersion (db : MigrationDb) (migration : Migration) : MigrationDb :=
  { db with schemaMigrations := db.schemaMigrations.map fun rows =>
      if migration.version ∈ rows.map Prod.fst then rows
      else rows ++ [(migration.version, migration.name)] }

/-- `SELECT version FROM schema_migrations` -/
def versions (db : MigrationDb) : List Nat :=
  (db.schemaMigrations.getD []).map Prod.fst

def complete (db : MigrationDb) (migration : Migration) : MigrationDb :=
  { db with completed := db.completed ++ [migration] }

/-- A file that was not there is added to the directory. -/
def addEntry (db : MigrationDb) (entry : DirectoryEntry) : Option MigrationDb :=
  if fresh : entry.filename ∉ db.directory.entries.map DirectoryEntry.filename then
    some { db with directory := {
      path := db.directory.path
      entries := entry :: db.directory.entries
      names_nodup := List.nodup_cons.mpr ⟨fresh, db.directory.names_nodup⟩ } }
  else
    none

end MigrationDb

/-- The files still to be applied, after those with an applied version are skipped. -/
def skipApplied (applied : List Nat) (rest : List Migration) : List Migration :=
  rest.dropWhile fun migration => applied.contains migration.version

namespace MigrateRun

def fail (run : MigrateRun) (failure : MigrationFailure) : MigrateRun :=
  { run with phase := .failed failure }

/-- `ensure_migrations_table` on a connection of its own acquire. -/
def ensureTable (run : MigrateRun) (all : List Migration) (choice : MigrateChoice)
    (db : MigrationDb) : MigrateRun × MigrationDb :=
  match choice.fault with
  | .notBegun => (run.fail (.other choice.what), db)
  | .refused => (run.fail (.migrationError
      ("Failed to create schema_migrations: " ++ choice.what)), db)
  | .replyLost => (run.fail (.migrationError
      ("Failed to create schema_migrations: " ++ choice.what)), db.createTable)
  | .none => ({ run with phase := .selectVersions all }, db.createTable)

/-- The rest of `applied_versions`. -/
def selectVersions (run : MigrateRun) (all : List Migration) (choice : MigrateChoice)
    (db : MigrationDb) : MigrateRun × MigrationDb :=
  let failure := MigrationFailure.migrationError
    ("Failed to query schema_migrations: " ++ choice.what)
  match choice.fault with
  | .notBegun => (run.fail (.other choice.what), db)
  | .refused | .replyLost => (run.fail failure, db)
  | .none =>
      match db.schemaMigrations with
      | none => (run.fail failure, db)
      | some _ => ({ run with phase := .applyNext db.versions all 0 }, db)

/-- The SQL of a migration, in a `nontransaction`. -/
def executeSql (run : MigrateRun) (migration : Migration) (applied : List Nat)
    (rest : List Migration) (count : Nat) (choice : MigrateChoice) (db : MigrationDb) :
    MigrateRun × MigrationDb :=
  let failure := MigrationFailure.migrationError
    ("Migration " ++ migration.name ++ " failed: " ++ choice.what)
  let sent := { run with executed := run.executed ++ [migration] }
  match choice.fault with
  | .notBegun => (run.fail (.other choice.what), db)
  | .refused => (sent.fail failure, db)
  | .replyLost => (sent.fail failure, db.complete migration)
  | .none => ({ sent with phase := .record migration applied rest count },
      db.complete migration)

/-- The `INSERT` into `schema_migrations`, in a transaction of its own. -/
def record (run : MigrateRun) (migration : Migration) (applied : List Nat)
    (rest : List Migration) (count : Nat) (choice : MigrateChoice) (db : MigrationDb) :
    MigrateRun × MigrationDb :=
  let failure := MigrationFailure.migrationError
    ("Failed to record migration " ++ migration.name ++ ": " ++ choice.what)
  match choice.fault with
  | .notBegun => (run.fail (.other choice.what), db)
  | .refused => (run.fail failure, db)
  | .replyLost => (run.fail failure, db.insertVersion migration)
  | .none =>
      match db.schemaMigrations with
      | none => (run.fail failure, db)
      | some _ => ({ run with phase := .applyNext applied rest (count + 1) },
          db.insertVersion migration)

/-- One step of `migrate`. -/
def step (run : MigrateRun) (choice : MigrateChoice) (db : MigrationDb) :
    Option (MigrateRun × MigrationDb) :=
  match run.phase with
  | .discover =>
      if choice.listing.isPerm db.directory.entries then
        match Corvus.Db.discover db.directory.path choice.listing with
        | .error failure => some (run.fail failure, db)
        | .ok all => some ({ run with phase := .ensureTable all }, db)
      else
        none
  | .ensureTable all => some (run.ensureTable all choice db)
  | .selectVersions all => some (run.selectVersions all choice db)
  | .applyNext applied rest count =>
      match skipApplied applied rest with
      | [] => some ({ run with phase := .finished count }, db)
      | migration :: others =>
          some (run.executeSql migration applied others count choice db)
  | .record migration applied rest count =>
      some (run.record migration applied rest count choice db)
  | .finished _ | .failed _ => none

end MigrateRun

/-! ## What discovery finds -/

/-- A regular file whose name `discover` accepts. -/
def DirectoryEntry.IsMigration (entry : DirectoryEntry) : Prop :=
  entry.regular = true ∧ versionDigits entry.filename ≠ none

/-- The migration an entry is read as. -/
def Directory.Holds (directory : Directory) (migration : Migration) : Prop :=
  ∃ entry ∈ directory.entries, readEntry directory.path entry = .ok (some migration)

/-- A successful discovery: all migrations of the directory, in ascending order of
their versions. -/
structure Discovered (directory : Directory) (all : List Migration) : Prop where
  mem_iff : ∀ migration, migration ∈ all ↔ directory.Holds migration
  complete : ∀ entry ∈ directory.entries, entry.IsMigration →
    ∃ migration, readEntry directory.path entry = .ok (some migration)
  sorted : all.Pairwise fun left right => left.version ≤ right.version
  paths_nodup : (all.map Migration.path).Nodup

theorem entryPath_injective {dir left right : String}
    (same : entryPath dir left = entryPath dir right) : left = right := by
  have chars := congrArg String.toList same
  unfold entryPath at chars
  apply String.toList_inj.mp
  split at chars <;> simpa [String.toList_append] using chars

theorem readEntry_path {dir : String} {entry : DirectoryEntry} {migration : Migration}
    (found : readEntry dir entry = .ok (some migration)) :
    migration.path = entryPath dir entry.filename := by
  unfold readEntry at found
  repeat' split at found
  all_goals first | cases found; rfl | cases found

/-- Entries with migrations in them are not skipped. -/
theorem readEntry_of_isMigration {dir : String} {entry : DirectoryEntry}
    {found : Option Migration} (isMigration : entry.IsMigration)
    (read : readEntry dir entry = .ok found) :
    ∃ migration, found = some migration := by
  obtain ⟨isRegular, named⟩ := isMigration
  unfold readEntry at read
  simp only [isRegular, Bool.true_eq_false, if_false] at read
  repeat' split at read
  all_goals first | contradiction | cases read
  exact ⟨_, rfl⟩

theorem readEntries_cons {dir : String} {entry : DirectoryEntry}
    {rest : List DirectoryEntry} {all : List Migration}
    (read : readEntries dir (entry :: rest) = .ok all) :
    ∃ found others, readEntry dir entry = .ok found ∧
      readEntries dir rest = .ok others ∧ all = found.toList ++ others := by
  simp only [readEntries] at read
  cases first : readEntry dir entry with
  | error failure =>
      rw [first] at read
      cases read
  | ok found =>
      cases later : readEntries dir rest with
      | error failure =>
          rw [first, later] at read
          cases read
      | ok others =>
          rw [first, later] at read
          cases read
          exact ⟨found, others, rfl, rfl, rfl⟩

theorem mem_readEntries {dir : String} {listing : List DirectoryEntry}
    {all : List Migration} (read : readEntries dir listing = .ok all)
    (migration : Migration) :
    migration ∈ all ↔ ∃ entry ∈ listing, readEntry dir entry = .ok (some migration) := by
  induction listing generalizing all with
  | nil =>
      cases read
      simp
  | cons entry rest ih =>
      obtain ⟨found, others, first, later, rfl⟩ := readEntries_cons read
      simp [ih later, first]

theorem readEntries_complete {dir : String} {listing : List DirectoryEntry}
    {all : List Migration} (read : readEntries dir listing = .ok all)
    {entry : DirectoryEntry} (member : entry ∈ listing) :
    ∃ found, readEntry dir entry = .ok found := by
  induction listing generalizing all with
  | nil => cases member
  | cons head rest ih =>
      obtain ⟨found, others, first, later, _⟩ := readEntries_cons read
      rcases List.mem_cons.mp member with rfl | inRest
      · exact ⟨found, first⟩
      · exact ih later inRest

/-- The paths found are those of the listed names, in the same order. -/
theorem paths_readEntries {dir : String} {listing : List DirectoryEntry}
    {all : List Migration} (read : readEntries dir listing = .ok all) :
    (all.map Migration.path).Sublist
      (listing.map fun entry => entryPath dir entry.filename) := by
  induction listing generalizing all with
  | nil =>
      cases read
      exact List.Sublist.refl _
  | cons entry rest ih =>
      obtain ⟨found, others, first, later, rfl⟩ := readEntries_cons read
      cases found with
      | none => exact (ih later).cons _
      | some migration =>
          simp only [Option.toList_some, List.singleton_append, List.map_cons,
            readEntry_path first]
          exact (ih later).cons_cons _

theorem paths_nodup_of_readEntries {directory : Directory} {listing : List DirectoryEntry}
    {all : List Migration} (permuted : listing.Perm directory.entries)
    (read : readEntries directory.path listing = .ok all) :
    (all.map Migration.path).Nodup := by
  have names : (listing.map DirectoryEntry.filename).Nodup :=
    (permuted.map _).nodup_iff.mpr directory.names_nodup
  have paths : (listing.map fun entry =>
      entryPath directory.path entry.filename).Nodup := by
    have mapped : ((listing.map DirectoryEntry.filename).map
        (entryPath directory.path)).Nodup :=
      names.map fun _ _ same => entryPath_injective same
    rwa [List.map_map] at mapped
  exact paths.sublist (paths_readEntries read)

theorem Discovered.of_discover {directory : Directory} {listing : List DirectoryEntry}
    {all : List Migration} (permuted : listing.Perm directory.entries)
    (found : discover directory.path listing = .ok all) : Discovered directory all := by
  unfold discover at found
  split at found
  · cases found
  · rename_i migrations read
    cases found
    have sorts : (migrations.insertionSort fun left right =>
        left.version ≤ right.version).Perm migrations := List.perm_insertionSort _ _
    refine ⟨fun migration => ?_, fun entry member isMigration => ?_, ?_, ?_⟩
    · rw [sorts.mem_iff, mem_readEntries read]
      simp only [Directory.Holds, permuted.mem_iff]
    · obtain ⟨result, readsEntry⟩ :=
        readEntries_complete read (permuted.mem_iff.mpr member)
      obtain ⟨migration, rfl⟩ := readEntry_of_isMigration isMigration readsEntry
      exact ⟨migration, readsEntry⟩
    · exact List.pairwise_insertionSort _ _
    · exact (sorts.map _).nodup_iff.mpr (paths_nodup_of_readEntries permuted read)

/-- A path holds one migration. -/
theorem Directory.Holds.eq_of_path {directory : Directory} {left right : Migration}
    (holdsLeft : directory.Holds left) (holdsRight : directory.Holds right)
    (same : left.path = right.path) : left = right := by
  obtain ⟨entry, member, read⟩ := holdsLeft
  obtain ⟨other, otherMember, otherRead⟩ := holdsRight
  have names : entry.filename = other.filename := by
    have paths : entryPath directory.path entry.filename =
        entryPath directory.path other.filename := by
      rw [← readEntry_path read, ← readEntry_path otherRead, same]
    exact entryPath_injective paths
  have entries : entry = other :=
    List.inj_on_of_nodup_map directory.names_nodup member otherMember names
  subst entries
  rw [read] at otherRead
  cases otherRead
  rfl

/-! ## What a step does -/

/-- The files a run has not come to yet. -/
def MigrateRun.ahead (run : MigrateRun) : List Migration :=
  match run.phase with
  | .ensureTable all | .selectVersions all => all
  | .applyNext _ rest _ | .record _ _ rest _ => rest
  | _ => []

/-- The files whose SQL a run is going to execute. -/
def MigrateRun.pending (run : MigrateRun) : List Migration :=
  match run.phase with
  | .applyNext applied rest _ | .record _ applied rest _ =>
      rest.filter fun migration => !applied.contains migration.version
  | _ => []

/-- The steps of a run, by what they do. -/
inductive MigrateRun.Moves (run : MigrateRun) (choice : MigrateChoice)
    (db : MigrationDb) : MigrateRun → MigrationDb → Prop where
  | discovered {all : List Migration} :
      run.phase = .discover → Discovered db.directory all →
      Moves run choice db { run with phase := .ensureTable all } db
  | tableEnsured {all : List Migration} :
      run.phase = .ensureTable all →
      Moves run choice db { run with phase := .selectVersions all } db.createTable
  | versionsSelected {all : List Migration} :
      run.phase = .selectVersions all → choice.fault = .none →
      Moves run choice db { run with phase := .applyNext db.versions all 0 } db
  | finished {applied : List Nat} {rest : List Migration} {count : Nat} :
      run.phase = .applyNext applied rest count → skipApplied applied rest = [] →
      Moves run choice db { run with phase := .finished count } db
  | executed {applied : List Nat} {rest others : List Migration} {count : Nat}
      {migration : Migration} :
      run.phase = .applyNext applied rest count →
      skipApplied applied rest = migration :: others → choice.fault = .none →
      Moves run choice db
        { phase := .record migration applied others count
          executed := run.executed ++ [migration] }
        (db.complete migration)
  | recorded {applied : List Nat} {rest : List Migration} {count : Nat}
      {migration : Migration} :
      run.phase = .record migration applied rest count →
      db.schemaMigrations.isSome = true →
      Moves run choice db { run with phase := .applyNext applied rest (count + 1) }
        (db.insertVersion migration)
  /-- The run fails after its statement had no effect, or not that of completing a
  migration. -/
  | failed {next : MigrateRun} {after : MigrationDb} {failure : MigrationFailure} :
      next.phase = .failed failure → after.completed = db.completed →
      Moves run choice db next after
  /-- The run fails after the SQL of a migration has been completed. -/
  | completedUnseen {next : MigrateRun} {failure : MigrationFailure} {applied : List Nat}
      {rest others : List Migration} {count : Nat} {migration : Migration} :
      run.phase = .applyNext applied rest count →
      skipApplied applied rest = migration :: others → choice.fault = .replyLost →
      next.phase = .failed failure →
      Moves run choice db next (db.complete migration)

theorem MigrateRun.moves_of_step {run next : MigrateRun} {choice : MigrateChoice}
    {db after : MigrationDb} (stepped : run.step choice db = some (next, after)) :
    run.Moves choice db next after := by
  unfold MigrateRun.step at stepped
  cases phase : run.phase with
  | discover =>
      simp only [phase] at stepped
      split at stepped
      · rename_i permuted
        split at stepped
        · cases stepped
          exact .failed rfl rfl
        · rename_i all found
          cases stepped
          exact .discovered phase (.of_discover (List.isPerm_iff.mp permuted) found)
      · cases stepped
  | ensureTable all =>
      simp only [phase, Option.some.injEq, MigrateRun.ensureTable] at stepped
      split at stepped <;> cases stepped
      · exact .failed rfl rfl
      · exact .failed rfl rfl
      · exact .failed rfl rfl
      · exact .tableEnsured phase
  | selectVersions all =>
      simp only [phase, Option.some.injEq, MigrateRun.selectVersions] at stepped
      split at stepped
      · cases stepped
        exact .failed rfl rfl
      · cases stepped
        exact .failed rfl rfl
      · cases stepped
        exact .failed rfl rfl
      · rename_i healthy
        split at stepped <;> cases stepped
        · exact .failed rfl rfl
        · exact .versionsSelected phase healthy
  | applyNext applied rest count =>
      simp only [phase] at stepped
      split at stepped
      · rename_i nothing
        cases stepped
        exact .finished phase nothing
      · rename_i migration others skipped
        simp only [Option.some.injEq, MigrateRun.executeSql] at stepped
        split at stepped <;> rename_i fault <;> cases stepped
        · exact .failed rfl rfl
        · exact .failed rfl rfl
        · exact .completedUnseen phase skipped fault rfl
        · exact .executed phase skipped fault
  | record migration applied rest count =>
      simp only [phase, Option.some.injEq, MigrateRun.record] at stepped
      split at stepped
      · cases stepped
        exact .failed rfl rfl
      · cases stepped
        exact .failed rfl rfl
      · cases stepped
        exact .failed rfl rfl
      · split at stepped <;> cases stepped
        · exact .failed rfl rfl
        · rename_i table
          exact .recorded phase (by rw [table]; rfl)
  | finished count => simp [phase] at stepped
  | failed failure => simp [phase] at stepped

/-- Skipping leaves the files that are pending, the next one in front. -/
theorem filter_of_skipApplied {applied : List Nat} {rest others : List Migration}
    {migration : Migration} (skipped : skipApplied applied rest = migration :: others) :
    (rest.filter fun file => !applied.contains file.version) =
      migration :: others.filter fun file => !applied.contains file.version := by
  induction rest with
  | nil => cases skipped
  | cons head rest ih =>
      unfold skipApplied at skipped
      rw [List.dropWhile_cons] at skipped
      split at skipped
      · rename_i isApplied
        rw [List.filter_cons_of_neg (by simpa using isApplied)]
        exact ih skipped
      · rename_i isPending
        cases skipped
        exact List.filter_cons_of_pos (by simpa using isPending)

theorem MigrateRun.pending_of_skipApplied {run : MigrateRun} {applied : List Nat}
    {rest others : List Migration} {count : Nat} {migration : Migration}
    (phase : run.phase = .applyNext applied rest count)
    (skipped : skipApplied applied rest = migration :: others) :
    run.pending =
      migration :: others.filter fun file => !applied.contains file.version := by
  simp only [pending, phase]
  exact filter_of_skipApplied skipped

theorem filter_of_skipApplied_nil {applied : List Nat} {rest : List Migration}
    (nothing : skipApplied applied rest = []) :
    (rest.filter fun file => !applied.contains file.version) = [] := by
  unfold skipApplied at nothing
  rw [List.dropWhile_eq_nil_iff] at nothing
  rw [List.filter_eq_nil_iff]
  intro file member
  rw [nothing file member]
  decide

theorem sublist_of_skipApplied {applied : List Nat} {rest others : List Migration}
    {migration : Migration} (skipped : skipApplied applied rest = migration :: others) :
    (migration :: others).Sublist rest :=
  skipped ▸ List.dropWhile_sublist _

/-- Any number of `migrate` calls on one database and one directory. -/
def migrationRunner :
    Component MigrationDb Unit MigrateRun MigrateChoice DirectoryEntry where
  initial db := db.schemaMigrations = none ∧ db.completed = []
  enter _ _ := { phase := .discover, executed := [] }
  step := MigrateRun.step
  happen entry db := db.addEntry entry

abbrev MigrationState := Concurrent MigrationDb MigrateRun

abbrev MigrationEvent := ConcurrentEvent Unit MigrateChoice DirectoryEntry

/-- Nothing goes wrong in a step. -/
def healthy (listing : List DirectoryEntry) : MigrateChoice where
  listing
  fault := .none
  what := ""

/-- The first steps of a call of `migrate`: three up to its look at `schema_migrations`,
two for each file it executes, and one to return. -/
def migrateSteps (id : Nat) (listing : List DirectoryEntry) (steps : Nat) :
    List MigrationEvent :=
  .start id () :: List.replicate steps (.advance id (healthy listing))

end Corvus.Db
