import Corvus.Db.MigrationRunner

/-!
# The history of a growing migration directory

One runner at a time migrates a directory to which files are added between the
runs.  Files are told apart by their names, and what has been applied by the
number a name begins with.  Within a run two files of one number are both
executed; a file whose number an earlier run has recorded is never executed.
-/

namespace Corvus.Db

/-- Every migration file in the directory has been executed exactly once. -/
def EachFileExecutedOnce (db : MigrationDb) : Prop :=
  ∀ entry ∈ db.directory.entries, entry.IsMigration →
    (db.completed.map Migration.path).count (entryPath db.directory.path entry.filename) = 1

def Ascending (migrations : List Migration) : Prop :=
  migrations.Pairwise fun left right => left.version ≤ right.version

/-- What is promised of a call of `migrate` that has just returned. -/
structure Migrated (db : MigrationDb) (run : MigrateRun) : Prop where
  executed_once : EachFileExecutedOnce db
  ascending : Ascending run.executed

def AllFinished (state : MigrationState) : Prop :=
  ∀ id run, state.calls id = some run → ∃ count, run.phase = .finished count

/-- The runs follow one another and succeed, and files are added between them. -/
def InSequence (state : MigrationState) : MigrationEvent → Prop
  | .start _ _ => AllFinished state
  | .advance id choice => ∀ run next after, state.calls id = some run →
      run.step choice state.shared = some (next, after) →
      ∀ failure, next.phase ≠ .failed failure
  | .stop _ => False
  | .happen _ => AllFinished state

/-- The number of a migration file. -/
def DirectoryEntry.version (entry : DirectoryEntry) : Option Nat :=
  if entry.regular then (versionDigits entry.filename).map decimalValue else none

/-- A file that is added has a number that is not recorded. -/
def NumbersUnused (state : MigrationState) : MigrationEvent → Prop
  | .happen entry => ∀ version, entry.version = some version →
      version ∉ state.shared.versions
  | _ => True

/-! ## The table -/

@[simp] theorem MigrationDb.versions_createTable (db : MigrationDb) :
    db.createTable.versions = db.versions := rfl

theorem MigrationDb.mem_versions_insertVersion {db : MigrationDb} {migration : Migration}
    (table : db.schemaMigrations.isSome = true) (version : Nat) :
    version ∈ (db.insertVersion migration).versions ↔
      version ∈ db.versions ∨ version = migration.version := by
  obtain ⟨rows, found⟩ := Option.isSome_iff_exists.mp table
  simp only [versions, insertVersion, found, Option.map_some, Option.getD_some]
  split
  · rename_i present
    constructor
    · exact Or.inl
    · rintro (old | rfl)
      · exact old
      · exact present
  · simp

theorem readEntry_version {dir : String} {entry : DirectoryEntry} {migration : Migration}
    (found : readEntry dir entry = .ok (some migration)) :
    entry.version = some migration.version := by
  unfold readEntry at found
  unfold DirectoryEntry.version
  split at found
  · cases found
  · rename_i isRegular
    rw [if_pos (by simpa using isRegular)]
    split at found
    · cases found
    · rename_i digits matched
      rw [matched]
      repeat' split at found
      all_goals first | cases found; rfl | cases found

/-! ## The invariant -/

/-- What is completed comes from the directory, each file once. -/
structure Origin (db : MigrationDb) : Prop where
  held : ∀ migration ∈ db.completed, db.directory.Holds migration
  nodup : (db.completed.map Migration.path).Nodup

/-- What is completed is recorded, and a recorded number is that of a completed file. -/
structure Settled (db : MigrationDb) : Prop where
  recorded : ∀ migration ∈ db.completed, migration.version ∈ db.versions
  completed : ∀ migration, db.directory.Holds migration →
    migration.version ∈ db.versions → migration ∈ db.completed

/-- A run is in its loop: every file is completed or going to be executed, in order. -/
structure Underway (db : MigrationDb) (executed : List Migration) (applied : List Nat)
    (rest : List Migration) : Prop where
  readable : ∀ entry ∈ db.directory.entries, entry.IsMigration →
    ∃ migration, readEntry db.directory.path entry = .ok (some migration)
  covered : ∀ migration, db.directory.Holds migration →
    migration ∈ db.completed ∨ migration ∈ rest ∧ migration.version ∉ applied
  held : ∀ migration ∈ rest, db.directory.Holds migration
  new : ∀ migration ∈ rest, migration.version ∉ applied → migration ∉ db.completed
  distinct : (rest.map Migration.path).Nodup
  ascending : Ascending (executed ++ rest)

/-- What holds of the one run that has not finished. -/
def MigrateRun.Proceeds (db : MigrationDb) (run : MigrateRun) : Prop :=
  match run.phase with
  | .discover => Settled db ∧ run.executed = []
  | .ensureTable all | .selectVersions all =>
      Settled db ∧ Discovered db.directory all ∧ run.executed = []
  | .applyNext applied rest _ =>
      Underway db run.executed applied rest ∧
        ∀ migration ∈ db.completed, migration.version ∈ db.versions
  | .record current applied rest _ =>
      Underway db run.executed applied rest ∧
        ∀ migration ∈ db.completed, migration = current ∨ migration.version ∈ db.versions
  | .finished _ | .failed _ => False

/-- All runs have finished and the database is settled, or exactly one is under way. -/
def Orderly (state : MigrationState) : Prop :=
  AllFinished state ∧ Settled state.shared ∨
    ∃ id run, state.calls id = some run ∧ run.Proceeds state.shared ∧
      ∀ other bystander, other ≠ id → state.calls other = some bystander →
        ∃ count, bystander.phase = .finished count

theorem MigrateRun.Proceeds.not_finished {db : MigrationDb} {run : MigrateRun} {count : Nat}
    (proceeds : run.Proceeds db) : run.phase ≠ .finished count := by
  intro finished
  rw [Proceeds, finished] at proceeds
  exact proceeds

/-- Once every run has finished the database is settled. -/
theorem Orderly.settled {state : MigrationState} (orderly : Orderly state)
    (finished : AllFinished state) : Settled state.shared := by
  rcases orderly with ⟨_, settled⟩ | ⟨id, run, running, proceeds, _⟩
  · exact settled
  · obtain ⟨count, ended⟩ := finished id run running
    exact (proceeds.not_finished ended).elim

/-- A file is executed: it was new, and all others are where they were. -/
theorem Underway.execute {db : MigrationDb} {executed rest others : List Migration}
    {applied : List Nat} {migration : Migration}
    (underway : Underway db executed applied rest)
    (skipped : skipApplied applied rest = migration :: others) :
    Underway (db.complete migration) (executed ++ [migration]) applied others := by
  have filtered := filter_of_skipApplied skipped
  have fewer := sublist_of_skipApplied skipped
  have pending : ∀ file, file ∈ rest ∧ file.version ∉ applied →
      file = migration ∨ file ∈ others ∧ file.version ∉ applied := by
    intro file ahead
    have member : file ∈ rest.filter fun file => !applied.contains file.version :=
      List.mem_filter.mpr ⟨ahead.1, by simpa using ahead.2⟩
    rw [filtered, List.mem_cons, List.mem_filter] at member
    rcases member with same | ⟨later, _⟩
    · exact .inl same
    · exact .inr ⟨later, ahead.2⟩
  have distinct := underway.distinct.sublist (fewer.map Migration.path)
  rw [List.map_cons, List.nodup_cons] at distinct
  refine ⟨underway.readable, fun file held => ?_, fun file member => ?_,
    fun file member notApplied => ?_, distinct.2, ?_⟩
  · simp only [MigrationDb.complete, List.mem_append, List.mem_singleton]
    rcases underway.covered file held with done | ahead
    · exact .inl (.inl done)
    · rcases pending file ahead with same | later
      · exact .inl (.inr same)
      · exact .inr later
  · exact underway.held file (fewer.subset (List.mem_cons_of_mem _ member))
  · simp only [MigrationDb.complete, List.mem_append, List.mem_singleton, not_or]
    refine ⟨underway.new file (fewer.subset (List.mem_cons_of_mem _ member)) notApplied, ?_⟩
    rintro rfl
    exact distinct.1 (List.mem_map_of_mem member)
  · rw [List.append_assoc, List.singleton_append]
    exact underway.ascending.sublist (fewer.append_left _)

/-- The file that is executed next is held by the directory and has not been completed. -/
theorem Underway.next {db : MigrationDb} {executed rest others : List Migration}
    {applied : List Nat} {migration : Migration}
    (underway : Underway db executed applied rest)
    (skipped : skipApplied applied rest = migration :: others) :
    db.directory.Holds migration ∧ migration ∉ db.completed := by
  have member : migration ∈ rest.filter fun file => !applied.contains file.version := by
    rw [filter_of_skipApplied skipped]
    exact List.mem_cons_self
  obtain ⟨inRest, notApplied⟩ := List.mem_filter.mp member
  exact ⟨underway.held _ inRest, underway.new _ inRest (by simpa using notApplied)⟩

theorem Underway.congr {db after : MigrationDb} {executed rest : List Migration}
    {applied : List Nat} (underway : Underway db executed applied rest)
    (directory : after.directory = db.directory) (completed : after.completed = db.completed) :
    Underway after executed applied rest := by
  refine ⟨?_, ?_, ?_, ?_, underway.distinct, underway.ascending⟩
  · rw [directory]
    exact underway.readable
  · rw [directory, completed]
    exact underway.covered
  · rw [directory]
    exact underway.held
  · rw [completed]
    exact underway.new

/-- A run that has come to its end has executed every file. -/
theorem Underway.settled {db : MigrationDb} {executed rest : List Migration}
    {applied : List Nat} (underway : Underway db executed applied rest)
    (nothing : skipApplied applied rest = []) {migration : Migration}
    (held : db.directory.Holds migration) : migration ∈ db.completed := by
  rcases underway.covered migration held with done | ⟨inRest, notApplied⟩
  · exact done
  · have member : migration ∈ rest.filter fun file => !applied.contains file.version :=
      List.mem_filter.mpr ⟨inRest, by simpa using notApplied⟩
    rw [filter_of_skipApplied_nil nothing] at member
    cases member

theorem Origin.complete {db : MigrationDb} {migration : Migration} (origin : Origin db)
    (held : db.directory.Holds migration) (new : migration ∉ db.completed) :
    Origin (db.complete migration) := by
  refine ⟨fun file member => ?_, ?_⟩
  · rcases List.mem_append.mp member with old | isNew
    · exact origin.held file old
    · rw [List.mem_singleton] at isNew
      exact isNew ▸ held
  · simp only [MigrationDb.complete, List.map_append, List.map_cons, List.map_nil]
    refine List.nodup_append.mpr ⟨origin.nodup, List.nodup_singleton _, ?_⟩
    intro path member other isNew same
    rw [List.mem_singleton] at isNew
    obtain ⟨file, completed, rfl⟩ := List.mem_map.mp member
    have eq : file = migration := (origin.held file completed).eq_of_path held (same.trans isNew)
    exact new (eq ▸ completed)

/-! ## One step of the run under way -/

/-- A run decides what to execute from a settled database. -/
theorem Settled.underway {db : MigrationDb} {all : List Migration} (settled : Settled db)
    (found : Discovered db.directory all) : Underway db [] db.versions all := by
  refine ⟨found.complete, fun migration held => ?_,
    fun migration member => (found.mem_iff migration).mp member,
    fun migration _ notApplied completed => ?_, found.paths_nodup, found.sorted⟩
  · by_cases recorded : migration.version ∈ db.versions
    · exact .inl (settled.completed migration held recorded)
    · exact .inr ⟨(found.mem_iff migration).mpr held, recorded⟩
  · exact notApplied (settled.recorded migration completed)

theorem Settled.createTable {db : MigrationDb} (settled : Settled db) :
    Settled db.createTable :=
  ⟨settled.recorded, settled.completed⟩

/-- What one step of a run that does not fail preserves. -/
theorem MigrateRun.Moves.proceeds {run next : MigrateRun} {choice : MigrateChoice}
    {db after : MigrationDb} (moves : run.Moves choice db next after)
    (succeeds : ∀ failure, next.phase ≠ .failed failure) (origin : Origin db)
    (proceeds : run.Proceeds db) :
    Origin after ∧ (next.Proceeds after ∨
      (∃ count, next.phase = .finished count) ∧ Settled after) := by
  unfold Proceeds at proceeds
  cases moves with
  | discovered phase found =>
      rw [phase] at proceeds
      exact ⟨origin, .inl ⟨proceeds.1, found, proceeds.2⟩⟩
  | tableEnsured phase =>
      rw [phase] at proceeds
      exact ⟨⟨origin.held, origin.nodup⟩, .inl ⟨proceeds.1.createTable, proceeds.2⟩⟩
  | versionsSelected phase healthy =>
      rw [phase] at proceeds
      obtain ⟨settled, found, nothing⟩ := proceeds
      refine ⟨origin, .inl ⟨?_, settled.recorded⟩⟩
      rw [nothing]
      exact settled.underway found
  | finished phase nothing =>
      rw [phase] at proceeds
      obtain ⟨underway, recorded⟩ := proceeds
      exact ⟨origin, .inr ⟨⟨_, rfl⟩, recorded, fun migration held _ =>
        underway.settled nothing held⟩⟩
  | executed phase skipped fault =>
      rw [phase] at proceeds
      obtain ⟨underway, recorded⟩ := proceeds
      obtain ⟨held, new⟩ := underway.next skipped
      refine ⟨origin.complete held new, .inl ⟨underway.execute skipped, ?_⟩⟩
      intro file member
      rcases List.mem_append.mp member with old | isNew
      · exact .inr (recorded file old)
      · exact .inl (List.mem_singleton.mp isNew)
  | recorded phase table =>
      rw [phase] at proceeds
      obtain ⟨underway, recorded⟩ := proceeds
      refine ⟨⟨origin.held, origin.nodup⟩, .inl ⟨underway.congr rfl rfl, ?_⟩⟩
      intro file member
      rw [MigrationDb.mem_versions_insertVersion table]
      rcases recorded file member with rfl | old
      · exact .inr rfl
      · exact .inl old
  | failed ended => exact (succeeds _ ended).elim
  | completedUnseen _ _ _ ended => exact (succeeds _ ended).elim

/-- What a run that comes to its end has achieved. -/
theorem MigrateRun.Moves.migrated {run next : MigrateRun} {choice : MigrateChoice}
    {db after : MigrationDb} {count : Nat} (moves : run.Moves choice db next after)
    (origin : Origin db) (proceeds : run.Proceeds db)
    (ended : next.phase = .finished count) : Migrated after next := by
  unfold Proceeds at proceeds
  cases moves with
  | @finished applied rest count phase nothing =>
      rw [phase] at proceeds
      obtain ⟨underway, _⟩ := proceeds
      refine ⟨fun entry member isMigration => ?_,
        underway.ascending.sublist (List.sublist_append_left _ _)⟩
      obtain ⟨migration, read⟩ := underway.readable entry member isMigration
      have done := underway.settled nothing ⟨entry, member, read⟩
      rw [← readEntry_path read]
      exact List.count_eq_one_of_mem origin.nodup (List.mem_map_of_mem done)
  | failed failed => rw [ended] at failed; cases failed
  | completedUnseen _ _ _ failed => rw [ended] at failed; cases failed
  | _ => cases ended

/-! ## Every run -/

theorem Directory.Holds.of_cons {directory : Directory} {entry : DirectoryEntry}
    {migration : Migration} {fresh}
    (held : Directory.Holds ⟨directory.path, entry :: directory.entries, fresh⟩ migration) :
    directory.Holds migration ∨ entry.version = some migration.version := by
  obtain ⟨found, member, read⟩ := held
  rcases List.mem_cons.mp member with rfl | old
  · exact .inr (readEntry_version read)
  · exact .inl ⟨found, old, read⟩

/-- A file with an unused number leaves the database settled. -/
theorem settled_of_addEntry {db after : MigrationDb} {entry : DirectoryEntry}
    (origin : Origin db) (settled : Settled db)
    (unused : ∀ version, entry.version = some version → version ∉ db.versions)
    (added : db.addEntry entry = some after) : Origin after ∧ Settled after := by
  unfold MigrationDb.addEntry at added
  split at added
  · cases added
    refine ⟨⟨fun migration completed => ?_, origin.nodup⟩, settled.recorded,
      fun migration held recorded => ?_⟩
    · obtain ⟨found, member, read⟩ := origin.held migration completed
      exact ⟨found, List.mem_cons_of_mem _ member, read⟩
    · rcases held.of_cons with old | numbered
      · exact settled.completed migration old recorded
      · exact (unused _ numbered recorded).elim
  · cases added

/-- The run that takes a step is the one under way. -/
theorem Orderly.running {state : MigrationState} {id : Nat} {run : MigrateRun}
    (orderly : Orderly state) (running : state.calls id = some run)
    (unfinished : ∀ count, run.phase ≠ .finished count) :
    run.Proceeds state.shared ∧ ∀ other bystander, other ≠ id →
      state.calls other = some bystander → ∃ count, bystander.phase = .finished count := by
  rcases orderly with ⟨finished, _⟩ | ⟨owner, ownRun, owned, proceeds, others⟩
  · obtain ⟨count, ended⟩ := finished id run running
    exact (unfinished count ended).elim
  · by_cases same : id = owner
    · subst same
      rw [running] at owned
      cases owned
      exact ⟨proceeds, others⟩
    · obtain ⟨count, ended⟩ := others id run same running
      exact (unfinished count ended).elim

theorem MigrateRun.unfinished_of_step {run next : MigrateRun} {choice : MigrateChoice}
    {db after : MigrationDb} (stepped : run.step choice db = some (next, after))
    (count : Nat) : run.phase ≠ .finished count := by
  intro finished
  simp [step, finished] at stepped

theorem orderly_step {state next : MigrationState} {event : MigrationEvent}
    (orderly : Origin state.shared ∧ Orderly state)
    (allowed : InSequence state event ∧ NumbersUnused state event)
    (stepped : migrationRunner.eventStep state event = some next) :
    Origin next.shared ∧ Orderly next := by
  obtain ⟨origin, orderly⟩ := orderly
  obtain ⟨inSequence, unused⟩ := allowed
  cases event with
  | start id request =>
      obtain ⟨_, rfl⟩ := Component.start_cases stepped
      have settled := orderly.settled inSequence
      refine ⟨origin, .inr ⟨id, _, Function.update_self _ _ _, ⟨settled, rfl⟩, ?_⟩⟩
      intro other bystander different present
      simp only [Function.update_of_ne different] at present
      exact inSequence other bystander present
  | advance id choice =>
      obtain ⟨run, moved, after, running, runStepped, rfl⟩ := Component.advance_cases stepped
      obtain ⟨proceeds, others⟩ :=
        orderly.running running (MigrateRun.unfinished_of_step runStepped)
      obtain ⟨originAfter, outcome⟩ := (MigrateRun.moves_of_step runStepped).proceeds
        (inSequence run moved after running runStepped) origin proceeds
      refine ⟨originAfter, ?_⟩
      rcases outcome with continues | ⟨ended, settled⟩
      · refine .inr ⟨id, moved, Function.update_self _ _ _, continues, ?_⟩
        intro other bystander different present
        simp only [Function.update_of_ne different] at present
        exact others other bystander different present
      · refine .inl ⟨fun other bystander present => ?_, settled⟩
        by_cases same : other = id
        · subst same
          simp only [Function.update_self, Option.some.injEq] at present
          exact present ▸ ended
        · simp only [Function.update_of_ne same] at present
          exact others other bystander same present
  | stop id => exact inSequence.elim
  | happen entry =>
      obtain ⟨after, added, rfl⟩ := Component.happen_cases stepped
      obtain ⟨originAfter, settled⟩ :=
        settled_of_addEntry origin (orderly.settled inSequence) unused added
      exact ⟨originAfter, .inl ⟨inSequence, settled⟩⟩

theorem orderly_of_reachable {state : MigrationState}
    (reachable : migrationRunner.machine.Reachable
      (fun state event => InSequence state event ∧ NumbersUnused state event) state) :
    Origin state.shared ∧ Orderly state := by
  refine @Machine.Reachable.invariant _ _ _ _
    (fun state => Origin state.shared ∧ Orderly state) ?_ ?_ _ reachable
  · intro start isInitial
    obtain ⟨⟨noTable, nothing⟩, noCalls⟩ := isInitial
    have settled : Settled start.shared := by
      refine ⟨fun migration completed => ?_, fun migration _ recorded => ?_⟩
      · rw [nothing] at completed
        cases completed
      · rw [MigrationDb.versions, noTable] at recorded
        cases recorded
    refine ⟨⟨fun migration completed => ?_, ?_⟩, .inl ⟨fun id run running => ?_, settled⟩⟩
    · rw [nothing] at completed
      cases completed
    · rw [nothing]
      exact List.nodup_nil
    · rw [noCalls] at running
      cases running
  · intro state event next orderly allowed stepped
    exact orderly_step orderly allowed stepped

/-- When no file is added whose number is recorded, every call of `migrate` that returns
leaves every file executed exactly once, and has executed its own in ascending order. -/
theorem migrate_executes_every_file {state next : MigrationState} {id count : Nat}
    {choice : MigrateChoice} {run : MigrateRun}
    (reachable : migrationRunner.machine.Reachable
      (fun state event => InSequence state event ∧ NumbersUnused state event) state)
    (stepped : migrationRunner.eventStep state (.advance id choice) = some next)
    (returned : next.calls id = some run) (finished : run.phase = .finished count) :
    Migrated next.shared run := by
  obtain ⟨origin, orderly⟩ := orderly_of_reachable reachable
  obtain ⟨before, moved, after, running, runStepped, rfl⟩ := Component.advance_cases stepped
  simp only [Function.update_self, Option.some.injEq] at returned
  subst returned
  obtain ⟨proceeds, _⟩ := orderly.running running (MigrateRun.unfinished_of_step runStepped)
  exact (MigrateRun.moves_of_step runStepped).migrated origin proceeds finished

/-! ## Replaying calls -/

/-- `AllFinished`, where the calls are looked for among some ids. -/
def allFinishedAmong (ids : List Nat) (state : MigrationState) : Bool :=
  ids.all fun id => (state.calls id).all fun run =>
    match run.phase with
    | .finished _ => true
    | _ => false

/-- `InSequence`, where the calls are looked for among some ids. -/
def inSequenceAmong (ids : List Nat) (state : MigrationState) : MigrationEvent → Bool
  | .start _ _ => allFinishedAmong ids state
  | .advance id choice => (state.calls id).all fun run =>
      (run.step choice state.shared).all fun moved =>
        match moved.1.phase with
        | .failed _ => false
        | _ => true
  | .stop _ => false
  | .happen _ => allFinishedAmong ids state

theorem allFinished_of_among {ids : List Nat} {state : MigrationState}
    (among : Component.CallsAmong ids state) (finished : allFinishedAmong ids state = true) :
    AllFinished state := by
  intro id run running
  have ended := List.all_eq_true.mp finished id (among.mem running)
  simp only [running, Option.all_some] at ended
  split at ended
  · rename_i count phase
    exact ⟨count, phase⟩
  · cases ended

theorem inSequence_of_among {ids : List Nat} {state : MigrationState}
    (among : Component.CallsAmong ids state) {event : MigrationEvent}
    (inSequence : inSequenceAmong ids state event = true) : InSequence state event := by
  cases event with
  | start id request => exact allFinished_of_among among inSequence
  | advance id choice =>
      intro run next after running stepped failure failed
      simp only [inSequenceAmong, running, stepped, Option.all_some, failed] at inSequence
      cases inSequence
  | stop id => cases inSequence
  | happen entry => exact allFinished_of_among among inSequence

/-- `NumbersUnused`, as a check. -/
def numbersUnused (state : MigrationState) : MigrationEvent → Bool
  | .happen entry => entry.version.all fun version => !state.shared.versions.contains version
  | _ => true

theorem numbersUnused_of_check {state : MigrationState} {event : MigrationEvent}
    (unused : numbersUnused state event = true) : NumbersUnused state event := by
  cases event with
  | happen entry =>
      intro version isVersion recorded
      simp [numbersUnused, isVersion, recorded] at unused
  | _ => trivial

/-- A single file. -/
def firstListing : List DirectoryEntry :=
  [⟨"2_users.sql", true, some "CREATE TABLE users ();"⟩]

def firstDb : MigrationDb where
  directory := { path := "/migrations", entries := firstListing, names_nodup := by decide }
  schemaMigrations := none
  completed := []

/-- A file whose number comes later, though its name sorts first. -/
def laterEntry : DirectoryEntry := ⟨"10_orders.sql", true, some "CREATE TABLE orders ();"⟩

/-- It is added after a first call, and a second call is about to return. -/
def addedThenMigrated : List MigrationEvent :=
  migrateSteps 1 firstListing 6 ++
    .happen laterEntry :: migrateSteps 2 (laterEntry :: firstListing) 5

def returningState : MigrationState := migrationRunner.replay firstDb addedThenMigrated

/-- The second call has returned. -/
def returnedAgain : MigrationState :=
  migrationRunner.replay firstDb
    (addedThenMigrated ++ [.advance 2 (healthy (laterEntry :: firstListing))])

theorem migrate_executes_every_file_added : ∃ run, returnedAgain.calls 2 = some run ∧
    run.executed.map Migration.name = ["10_orders"] ∧
    returnedAgain.shared.completed.map Migration.name = ["2_users", "10_orders"] ∧
    Migrated returnedAgain.shared run := by
  have allowed : migrationRunner.machine.Allows
      (fun state event => InSequence state event ∧ NumbersUnused state event)
      (Component.fresh firstDb) addedThenMigrated := by
    refine Component.allows_of_accepts [1, 2]
      (fun state event => inSequenceAmong [1, 2] state event && numbersUnused state event)
      (fun _ _ => rfl) (fun id request member => ?_) (fun state among event checked => ?_) rfl
    · simpa [addedThenMigrated, migrateSteps] using member
    · rw [Bool.and_eq_true] at checked
      exact ⟨inSequence_of_among among checked.1, numbersUnused_of_check checked.2⟩
  have reachable : migrationRunner.machine.Reachable _ returningState :=
    Component.reachable_replay ⟨rfl, rfl⟩ rfl allowed
  obtain ⟨run, returned⟩ : ∃ run, returnedAgain.calls 2 = some run := ⟨_, rfl⟩
  have ran : run.phase = .finished 1 ∧ run.executed.map Migration.name = ["10_orders"] := by
    cases returned
    exact ⟨rfl, rfl⟩
  have stepped : migrationRunner.eventStep returningState
      (.advance 2 (healthy (laterEntry :: firstListing))) = some returnedAgain := rfl
  exact ⟨run, returned, ran.2, rfl,
    migrate_executes_every_file reachable stepped returned ran.1⟩

/-! ## A second file of the same number -/

/-- Every call of `migrate` that returns leaves every file executed exactly once, whatever
files are added. -/
def MigrateExecutesEveryFile : Prop :=
  ∀ (state next : MigrationState) (id count : Nat) (choice : MigrateChoice)
    (run : MigrateRun), migrationRunner.machine.Reachable InSequence state →
    migrationRunner.eventStep state (.advance id choice) = some next →
    next.calls id = some run → run.phase = .finished count → Migrated next.shared run

def addedEntry : DirectoryEntry := ⟨"0002_orders.sql", true, some "CREATE TABLE orders ();"⟩

/-- A file that spells the number of the first one differently is added after a first call,
and the next call has looked at `schema_migrations`. -/
def addedThenLooked : List MigrationEvent :=
  migrateSteps 1 firstListing 6 ++
    .happen addedEntry :: migrateSteps 2 (addedEntry :: firstListing) 3

def skippingState : MigrationState := migrationRunner.replay firstDb addedThenLooked

def skippedState : MigrationState :=
  migrationRunner.replay firstDb
    (addedThenLooked ++ [.advance 2 (healthy (addedEntry :: firstListing))])

theorem skippingState_reachable :
    migrationRunner.machine.Reachable InSequence skippingState := by
  refine Component.reachable_replay ⟨rfl, rfl⟩ rfl
    (Component.allows_of_accepts [1, 2] (inSequenceAmong [1, 2]) (fun _ _ => rfl)
      (fun id request member => ?_) (fun _ among _ => inSequence_of_among among) rfl)
  simpa [addedThenLooked, migrateSteps] using member

theorem not_migrateExecutesEveryFile : ¬MigrateExecutesEveryFile := by
  intro every
  have migrated := every skippingState skippedState 2 0 (healthy (addedEntry :: firstListing)) _
    skippingState_reachable rfl rfl rfl
  have once := migrated.executed_once addedEntry (by decide) (by constructor <;> decide)
  exact absurd once (by decide)

end Corvus.Db
