import Corvus.Db.MigrationHistory

/-!
# What a run of the migrations covers

The directory and the table of recorded versions only grow, whatever the runs do and
whatever fails.  So a file that is in the directory when a run looks at it has its
number recorded when that run finishes: by the run itself, or by an earlier one.
-/

namespace Corvus.Db

/-! ## Growing -/

/-- Files and recorded versions are added, and none is taken away. -/
structure MigrationDb.GrowsTo (db after : MigrationDb) : Prop where
  entries : ∀ entry ∈ db.directory.entries, entry ∈ after.directory.entries
  table : db.schemaMigrations.isSome = true → after.schemaMigrations.isSome = true
  versions : ∀ version ∈ db.versions, version ∈ after.versions

namespace MigrationDb

variable {db after : MigrationDb}

theorem GrowsTo.refl (db : MigrationDb) : db.GrowsTo db :=
  ⟨fun _ member => member, fun table => table, fun _ member => member⟩

theorem growsTo_createTable (db : MigrationDb) : db.GrowsTo db.createTable :=
  ⟨fun _ member => member, fun _ => rfl, fun _ member => member⟩

theorem growsTo_complete (db : MigrationDb) (migration : Migration) :
    db.GrowsTo (db.complete migration) :=
  ⟨fun _ member => member, fun table => table, fun _ member => member⟩

theorem growsTo_insertVersion (db : MigrationDb) (migration : Migration) :
    db.GrowsTo (db.insertVersion migration) := by
  refine ⟨fun _ member => member, fun table => ?_, fun version member => ?_⟩
  · simpa [insertVersion] using table
  · have table : db.schemaMigrations.isSome = true := by
      cases rows : db.schemaMigrations with
      | none => simp [versions, rows] at member
      | some _ => rfl
    exact (mem_versions_insertVersion table version).mpr (Or.inl member)

theorem growsTo_addEntry {entry : DirectoryEntry} (added : db.addEntry entry = some after) :
    db.GrowsTo after := by
  unfold addEntry at added
  split at added
  · cases added
    exact ⟨fun _ member => List.mem_cons_of_mem _ member, fun table => table,
      fun _ member => member⟩
  · cases added

end MigrationDb

theorem MigrateRun.growsTo_of_step {run next : MigrateRun} {choice : MigrateChoice}
    {db after : MigrationDb} (stepped : run.step choice db = some (next, after)) :
    db.GrowsTo after := by
  unfold MigrateRun.step at stepped
  cases phase : run.phase with
  | discover =>
      simp only [phase] at stepped
      split at stepped
      · split at stepped <;> cases stepped <;> exact .refl db
      · cases stepped
  | ensureTable all =>
      simp only [phase, Option.some.injEq, MigrateRun.ensureTable] at stepped
      split at stepped <;> cases stepped
      · exact .refl db
      · exact .refl db
      · exact db.growsTo_createTable
      · exact db.growsTo_createTable
  | selectVersions all =>
      simp only [phase, Option.some.injEq, MigrateRun.selectVersions] at stepped
      split at stepped
      · cases stepped
        exact .refl db
      · cases stepped
        exact .refl db
      · cases stepped
        exact .refl db
      · split at stepped <;> cases stepped <;> exact .refl db
  | applyNext applied rest count =>
      simp only [phase] at stepped
      split at stepped
      · cases stepped
        exact .refl db
      · simp only [Option.some.injEq, MigrateRun.executeSql] at stepped
        split at stepped <;> cases stepped
        · exact .refl db
        · exact .refl db
        · exact db.growsTo_complete _
        · exact db.growsTo_complete _
  | record migration applied rest count =>
      simp only [phase, Option.some.injEq, MigrateRun.record] at stepped
      split at stepped
      · cases stepped
        exact .refl db
      · cases stepped
        exact .refl db
      · cases stepped
        exact db.growsTo_insertVersion _
      · split at stepped <;> cases stepped
        · exact .refl db
        · exact db.growsTo_insertVersion _
  | finished count => simp [phase] at stepped
  | failed failure => simp [phase] at stepped

/-! ## Covering -/

/-- The numbers of these files are among the versions. -/
def Covers (files : List DirectoryEntry) (versions : List Nat) : Prop :=
  ∀ entry ∈ files, ∀ version, entry.version = some version → version ∈ versions

theorem Covers.mono {files : List DirectoryEntry} {versions more : List Nat}
    (covers : Covers files versions) (fewer : ∀ version ∈ versions, version ∈ more) :
    Covers files more :=
  fun entry member version isVersion => fewer version (covers entry member version isVersion)

/-- A file with a number is a migration. -/
theorem DirectoryEntry.isMigration_of_version {entry : DirectoryEntry} {version : Nat}
    (isVersion : entry.version = some version) : entry.IsMigration := by
  unfold DirectoryEntry.version at isVersion
  split at isVersion
  · rename_i isRegular
    refine ⟨isRegular, fun unnamed => ?_⟩
    rw [unnamed] at isVersion
    cases isVersion
  · cases isVersion

theorem Discovered.covers {directory : Directory} {all : List Migration}
    (found : Discovered directory all) {files : List DirectoryEntry}
    (present : ∀ entry ∈ files, entry ∈ directory.entries) :
    Covers files (all.map Migration.version) := by
  intro entry member version isVersion
  have inDirectory := present entry member
  obtain ⟨migration, read⟩ :=
    found.complete entry inDirectory (DirectoryEntry.isMigration_of_version isVersion)
  have inAll : migration ∈ all := (found.mem_iff migration).mpr ⟨entry, inDirectory, read⟩
  rw [readEntry_version read] at isVersion
  cases isVersion
  exact List.mem_map_of_mem inAll

/-- What is skipped has an applied version. -/
theorem mem_applied_or_skipApplied (applied : List Nat) {rest : List Migration} {version : Nat}
    (member : version ∈ rest.map Migration.version) :
    version ∈ applied ∨ version ∈ (skipApplied applied rest).map Migration.version := by
  induction rest with
  | nil => cases member
  | cons head rest ih =>
      unfold skipApplied
      rw [List.dropWhile_cons]
      split
      · rename_i isApplied
        rcases List.mem_cons.mp member with rfl | later
        · exact Or.inl (by simpa using isApplied)
        · exact ih later
      · exact Or.inr member

/-- The versions that are recorded, or that a run is going to record, cover the files. -/
def MigrateRun.Accounts (files : List DirectoryEntry) (db : MigrationDb)
    (run : MigrateRun) : Prop :=
  match run.phase with
  | .discover => True
  | .ensureTable all => Covers files (all.map Migration.version)
  | .selectVersions all =>
      db.schemaMigrations.isSome = true ∧ Covers files (all.map Migration.version)
  | .applyNext applied rest _ =>
      db.schemaMigrations.isSome = true ∧ (∀ version ∈ applied, version ∈ db.versions) ∧
        Covers files (db.versions ++ rest.map Migration.version)
  | .record current applied rest _ =>
      db.schemaMigrations.isSome = true ∧ (∀ version ∈ applied, version ∈ db.versions) ∧
        Covers files (db.versions ++ current.version :: rest.map Migration.version)
  | .finished _ => db.schemaMigrations.isSome = true ∧ Covers files db.versions
  | .failed _ => True

theorem MigrateRun.accounts_of_phase {files : List DirectoryEntry} {db : MigrationDb}
    {run : MigrateRun} {failure : MigrationFailure} (failed : run.phase = .failed failure) :
    run.Accounts files db := by
  unfold Accounts
  rw [failed]
  trivial

theorem MigrateRun.Accounts.of_finished {files : List DirectoryEntry} {db : MigrationDb}
    {run : MigrateRun} {count : Nat} (accounts : run.Accounts files db)
    (finished : run.phase = .finished count) :
    db.schemaMigrations.isSome = true ∧ Covers files db.versions := by
  rwa [Accounts, finished] at accounts

/-- What is recorded meanwhile does no harm. -/
theorem MigrateRun.Accounts.grown {files : List DirectoryEntry} {db after : MigrationDb}
    {run : MigrateRun} (accounts : run.Accounts files db) (grows : db.GrowsTo after) :
    run.Accounts files after := by
  have more : ∀ others : List Nat, ∀ version ∈ db.versions ++ others,
      version ∈ after.versions ++ others := by
    intro others version member
    rcases List.mem_append.mp member with recorded | other
    · exact List.mem_append_left _ (grows.versions version recorded)
    · exact List.mem_append_right _ other
  unfold Accounts at accounts ⊢
  cases phase : run.phase with
  | discover => trivial
  | ensureTable all => simpa only [phase] using accounts
  | selectVersions all =>
      simp only [phase] at accounts
      exact ⟨grows.table accounts.1, accounts.2⟩
  | applyNext applied rest count =>
      simp only [phase] at accounts
      exact ⟨grows.table accounts.1,
        fun version member => grows.versions version (accounts.2.1 version member),
        accounts.2.2.mono (more _)⟩
  | record current applied rest count =>
      simp only [phase] at accounts
      exact ⟨grows.table accounts.1,
        fun version member => grows.versions version (accounts.2.1 version member),
        accounts.2.2.mono (more _)⟩
  | finished count =>
      simp only [phase] at accounts
      exact ⟨grows.table accounts.1, accounts.2.mono grows.versions⟩
  | failed failure => trivial

/-- A file that is executed is covered by its own version until it is recorded. -/
theorem Covers.skipped {files : List DirectoryEntry} {recorded applied : List Nat}
    {rest : List Migration} (covers : Covers files (recorded ++ rest.map Migration.version))
    (known : ∀ version ∈ applied, version ∈ recorded) :
    Covers files (recorded ++ (skipApplied applied rest).map Migration.version) := by
  refine covers.mono fun version member => ?_
  rcases List.mem_append.mp member with isRecorded | inRest
  · exact List.mem_append_left _ isRecorded
  · rcases mem_applied_or_skipApplied applied inRest with isApplied | ahead
    · exact List.mem_append_left _ (known version isApplied)
    · exact List.mem_append_right _ ahead

/-- A step of a run keeps the files covered that were in the directory before. -/
theorem MigrateRun.Moves.accounts {run next : MigrateRun} {choice : MigrateChoice}
    {db after : MigrationDb} {files : List DirectoryEntry}
    (moves : run.Moves choice db next after)
    (present : ∀ entry ∈ files, entry ∈ db.directory.entries)
    (accounts : run.Accounts files db) : next.Accounts files after := by
  cases moves with
  | discovered phase found => exact found.covers present
  | tableEnsured phase =>
      rw [Accounts, phase] at accounts
      exact ⟨rfl, accounts⟩
  | versionsSelected phase healthy =>
      rw [Accounts, phase] at accounts
      refine ⟨accounts.1, fun _ member => member, accounts.2.mono fun version member => ?_⟩
      exact List.mem_append_right _ member
  | finished phase nothing =>
      rw [Accounts, phase] at accounts
      have covers := accounts.2.2.skipped accounts.2.1
      rw [nothing, List.map_nil, List.append_nil] at covers
      exact ⟨accounts.1, covers⟩
  | executed phase skipped fault =>
      rw [Accounts, phase] at accounts
      have covers := accounts.2.2.skipped accounts.2.1
      rw [skipped, List.map_cons] at covers
      exact ⟨accounts.1, accounts.2.1, covers⟩
  | @recorded applied rest count migration phase table =>
      rw [Accounts, phase] at accounts
      have grows := db.growsTo_insertVersion migration
      have isRecorded : migration.version ∈ (db.insertVersion migration).versions :=
        (MigrationDb.mem_versions_insertVersion table _).mpr (Or.inr rfl)
      refine ⟨grows.table table,
        fun version member => grows.versions version (accounts.2.1 version member),
        accounts.2.2.mono fun version member => ?_⟩
      rcases List.mem_append.mp member with old | ahead
      · exact List.mem_append_left _ (grows.versions version old)
      · rcases List.mem_cons.mp ahead with rfl | later
        · exact List.mem_append_left _ isRecorded
        · exact List.mem_append_right _ later
  | failed ended same => exact accounts_of_phase ended
  | completedUnseen phase skipped fault ended => exact accounts_of_phase ended

end Corvus.Db
