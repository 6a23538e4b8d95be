import Corvus.Db.MigrationRunner

/-!
# How often the SQL of a migration completes

A run decides what to execute from one look at `schema_migrations`.  A migration
is completed twice when its completion does not show in that look: because it is
not recorded yet, or because another run completes it afterwards.
-/

namespace Corvus.Db

/-- No migration has been executed to successful completion twice. -/
def ExecutedOnce (db : MigrationDb) : Prop :=
  (db.completed.map Migration.path).Nodup

/-- What a run decides from is the whole truth about the files it has discovered: those
completed are recorded. -/
def LooksInTime (run : MigrateRun) (choice : MigrateChoice) (db : MigrationDb) : Prop :=
  ∀ all, run.phase = .selectVersions all → choice.fault = .none →
    ∀ migration ∈ all, migration.path ∈ db.completed.map Migration.path →
      migration.version ∈ db.versions

/-- The run is about to execute this SQL, and it will complete. -/
def Completes (run : MigrateRun) (choice : MigrateChoice) (migration : Migration) : Prop :=
  (choice.fault = .none ∨ choice.fault = .replyLost) ∧
    ∃ applied rest count others, run.phase = .applyNext applied rest count ∧
      skipApplied applied rest = migration :: others

/-- A run looks at `schema_migrations` when all that is completed is recorded, and
completes no migration that another run is going to execute. -/
def RunsApart (state : MigrationState) : MigrationEvent → Prop
  | .advance id choice => ∀ run, state.calls id = some run →
      LooksInTime run choice state.shared ∧
        ∀ migration, Completes run choice migration →
          ∀ other bystander, other ≠ id → state.calls other = some bystander →
            migration.path ∉ bystander.pending.map Migration.path
  | _ => True

/-- The files ahead are different, and those pending have not been completed. -/
structure MigrateRun.Unspent (db : MigrationDb) (run : MigrateRun) : Prop where
  ahead_nodup : (run.ahead.map Migration.path).Nodup
  pending_new : ∀ migration ∈ run.pending,
    migration.path ∉ db.completed.map Migration.path

/-- A run without files ahead has none pending. -/
theorem MigrateRun.Unspent.of_ahead_nil {db : MigrationDb} {run : MigrateRun}
    (nothing : run.ahead = []) (idle : run.pending = []) : run.Unspent db := by
  refine ⟨?_, ?_⟩
  · rw [nothing]
    exact List.nodup_nil
  · intro migration member
    rw [idle] at member
    cases member

theorem MigrateRun.Unspent.of_failed {db : MigrationDb} {run : MigrateRun}
    {failure : MigrationFailure} (failed : run.phase = .failed failure) : run.Unspent db :=
  .of_ahead_nil (by rw [ahead, failed]) (by rw [pending, failed])

theorem MigrateRun.Unspent.of_completed {db after : MigrationDb} {run : MigrateRun}
    (unspent : run.Unspent db) (same : after.completed = db.completed) :
    run.Unspent after :=
  ⟨unspent.ahead_nodup, by rw [same]; exact unspent.pending_new⟩

/-- Completing a migration that a run does not have pending leaves it alone. -/
theorem MigrateRun.Unspent.of_complete {db : MigrationDb} {run : MigrateRun}
    {migration : Migration} (unspent : run.Unspent db)
    (absent : migration.path ∉ run.pending.map Migration.path) :
    run.Unspent (db.complete migration) := by
  refine ⟨unspent.ahead_nodup, fun file member => ?_⟩
  simp only [MigrationDb.complete, List.map_append, List.map_cons, List.map_nil,
    List.mem_append, List.mem_singleton, not_or]
  refine ⟨unspent.pending_new file member, fun same => absent ?_⟩
  rw [← same]
  exact List.mem_map_of_mem member

theorem ExecutedOnce.complete {db : MigrationDb} {migration : Migration}
    (once : ExecutedOnce db) (new : migration.path ∉ db.completed.map Migration.path) :
    ExecutedOnce (db.complete migration) := by
  unfold ExecutedOnce
  rw [MigrationDb.complete, List.map_append]
  exact List.nodup_append.mpr ⟨once, List.nodup_singleton _, by
    intro path member other isNew same
    rw [List.map_singleton, List.mem_singleton] at isNew
    exact new (isNew ▸ same ▸ member)⟩

/-- The migration a run executes next is one of those pending. -/
theorem MigrateRun.Unspent.next_new {db : MigrationDb} {run : MigrateRun}
    {applied : List Nat} {rest others : List Migration} {count : Nat}
    {migration : Migration} (unspent : run.Unspent db)
    (phase : run.phase = .applyNext applied rest count)
    (skipped : skipApplied applied rest = migration :: others) :
    migration.path ∉ db.completed.map Migration.path := by
  apply unspent.pending_new
  rw [pending_of_skipApplied phase skipped]
  exact List.mem_cons_self

/-- What one step of a run preserves. -/
theorem MigrateRun.Moves.unspent {run next : MigrateRun} {choice : MigrateChoice}
    {db after : MigrationDb} (moves : run.Moves choice db next after)
    (inTime : LooksInTime run choice db) (once : ExecutedOnce db)
    (unspent : run.Unspent db) : ExecutedOnce after ∧ next.Unspent after := by
  cases moves with
  | discovered phase found =>
      exact ⟨once, found.paths_nodup, fun _ member => nomatch member⟩
  | tableEnsured phase =>
      have nodup := unspent.ahead_nodup
      rw [ahead, phase] at nodup
      exact ⟨once, nodup, fun _ member => nomatch member⟩
  | @versionsSelected all phase healthy =>
      have nodup := unspent.ahead_nodup
      rw [ahead, phase] at nodup
      refine ⟨once, nodup, fun migration member completed => ?_⟩
      obtain ⟨inAll, notApplied⟩ := List.mem_filter.mp member
      have recorded := inTime all phase healthy migration inAll completed
      simp [recorded] at notApplied
  | finished phase nothing =>
      exact ⟨once, .of_ahead_nil rfl rfl⟩
  | executed phase skipped fault =>
      have nodup := unspent.ahead_nodup
      rw [ahead, phase] at nodup
      have fewer := nodup.sublist ((sublist_of_skipApplied skipped).map Migration.path)
      rw [List.map_cons, List.nodup_cons] at fewer
      refine ⟨once.complete (unspent.next_new phase skipped), fewer.2, ?_⟩
      intro file member
      simp only [MigrationDb.complete, List.map_append, List.map_cons, List.map_nil,
        List.mem_append, List.mem_singleton, not_or]
      have inOthers := (List.mem_filter.mp member).1
      constructor
      · apply unspent.pending_new
        rw [pending_of_skipApplied phase skipped]
        exact List.mem_cons_of_mem _ member
      · intro same
        exact fewer.1 (same ▸ List.mem_map_of_mem inOthers)
  | recorded phase table =>
      refine ⟨once, ?_, ?_⟩
      · have nodup := unspent.ahead_nodup
        rwa [ahead, phase] at nodup
      · have new := unspent.pending_new
        rwa [pending, phase] at new
  | failed ended same =>
      refine ⟨?_, .of_failed ended⟩
      unfold ExecutedOnce
      rwa [same]
  | completedUnseen phase skipped fault ended =>
      exact ⟨once.complete (unspent.next_new phase skipped), .of_failed ended⟩

theorem obligations_once :
    Component.Obligations migrationRunner RunsApart ExecutedOnce
      (fun db run => run.Unspent db) where
  initially db isInitial := by
    unfold ExecutedOnce
    rw [isInitial.2]
    exact List.nodup_nil
  entered _ _ _ _ _ := .of_ahead_nil rfl rfl
  advanced state id choice run next after holds apart running stepped :=
    (MigrateRun.moves_of_step stepped).unspent (apart run running).1 holds.shared
      (holds.calls id run running)
  undisturbed state id choice run next after holds apart running stepped other bystander
      different present := by
    have unspent := holds.calls other bystander present
    have free : ∀ migration, Completes run choice migration →
        migration.path ∉ bystander.pending.map Migration.path := fun migration completes =>
      (apart run running).2 migration completes other bystander different present
    cases MigrateRun.moves_of_step stepped with
    | executed phase skipped fault =>
        exact unspent.of_complete (free _ ⟨.inl fault, _, _, _, _, phase, skipped⟩)
    | completedUnseen phase skipped fault ended =>
        exact unspent.of_complete (free _ ⟨.inr fault, _, _, _, _, phase, skipped⟩)
    | failed ended same => exact unspent.of_completed same
    | _ => exact unspent.of_completed rfl
  happened state entry after holds _ added := by
    have same : after.completed = state.shared.completed := by
      simp only [migrationRunner, MigrationDb.addEntry] at added
      split at added <;> cases added
      rfl
    refine ⟨?_, fun id run running => (holds.calls id run running).of_completed same⟩
    unfold ExecutedOnce
    rw [same]
    exact holds.shared

def sampleListing : List DirectoryEntry :=
  [⟨"1_users.sql", true, some "CREATE TABLE users ();"⟩]

def sampleDb : MigrationDb where
  directory := { path := "/migrations", entries := sampleListing, names_nodup := by decide }
  schemaMigrations := none
  completed := []

end Corvus.Db
