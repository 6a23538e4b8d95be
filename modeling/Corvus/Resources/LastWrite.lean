import Corvus.Register
import Corvus.Rely
import Corvus.Resources.Service

/-!
# The last write of a column

An update sets the columns its body names and leaves the others to whoever wrote
them last.  So updates of one resource that run at the same time lose nothing of
each other unless they name the same column: each column of each row is a register
of the service.
-/

namespace Corvus.Resources

open Corvus.Db

variable {platform : Platform} {Value : Type}

/-- A column of the table: what a row holds there, what an `INSERT` puts there, and what
an `UPDATE` puts there if it sets the column. -/
structure Column (platform : Platform) (Value : Type) where
  read : Row platform → Value
  inserted : CreateResourceRequest → Stamp → Option Value
  updated : UpdateResourceRequest → Stamp → Option Value
  read_newRow : ∀ client request metadata stamp,
    platform.jsonbIn (platform.dump (request.metadata.getD (.object []))) = some metadata →
    inserted request stamp = some (read (newRow client request metadata stamp))
  read_updatedRow : ∀ row request metadata stamp,
    castMetadata platform request.metadata = some metadata →
    read (updatedRow row request metadata stamp) = (updated request stamp).getD (read row)

namespace Column

def kind : Column platform String where
  read := Row.kind
  inserted request _ := some (cString request.kind)
  updated _ _ := none
  read_newRow _ _ _ _ _ := rfl
  read_updatedRow _ _ _ _ _ := rfl

def name : Column platform String where
  read := Row.name
  inserted request _ := some (cString request.name)
  updated request _ := request.name.map cString
  read_newRow _ _ _ _ _ := rfl
  read_updatedRow _ _ _ _ _ := rfl

def status : Column platform String where
  read := Row.status
  inserted request _ := some (cString (request.status.getD "unknown"))
  updated request _ := request.status.map cString
  read_newRow _ _ _ _ _ := rfl
  read_updatedRow _ _ _ _ _ := rfl

def metadata : Column platform platform.Jsonb where
  read := Row.metadata
  inserted request _ := platform.jsonbIn (platform.dump (request.metadata.getD (.object [])))
  updated request _ := request.metadata.bind fun metadata =>
    platform.jsonbIn (platform.dump metadata)
  read_newRow _ _ _ _ cast := cast
  read_updatedRow row request metadata stamp cast := by
    cases named : request.metadata with
    | none =>
        rw [named] at cast
        cases cast
        rfl
    | some json =>
        rw [named, castMetadata, Option.map_eq_some_iff] at cast
        obtain ⟨stored, isStored, rfl⟩ := cast
        simp only [Option.bind_some, isStored, Option.getD_some, updatedRow]

def createdAt : Column platform Timestamp where
  read := Row.createdAt
  inserted _ stamp := some stamp.now
  updated _ _ := none
  read_newRow _ _ _ _ _ := rfl
  read_updatedRow _ _ _ _ _ := rfl

/-- The trigger `set_updated_at` sets it whatever an `UPDATE` names. -/
def updatedAt : Column platform Timestamp where
  read := Row.updatedAt
  inserted _ stamp := some stamp.now
  updated _ stamp := some stamp.now
  read_newRow _ _ _ _ _ := rfl
  read_updatedRow _ _ _ _ _ := rfl

variable (column : Column platform Value) (client uuid : Uuid)

/-- What the column holds for the row of a client with an id, if there is one. -/
def stored (table : Table platform) : Option Value :=
  (table.find client uuid).map column.read

/-- What a request puts there, when its transaction commits: a value, or no row. -/
def given (stamp : Stamp) : Request → Option (Option Value)
  | .create clientId request =>
      if uuidParam clientId = some client ∧ stamp.freshId = uuid then
        (column.inserted request stamp).map some
      else none
  | .update clientId id request =>
      if uuidParam clientId = some client ∧ uuidParam id = some uuid then
        (column.updated request stamp).map some
      else none
  | .remove clientId id =>
      if uuidParam clientId = some client ∧ uuidParam id = some uuid then some none else none
  | .get _ _ => none
  | .list _ _ => none

end Column

/-- The table a request's transaction leaves, if it changes the table. -/
def Database.transaction (database : Database platform) (stamp : Stamp) :
    Request → Option (Table platform)
  | .create clientId request => (create database clientId request stamp).written
  | .update clientId id request => (update database clientId id request stamp).written
  | .remove clientId id => (remove database clientId id).written
  | .get _ _ => none
  | .list _ _ => none

/-- The step of a call commits a transaction that changes the table. -/
def Call.commits (call : Call platform) (choice : Choice) (store : Store platform) : Bool :=
  match call.step choice store with
  | none => false
  | some (_, after) => store.commits.length < after.commits.length

/-- What an event of the service writes to a column of a row. -/
def Column.write (column : Column platform Value) (client uuid : Uuid)
    (state : ServiceState platform) : ServiceEvent → Option (Option Value)
  | .advance id choice =>
      match state.calls id with
      | none => none
      | some call =>
          if call.commits choice state.shared then
            column.given client uuid choice.stamp call.request
          else none
  | _ => none

/-! ## What a transaction leaves in a column -/

variable {database : Database platform} {stamp : Stamp} {resources : Table platform}

theorem find_insert {table after : Table platform} {row : Row platform} {client uuid : Uuid}
    (inserted : table.insert row = some after) :
    after.find client uuid =
      if row.clientId = client ∧ row.id = uuid then some row else table.find client uuid := by
  have isNew := Table.id_new_of_insert inserted
  split
  · rename_i same
    exact Table.find_eq_some.mpr ⟨(Table.mem_insert inserted).mpr (Or.inr rfl), same⟩
  · rename_i different
    apply Option.ext
    intro other
    rw [Table.find_eq_some, Table.find_eq_some, Table.mem_insert inserted]
    constructor
    · rintro ⟨member | rfl, isRow⟩
      · exact ⟨member, isRow⟩
      · exact (different isRow).elim
    · rintro ⟨member, isRow⟩
      exact ⟨Or.inl member, isRow⟩

theorem stored_create (column : Column platform Value) (client uuid : Uuid) {clientId : String}
    {request : CreateResourceRequest}
    (wrote : (create database clientId request stamp).written = some resources) :
    column.stored client uuid resources =
      (column.given client uuid stamp (.create clientId request)).getD
        (column.stored client uuid database.resources) := by
  rcases create_cases database clientId request stamp with
    ⟨error, failed⟩ | ⟨owner, metadata, after, ownerEq, cast, inserted, executed⟩
  · rw [failed] at wrote
    cases wrote
  · rw [executed] at wrote
    cases wrote
    have reads := column.read_newRow owner request metadata stamp cast
    have found := @find_insert _ _ _ _ client uuid inserted
    simp only [Column.stored, Column.given, ownerEq, Option.some.injEq, found]
    by_cases same : owner = client ∧ stamp.freshId = uuid
    · have isRow : (newRow owner request metadata stamp).clientId = client ∧
          (newRow owner request metadata stamp).id = uuid := same
      rw [if_pos same, if_pos isRow, reads]
      rfl
    · have notRow : ¬((newRow owner request metadata stamp).clientId = client ∧
          (newRow owner request metadata stamp).id = uuid) := same
      rw [if_neg same, if_neg notRow]
      rfl

theorem stored_update (column : Column platform Value) (client uuid : Uuid)
    {clientId id : String} {request : UpdateResourceRequest}
    (wrote : (update database clientId id request stamp).written = some resources) :
    column.stored client uuid resources =
      (column.given client uuid stamp (.update clientId id request)).getD
        (column.stored client uuid database.resources) := by
  rcases update_cases database clientId id request stamp with
    ⟨error, failed⟩ | ⟨_, _, _, _, _, absent⟩ |
      ⟨owner, found, metadata, row, after, ownerEq, foundEq, cast, present, replaced, executed⟩
  · rw [failed] at wrote
    cases wrote
  · rw [absent] at wrote
    cases wrote
  · rw [executed] at wrote
    cases wrote
    obtain ⟨member, rfl, rfl⟩ := Table.find_eq_some.mp present
    have reads := column.read_updatedRow row request metadata stamp cast
    simp only [Column.stored, Column.given, ownerEq, foundEq, Option.some.injEq]
    split
    · rename_i same
      obtain ⟨rfl, rfl⟩ := same
      have isRow := Table.find_replace_self replaced member rfl
      have sameKey : (updatedRow row request metadata stamp).clientId = row.clientId ∧
          (updatedRow row request metadata stamp).id = row.id := ⟨rfl, rfl⟩
      rw [sameKey.1, sameKey.2] at isRow
      rw [isRow, present, Option.map_some, Option.map_some, reads]
      cases column.updated request stamp <;> rfl
    · rename_i different
      rw [Table.find_replace_of_ne replaced member rfl rfl different]
      rfl

theorem stored_remove (column : Column platform Value) (client uuid : Uuid)
    {clientId id : String} (wrote : (remove database clientId id).written = some resources) :
    column.stored client uuid resources =
      (column.given client uuid stamp (.remove clientId id)).getD
        (column.stored client uuid database.resources) := by
  rcases remove_cases database clientId id with
    ⟨error, failed⟩ | ⟨_, _, _, _, _, absent⟩ |
      ⟨owner, removed, row, ownerEq, removedEq, present, executed⟩
  · rw [failed] at wrote
    cases wrote
  · rw [absent] at wrote
    cases wrote
  · rw [executed] at wrote
    cases wrote
    simp only [Column.stored, Column.given, ownerEq, removedEq, Option.some.injEq]
    split
    · rename_i same
      obtain ⟨rfl, rfl⟩ := same
      rw [Table.find_delete_self]
      rfl
    · rename_i different
      rw [Table.find_delete_of_ne (fun same => different ⟨same.1.symm, same.2.symm⟩)]
      rfl

/-- A transaction that changes the table gives the column what its request does. -/
theorem stored_transaction (column : Column platform Value) (client uuid : Uuid)
    {request : Request} (wrote : database.transaction stamp request = some resources) :
    column.stored client uuid resources =
      (column.given client uuid stamp request).getD
        (column.stored client uuid database.resources) := by
  cases request with
  | create clientId request => exact stored_create column client uuid wrote
  | update clientId id request => exact stored_update column client uuid wrote
  | remove clientId id => exact stored_remove column client uuid wrote
  | get clientId id => cases wrote
  | list clientId filter => cases wrote

/-! ## What a step leaves in it -/

variable {call next : Call platform} {choice : Choice} {store after : Store platform}

/-- A transaction commits what it writes, or its connection fails before. -/
theorem commit_under {Answer : Type} (store : Store platform)
    (executed : Executed platform Answer) (fault : Fault) (result : Outcome) :
    ((store.commit (executed.under fault) result).database = store.database ∧
        (store.commit (executed.under fault) result).commits = store.commits) ∨
      ∃ resources, executed.written = some resources ∧
        store.commit (executed.under fault) result = store.wrote resources result := by
  cases fault with
  | refused => exact Or.inl ⟨rfl, rfl⟩
  | healthy | replyLost =>
      unfold Store.commit Executed.under
      cases wrote : executed.written with
      | none => exact Or.inl ⟨rfl, rfl⟩
      | some resources => exact Or.inr ⟨resources, rfl, rfl⟩

/-- A step leaves the table alone, or commits what the transaction of its request writes. -/
theorem step_database (stepped : call.step choice store = some (next, after)) :
    (after.database = store.database ∧ after.commits = store.commits) ∨
      ∃ resources result,
        store.database.transaction choice.stamp call.request = some resources ∧
        after = store.wrote resources result := by
  unfold Call.step at stepped
  cases requestEq : call.request with
  | create clientId request =>
      simp only [requestEq, Call.createStep] at stepped
      split at stepped
      case h_2 => cases stepped
      case h_1 =>
          cases stepped
          refine (commit_under store _ choice.sql _).imp_right ?_
          rintro ⟨resources, wrote, isAfter⟩
          exact ⟨resources, _, wrote, isAfter⟩
  | get clientId id =>
      simp only [requestEq, Call.getStep] at stepped
      left
      split at stepped
      case h_1 | h_2 =>
          split at stepped
          · cases stepped
            exact ⟨rfl, rfl⟩
          · split at stepped <;> cases stepped <;> exact ⟨rfl, rfl⟩
      case h_3 | h_5 =>
          cases stepped
          exact ⟨rfl, rfl⟩
      case h_4 => split at stepped <;> cases stepped <;> exact ⟨rfl, rfl⟩
      case h_6 => cases stepped
  | list clientId filter =>
      simp only [requestEq, Call.listStep] at stepped
      left
      split at stepped
      case h_1 => split at stepped <;> cases stepped <;> exact ⟨rfl, rfl⟩
      case h_2 => cases stepped
  | update clientId id request =>
      simp only [requestEq, Call.updateStep] at stepped
      split at stepped
      case h_1 =>
          have isAfter : after = store.commit
              ((update store.database clientId id request choice.stamp).under choice.sql)
              (readOutcome id (update store.database clientId id request choice.stamp).answer) := by
            split at stepped <;> cases stepped <;> rfl
          subst isAfter
          refine (commit_under store _ choice.sql _).imp_right ?_
          rintro ⟨resources, wrote, isAfter⟩
          exact ⟨resources, _, wrote, isAfter⟩
      case h_2 =>
          cases stepped
          exact Or.inl ⟨rfl, rfl⟩
      case h_3 => cases stepped
  | remove clientId id =>
      simp only [requestEq, Call.removeStep] at stepped
      split at stepped
      case h_1 =>
          have isAfter : after = store.commit
              ((remove store.database clientId id).under choice.sql) (notFound id) := by
            split at stepped <;> cases stepped <;> rfl
          subst isAfter
          refine (commit_under store _ choice.sql _).imp_right ?_
          rintro ⟨resources, wrote, isAfter⟩
          exact ⟨resources, _, wrote, isAfter⟩
      case h_2 =>
          cases stepped
          exact Or.inl ⟨rfl, rfl⟩
      case h_3 => cases stepped

theorem commits_eq (stepped : call.step choice store = some (next, after)) :
    call.commits choice store = decide (store.commits.length < after.commits.length) := by
  rw [Call.commits, stepped]

theorem commits_wrote {resources : Table platform} {result : Outcome}
    (stepped : call.step choice store = some (next, store.wrote resources result)) :
    call.commits choice store = true := by
  rw [commits_eq stepped]
  simp [Store.wrote]

/-- Every column of every row is a register of the service. -/
theorem column_register (column : Column platform Value) (client uuid : Uuid) :
    (resourceService platform).machine.Register
      (fun state => column.stored client uuid state.shared.database.resources)
      (column.write client uuid) where
  step state event next stepped := by
    rw [Component.machine_step] at stepped
    cases event with
    | start id request =>
        obtain ⟨_, rfl⟩ := Component.start_cases stepped
        rfl
    | stop id =>
        obtain rfl := Component.stop_cases stepped
        rfl
    | happen happening =>
        obtain ⟨after, happened, rfl⟩ := Component.happen_cases stepped
        cases happened
        rfl
    | advance id choice =>
        obtain ⟨call, moved, after, found, callStepped, rfl⟩ := Component.advance_cases stepped
        have taken : call.step choice state.shared = some (moved, after) := callStepped
        simp only [Column.write, found]
        rcases step_database taken with ⟨sameTable, sameCommits⟩ | ⟨resources, result, wrote, rfl⟩
        · rw [commits_eq taken, sameCommits, sameTable]
          simp
        · rw [commits_wrote taken, if_pos rfl]
          exact stored_transaction column client uuid wrote

/-! ## What has been acknowledged -/

/-- A call that is going to return a success, if it is not stopped, or has returned one. -/
def Phase.Succeeds : Phase → Prop
  | .invalidateVersioned _ _ => True
  | .done (.ok _) => True
  | _ => False

/-- The call with an id has been asked for this and succeeds. -/
def Acknowledged (id : Nat) (request : Request) (state : ServiceState platform) : Prop :=
  ∃ call, state.calls id = some call ∧ call.request = request ∧ call.phase.Succeeds

/-- Creates, updates and removals. -/
def Request.Changes : Request → Prop
  | .create _ _ | .update _ _ _ | .remove _ _ => True
  | .get _ _ | .list _ _ => False

/-- A call that changes something comes to succeed by committing. -/
theorem succeeds_step (step : ServiceStep call choice store next after)
    (changes : call.request.Changes) (succeeds : next.phase.Succeeds) :
    call.phase.Succeeds ∨ ∃ resources result, after = store.wrote resources result := by
  cases step with
  | notCreated error requestEq => exact succeeds.elim
  | notWritten error requestEq phaseEq => exact succeeds.elim
  | created requestEq clientEq inserted nextEq => exact Or.inr ⟨_, _, rfl⟩
  | written requestEq phaseEq change nextEq => exact Or.inr ⟨_, _, rfl⟩
  | invalidated requestEq phaseEq =>
      rw [phaseEq]
      exact Or.inl trivial
  | missed requestEq | gotEmpty requestEq | hit requestEq | hitEmpty requestEq
  | versionRead requestEq | selected requestEq | answered requestEq | cached requestEq
  | listed requestEq | notListed _ requestEq =>
      rw [requestEq] at changes
      exact changes.elim

theorem acknowledged_gained {id : Nat} {request : Request} {state last : ServiceState platform}
    {event : ServiceEvent} (changes : request.Changes)
    (stepped : (resourceService platform).eventStep state event = some last)
    (acknowledged : Acknowledged id request last) :
    Acknowledged id request state ∨ ∃ choice call, event = .advance id choice ∧
      state.calls id = some call ∧ call.request = request ∧
      call.commits choice state.shared = true := by
  obtain ⟨moved, found, rfl, succeeds⟩ := acknowledged
  rcases Component.call_before stepped found with
    before | ⟨request, rfl, rfl⟩ | ⟨call, choice, rfl, calling, callStepped⟩
  · exact Or.inl ⟨moved, before, rfl, succeeds⟩
  · cases request <;> exact succeeds.elim
  · have step := ServiceStep.of_step callStepped
    rw [step.keeps.1] at changes ⊢
    rcases succeeds_step step changes succeeds with before | ⟨resources, result, wrote⟩
    · exact Or.inl ⟨call, calling, rfl, before⟩
    · rw [wrote] at callStepped
      exact Or.inr ⟨choice, call, rfl, calling, rfl, commits_wrote callStepped⟩

/-- Between these events the call with an id, which has been asked for this and is not replaced
by another afterwards, commits its transaction. -/
def CommitsBetween (store : Store platform) (before rest : List ServiceEvent) (id : Nat)
    (request : Request) (choice : Choice) : Prop :=
  (∀ other, .start id other ∉ rest) ∧ ∃ state call,
    (resourceService platform).machine.execute (Component.fresh store) before = some state ∧
      state.calls id = some call ∧ call.request = request ∧
      call.commits choice state.shared = true

/-- A call that has been acknowledged has committed. -/
theorem commits_of_acknowledged {store : Store platform} {events : List ServiceEvent}
    {id : Nat} {request : Request} {last : ServiceState platform} (changes : request.Changes)
    (executed : (resourceService platform).machine.execute (Component.fresh store) events =
      some last) (acknowledged : Acknowledged id request last) :
    ∃ before choice rest, events = before ++ .advance id choice :: rest ∧
      CommitsBetween store before rest id request choice := by
  induction events using List.reverseRecOn generalizing last with
  | nil =>
      cases executed
      obtain ⟨_, absent, _⟩ := acknowledged
      cases absent
  | append_singleton events event ih =>
      rw [Machine.execute_concat, Option.bind_eq_some_iff] at executed
      obtain ⟨state, executedBefore, stepped⟩ := executed
      rcases acknowledged_gained changes stepped acknowledged with
        already | ⟨choice, call, rfl, calling, requestEq, commits⟩
      · obtain ⟨before, choice, rest, rfl, notReplaced, committed⟩ := ih executedBefore already
        refine ⟨before, choice, rest ++ [event], by rw [List.append_assoc, List.cons_append],
          fun other member => ?_, committed⟩
        rcases List.mem_append.mp member with inRest | isLast
        · exact notReplaced other inRest
        · -- the id is taken, so no call starts with it
          rw [← List.mem_singleton.mp isLast] at stepped
          obtain ⟨_, found, _⟩ := already
          rw [(Component.start_cases stepped).1] at found
          cases found
      · exact ⟨events, choice, [], rfl, by simp, state, call, executedBefore, calling,
          requestEq, commits⟩

/-- A call keeps the request it was started with. -/
theorem started_of_executed {events : List ServiceEvent} {source last : ServiceState platform}
    {id : Nat} (executed : (resourceService platform).machine.execute source events = some last)
    (found : last.calls id = some call) :
    (∃ before, source.calls id = some before ∧ before.request = call.request) ∨
      .start id call.request ∈ events := by
  have kept : ∀ call choice store next after,
      (resourceService platform).step call choice store = some (next, after) →
      next.request = call.request :=
    fun _ _ _ _ _ stepped => (ServiceStep.of_step stepped).keeps.1
  exact Component.started_of_execute (fun _ _ => rfl) kept executed found

/-! ## Whole runs -/

/-- What the run of a list of events, from a state without calls on, has written to a
column of a row, oldest first. -/
def Column.log (column : Column platform Value) (client uuid : Uuid) (store : Store platform)
    (events : List ServiceEvent) : List (Option Value) :=
  (resourceService platform).machine.written (column.write client uuid) (Component.fresh store)
    events

/-- What a committed request gives the column comes into the log when it commits. -/
theorem CommitsBetween.log_eq {store : Store platform} {before rest : List ServiceEvent} {id : Nat}
    {request : Request} {choice : Choice}
    (commits : CommitsBetween store before rest id request choice)
    (column : Column platform Value) (client uuid : Uuid) {value : Option Value}
    (given : column.given client uuid choice.stamp request = some value) :
    ∃ later, column.log client uuid store (before ++ .advance id choice :: rest) =
      column.log client uuid store before ++ value :: later := by
  obtain ⟨_, state, call, executed, calling, rfl, committed⟩ := commits
  refine Machine.written_of_event executed ?_
  simp only [Column.write, calling, committed, if_true, given]

/-- After a run the column holds what was written last; a call that has returned a success
has committed, and has written what it was to write when it did; and nothing has been written
that was not asked for. -/
structure WritesKept (column : Column platform Value) (client uuid : Uuid)
    (store : Store platform) (events : List ServiceEvent) (last : ServiceState platform) :
    Prop where
  holds_last : column.stored client uuid last.shared.database.resources =
    (column.log client uuid store events).getLast?.getD
      (column.stored client uuid store.database.resources)
  success_written : ∀ id call reply, last.calls id = some call →
    call.phase = .done (.ok reply) → call.request.Changes →
    ∃ before choice rest, events = before ++ .advance id choice :: rest ∧
      CommitsBetween store before rest id call.request choice ∧
      ∀ value, column.given client uuid choice.stamp call.request = some value →
        ∃ later, column.log client uuid store events =
          column.log client uuid store before ++ value :: later
  written_asked : ∀ value ∈ column.log client uuid store events, ∃ id request stamp,
    .start id request ∈ events ∧ column.given client uuid stamp request = some value

/-- No update is lost: however calls interleave and whatever fails, a column of a row holds
what the last committed request that names the column gave it. -/
theorem no_update_lost (column : Column platform Value) (client uuid : Uuid)
    {store : Store platform} {events : List ServiceEvent} {last : ServiceState platform}
    (ran : (resourceService platform).machine.execute (Component.fresh store) events =
      some last) :
    WritesKept column client uuid store events last where
  holds_last := (column_register column client uuid).execute ran
  success_written id call reply found phaseEq changes := by
    have acknowledged : Acknowledged id call.request last := by
      refine ⟨call, found, rfl, ?_⟩
      rw [phaseEq]
      trivial
    obtain ⟨before, choice, rest, rfl, commits⟩ := commits_of_acknowledged changes ran acknowledged
    exact ⟨before, choice, rest, rfl, commits,
      fun value given => commits.log_eq column client uuid given⟩
  written_asked value member := by
    obtain ⟨before, event, rest, state, rfl, executed, wrote⟩ := Machine.mem_written member
    cases event with
    | advance id choice =>
        simp only [Column.write] at wrote
        split at wrote
        · cases wrote
        · rename_i call found
          split at wrote
          · rcases started_of_executed executed found with ⟨_, absent, _⟩ | started
            · cases absent
            · exact ⟨id, call.request, choice.stamp, List.mem_append_left _ started, wrote⟩
          · cases wrote
    | start | stop | happen => cases wrote

/-- Two updates of one resource, one of its name and one of its status. -/
def bothUpdates : List ServiceEvent :=
  [.start 0 (.update sampleClientText sampleIdText
      { name := some "db", status := none, metadata := none }),
   .start 1 (.update sampleClientText sampleIdText
      { name := none, status := some "down", metadata := none }),
   .advance 0 sampleChoice, .advance 1 sampleChoice, .advance 1 sampleChoice,
   .advance 0 sampleChoice]

theorem no_update_lost_both : ∃ last,
    (resourceService Platform.reference).machine.execute (Component.fresh sampleStore)
      bothUpdates = some last ∧
    WritesKept Column.name sampleClient sampleId sampleStore bothUpdates last ∧
    Column.name.stored sampleClient sampleId last.shared.database.resources = some "db" ∧
    Column.status.stored sampleClient sampleId last.shared.database.resources = some "down" :=
  ⟨_, rfl, no_update_lost Column.name sampleClient sampleId rfl, rfl, rfl⟩

end Corvus.Resources
