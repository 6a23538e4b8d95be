import Corvus.Refinement
import Corvus.Resources.Isolation

/-!
# The resource service as a versioned table

What the service is for: a table of resources, and calls that take effect at one
moment each.  A call is served, and its effect and its answer are those of one
transaction; or it fails, and has had its effect or none.  A read of one resource
may also answer with what an earlier version of the table held.

The service keeps Redis beside the table and takes several steps for a call.  Seen
through `versionsView` all of that is gone.
-/

namespace Corvus.Resources

open Corvus.Db

variable {platform : Platform}

/-! ## The table and its versions -/

/-- The database as it is, and the tables it held before. -/
structure Versions (platform : Platform) where
  database : Database platform
  past : List (Table platform)

namespace Versions

variable (versions : Versions platform)

/-- Put a new table in the place of the current one, if there is a new one. -/
def write (written : Option (Table platform)) : Versions platform :=
  match written with
  | none => versions
  | some resources =>
      { database := { versions.database with resources }
        past := versions.past ++ [versions.database.resources] }

/-- The answer to a request, and what it leaves, all at once. -/
def serve (stamp : Stamp) : Request → Outcome × Versions platform
  | .create clientId request =>
      let executed := create versions.database clientId request stamp
      (createOutcome request executed.answer, versions.write executed.written)
  | .get clientId id => (readOutcome id (findById versions.database clientId id), versions)
  | .list clientId filter =>
      match list versions.database clientId filter with
      | .ok result => (.ok (.page result), versions)
      | .error error => (.error (passError error), versions)
  | .update clientId id request =>
      let executed := update versions.database clientId id request stamp
      match executed.answer with
      | .error error => (.error (updateError request error), versions.write executed.written)
      | .ok updated => (readOutcome id (.ok updated), versions.write executed.written)
  | .remove clientId id =>
      let executed := remove versions.database clientId id
      match executed.answer with
      | .error error => (.error (passError error), versions.write executed.written)
      | .ok false => (notFound id, versions.write executed.written)
      | .ok true => (.ok .removed, versions.write executed.written)

/-- The resource an earlier version held. -/
def readPast (version : Nat) : Request → Option Outcome
  | .get clientId id =>
      match versions.past[version]? with
      | none => none
      | some resources =>
          match findById { versions.database with resources } clientId id with
          | .ok (some resource) => some (.ok (.resource resource))
          | _ => none
  | _ => none

end Versions

/-- A call that has not taken effect yet, or one that has. -/
inductive TableCall where
  | asked (request : Request)
  | answered (request : Request) (outcome : Outcome)

/-- How a call takes effect. -/
inductive Effect where
  | serve (stamp : Stamp)
  /-- The reply is lost. -/
  | fail (stamp : Stamp)
  | refuse
  | readPast (version : Nat)

/-- A call takes effect. -/
def TableCall.step (call : TableCall) (effect : Effect) (versions : Versions platform) :
    Option (TableCall × Versions platform) :=
  match call with
  | .answered _ _ => none
  | .asked request =>
      match effect with
      | .serve stamp =>
          some (.answered request (versions.serve stamp request).1,
            (versions.serve stamp request).2)
      | .fail stamp =>
          some (.answered request (.error .other), (versions.serve stamp request).2)
      | .refuse => some (.answered request (.error .other), versions)
      | .readPast version =>
          (versions.readPast version request).map fun outcome =>
            (.answered request outcome, versions)

/-- Calls that take effect at one moment each, from any database on. -/
def versionedTable (platform : Platform) :
    Component (Versions platform) Request TableCall Effect Empty where
  initial versions := versions.past = []
  enter request _ := .asked request
  step call effect versions := call.step effect versions
  happen happening _ := nomatch happening

/-! ## The service seen so -/

/-- The table and the tables it replaced. -/
def Store.versions (store : Store platform) : Versions platform where
  database := store.database
  past := store.commits.map Commit.replaced

/-- A read that has its resource and a write that only has to evict it have taken
effect. -/
def Phase.effective (request : Request) : Phase → TableCall
  | .putIfVersion _ found => .answered request (.ok (.resource found))
  | .invalidateVersioned outcome _ => .answered request outcome
  | .done outcome => .answered request outcome
  | _ => .asked request

def Call.effective (call : Call platform) : TableCall :=
  call.phase.effective call.request

/-- The service as a versioned table. -/
def versionsView : ServiceState platform → Concurrent (Versions platform) TableCall :=
  Component.view Store.versions fun call => some call.effective

theorem versions_commit {Answer : Type} (store : Store platform)
    (executed : Executed platform Answer) (result : Outcome) :
    (store.commit executed result).versions = store.versions.write executed.written := by
  unfold Store.commit
  split <;> rename_i written <;> rw [written]
  · rfl
  · simp only [Store.wrote, Store.versions, Versions.write, List.map_append, List.map_cons,
      List.map_nil]

/-! ## Steps -/

/-- The effects of a transaction that goes so. -/
def Effect.Under (fault : Fault) : Effect → Prop
  | .serve _ => fault = .healthy
  | .fail _ => fault = .replyLost
  | .refuse => fault ≠ .healthy
  | .readPast _ => False

/-- What a step of the service is to the table. -/
abbrev VersionsStep (allowed : Effect → Prop) (versions : Versions platform)
    (call next : TableCall) (after : Versions platform) : Prop :=
  Component.PartStep (versionedTable platform) (fun _ => True) allowed versions
    (some call) (some next) after

variable {call next : Call platform} {choice : Choice} {store after : Store platform}
variable {allowed : Effect → Prop}

@[simp] theorem effective_finish (call : Call platform) (outcome : Outcome) :
    (call.finish outcome).effective = .answered call.request outcome := rfl

@[simp] theorem effective_goTo (call : Call platform) (phase : Phase) :
    (call.goTo phase).effective = phase.effective call.request := rfl

theorem effective_eq {request : Request} {phase : Phase} (requestEq : call.request = request)
    (phaseEq : call.phase = phase) : call.effective = phase.effective request := by
  rw [Call.effective, requestEq, phaseEq]

/-- A call takes effect. -/
theorem versionsStep_effect {request : Request} (effect : Effect) (permitted : allowed effect)
    (asked : call.effective = .asked request)
    (stepped : (TableCall.asked request).step effect store.versions =
      some (next.effective, after.versions)) :
    VersionsStep allowed store.versions call.effective next.effective after.versions := by
  rw [asked]
  exact .moves permitted stepped

/-- A step on the way to the effect, or after it. -/
theorem versionsStep_silent (sameCall : next.effective = call.effective)
    (sameShared : after.versions = store.versions) :
    VersionsStep allowed store.versions call.effective next.effective after.versions :=
  .unchanged (congrArg some sameCall) sameShared

theorem versionsStep_create {clientId : String} {request : CreateResourceRequest}
    (requestEq : call.request = .create clientId request)
    (stepped : call.createStep clientId request choice store = some (next, after)) :
    VersionsStep (Effect.Under choice.sql) store.versions call.effective next.effective
      after.versions := by
  unfold Call.createStep at stepped
  split at stepped
  case h_2 => cases stepped
  case h_1 phaseEq =>
      have asked : call.effective = .asked (.create clientId request) :=
        effective_eq requestEq phaseEq
      cases sql : choice.sql with
      | healthy =>
          simp only [sql, Executed.under] at stepped
          cases stepped
          refine versionsStep_effect (.serve choice.stamp) rfl asked ?_
          rw [versions_commit]
          simp only [TableCall.step, Versions.serve, effective_finish, requestEq]
          rfl
      | refused =>
          simp only [sql, Executed.under, Store.commit] at stepped
          cases stepped
          refine versionsStep_effect .refuse (fun equal => by cases equal) asked ?_
          simp only [TableCall.step, effective_finish, requestEq, createOutcome, createError]
      | replyLost =>
          simp only [sql, Executed.under] at stepped
          cases stepped
          refine versionsStep_effect (.fail choice.stamp) rfl asked ?_
          rw [versions_commit]
          simp only [TableCall.step, Versions.serve, effective_finish, requestEq, createOutcome,
            createError]
          rfl

theorem versionsStep_list {clientId : String} {filter : ListFilter}
    (requestEq : call.request = .list clientId filter)
    (stepped : call.listStep clientId filter choice store = some (next, after)) :
    VersionsStep (Effect.Under choice.sql) store.versions call.effective next.effective
      after.versions := by
  unfold Call.listStep at stepped
  split at stepped
  case h_2 => cases stepped
  case h_1 phaseEq =>
      have asked : call.effective = .asked (.list clientId filter) :=
        effective_eq requestEq phaseEq
      cases sql : choice.sql with
      | healthy =>
          simp only [sql, Executed.under] at stepped
          split at stepped <;> rename_i answered <;> cases stepped <;>
            refine versionsStep_effect (.serve choice.stamp) rfl asked ?_ <;>
            simp only [TableCall.step, Versions.serve, Store.versions, answered, effective_finish,
              requestEq]
      | refused | replyLost =>
          simp only [sql, Executed.under] at stepped
          cases stepped
          refine versionsStep_effect .refuse (fun equal => by cases equal) asked ?_
          simp only [TableCall.step, effective_finish, requestEq, passError]

theorem versionsStep_update {clientId id : String} {request : UpdateResourceRequest}
    (requestEq : call.request = .update clientId id request)
    (stepped : call.updateStep clientId id request choice store = some (next, after)) :
    VersionsStep (Effect.Under choice.sql) store.versions call.effective next.effective
      after.versions := by
  unfold Call.updateStep at stepped
  split at stepped
  case h_1 phaseEq =>
      have asked : call.effective = .asked (.update clientId id request) :=
        effective_eq requestEq phaseEq
      cases sql : choice.sql with
      | healthy =>
          simp only [sql, Executed.under] at stepped
          split at stepped <;> rename_i answered <;> cases stepped <;>
            refine versionsStep_effect (.serve choice.stamp) rfl asked ?_ <;>
            rw [versions_commit] <;>
            simp only [TableCall.step, Versions.serve, Store.versions, answered, effective_finish,
              effective_goTo, Phase.effective, requestEq, readOutcome]
      | refused =>
          simp only [sql, Executed.under, Store.commit] at stepped
          cases stepped
          refine versionsStep_effect .refuse (fun equal => by cases equal) asked ?_
          simp only [TableCall.step, effective_finish, requestEq, updateError]
      | replyLost =>
          simp only [sql, Executed.under] at stepped
          cases stepped
          refine versionsStep_effect (.fail choice.stamp) rfl asked ?_
          rw [versions_commit]
          simp only [TableCall.step, Versions.serve, Store.versions, effective_finish, requestEq,
            updateError]
          split <;> rfl
  case h_2 outcome commit phaseEq =>
      cases stepped
      exact versionsStep_silent (effective_eq rfl phaseEq).symm rfl
  case h_3 => cases stepped

theorem versionsStep_remove {clientId id : String} (requestEq : call.request = .remove clientId id)
    (stepped : call.removeStep clientId id choice store = some (next, after)) :
    VersionsStep (Effect.Under choice.sql) store.versions call.effective next.effective
      after.versions := by
  unfold Call.removeStep at stepped
  split at stepped
  case h_1 phaseEq =>
      have asked : call.effective = .asked (.remove clientId id) :=
        effective_eq requestEq phaseEq
      cases sql : choice.sql with
      | healthy =>
          simp only [sql, Executed.under] at stepped
          split at stepped <;> rename_i answered <;> cases stepped <;>
            refine versionsStep_effect (.serve choice.stamp) rfl asked ?_ <;>
            rw [versions_commit] <;>
            simp only [TableCall.step, Versions.serve, Store.versions, answered, effective_finish,
              effective_goTo, Phase.effective, requestEq]
      | refused =>
          simp only [sql, Executed.under, Store.commit] at stepped
          cases stepped
          refine versionsStep_effect .refuse (fun equal => by cases equal) asked ?_
          simp only [TableCall.step, effective_finish, requestEq, passError]
      | replyLost =>
          simp only [sql, Executed.under] at stepped
          cases stepped
          refine versionsStep_effect (.fail choice.stamp) rfl asked ?_
          rw [versions_commit]
          simp only [TableCall.step, Versions.serve, Store.versions, effective_finish, requestEq,
            passError]
          split <;> rfl
  case h_2 outcome commit phaseEq =>
      cases stepped
      exact versionsStep_silent (effective_eq rfl phaseEq).symm rfl
  case h_3 => cases stepped

/-! ### Reads -/

/-- A row of a table is what a read of the table finds. -/
theorem findById_of_mem {database : Database platform} {clientId id : String}
    {client uuid : Uuid} {row : Row platform} {resource : Resource}
    (clientEq : uuidParam clientId = some client) (uuidEq : uuidParam id = some uuid)
    (found : database.resources.find client uuid = some row)
    (decoded : rowToResource row = some resource) :
    findById database clientId id = .ok (some resource) := by
  simp only [findById, clientEq, uuidEq, found, decodeRow, decoded]
  rfl

/-- What was read from the table at some time is in one of its versions. -/
theorem effect_of_readFrom {clientId id : String} {resource : Resource}
    (read : ReadFrom store clientId id resource) :
    ∃ effect, (TableCall.asked (.get clientId id)).step effect store.versions =
      some (.answered (.get clientId id) (.ok (.resource resource)), store.versions) := by
  obtain ⟨client, uuid, row, clientEq, uuidEq, held, ofClient, ofId, decoded⟩ := read
  rcases held with current | ⟨commit, member, past⟩
  · have found := findById_of_mem clientEq uuidEq
      (Table.find_eq_some.mpr ⟨current, ofClient, ofId⟩) decoded
    refine ⟨.serve { freshId := uuid, now := row.updatedAt }, ?_⟩
    simp only [TableCall.step, Versions.serve, Store.versions, found, readOutcome]
  · obtain ⟨version, isVersion⟩ := List.mem_iff_getElem?.mp
      (List.mem_map_of_mem (f := Commit.replaced) member)
    have found := @findById_of_mem _ { store.database with resources := commit.replaced } _ _ _ _
      _ _ clientEq uuidEq (Table.find_eq_some.mpr ⟨past, ofClient, ofId⟩) decoded
    refine ⟨.readPast version, ?_⟩
    simp only [TableCall.step, Versions.readPast, Store.versions, isVersion, found, Option.map_some]

/-- A text that Redis has for a resource is what a read made of it. -/
theorem decode_of_hit (roundTrips : platform.RoundTrips)
    (holds : CacheHolds (CachedRead store) store.redis) {clientId id text : String}
    (clientFree : NulFree clientId) (accepted : isUuid id = true)
    (reply : (CacheAside.getValue cacheConfig (cacheKey clientId id) store.redis).1 = some text)
    (notEmpty : text ≠ "") :
    ∃ resource, decodeCached platform text = .ok (.resource resource) ∧
      ReadFrom store clientId id resource := by
  have plain : cString (dataKey clientId id) = dataKey clientId id :=
    cString_of_nulFree (nulFree_dataKey.mpr ⟨clientFree, nulFree_of_isUuid accepted⟩)
  rcases RedisConnection.get_reply reply with ⟨_, empty⟩ | ⟨entry, found, sent⟩
  · exact (notEmpty empty).elim
  · obtain ⟨owner, ownerId, value, sameKey, valueEq, ownerAccepted, resource, rfl, read⟩ :=
      holds.text_of_read found
    rw [plain] at sameKey
    obtain ⟨rfl, rfl⟩ := dataKey_injective accepted ownerAccepted sameKey
    simp only [valueEq, RedisConnection.textOf, Option.some.injEq] at sent
    subst sent
    refine ⟨resource, ?_, read⟩
    simp [decodeCached, roundTrips.parse_dump _ (isValue_toJson read.isValue)]

theorem versionsStep_get (roundTrips : platform.RoundTrips)
    (holds : CacheHolds (CachedRead store) store.redis) {clientId id : String}
    (requestEq : call.request = .get clientId id) (clientFree : NulFree clientId)
    (accepted : isUuid id = true) (stepped : ServiceStep call choice store next after) :
    VersionsStep (fun _ => True) store.versions call.effective next.effective after.versions := by
  cases stepped with
  | missed _ phaseEq =>
      rcases phaseEq with phaseEq | phaseEq <;>
        exact versionsStep_silent (effective_eq rfl phaseEq).symm rfl
  | gotEmpty _ phaseEq | versionRead _ phaseEq =>
      exact versionsStep_silent (effective_eq rfl phaseEq).symm rfl
  | hit hitEq phaseEq reply notEmpty =>
      cases requestEq.symm.trans hitEq
      obtain ⟨resource, decoded, read⟩ :=
        decode_of_hit roundTrips holds clientFree accepted reply notEmpty
      obtain ⟨effect, taken⟩ := effect_of_readFrom read
      refine versionsStep_effect effect trivial (effective_eq requestEq phaseEq) ?_
      rw [taken, decoded]
      simp only [effective_finish, requestEq]
  | hitEmpty _ phaseEq =>
      have failed : decodeCached platform "" = .error .other := by
        simp [decodeCached, roundTrips.parse_empty]
      refine versionsStep_effect .refuse trivial (effective_eq requestEq phaseEq) ?_
      rw [failed]
      simp only [TableCall.step, effective_finish, requestEq]
  | selected readEq phaseEq read =>
      cases requestEq.symm.trans readEq
      refine versionsStep_effect (.serve choice.stamp) trivial (effective_eq requestEq phaseEq) ?_
      simp only [TableCall.step, Versions.serve, Store.versions, read, readOutcome, effective_goTo,
        Phase.effective, requestEq]
  | answered readEq phaseEq read =>
      cases requestEq.symm.trans readEq
      have asked : call.effective = .asked (.get clientId id) :=
        effective_eq requestEq phaseEq
      rcases read with rfl | ⟨_, rfl⟩
      · refine versionsStep_effect (.serve choice.stamp) trivial asked ?_
        simp only [TableCall.step, Versions.serve, Store.versions, effective_finish, requestEq]
      · refine versionsStep_effect .refuse trivial asked ?_
        simp only [TableCall.step, effective_finish, requestEq, readOutcome, passError]
  | cached _ phaseEq =>
      exact versionsStep_silent (effective_eq rfl phaseEq).symm rfl
  | created otherEq | notCreated _ otherEq | listed otherEq | notListed _ otherEq
  | notWritten _ otherEq | written otherEq | invalidated otherEq =>
      rw [requestEq] at otherEq
      rcases otherEq with ⟨_, otherEq⟩ | otherEq <;> cases otherEq

/-! ## Refinement -/

/-- A step of a call is one of the table, if what is cached has been read from it. -/
theorem versionsStep_of_step (roundTrips : platform.RoundTrips)
    (holds : CacheHolds (CachedRead store) store.redis) (admissible : call.request.Admissible)
    (stepped : call.step choice store = some (next, after)) :
    VersionsStep (fun _ => True) store.versions call.effective next.effective after.versions := by
  unfold Call.step at stepped
  cases requestEq : call.request with
  | create clientId request =>
      rw [requestEq] at stepped
      exact (versionsStep_create requestEq stepped).mono fun _ _ => trivial
  | get clientId id =>
      rw [requestEq] at stepped admissible
      exact versionsStep_get roundTrips holds requestEq admissible.1 admissible.2
        (ServiceStep.of_get requestEq stepped)
  | list clientId filter =>
      rw [requestEq] at stepped
      exact (versionsStep_list requestEq stepped).mono fun _ _ => trivial
  | update clientId id request =>
      rw [requestEq] at stepped
      exact (versionsStep_update requestEq stepped).mono fun _ _ => trivial
  | remove clientId id =>
      rw [requestEq] at stepped
      exact (versionsStep_remove requestEq stepped).mono fun _ _ => trivial

theorem hostsAt_versions (roundTrips : platform.RoundTrips) {state : ServiceState platform}
    (reachable : (resourceService platform).machine.Reachable AdmissibleEvent state) :
    Component.HostsAt (resourceService platform) AdmissibleEvent (versionedTable platform)
      (fun _ _ => True) Store.versions (fun call => some call.effective) state where
  entered id request _ := by
    have waits : ((resourceService platform).enter request state.shared).effective =
        .asked request := by
      cases request <;> rfl
    rw [waits]
    exact .begins trivial
  advanced id choice call next after _ found stepped := by
    have holds := (isolationObligations roundTrips).of_reachable reachable
    exact versionsStep_of_step roundTrips holds.shared (holds.calls id call found).1 stepped
  stopped _ _ := trivial
  happened happening after _ happened := by
    cases happened
    exact Or.inl rfl

/-- Nothing has been served before. -/
theorem versionedTable_initial {store : Store platform}
    (starts : (resourceService platform).initial store) :
    (versionedTable platform).initial store.versions := by
  rw [Store.versions, starts.2.1]
  rfl

theorem hosts_versions (roundTrips : platform.RoundTrips) :
    Component.Hosts (resourceService platform) AdmissibleEvent (versionedTable platform)
      (fun _ _ => True) Store.versions (fun call => some call.effective) where
  initially _ starts := versionedTable_initial starts
  hostsAt _ reachable := hostsAt_versions roundTrips reachable

/-- However calls interleave and whatever fails: the resource service is a table whose
calls take effect at one moment each, but for reads of single resources, which may show
an earlier version. -/
theorem service_refines_versions (roundTrips : platform.RoundTrips) :
    (resourceService platform).machine.Refines AdmissibleEvent (versionedTable platform).machine
      (fun _ _ => True) versionsView :=
  (hosts_versions roundTrips).refines

theorem service_refines_versions_deletion :
    (versionedTable Platform.reference).machine.Reachable (fun _ _ => True)
      (versionsView deletedState) :=
  (service_refines_versions Platform.reference_lawful.toRoundTrips).reachable
    deletedState_reachable

/-! ## Without Redis -/

/-- Redis refuses every command, and Postgres answers every statement. -/
def RedisDown (_ : ServiceState platform) : ServiceEvent → Prop
  | .advance _ choice => choice.redis = .refused ∧ choice.sql = .healthy
  | _ => True

/-- Calls take effect on the table as it is. -/
def ServedOnly (_ : Concurrent (Versions platform) TableCall) :
    ConcurrentEvent Request Effect Empty → Prop
  | .advance _ effect => effect.Under .healthy
  | _ => True

/-- A read that finds no Redis reads the table, once. -/
theorem versionsStep_uncached {clientId id : String} (requestEq : call.request = .get clientId id)
    (down : choice.redis = .refused) (healthy : choice.sql = .healthy)
    (stepped : call.getStep clientId id choice store = some (next, after)) :
    VersionsStep (Effect.Under .healthy) store.versions call.effective next.effective
      after.versions := by
  unfold Call.getStep at stepped
  split at stepped <;> rename_i phaseEq
  · simp only [down, Command.issue_refused] at stepped
    cases stepped
    exact versionsStep_silent (effective_eq rfl phaseEq).symm rfl
  · simp only [down, Command.issue_refused] at stepped
    cases stepped
    exact versionsStep_silent (effective_eq rfl phaseEq).symm rfl
  · cases stepped
    exact versionsStep_silent (effective_eq rfl phaseEq).symm rfl
  · have asked : call.effective = .asked (.get clientId id) := effective_eq requestEq phaseEq
    simp only [healthy, Executed.under] at stepped
    split at stepped
    · rename_i read
      cases stepped
      refine versionsStep_effect (.serve choice.stamp) rfl asked ?_
      simp only [TableCall.step, Versions.serve, Store.versions, read, readOutcome,
        effective_goTo, Phase.effective, requestEq]
    · cases stepped
      refine versionsStep_effect (.serve choice.stamp) rfl asked ?_
      simp only [TableCall.step, Versions.serve, Store.versions, effective_finish, requestEq]
  · cases stepped
    exact versionsStep_silent (effective_eq rfl phaseEq).symm rfl
  · cases stepped

theorem hostsAt_uncached (state : ServiceState platform) :
    Component.HostsAt (resourceService platform) RedisDown (versionedTable platform)
      ServedOnly Store.versions (fun call => some call.effective) state where
  entered id request _ := by
    have waits : ((resourceService platform).enter request state.shared).effective =
        .asked request := by
      cases request <;> rfl
    have started : @ServedOnly platform (versionsView state) (.start id request) := trivial
    rw [waits]
    exact .begins started
  advanced id choice call next after allowed found stepped := by
    obtain ⟨down, healthy⟩ := allowed
    have taken : VersionsStep (Effect.Under .healthy) state.shared.versions call.effective
        next.effective after.versions := by
      simp only [resourceService, Call.step] at stepped
      cases requestEq : call.request with
      | create clientId request =>
          rw [requestEq] at stepped
          exact healthy ▸ versionsStep_create requestEq stepped
      | get clientId id =>
          rw [requestEq] at stepped
          exact versionsStep_uncached requestEq down healthy stepped
      | list clientId filter =>
          rw [requestEq] at stepped
          exact healthy ▸ versionsStep_list requestEq stepped
      | update clientId id request =>
          rw [requestEq] at stepped
          exact healthy ▸ versionsStep_update requestEq stepped
      | remove clientId id =>
          rw [requestEq] at stepped
          exact healthy ▸ versionsStep_remove requestEq stepped
    exact taken
  stopped _ _ := trivial
  happened happening after _ happened := by
    cases happened
    exact Or.inl rfl

theorem hosts_uncached :
    Component.Hosts (resourceService platform) RedisDown (versionedTable platform)
      ServedOnly Store.versions (fun call => some call.effective) where
  initially _ starts := versionedTable_initial starts
  hostsAt state _ := hostsAt_uncached state

/-- While Redis is down the service is the table itself: however calls interleave and
wherever they stop, each is served by one transaction on the table as it is. -/
theorem service_refines_table :
    (resourceService platform).machine.Refines RedisDown (versionedTable platform).machine
      ServedOnly versionsView :=
  hosts_uncached.refines

end Corvus.Resources
