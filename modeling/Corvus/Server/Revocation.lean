import Corvus.Rely
import Corvus.Auth.ApiKeyCache
import Corvus.Resources.Staleness
import Corvus.Server.Admission
import Corvus.Server.Responses

/-!
# When a key is revoked

Once lookups in Postgres do not return an API key any more, what Redis still has of
it is all that is left.  When the stores under way are over and the entry they left
has lapsed, no request that comes in with the key gets past the authentication,
whatever other credentials it presents and whatever requests before it still do.
-/

namespace Corvus.Server

open Corvus.Api Corvus.Auth Corvus.Db Corvus.Gateway Corvus.Resources

variable {platform : Platform} {deployment : Deployment} {hash : String} {limit : Nat}

/-- Lookups for the hash return no record. -/
def Revoked (deployment : Deployment) (hash : String) (state : ServerState platform)
    (event : ServerEvent) : Prop :=
  Trusted state event ∧ ∀ id choice call target check record, event = .advance id choice →
    state.calls id = some call → call.phase = .validating target check →
    check.hash deployment.sha256 = hash → check.phase = .lookup →
    choice.keys.lookup ≠ .ok (some record)

/-- No request is inside `store_in_cache` for the hash. -/
def NoStore (deployment : Deployment) (hash : String) (state : ServerState platform) : Prop :=
  ¬StoreInProgress deployment.sha256 (validationView state) hash

/-! ## Checks of the key -/

section Checks

variable {sha256 : String → List UInt8} {call next : ValidateCall} {answer : Auth.Answer}
  {service after : KeyService}

/-- A store begins with a record that the lookup returned. -/
theorem isStore_before (stepped : call.step sha256 answer service = some (next, after))
    (storing : next.phase.IsStore) :
    call.phase.IsStore ∨
      (call.phase = .lookup ∧ ∃ record, answer.lookup = .ok (some record)) := by
  cases ValidateCall.Step.of_step stepped with
  | found phaseEq looked => exact Or.inr ⟨phaseEq, _, looked⟩
  | storing phaseEq | stored phaseEq | expires phaseEq =>
      rw [phaseEq]
      exact Or.inl trivial
  | cacheLost =>
      unfold ValidateCall.cacheFailed at storing
      split at storing <;> exact storing.elim
  | released =>
      unfold ValidateCall.cacheAnswered at storing
      split at storing
      · exact storing.elim
      · split at storing <;> exact storing.elim
  | _ => exact storing.elim

/-- What a call has looked up is what the lookup returned to it. -/
theorem lookedUp_before {record : ApiKeyRecord}
    (stepped : call.step sha256 answer service = some (next, after))
    (found : next.lookedUp = some (.ok (some record))) :
    call.lookedUp = some (.ok (some record)) ∨
      (call.phase = .lookup ∧ answer.lookup = .ok (some record)) := by
  cases ValidateCall.Step.of_step stepped with
  | found phaseEq | notFound phaseEq => exact Or.inr ⟨phaseEq, Option.some.inj found⟩
  | cacheLost =>
      unfold ValidateCall.cacheFailed at found
      split at found <;> exact Or.inl found
  | released =>
      unfold ValidateCall.cacheAnswered at found
      split at found
      · exact Or.inl found
      · split at found <;> exact Or.inl found
  | _ => exact Or.inl found

/-- Calls have started in the past. -/
theorem startedRelies (sha256 : String → List UInt8) :
    (validation sha256).Relies (fun before after => before.redis.now ≤ after.redis.now)
      (fun _ => True) (fun service call => call.startedAt ≤ service.redis.now) where
  entered _ _ _ := Nat.le_refl _
  advanced call answer service next after _ started stepped := by
    rw [(ValidateCall.step_keeps stepped).2, step_now stepped]
    exact started
  steps _ _ _ _ _ stepped := (step_now stepped).ge
  happens happening service after happened := by
    cases happened
    cases happening with
    | tick span => exact Nat.le_add_right _ _
    | write key entry => exact Nat.le_refl _
    | remove key => exact Nat.le_refl _
  property_kept _ _ _ _ := trivial
  own_kept _ _ _ passed started := Nat.le_trans started passed

end Checks

/-! ## Checks in the server -/

variable {state next : ServerState platform} {event : ServerEvent}

/-- A check that is seen is that of a request. -/
theorem validating_of_view {id : Nat} {check : ValidateCall}
    (seen : (validationView state).calls id = some check) :
    ∃ call target, state.calls id = some call ∧ call.phase = .validating target check := by
  obtain ⟨call, found, picked⟩ := Option.bind_eq_some_iff.mp seen
  unfold pickCheck at picked
  split at picked
  · rename_i target _ phaseEq
    cases picked
    exact ⟨call, target, found, phaseEq⟩
  · cases picked

theorem view_of_validating {id : Nat} {call : ServerCall platform} {target : Target}
    {check : ValidateCall} (found : state.calls id = some call)
    (phaseEq : call.phase = .validating target check) :
    (validationView state).calls id = some check := by
  simp only [validationView, Component.view, found, Option.bind_some, pickCheck, phaseEq]

/-- A request that is in a check has begun it, or taken a step in it. -/
theorem ServerStep.check_before {call moved : ServerCall platform} {choice : ServerChoice}
    {shared after : ServerShared platform} {target : Target} {check : ValidateCall}
    (step : ServerStep deployment call choice shared moved after)
    (phaseEq : moved.phase = .validating target check) :
    check.phase = .entered ∨ ∃ earlier keys, call.phase = .validating target earlier ∧
      earlier.step deployment.sha256 choice.keys shared.keys = some (check, keys) := by
  cases step with
  | asked => cases phaseEq; exact Or.inl rfl
  | validated before stepped => cases phaseEq; exact Or.inr ⟨_, _, before, stepped⟩
  | uncounted =>
      unfold ServerCall.route at phaseEq
      split at phaseEq <;> cases phaseEq
  | counted before nextEq =>
      rw [nextEq] at phaseEq
      unfold ServerCall.route at phaseEq
      split at phaseEq
      · split at phaseEq <;> cases phaseEq
      · cases phaseEq
  | decided =>
      unfold ServerCall.authenticated at phaseEq
      split at phaseEq <;> cases phaseEq
  | _ => cases phaseEq

/-- No store begins for a revoked key. -/
theorem NoStore.step (noStore : NoStore deployment hash state)
    (revoked : Revoked deployment hash state event)
    (stepped : (server platform deployment).eventStep state event = some next) :
    NoStore deployment hash next := by
  rintro ⟨id, check, seen, hashEq, storing⟩
  obtain ⟨moved, target, found, phaseEq⟩ := validating_of_view seen
  rcases Component.call_before stepped found with
    before | ⟨incoming, _, rfl⟩ | ⟨call, choice, rfl, calling, callStepped⟩
  · exact noStore ⟨id, check, view_of_validating before phaseEq, hashEq, storing⟩
  · cases phaseEq
  · rcases (ServerStep.of_step callStepped).check_before phaseEq with
      entered | ⟨earlier, keys, before, checkStepped⟩
    · rw [entered] at storing
      exact storing
    · have sameHash : earlier.hash deployment.sha256 = hash := by
        rw [← hashEq, ValidateCall.hash, ValidateCall.hash,
          (ValidateCall.step_keeps checkStepped).1]
      rcases isStore_before checkStepped storing with already | ⟨looking, record, looked⟩
      · exact noStore ⟨id, earlier, view_of_validating calling before, sameHash, already⟩
      · exact revoked.2 id choice call target earlier record rfl calling before sameHash
          looking looked

theorem revoked_allowsChecks : AllowsChecks deployment
    (fun (state : ServerState platform) event => Revoked deployment hash state event ∧
      NoStore deployment hash state) (NoFurtherStore deployment.sha256 hash) where
  started _ _ _ hasLookup := ⟨hasLookup, nofun⟩
  advanced state id choice allowed := by
    refine ⟨trivial, fun other answer _ check record connection seen hashEq phaseEq => ?_⟩
    refine (allowed.2 ⟨other, check, seen, hashEq, ?_⟩).elim
    rw [phaseEq]
    trivial
  stopped _ _ := ⟨trivial, nofun⟩
  happened state happening allowed := by
    refine ⟨?_, nofun⟩
    cases happening with
    | write key entry => exact fun owner isKey => (allowed.1.1.2 owner isKey).1
    | tick span => trivial
    | remove key => trivial

/-! ## The entry in Redis -/

/-- No store of the key is under way, its entry in Redis is gone by `limit`, and checks that
start after that find nothing there. -/
structure Shut (deployment : Deployment) (hash : String) (limit : Nat)
    (state : ServerState platform) : Prop where
  noStore : NoStore deployment hash state
  lapses : Component.Holds (GoneBy hash limit) (Late deployment.sha256 hash limit)
    (validationView state)

theorem Shut.step (shut : Shut deployment hash limit state)
    (revoked : Revoked deployment hash state event)
    (stepped : (server platform deployment).eventStep state event = some next) :
    Shut deployment hash limit next where
  noStore := shut.noStore.step revoked stepped
  lapses := (lateObligations deployment.sha256 hash limit).of_runs
    ((hostsAt_validation revoked_allowsChecks state).runs ⟨revoked, shut.noStore⟩ stepped)
    shut.lapses

/-- The entry of a key that is not being stored shuts out the key when it has lapsed. -/
theorem shut_of_reachable
    (reachable : (server platform deployment).machine.Reachable Trusted state)
    (noStore : NoStore deployment hash state)
    (lapses : ∀ entry, state.shared.redis.lookup (redisKey hash) = some entry →
      CarriesPg entry → LapsesInTime state.shared.redis entry) :
    Shut deployment hash (RedisConnection.deadline state.shared.redis.now kCacheTtl) state := by
  have seen := hosts_validation.refines.reachable reachable
  refine ⟨noStore, fun entry found carries => ?_, fun id check found => ?_⟩
  · exact lapses entry (ExpiringStore.lookup_of_lookup_within found).2 carries
  · have hasLookup :=
      (((refinementObligations deployment.sha256).of_reachable seen).calls id check found).1
    have started : check.startedAt ≤ state.shared.redis.now := by
      obtain ⟨start, isInitial, runs⟩ := seen
      exact (startedRelies deployment.sha256).of_runs runs (by rw [isInitial.2]) trivial found
    refine ⟨hasLookup, started, fun hashEq => ⟨fun record connection phaseEq => ?_, fun late => ?_⟩⟩
    · refine noStore ⟨id, check, found, hashEq, ?_⟩
      rw [phaseEq]
      trivial
    · simp only [RedisConnection.deadline] at late
      omega

/-! ## Requests with the key -/

/-- How far a request gets that came in after `limit` with a revoked key. -/
def Barred (limit : Nat) (call : ServerCall platform) : Prop :=
  match call.phase with
  | .validating _ check => check.request.rawKey = call.request.apiKey ∧
      limit < check.startedAt ∧ ∀ record, check.lookedUp ≠ some (.ok (some record))
  | .handling _ => False
  | .serving _ _ => False
  | .answered response served => served = none ∧ 400 ≤ response.status
  | _ => True

section Requests

variable {call moved : ServerCall platform} {choice : ServerChoice}
  {shared after : ServerShared platform}

theorem barred_route (call : ServerCall platform) : Barred limit (call.route deployment) := by
  unfold ServerCall.route
  split
  · trivial
  · exact ⟨rfl, (refuses_custom _ _).failed⟩

/-- A key that the check refuses gets the request refused. -/
theorem barred_authenticated {target : Target} {error : ApiKeyError} {systemNow : Int}
    (isApi : IsApi call.request) (named : call.request.apiKey ≠ "") :
    Barred limit (call.authenticated deployment target (fun _ => .error error) systemNow) := by
  unfold ServerCall.authenticated authAdvice
  rw [if_pos (show "/v1/".toList.isPrefixOf call.request.path.toList = true from isApi)]
  split
  · rename_i response advice
    split at advice
    · cases advice
      exact ⟨rfl, (refuses_rejection _ _).failed⟩
    · cases advice
  · rename_i passed advice
    split at advice
    · cases advice
    · rename_i principal admitted
      obtain ⟨grant, granted⟩ := (admits_of_authenticate admitted).all_valid.key_valid named
      cases granted

theorem Barred.step (own : Barred limit call)
    (isApi : IsApi call.request) (named : call.request.apiKey ≠ "")
    (passed : limit < shared.redis.now)
    (unknown : ∀ target check record, call.phase = .validating target check →
      check.phase = .lookup → choice.keys.lookup ≠ .ok (some record))
    (uncached : ∀ target check, call.phase = .validating target check →
      limit < check.startedAt → Uncached check)
    (step : ServerStep deployment call choice shared moved after) :
    Barred limit moved := by
  cases step with
  | declaredTooLarge phaseEq refused =>
      rw [status_of_declaredSizeAdvice refused]
      exact ⟨rfl, (refuses_tooLarge _ _).failed⟩
  | uncounted => exact barred_route _
  | counted phaseEq nextEq =>
      rw [nextEq]
      split
      · exact barred_route _
      · trivial
  | refused phaseEq => exact ⟨rfl, (refuses_tooMany _ _ _ _).failed⟩
  | bodyTooLarge phaseEq refused =>
      rw [status_of_bodySizeAdvice refused]
      exact ⟨rfl, (refuses_tooLarge _ _).failed⟩
  | asked => exact ⟨rfl, passed, nofun⟩
  | decided decided =>
      cases decided with
      | unasked _ _ none => exact (none ⟨isApi, named⟩).elim
      | @checked check outcome phaseEq ended =>
          simp only [Barred, phaseEq] at own
          obtain ⟨_, late, notFound⟩ := own
          have fromLookup := uncached _ check phaseEq late
          simp only [Uncached, ended] at fromLookup
          rcases fromLookup with ⟨error, rfl⟩ | ⟨record, found⟩
          · exact barred_authenticated isApi named
          · exact (notFound record found).elim
  | validated phaseEq stepped =>
      simp only [Barred, phaseEq] at own
      obtain ⟨rawKey, late, notFound⟩ := own
      obtain ⟨sameRequest, sameStart⟩ := ValidateCall.step_keeps stepped
      refine ⟨by rwa [sameRequest], by rwa [sameStart], fun record found => ?_⟩
      rcases lookedUp_before stepped found with already | ⟨looking, looked⟩
      · exact notFound record already
      · exact unknown _ _ record phaseEq looking looked
  | handled phaseEq | invoked phaseEq | served phaseEq | finished phaseEq =>
      simp only [Barred, phaseEq] at own

end Requests

/-! ## Whole runs -/

/-- What lasts while a key stays revoked: nothing is left of it, and the request with an id is
barred if it presents the key. -/
structure Lockout (deployment : Deployment) (hash : String) (limit id : Nat)
    (state : ServerState platform) : Prop where
  shut : Shut deployment hash limit state
  passed : limit < state.shared.redis.now
  barred : ∀ call, state.calls id = some call → IsApi call.incoming.request →
    call.incoming.request.apiKey ≠ "" →
    hashKey deployment.sha256 call.incoming.request.apiKey = hash → Barred limit call

/-- Time does not go back. -/
theorem now_le (stepped : (server platform deployment).eventStep state event = some next) :
    state.shared.redis.now ≤ next.shared.redis.now := by
  cases event with
  | start id incoming =>
      obtain ⟨_, rfl⟩ := Component.start_cases stepped
      exact Nat.le_refl _
  | stop id =>
      obtain rfl := Component.stop_cases stepped
      exact Nat.le_refl _
  | happen happening =>
      obtain ⟨after, happened, rfl⟩ := Component.happen_cases stepped
      cases happened
      cases happening with
      | tick span => exact Nat.le_add_right _ _
      | write key entry => exact Nat.le_refl _
      | remove key => exact Nat.le_refl _
  | advance id choice =>
      obtain ⟨call, moved, after, _, callStepped, rfl⟩ := Component.advance_cases stepped
      cases ServerStep.of_step callStepped with
      | validated _ checkStepped => exact (step_now checkStepped).ge
      | served _ innerStepped => exact (ServiceStep.of_step innerStepped).now_eq.ge
      | _ => exact Nat.le_refl _

theorem Lockout.step {id : Nat} (lockout : Lockout deployment hash limit id state)
    (known : ∀ call, state.calls id = some call → OwnAnswers deployment call)
    (revoked : Revoked deployment hash state event)
    (stepped : (server platform deployment).eventStep state event = some next) :
    Lockout deployment hash limit id next where
  shut := lockout.shut.step revoked stepped
  passed := Nat.lt_of_lt_of_le lockout.passed (now_le stepped)
  barred moved found isApi named hashEq := by
    rcases Component.call_before stepped found with
      before | ⟨incoming, _, rfl⟩ | ⟨call, choice, rfl, calling, callStepped⟩
    · exact lockout.barred moved before isApi named hashEq
    · trivial
    · have step := ServerStep.of_step callStepped
      rw [step.limiter.1] at isApi named hashEq
      have own := lockout.barred call calling isApi named hashEq
      obtain ⟨clientId, requestId, same⟩ := (known call calling).request
      have sameKey : call.request.apiKey = call.incoming.request.apiKey := by rw [same]
      have samePath : call.request.path = call.incoming.request.path := by rw [same]
      have hashOf : ∀ target check, call.phase = .validating target check →
          check.hash deployment.sha256 = hash := by
        intro target check phaseEq
        simp only [Barred, phaseEq] at own
        rw [ValidateCall.hash, own.1, sameKey, hashEq]
      refine own.step (by rwa [IsApi, samePath]) (by rwa [sameKey]) lockout.passed ?_ ?_ step
      · intro target check record phaseEq looking
        exact revoked.2 id choice call target check record rfl calling phaseEq
          (hashOf target check phaseEq) looking
      · intro target check phaseEq late
        have seen := lockout.shut.lapses.calls id check (view_of_validating calling phaseEq)
        exact (seen.2.2 (hashOf target check phaseEq)).2 late

/-- From when on a key is refused: lookups of it have returned no record since `since`, where
no store of it was under way and the entry in Redis, if there was one, had no more than
`kCacheTtl` to live; and this time has passed. -/
structure RevokedBefore (deployment : Deployment) (hash : String)
    (since state : ServerState platform) : Prop where
  reachable : (server platform deployment).machine.Reachable Trusted since
  noStore : NoStore deployment hash since
  lapses : ∀ entry, since.shared.redis.lookup (redisKey hash) = some entry →
    CarriesPg entry → LapsesInTime since.shared.redis entry
  revoked : (server platform deployment).machine.Runs (Revoked deployment hash) since state
  passed : RedisConnection.deadline since.shared.redis.now kCacheTtl < state.shared.redis.now

/-- A request that comes in after that, under `/v1/` and with the key, never gets to a handler:
it is answered with an error, whatever else it presents and whatever else goes on. -/
theorem revoked_key_refused {since state later : ServerState platform}
    (before : RevokedBefore deployment hash since state)
    (runs : (server platform deployment).machine.Runs (Revoked deployment hash) state later)
    {id : Nat} {call : ServerCall platform} (absent : state.calls id = none)
    (found : later.calls id = some call) (isApi : IsApi call.incoming.request)
    (named : call.incoming.request.apiKey ≠ "")
    (hashEq : hashKey deployment.sha256 call.incoming.request.apiKey = hash) :
    (∀ target, call.phase ≠ .handling target) ∧
      (∀ inner answer, call.phase ≠ .serving inner answer) ∧
      ∀ response served, call.phase = .answered response served →
        served = none ∧ 400 ≤ response.status := by
  have shut : Shut deployment hash
      (RedisConnection.deadline since.shared.redis.now kCacheTtl) state :=
    before.revoked.invariant (fun _ _ _ shut revoked stepped => shut.step revoked stepped)
      (shut_of_reachable before.reachable before.noStore before.lapses)
  have start : (server platform deployment).machine.Reachable Trusted state :=
    before.reachable.extend (before.revoked.mono fun _ _ revoked => revoked.1)
  have preserved : ∀ (state : ServerState platform) event next,
      Lockout deployment hash (RedisConnection.deadline since.shared.redis.now kCacheTtl) id state ∧
        (server platform deployment).machine.Reachable Trusted state →
      Revoked deployment hash state event →
      (server platform deployment).machine.step state event = some next →
      Lockout deployment hash (RedisConnection.deadline since.shared.redis.now kCacheTtl) id next ∧
        (server platform deployment).machine.Reachable Trusted next := by
    rintro state event next ⟨lockout, reachable⟩ revoked stepped
    have known := (answeringObligations.of_reachable
      (reachable.mono fun _ _ _ => trivial)).calls id
    exact ⟨lockout.step known revoked stepped, reachable.extend (.single revoked.1 stepped)⟩
  have notThere : ∀ call, state.calls id = some call → IsApi call.incoming.request →
      call.incoming.request.apiKey ≠ "" →
      hashKey deployment.sha256 call.incoming.request.apiKey = hash →
      Barred (RedisConnection.deadline since.shared.redis.now kCacheTtl) call := by
    intro call present
    rw [absent] at present
    cases present
  have lockout := (runs.invariant preserved ⟨⟨shut, before.passed, notThere⟩, start⟩).1
  have barred := lockout.barred call found isApi named hashEq
  refine ⟨fun target phaseEq => ?_, fun inner answer phaseEq => ?_,
    fun response served phaseEq => ?_⟩ <;> rw [Barred, phaseEq] at barred <;> exact barred

/-! ## A key that was stored -/

/-- `Revoked`, where no lookup returns a record and others write nothing. -/
def unknownCheck : ServerEvent → Bool
  | .advance _ choice =>
      match choice.keys.lookup with
      | .ok (some _) => false
      | _ => true
  | .happen (.write _ _) => false
  | _ => true

theorem revoked_of_unknownCheck {state : ServerState platform} {event : ServerEvent}
    (checked : unknownCheck event = true) : Revoked deployment hash state event := by
  constructor
  · cases event with
    | advance id choice =>
        intro record found
        rw [unknownCheck, found] at checked
        cases checked
    | happen happening =>
        cases happening with
        | write key entry => cases checked
        | _ => trivial
    | _ => trivial
  · rintro id choice call target check record rfl _ _ _ _ found
    rw [unknownCheck, found] at checked
    cases checked

/-- A replay in which no lookup returns a record is a run after the revocation. -/
theorem runs_of_unknownCheck {source : ServerState platform} {events : List ServerEvent}
    (possible : ((server platform deployment).machine.execute source events).isSome = true)
    (checked : events.all unknownCheck = true) :
    (server platform deployment).machine.Runs (Revoked deployment hash) source
      (((server platform deployment).machine.execute source events).getD source) := by
  obtain ⟨last, executed⟩ := Option.isSome_iff_exists.mp possible
  rw [executed, Option.getD_some]
  exact Machine.runs_of_execute executed (Machine.allows_of_forall fun event member _ =>
    revoked_of_unknownCheck (List.all_eq_true.mp checked event member))

/-- Everything is healthy, and Postgres knows the key. -/
def knownChoice : ServerChoice where
  keys := { lookup := .ok (some sampleRecord) }
  service := sampleChoice

/-- A request with the key is served, and the key stored on the way. -/
def servedAndStored : List ServerEvent :=
  .start 0 deletingRequest :: List.replicate 16 (.advance 0 knownChoice)

def storedState : ServerState Platform.reference :=
  (server Platform.reference sampleDeployment).replay sampleShared servedAndStored

def sampleHash : String := hashKey sampleDeployment.sha256 "k"

/-- The entry that is stored, as it lies in Redis a moment after. -/
def storedEntry : Entry RedisValue where
  value := .hash (storedFields sampleRecord)
  expireAt := some 60000

theorem lookup_storedState :
    storedState.shared.redis.lookup (redisKey sampleHash) = some storedEntry := by
  have stored : (storedState.shared.redis.lookup (redisKey sampleHash)).map
      (fun entry => (entry.value, entry.expireAt)) =
        some (.hash (storedFields sampleRecord), some 60000) := by decide +kernel
  obtain ⟨entry, found, same⟩ := Option.map_eq_some_iff.mp stored
  obtain ⟨valueEq, expireEq⟩ := Prod.mk.inj same
  rw [found, storedEntry, ← valueEq, ← expireEq]

/-- The status, the path and the key of a request that was answered. -/
def ServerCall.ending (call : ServerCall platform) : Option (Nat × String × String) :=
  match call.phase with
  | .answered response _ =>
      some (response.status, call.incoming.request.path, call.incoming.request.apiKey)
  | _ => none

theorem ending_eq_some {call : ServerCall platform} {status : Nat} {path key : String}
    (ended : call.ending = some (status, path, key)) : ∃ response served,
      call.phase = .answered response served ∧ response.status = status ∧
        call.incoming.request.path = path ∧ call.incoming.request.apiKey = key := by
  unfold ServerCall.ending at ended
  split at ended
  · rename_i response served answered
    simp only [Option.some.injEq, Prod.mk.injEq] at ended
    exact ⟨response, served, answered, ended⟩
  · cases ended

theorem storedState_ended : ∃ call response served, storedState.calls 0 = some call ∧
    call.phase = .answered response served ∧ response.status = 200 := by
  have ending : (storedState.calls 0).bind ServerCall.ending =
      some (200, "/v1/resources/" ++ sampleIdText, "k") := by decide +kernel
  obtain ⟨call, found, ended⟩ := Option.bind_eq_some_iff.mp ending
  obtain ⟨response, served, answered, status, _⟩ := ending_eq_some ended
  exact ⟨call, response, served, found, answered, status⟩

theorem noStore_storedState : NoStore sampleDeployment sampleHash storedState := by
  rintro ⟨id, check, seen, _⟩
  obtain ⟨call, target, found, validating⟩ := validating_of_view seen
  by_cases first : id = 0
  · obtain ⟨other, response, served, isOther, answered, _⟩ := storedState_ended
    rw [first, isOther, Option.some.injEq] at found
    rw [← found, answered] at validating
    cases validating
  · have absent : storedState.calls id = none := by
      refine Component.calls_of_replay fun request member => ?_
      simp only [servedAndStored, List.mem_cons, ConcurrentEvent.start.injEq] at member
      rcases member with ⟨isFirst, _⟩ | isStep
      · exact first isFirst
      · cases List.eq_of_mem_replicate isStep
    rw [absent] at found
    cases found

/-- The minute in which the stored key would do passes. -/
def aMinute : List ServerEvent := [.happen (.tick 60001)]

def lapsedState : ServerState Platform.reference :=
  ((server Platform.reference sampleDeployment).machine.execute storedState aMinute).getD
    storedState

theorem lapsedState_revoked :
    RevokedBefore sampleDeployment sampleHash storedState lapsedState where
  reachable := reachable_of_checked sampleShared_fresh (by decide +kernel) (by decide)
  noStore := noStore_storedState
  lapses entry found _ := by
    rw [lookup_storedState, Option.some.injEq] at found
    subst found
    have notLater : 60000 ≤ RedisConnection.deadline storedState.shared.redis.now kCacheTtl := by
      decide +kernel
    exact ⟨60000, rfl, notLater⟩
  revoked := runs_of_unknownCheck (by decide +kernel) rfl
  passed := by decide +kernel

/-- The request comes in again, when Postgres does not know the key any more. -/
def comingTooLate : List ServerEvent :=
  .start 1 deletingRequest ::
    List.replicate 8 (.advance 1 { knownChoice with keys := { lookup := .ok none } })

def tooLateState : ServerState Platform.reference :=
  ((server Platform.reference sampleDeployment).machine.execute lapsedState comingTooLate).getD
    lapsedState

theorem revoked_key_refused_stored :
    (∃ call response served, storedState.calls 0 = some call ∧
      call.phase = .answered response served ∧ response.status = 200) ∧
    storedState.shared.redis.lookup (redisKey sampleHash) = some storedEntry ∧
    ∃ call response, tooLateState.calls 1 = some call ∧
      call.phase = .answered response none ∧ 400 ≤ response.status := by
  refine ⟨storedState_ended, lookup_storedState, ?_⟩
  have ending : (tooLateState.calls 1).bind ServerCall.ending =
      some (401, "/v1/resources/" ++ sampleIdText, "k") := by decide +kernel
  obtain ⟨call, found, ended⟩ := Option.bind_eq_some_iff.mp ending
  obtain ⟨response, served, answered, _, pathEq, keyEq⟩ := ending_eq_some ended
  have isApi : IsApi call.incoming.request := by
    rw [IsApi, pathEq]
    decide
  have absent : lapsedState.calls 1 = none := by
    have notYet : (lapsedState.calls 1).isNone = true := by decide +kernel
    exact Option.isNone_iff_eq_none.mp notYet
  have runs : (server Platform.reference sampleDeployment).machine.Runs
      (Revoked sampleDeployment sampleHash) lapsedState tooLateState :=
    runs_of_unknownCheck (by decide +kernel) (by decide)
  obtain ⟨rfl, refused⟩ := (revoked_key_refused lapsedState_revoked runs absent found isApi
    (by rw [keyEq]; decide) (by rw [keyEq]; rfl)).2.2 response served answered
  exact ⟨call, response, found, answered, refused⟩

end Corvus.Server
