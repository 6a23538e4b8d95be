import Corvus.Auth.ApiKeyValidator

/-!
# The cached check refines the direct one

With a lookup configured, Redis only remembers what lookups returned.  Whatever
`validate` returns has its origin in a lookup of the same hash, a backend error
can only come from the call's own lookup, and a call that Redis never answers
ends the way its own lookup says.
-/

namespace Corvus.Auth

open Corvus.Db

/-! ## Entries -/

/-- The fields and values of the hash hold no NUL. -/
def FieldsNulFree (entry : Entry RedisValue) : Prop :=
  ∀ fields, entry.value = .hash fields → ∀ field ∈ fields, NulFree field.1 ∧ NulFree field.2

def ApiKeyRecord.NulFree (record : ApiKeyRecord) : Prop :=
  Db.NulFree record.clientId ∧ Db.NulFree record.scopes

instance (record : ApiKeyRecord) : Decidable record.NulFree :=
  inferInstanceAs (Decidable (_ ∧ _))

/-- The values found under the fields `client_id` and `scopes`. -/
def Remembers (entry : Entry RedisValue) (record : ApiKeyRecord) : Prop :=
  ∃ fields, entry.value = .hash fields ∧
    RedisConnection.findField fields "client_id" = some record.clientId ∧
    RedisConnection.findField fields "scopes" = some record.scopes

/-! ## Outcomes -/

/-- How `validate` ends when only its own lookup counts. -/
def directOutcome : LookupOutcome → Except ApiKeyError ApiKeyInfo
  | .error error => .error error
  | .ok none => .error (.validation "Unknown, revoked or expired API key")
  | .ok (some record) =>
      if record.clientId = "" then
        .error (.validation "API key record missing client_id")
      else .ok record.info

/-- The log of lookups holds this record under the hash. -/
def LoggedRecord (lookups : List (String × LookupOutcome)) (hash : String)
    (record : ApiKeyRecord) : Prop :=
  (hash, .ok (some record)) ∈ lookups

/-- Validators have a lookup, others never write an entry under the key of a hash
that reads as coming from Postgres, and neither their entries nor the records
hold a NUL. -/
def TrustedWrites (_ : ValidationState) : ValidationEvent → Prop
  | .start _ request => request.hasLookup = true
  | .advance _ answer => ∀ record, answer.lookup = .ok (some record) → record.NulFree
  | .stop _ => True
  | .happen (.write key entry) =>
      ∀ hash, key = redisKey hash → ¬CarriesPg entry ∧ FieldsNulFree entry
  | .happen _ => True

/-! ## The invariant -/

variable {sha256 : String → List UInt8}

/-- Entries under API keys hold no NUL, and one that carries `src=pg` remembers a
record that a lookup returned for its hash. -/
def CacheSound (service : KeyService) : Prop :=
  ∀ hash entry, service.redis.lookup (redisKey hash) = some entry →
    FieldsNulFree entry ∧
      (CarriesPg entry → ∃ record, LoggedRecord service.lookups hash record ∧
        Remembers entry record)

/-- What a call knows about the log at each point. -/
def Origin (sha256 : String → List UInt8) (lookups : List (String × LookupOutcome))
    (call : ValidateCall) : Prop :=
  match call.phase with
  | .release _ fields =>
      call.lookedUp = none ∧ call.redisAnswered = true ∧
        ∀ info, cachedInfo true fields = some info →
          ∃ record, LoggedRecord lookups (call.hash sha256) record ∧ record.info = info
  | .storeAcquire record | .storeHmset record _ | .storeExpire record _
  | .storeRelease record _ =>
      call.lookedUp = some (.ok (some record)) ∧ record.NulFree ∧
        LoggedRecord lookups (call.hash sha256) record
  | .done outcome =>
      (∀ info, outcome = .ok info →
        ∃ record, LoggedRecord lookups (call.hash sha256) record ∧ record.info = info) ∧
      (∀ looked, call.lookedUp = some looked → outcome = directOutcome looked) ∧
      (call.lookedUp = none →
        (∀ message, outcome ≠ .error (.backend message)) ∧
          (call.redisAnswered = false → call.request.rawKey = "" ∧
            outcome = .error (.validation "API key must not be empty")))
  | _ => call.lookedUp = none

def OwnOrigin (sha256 : String → List UInt8) (service : KeyService)
    (call : ValidateCall) : Prop :=
  call.request.hasLookup = true ∧ Origin sha256 service.lookups call

theorem Origin.mono {lookups more : List (String × LookupOutcome)} {call : ValidateCall}
    (origin : Origin sha256 lookups call) (grows : lookups ⊆ more) :
    Origin sha256 more call := by
  unfold Origin at origin ⊢
  cases phaseEq : call.phase <;> simp only [phaseEq] at origin ⊢
  case release =>
    refine ⟨origin.1, origin.2.1, fun info cached => ?_⟩
    obtain ⟨record, logged, same⟩ := origin.2.2 info cached
    exact ⟨record, grows logged, same⟩
  case storeAcquire => exact ⟨origin.1, origin.2.1, grows origin.2.2⟩
  case storeHmset => exact ⟨origin.1, origin.2.1, grows origin.2.2⟩
  case storeExpire => exact ⟨origin.1, origin.2.1, grows origin.2.2⟩
  case storeRelease => exact ⟨origin.1, origin.2.1, grows origin.2.2⟩
  case done =>
    refine ⟨fun info ended => ?_, origin.2⟩
    obtain ⟨record, logged, same⟩ := origin.1 info ended
    exact ⟨record, grows logged, same⟩
  all_goals exact origin

/-! ## The cache -/

theorem FieldsNulFree.of_value {entry other : Entry RedisValue}
    (nulFree : FieldsNulFree entry) (same : entry.value = other.value) :
    FieldsNulFree other := by
  intro fields valueEq
  exact nulFree fields (same.trans valueEq)

theorem Remembers.of_value {entry other : Entry RedisValue} {record : ApiKeyRecord}
    (remembers : Remembers entry record) (same : entry.value = other.value) :
    Remembers other record := by
  obtain ⟨fields, valueEq, found⟩ := remembers
  exact ⟨fields, same.symm.trans valueEq, found⟩

/-- Deadlines may change and entries may go, as long as no value is new. -/
theorem CacheSound.of_lookup {service after : KeyService} (sound : CacheSound service)
    (old : ∀ key entry, after.redis.lookup key = some entry →
      ∃ before, service.redis.lookup key = some before ∧ before.value = entry.value)
    (grows : service.lookups ⊆ after.lookups) : CacheSound after := by
  intro hash entry found
  obtain ⟨before, beforeFound, same⟩ := old _ _ found
  obtain ⟨nulFree, remembered⟩ := sound hash before beforeFound
  refine ⟨nulFree.of_value same, fun carries => ?_⟩
  obtain ⟨record, logged, remembers⟩ := remembered (carries.of_value same.symm)
  exact ⟨record, grows logged, remembers.of_value same⟩

/-- What a store writes over an entry without NULs. -/
theorem stored_entry {record : ApiKeyRecord} {old : List (String × String)}
    {entry : Entry RedisValue} (recordNulFree : record.NulFree)
    (oldNulFree : ∀ field ∈ old, NulFree field.1 ∧ NulFree field.2)
    (valueEq : entry.value = .hash (RedisConnection.setFields (storedFields record) old)) :
    FieldsNulFree entry ∧ Remembers entry record := by
  constructor
  · intro fields same
    rw [valueEq] at same
    cases same
    intro field member
    rw [RedisConnection.setFields, List.mem_append] at member
    rcases member with new | kept
    · simp only [storedFields, List.mem_cons, List.not_mem_nil, or_false] at new
      rcases new with rfl | rfl | rfl
      · exact ⟨show NulFree "client_id" by decide, recordNulFree.1⟩
      · exact ⟨show NulFree "scopes" by decide, recordNulFree.2⟩
      · exact ⟨by decide, by decide⟩
    · exact oldNulFree field (List.mem_filter.mp kept).1
  · refine ⟨_, valueEq, ?_, ?_⟩
    · rw [RedisConnection.findField_setFields (by simp [storedFields])]
      rfl
    · rw [RedisConnection.findField_setFields (by simp [storedFields])]
      rfl

/-- A store of a logged record keeps the cache sound. -/
theorem CacheSound.hmset {service after : KeyService} {call : ValidateCall}
    {record : ApiKeyRecord} (sound : CacheSound service) (recordNulFree : record.NulFree)
    (logged : LoggedRecord service.lookups (call.hash sha256) record)
    (stored : after.redis = (RedisConnection.hmset (call.rkey sha256) (storedFields record)
      service.redis).2)
    (grows : service.lookups ⊆ after.lookups) : CacheSound after := by
  intro hash entry found
  rw [stored] at found
  rcases RedisConnection.lookup_hmset found with untouched | ⟨isKey, old, valueEq, origin⟩
  · obtain ⟨nulFree, remembered⟩ := sound hash entry untouched
    refine ⟨nulFree, fun carries => ?_⟩
    obtain ⟨other, otherLogged, remembers⟩ := remembered carries
    exact ⟨other, grows otherLogged, remembers⟩
  · have sameHash : hash = call.hash sha256 := redisKey_injective isKey
    have oldNulFree : ∀ field ∈ old, NulFree field.1 ∧ NulFree field.2 := by
      rcases origin with ⟨_, rfl⟩ | ⟨before, beforeFound, beforeValue, _⟩
      · simp
      · exact (sound _ before beforeFound).1 old beforeValue
    obtain ⟨nulFree, remembers⟩ := stored_entry recordNulFree oldNulFree valueEq
    subst sameHash
    exact ⟨nulFree, fun _ => ⟨record, grows logged, remembers⟩⟩

theorem map_cString_of_nulFree {fields : List (String × String)}
    (nulFree : ∀ field ∈ fields, NulFree field.1 ∧ NulFree field.2) :
    fields.map (fun field => (cString field.1, cString field.2)) = fields := by
  conv_rhs => rw [← List.map_id fields]
  apply List.map_congr_left
  intro field member
  obtain ⟨nameNulFree, valueNulFree⟩ := nulFree field member
  simp [nameNulFree, valueNulFree]

/-- What a sound cache answers under a hash comes from a lookup of that hash. -/
theorem CacheSound.cachedInfo {service : KeyService} {call : ValidateCall}
    {fields : List (String × String)} {info : ApiKeyInfo} (sound : CacheSound service)
    (reply : (RedisConnection.hgetall (call.rkey sha256) service.redis).1 = some fields)
    (cached : cachedInfo true fields = some info) :
    ∃ record, LoggedRecord service.lookups (call.hash sha256) record ∧
      record.info = info := by
  obtain ⟨entry, stored, found, valueEq, copied, carries⟩ := carriesPg_of_cachedInfo reply cached
  obtain ⟨nulFree, remembered⟩ := sound _ entry found
  rw [map_cString_of_nulFree (nulFree stored valueEq)] at copied
  subst copied
  obtain ⟨record, logged, _, sameFields, clientEq, scopesEq⟩ := remembered carries
  rw [valueEq] at sameFields
  cases sameFields
  refine ⟨record, logged, ?_⟩
  simp only [Auth.cachedInfo] at cached
  split_ifs at cached
  rw [Option.some.injEq] at cached
  rw [← cached, clientEq, scopesEq]
  rfl

/-! ## One step -/

section Step

variable {call next : ValidateCall} {answer : Answer} {service after : KeyService}

theorem lookups_grow (stepped : call.step sha256 answer service = some (next, after)) :
    service.lookups ⊆ after.lookups := by
  rcases ValidateCall.step_lookups stepped with ⟨_, same⟩ | ⟨_, appended⟩
  · exact same ▸ List.Subset.refl _
  · exact appended ▸ List.subset_append_left _ _

/-- The cache stays sound: only a store adds values, and it has its record from
the log. -/
theorem CacheSound.step (sound : CacheSound service) (own : OwnOrigin sha256 service call)
    (stepped : call.step sha256 answer service = some (next, after)) : CacheSound after := by
  have grows := lookups_grow stepped
  rcases ValidateCall.step_redis stepped with
    same | ⟨record, connection, phaseEq, stored, _⟩ | ⟨record, connection, _, expired⟩
  · exact sound.of_lookup (fun key entry found => ⟨entry, same ▸ found, rfl⟩) grows
  · have origin := own.2
    simp only [Origin, phaseEq] at origin
    obtain ⟨_, recordNulFree, logged⟩ := origin
    exact sound.hmset recordNulFree logged stored grows
  · refine sound.of_lookup (fun key entry found => ?_) grows
    rw [expired] at found
    exact RedisConnection.value_of_lookup_expireKey found

theorem origin_finish {lookups : List (String × LookupOutcome)} {record : ApiKeyRecord}
    (lookedUp : call.lookedUp = some (.ok (some record)))
    (logged : LoggedRecord lookups (call.hash sha256) record) :
    Origin sha256 lookups (call.finish record.info) := by
  simp only [Origin, ValidateCall.finish, ValidateCall.goTo, lookedUp]
  refine ⟨fun info ended => ?_, fun looked same => ?_, fun none => by cases none⟩
  · split at ended
    · cases ended
    · exact ⟨record, logged, Except.ok.inj ended⟩
  · cases same
    rfl

theorem origin_cacheFailed {lookups : List (String × LookupOutcome)} (what : String)
    (hasLookup : call.request.hasLookup = true) (lookedUp : call.lookedUp = none) :
    Origin sha256 lookups (call.cacheFailed what) := by
  simpa [Origin, ValidateCall.cacheFailed, hasLookup, ValidateCall.goTo] using lookedUp

/-- Each step hands its knowledge of the log on. -/
theorem Origin.step (sound : CacheSound service) (own : OwnOrigin sha256 service call)
    (trusted : ∀ record, answer.lookup = .ok (some record) → record.NulFree)
    (stepped : call.step sha256 answer service = some (next, after)) :
    Origin sha256 after.lookups next := by
  obtain ⟨hasLookup, origin⟩ := own
  cases ValidateCall.Step.of_step stepped with
  | refused phaseEq empty =>
      simp only [Origin, phaseEq] at origin
      simp [Origin, ValidateCall.goTo, origin, empty]
  | began phaseEq | acquired phaseEq | dropped phaseEq | reconnected phaseEq =>
      simpa [Origin, ValidateCall.goTo, phaseEq] using origin
  | cacheLost phaseEq =>
      refine origin_cacheFailed _ hasLookup ?_
      rcases phaseEq with phaseEq | phaseEq | ⟨_, phaseEq | phaseEq⟩ <;>
        simpa only [Origin, phaseEq] using origin
  | replied phaseEq reply =>
      have notYet : call.lookedUp = none := by
        rcases phaseEq with phaseEq | phaseEq <;> simpa only [Origin, phaseEq] using origin
      exact ⟨notYet, rfl, fun info cached => sound.cachedInfo reply cached⟩
  | released phaseEq =>
      simp only [Origin, phaseEq] at origin
      obtain ⟨lookedUp, redisAnswered, logged⟩ := origin
      simp only [ValidateCall.cacheAnswered, hasLookup, if_true]
      split
      · rename_i info cached
        simp only [Origin, ValidateCall.finish, ValidateCall.goTo, lookedUp, redisAnswered]
        refine ⟨fun ended outcome => ?_, fun looked found => ?_, fun _ => ⟨?_, ?_⟩⟩
        · split at outcome
          · cases outcome
          · cases outcome
            exact logged info cached
        · cases found
        · intro message
          split <;> simp
        · simp
      · simpa [Origin, ValidateCall.goTo] using lookedUp
  | notFound _ looked =>
      simp only [Origin, ValidateCall.goTo]
      refine ⟨fun info ended => (by cases ended), fun outcome same => ?_, fun none => by cases none⟩
      cases same
      rcases looked with looked | ⟨looked, rfl⟩ <;> rw [looked] <;> rfl
  | found _ looked =>
      simp only [Origin, ValidateCall.goTo]
      refine ⟨by rw [looked], trusted _ looked, ?_⟩
      rw [LoggedRecord, looked]
      exact List.mem_append_right _ (List.mem_singleton.mpr rfl)
  | storing phaseEq | stored phaseEq | expires phaseEq =>
      simp only [Origin, phaseEq] at origin
      exact origin
  | finished phaseEq _ sameLookups =>
      rw [sameLookups]
      rcases phaseEq with phaseEq | ⟨_, phaseEq | phaseEq | phaseEq⟩ <;>
        simp only [Origin, phaseEq] at origin <;> exact origin_finish origin.1 origin.2.2
  | storeLost phaseEq | expiryLost phaseEq =>
      simp only [Origin, phaseEq] at origin
      exact origin_finish origin.1 origin.2.2

end Step

/-- Every event keeps the cache sound and disturbs no call. -/
theorem refinementObligations (sha256 : String → List UInt8) :
    Component.Obligations (validation sha256) TrustedWrites CacheSound
      (OwnOrigin sha256) where
  initially := by
    rintro service rfl hash entry found
    cases found
  entered state id request _ hasLookup := ⟨hasLookup, rfl⟩
  advanced state id answer call next after holds trusted found stepped := by
    have own := holds.calls id call found
    refine ⟨holds.shared.step own stepped, ?_, Origin.step holds.shared own trusted stepped⟩
    rw [(ValidateCall.step_keeps stepped).1]
    exact own.1
  undisturbed state id answer call next after holds _ _ stepped other bystander _ found := by
    obtain ⟨hasLookup, origin⟩ := holds.calls other bystander found
    exact ⟨hasLookup, origin.mono (lookups_grow stepped)⟩
  happened state happening after holds trusted happened := by
    cases happened
    refine ⟨?_, fun id call found => holds.calls id call found⟩
    cases happening with
    | tick span =>
        refine holds.shared.of_lookup (fun key entry found => ⟨entry, ?_, rfl⟩)
          (List.Subset.refl _)
        exact ExpiringStore.lookup_of_lookup_advance found
    | write key written =>
        intro hash entry found
        by_cases same : redisKey hash = key
        · rw [← same] at found
          obtain rfl := ExpiringStore.eq_of_lookup_put_self found
          obtain ⟨unmarked, nulFree⟩ := trusted hash same.symm
          exact ⟨nulFree, fun carries => (unmarked carries).elim⟩
        · rw [RedisHappening.apply, ExpiringStore.lookup_put_of_ne same] at found
          exact holds.shared hash entry found
    | remove key =>
        refine holds.shared.of_lookup (fun other entry found => ⟨entry, ?_, rfl⟩)
          (List.Subset.refl _)
        exact (ExpiringStore.lookup_of_lookup_erase found).2

/-! ## The result -/

/-- However calls interleave and Redis fails: an accepted key was returned by a
lookup of its hash, a backend error is the call's own lookup failing, and a call
Redis never answered ends as its own lookup says, or rejects the empty key
without one. -/
theorem validate_refines_lookup {state : ValidationState}
    (reachable : (validation sha256).machine.Reachable TrustedWrites state)
    {id : Nat} {call : ValidateCall} {outcome : Except ApiKeyError ApiKeyInfo}
    (found : state.calls id = some call) (ended : call.phase = .done outcome) :
    (∀ info, outcome = .ok info → ∃ record,
      LoggedRecord state.shared.lookups (call.hash sha256) record ∧ record.info = info) ∧
      (∀ message, outcome = .error (.backend message) →
        call.lookedUp = some (.error (.backend message))) ∧
      (call.redisAnswered = false →
        (∃ looked, call.lookedUp = some looked ∧ outcome = directOutcome looked) ∨
          (call.request.rawKey = "" ∧
            outcome = .error (.validation "API key must not be empty"))) := by
  have own := ((refinementObligations sha256).of_reachable reachable).calls id call found
  have origin := own.2
  simp only [Origin, ended] at origin
  obtain ⟨accepted, looked, notLooked⟩ := origin
  refine ⟨accepted, fun message failed => ?_, fun unanswered => ?_⟩
  · cases lookedUp : call.lookedUp with
    | none => exact ((notLooked lookedUp).1 message failed).elim
    | some own =>
        have direct := looked own lookedUp
        rw [failed] at direct
        match own with
        | .error error =>
            cases direct
            rfl
        | .ok none => simp [directOutcome] at direct
        | .ok (some record) =>
            simp only [directOutcome] at direct
            split at direct <;> cases direct
  · cases lookedUp : call.lookedUp with
    | none => exact Or.inr ((notLooked lookedUp).2 unanswered)
    | some own => exact Or.inl ⟨own, rfl, looked own lookedUp⟩

/-! ## A call during an outage -/

/-- A validation of `k` while the parked connection is dead and no new one can be
opened, so that only the lookup counts. -/
def outage (record : ApiKeyRecord) : List ValidationEvent :=
  [.start 0 { validator := 0, rawKey := "k" }, .advance 0 {}, .advance 0 {},
    .advance 0 { fault := .broken }, .advance 0 { connects := false },
    .advance 0 { lookup := .ok (some record) }, .advance 0 { connects := false }]

def afterOutage (record : ApiKeyRecord) : ValidationState :=
  (validation fun _ => digestOfK).replay .fresh (outage record)

/-- The call of the outage, when it has ended. -/
def outageCall (record : ApiKeyRecord) (outcome : Except ApiKeyError ApiKeyInfo) :
    ValidateCall where
  request := { validator := 0, rawKey := "k" }
  phase := .done outcome
  startedAt := 0
  lookedUp := some (.ok (some record))

theorem reachable_outage (guard : ValidationState → ValidationEvent → Prop)
    (record : ApiKeyRecord) (allowed : ∀ event ∈ outage record, ∀ state, guard state event) :
    (validation fun _ => digestOfK).machine.Reachable guard (afterOutage record) :=
  Component.reachable_replay rfl rfl (Machine.allows_of_forall allowed)

def serviceRecord : ApiKeyRecord :=
  { clientId := "svc", scopes := "read write", expiresAt := none }

theorem validate_refines_lookup_outage :
    ∃ looked, (outageCall serviceRecord (.ok serviceRecord.info)).lookedUp = some looked ∧
      .ok serviceRecord.info = directOutcome looked := by
  have nulFree : serviceRecord.NulFree := ⟨by decide, by decide⟩
  have reachable := reachable_outage TrustedWrites serviceRecord (by
    simp [outage, TrustedWrites, nulFree])
  have found : (afterOutage serviceRecord).calls 0 =
      some (outageCall serviceRecord (.ok serviceRecord.info)) := rfl
  rcases (validate_refines_lookup reachable found rfl).2.2 rfl with direct | ⟨empty, _⟩
  · exact direct
  · exact absurd empty (by decide)

/-- Entries others write under the key of a hash are not marked as coming from
Postgres. -/
def UnmarkedWrites (_ : ValidationState) : ValidationEvent → Prop
  | .start _ request => request.hasLookup = true
  | .happen (.write key entry) => ∀ hash, key = redisKey hash →
      ∀ fields, entry.value = .hash fields → (kSourceField, kSourcePostgres) ∉ fields
  | _ => True

/-- The refinement without the check for an empty client id: during an outage a
found record is returned as it is. -/
def ReturnsEveryRecord (sha256 : String → List UInt8) : Prop :=
  ∀ state, (validation sha256).machine.Reachable UnmarkedWrites state →
    ∀ id call outcome, state.calls id = some call → call.phase = .done outcome →
      (∀ info, outcome = .ok info → ∃ record,
        LoggedRecord state.shared.lookups (call.hash sha256) record ∧ record.info = info) ∧
      (∀ message, outcome = .error (.backend message) →
        call.lookedUp = some (.error (.backend message))) ∧
      (call.redisAnswered = false → ∃ looked, call.lookedUp = some looked ∧
        match looked with
        | .error error => outcome = .error error
        | .ok none => ∃ message, outcome = .error (.validation message)
        | .ok (some record) => outcome = .ok record.info)

def namelessRecord : ApiKeyRecord :=
  { clientId := "", scopes := "read", expiresAt := none }

/-- A record without a client is rejected, although the lookup returned it. -/
theorem not_returnsEveryRecord : ¬ReturnsEveryRecord fun _ => digestOfK := by
  intro promise
  have reachable := reachable_outage UnmarkedWrites namelessRecord (by
    simp [outage, UnmarkedWrites])
  have found : (afterOutage namelessRecord).calls 0 = some (outageCall namelessRecord
      (.error (.validation "API key record missing client_id"))) := rfl
  obtain ⟨looked, lookedUp, returned⟩ := (promise _ reachable 0 _ _ found rfl).2.2 rfl
  cases lookedUp
  cases returned

end Corvus.Auth
