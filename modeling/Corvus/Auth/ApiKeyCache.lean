import Corvus.Auth.ApiKeyValidator

/-!
# How long Redis remembers a key

`store_in_cache` writes an entry with one command and gives it its time to live
with another.  As long as no store ends between the two, an entry that comes
from Postgres is gone at most `kCacheTtl` after the last store, and with it a
key that was revoked meanwhile.  A store that is cut short leaves an entry that
never goes.
-/

namespace Corvus.Auth

open Corvus.Db

variable {sha256 : String → List UInt8}

/-- The entry is gone at most `kCacheTtl` from now. -/
def LapsesInTime (redis : Redis) (entry : Entry RedisValue) : Prop :=
  entry.ExpiresBy (RedisConnection.deadline redis.now kCacheTtl)

/-- The call is inside `store_in_cache`. -/
def ValidatePhase.IsStore : ValidatePhase → Prop
  | .storeAcquire _ | .storeHmset _ _ | .storeExpire _ _ | .storeRelease _ _ => True
  | _ => False

/-- Some call is inside `store_in_cache` for this hash. -/
def StoreInProgress (sha256 : String → List UInt8) (state : ValidationState)
    (hash : String) : Prop :=
  ∃ id call, state.calls id = some call ∧ call.hash sha256 = hash ∧ call.phase.IsStore

/-- Call `id` has the `EXPIRE` of a store for this hash still ahead. -/
def ExpirePending (sha256 : String → List UInt8) (state : ValidationState) (id : Nat)
    (hash : String) : Prop :=
  ∃ call record connection, state.calls id = some call ∧ call.hash sha256 = hash ∧
    call.phase = .storeExpire record connection

/-- The store of a call ends with this event, its `HMSET` has taken effect, its
`EXPIRE` has not, and the entry would stay for longer than `kCacheTtl`. -/
def CutsStoreShort (sha256 : String → List UInt8) (redis : Redis) (id : Nat)
    (call : ValidateCall) : ValidationEvent → Prop
  | .advance other answer => other = id ∧
      ((∃ record connection, call.phase = .storeHmset record connection ∧
          answer.fault = .replyLost ∧
          (RedisConnection.hmset (call.rkey sha256) (storedFields record) redis).1 ≠ none ∧
          ¬∃ entry, redis.lookup (call.rkey sha256) = some entry ∧
            LapsesInTime redis entry) ∨
        ∃ record connection, call.phase = .storeExpire record connection ∧
          (answer.fault = .errorReply ∨ answer.fault = .broken) ∧
          ∃ entry, redis.lookup (call.rkey sha256) = some entry ∧ CarriesPg entry ∧
            ¬LapsesInTime redis entry)
  | .stop other => other = id ∧
      ∃ record connection, call.phase = .storeExpire record connection ∧
        ∃ entry, redis.lookup (call.rkey sha256) = some entry ∧ CarriesPg entry ∧
          ¬LapsesInTime redis entry
  | _ => False

/-- Validators have a lookup, and others never write an entry under the key of a hash
that reads as coming from Postgres. -/
def UnmarkedByOthers : ValidationEvent → Prop
  | .start _ request => request.hasLookup = true
  | .happen (.write key entry) => ∀ hash, key = redisKey hash → ¬CarriesPg entry
  | _ => True

/-- No store is cut short, unless another one for the same hash has its `EXPIRE`
still ahead. -/
def StoresFinish (sha256 : String → List UInt8) (state : ValidationState)
    (event : ValidationEvent) : Prop :=
  UnmarkedByOthers event ∧
    ∀ id call, state.calls id = some call →
      CutsStoreShort sha256 state.shared.redis id call event →
      ∃ other, other ≠ id ∧ ExpirePending sha256 state other (call.hash sha256)

/-! ## Connections in use are open -/

def HoldsOpen (call : ValidateCall) : Prop :=
  match call.phase with
  | .storeHmset _ connection | .storeExpire _ connection => connection.connected = true
  | _ => True

theorem HoldsOpen.step {call next : ValidateCall} {answer : Answer}
    {service after : KeyService}
    (stepped : call.step sha256 answer service = some (next, after)) : HoldsOpen next := by
  cases ValidateCall.Step.of_step stepped with
  | storing _ opened => exact opened
  | stored => rfl
  | cacheLost =>
      unfold ValidateCall.cacheFailed
      split <;> trivial
  | released =>
      unfold ValidateCall.cacheAnswered
      split
      · trivial
      · split <;> trivial
  | _ => trivial

theorem step_now {call next : ValidateCall} {answer : Answer} {service after : KeyService}
    (stepped : call.step sha256 answer service = some (next, after)) :
    after.redis.now = service.redis.now := by
  rcases ValidateCall.step_redis stepped with
    same | ⟨record, connection, _, stored, _⟩ | ⟨record, connection, _, expired⟩
  · rw [same]
  · rw [stored, RedisConnection.hmset_now]
  · rw [expired, RedisConnection.expireKey_now]

/-! ## Entries lapse -/

/-- Every entry that comes from Postgres is gone in time, or a store is about to
see to it. -/
def EntriesLapse (sha256 : String → List UInt8) (state : ValidationState) : Prop :=
  ∀ hash entry, state.shared.redis.lookup (redisKey hash) = some entry → CarriesPg entry →
    LapsesInTime state.shared.redis entry ∨ ∃ id, ExpirePending sha256 state id hash

theorem LapsesInTime.later {redis later : Redis} {entry : Entry RedisValue}
    (lapses : LapsesInTime redis entry) (ordered : redis.now ≤ later.now) :
    LapsesInTime later entry :=
  lapses.mono (Nat.add_le_add_right ordered _)

/-- What `EXPIRE` leaves under the key of a store is gone in time. -/
theorem lapses_of_expireKey {redis : Redis} {key : String} {record : ApiKeyRecord}
    {systemNow : Int} {entry : Entry RedisValue}
    (found : (RedisConnection.expireKey key (cacheTtlFor record systemNow) redis).lookup key =
      some entry) : LapsesInTime redis entry := by
  obtain ⟨atLeast, atMost⟩ := cacheTtlFor_bounds record systemNow
  refine ⟨_, RedisConnection.expireAt_of_lookup_expireKey (by omega) found, ?_⟩
  simp only [RedisConnection.deadline]
  omega

theorem ExpirePending.of_ne {state next : ValidationState} {id : Nat} {hash : String}
    (pending : ExpirePending sha256 state id hash) (same : next.calls id = state.calls id) :
    ExpirePending sha256 next id hash := by
  obtain ⟨call, record, connection, found, rest⟩ := pending
  exact ⟨call, record, connection, same.trans found, rest⟩

/-- The entries after a step of call `id`: untouched ones lapse as before, and the
call's own entry lapses, or another `EXPIRE` of its hash is ahead. -/
theorem entriesLapse_advance {state : ValidationState} {id : Nat} {call next : ValidateCall}
    {answer : Answer} {after : KeyService} (lapse : EntriesLapse sha256 state)
    (holdsOpen : HoldsOpen call) (finish : StoresFinish sha256 state (.advance id answer))
    (found : state.calls id = some call)
    (stepped : call.step sha256 answer state.shared = some (next, after)) :
    EntriesLapse sha256
      { shared := after, calls := Function.update state.calls id (some next) } := by
  have nowEq := step_now stepped
  have others : ∀ other hash, other ≠ id → ExpirePending sha256 state other hash →
      ExpirePending sha256
        { shared := after, calls := Function.update state.calls id (some next) } other hash :=
    fun other hash different pending => pending.of_ne (Function.update_of_ne different _ _)
  -- An entry that is still there lapses, or the pending `EXPIRE` is another call's.
  have carried : ∀ hash entry, state.shared.redis.lookup (redisKey hash) = some entry →
      CarriesPg entry → ¬ExpirePending sha256 state id hash →
      LapsesInTime after.redis entry ∨ ∃ other, ExpirePending sha256
        { shared := after, calls := Function.update state.calls id (some next) } other hash := by
    intro hash entry entryFound carries notOwn
    rcases lapse hash entry entryFound carries with lapses | ⟨other, pending⟩
    · exact Or.inl (lapses.later (Nat.le_of_eq nowEq.symm))
    · refine Or.inr ⟨other, others other hash ?_ pending⟩
      rintro rfl
      exact notOwn pending
  by_cases expiring : ∃ record connection, call.phase = .storeExpire record connection
  · obtain ⟨record, connection, phaseEq⟩ := expiring
    have ownOnly : ∀ hash, ExpirePending sha256 state id hash → hash = call.hash sha256 := by
      rintro hash ⟨own, _, _, ownFound, rfl, _⟩
      rw [found] at ownFound
      cases ownFound
      rfl
    by_cases ran : answer.fault = .healthy ∨ answer.fault = .replyLost
    · have connected : connection.connected = true := by
        simpa [HoldsOpen, phaseEq] using holdsOpen
      have expired := ValidateCall.step_storeExpire phaseEq connected ran stepped
      intro hash entry entryFound carries
      simp only [expired] at entryFound
      by_cases own : hash = call.hash sha256
      · subst own
        exact Or.inl ((lapses_of_expireKey entryFound).later (Nat.le_of_eq nowEq.symm))
      · have otherKey : redisKey hash ≠ call.rkey sha256 :=
          fun same => own (redisKey_injective same)
        rw [RedisConnection.expireKey_lookup_of_ne otherKey] at entryFound
        exact carried hash entry entryFound carries fun pending => own (ownOnly hash pending)
    · have refused : answer.fault = .errorReply ∨ answer.fault = .broken := by
        cases faultEq : answer.fault <;> simp_all
      have unchanged := ValidateCall.step_storeExpire_refused phaseEq refused stepped
      intro hash entry entryFound carries
      simp only [unchanged] at entryFound
      by_cases own : hash = call.hash sha256
      · subst own
        by_cases lapses : LapsesInTime state.shared.redis entry
        · exact Or.inl (lapses.later (Nat.le_of_eq nowEq.symm))
        · obtain ⟨other, different, pending⟩ := finish.2 id call found ⟨rfl, Or.inr
            ⟨record, connection, phaseEq, refused, entry, entryFound, carries, lapses⟩⟩
          exact Or.inr ⟨other, others other _ different pending⟩
      · exact carried hash entry entryFound carries fun pending => own (ownOnly hash pending)
  · have notOwn : ∀ hash, ¬ExpirePending sha256 state id hash := by
      rintro hash ⟨own, record, connection, ownFound, _, phaseEq⟩
      rw [found] at ownFound
      cases ownFound
      exact expiring ⟨record, connection, phaseEq⟩
    intro hash entry entryFound carries
    rcases ValidateCall.step_redis stepped with
      same | ⟨record, connection, phaseEq, stored, next⟩ | ⟨record, connection, phaseEq, _⟩
    · rw [same] at entryFound
      exact carried hash entry entryFound carries (notOwn hash)
    · rw [stored] at entryFound
      rcases RedisConnection.lookup_hmset entryFound with
        untouched | ⟨isKey, old, _, origin⟩
      · exact carried hash entry untouched carries (notOwn hash)
      · obtain rfl : hash = call.hash sha256 := redisKey_injective isKey
        rcases next with ⟨_, opened, nextPhase⟩ | lost
        · right
          refine ⟨id, _, record, opened, Function.update_self _ _ _, ?_, nextPhase⟩
          rw [ValidateCall.hash, (ValidateCall.step_keeps stepped).1, ValidateCall.hash]
        · by_cases bounded : ∃ before, state.shared.redis.lookup (call.rkey sha256) =
              some before ∧ LapsesInTime state.shared.redis before
          · obtain ⟨before, beforeFound, lapses⟩ := bounded
            rcases origin with ⟨absent, _⟩ | ⟨known, knownFound, _, sameExpiry⟩
            · rw [absent] at beforeFound
              cases beforeFound
            · rw [beforeFound] at knownFound
              cases knownFound
              obtain ⟨limit, limitEq, within⟩ := lapses.later (Nat.le_of_eq nowEq.symm)
              exact Or.inl ⟨limit, sameExpiry.trans limitEq, within⟩
          · by_cases tookEffect : (RedisConnection.hmset (call.rkey sha256)
                (storedFields record) state.shared.redis).1 = none
            · rw [hmset_state_of_none tookEffect] at entryFound
              exact carried _ entry entryFound carries (notOwn _)
            · obtain ⟨other, different, pending⟩ := finish.2 id call found ⟨rfl, Or.inl
                ⟨record, connection, phaseEq, lost, tookEffect, bounded⟩⟩
              exact Or.inr ⟨other, others other _ different pending⟩
    · exact (expiring ⟨record, connection, phaseEq⟩).elim

/-- A call has a lookup, holds open connections and has started by now. -/
structure Running (service : KeyService) (call : ValidateCall) : Prop where
  has_lookup : call.request.hasLookup = true
  holds_open : HoldsOpen call
  started : call.startedAt ≤ service.redis.now

theorem runningObligations (sha256 : String → List UInt8) :
    Component.Obligations (validation sha256) (StoresFinish sha256) (fun _ => True)
      Running where
  initially _ _ := trivial
  entered state id request _ finish := ⟨finish.1, trivial, Nat.le_refl _⟩
  advanced state id answer call next after holds _ found stepped := by
    obtain ⟨hasLookup, _, started⟩ := holds.calls id call found
    obtain ⟨requestEq, startedEq⟩ := ValidateCall.step_keeps stepped
    refine ⟨trivial, requestEq ▸ hasLookup, HoldsOpen.step stepped, ?_⟩
    rw [startedEq, step_now stepped]
    exact started
  undisturbed state id answer call next after holds _ _ stepped other bystander _ found := by
    obtain ⟨hasLookup, holdsOpen, started⟩ := holds.calls other bystander found
    exact ⟨hasLookup, holdsOpen, (step_now stepped).symm ▸ started⟩
  happened state happening after holds _ happened := by
    cases happened
    refine ⟨trivial, fun id call found => ?_⟩
    obtain ⟨hasLookup, holdsOpen, started⟩ := holds.calls id call found
    refine ⟨hasLookup, holdsOpen, Nat.le_trans started ?_⟩
    cases happening with
    | tick span => exact Nat.le_add_right _ _
    | write key entry => exact Nat.le_refl _
    | remove key => exact Nat.le_refl _

/-- One event that cuts no store short. -/
theorem EntriesLapse.preserved {state next : ValidationState} {event : ValidationEvent}
    (lapse : EntriesLapse sha256 state)
    (holdsOpen : ∀ id call, state.calls id = some call → HoldsOpen call)
    (finish : StoresFinish sha256 state event)
    (stepped : (validation sha256).eventStep state event = some next) :
    EntriesLapse sha256 next := by
  cases event with
  | start id request =>
      obtain ⟨free, rfl⟩ := Component.start_cases stepped
      intro hash entry found carries
      rcases lapse hash entry found carries with lapses | ⟨other, pending⟩
      · exact Or.inl lapses
      · refine Or.inr ⟨other, pending.of_ne (Function.update_of_ne ?_ _ _)⟩
        rintro rfl
        obtain ⟨_, _, _, calling, _⟩ := pending
        rw [free] at calling
        cases calling
  | advance id answer =>
      obtain ⟨call, moved, after, found, callStepped, rfl⟩ := Component.advance_cases stepped
      exact entriesLapse_advance lapse (holdsOpen id call found) finish found callStepped
  | stop id =>
      obtain rfl := Component.stop_cases stepped
      intro hash entry found carries
      rcases lapse hash entry found carries with lapses | ⟨other, pending⟩
      · exact Or.inl lapses
      · by_cases own : other = id
        · subst own
          by_cases lapses : LapsesInTime state.shared.redis entry
          · exact Or.inl lapses
          · obtain ⟨call, record, connection, calling, rfl, phaseEq⟩ := pending
            obtain ⟨another, different, pending⟩ := finish.2 other call calling
              ⟨rfl, record, connection, phaseEq, entry, found, carries, lapses⟩
            exact Or.inr ⟨another, pending.of_ne (Function.update_of_ne different _ _)⟩
        · exact Or.inr ⟨other, pending.of_ne (Function.update_of_ne own _ _)⟩
  | happen happening =>
      obtain ⟨after, happened, rfl⟩ := Component.happen_cases stepped
      cases happened
      intro hash entry found carries
      have kept : ∀ before, state.shared.redis.lookup (redisKey hash) = some before →
          before = entry → state.shared.redis.now ≤ (happening.apply state.shared.redis).now →
          LapsesInTime (happening.apply state.shared.redis) entry ∨
            ∃ id, ExpirePending sha256 state id hash := by
        rintro before beforeFound rfl ordered
        rcases lapse hash before beforeFound carries with lapses | pending
        · exact Or.inl (lapses.later ordered)
        · exact Or.inr pending
      cases happening with
      | tick span =>
          exact kept entry (ExpiringStore.lookup_of_lookup_advance found) rfl
            (Nat.le_add_right _ _)
      | write key written =>
          by_cases same : redisKey hash = key
          · subst same
            obtain rfl := ExpiringStore.eq_of_lookup_put_self found
            exact (finish.1 hash rfl carries).elim
          · simp only [RedisHappening.apply, ExpiringStore.lookup_put_of_ne same] at found
            exact kept entry found rfl (Nat.le_refl _)
      | remove key =>
          exact kept entry (ExpiringStore.lookup_of_lookup_erase found).2 rfl (Nat.le_refl _)

/-- All calls are running and entries lapse. -/
structure Regular (sha256 : String → List UInt8) (state : ValidationState) : Prop where
  running : Component.Holds (fun _ => True) Running state
  lapse : EntriesLapse sha256 state

theorem regular_of_reachable {state : ValidationState}
    (reachable : (validation sha256).machine.Reachable (StoresFinish sha256) state) :
    Regular sha256 state := by
  refine reachable.invariant ?_ ?_
  · rintro state ⟨fresh, noCalls⟩
    refine ⟨⟨trivial, fun id call found => ?_⟩, fun hash entry found => ?_⟩
    · rw [noCalls] at found
      cases found
    · rw [show state.shared = .fresh from fresh] at found
      cases found
  · rintro state event next ⟨running, lapse⟩ finish stepped
    exact ⟨(runningObligations sha256).preserved running finish stepped,
      lapse.preserved (fun id call found => (running.calls id call found).holds_open) finish
        stepped⟩

/-! ## Revoked keys -/

/-- No `HMSET` for the hash reaches Redis, and others do not write entries that
read as coming from Postgres. -/
def NoFurtherStore (sha256 : String → List UInt8) (hash : String) (state : ValidationState)
    (event : ValidationEvent) : Prop :=
  UnmarkedByOthers event ∧
    ∀ id answer, event = .advance id answer → ∀ call record connection,
      state.calls id = some call → call.hash sha256 = hash →
      call.phase = .storeHmset record connection →
      answer.fault = .errorReply ∨ answer.fault = .broken

/-- The call has nothing from the cache in hand. -/
def Uncached (call : ValidateCall) : Prop :=
  match call.phase with
  | .release _ fields => cachedInfo true fields = none
  | .storeAcquire record | .storeHmset record _ | .storeExpire record _
  | .storeRelease record _ => call.lookedUp = some (.ok (some record))
  | .done outcome => (∃ error, outcome = .error error) ∨
      ∃ record, call.lookedUp = some (.ok (some record))
  | _ => True

theorem Uncached.step {call next : ValidateCall} {answer : Answer}
    {service after : KeyService} (uncached : Uncached call)
    (hasLookup : call.request.hasLookup = true)
    (cold : ∀ fields, (RedisConnection.hgetall (call.rkey sha256) service.redis).1 =
      some fields → cachedInfo true fields = none)
    (stepped : call.step sha256 answer service = some (next, after)) : Uncached next := by
  cases ValidateCall.Step.of_step stepped with
  | refused => exact Or.inl ⟨_, rfl⟩
  | cacheLost => simp [Uncached, ValidateCall.cacheFailed, hasLookup]
  | replied _ reply => exact cold _ reply
  | released phaseEq =>
      simp only [Uncached, phaseEq] at uncached
      simp [Uncached, ValidateCall.cacheAnswered, hasLookup, uncached]
  | notFound => exact Or.inl ⟨_, rfl⟩
  | found _ looked => exact congrArg some looked
  | storing phaseEq | stored phaseEq | expires phaseEq =>
      simp only [Uncached, phaseEq] at uncached
      exact uncached
  | finished phaseEq =>
      rcases phaseEq with phaseEq | ⟨_, phaseEq | phaseEq | phaseEq⟩ <;>
        simp only [Uncached, phaseEq] at uncached <;> exact Or.inr ⟨_, uncached⟩
  | storeLost phaseEq | expiryLost phaseEq =>
      simp only [Uncached, phaseEq] at uncached
      exact Or.inr ⟨_, uncached⟩
  | _ => trivial

/-- What remains of the hash in the cache is gone by `limit`. -/
def GoneBy (hash : String) (limit : Nat) (service : KeyService) : Prop :=
  ∀ entry, service.redis.lookup (redisKey hash) = some entry → CarriesPg entry →
    entry.ExpiresBy limit

/-- A call for the hash has no `EXPIRE` ahead, and if it started after `limit` it
has nothing from the cache in hand. -/
def Late (sha256 : String → List UInt8) (hash : String) (limit : Nat)
    (service : KeyService) (call : ValidateCall) : Prop :=
  call.request.hasLookup = true ∧ call.startedAt ≤ service.redis.now ∧
    (call.hash sha256 = hash →
      (∀ record connection, call.phase ≠ .storeExpire record connection) ∧
        (limit < call.startedAt → Uncached call))

theorem GoneBy.step {hash : String} {limit : Nat} {call next : ValidateCall}
    {answer : Answer} {service after : KeyService} (gone : GoneBy hash limit service)
    (late : Late sha256 hash limit service call)
    (noStore : ∀ record connection, call.hash sha256 = hash →
      call.phase = .storeHmset record connection →
      answer.fault = .errorReply ∨ answer.fault = .broken)
    (stepped : call.step sha256 answer service = some (next, after)) :
    GoneBy hash limit after := by
  intro entry found carries
  by_cases own : hash = call.hash sha256
  · rcases ValidateCall.step_redis stepped with
      same | ⟨record, connection, phaseEq, _, ran⟩ | ⟨record, connection, phaseEq, _⟩
    · exact gone entry (same ▸ found) carries
    · have refused := noStore record connection own.symm phaseEq
      rcases ran with ⟨healthy, _⟩ | lost
      · simp [healthy] at refused
      · simp [lost] at refused
    · exact ((late.2.2 own.symm).1 record connection phaseEq).elim
  · have otherKey : redisKey hash ≠ call.rkey sha256 :=
      fun same => own (redisKey_injective same)
    rcases ValidateCall.step_redis stepped with
      same | ⟨record, connection, _, stored, _⟩ | ⟨record, connection, _, expired⟩
    · exact gone entry (same ▸ found) carries
    · rw [stored] at found
      rcases RedisConnection.lookup_hmset found with untouched | ⟨isKey, _⟩
      · exact gone entry untouched carries
      · exact (otherKey isKey).elim
    · rw [expired, RedisConnection.expireKey_lookup_of_ne otherKey] at found
      exact gone entry found carries

/-- Once the cached entry is gone, a reply to `HGETALL` yields nothing. -/
theorem GoneBy.cold {limit : Nat} {call : ValidateCall} {service : KeyService}
    (gone : GoneBy (call.hash sha256) limit service) (passed : limit < service.redis.now)
    (fields : List (String × String))
    (reply : (RedisConnection.hgetall (call.rkey sha256) service.redis).1 = some fields) :
    cachedInfo true fields = none := by
  cases cached : cachedInfo true fields with
  | none => rfl
  | some info =>
      obtain ⟨entry, _, found, _, _, carries⟩ := carriesPg_of_cachedInfo reply cached
      have hidden := (gone entry found carries).not_visibleAt passed
      rw [ExpiringStore.visibleAt_of_lookup found] at hidden
      cases hidden

/-- While no store of the hash comes in between, its entry goes and calls that
start afterwards get nothing from it. -/
theorem lateObligations (sha256 : String → List UInt8) (hash : String) (limit : Nat) :
    Component.Obligations (validation sha256) (NoFurtherStore sha256 hash)
      (GoneBy hash limit) (Late sha256 hash limit) where
  initially := by
    rintro service rfl entry found
    cases found
  entered state id request _ noStore :=
    ⟨noStore.1, Nat.le_refl _, fun _ => ⟨fun _ _ ahead => (by cases ahead), fun _ => trivial⟩⟩
  advanced state id answer call next after holds noStore found stepped := by
    have late := holds.calls id call found
    obtain ⟨requestEq, startedEq⟩ := ValidateCall.step_keeps stepped
    have gone := holds.shared.step late (fun record connection =>
      noStore.2 id answer rfl call record connection found) stepped
    refine ⟨gone, requestEq ▸ late.1, by rw [startedEq, step_now stepped]; exact late.2.1,
      fun hashEq => ⟨fun record opened ahead => ?_, fun isLate => ?_⟩⟩
    · obtain ⟨⟨connection, phaseEq⟩, healthy⟩ :=
        ValidateCall.storeHmset_of_storeExpire stepped ahead
      rw [ValidateCall.hash, requestEq] at hashEq
      have refused := noStore.2 id answer rfl call record connection found hashEq phaseEq
      simp [healthy] at refused
    · rw [ValidateCall.hash, requestEq] at hashEq
      subst hashEq
      rw [startedEq] at isLate
      exact ((late.2.2 rfl).2 isLate).step late.1
        (GoneBy.cold holds.shared (Nat.lt_of_lt_of_le isLate late.2.1)) stepped
  undisturbed state id answer call next after holds _ _ stepped other bystander _ found := by
    obtain ⟨hasLookup, started, rest⟩ := holds.calls other bystander found
    exact ⟨hasLookup, (step_now stepped).symm ▸ started, rest⟩
  happened state happening after holds noStore happened := by
    cases happened
    cases happening with
    | tick span =>
        refine ⟨fun entry found carries => ?_, fun id call found => ?_⟩
        · exact holds.shared entry (ExpiringStore.lookup_of_lookup_advance found) carries
        · obtain ⟨hasLookup, started, rest⟩ := holds.calls id call found
          exact ⟨hasLookup, Nat.le_trans started (Nat.le_add_right _ _), rest⟩
    | write key written =>
        refine ⟨fun entry found carries => ?_, fun id call found => holds.calls id call found⟩
        by_cases same : redisKey hash = key
        · subst same
          obtain rfl := ExpiringStore.eq_of_lookup_put_self found
          exact (noStore.1 hash rfl carries).elim
        · simp only [RedisHappening.apply, ExpiringStore.lookup_put_of_ne same] at found
          exact holds.shared entry found carries
    | remove key =>
        refine ⟨fun entry found carries => ?_, fun id call found => holds.calls id call found⟩
        exact holds.shared entry (ExpiringStore.lookup_of_lookup_erase found).2 carries

/-! ## The result -/

/-- In a run that cuts no store short, once no store of a hash is in progress:
its entry from Postgres lapses within `kCacheTtl`, and if no further store
follows, calls that start after that reject the key unless their own lookup
finds it. -/
theorem cached_key_lapses {state : ValidationState} {hash : String}
    (reachable : (validation sha256).machine.Reachable (StoresFinish sha256) state)
    (settled : ¬StoreInProgress sha256 state hash) :
    (∀ entry, state.shared.redis.lookup (redisKey hash) = some entry → CarriesPg entry →
      entry.ExpiresBy (RedisConnection.deadline state.shared.redis.now kCacheTtl)) ∧
      ∀ later, (validation sha256).machine.Runs (NoFurtherStore sha256 hash) state later →
        ∀ id call outcome, later.calls id = some call → call.hash sha256 = hash →
          call.phase = .done outcome →
          RedisConnection.deadline state.shared.redis.now kCacheTtl < call.startedAt →
          (∀ record, call.lookedUp ≠ some (.ok (some record))) →
          ∃ error, outcome = .error error := by
  obtain ⟨running, lapse⟩ := regular_of_reachable reachable
  have notPending : ∀ id, ¬ExpirePending sha256 state id hash := by
    rintro id ⟨call, record, connection, found, hashEq, phaseEq⟩
    exact settled ⟨id, call, found, hashEq, by rw [phaseEq]; trivial⟩
  have gone : GoneBy hash (RedisConnection.deadline state.shared.redis.now kCacheTtl)
      state.shared := by
    intro entry found carries
    rcases lapse hash entry found carries with lapses | ⟨id, pending⟩
    · exact lapses
    · exact (notPending id pending).elim
  refine ⟨gone, fun later runs id call outcome found hashEq ended isLate notFound => ?_⟩
  have holds : Component.Holds
      (GoneBy hash (RedisConnection.deadline state.shared.redis.now kCacheTtl))
      (Late sha256 hash (RedisConnection.deadline state.shared.redis.now kCacheTtl)) state := by
    refine ⟨gone, fun other started startedFound => ?_⟩
    obtain ⟨hasLookup, _, startedBy⟩ := running.calls other started startedFound
    refine ⟨hasLookup, startedBy, fun sameHash => ⟨fun record connection phaseEq => ?_,
      fun afterLimit => ?_⟩⟩
    · exact notPending other ⟨started, record, connection, startedFound, sameHash, phaseEq⟩
    · simp only [RedisConnection.deadline] at afterLimit
      omega
  have late := ((lateObligations sha256 hash _).of_runs runs holds).calls id call found
  have uncached := (late.2.2 hashEq).2 isLate
  simp only [Uncached, ended] at uncached
  rcases uncached with rejected | ⟨record, lookedUp⟩
  · exact rejected
  · exact (notFound record lookedUp).elim

/-! ## One store -/

/-- A validation of `k` that finds a record, up to the `EXPIRE` of its store, which
ends with `fault`. -/
def storing (fault : CommandFault) : List ValidationEvent :=
  [.start 0 { validator := 0, rawKey := "k" }, .advance 0 {}, .advance 0 {}, .advance 0 {},
    .advance 0 {},
    .advance 0 { lookup := .ok (some { clientId := "svc", scopes := "read", expiresAt := none }) },
    .advance 0 {}, .advance 0 {}, .advance 0 { fault }]

def afterStoring (fault : CommandFault) (rest : List ValidationEvent) : ValidationState :=
  (validation fun _ => digestOfK).replay .fresh (storing fault ++ rest)

def storedEntry (expireAt : Option Nat) : Entry RedisValue where
  value := .hash [("client_id", "svc"), ("scopes", "read"), ("src", "pg")]
  expireAt

theorem storedEntry_carriesPg (expireAt : Option Nat) : CarriesPg (storedEntry expireAt) :=
  ⟨_, rfl, ("src", "pg"), by decide, by decide, by decide⟩

/-- Steps whose commands succeed cut no store short. -/
theorem storesFinish_of_healthy {state : ValidationState} {id : Nat} {answer : Answer}
    (healthy : answer.fault = .healthy) :
    StoresFinish sha256 state (.advance id answer) := by
  refine ⟨trivial, fun other call _ cut => ?_⟩
  rcases cut with ⟨_, ⟨_, _, _, lost, _⟩ | ⟨_, _, _, refused, _⟩⟩
  · simp [healthy] at lost
  · simp [healthy] at refused

/-- With one call that is not inside a store, no store is in progress. -/
theorem no_store_of_only {state : ValidationState} {id : Nat} {call : ValidateCall}
    {hash : String} (only : ∀ other, other ≠ id → state.calls other = none)
    (found : state.calls id = some call) (outside : ¬call.phase.IsStore) :
    ¬StoreInProgress sha256 state hash := by
  rintro ⟨other, storing, storingFound, _, isStore⟩
  by_cases same : other = id
  · subst same
    rw [found] at storingFound
    cases storingFound
    exact outside isStore
  · rw [only other same] at storingFound
    cases storingFound

theorem only_after_storing {fault : CommandFault} {rest : List ValidationEvent}
    (noStart : ∀ id request, .start id request ∉ rest) (other : Nat) (different : other ≠ 0) :
    (afterStoring fault rest).calls other = none := by
  refine Component.calls_of_replay fun request member => ?_
  rw [List.mem_append] at member
  rcases member with first | later
  · simp [storing, different] at first
  · exact noStart other request later

theorem cached_key_lapses_stored : (storedEntry (some 60000)).ExpiresBy 60000 := by
  have allowed : (validation fun _ => digestOfK).machine.Allows
      (StoresFinish fun _ => digestOfK) (Component.fresh .fresh)
      (storing .healthy ++ [.advance 0 {}]) := by
    apply Machine.allows_of_forall
    simp only [storing, List.cons_append, List.nil_append, List.forall_mem_cons]
    refine ⟨fun _ => ⟨rfl, fun _ _ _ cut => cut.elim⟩, ?_⟩
    simp [storesFinish_of_healthy]
  have reachable : (validation fun _ => digestOfK).machine.Reachable
      (StoresFinish fun _ => digestOfK) (afterStoring .healthy [.advance 0 {}]) :=
    Component.reachable_replay rfl rfl allowed
  have settled : ¬StoreInProgress (fun _ => digestOfK)
      (afterStoring .healthy [.advance 0 {}]) (hashKey (fun _ => digestOfK) "k") :=
    no_store_of_only (only_after_storing (by simp)) rfl id
  exact (cached_key_lapses reachable settled).1 (storedEntry (some 60000)) rfl
    (storedEntry_carriesPg _)

/-- In every run, entries from Postgres lapse while no store is in progress. -/
def EntriesAlwaysLapse (sha256 : String → List UInt8) : Prop :=
  ∀ state, (validation sha256).machine.Reachable (fun _ => UnmarkedByOthers) state →
    (∀ hash, ¬StoreInProgress sha256 state hash) →
    ∀ hash entry, state.shared.redis.lookup (redisKey hash) = some entry → CarriesPg entry →
      entry.ExpiresBy (RedisConnection.deadline state.shared.redis.now kCacheTtl)

/-- After an `EXPIRE` that failed, the entry stays for good. -/
theorem not_entriesAlwaysLapse : ¬EntriesAlwaysLapse fun _ => digestOfK := by
  intro promise
  have reachable : (validation fun _ => digestOfK).machine.Reachable
      (fun _ => UnmarkedByOthers) (afterStoring .errorReply []) :=
    Component.reachable_replay rfl rfl (Machine.allows_of_forall (by
      simp [storing, UnmarkedByOthers]))
  have settled : ∀ hash, ¬StoreInProgress (fun _ => digestOfK)
      (afterStoring .errorReply []) hash :=
    fun hash => no_store_of_only (only_after_storing (by simp)) rfl id
  obtain ⟨limit, limitEq, _⟩ := promise _ reachable settled
    (hashKey (fun _ => digestOfK) "k") (storedEntry none) rfl (storedEntry_carriesPg _)
  cases limitEq

end Corvus.Auth
