import Corvus.Resources.Isolation
import Mathlib.Data.List.Basic

/-!
# How old a cached answer can be

A cached value lives for a minute from its put, whatever becomes of the writes and
their evictions.  So what the cache answers with was read from Postgres at most that
long ago, and the time the reader took to put it.

Calls and the shared state carry the times this is about: when a reader read its
row, when a read was answered from the cache, and what Postgres held when.
-/

namespace Corvus.Resources

open Corvus.Db RedisConnection CacheAside

variable {platform : Platform}

/-! ## The service with its times -/

/-- The lifetime of a cached resource, in milliseconds. -/
def kLifetime : Nat := 60000

/-- Redis and Postgres with what Postgres held so far, at the times of the one clock, and
the longest time from a reader's read to its put. -/
structure TimedStore (platform : Platform) where
  store : Store platform
  history : List (Nat × Database platform)
  longest : Nat

def TimedStore.now (timed : TimedStore platform) : Nat :=
  timed.store.redis.now

/-- A call with the time of its last read of Postgres, and the time the cache answered it. -/
structure TimedCall (platform : Platform) where
  call : Call platform
  readAt : Nat
  cachedAt : Option Nat

/-- The time a step takes from the read to the put, if it executes one. -/
def TimedCall.took (timed : TimedCall platform) (choice : Choice) (now : Nat) : Nat :=
  match timed.call.phase with
  | .putIfVersion _ _ => if choice.redis = .refused then 0 else now - timed.readAt
  | _ => 0

/-- The time at which the cache answered, if a step leads there. -/
def TimedCall.answeredAt (timed : TimedCall platform) (next : Call platform) (now : Nat) :
    Option Nat :=
  match timed.call.phase, next.phase with
  | .cacheGet, .done _ => some now
  | .cacheExists, .done _ => some now
  | _, _ => timed.cachedAt

/-- The call after a step. -/
def TimedCall.moved (timed : TimedCall platform) (next : Call platform) (now : Nat) :
    TimedCall platform where
  call := next
  readAt :=
    match timed.call.phase with
    | .selectRow _ => now
    | _ => timed.readAt
  cachedAt := timed.answeredAt next now

/-- The shared state after a step. -/
def TimedStore.become (timed : TimedStore platform) (after : Store platform) (took : Nat) :
    TimedStore platform where
  store := after
  history := timed.history ++ [(after.redis.now, after.database)]
  longest := max timed.longest took

/-- The resource service, with its times. -/
def timedService (platform : Platform) :
    Component (TimedStore platform) Request (TimedCall platform) Choice CacheHappening where
  initial timed := (resourceService platform).initial timed.store ∧
    timed.history = [(timed.now, timed.store.database)] ∧ timed.longest = 0
  enter request timed :=
    { call := (resourceService platform).enter request timed.store, readAt := timed.now,
      cachedAt := none }
  step timed choice shared :=
    ((resourceService platform).step timed.call choice shared.store).map fun after =>
      (timed.moved after.1 shared.now, shared.become after.2 (timed.took choice shared.now))
  happen happening shared :=
    ((resourceService platform).happen happening shared.store).map fun after =>
      shared.become after 0

abbrev TimedState (platform : Platform) := Concurrent (TimedStore platform) (TimedCall platform)

/-! ## What is claimed -/

/-- Postgres held the client's row with the id, as this resource, at the time. -/
def HeldAt (timed : TimedStore platform) (clientId id : String) (resource : Resource)
    (time : Nat) : Prop :=
  ∃ database, (time, database) ∈ timed.history ∧
    findById database clientId id = .ok (some resource)

/-- What is answered at a time is not older than the lifetime of a cached value and the
longest time to a put. -/
def Recent (timed : TimedStore platform) (clientId id : String) (resource : Resource)
    (answered : Nat) : Prop :=
  ∃ time, HeldAt timed clientId id resource time ∧ time ≤ answered ∧
    answered ≤ time + timed.longest + kLifetime

/-- Every read that was answered from the cache returns a recent state of its row. -/
def CachedReadsRecent (state : TimedState platform) : Prop :=
  ∀ reader timed clientId id outcome answered, state.calls reader = some timed →
    timed.call.request = .get clientId id → timed.call.phase = .done outcome →
    timed.cachedAt = some answered →
    ∃ resource, outcome = .ok (.resource resource) ∧
      Recent state.shared clientId id resource answered

/-- Cut at its NUL, the client id reads like the client and the id of another read. -/
def SpellsAnother (clientId : String) : Prop :=
  ¬NulFree clientId ∧ ∃ owner ownerId client uuid, cString clientId = owner ++ ":" ++ ownerId ∧
    uuidIn owner = some client ∧ uuidIn ownerId = some uuid

/-- The reads that are started are of clients whose keys are their own. -/
def OwnKeys (_ : TimedState platform) (event : ServiceEvent) : Prop :=
  ∀ reader clientId id, event = .start reader (.get clientId id) → ¬SpellsAnother clientId

/-- No read sends its `EXISTS` while a value is stored under its key. -/
def SparesReads (state : TimedState platform) (event : ServiceEvent) : Prop :=
  ∀ reader choice timed clientId id, event = .advance reader choice →
    state.calls reader = some timed → timed.call.request = .get clientId id →
    timed.call.phase = .cacheExists →
    state.shared.store.redis.lookup (cString (dataKey clientId id)) = none

/-! ## Whose value a read finds -/

/-- A read finds values of its own row only: Postgres takes its client and its id for those
the value was read with. -/
theorem params_of_key {clientId id owner ownerId : String} {client uuid : Uuid}
    (own : ¬SpellsAnother clientId) (same : cString (dataKey clientId id) = dataKey owner ownerId)
    (clientEq : uuidParam owner = some client) (uuidEq : uuidParam ownerId = some uuid) :
    uuidParam clientId = uuidParam owner ∧ uuidParam id = uuidParam ownerId := by
  obtain ⟨ownerFree, ownerIdFree⟩ : NulFree owner ∧ NulFree ownerId :=
    nulFree_dataKey.mp (same ▸ nulFree_cString (dataKey clientId id))
  have ownerRead := (uuidIn_eq_some_iff clientEq).mpr ownerFree
  have ownerIdRead := (uuidIn_eq_some_iff uuidEq).mpr ownerIdFree
  have spelled := cString_dataKey_eq same
  rw [String.append_assoc] at spelled
  by_cases clientFree : NulFree clientId
  · have separator : NulFree ":" := by decide
    rw [cString_append_of_nulFree clientFree, cString_append_of_nulFree separator] at spelled
    have lists := congrArg String.toList spelled
    have colon : ":".toList = [':'] := by decide
    simp only [String.toList_append, List.append_assoc, colon, List.singleton_append] at lists
    obtain ⟨sameClient, _, sameId⟩ := (List.append_cons_inj_of_notMem
      (noColon_of_uuidIn ownerRead) (noColon_of_uuidIn ownerIdRead)).mp lists.symm
    have idEq : ownerId = cString id := String.toList_inj.mp sameId
    refine ⟨by rw [String.toList_inj.mp sameClient], ?_⟩
    rw [idEq, uuidParam, uuidParam, cString_of_nulFree (nulFree_cString id)]
  · rw [cString_append_of_nul clientFree] at spelled
    exact (own ⟨clientFree, owner, ownerId, client, uuid, spelled, ownerRead, ownerIdRead⟩).elim

/-! ## The invariant -/

/-- An entry is a counter, or a value that was read and expires in time. -/
def EntryDated (timed : TimedStore platform) (key : String) (entry : Entry RedisValue) : Prop :=
  (∃ owner ownerId resource time, key = dataKey owner ownerId ∧
      entry.value = .string (platform.dump (toJson resource)) ∧
      HeldAt timed owner ownerId resource time ∧ time ≤ timed.now ∧
      entry.ExpiresBy (time + timed.longest + kLifetime)) ∨
    ∃ counted count, key = cacheConfig.versionKey counted ∧ entry.value = .integer count

structure StoreDated (timed : TimedStore platform) : Prop where
  cached : ∀ key entry, timed.store.redis.lookup key = some entry → EntryDated timed key entry
  current : (timed.now, timed.store.database) ∈ timed.history

/-- What is known of a call.  With `strict`, no read was spoiled by a value that arrived
between its two commands. -/
structure CallDated (strict : Prop) (shared : TimedStore platform) (timed : TimedCall platform) :
    Prop where
  own : ∀ clientId id, timed.call.request = .get clientId id → ¬SpellsAnother clientId
  found : ∀ clientId id version found, timed.call.request = .get clientId id →
    timed.call.phase = .putIfVersion version found →
    HeldAt shared clientId id found timed.readAt ∧ timed.readAt ≤ shared.now
  pending : (∀ outcome, timed.call.phase ≠ .done outcome) → timed.cachedAt = none
  ended : ∀ clientId id outcome answered, timed.call.request = .get clientId id →
    timed.call.phase = .done outcome → timed.cachedAt = some answered →
    (∃ resource, outcome = .ok (.resource resource) ∧
        Recent shared clientId id resource answered) ∨
      ¬strict ∧ outcome = .error .other

/-- The times go on. -/
structure TimePasses (before after : TimedStore platform) : Prop where
  history : ∀ moment ∈ before.history, moment ∈ after.history
  longest : before.longest ≤ after.longest
  now : before.now ≤ after.now

section Later

variable {before after : TimedStore platform} {clientId id : String} {resource : Resource}

theorem HeldAt.mono {time : Nat} (held : HeldAt before clientId id resource time)
    (later : TimePasses before after) : HeldAt after clientId id resource time := by
  obtain ⟨database, member, found⟩ := held
  exact ⟨database, later.history _ member, found⟩

theorem Recent.mono {answered : Nat} (recent : Recent before clientId id resource answered)
    (later : TimePasses before after) : Recent after clientId id resource answered := by
  obtain ⟨time, held, past, within⟩ := recent
  have longer := later.longest
  exact ⟨time, held.mono later, past, by omega⟩

theorem EntryDated.mono {key : String} {entry : Entry RedisValue}
    (dated : EntryDated before key entry) (later : TimePasses before after) :
    EntryDated after key entry := by
  rcases dated with ⟨owner, ownerId, resource, time, keyEq, valueEq, held, past, expires⟩ | counter
  · have longer := later.longest
    exact Or.inl ⟨owner, ownerId, resource, time, keyEq, valueEq, held.mono later,
      past.trans later.now, expires.mono (by omega)⟩
  · exact Or.inr counter

theorem CallDated.mono {strict : Prop} {timed : TimedCall platform}
    (dated : CallDated strict before timed) (later : TimePasses before after) :
    CallDated strict after timed where
  own := dated.own
  found := by
    intro clientId id version found isGet phaseEq
    obtain ⟨held, past⟩ := dated.found clientId id version found isGet phaseEq
    exact ⟨held.mono later, past.trans later.now⟩
  pending := dated.pending
  ended := by
    intro clientId id outcome answered isGet phaseEq cachedAt
    rcases dated.ended clientId id outcome answered isGet phaseEq cachedAt with
      ⟨resource, outcomeEq, recent⟩ | spoiled
    · exact Or.inl ⟨resource, outcomeEq, recent.mono later⟩
    · exact Or.inr spoiled

theorem timePasses_become {timed : TimedStore platform} {store : Store platform} {took : Nat}
    (later : timed.now ≤ store.redis.now) : TimePasses timed (timed.become store took) where
  history _ member := List.mem_append_left _ member
  longest := Nat.le_max_left _ _
  now := later

end Later

/-! ## What a step does to Redis -/

/-- The clock of Redis does not move in a step of a call. -/
theorem ServiceStep.now_eq {call next : Call platform} {choice : Choice}
    {store after : Store platform} (stepped : ServiceStep call choice store next after) :
    after.redis.now = store.redis.now := by
  cases stepped with
  | @cached clientId id version found requestEq phaseEq =>
      rcases putIfVersion_redis (cacheKey clientId id) version (platform.dump (toJson found))
        kResourceCacheTtlSeconds choice.redis store.redis with unchanged | ⟨_, stored⟩
      · rw [unchanged]
      · rw [stored]
        rfl
  | @invalidated clientId id outcome commit requestEq phaseEq =>
      rcases invalidateVersioned_redis (cacheKey clientId id) choice.redis store.redis with
        ⟨_, unchanged⟩ | ⟨_, _, ran⟩
      · rw [unchanged]
      · rw [ran, kInvalidateVersioned_now]
  | _ => rfl

/-- A put stores nothing, or a value with the lifetime of a cached resource. -/
theorem lookup_of_put {clientId id token value key : String} {fault : Fault} {redis : Redis}
    {entry : Entry RedisValue}
    (found : (putIfVersion cacheConfig (cacheKey clientId id) token value
      kResourceCacheTtlSeconds fault redis).2.lookup key = some entry) :
    redis.lookup key = some entry ∨
      fault ≠ .refused ∧ key = dataKey clientId id ∧ entry.value = .string value ∧
        entry.expireAt = some (redis.now + kLifetime) := by
  by_cases refused : fault = .refused
  · subst refused
    exact Or.inl found
  rcases putIfVersion_redis (cacheKey clientId id) token value kResourceCacheTtlSeconds fault
    redis with unchanged | ⟨_, stored⟩
  · rw [unchanged] at found
    exact Or.inl found
  rw [stored] at found
  by_cases same : key = dataKey clientId id
  · subst same
    obtain rfl := ExpiringStore.eq_of_lookup_put_self found
    exact Or.inr ⟨refused, rfl, rfl, rfl⟩
  · rw [storeValue, ExpiringStore.lookup_put_of_ne
      (show key ≠ cacheConfig.makeKey (cacheKey clientId id) from same)] at found
    exact Or.inl found

/-- An invalidation leaves what was there, and a counter. -/
theorem lookup_of_invalidation {cached key : String} {fault : Fault} {redis : Redis}
    {entry : Entry RedisValue}
    (found : (invalidateVersioned cacheConfig cached fault redis).2.lookup key = some entry) :
    redis.lookup key = some entry ∨
      key = cacheConfig.versionKey cached ∧ ∃ count, entry.value = .integer count := by
  rcases invalidateVersioned_redis cached fault redis with ⟨_, unchanged⟩ | ⟨_, answered, ran⟩
  · rw [unchanged] at found
    exact Or.inl found
  · rw [ran] at found
    rcases (lookup_of_invalidated answered found).2 with ⟨_, before⟩ | ⟨isVersion, count, _, value⟩
    · exact Or.inl before
    · exact Or.inr ⟨isVersion, count + 1, value⟩

/-! ## One step -/

section Step

variable {strict : Prop} {shared : TimedStore platform} {timed : TimedCall platform}
  {choice : Choice} {next : Call platform} {after : Store platform}

theorem storeDated_of_step (stepped : ServiceStep timed.call choice shared.store next after)
    (dated : StoreDated shared) (known : CallDated strict shared timed) :
    StoreDated (shared.become after (timed.took choice shared.now)) where
  cached := by
    have later : TimePasses shared (shared.become after (timed.took choice shared.now)) :=
      timePasses_become stepped.now_eq.ge
    intro key entry found
    cases stepped with
    | @cached clientId id version resource requestEq phaseEq =>
        rcases lookup_of_put found with before | ⟨sent, keyEq, valueEq, expireEq⟩
        · exact (dated.cached key entry before).mono later
        obtain ⟨held, past⟩ := known.found clientId id version resource requestEq phaseEq
        refine Or.inl ⟨clientId, id, resource, timed.readAt, keyEq, valueEq, held.mono later,
          past.trans later.now, _, expireEq, ?_⟩
        -- The put came at most the longest time after the read.
        have took : timed.took choice shared.now = shared.now - timed.readAt := by
          simp only [TimedCall.took, phaseEq, sent, if_false]
        have within : shared.now - timed.readAt ≤
            max shared.longest (timed.took choice shared.now) := by
          rw [took]
          exact Nat.le_max_right _ _
        simp only [TimedStore.become, TimedStore.now] at within ⊢
        omega
    | @invalidated clientId id outcome commit requestEq phaseEq =>
        rcases lookup_of_invalidation found with before | ⟨keyEq, count, valueEq⟩
        · exact (dated.cached key entry before).mono later
        · exact Or.inr ⟨_, count, keyEq, valueEq⟩
    | _ => exact (dated.cached key entry found).mono later
  current := List.mem_append_right _ (List.mem_singleton.mpr rfl)

theorem findById_congr {database : Database platform} {clientId id owner ownerId : String}
    (sameClient : uuidParam clientId = uuidParam owner)
    (sameId : uuidParam id = uuidParam ownerId) :
    findById database clientId id = findById database owner ownerId := by
  rw [findById, findById, sameClient, sameId]

/-- What a read finds in the cache is a recent state of its row. -/
theorem recent_of_hit (roundTrips : platform.RoundTrips) (dated : StoreDated shared)
    {clientId id text : String} (own : ¬SpellsAnother clientId)
    (reply : (getValue cacheConfig (cacheKey clientId id) shared.store.redis).1 = some text)
    (notEmpty : text ≠ "") :
    ∃ resource, decodeCached platform text = .ok (.resource resource) ∧
      Recent shared clientId id resource shared.now := by
  rcases get_reply reply with ⟨_, empty⟩ | ⟨entry, found, sent⟩
  · exact (notEmpty empty).elim
  rcases dated.cached _ entry found with
    ⟨owner, ownerId, resource, time, keyEq, valueEq, held, past, expires⟩ | ⟨_, _, keyEq, _⟩
  · refine ⟨resource, ?_, time, ?_, past, ?_⟩
    · rw [valueEq, textOf, Option.some.injEq] at sent
      obtain ⟨_, _, read⟩ := held
      simp [decodeCached, ← sent,
        roundTrips.parse_dump _ (isValue_toJson (isValue_of_findById read))]
    · obtain ⟨database, member, read⟩ := held
      obtain ⟨client, uuid, _, clientEq, uuidEq, _, _⟩ := findById_eq_some read
      obtain ⟨sameClient, sameId⟩ := params_of_key own keyEq clientEq uuidEq
      exact ⟨database, member, (findById_congr sameClient sameId).trans read⟩
    · by_contra tooLate
      have hidden := expires.not_visibleAt (Nat.lt_of_not_le tooLate)
      have visible := ExpiringStore.visibleAt_of_lookup found
      rw [TimedStore.now, visible] at hidden
      cases hidden
  · exact (cString_dataKey_ne_versionKey _ _ _ keyEq).elim

/-- A call that goes on was not answered. -/
theorem answeredAt_of_pending {now : Nat} (goesOn : ∀ outcome, next.phase ≠ .done outcome) :
    timed.answeredAt next now = timed.cachedAt := by
  unfold TimedCall.answeredAt
  split
  · rename_i doneEq
    exact (goesOn _ doneEq).elim
  · rename_i doneEq
    exact (goesOn _ doneEq).elim
  · rfl

/-- Only the two commands of `CacheAside::get` lead to an answer from the cache. -/
theorem answeredAt_of_other {now : Nat} (noGet : timed.call.phase ≠ .cacheGet)
    (noExists : timed.call.phase ≠ .cacheExists) :
    timed.answeredAt next now = timed.cachedAt := by
  unfold TimedCall.answeredAt
  split
  · rename_i isGet _
    exact (noGet isGet).elim
  · rename_i isExists _
    exact (noExists isExists).elim
  · rfl

/-- A call that has ended takes no steps. -/
theorem running_of_step {call : Call platform} {store : Store platform}
    (stepped : call.step choice store = some (next, after)) :
    ∀ outcome, call.phase ≠ .done outcome := by
  intro outcome phaseEq
  unfold Call.step at stepped
  cases requestEq : call.request <;>
    simp [requestEq, Call.createStep, Call.getStep, Call.listStep, Call.updateStep,
      Call.removeStep, phaseEq] at stepped

/-- A reader about to put a value has just read it. -/
theorem found_of_step (stepped : ServiceStep timed.call choice shared.store next after)
    {clientId id version : String} {resource : Resource}
    (isGet : next.request = .get clientId id)
    (phaseEq : next.phase = .putIfVersion version resource) :
    findById shared.store.database clientId id = .ok (some resource) ∧
      timed.call.phase = .selectRow (some version) := by
  cases stepped with
  | selected requestEq selectEq read =>
      cases phaseEq
      cases requestEq.symm.trans isGet
      exact ⟨read, selectEq⟩
  | created requestEq clientEq inserted nextEq =>
      rcases nextEq with ⟨_, rfl, _⟩ | ⟨_, rfl⟩ <;> cases phaseEq
  | written requestEq writeEq change nextEq =>
      rcases nextEq with ⟨_, rfl, _⟩ | ⟨_, rfl⟩ <;> cases phaseEq
  | _ => cases phaseEq

/-- A read that ends was answered from Postgres, or from the cache with a recent state, or
was spoiled. -/
theorem ended_of_step (roundTrips : platform.RoundTrips)
    (stepped : ServiceStep timed.call choice shared.store next after)
    (dated : StoreDated shared) (pending : timed.cachedAt = none)
    {clientId id : String} (own : ¬SpellsAnother clientId)
    (isGet : next.request = .get clientId id) {outcome : Outcome}
    (phaseEq : next.phase = .done outcome) {answered : Nat}
    (cachedAt : timed.answeredAt next shared.now = some answered) :
    (∃ resource, outcome = .ok (.resource resource) ∧
        Recent shared clientId id resource answered) ∨
      outcome = .error .other ∧ timed.call.phase = .cacheExists ∧
        shared.store.redis.lookup (cString (dataKey clientId id)) ≠ none := by
  have fromPostgres : timed.call.phase ≠ .cacheGet → timed.call.phase ≠ .cacheExists → False := by
    intro noGet noExists
    rw [answeredAt_of_other noGet noExists, pending] at cachedAt
    cases cachedAt
  have isRead : timed.call.request = .get clientId id := stepped.keeps.1.symm.trans isGet
  cases stepped with
  | @hit otherClient otherId text requestEq getEq reply notEmpty =>
      cases requestEq.symm.trans isRead
      cases phaseEq
      have now : answered = shared.now := by
        simp only [TimedCall.answeredAt, getEq, Call.finish, Call.goTo, Option.some.injEq]
          at cachedAt
        exact cachedAt.symm
      rw [now]
      exact Or.inl (recent_of_hit roundTrips dated own reply notEmpty)
  | @hitEmpty otherClient otherId count requestEq existsEq reply present =>
      cases requestEq.symm.trans isRead
      cases phaseEq
      right
      refine ⟨by simp [decodeCached, roundTrips.parse_empty], existsEq, fun absent => ?_⟩
      have counted : (RedisConnection.exists (cacheConfig.makeKey (cacheKey clientId id))
          shared.store.redis).1 = some 0 := by
        rw [RedisConnection.exists, show shared.store.redis.lookup
          (cString (cacheConfig.makeKey (cacheKey clientId id))) = none from absent]
      rw [getExists, counted] at reply
      cases reply
      exact present rfl
  | answered requestEq selectEq =>
      exact (fromPostgres (by simp [selectEq]) (by simp [selectEq])).elim
  | cached requestEq putEq => exact (fromPostgres (by simp [putEq]) (by simp [putEq])).elim
  | missed => cases phaseEq
  | gotEmpty => cases phaseEq
  | versionRead => cases phaseEq
  | selected => cases phaseEq
  | notCreated error requestEq => cases requestEq.symm.trans isRead
  | created requestEq => cases requestEq.symm.trans isRead
  | listed requestEq => cases requestEq.symm.trans isRead
  | notListed error requestEq => cases requestEq.symm.trans isRead
  | notWritten error writes writeEq =>
      exact (fromPostgres (by simp [writeEq]) (by simp [writeEq])).elim
  | written writes writeEq => exact (fromPostgres (by simp [writeEq]) (by simp [writeEq])).elim
  | invalidated writes evictEq =>
      exact (fromPostgres (by simp [evictEq]) (by simp [evictEq])).elim

/-- What is known of a call is known of it after its own step. -/
theorem callDated_of_step (roundTrips : platform.RoundTrips)
    (stepped : timed.call.step choice shared.store = some (next, after))
    (dated : StoreDated shared) (known : CallDated strict shared timed)
    (spares : strict → ∀ clientId id, timed.call.request = .get clientId id →
      timed.call.phase = .cacheExists →
      shared.store.redis.lookup (cString (dataKey clientId id)) = none) :
    CallDated strict (shared.become after (timed.took choice shared.now))
      (timed.moved next shared.now) := by
  have step := ServiceStep.of_step stepped
  have pending := known.pending (running_of_step stepped)
  have later : TimePasses shared (shared.become after (timed.took choice shared.now)) :=
    timePasses_become step.now_eq.ge
  have sameRequest := step.keeps.1
  refine ⟨?_, ?_, ?_, ?_⟩
  · intro clientId id isGet
    exact known.own clientId id (sameRequest.symm.trans isGet)
  · intro clientId id version found isGet phaseEq
    obtain ⟨read, selectEq⟩ := found_of_step step isGet phaseEq
    have readAt : (timed.moved next shared.now).readAt = shared.now := by
      simp only [TimedCall.moved, selectEq]
    rw [readAt]
    exact ⟨⟨shared.store.database, later.history _ dated.current, read⟩, later.now⟩
  · intro goesOn
    exact (answeredAt_of_pending goesOn).trans pending
  · intro clientId id outcome answered isGet phaseEq cachedAt
    have isRead := sameRequest.symm.trans isGet
    rcases ended_of_step roundTrips step dated pending (known.own clientId id isRead) isGet phaseEq
      cachedAt with ⟨resource, outcomeEq, recent⟩ | ⟨failed, existsEq, stored⟩
    · exact Or.inl ⟨resource, outcomeEq, recent.mono later⟩
    · exact Or.inr ⟨fun isStrict => stored (spares isStrict clientId id isRead existsEq), failed⟩

end Step

/-! ## Runs -/

theorem timed_obligations (roundTrips : platform.RoundTrips) {strict : Prop}
    {guard : TimedState platform → ServiceEvent → Prop}
    (ownKeys : ∀ state event, guard state event → OwnKeys state event)
    (spares : strict → ∀ state event, guard state event → SparesReads state event) :
    (timedService platform).Obligations guard StoreDated (CallDated strict) where
  initially := by
    rintro timed ⟨⟨empty, _, _⟩, historyEq, _⟩
    refine ⟨fun key entry found => ?_, by rw [historyEq]; exact List.mem_singleton.mpr rfl⟩
    rw [empty] at found
    cases found
  entered := by
    intro state reader request holds allowed
    refine ⟨?_, ?_, fun _ => rfl, ?_⟩
    · rintro clientId id isGet
      exact ownKeys _ _ allowed reader clientId id (congrArg _ isGet)
    · rintro clientId id version found isGet phaseEq
      cases (show request = .get clientId id from isGet)
      cases phaseEq
    · rintro clientId id outcome answered _ _ ⟨⟩
  advanced := by
    intro state reader choice timed next after holds allowed calling stepped
    obtain ⟨⟨call, store⟩, callStepped, moved⟩ := Option.map_eq_some_iff.mp stepped
    cases moved
    have known := holds.calls reader timed calling
    exact ⟨storeDated_of_step (ServiceStep.of_step callStepped) holds.shared known,
      callDated_of_step roundTrips callStepped holds.shared known fun isStrict clientId id isGet
        existsEq => spares isStrict _ _ allowed reader choice timed clientId id rfl calling isGet
          existsEq⟩
  undisturbed := by
    intro state reader choice timed next after holds _ _ stepped other bystander _ found
    obtain ⟨⟨call, store⟩, callStepped, moved⟩ := Option.map_eq_some_iff.mp stepped
    cases moved
    exact (holds.calls other bystander found).mono
      (timePasses_become (ServiceStep.of_step callStepped).now_eq.ge)
  happened := by
    intro state happening after holds _ happened
    cases happened
    have later : state.shared.now ≤ (happening.apply state.shared.store.redis).now := by
      cases happening with
      | tick span => exact Nat.le_add_right _ _
      | evict key => exact Nat.le_refl _
    refine ⟨⟨fun key entry found => ?_, List.mem_append_right _ (List.mem_singleton.mpr rfl)⟩,
      fun id timed found => (holds.calls id timed found).mono (timePasses_become later)⟩
    refine (holds.shared.cached key entry ?_).mono (timePasses_become later)
    cases happening with
    | tick span => exact ExpiringStore.lookup_of_lookup_advance found
    | evict evicted => exact (ExpiringStore.lookup_of_lookup_erase found).2

/-- Every read that was answered from the cache with a row returns a recent state of it. -/
def ReturnedReadsRecent (state : TimedState platform) : Prop :=
  ∀ reader timed clientId id resource answered, state.calls reader = some timed →
    timed.call.request = .get clientId id → timed.call.phase = .done (.ok (.resource resource)) →
    timed.cachedAt = some answered → Recent state.shared clientId id resource answered

/-! ## Small runs -/

/-- A read that finds a value under its key ends with it. -/
theorem eventStep_hit (roundTrips : platform.RoundTrips) {state : TimedState platform}
    {reader : Nat} {timed : TimedCall platform} {choice : Choice} {clientId id : String}
    {resource : Resource}
    (isValue : platform.IsValue resource.metadata)
    (found : state.calls reader = some timed) (isGet : timed.call.request = .get clientId id)
    (phaseEq : timed.call.phase = .cacheGet) (healthy : choice.redis = .healthy)
    (reply : getValue cacheConfig (cacheKey clientId id) state.shared.store.redis =
      (some (platform.dump (toJson resource)), state.shared.store.redis)) :
    (timedService platform).eventStep state (.advance reader choice) =
      some {
        shared := state.shared.become state.shared.store 0
        calls := Function.update state.calls reader (some {
          call := timed.call.finish (.ok (.resource resource))
          readAt := timed.readAt
          cachedAt := some state.shared.now }) } := by
  have stepped := Call.step_of_hit roundTrips isValue isGet phaseEq healthy reply
  have moved : (timedService platform).step timed choice state.shared =
      some (timed.moved (timed.call.finish (.ok (.resource resource))) state.shared.now,
        state.shared.become state.shared.store (timed.took choice state.shared.now)) := by
    simp only [timedService, resourceService, stepped, Option.map_some]
  rw [Component.eventStep_advance found moved]
  simp only [TimedCall.moved, TimedCall.answeredAt, TimedCall.took, phaseEq, Call.finish,
    Call.goTo]

def sampleTimed : TimedStore Platform.reference where
  store := sampleStore
  history := [(0, sampleStore.database)]
  longest := 0

/-- The first steps of a read of the sample resource. -/
def readBy (reader : Nat) (clientId : String) (steps : Nat) : List ServiceEvent :=
  .start reader (.get clientId sampleIdText) :: List.replicate steps (.advance reader sampleChoice)

/-- A read has filled the cache. -/
def filledState : TimedState Platform.reference :=
  (timedService Platform.reference).replay sampleTimed (readBy 0 sampleClientText 5)

/-- Another read starts. -/
def enteredBy (clientId : String) : TimedCall Platform.reference where
  call := (resourceService Platform.reference).enter (.get clientId sampleIdText)
    filledState.shared.store
  readAt := filledState.shared.now
  cachedAt := none

def rereadBy (clientId : String) : TimedState Platform.reference where
  shared := filledState.shared
  calls := Function.update filledState.calls 1 (some (enteredBy clientId))

/-- It finds what the first read stored. -/
def hitBy (clientId : String) : TimedState Platform.reference where
  shared := (rereadBy clientId).shared.become (rereadBy clientId).shared.store 0
  calls := Function.update (rereadBy clientId).calls 1 (some {
    call := (enteredBy clientId).call.finish (.ok (.resource sampleResource))
    readAt := (enteredBy clientId).readAt
    cachedAt := some (rereadBy clientId).shared.now })

theorem step_to_rereadBy (clientId : String) :
    (timedService Platform.reference).eventStep filledState
      (.start 1 (.get clientId sampleIdText)) = some (rereadBy clientId) := by
  have free : filledState.calls 1 = none := by
    refine Component.calls_of_replay fun request member => ?_
    simp [readBy] at member
  simp only [Component.eventStep, free]
  rfl

theorem step_to_hitBy {clientId : String}
    (reply : getValue cacheConfig (cacheKey clientId sampleIdText) filledState.shared.store.redis =
      (some (Platform.reference.dump (toJson sampleResource)), filledState.shared.store.redis)) :
    (timedService Platform.reference).eventStep (rereadBy clientId) (.advance 1 sampleChoice) =
      some (hitBy clientId) := by
  have found : (rereadBy clientId).calls 1 = some (enteredBy clientId) :=
    Function.update_self 1 _ filledState.calls
  exact @eventStep_hit _ Platform.reference_lawful.toRoundTrips (rereadBy clientId) 1
    (enteredBy clientId) sampleChoice clientId sampleIdText sampleResource isValue_sampleResource
    found rfl rfl rfl reply

/-- The run to a read that finds what was stored, if its guard allows it. -/
theorem reachable_hitBy {clientId : String}
    {guard : TimedState Platform.reference → ServiceEvent → Prop}
    (reply : getValue cacheConfig (cacheKey clientId sampleIdText) filledState.shared.store.redis =
      (some (Platform.reference.dump (toJson sampleResource)), filledState.shared.store.redis))
    (filled : (timedService Platform.reference).machine.Reachable guard filledState)
    (starting : guard filledState (.start 1 (.get clientId sampleIdText)))
    (hitting : guard (rereadBy clientId) (.advance 1 sampleChoice)) :
    (timedService Platform.reference).machine.Reachable guard (hitBy clientId) := by
  have started : Machine.Runs (timedService Platform.reference).machine guard filledState
      (rereadBy clientId) :=
    (Machine.Runs.refl filledState).tail starting (step_to_rereadBy clientId)
  have hit : (timedService Platform.reference).machine.step (rereadBy clientId)
      (.advance 1 sampleChoice) = some (hitBy clientId) := by
    rw [Component.machine_step, step_to_hitBy reply]
  exact filled.extend (started.tail hitting hit)

theorem allowed_start {state : TimedState platform} {reader : Nat} {clientId id : String}
    (free : NulFree clientId) :
    OwnKeys state (.start reader (.get clientId id)) ∧
      SparesReads state (.start reader (.get clientId id)) := by
  refine ⟨fun _ _ _ started => ?_, fun _ _ _ _ _ advanced => (by cases advanced)⟩
  cases started
  exact fun spells => spells.1 free

/-- A step is allowed unless it is an `EXISTS` that finds a value. -/
theorem allowed_advance {state : TimedState platform} {reader : Nat} {timed : TimedCall platform}
    (found : state.calls reader = some timed)
    (spared : ∀ clientId id, timed.call.request = .get clientId id →
      timed.call.phase = .cacheExists →
      state.shared.store.redis.lookup (cString (dataKey clientId id)) = none) :
    OwnKeys state (.advance reader sampleChoice) ∧
      SparesReads state (.advance reader sampleChoice) := by
  refine ⟨fun _ _ _ started => (by cases started), ?_⟩
  intro other choice otherTimed clientId id advanced otherFound isGet existsEq
  cases advanced
  cases found.symm.trans otherFound
  exact spared clientId id isGet existsEq

theorem filledState_reachable : (timedService Platform.reference).machine.Reachable
    (fun state event => OwnKeys state event ∧ SparesReads state event) filledState := by
  have quiet : ∀ {state : TimedState Platform.reference} {timed},
      state.calls 0 = some timed → timed.call.phase ≠ .cacheExists →
      OwnKeys state (.advance 0 sampleChoice) ∧ SparesReads state (.advance 0 sampleChoice) :=
    fun found notBetween => allowed_advance found fun _ _ _ existsEq => (notBetween existsEq).elim
  refine Component.reachable_replay ⟨⟨rfl, rfl, rfl⟩, rfl, rfl⟩ rfl ?_
  refine ⟨allowed_start (by decide), fun _ stepped => ?_⟩
  cases stepped
  refine ⟨quiet rfl (by intro same; cases same), fun _ stepped => ?_⟩
  cases stepped
  refine ⟨allowed_advance rfl fun _ _ isGet _ => (by cases isGet; rfl), fun _ stepped => ?_⟩
  cases stepped
  refine ⟨quiet rfl (by intro same; cases same), fun _ stepped => ?_⟩
  cases stepped
  refine ⟨quiet rfl (by intro same; cases same), fun _ stepped => ?_⟩
  cases stepped
  exact ⟨quiet rfl (by intro same; cases same), fun _ _ => trivial⟩

/-! ## The result -/

/-- In every run, whatever fails and whoever stops: where no client id spells another read's
key, what the cache returns is recent; and where no value arrives between the two commands
of a read either, every read answered from the cache returns such a row. -/
theorem staleness_bounded (roundTrips : platform.RoundTrips) {state : TimedState platform} :
    ((timedService platform).machine.Reachable OwnKeys state → ReturnedReadsRecent state) ∧
      ((timedService platform).machine.Reachable
        (fun state event => OwnKeys state event ∧ SparesReads state event) state →
      CachedReadsRecent state) := by
  constructor
  · intro reachable reader timed clientId id resource answered found isGet phaseEq cachedAt
    have holds := (@timed_obligations _ roundTrips False _ (fun _ _ allowed => allowed)
      False.elim).of_reachable reachable
    rcases (holds.calls reader timed found).ended clientId id _ answered isGet phaseEq cachedAt
      with ⟨_, outcomeEq, recent⟩ | ⟨_, failed⟩
    · cases outcomeEq
      exact recent
    · cases failed
  · intro reachable reader timed clientId id outcome answered found isGet phaseEq cachedAt
    have holds := (@timed_obligations _ roundTrips True _ (fun _ _ allowed => allowed.1)
      fun _ _ _ allowed => allowed.2).of_reachable reachable
    rcases (holds.calls reader timed found).ended clientId id outcome answered isGet phaseEq
      cachedAt with recent | ⟨notStrict, _⟩
    · exact recent
    · exact (notStrict trivial).elim

theorem staleness_bounded_hit :
    Recent (hitBy sampleClientText).shared sampleClientText sampleIdText sampleResource
      filledState.shared.now ∧ CachedReadsRecent (hitBy sampleClientText) := by
  have reachable := @reachable_hitBy sampleClientText _ rfl filledState_reachable
    (allowed_start (by decide)) (allowed_advance (Function.update_self 1 _ filledState.calls)
      fun _ _ _ existsEq => by cases existsEq)
  refine ⟨?_, (staleness_bounded Platform.reference_lawful.toRoundTrips).2 reachable⟩
  exact (staleness_bounded Platform.reference_lawful.toRoundTrips).1
    (reachable.mono fun _ _ allowed => allowed.1) 1 _ sampleClientText sampleIdText
    sampleResource _ (Function.update_self 1 _ (rereadBy sampleClientText).calls) rfl rfl rfl

/-! ## Reads that are not bounded -/

/-- Reads answered from the cache are bounded, for requests the handlers let through. -/
def OrdinaryReadsBounded : Prop :=
  ∀ (platform : Platform) (state : TimedState platform), platform.Lawful →
    (timedService platform).machine.Reachable
      (fun _ event => ∀ caller request, event = .start caller request → request.Admissible) state →
    CachedReadsRecent state

/-- The rows that reads are answered with from the cache are bounded, for any requests. -/
def ReturnedReadsBounded : Prop :=
  ∀ (platform : Platform) (state : TimedState platform), platform.Lawful →
    (timedService platform).machine.Reachable (fun _ _ => True) state → ReturnedReadsRecent state

/-- A read stores its row between the two commands of another. -/
def storeBetween : List ServiceEvent :=
  readBy 0 sampleClientText 4 ++ readBy 1 sampleClientText 1 ++
    [.advance 0 sampleChoice, .advance 1 sampleChoice]

def spoiledState : TimedState Platform.reference :=
  (timedService Platform.reference).replay sampleTimed storeBetween

theorem not_ordinaryReadsBounded : ¬OrdinaryReadsBounded := by
  intro promise
  have accepted : (Request.get sampleClientText sampleIdText).Admissible := by decide
  have reachable : (timedService Platform.reference).machine.Reachable (fun _ event =>
      ∀ caller request, event = .start caller request → request.Admissible) spoiledState := by
    refine Component.reachable_replay ⟨⟨rfl, rfl, rfl⟩, rfl, rfl⟩ rfl ?_
    refine Machine.allows_of_forall fun event member _ caller request started => ?_
    subst started
    simp only [storeBetween, readBy, List.replicate, List.cons_append, List.nil_append,
      List.mem_cons, List.not_mem_nil, ConcurrentEvent.start.injEq, reduceCtorEq, or_false,
      false_or] at member
    rcases member with ⟨_, rfl⟩ | ⟨_, rfl⟩ <;> exact accepted
  have failed : decodeCached Platform.reference "" = .error .other := by
    simp [decodeCached, Platform.reference_lawful.parse_empty]
  obtain ⟨resource, answered, _⟩ := promise Platform.reference spoiledState
    Platform.reference_lawful reachable 1 _ sampleClientText sampleIdText _ _ rfl rfl rfl rfl
  rw [failed] at answered
  cases answered

/-- A client id that the key of a read is cut in. -/
def spelledClient : String :=
  sampleClientText ++ ":" ++ sampleIdText ++ "\x00"

theorem not_returnedReadsBounded : ¬ReturnedReadsBounded := by
  intro promise
  have reachable := @reachable_hitBy spelledClient (fun _ _ => True) rfl
    (filledState_reachable.mono fun _ _ _ => trivial) trivial trivial
  obtain ⟨_, ⟨database, _, found⟩, _⟩ := promise Platform.reference (hitBy spelledClient)
    Platform.reference_lawful reachable 1 _ spelledClient sampleIdText sampleResource _
    (Function.update_self 1 _ (rereadBy spelledClient).calls) rfl rfl rfl
  obtain ⟨client, _, _, clientEq, _⟩ := findById_eq_some found
  have unread : uuidParam spelledClient = none := by decide
  rw [unread] at clientEq
  cases clientEq

/-- A value stored between the commands of a read spoils it; and a client id with a NUL can
be answered with the row of another client. -/
theorem not_stalenessIsBounded : ¬OrdinaryReadsBounded ∧ ¬ReturnedReadsBounded :=
  ⟨not_ordinaryReadsBounded, not_returnedReadsBounded⟩

end Corvus.Resources
