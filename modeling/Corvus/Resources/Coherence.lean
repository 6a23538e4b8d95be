import Corvus.Resources.CacheContent

/-!
# What readers see while others write

Readers and writers of one resource interleave at every command and transaction.
The invariant numbers the transactions that changed the resource: a cached value
shows the resource at least as late as every write that has returned, and a
reader about to cache what it read either holds a value that is late enough or a
version token that the counter has left behind.

One interleaving breaks out of this.  `CacheAside::get` sends `GET`, and when the
reply is empty `EXISTS`; a value stored between the two is taken for an empty
one.
-/

namespace Corvus.Resources

open Corvus.Db RedisConnection CacheAside

variable {platform : Platform} {clientId id : String} {store after : Store platform}
  {call next : Call platform} {choice : Choice}

/-! ## The runs in question -/

/-- A request of one of the three operations on the resource. -/
def Request.IsOn (request : Request) (clientId id : String) : Prop :=
  request = .get clientId id ∨ request.Writes clientId id

/-- The call holds a version token. -/
def Phase.HoldsVersion : Phase → Prop
  | .selectRow version => version.isSome = true
  | .putIfVersion _ _ => True
  | _ => False

/-- All calls are on one resource, Redis commands succeed, reads of Postgres are
answered, and the version key does not disappear while a reader holds its value. -/
def Served (clientId id : String) (state : ServiceState platform) : ServiceEvent → Prop
  | .start _ request => request.IsOn clientId id
  | .advance caller choice =>
      choice.redis = .healthy ∧ ∀ call, state.calls caller = some call →
        (∀ version, call.phase = .selectRow version → choice.sql = .healthy) ∧
        ∀ outcome commit, call.phase = .invalidateVersioned outcome commit →
          (invalidateVersioned cacheConfig (cacheKey clientId id) .healthy
            state.shared.redis).1 = true
  | .stop _ => True
  | .happen happening =>
      (∃ reader call, state.calls reader = some call ∧ call.phase.HoldsVersion) →
        state.shared.redis.lookup (verKey clientId id) ≠ none →
        (happening.apply state.shared.redis).lookup (verKey clientId id) ≠ none

/-- No call sends its `EXISTS` while a value is stored: none has arrived since its
`GET` found nothing. -/
def SparesEmptyReads (clientId id : String) (state : ServiceState platform) :
    ServiceEvent → Prop
  | .advance caller _ =>
      ∀ call, state.calls caller = some call → call.phase = .cacheExists →
        state.shared.redis.lookup (cString (dataKey clientId id)) = none
  | _ => True

/-! ## The invariant -/

/-- The resource reads as `outcome` after `version` transactions, if any of them
changed it during the run. -/
def ReadsAt (store : Store platform) (version : Nat) (outcome : Outcome) : Prop :=
  ∀ commit, version = commit + 1 →
    (store.commits[commit]?).map Commit.result = some outcome

/-- Every write that has returned is among the first `version` transactions. -/
def LateEnough (store : Store platform) (version : Nat) : Prop :=
  ∀ commit ∈ store.returned, commit < version

/-- A cached text shows the resource as late as every write that has returned. -/
def CachedLate (clientId id : String) (store : Store platform) (owner ownerId text : String) :
    Prop :=
  owner = clientId ∧ ownerId = id ∧ (NulFree (dataKey clientId id) →
    ∃ version resource, text = platform.dump (toJson resource) ∧
      platform.IsValue resource.metadata ∧
      ReadsAt store version (.ok (.resource resource)) ∧ LateEnough store version)

structure Coherent (clientId id : String) (store : Store platform) : Prop where
  cached : CacheHolds (CachedLate clientId id store) store.redis
  returned : ∀ commit ∈ store.returned, commit < store.commits.length
  current : ReadsAt store store.commits.length (store.view clientId id)

/-- The number the version counter stands at. -/
def counter (clientId id : String) (redis : Redis) : Int :=
  (countAt (verKey clientId id) redis).getD 0

/-- A token is a number the counter has reached. -/
def TokenReached (clientId id token : String) (redis : Redis) : Prop :=
  ∃ count, token = count.repr ∧ count ≤ counter clientId id redis

/-- The outcome of a read shows every write it started after, or a later one. -/
def ShowsReturned (store : Store platform) (startedAfter : List Nat) (outcome : Outcome) : Prop :=
  ∀ commit ∈ startedAfter, ∃ later, commit ≤ later ∧
    (store.commits[later]?).map Commit.result = some outcome

/-- What a reader has found, and why it may store it with its token. -/
def FoundLate (clientId id : String) (store : Store platform) (startedAfter : List Nat)
    (token : String) (found : Resource) : Prop :=
  platform.IsValue found.metadata ∧ ∃ version, ReadsAt store version (.ok (.resource found)) ∧
    (∀ commit ∈ startedAfter, commit < version) ∧
    (NulFree (dataKey clientId id) → ∃ count, token = count.repr ∧
      count ≤ counter clientId id store.redis ∧
      (count = counter clientId id store.redis → LateEnough store version))

/-- What a call knows where it stands. -/
def PhaseCoherent (clientId id : String) (store : Store platform) (call : Call platform) : Prop :=
  match call.phase with
  | .selectRow (some token) =>
      NulFree (dataKey clientId id) → TokenReached clientId id token store.redis
  | .putIfVersion token found => FoundLate clientId id store call.startedAfter token found
  | .invalidateVersioned _ commit => commit < store.commits.length
  | .done outcome =>
      call.request = .get clientId id → ShowsReturned store call.startedAfter outcome
  | _ => True

structure CoherentCall (clientId id : String) (store : Store platform) (call : Call platform) :
    Prop where
  request : call.request.IsOn clientId id
  started : ∀ commit ∈ call.startedAfter, commit ∈ store.returned
  phase : PhaseCoherent clientId id store call

/-! ## Facts about the invariant -/

theorem ReadsAt.result {version commit : Nat} {outcome : Outcome}
    (reads : ReadsAt store version outcome) (before : commit < version) :
    ∃ later, commit ≤ later ∧ (store.commits[later]?).map Commit.result = some outcome := by
  obtain ⟨later, rfl⟩ : ∃ later, version = later + 1 := ⟨version - 1, by omega⟩
  exact ⟨later, by omega, reads later rfl⟩

theorem getElem?_of_append {α : Type} {list more : List α} {index : Nat} {element : α}
    (found : list[index]? = some element) : (list ++ more)[index]? = some element := by
  obtain ⟨inRange, rfl⟩ := List.getElem?_eq_some_iff.mp found
  rw [List.getElem?_append_left inRange, List.getElem?_eq_getElem inRange]

theorem result_of_append {commits more : List (Commit platform)} {index : Nat}
    {outcome : Outcome} (found : (commits[index]?).map Commit.result = some outcome) :
    ((commits ++ more)[index]?).map Commit.result = some outcome := by
  rw [Option.map_eq_some_iff] at found ⊢
  obtain ⟨commit, commitFound, resultEq⟩ := found
  exact ⟨commit, getElem?_of_append commitFound, resultEq⟩

/-- What every step leaves a call to rely on. -/
structure Progress (store after : Store platform) : Prop where
  commits : ∃ more, after.commits = store.commits ++ more
  returned : ∀ commit ∈ store.returned, commit ∈ after.returned

/-- The counter moves on whenever a write returns, and never back. -/
def Counted (clientId id : String) (store after : Store platform) : Prop :=
  (after.returned = store.returned ∧
      counter clientId id after.redis = counter clientId id store.redis) ∨
    counter clientId id store.redis < counter clientId id after.redis

theorem Counted.le (counted : Counted clientId id store after) :
    counter clientId id store.redis ≤ counter clientId id after.redis := by
  rcases counted with ⟨_, same⟩ | more
  · exact same.ge
  · exact more.le

theorem Progress.readsAt (progress : Progress store after) {version : Nat}
    {outcome : Outcome} (reads : ReadsAt store version outcome) :
    ReadsAt after version outcome := by
  obtain ⟨more, commitsEq⟩ := progress.commits
  intro commit versionEq
  rw [commitsEq]
  exact result_of_append (reads commit versionEq)

theorem Progress.showsReturned (progress : Progress store after)
    {startedAfter : List Nat} {outcome : Outcome}
    (late : ShowsReturned store startedAfter outcome) :
    ShowsReturned after startedAfter outcome := by
  obtain ⟨more, commitsEq⟩ := progress.commits
  intro commit member
  obtain ⟨later, ordered, result⟩ := late commit member
  rw [commitsEq]
  exact ⟨later, ordered, result_of_append result⟩

/-- A call keeps what it knows while the others progress. -/
theorem CoherentCall.mono (coherent : CoherentCall clientId id store call)
    (progress : Progress store after)
    (counted : call.phase.HoldsVersion → Counted clientId id store after) :
    CoherentCall clientId id after call := by
  refine ⟨coherent.request, fun commit member =>
    progress.returned commit (coherent.started commit member), ?_⟩
  have known := coherent.phase
  unfold PhaseCoherent at known ⊢
  split
  case h_1 token phaseEq =>
      rw [phaseEq] at known
      have reached := (counted (by rw [phaseEq]; rfl)).le
      intro plain
      obtain ⟨count, tokenEq, countLe⟩ := known plain
      exact ⟨count, tokenEq, countLe.trans reached⟩
  case h_2 token found phaseEq =>
      rw [phaseEq] at known
      have moved := counted (by rw [phaseEq]; trivial)
      obtain ⟨isValue, version, reads, startedBefore, tokenKnown⟩ := known
      refine ⟨isValue, version, progress.readsAt reads, startedBefore, fun plain => ?_⟩
      obtain ⟨count, tokenEq, countLe, late⟩ := tokenKnown plain
      refine ⟨count, tokenEq, countLe.trans moved.le, fun countEq => ?_⟩
      rcases moved with ⟨returnedEq, same⟩ | more
      · intro commit member
        rw [returnedEq] at member
        exact late (countEq.trans same) commit member
      · omega
  case h_3 outcome commit phaseEq =>
      rw [phaseEq] at known
      obtain ⟨more, commitsEq⟩ := progress.commits
      rw [commitsEq, List.length_append]
      exact Nat.lt_of_lt_of_le known (Nat.le_add_right _ _)
  case h_4 outcome phaseEq =>
      rw [phaseEq] at known
      exact fun isGet => progress.showsReturned (known isGet)
  case h_5 => trivial

/-! ## The counter -/

theorem counter_of_put (token value : String) (ttl : Int) (fault : Fault) (redis : Redis) :
    counter clientId id
        (putIfVersion cacheConfig (cacheKey clientId id) token value ttl fault redis).2 =
      counter clientId id redis := by
  rcases putIfVersion_redis (cacheKey clientId id) token value ttl fault redis with
    unchanged | ⟨_, stored⟩
  · rw [unchanged]
  · have other : verKey clientId id ≠ cacheConfig.makeKey (cacheKey clientId id) :=
      (dataKey_ne_versionKey clientId id (cacheKey clientId id)).symm
    rw [stored, storeValue, counter, countAt, ExpiringStore.lookup_put_of_ne other]
    rfl

theorem counter_of_invalidated {redis : Redis}
    (succeeded : (invalidateVersioned cacheConfig (cacheKey clientId id) .healthy redis).1 =
      true) :
    counter clientId id
        (invalidateVersioned cacheConfig (cacheKey clientId id) .healthy redis).2 =
      counter clientId id redis + 1 := by
  rcases invalidateVersioned_redis (cacheKey clientId id) .healthy redis with
    ⟨failed, _⟩ | ⟨reply, answered, ran⟩
  · rw [failed] at succeeded
    cases succeeded
  · have other : cacheConfig.versionKey (cacheKey clientId id) ≠
        cacheConfig.makeKey (cacheKey clientId id) :=
      (dataKey_ne_versionKey clientId id (cacheKey clientId id)).symm
    obtain ⟨count, countEq, found⟩ :=
      lookup_version_of_invalidated (by decide) other answered
    have before : counter clientId id redis = count := by
      rw [counter, verKey, countEq]
      rfl
    rw [ran, before, counter, countAt, verKey, found]
    rfl

/-- A reader's token is the number the counter stands at. -/
theorem version_of_counter {good : String → String → String → Prop} {redis : Redis}
    (holds : CacheHolds good redis) (plain : NulFree (dataKey clientId id)) :
    (version cacheConfig (cacheKey clientId id) .healthy redis).1 =
      some (counter clientId id redis).repr := by
  have sameKey : cString (cacheConfig.versionKey (cacheKey clientId id)) =
      cacheConfig.versionKey (cacheKey clientId id) :=
    cString_of_nulFree (nulFree_verKey.mpr (nulFree_dataKey.mp plain))
  obtain ⟨count, nonneg, countEq, current⟩ := holds.counter (cacheKey clientId id)
  have counted : counter clientId id redis = count := by
    rw [counter, verKey, countEq]
    rfl
  simp only [version, Command.issue_healthy, RedisConnection.get, sameKey]
  unfold currentVersion at current
  cases found : redis.lookup (cacheConfig.versionKey (cacheKey clientId id)) with
  | none =>
      rw [found] at current
      simp only [Option.some.injEq] at current
      simp [counted, ← current]
  | some entry =>
      rw [found] at current
      simp only at current
      simp [counted, current]

/-! ## One step -/

theorem Request.IsOn.get {request : Request} {owner ownerId : String}
    (isOn : request.IsOn clientId id) (requestEq : request = .get owner ownerId) :
    owner = clientId ∧ ownerId = id := by
  rcases isOn with rfl | ⟨changes, rfl⟩ | rfl <;> cases requestEq
  exact ⟨rfl, rfl⟩

theorem Request.IsOn.writes {request : Request} {owner ownerId : String}
    (isOn : request.IsOn clientId id) (writes : request.Writes owner ownerId) :
    owner = clientId ∧ ownerId = id := by
  rcases writes with ⟨changes, rfl⟩ | rfl <;> rcases isOn with isGet | ⟨_, isUpdate⟩ | isRemove
  · cases isGet
  · cases isUpdate
    exact ⟨rfl, rfl⟩
  · cases isRemove
  · cases isGet
  · cases isUpdate
  · cases isRemove
    exact ⟨rfl, rfl⟩

theorem Request.Writes.not_get {request : Request} {owner ownerId : String}
    (writes : request.Writes owner ownerId) : request ≠ .get clientId id := by
  rcases writes with ⟨changes, rfl⟩ | rfl <;> simp

/-- The proviso about a step, for the call that takes it. -/
structure StepServed (clientId id : String) (call : Call platform) (choice : Choice)
    (store : Store platform) : Prop where
  redis : choice.redis = .healthy
  select : ∀ version, call.phase = .selectRow version → choice.sql = .healthy
  evict : ∀ outcome commit, call.phase = .invalidateVersioned outcome commit →
    (invalidateVersioned cacheConfig (cacheKey clientId id) .healthy store.redis).1 = true
  spared : call.phase = .cacheExists →
    store.redis.lookup (cString (dataKey clientId id)) = none

theorem ServiceStep.progress (stepped : ServiceStep call choice store next after) :
    Progress store after := by
  have same : ∃ more, store.commits = store.commits ++ more := ⟨[], (List.append_nil _).symm⟩
  cases stepped with
  | created => exact ⟨⟨_, rfl⟩, fun _ member => member⟩
  | written => exact ⟨⟨_, rfl⟩, fun _ member => member⟩
  | invalidated => exact ⟨same, fun _ member => List.mem_append_left _ member⟩
  | _ => exact ⟨same, fun _ member => member⟩

theorem ServiceStep.counted (stepped : ServiceStep call choice store next after)
    (isOn : call.request.IsOn clientId id) (served : StepServed clientId id call choice store) :
    Counted clientId id store after := by
  cases stepped with
  | @cached owner ownerId version found requestEq phaseEq =>
      obtain ⟨rfl, rfl⟩ := isOn.get requestEq
      exact Or.inl ⟨rfl, counter_of_put _ _ _ _ _⟩
  | @invalidated owner ownerId outcome commit requestEq phaseEq =>
      obtain ⟨rfl, rfl⟩ := isOn.writes requestEq
      right
      rw [served.redis]
      simp only [counter_of_invalidated (served.evict outcome commit phaseEq)]
      exact lt_add_one _
  | _ => exact Or.inl ⟨rfl, rfl⟩

theorem LateEnough.of_returned {version : Nat} (late : LateEnough store version)
    (started : ∀ commit ∈ call.startedAfter, commit ∈ store.returned) :
    ∀ commit ∈ call.startedAfter, commit < version :=
  fun commit member => late commit (started commit member)

theorem ReadsAt.showsReturned {version : Nat} {outcome : Outcome} {startedAfter : List Nat}
    (reads : ReadsAt store version outcome)
    (startedBefore : ∀ commit ∈ startedAfter, commit < version) :
    ShowsReturned store startedAfter outcome :=
  fun commit member => reads.result (startedBefore commit member)

theorem Coherent.lateEnough (coherent : Coherent clientId id store) :
    LateEnough store store.commits.length := coherent.returned

theorem Coherent.wrote (coherent : Coherent clientId id store) {resources : Table platform}
    {result : Outcome}
    (change : RowWritten store.database.resources clientId id resources result) :
    Coherent clientId id (store.wrote resources result) where
  cached := by
    refine coherent.cached.mono fun owner ownerId text => ?_
    rintro ⟨ofClient, ofId, late⟩
    refine ⟨ofClient, ofId, fun plain => ?_⟩
    obtain ⟨version, resource, textEq, isValue, reads, lateEnough⟩ := late plain
    refine ⟨version, resource, textEq, isValue, fun commit versionEq => ?_, lateEnough⟩
    exact result_of_append (reads commit versionEq)
  returned commit member := by
    have before := coherent.returned commit member
    simp only [Store.wrote, List.length_append]
    exact Nat.lt_add_right _ before
  current commit lengthEq := by
    have last : commit = store.commits.length := by
      simpa [Store.wrote] using lengthEq.symm
    subst last
    have view : (store.wrote resources result).view clientId id = result := change.view
    rw [view]
    simp [Store.wrote]

theorem Coherent.put (coherent : Coherent clientId id store) {token : String}
    {found : Resource} {startedAfter : List Nat} {fault : Fault}
    (late : FoundLate clientId id store startedAfter token found) :
    Coherent clientId id
      { store with
        redis := (putIfVersion cacheConfig (cacheKey clientId id) token
          (platform.dump (toJson found)) kResourceCacheTtlSeconds fault store.redis).2 } where
  cached := by
    refine coherent.cached.put fun matched => ⟨rfl, rfl, fun plain => ?_⟩
    obtain ⟨isValue, version, reads, _, tokenKnown⟩ := late
    obtain ⟨count, tokenEq, _, lateEnough⟩ := tokenKnown plain
    refine ⟨version, found, rfl, isValue, reads, lateEnough ?_⟩
    obtain ⟨current, _, countEq, currentEq⟩ := coherent.cached.counter (cacheKey clientId id)
    have same : count.repr = current.repr := by
      rw [← tokenEq]
      exact Option.some.inj (matched.symm.trans currentEq)
    rw [Int.repr_injective same, counter, verKey, countEq]
    rfl
  returned := coherent.returned
  current := coherent.current

theorem Coherent.evicted (coherent : Coherent clientId id store) {commit : Nat}
    (committed : commit < store.commits.length)
    (succeeded : (invalidateVersioned cacheConfig (cacheKey clientId id) .healthy
      store.redis).1 = true) :
    Coherent clientId id
      { store with
        redis := (invalidateVersioned cacheConfig (cacheKey clientId id) .healthy
          store.redis).2
        returned := store.returned ++ [commit] } where
  cached := by
    refine coherent.cached.invalidated fun owner ownerId text notEvicted _ late => ?_
    obtain ⟨rfl, rfl, _⟩ := late
    exact (notEvicted succeeded rfl).elim
  returned other member := by
    rcases List.mem_append.mp member with before | isCommit
    · exact coherent.returned other before
    · rw [List.mem_singleton.mp isCommit]
      exact committed
  current := coherent.current

/-- A cached value is found under a key without NUL only, and it is late enough. -/
theorem Coherent.cachedLate (coherent : Coherent clientId id store)
    {entry : Entry RedisValue}
    (found : store.redis.lookup (cString (dataKey clientId id)) = some entry) :
    ∃ version resource, entry.value = .string (platform.dump (toJson resource)) ∧
      platform.IsValue resource.metadata ∧
      ReadsAt store version (.ok (.resource resource)) ∧ LateEnough store version := by
  obtain ⟨owner, ownerId, text, sameKey, valueEq, rfl, rfl, late⟩ :=
    coherent.cached.text_of_read found
  have plain : NulFree (dataKey owner ownerId) := sameKey ▸ nulFree_cString _
  obtain ⟨version, resource, rfl, isValue, reads, lateEnough⟩ := late plain
  exact ⟨version, resource, valueEq, isValue, reads, lateEnough⟩

/-- What the database answers is late enough. -/
theorem CoherentCall.read_showsReturned (known : CoherentCall clientId id store call)
    (coherent : Coherent clientId id store) :
    ShowsReturned store call.startedAfter (store.view clientId id) :=
  coherent.current.showsReturned (coherent.lateEnough.of_returned known.started)

/-- A step of a call keeps the shared part of the invariant. -/
theorem ServiceStep.coherent (stepped : ServiceStep call choice store next after)
    (coherent : Coherent clientId id store) (known : CoherentCall clientId id store call)
    (served : StepServed clientId id call choice store) : Coherent clientId id after := by
  cases stepped with
  | @created owner request _ _ _ _ _ requestEq =>
      rcases known.request with isGet | ⟨_, isUpdate⟩ | isRemove
      · cases isGet.symm.trans requestEq
      · cases isUpdate.symm.trans requestEq
      · cases isRemove.symm.trans requestEq
  | @written owner ownerId resources result _ requestEq phaseEq change =>
      obtain ⟨rfl, rfl⟩ := known.request.writes requestEq
      exact coherent.wrote change
  | @cached owner ownerId version found requestEq phaseEq =>
      obtain ⟨rfl, rfl⟩ := known.request.get requestEq
      have late := known.phase
      rw [PhaseCoherent, phaseEq] at late
      exact coherent.put late
  | @invalidated owner ownerId outcome commit requestEq phaseEq =>
      obtain ⟨rfl, rfl⟩ := known.request.writes requestEq
      have committed := known.phase
      rw [PhaseCoherent, phaseEq] at committed
      rw [served.redis]
      exact coherent.evicted committed (served.evict outcome commit phaseEq)
  | _ => exact coherent

/-- A call knows after its own step what it has to know. -/
theorem ServiceStep.phaseCoherent (roundTrips : platform.RoundTrips)
    (stepped : ServiceStep call choice store next after)
    (coherent : Coherent clientId id store) (known : CoherentCall clientId id store call)
    (served : StepServed clientId id call choice store) :
    PhaseCoherent clientId id after next := by
  have written : ∀ (outcome : Outcome) (store : Store platform),
      call.request ≠ .get clientId id → PhaseCoherent clientId id store (call.finish outcome) :=
    fun outcome store notGet isGet => (notGet isGet).elim
  cases stepped with
  | notCreated error requestEq => exact written _ _ (by rw [requestEq]; simp)
  | created requestEq clientEq inserted nextEq =>
      rcases nextEq with ⟨resource, rfl, _⟩ | ⟨error, rfl⟩ <;>
        exact written _ _ (by rw [requestEq]; simp)
  | listed requestEq => exact written _ _ (by rw [requestEq]; simp)
  | notListed error requestEq => exact written _ _ (by rw [requestEq]; simp)
  | missed => trivial
  | gotEmpty => trivial
  | @hit owner ownerId text requestEq phaseEq reply notEmpty =>
      obtain ⟨rfl, rfl⟩ := known.request.get requestEq
      rcases get_reply reply with ⟨_, empty⟩ | ⟨entry, found, sent⟩
      · exact (notEmpty empty).elim
      · obtain ⟨version, resource, valueEq, isValue, reads, late⟩ := coherent.cachedLate found
        simp only [valueEq, textOf, Option.some.injEq] at sent
        have decoded : decodeCached platform text = .ok (.resource resource) := by
          simp [decodeCached, ← sent, roundTrips.parse_dump _ (isValue_toJson isValue)]
        rw [decoded]
        exact fun _ => reads.showsReturned (late.of_returned known.started)
  | @hitEmpty owner ownerId count requestEq phaseEq reply present =>
      obtain ⟨rfl, rfl⟩ := known.request.get requestEq
      have absent := served.spared phaseEq
      simp only [getExists, RedisConnection.exists] at reply
      rw [show store.redis.lookup (cString (cacheConfig.makeKey (cacheKey owner ownerId))) =
        none from absent] at reply
      exact (present (Option.some.inj reply).symm).elim
  | @versionRead owner ownerId requestEq phaseEq =>
      obtain ⟨rfl, rfl⟩ := known.request.get requestEq
      rw [served.redis]
      cases readEq : (version cacheConfig (cacheKey owner ownerId) .healthy store.redis).1 with
      | none => trivial
      | some token =>
          intro plain
          rw [version_of_counter coherent.cached plain] at readEq
          exact ⟨_, (Option.some.inj readEq).symm, le_rfl⟩
  | @selected owner ownerId token found requestEq phaseEq read =>
      obtain ⟨rfl, rfl⟩ := known.request.get requestEq
      have reached := known.phase
      rw [PhaseCoherent, phaseEq] at reached
      have current := coherent.current
      rw [Store.view, read] at current
      refine ⟨isValue_of_findById read, _, current,
        coherent.lateEnough.of_returned known.started, fun plain => ?_⟩
      obtain ⟨count, tokenEq, countLe⟩ := reached plain
      exact ⟨count, tokenEq, countLe, fun _ => coherent.lateEnough⟩
  | @answered owner ownerId version answer requestEq phaseEq read =>
      obtain ⟨rfl, rfl⟩ := known.request.get requestEq
      rcases read with rfl | ⟨faulty, _⟩
      · exact fun _ => known.read_showsReturned coherent
      · exact (faulty (served.select version phaseEq)).elim
  | @cached owner ownerId version found requestEq phaseEq =>
      obtain ⟨rfl, rfl⟩ := known.request.get requestEq
      have late := known.phase
      rw [PhaseCoherent, phaseEq] at late
      obtain ⟨_, version, reads, startedBefore, _⟩ := late
      exact fun _ => reads.showsReturned startedBefore
  | notWritten error requestEq => exact written _ _ requestEq.not_get
  | @written owner ownerId resources result _ requestEq phaseEq change nextEq =>
      rcases nextEq with ⟨outcome, rfl, _⟩ | ⟨error, rfl⟩
      · show store.commits.length < (store.wrote resources result).commits.length
        simp [Store.wrote]
      · exact written _ _ requestEq.not_get
  | invalidated requestEq => exact written _ _ requestEq.not_get

theorem ServiceStep.coherentCall (roundTrips : platform.RoundTrips)
    (stepped : ServiceStep call choice store next after)
    (coherent : Coherent clientId id store) (known : CoherentCall clientId id store call)
    (served : StepServed clientId id call choice store) :
    CoherentCall clientId id after next := by
  obtain ⟨requestEq, _, startedEq⟩ := stepped.keeps
  refine ⟨requestEq ▸ known.request, fun commit member => ?_,
    stepped.phaseCoherent roundTrips coherent known served⟩
  rw [startedEq] at member
  exact stepped.progress.returned commit (known.started commit member)

/-! ## What happens to Redis -/

theorem lookup_of_happened {key : String} {redis : Redis} {happening : CacheHappening}
    {entry : Entry RedisValue} (found : (happening.apply redis).lookup key = some entry) :
    redis.lookup key = some entry := by
  cases happening with
  | tick span => exact ExpiringStore.lookup_of_lookup_advance found
  | evict evicted => exact (ExpiringStore.lookup_of_lookup_erase found).2

theorem absent_of_happened {key : String} {redis : Redis} (happening : CacheHappening)
    (absent : redis.lookup key = none) : (happening.apply redis).lookup key = none := by
  cases found : (happening.apply redis).lookup key with
  | none => rfl
  | some entry =>
      rw [lookup_of_happened found] at absent
      cases absent

/-- The counter stays while its key does. -/
theorem counter_of_happened {redis : Redis} {happening : CacheHappening}
    (kept : redis.lookup (verKey clientId id) ≠ none →
      (happening.apply redis).lookup (verKey clientId id) ≠ none) :
    counter clientId id (happening.apply redis) = counter clientId id redis := by
  have same : (happening.apply redis).lookup (verKey clientId id) =
      redis.lookup (verKey clientId id) := by
    cases before : redis.lookup (verKey clientId id) with
    | none => exact absent_of_happened happening before
    | some entry =>
        obtain ⟨still, found⟩ :=
          Option.ne_none_iff_exists'.mp (kept (by rw [before]; simp))
        rw [found, ← before, lookup_of_happened found]
  simp only [counter, countAt, same]

/-! ## Runs -/

/-- The guard of the runs in which the reads are coherent. -/
def CoherentRun (clientId id : String) (state : ServiceState platform) (event : ServiceEvent) :
    Prop :=
  Served clientId id state event ∧ SparesEmptyReads clientId id state event

theorem stepServed_of_allowed {state : ServiceState platform} {caller : Nat}
    (allowed : CoherentRun clientId id state (.advance caller choice))
    (found : state.calls caller = some call) :
    StepServed clientId id call choice state.shared :=
  ⟨allowed.1.1, (allowed.1.2 call found).1, (allowed.1.2 call found).2, allowed.2 call found⟩

theorem coherenceObligations (roundTrips : platform.RoundTrips) (clientId id : String) :
    Component.Obligations (resourceService platform) (CoherentRun clientId id)
      (Coherent clientId id) (CoherentCall clientId id) where
  initially store starts := by
    obtain ⟨redisEq, commitsEq, returnedEq⟩ := starts
    refine ⟨?_, ?_, ?_⟩
    · rw [redisEq]
      exact CacheHolds.empty
    · rw [returnedEq]
      simp
    · rw [commitsEq]
      exact fun commit lengthEq => by cases lengthEq
  entered state caller request holds allowed := by
    refine ⟨allowed.1, fun commit member => member, ?_⟩
    cases request <;> trivial
  advanced state caller choice call next after holds allowed found stepped := by
    have effect := ServiceStep.of_step stepped
    have known := holds.calls caller call found
    have served := stepServed_of_allowed allowed found
    exact ⟨effect.coherent holds.shared known served,
      effect.coherentCall roundTrips holds.shared known served⟩
  undisturbed state caller choice call next after holds allowed found stepped other bystander _
      otherFound := by
    have effect := ServiceStep.of_step stepped
    have isOn := (holds.calls caller call found).request
    have served := stepServed_of_allowed allowed found
    exact (holds.calls other bystander otherFound).mono effect.progress
      fun _ => effect.counted isOn served
  happened state happening after holds allowed happened := by
    cases happened
    have coherent := holds.shared
    refine ⟨⟨coherent.cached.happen happening, coherent.returned, coherent.current⟩,
      fun caller call found => (holds.calls caller call found).mono
        ⟨⟨[], (List.append_nil _).symm⟩, fun _ member => member⟩ fun holdsVersion => ?_⟩
    exact Or.inl ⟨rfl, counter_of_happened (allowed.1 ⟨caller, call, found, holdsVersion⟩)⟩

/-- A read that starts after some writes have returned yields the result of the last of
them or of a later write, in every run in which no value arrives between the two
commands of a `CacheAside::get`. -/
theorem reads_show_returned (roundTrips : platform.RoundTrips) {state : ServiceState platform}
    (reachable : (resourceService platform).machine.Reachable (CoherentRun clientId id) state)
    {reader : Nat} {outcome : Outcome} (found : state.calls reader = some call)
    (isGet : call.request = .get clientId id) (ended : call.phase = .done outcome) :
    ShowsReturned state.shared call.startedAfter outcome := by
  have known := ((coherenceObligations roundTrips clientId id).of_reachable reachable).calls
    reader call found
  have shows := known.phase
  rw [PhaseCoherent, ended] at shows
  exact shows isGet

/-! ## A write, and two reads after it -/

def stopRequest : UpdateResourceRequest where
  name := none
  status := some "down"
  metadata := none

/-- A write that returns, and a read up to what it found in Postgres. -/
def writeThenRead : List ServiceEvent :=
  [.start 0 (.update sampleClientText sampleIdText stopRequest), .advance 0 sampleChoice,
    .advance 0 sampleChoice, .start 1 (.get sampleClientText sampleIdText),
    .advance 1 sampleChoice, .advance 1 sampleChoice, .advance 1 sampleChoice,
    .advance 1 sampleChoice]

def readingState : ServiceState Platform.reference :=
  (resourceService Platform.reference).replay sampleStore writeThenRead

theorem coherentRun_advance {state : ServiceState platform} {caller : Nat}
    (found : state.calls caller = some call)
    (evicts : ∀ outcome commit, call.phase = .invalidateVersioned outcome commit →
      (invalidateVersioned cacheConfig (cacheKey clientId id) .healthy
        state.shared.redis).1 = true)
    (spared : call.phase = .cacheExists →
      state.shared.redis.lookup (cString (dataKey clientId id)) = none) :
    CoherentRun clientId id state (.advance caller sampleChoice) := by
  refine ⟨⟨rfl, fun other otherFound => ?_⟩, fun other otherFound => ?_⟩ <;>
    cases found.symm.trans otherFound
  · exact ⟨fun _ _ => rfl, evicts⟩
  · exact spared

theorem readingState_reachable : (resourceService Platform.reference).machine.Reachable
    (CoherentRun sampleClientText sampleIdText) readingState := by
  have quiet : ∀ {state : ServiceState Platform.reference} {caller : Nat} {call},
      state.calls caller = some call →
      (∀ outcome commit, call.phase ≠ .invalidateVersioned outcome commit) →
      call.phase ≠ .cacheExists →
      CoherentRun sampleClientText sampleIdText state (.advance caller sampleChoice) :=
    fun found notEvicting notBetween => coherentRun_advance found
      (fun outcome commit phaseEq => (notEvicting outcome commit phaseEq).elim)
      fun phaseEq => (notBetween phaseEq).elim
  refine Component.reachable_replay ⟨rfl, rfl, rfl⟩ rfl ?_
  refine ⟨⟨Or.inr (Or.inl ⟨_, rfl⟩), trivial⟩, fun _ stepped => ?_⟩
  cases stepped
  refine ⟨quiet rfl (by intro _ _ same; cases same) (by intro same; cases same),
    fun _ stepped => ?_⟩
  cases stepped
  refine ⟨coherentRun_advance rfl (fun _ _ _ => rfl) (by intro same; cases same),
    fun _ stepped => ?_⟩
  cases stepped
  refine ⟨⟨Or.inl rfl, trivial⟩, fun _ stepped => ?_⟩
  cases stepped
  refine ⟨quiet rfl (by intro _ _ same; cases same) (by intro same; cases same),
    fun _ stepped => ?_⟩
  cases stepped
  refine ⟨coherentRun_advance rfl (by intro _ _ same; cases same) fun _ => rfl,
    fun _ stepped => ?_⟩
  cases stepped
  refine ⟨quiet rfl (by intro _ _ same; cases same) (by intro same; cases same),
    fun _ stepped => ?_⟩
  cases stepped
  exact ⟨quiet rfl (by intro _ _ same; cases same) (by intro same; cases same),
    fun _ _ => trivial⟩

/-- The read has stored what it found. -/
def storedState : ServiceState Platform.reference :=
  ((resourceService Platform.reference).machine.execute readingState
    [.advance 1 sampleChoice]).getD readingState

theorem reads_show_returned_write :
    ∃ outcome, ShowsReturned storedState.shared [0] outcome := by
  have allowed : CoherentRun sampleClientText sampleIdText readingState
      (.advance 1 sampleChoice) :=
    coherentRun_advance rfl (by intro _ _ same; cases same) (by intro same; cases same)
  have reachable : (resourceService Platform.reference).machine.Reachable
      (CoherentRun sampleClientText sampleIdText) storedState :=
    readingState_reachable.extend ((Machine.Runs.refl readingState).tail allowed rfl)
  have found : storedState.calls 1 = some _ := rfl
  exact ⟨_, reads_show_returned Platform.reference_lawful.toRoundTrips reachable found rfl rfl⟩

/-! ## The read in between -/

/-- Reads show the writes that have returned, without the condition on empty reads. -/
def ReadsShowReturned : Prop :=
  ∀ (platform : Platform) (clientId id : String) (state : ServiceState platform) (reader : Nat)
    (call : Call platform) (outcome : Outcome), platform.Lawful →
    (resourceService platform).machine.Reachable (Served clientId id) state →
    state.calls reader = some call → call.request = .get clientId id →
    call.phase = .done outcome → ShowsReturned state.shared call.startedAfter outcome

/-- A second read is between its two commands when the first stores what it found. -/
def readBetween : List ServiceEvent :=
  [.start 2 (.get sampleClientText sampleIdText), .advance 2 sampleChoice,
    .advance 1 sampleChoice, .advance 2 sampleChoice]

def emptyReadState : ServiceState Platform.reference :=
  ((resourceService Platform.reference).machine.execute readingState readBetween).getD
    readingState

theorem emptyReadState_reachable : (resourceService Platform.reference).machine.Reachable
    (Served sampleClientText sampleIdText) emptyReadState := by
  have quiet : ∀ {state : ServiceState Platform.reference} {caller : Nat} {call},
      state.calls caller = some call →
      (∀ outcome commit, call.phase ≠ .invalidateVersioned outcome commit) →
      Served sampleClientText sampleIdText state (.advance caller sampleChoice) := by
    intro state caller call found notEvicting
    refine ⟨rfl, fun other otherFound => ⟨fun _ _ => rfl, fun outcome commit phaseEq => ?_⟩⟩
    cases found.symm.trans otherFound
    exact (notEvicting outcome commit phaseEq).elim
  have before := readingState_reachable.mono fun _ _ allowed => allowed.1
  refine before.extend (@Machine.runs_of_execute _ _ _ _ readBetween _ _ rfl ?_)
  refine ⟨Or.inl rfl, fun _ stepped => ?_⟩
  cases stepped
  refine ⟨quiet rfl (by intro _ _ same; cases same), fun _ stepped => ?_⟩
  cases stepped
  refine ⟨quiet rfl (by intro _ _ same; cases same), fun _ stepped => ?_⟩
  cases stepped
  exact ⟨quiet rfl (by intro _ _ same; cases same), fun _ _ => trivial⟩

/-- The second read takes the value stored in between for an empty one and fails. -/
theorem not_readsShowReturned : ¬ReadsShowReturned := by
  intro promise
  have failed : decodeCached Platform.reference "" = .error .other := by
    simp [decodeCached, Platform.reference_lawful.parse_empty]
  have shown := promise Platform.reference sampleClientText sampleIdText emptyReadState 2 _ _
    Platform.reference_lawful emptyReadState_reachable rfl rfl rfl 0 List.mem_cons_self
  rw [failed] at shown
  obtain ⟨later, _, result⟩ := shown
  cases later with
  | zero => cases result
  | succ later => cases result

end Corvus.Resources
