import Corvus.Resources.Coherence

/-!
# Two spellings of one id

Postgres reads the digits of an id in either case, `is_uuid` accepts either case,
and the cache key holds the id as it was spelled.  An eviction therefore removes
the value under one spelling only.

Calls run one after the other here.  The invariant says of every cached value
which version of the table it was read from; versions are numbered by the
transactions before them.
-/

namespace Corvus.Resources

open Corvus.Db RedisConnection CacheAside

variable {platform : Platform} {store after : Store platform} {call next : Call platform}
  {choice : Choice}

/-! ## Versions of the table -/

/-- The table after each number of transactions, the last one being the current. -/
def Store.tables (store : Store platform) : List (Table platform) :=
  store.commits.map Commit.replaced ++ [store.database.resources]

/-- What a read of the table yields. -/
def Table.viewed (table : Table platform) (clientId id : String) : Outcome :=
  readOutcome id (findById { clients := fun _ => true, resources := table } clientId id)

/-- Some version of the table reads as the outcome. -/
def ViewAt (store : Store platform) (version : Nat) (clientId id : String)
    (outcome : Outcome) : Prop :=
  ∃ table, store.tables[version]? = some table ∧ table.viewed clientId id = outcome

/-- A transaction changed the row of a client with an id. -/
def Touched (store : Store platform) (commit : Nat) (client uuid : Uuid) : Prop :=
  ∃ before now, store.tables[commit]? = some before ∧ store.tables[commit + 1]? = some now ∧
    before.find client uuid ≠ now.find client uuid

/-- A version is later than every write of the row that has returned. -/
def AfterReturned (store : Store platform) (version : Nat) (client uuid : Uuid) : Prop :=
  ∀ commit ∈ store.returned, Touched store commit client uuid → commit < version

/-! ## Sequential runs -/

/-- The ids of a request passed `is_uuid`. -/
def Request.Accepted : Request → Prop
  | .get _ id => isUuid id = true
  | .update _ id _ => isUuid id = true
  | .remove _ id => isUuid id = true
  | _ => True

def Call.Ended (call : Call platform) : Prop :=
  ∃ outcome, call.phase = .done outcome

/-- One call runs at a time, and its Redis commands succeed; reads of Postgres are
answered. -/
def Sequential (state : ServiceState platform) : ServiceEvent → Prop
  | .start _ request =>
      request.Accepted ∧ ∀ other call, state.calls other = some call → call.Ended
  | .advance caller choice =>
      (∀ other call, other ≠ caller → state.calls other = some call → call.Ended) ∧
      choice.redis = .healthy ∧ ∀ call, state.calls caller = some call →
        (∀ version, call.phase = .selectRow version → choice.sql = .healthy) ∧
        ∀ clientId id outcome commit, call.request.Writes clientId id →
          call.phase = .invalidateVersioned outcome commit →
          (invalidateVersioned cacheConfig (cacheKey clientId id) .healthy
            state.shared.redis).1 = true
  | _ => True

/-- A cache entry of the row under a key other than the one evicted. -/
def CachedElsewhere (redis : Redis) (clientId id : String) : Prop :=
  ∃ owner ownerId entry, isUuid ownerId = true ∧ uuidParam owner = uuidParam clientId ∧
    uuidParam ownerId = uuidParam id ∧ dataKey owner ownerId ≠ dataKey clientId id ∧
    redis.lookup (dataKey owner ownerId) = some entry

/-- No write evicts its row while the row is cached under another key. -/
def OneSpelling (state : ServiceState platform) : ServiceEvent → Prop
  | .advance caller _ =>
      ∀ call clientId id outcome commit, state.calls caller = some call →
        call.request.Writes clientId id → call.phase = .invalidateVersioned outcome commit →
        ¬CachedElsewhere state.shared.redis clientId id
  | _ => True

/-! ## The invariant -/

/-- A cached text shows the row in a version later than every write of it that has
returned. -/
def CachedVersion (store : Store platform) (owner ownerId text : String) : Prop :=
  isUuid ownerId = true ∧ ∀ client uuid, uuidParam owner = some client →
    uuidParam ownerId = some uuid → ∃ version resource,
      text = platform.dump (toJson resource) ∧
      ViewAt store version owner ownerId (.ok (.resource resource)) ∧
      AfterReturned store version client uuid

structure Versioned (store : Store platform) : Prop where
  cached : CacheHolds (CachedVersion store) store.redis
  returned : ∀ commit ∈ store.returned, commit < store.commits.length

/-- The outcome of a read shows every write of the row it started after. -/
def ShowsWrites (store : Store platform) (startedAfter : List Nat) (clientId id : String)
    (outcome : Outcome) : Prop :=
  ∀ client uuid, uuidParam clientId = some client → uuidParam id = some uuid →
    ∀ commit ∈ startedAfter, Touched store commit client uuid →
      ∃ version, commit < version ∧ ViewAt store version clientId id outcome

/-- What a call knows where it stands. -/
def PhaseVersioned (store : Store platform) (call : Call platform) : Prop :=
  match call.phase with
  | .cacheExists => ∀ clientId id client uuid, call.request = .get clientId id →
      uuidParam clientId = some client → uuidParam id = some uuid →
      store.redis.lookup (cString (dataKey clientId id)) = none
  | .putIfVersion _ found => ∀ clientId id, call.request = .get clientId id →
      store.view clientId id = .ok (.resource found)
  | .invalidateVersioned _ commit => ∀ clientId id, call.request.Writes clientId id →
      commit < store.commits.length ∧ ∀ client uuid, Touched store commit client uuid →
        uuidParam clientId = some client ∧ uuidParam id = some uuid
  | .done outcome => ∀ clientId id, call.request = .get clientId id →
      ShowsWrites store call.startedAfter clientId id outcome
  | _ => True

structure VersionedCall (store : Store platform) (call : Call platform) : Prop where
  accepted : call.request.Accepted
  started : ∀ commit ∈ call.startedAfter, commit ∈ store.returned
  phase : PhaseVersioned store call

/-! ## Versions stay -/

theorem tables_wrote {resources : Table platform} {result : Outcome} :
    (store.wrote resources result).tables = store.tables ++ [resources] := by
  simp [Store.tables, Store.wrote]

theorem length_tables : store.tables.length = store.commits.length + 1 := by
  simp [Store.tables]

theorem current_table : store.tables[store.commits.length]? = some store.database.resources := by
  simp [Store.tables]

theorem ViewAt.isValue {version : Nat} {clientId id : String} {resource : Resource}
    (view : ViewAt store version clientId id (.ok (.resource resource))) :
    platform.IsValue resource.metadata := by
  obtain ⟨table, _, viewed⟩ := view
  unfold Table.viewed readOutcome at viewed
  split at viewed
  · rename_i found read
    cases viewed
    exact isValue_of_findById read
  · cases viewed
  · cases viewed

theorem viewAt_current (store : Store platform) (clientId id : String) :
    ViewAt store store.commits.length clientId id (store.view clientId id) :=
  ⟨_, current_table, rfl⟩

theorem ServiceStep.tables (stepped : ServiceStep call choice store next after) :
    ∃ more, after.tables = store.tables ++ more := by
  cases stepped with
  | created => exact ⟨_, tables_wrote⟩
  | written => exact ⟨_, tables_wrote⟩
  | _ => exact ⟨[], (List.append_nil _).symm⟩

theorem ViewAt.mono {more : List (Table platform)} (later : after.tables = store.tables ++ more)
    {version : Nat} {clientId id : String} {outcome : Outcome}
    (view : ViewAt store version clientId id outcome) :
    ViewAt after version clientId id outcome := by
  obtain ⟨table, found, viewed⟩ := view
  refine ⟨table, ?_, viewed⟩
  rw [later]
  exact getElem?_of_append found

/-- A transaction of the past changed what it changed. -/
theorem touched_of_later {more : List (Table platform)}
    (later : after.tables = store.tables ++ more) {commit : Nat} {client uuid : Uuid}
    (committed : commit < store.commits.length) (touched : Touched after commit client uuid) :
    Touched store commit client uuid := by
  obtain ⟨before, now, beforeEq, nowEq, changed⟩ := touched
  have inRange : commit + 1 < store.tables.length := by
    rw [length_tables]
    omega
  rw [later, List.getElem?_append_left (by omega)] at beforeEq
  rw [later, List.getElem?_append_left inRange] at nowEq
  exact ⟨before, now, beforeEq, nowEq, changed⟩

theorem AfterReturned.mono {more : List (Table platform)}
    (later : after.tables = store.tables ++ more) (returnedEq : after.returned = store.returned)
    (committed : ∀ commit ∈ store.returned, commit < store.commits.length) {version : Nat}
    {client uuid : Uuid} (afterReturned : AfterReturned store version client uuid) :
    AfterReturned after version client uuid := by
  intro commit member touched
  rw [returnedEq] at member
  exact afterReturned commit member (touched_of_later later (committed commit member) touched)

theorem CachedVersion.mono {more : List (Table platform)}
    (later : after.tables = store.tables ++ more) (returnedEq : after.returned = store.returned)
    (committed : ∀ commit ∈ store.returned, commit < store.commits.length)
    {owner ownerId text : String} (cached : CachedVersion store owner ownerId text) :
    CachedVersion after owner ownerId text := by
  refine ⟨cached.1, fun client uuid clientEq uuidEq => ?_⟩
  obtain ⟨version, resource, textEq, view, afterReturned⟩ := cached.2 client uuid clientEq uuidEq
  exact ⟨version, resource, textEq, view.mono later,
    afterReturned.mono later returnedEq committed⟩

theorem ShowsWrites.mono {more : List (Table platform)}
    (later : after.tables = store.tables ++ more) {startedAfter : List Nat}
    (committed : ∀ commit ∈ startedAfter, commit < store.commits.length)
    {clientId id : String} {outcome : Outcome}
    (shows : ShowsWrites store startedAfter clientId id outcome) :
    ShowsWrites after startedAfter clientId id outcome := by
  intro client uuid clientEq uuidEq commit member touched
  obtain ⟨version, ordered, view⟩ := shows client uuid clientEq uuidEq commit member
    (touched_of_later later (committed commit member) touched)
  exact ⟨version, ordered, view.mono later⟩

/-- What an ended call knows stays true. -/
theorem VersionedCall.mono (known : VersionedCall store call) (ended : call.Ended)
    {more : List (Table platform)} (later : after.tables = store.tables ++ more)
    (returned : ∀ commit ∈ store.returned, commit ∈ after.returned)
    (committed : ∀ commit ∈ store.returned, commit < store.commits.length) :
    VersionedCall after call := by
  obtain ⟨outcome, phaseEq⟩ := ended
  refine ⟨known.accepted, fun commit member => returned commit (known.started commit member), ?_⟩
  have shows := known.phase
  rw [PhaseVersioned, phaseEq] at shows ⊢
  exact fun clientId id isGet => (shows clientId id isGet).mono later
    fun commit member => committed commit (known.started commit member)

/-! ## Keys that Redis sees cut -/

/-- A key that Redis sees cut at a NUL is no data key, when the client is a UUID. -/
theorem plain_of_read {clientId id owner ownerId : String} {client : Uuid}
    (clientEq : uuidParam clientId = some client) (accepted : isUuid id = true)
    (same : cString (dataKey clientId id) = dataKey owner ownerId) :
    NulFree (dataKey clientId id) := by
  rw [nulFree_dataKey]
  refine ⟨?_, nulFree_of_isUuid accepted⟩
  by_contra hasNul
  have cut : cString (clientId ++ ":" ++ id) = cString clientId := by
    rw [String.append_assoc, cString_append_of_nul hasNul]
  have cutSame := cString_dataKey_eq same
  rw [cut] at cutSame
  have colon : ':' ∈ (cString clientId).toList := by
    rw [cutSame]
    simp
  exact noColon_of_uuidIn clientEq colon

/-! ## One step -/

theorem RowWritten.find_of_ne {table resources : Table platform} {clientId id : String}
    {result : Outcome} (change : RowWritten table clientId id resources result)
    {client uuid : Uuid} (changed : table.find client uuid ≠ resources.find client uuid) :
    uuidParam clientId = some client ∧ uuidParam id = some uuid := by
  cases change with
  | @replaced ofClient ofId old new _ clientEq uuidEq found sameId sameClient stored =>
      obtain ⟨oldIn, isClient, isId⟩ := Table.find_eq_some.mp found
      by_contra different
      refine changed (Table.find_replace_of_ne stored oldIn sameId.symm sameClient.symm ?_).symm
      rintro ⟨rfl, rfl⟩
      exact different ⟨clientEq.trans (by rw [sameClient, isClient]),
        uuidEq.trans (by rw [sameId, isId])⟩
  | @deleted ofClient ofId old clientEq uuidEq found =>
      by_contra different
      refine changed (Table.find_delete_of_ne ?_).symm
      rintro ⟨rfl, rfl⟩
      exact different ⟨clientEq, uuidEq⟩

/-- The last transaction changed no row but the one it wrote. -/
theorem touched_last {clientId id : String} {resources : Table platform} {result : Outcome}
    (change : RowWritten store.database.resources clientId id resources result)
    {client uuid : Uuid}
    (touched : Touched (store.wrote resources result) store.commits.length client uuid) :
    uuidParam clientId = some client ∧ uuidParam id = some uuid := by
  obtain ⟨before, now, beforeEq, nowEq, changed⟩ := touched
  have inRange : store.commits.length < store.tables.length := by
    rw [length_tables]
    exact Nat.lt_succ_self _
  rw [tables_wrote, List.getElem?_append_left inRange, current_table] at beforeEq
  rw [tables_wrote, ← length_tables, List.getElem?_concat_length] at nowEq
  cases beforeEq
  cases nowEq
  exact change.find_of_ne changed

/-- Every version of the table after all transactions is later than every write. -/
theorem Versioned.afterReturned_current (versioned : Versioned store) (client uuid : Uuid) :
    AfterReturned store store.commits.length client uuid :=
  fun commit member _ => versioned.returned commit member

theorem Versioned.mono (versioned : Versioned store) {more : List (Table platform)}
    (later : after.tables = store.tables ++ more) (returnedEq : after.returned = store.returned)
    (redisEq : after.redis = store.redis) (grown : store.commits.length ≤ after.commits.length) :
    Versioned after where
  cached := by
    rw [redisEq]
    exact versioned.cached.mono fun owner ownerId text cached =>
      cached.mono later returnedEq versioned.returned
  returned commit member := by
    rw [returnedEq] at member
    exact (versioned.returned commit member).trans_le grown

theorem Versioned.wrote (versioned : Versioned store) (resources : Table platform)
    (result : Outcome) : Versioned (store.wrote resources result) :=
  versioned.mono tables_wrote rfl rfl (by simp [Store.wrote])

theorem Versioned.put (versioned : Versioned store) {clientId id token : String}
    {found : Resource} {fault : Fault} (accepted : isUuid id = true)
    (current : store.view clientId id = .ok (.resource found)) :
    Versioned
      { store with
        redis := (putIfVersion cacheConfig (cacheKey clientId id) token
          (platform.dump (toJson found)) kResourceCacheTtlSeconds fault store.redis).2 } where
  cached := versioned.cached.put fun _ => ⟨accepted, fun client uuid _ _ =>
    ⟨_, found, rfl, current ▸ viewAt_current store clientId id,
      versioned.afterReturned_current client uuid⟩⟩
  returned := versioned.returned

theorem Versioned.evicted (versioned : Versioned store) {clientId id : String} {commit : Nat}
    (committed : commit < store.commits.length)
    (ofRow : ∀ client uuid, Touched store commit client uuid →
      uuidParam clientId = some client ∧ uuidParam id = some uuid)
    (succeeded : (invalidateVersioned cacheConfig (cacheKey clientId id) .healthy
      store.redis).1 = true)
    (oneSpelling : ¬CachedElsewhere store.redis clientId id) :
    Versioned
      { store with
        redis := (invalidateVersioned cacheConfig (cacheKey clientId id) .healthy
          store.redis).2
        returned := store.returned ++ [commit] } where
  cached := by
    refine versioned.cached.invalidated fun owner ownerId text notEvicted cachedBefore cached => ?_
    refine ⟨cached.1, fun client uuid clientEq uuidEq => ?_⟩
    obtain ⟨version, resource, textEq, view, afterReturned⟩ :=
      cached.2 client uuid clientEq uuidEq
    refine ⟨version, resource, textEq, view, fun other member touched => ?_⟩
    rcases List.mem_append.mp member with before | isCommit
    · exact afterReturned other before touched
    · rw [List.mem_singleton] at isCommit
      subst isCommit
      obtain ⟨sameClient, sameId⟩ := ofRow client uuid touched
      obtain ⟨entry, found⟩ := cachedBefore
      exact (oneSpelling ⟨owner, ownerId, entry, cached.1, clientEq.trans sameClient.symm,
        uuidEq.trans sameId.symm, notEvicted succeeded, found⟩).elim
  returned other member := by
    rcases List.mem_append.mp member with before | isCommit
    · exact versioned.returned other before
    · rw [List.mem_singleton.mp isCommit]
      exact committed

/-- What is cached under the key a read sends. -/
theorem Versioned.cached_of_read (versioned : Versioned store) {clientId id : String}
    {client uuid : Uuid} {entry : Entry RedisValue} (accepted : isUuid id = true)
    (clientEq : uuidParam clientId = some client) (uuidEq : uuidParam id = some uuid)
    (found : store.redis.lookup (cString (dataKey clientId id)) = some entry) :
    ∃ version resource, entry.value = .string (platform.dump (toJson resource)) ∧
      ViewAt store version clientId id (.ok (.resource resource)) ∧
      AfterReturned store version client uuid := by
  obtain ⟨owner, ownerId, text, sameKey, valueEq, ownerAccepted, cached⟩ :=
    versioned.cached.text_of_read found
  have plain := plain_of_read clientEq accepted sameKey
  have sameData : dataKey clientId id = dataKey owner ownerId :=
    (cString_of_nulFree plain).symm.trans sameKey
  obtain ⟨rfl, rfl⟩ := dataKey_injective accepted ownerAccepted sameData
  obtain ⟨version, resource, rfl, view, afterReturned⟩ := cached client uuid clientEq uuidEq
  exact ⟨version, resource, valueEq, view, afterReturned⟩

/-- What a read finds in the cache. -/
theorem Versioned.showsWrites_of_hit (versioned : Versioned store)
    (roundTrips : platform.RoundTrips) {clientId id text : String} {startedAfter : List Nat}
    (accepted : isUuid id = true)
    (started : ∀ commit ∈ startedAfter, commit ∈ store.returned)
    (reply : (getValue cacheConfig (cacheKey clientId id) store.redis).1 = some text)
    (notEmpty : text ≠ "") :
    ShowsWrites store startedAfter clientId id (decodeCached platform text) := by
  intro client uuid clientEq uuidEq commit member touched
  rcases get_reply reply with ⟨_, empty⟩ | ⟨entry, found, sent⟩
  · exact (notEmpty empty).elim
  · obtain ⟨version, resource, valueEq, view, afterReturned⟩ :=
      versioned.cached_of_read accepted clientEq uuidEq found
    simp only [valueEq, textOf, Option.some.injEq] at sent
    have decoded : decodeCached platform text = .ok (.resource resource) := by
      simp [decodeCached, ← sent, roundTrips.parse_dump _ (isValue_toJson view.isValue)]
    rw [decoded]
    exact ⟨version, afterReturned commit (started commit member) touched, view⟩

theorem Versioned.showsWrites_of_view (versioned : Versioned store) {clientId id : String}
    {startedAfter : List Nat} (started : ∀ commit ∈ startedAfter, commit ∈ store.returned) :
    ShowsWrites store startedAfter clientId id (store.view clientId id) :=
  fun _ _ _ _ commit member _ =>
    ⟨_, versioned.returned commit (started commit member), viewAt_current store clientId id⟩

/-- The provisos on a step, for the call that takes it. -/
structure StepSequential (call : Call platform) (choice : Choice) (store : Store platform) :
    Prop where
  redis : choice.redis = .healthy
  select : ∀ version, call.phase = .selectRow version → choice.sql = .healthy
  evict : ∀ clientId id outcome commit, call.request.Writes clientId id →
    call.phase = .invalidateVersioned outcome commit →
    (invalidateVersioned cacheConfig (cacheKey clientId id) .healthy store.redis).1 = true
  oneSpelling : ∀ clientId id outcome commit, call.request.Writes clientId id →
    call.phase = .invalidateVersioned outcome commit → ¬CachedElsewhere store.redis clientId id

theorem ServiceStep.versioned (stepped : ServiceStep call choice store next after)
    (versioned : Versioned store) (known : VersionedCall store call)
    (served : StepSequential call choice store) : Versioned after := by
  have accepted := known.accepted
  have phase := known.phase
  cases stepped with
  | created => exact versioned.wrote _ _
  | written => exact versioned.wrote _ _
  | @cached clientId id token found requestEq phaseEq =>
      rw [requestEq] at accepted
      rw [PhaseVersioned, phaseEq] at phase
      exact versioned.put accepted (phase clientId id requestEq)
  | @invalidated clientId id outcome commit requestEq phaseEq =>
      rw [PhaseVersioned, phaseEq] at phase
      obtain ⟨committed, ofRow⟩ := phase clientId id requestEq
      rw [served.redis]
      exact versioned.evicted committed ofRow
        (served.evict clientId id outcome commit requestEq phaseEq)
        (served.oneSpelling clientId id outcome commit requestEq phaseEq)
  | _ => exact versioned

theorem Request.Writes.same {request : Request} {clientId id owner ownerId : String}
    (left : request.Writes clientId id) (right : request.Writes owner ownerId) :
    clientId = owner ∧ id = ownerId := by
  rcases left with ⟨changes, rfl⟩ | rfl <;> rcases right with ⟨_, same⟩ | same <;> cases same <;>
    exact ⟨rfl, rfl⟩

/-- A call knows after its own step what it has to know. -/
theorem ServiceStep.phaseVersioned (roundTrips : platform.RoundTrips)
    (stepped : ServiceStep call choice store next after)
    (versioned : Versioned store) (known : VersionedCall store call)
    (served : StepSequential call choice store) : PhaseVersioned after next := by
  have accepted := known.accepted
  have phase := known.phase
  have ofOther : ∀ (outcome : Outcome) (store : Store platform),
      (∀ clientId id, call.request ≠ .get clientId id) →
      PhaseVersioned store (call.finish outcome) :=
    fun outcome store notGet clientId id isGet => (notGet clientId id isGet).elim
  cases stepped with
  | notCreated error requestEq => exact ofOther _ _ (by simp [requestEq])
  | created requestEq clientEq inserted nextEq =>
      rcases nextEq with ⟨resource, rfl, _⟩ | ⟨error, rfl⟩ <;>
        exact ofOther _ _ (by simp [requestEq])
  | listed requestEq => exact ofOther _ _ (by simp [requestEq])
  | notListed error requestEq => exact ofOther _ _ (by simp [requestEq])
  | missed => trivial
  | @gotEmpty clientId id requestEq phaseEq reply =>
      rw [requestEq] at accepted
      intro owner ownerId client uuid isGet clientEq uuidEq
      cases requestEq.symm.trans isGet
      rcases get_reply reply with ⟨absent, _⟩ | ⟨entry, found, sent⟩
      · exact absent
      · obtain ⟨version, resource, valueEq, view, _⟩ :=
          versioned.cached_of_read accepted clientEq uuidEq found
        simp only [valueEq, textOf, Option.some.injEq] at sent
        exact (roundTrips.dump_ne_empty (isValue_toJson view.isValue) sent).elim
  | @hit clientId id text requestEq phaseEq reply notEmpty =>
      rw [requestEq] at accepted
      intro owner ownerId isGet
      cases requestEq.symm.trans isGet
      exact versioned.showsWrites_of_hit roundTrips accepted known.started reply notEmpty
  | @hitEmpty clientId id count requestEq phaseEq reply present =>
      rw [PhaseVersioned, phaseEq] at phase
      intro owner ownerId isGet client uuid clientEq uuidEq
      cases requestEq.symm.trans isGet
      have absent := phase clientId id client uuid requestEq clientEq uuidEq
      simp only [getExists, RedisConnection.exists] at reply
      rw [show store.redis.lookup (cString (cacheConfig.makeKey (cacheKey clientId id))) =
        none from absent] at reply
      exact (present (Option.some.inj reply).symm).elim
  | versionRead => trivial
  | @selected clientId id token found requestEq phaseEq read =>
      intro owner ownerId isGet
      cases requestEq.symm.trans isGet
      rw [Store.view, read]
      rfl
  | @answered clientId id version answer requestEq phaseEq read =>
      intro owner ownerId isGet
      cases requestEq.symm.trans isGet
      rcases read with rfl | ⟨faulty, _⟩
      · exact versioned.showsWrites_of_view known.started
      · exact (faulty (served.select version phaseEq)).elim
  | @cached clientId id token found requestEq phaseEq =>
      rw [PhaseVersioned, phaseEq] at phase
      intro owner ownerId isGet
      cases requestEq.symm.trans isGet
      have shows := @Versioned.showsWrites_of_view _ _ versioned clientId id _ known.started
      rw [phase clientId id requestEq] at shows
      exact shows
  | notWritten error requestEq => exact ofOther _ _ fun _ _ => requestEq.not_get
  | @written clientId id resources result _ requestEq phaseEq change nextEq =>
      rcases nextEq with ⟨outcome, rfl, _⟩ | ⟨error, rfl⟩
      · intro owner ownerId writes
        obtain ⟨rfl, rfl⟩ := requestEq.same writes
        refine ⟨?_, fun client uuid touched => touched_last change touched⟩
        simp [Store.wrote]
      · exact ofOther _ _ fun _ _ => requestEq.not_get
  | invalidated requestEq => exact ofOther _ _ fun _ _ => requestEq.not_get

theorem ServiceStep.versionedCall (roundTrips : platform.RoundTrips)
    (stepped : ServiceStep call choice store next after)
    (versioned : Versioned store) (known : VersionedCall store call)
    (served : StepSequential call choice store) : VersionedCall after next := by
  obtain ⟨requestEq, _, startedEq⟩ := stepped.keeps
  refine ⟨requestEq ▸ known.accepted, fun commit member => ?_,
    stepped.phaseVersioned roundTrips versioned known served⟩
  rw [startedEq] at member
  exact stepped.progress.returned commit (known.started commit member)

/-! ## Runs -/

/-- The guard of the runs in which every spelling reads the same. -/
def OneSpellingRun (state : ServiceState platform) (event : ServiceEvent) : Prop :=
  Sequential state event ∧ OneSpelling state event

theorem stepSequential_of_allowed {state : ServiceState platform} {caller : Nat}
    (allowed : OneSpellingRun state (.advance caller choice))
    (found : state.calls caller = some call) :
    StepSequential call choice state.shared := by
  obtain ⟨⟨_, redis, ofCall⟩, oneSpelling⟩ := allowed
  exact ⟨redis, (ofCall call found).1, (ofCall call found).2,
    fun clientId id outcome commit => oneSpelling call clientId id outcome commit found⟩

theorem spellingObligations (roundTrips : platform.RoundTrips) :
    Component.Obligations (resourceService platform) OneSpellingRun Versioned VersionedCall where
  initially store starts := by
    obtain ⟨redisEq, commitsEq, returnedEq⟩ := starts
    refine ⟨?_, ?_⟩
    · rw [redisEq]
      exact CacheHolds.empty
    · rw [returnedEq]
      simp
  entered state caller request holds allowed := by
    refine ⟨allowed.1.1, fun commit member => member, ?_⟩
    cases request <;> trivial
  advanced state caller choice call next after holds allowed found stepped := by
    have effect := ServiceStep.of_step stepped
    have known := holds.calls caller call found
    have served := stepSequential_of_allowed allowed found
    exact ⟨effect.versioned holds.shared known served,
      effect.versionedCall roundTrips holds.shared known served⟩
  undisturbed state caller choice call next after holds allowed found stepped other bystander
      different otherFound := by
    have effect := ServiceStep.of_step stepped
    obtain ⟨more, later⟩ := effect.tables
    exact (holds.calls other bystander otherFound).mono
      (allowed.1.1 other bystander different otherFound) later effect.progress.returned
      holds.shared.returned
  happened state happening after holds allowed happened := by
    cases happened
    have versioned := holds.shared
    refine ⟨⟨versioned.cached.happen happening, versioned.returned⟩, fun caller call found => ?_⟩
    have known := holds.calls caller call found
    refine ⟨known.accepted, known.started, ?_⟩
    have phase := known.phase
    unfold PhaseVersioned at phase ⊢
    split
    case h_1 phaseEq =>
        rw [phaseEq] at phase
        intro clientId id client uuid requestEq clientEq uuidEq
        exact absent_of_happened happening (phase clientId id client uuid requestEq clientEq uuidEq)
    case h_2 token value phaseEq => rwa [phaseEq] at phase
    case h_3 outcome commit phaseEq => rwa [phaseEq] at phase
    case h_4 outcome phaseEq => rwa [phaseEq] at phase
    case h_5 => trivial

/-- A read by any spelling of an id shows every write of the row it started after, by
whatever spelling, in every sequential run in which no write evicts its row while the row
is cached under another key. -/
theorem reads_show_every_spelling (roundTrips : platform.RoundTrips)
    {state : ServiceState platform}
    (reachable : (resourceService platform).machine.Reachable OneSpellingRun state)
    {reader : Nat} {clientId id : String} {outcome : Outcome}
    (found : state.calls reader = some call) (isGet : call.request = .get clientId id)
    (ended : call.phase = .done outcome) :
    ShowsWrites state.shared call.startedAfter clientId id outcome := by
  have known := ((spellingObligations roundTrips).of_reachable reachable).calls reader call found
  have shows := known.phase
  rw [PhaseVersioned, ended] at shows
  exact shows clientId id isGet

/-! ## Reads and a write by two spellings -/

def upperIdText : String := "00000000-0000-0000-0000-00000000000B"

/-- The events of a read that runs alone. -/
theorem allows_read {state : ServiceState platform} {reader : Nat} {clientId id : String}
    (others : ∀ other bystander, other ≠ reader → state.calls other = some bystander →
      bystander.Ended)
    (reads : ∀ call, state.calls reader = some call → call.request = .get clientId id)
    (steps : Nat) :
    (resourceService platform).machine.Allows OneSpellingRun state
      (List.replicate steps (.advance reader sampleChoice)) := by
  induction steps generalizing state with
  | zero => trivial
  | succ steps ih =>
      have notWriting : ∀ call owner ownerId, state.calls reader = some call →
          ¬call.request.Writes owner ownerId :=
        fun call owner ownerId found writes => writes.not_get (reads call found)
      refine ⟨⟨⟨others, rfl, fun call found => ⟨fun _ _ => rfl, ?_⟩⟩, ?_⟩, fun next stepped => ?_⟩
      · exact fun owner ownerId _ _ writes => (notWriting call owner ownerId found writes).elim
      · exact fun call owner ownerId _ _ found writes =>
          (notWriting call owner ownerId found writes).elim
      · obtain ⟨call, moved, after, found, callStepped, rfl⟩ := Component.advance_cases stepped
        refine ih (fun other bystander different otherFound => ?_) fun current currentFound => ?_
        · simp only [Function.update_of_ne different] at otherFound
          exact others other bystander different otherFound
        · simp only [Function.update_self, Option.some.injEq] at currentFound
          subst currentFound
          rw [(ServiceStep.of_step callStepped).keeps.1]
          exact reads call found

theorem allows_start_read {state : ServiceState platform} {reader : Nat} {clientId id : String}
    (ended : ∀ other bystander, state.calls other = some bystander → bystander.Ended)
    (accepted : isUuid id = true) (steps : Nat) :
    (resourceService platform).machine.Allows OneSpellingRun state
      (.start reader (.get clientId id) ::
        List.replicate steps (.advance reader sampleChoice)) := by
  refine ⟨⟨⟨accepted, ended⟩, trivial⟩, fun next stepped => ?_⟩
  obtain ⟨_, rfl⟩ := Component.start_cases stepped
  refine @allows_read _ _ reader clientId id (fun other bystander different otherFound => ?_)
    (fun call found => ?_) steps
  · simp only [Function.update_of_ne different] at otherFound
    exact ended other bystander otherFound
  · simp only [Function.update_self, Option.some.injEq] at found
    subst found
    rfl

theorem ended_of_update {calls : Nat → Option (Call platform)} {id : Nat}
    (ended : ∀ other bystander, other ≠ id → calls other = some bystander → bystander.Ended)
    (callEnded : call.Ended) :
    ∀ other bystander, Function.update calls id (some call) other = some bystander →
      bystander.Ended := by
  intro other bystander found
  by_cases same : other = id
  · subst same
    rw [Function.update_self] at found
    cases found
    exact callEnded
  · rw [Function.update_of_ne same] at found
    exact ended other bystander same found

/-- A write by the lower-case spelling. -/
def writeLower (caller : Nat) : List ServiceEvent :=
  [.start caller (.update sampleClientText sampleIdText stopRequest),
    .advance caller sampleChoice, .advance caller sampleChoice]

/-- A read by the upper-case spelling, up to some step. -/
def readUpper (reader steps : Nat) : List ServiceEvent :=
  .start reader (.get sampleClientText upperIdText) ::
    List.replicate steps (.advance reader sampleChoice)

/-- The events of the write, when it runs alone and its script succeeds. -/
theorem allows_write {state : ServiceState platform} {caller : Nat}
    (ended : ∀ other bystander, state.calls other = some bystander → bystander.Ended)
    (evicts : ∀ last, (resourceService platform).machine.execute state
        ((writeLower caller).take 2) = some last →
      (invalidateVersioned cacheConfig (cacheKey sampleClientText sampleIdText) .healthy
        last.shared.redis).1 = true) :
    (resourceService platform).machine.Allows Sequential state (writeLower caller) := by
  have accepted : isUuid sampleIdText = true := by decide
  refine ⟨⟨accepted, ended⟩, fun entered stepped => ?_⟩
  obtain ⟨_, enteredEq⟩ := Component.start_cases stepped
  have others : ∀ other bystander, other ≠ caller → entered.calls other = some bystander →
      bystander.Ended := by
    intro other bystander different otherFound
    simp only [enteredEq, Function.update_of_ne different] at otherFound
    exact ended other bystander otherFound
  have writing : ∀ call, entered.calls caller = some call → call.request =
      .update sampleClientText sampleIdText stopRequest ∧ call.phase = .writeRow := by
    intro call found
    simp only [enteredEq, Function.update_self, Option.some.injEq] at found
    subst found
    exact ⟨rfl, rfl⟩
  refine ⟨⟨others, rfl, fun call found => ⟨fun _ _ => rfl, ?_⟩⟩, fun last lastStepped => ?_⟩
  · intro clientId id outcome commit _ phaseEq
    rw [(writing call found).2] at phaseEq
    cases phaseEq
  · have evicted := evicts last (by
      simp only [writeLower, List.take, Machine.execute, stepped, lastStepped, Option.bind_some])
    obtain ⟨call, moved, after, found, callStepped, rfl⟩ := Component.advance_cases lastStepped
    refine ⟨⟨fun other bystander different otherFound => ?_, rfl, fun current currentFound =>
      ⟨fun _ _ => rfl, ?_⟩⟩, fun _ _ => trivial⟩
    · simp only [Function.update_of_ne different] at otherFound
      exact others other bystander different otherFound
    · simp only [Function.update_self, Option.some.injEq] at currentFound
      subst currentFound
      intro clientId id outcome commit writes _
      rw [(ServiceStep.of_step callStepped).keeps.1, (writing call found).1] at writes
      obtain ⟨rfl, rfl⟩ := Request.Writes.same (Or.inl ⟨stopRequest, rfl⟩) writes
      exact evicted

theorem none_ended (store : Store platform) (other : Nat) (bystander : Call platform)
    (found : (Component.fresh store).calls other = some bystander) : bystander.Ended := by
  cases found

def writtenState : ServiceState Platform.reference :=
  (resourceService Platform.reference).replay sampleStore (writeLower 0)

def writtenReadState : ServiceState Platform.reference :=
  ((resourceService Platform.reference).machine.execute writtenState (readUpper 1 5)).getD
    writtenState

theorem reads_show_every_spelling_write :
    ∃ outcome, ShowsWrites writtenReadState.shared [0] sampleClientText upperIdText outcome := by
  have oneSpelling : (resourceService Platform.reference).machine.Allows OneSpelling
      (Component.fresh sampleStore) (writeLower 0) := by
    refine ⟨trivial, fun _ stepped => ?_⟩
    cases stepped
    refine ⟨fun call _ _ _ _ found _ phaseEq => ?_, fun _ stepped => ?_⟩
    · cases found
      cases phaseEq
    · cases stepped
      refine ⟨fun _ _ _ _ _ _ _ _ => ?_, fun _ _ => trivial⟩
      rintro ⟨_, _, _, _, _, _, _, found⟩
      cases found
  have sequential : (resourceService Platform.reference).machine.Allows Sequential
      (Component.fresh sampleStore) (writeLower 0) := by
    refine allows_write (none_ended _) fun last executed => ?_
    cases executed
    rfl
  have written : (resourceService Platform.reference).machine.Reachable OneSpellingRun
      writtenState :=
    Component.reachable_replay ⟨rfl, rfl, rfl⟩ rfl (sequential.and oneSpelling)
  have reachable : (resourceService Platform.reference).machine.Reachable OneSpellingRun
      writtenReadState := by
    refine written.extend (@Machine.runs_of_execute _ _ _ _ (readUpper 1 5) _ _ rfl ?_)
    refine allows_start_read (ended_of_update (fun other bystander different found => ?_)
      ⟨_, rfl⟩) (by decide) 5
    simp only [Function.update_of_ne different] at found
    cases found
  have found : writtenReadState.calls 1 = some _ := rfl
  exact ⟨_, reads_show_every_spelling Platform.reference_lawful.toRoundTrips reachable found rfl
    rfl⟩

/-! ## The spelling that stays cached -/

/-- Reads show the writes by every spelling, without the condition on the cache. -/
def ReadsShowEverySpelling : Prop :=
  ∀ (platform : Platform) (state : ServiceState platform) (reader : Nat) (call : Call platform)
    (clientId id : String) (outcome : Outcome), platform.Lawful →
    (resourceService platform).machine.Reachable Sequential state →
    state.calls reader = some call → call.request = .get clientId id →
    call.phase = .done outcome → ShowsWrites state.shared call.startedAfter clientId id outcome

/-- A read has filled the cache under one spelling. -/
def cachedState : ServiceState Platform.reference :=
  (resourceService Platform.reference).replay sampleStore (readUpper 0 5)

/-- A write has evicted the other spelling. -/
def staleState : ServiceState Platform.reference :=
  ((resourceService Platform.reference).machine.execute cachedState (writeLower 1)).getD
    cachedState

def rereadState : ServiceState Platform.reference :=
  ((resourceService Platform.reference).machine.execute staleState (readUpper 2 0)).getD
    staleState

def rereadCall : Call Platform.reference where
  request := .get sampleClientText upperIdText
  phase := .done (.ok (.resource sampleResource))
  startedOn := staleState.shared.database.resources
  startedAfter := [0]

def hitState : ServiceState Platform.reference :=
  { rereadState with calls := Function.update rereadState.calls 2 (some rereadCall) }

/-- The second read finds the value of the first. -/
theorem reread_hits : (resourceService Platform.reference).eventStep rereadState
    (.advance 2 sampleChoice) = some hitState := by
  have found : rereadState.calls 2 =
      some ((resourceService Platform.reference).enter (.get sampleClientText upperIdText)
        staleState.shared) := rfl
  have reply : getValue cacheConfig (cacheKey sampleClientText upperIdText)
      rereadState.shared.redis = (some (Platform.reference.dump (toJson sampleResource)),
        rereadState.shared.redis) := rfl
  have returned : staleState.shared.returned = [0] := rfl
  rw [resourceService_hit Platform.reference_lawful.toRoundTrips found isValue_sampleResource
    rfl rfl rfl reply, hitState, rereadCall, ← returned]
  rfl

theorem hitState_reachable :
    (resourceService Platform.reference).machine.Reachable Sequential hitState := by
  have cached : (resourceService Platform.reference).machine.Reachable OneSpellingRun
      cachedState :=
    Component.reachable_replay ⟨rfl, rfl, rfl⟩ rfl
      (allows_start_read (none_ended _) (by decide) 5)
  have ended : ∀ other bystander, cachedState.calls other = some bystander → bystander.Ended := by
    refine ended_of_update (fun other bystander different found => ?_) ⟨_, rfl⟩
    simp only [Function.update_of_ne different] at found
    cases found
  have stale : (resourceService Platform.reference).machine.Reachable Sequential staleState := by
    have before := cached.mono fun _ _ allowed => allowed.1
    refine before.extend (@Machine.runs_of_execute _ _ _ _ (writeLower 1) _ _ rfl ?_)
    refine allows_write ended fun last executed => ?_
    cases executed
    rfl
  have staleEnded : ∀ other bystander, staleState.calls other = some bystander →
      bystander.Ended := by
    refine ended_of_update (fun other bystander different found => ?_) ⟨_, rfl⟩
    simp only [Function.update_of_ne different] at found
    exact ended other bystander found
  have run : Machine.Runs (resourceService Platform.reference).machine OneSpellingRun staleState
      hitState := by
    refine @Machine.runs_of_execute _ _ _ _ (readUpper 2 1) _ _ ?_
      (allows_start_read staleEnded (by decide) 1)
    have started : (resourceService Platform.reference).machine.step staleState
        (.start 2 (.get sampleClientText upperIdText)) = some rereadState := rfl
    simp only [readUpper, List.replicate, Machine.execute, started, Option.bind_some,
      Component.machine_step, reread_hits]
  exact stale.extend (run.mono fun _ _ allowed => allowed.1)

def statusOf : Outcome → Option String
  | .ok (.resource resource) => some resource.status
  | _ => none

/-- The write changed the status, and the read by the other spelling still shows the one
before. -/
theorem not_readsShowEverySpelling : ¬ReadsShowEverySpelling := by
  intro promise
  have found : hitState.calls 2 = some rereadCall := rfl
  have shows := promise Platform.reference hitState 2 rereadCall sampleClientText upperIdText _
    Platform.reference_lawful hitState_reachable found rfl rfl
  have touched : Touched hitState.shared 0 sampleClient sampleId := by
    refine ⟨_, _, rfl, rfl, fun same => ?_⟩
    have statuses := congrArg (Option.map Row.status) same
    revert statuses
    decide
  obtain ⟨version, later, table, tableEq, viewed⟩ :=
    shows sampleClient sampleId (by decide) (by decide) 0 List.mem_cons_self touched
  have last : version = 1 := by
    have inRange : version < 2 := (List.getElem?_eq_some_iff.mp tableEq).1
    omega
  subst last
  cases tableEq
  have statuses := congrArg statusOf viewed
  revert statuses
  decide

end Corvus.Resources
