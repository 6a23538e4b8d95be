import Corvus.Resources.CacheContent

/-!
# Clients are isolated from each other

Every resource a call returns is made of a row of the call's own client, whether
it comes from Postgres or from Redis, and no call touches rows or cache entries
of another client.  The invariant behind it says of every cached value which row
it is made of.
-/

namespace Corvus.Resources

open Corvus.Db

variable {platform : Platform} {store after : Store platform} {call next : Call platform}
  {choice : Choice}

/-- The table holds the row, or held it before some transaction. -/
def Store.Held (store : Store platform) (row : Row platform) : Prop :=
  row ∈ store.database.resources.rows ∨ ∃ commit ∈ store.commits, row ∈ commit.replaced.rows

/-- The resource is made of a row of the client. -/
def OwnedBy (store : Store platform) (clientId : String) (resource : Resource) : Prop :=
  ∃ client row, uuidParam clientId = some client ∧ store.Held row ∧ row.clientId = client ∧
    rowToResource row = some resource

/-- The resource is made of the client's row with the id. -/
def ReadFrom (store : Store platform) (clientId id : String) (resource : Resource) : Prop :=
  ∃ client uuid row, uuidParam clientId = some client ∧ uuidParam id = some uuid ∧
    store.Held row ∧ row.clientId = client ∧ row.id = uuid ∧ rowToResource row = some resource

theorem ReadFrom.isValue {store : Store platform} {clientId id : String} {resource : Resource}
    (read : ReadFrom store clientId id resource) : platform.IsValue resource.metadata := by
  obtain ⟨_, _, _, _, _, _, _, _, decoded⟩ := read
  exact isValue_of_rowToResource decoded

/-- A cached text is the serialisation of the client's row with the id. -/
def CachedRead (store : Store platform) (clientId id text : String) : Prop :=
  isUuid id = true ∧
    ∃ resource, text = platform.dump (toJson resource) ∧ ReadFrom store clientId id resource

def OutcomeOwned (store : Store platform) (clientId : String) : Outcome → Prop
  | .ok (.resource resource) => OwnedBy store clientId resource
  | .ok (.page result) => ∀ resource ∈ result.items, OwnedBy store clientId resource
  | _ => True

/-- What a call has in hand belongs to its client. -/
def PhaseOwned (store : Store platform) (request : Request) : Phase → Prop
  | .putIfVersion _ found =>
      ∀ clientId id, request = .get clientId id → ReadFrom store clientId id found
  | .invalidateVersioned outcome _ => OutcomeOwned store request.clientId outcome
  | .done outcome => OutcomeOwned store request.clientId outcome
  | _ => True

/-- Client ids without NUL bytes, and ids that passed `is_uuid`. -/
def Request.Admissible : Request → Prop
  | .create clientId _ => NulFree clientId
  | .get clientId id => NulFree clientId ∧ isUuid id = true
  | .list clientId _ => NulFree clientId
  | .update clientId id _ => NulFree clientId ∧ isUuid id = true
  | .remove clientId id => NulFree clientId ∧ isUuid id = true

instance (request : Request) : Decidable request.Admissible := by
  cases request <;> unfold Request.Admissible <;> infer_instance

def AdmissibleEvent (_ : ServiceState platform) : ServiceEvent → Prop
  | .start _ request => request.Admissible
  | _ => True

theorem Request.Writes.admissible {request : Request} {clientId id : String}
    (writes : request.Writes clientId id) (admissible : request.Admissible) :
    NulFree clientId ∧ isUuid id = true := by
  rcases writes with ⟨changes, rfl⟩ | rfl <;> exact admissible

theorem Request.Writes.clientId_eq {request : Request} {clientId id : String}
    (writes : request.Writes clientId id) : request.clientId = clientId := by
  rcases writes with ⟨changes, rfl⟩ | rfl <;> rfl

/-! ## What was held stays held -/

theorem Store.Held.wrote {row : Row platform} {resources : Table platform} {result : Outcome}
    (held : store.Held row) : (store.wrote resources result).Held row := by
  right
  rcases held with current | ⟨commit, member, past⟩
  · exact ⟨_, List.mem_append_right _ (List.mem_singleton.mpr rfl), current⟩
  · exact ⟨commit, List.mem_append_left _ member, past⟩

theorem ServiceStep.held (stepped : ServiceStep call choice store next after)
    {row : Row platform} (held : store.Held row) : after.Held row := by
  cases stepped
  case created => exact held.wrote
  case written => exact held.wrote
  all_goals exact held

theorem OwnedBy.mono {clientId : String} {resource : Resource}
    (held : ∀ row, store.Held row → after.Held row) (owned : OwnedBy store clientId resource) :
    OwnedBy after clientId resource := by
  obtain ⟨client, row, clientEq, rowHeld, rest⟩ := owned
  exact ⟨client, row, clientEq, held row rowHeld, rest⟩

theorem ReadFrom.mono {clientId id : String} {resource : Resource}
    (held : ∀ row, store.Held row → after.Held row)
    (read : ReadFrom store clientId id resource) : ReadFrom after clientId id resource := by
  obtain ⟨client, uuid, row, clientEq, uuidEq, rowHeld, rest⟩ := read
  exact ⟨client, uuid, row, clientEq, uuidEq, held row rowHeld, rest⟩

theorem ReadFrom.ownedBy {clientId id : String} {resource : Resource}
    (read : ReadFrom store clientId id resource) : OwnedBy store clientId resource := by
  obtain ⟨client, _, row, clientEq, _, held, ofClient, _, decoded⟩ := read
  exact ⟨client, row, clientEq, held, ofClient, decoded⟩

theorem OutcomeOwned.mono {clientId : String} {outcome : Outcome}
    (held : ∀ row, store.Held row → after.Held row)
    (owned : OutcomeOwned store clientId outcome) : OutcomeOwned after clientId outcome := by
  match outcome, owned with
  | .ok (.resource resource), owned => exact OwnedBy.mono held owned
  | .ok (.page result), owned => exact fun item member => (owned item member).mono held
  | .ok .removed, _ => trivial
  | .error _, _ => trivial

theorem PhaseOwned.mono {request : Request} {phase : Phase}
    (held : ∀ row, store.Held row → after.Held row)
    (owned : PhaseOwned store request phase) : PhaseOwned after request phase := by
  cases phase with
  | putIfVersion version found =>
      exact fun clientId id requestEq => (owned clientId id requestEq).mono held
  | invalidateVersioned outcome commit => exact OutcomeOwned.mono held owned
  | done outcome => exact OutcomeOwned.mono held owned
  | _ => trivial

/-- An error owns nothing. -/
theorem phaseOwned_error (request : Request) (error : ServiceError) :
    PhaseOwned store request (.done (.error error)) := trivial

/-! ## What the database returns -/

theorem readFrom_of_findById {clientId id : String} {resource : Resource}
    (found : findById store.database clientId id = .ok (some resource)) :
    ReadFrom store clientId id resource := by
  obtain ⟨client, uuid, row, clientEq, uuidEq, rowFound, decoded⟩ := findById_eq_some found
  obtain ⟨member, ofClient, ofId⟩ := Table.find_eq_some.mp rowFound
  exact ⟨client, uuid, row, clientEq, uuidEq, Or.inl member, ofClient, ofId, decoded⟩

theorem mem_of_mapM {α β : Type} {f : α → Option β} {sources : List α} {results : List β}
    {result : β} (mapped : sources.mapM f = some results) (member : result ∈ results) :
    ∃ source ∈ sources, f source = some result := by
  induction sources generalizing results with
  | nil =>
      cases mapped
      cases member
  | cons source rest ih =>
      simp only [List.mapM_cons, Option.bind_eq_bind, Option.bind_eq_some_iff, Option.pure_def,
        Option.some.injEq] at mapped
      obtain ⟨first, firstEq, others, othersEq, rfl⟩ := mapped
      rcases List.mem_cons.mp member with rfl | later
      · exact ⟨source, List.mem_cons_self, firstEq⟩
      · obtain ⟨found, foundIn, foundEq⟩ := ih othersEq later
        exact ⟨found, List.mem_cons_of_mem _ foundIn, foundEq⟩

/-- The items of a page are made of rows of the client. -/
theorem ownedBy_of_list {clientId : String} {filter : ListFilter} {result : ListResult}
    (listed : list store.database clientId filter = .ok result) :
    ∀ resource ∈ result.items, OwnedBy store clientId resource := by
  intro resource member
  unfold list at listed
  split at listed
  · cases listed
  · split at listed
    case h_1 position client limit clientEq _ =>
        unfold pageOf at listed
        simp only at listed
        split at listed
        · cases listed
        · rename_i items decoded
          cases listed
          obtain ⟨row, rowIn, rowEq⟩ := mem_of_mapM decoded member
          have selected := List.mem_of_mem_take (List.mem_of_mem_take rowIn)
          rw [selectRows, List.mem_insertionSort, List.mem_filter, decide_eq_true_eq] at selected
          obtain ⟨inTable, matchesFilter, _⟩ := selected
          exact ⟨client, row, clientEq, Or.inl inTable, matchesFilter.1, rowEq⟩
    case h_2 => cases listed

/-- What a write leaves belongs to the client that made it. -/
theorem outcomeOwned_of_written {clientId id : String} {resources : Table platform}
    {result : Outcome}
    (change : RowWritten store.database.resources clientId id resources result) :
    OutcomeOwned (store.wrote resources result) clientId result := by
  cases change with
  | @replaced client uuid old new _ clientEq uuidEq found sameId sameClient stored =>
      obtain ⟨oldIn, ofClient, _⟩ := Table.find_eq_some.mp found
      have newIn := (Table.mem_replace stored oldIn sameId.symm).mpr (Or.inr rfl)
      unfold decodeRow
      split
      · rename_i resource decoded
        exact ⟨client, new, clientEq, Or.inl newIn, sameClient.trans ofClient, decoded⟩
      · trivial
  | deleted => trivial

/-! ## Every step keeps to its client -/

theorem ServiceStep.isolated (roundTrips : platform.RoundTrips)
    (stepped : ServiceStep call choice store next after)
    (holds : CacheHolds (CachedRead store) store.redis) (admissible : call.request.Admissible)
    (owned : PhaseOwned store call.request call.phase) :
    CacheHolds (CachedRead after) after.redis ∧ PhaseOwned after next.request next.phase := by
  have mono : ∀ clientId id text, CachedRead store clientId id text →
      CachedRead after clientId id text := by
    rintro clientId id text ⟨accepted, resource, textEq, read⟩
    exact ⟨accepted, resource, textEq, read.mono fun row held => stepped.held held⟩
  cases stepped with
  | notCreated error => exact ⟨holds, phaseOwned_error _ error⟩
  | @created clientId request client metadata resources _ result requestEq clientEq inserted
      nextEq =>
      refine ⟨holds.mono mono, ?_⟩
      rcases nextEq with ⟨resource, rfl, decoded⟩ | ⟨error, rfl⟩
      · have newIn := (Table.mem_insert inserted).mpr (Or.inr rfl)
        rw [Call.finish, Call.goTo, requestEq]
        exact ⟨client, _, clientEq, Or.inl newIn, rfl, decoded⟩
      · exact phaseOwned_error _ error
  | @listed clientId filter result requestEq answered =>
      refine ⟨holds, ?_⟩
      rw [Call.finish, Call.goTo, requestEq]
      exact ownedBy_of_list answered
  | notListed error => exact ⟨holds, phaseOwned_error _ error⟩
  | missed => exact ⟨holds, trivial⟩
  | gotEmpty => exact ⟨holds, trivial⟩
  | @hit clientId id text requestEq phaseEq reply notEmpty =>
      refine ⟨holds, ?_⟩
      rw [requestEq] at admissible
      obtain ⟨clientFree, accepted⟩ := admissible
      have plain : cString (dataKey clientId id) = dataKey clientId id :=
        cString_of_nulFree (nulFree_dataKey.mpr ⟨clientFree, nulFree_of_isUuid accepted⟩)
      rcases RedisConnection.get_reply reply with ⟨_, empty⟩ | ⟨entry, found, sent⟩
      · exact (notEmpty empty).elim
      · obtain ⟨owner, ownerId, value, sameKey, valueEq, ownerAccepted, resource, rfl, read⟩ :=
          holds.text_of_read found
        rw [plain] at sameKey
        obtain ⟨rfl, rfl⟩ := dataKey_injective accepted ownerAccepted sameKey
        simp only [valueEq, RedisConnection.textOf, Option.some.injEq] at sent
        subst sent
        have decoded : decodeCached platform (platform.dump (toJson resource)) =
            .ok (.resource resource) := by
          simp [decodeCached, roundTrips.parse_dump _ (isValue_toJson read.isValue)]
        rw [decoded, Call.finish, Call.goTo, requestEq]
        exact read.ownedBy
  | hitEmpty =>
      refine ⟨holds, ?_⟩
      have failed : decodeCached platform "" = .error .other := by
        simp [decodeCached, roundTrips.parse_empty]
      rw [failed]
      trivial
  | versionRead => exact ⟨holds, trivial⟩
  | @selected clientId id version found requestEq phaseEq read =>
      refine ⟨holds, fun otherClient otherId otherEq => ?_⟩
      rw [Call.goTo, requestEq] at otherEq
      cases otherEq
      exact readFrom_of_findById read
  | @answered clientId id version answer requestEq phaseEq read =>
      refine ⟨holds, ?_⟩
      rcases read with rfl | ⟨_, rfl⟩
      · rw [Call.finish, Call.goTo, requestEq]
        cases found : findById store.database clientId id with
        | error error => trivial
        | ok resource =>
            cases resource with
            | none => trivial
            | some resource => exact (readFrom_of_findById found).ownedBy
      · trivial
  | @cached clientId id version found requestEq phaseEq =>
      rw [phaseEq] at owned
      have read := owned clientId id requestEq
      rw [requestEq] at admissible
      refine ⟨holds.put fun _ => ⟨admissible.2, found, rfl, read⟩, ?_⟩
      rw [Call.finish, Call.goTo, requestEq]
      exact read.ownedBy
  | notWritten error => exact ⟨holds, phaseOwned_error _ error⟩
  | @written clientId id resources result _ requestEq phaseEq change nextEq =>
      refine ⟨holds.mono mono, ?_⟩
      have resultOwned := outcomeOwned_of_written change
      rcases nextEq with ⟨outcome, rfl, rfl | rfl⟩ | ⟨error, rfl⟩
      · trivial
      · rw [Call.goTo]
        simpa only [PhaseOwned, requestEq.clientId_eq] using resultOwned
      · exact phaseOwned_error _ error
  | @invalidated clientId id outcome commit requestEq phaseEq =>
      rw [phaseEq] at owned
      exact ⟨holds.invalidated fun _ _ _ _ _ isGood => isGood, owned⟩

/-- A step of a call leaves the rows of other clients as they are. -/
theorem ServiceStep.rows_frame (stepped : ServiceStep call choice store next after)
    {row : Row platform} (foreign : uuidParam call.request.clientId ≠ some row.clientId) :
    row ∈ after.database.resources.rows ↔ row ∈ store.database.resources.rows := by
  cases stepped with
  | @created clientId request client metadata resources _ result requestEq clientEq inserted =>
      rw [requestEq, Request.clientId, clientEq] at foreign
      refine (Table.mem_insert inserted).trans ⟨?_, Or.inl⟩
      rintro (member | rfl)
      · exact member
      · exact (foreign rfl).elim
  | @written clientId id resources result _ requestEq phaseEq change nextEq =>
      rw [requestEq.clientId_eq] at foreign
      cases change with
      | @replaced client uuid old new _ clientEq uuidEq found sameId sameClient stored =>
          obtain ⟨oldIn, ofClient, _⟩ := Table.find_eq_some.mp found
          rw [clientEq, ← ofClient] at foreign
          refine (Table.mem_replace stored oldIn sameId.symm).trans ⟨?_, fun member => ?_⟩
          · rintro (⟨member, _⟩ | rfl)
            · exact member
            · exact (foreign (congrArg some sameClient.symm)).elim
          · refine Or.inl ⟨member, fun isNew => foreign ?_⟩
            rw [Table.eq_of_id member oldIn (isNew.trans sameId)]
      | @deleted client uuid old clientEq uuidEq found =>
          rw [clientEq] at foreign
          refine Table.mem_delete.trans ⟨And.left, fun member => ⟨member, ?_⟩⟩
          rintro ⟨rfl, _⟩
          exact foreign rfl
  | _ => exact Iff.rfl

/-- A step of a call leaves the cache entries of other clients as they are. -/
theorem ServiceStep.cache_frame (stepped : ServiceStep call choice store next after)
    (admissible : call.request.Admissible) {other otherId : String}
    (foreign : other ≠ call.request.clientId) (accepted : isUuid otherId = true) :
    after.redis.lookup (dataKey other otherId) = store.redis.lookup (dataKey other otherId) := by
  cases stepped with
  | @cached clientId id version found requestEq phaseEq =>
      rw [requestEq] at admissible foreign
      have otherKey : dataKey other otherId ≠ dataKey clientId id :=
        fun same => foreign (dataKey_injective accepted admissible.2 same).1
      rcases putIfVersion_redis (cacheKey clientId id) version (platform.dump (toJson found))
        kResourceCacheTtlSeconds choice.redis store.redis with unchanged | ⟨_, stored⟩
      · simp only [unchanged]
      · simp only [stored, CacheAside.storeValue]
        exact ExpiringStore.lookup_put_of_ne otherKey
  | @invalidated clientId id outcome commit requestEq phaseEq =>
      rw [requestEq.clientId_eq] at foreign
      have otherKey : dataKey other otherId ≠ dataKey clientId id := fun same =>
        foreign (dataKey_injective accepted (requestEq.admissible admissible).2 same).1
      rcases invalidateVersioned_redis (cacheKey clientId id) choice.redis store.redis with
        ⟨_, unchanged⟩ | ⟨_, _, ran⟩
      · simp only [unchanged]
      · simp only [ran]
        exact CacheAside.lookup_other_of_invalidated otherKey (dataKey_ne_versionKey _ _ _)
  | _ => rfl

/-! ## Runs -/

/-- A call is admissible, and what it has in hand belongs to its client. -/
def OwnsItsData (store : Store platform) (call : Call platform) : Prop :=
  call.request.Admissible ∧ PhaseOwned store call.request call.phase

theorem isolationObligations (roundTrips : platform.RoundTrips) :
    Component.Obligations (resourceService platform) AdmissibleEvent
      (fun store => CacheHolds (CachedRead store) store.redis) OwnsItsData where
  initially store starts := by
    rw [starts.1]
    exact CacheHolds.empty
  entered state id request _ admissible := by
    refine ⟨admissible, ?_⟩
    cases request <;> trivial
  advanced state id choice call next after holds _ found stepped := by
    obtain ⟨admissible, owned⟩ := holds.calls id call found
    have effect := ServiceStep.of_step stepped
    obtain ⟨cacheHolds, nextOwned⟩ := effect.isolated roundTrips holds.shared admissible owned
    exact ⟨cacheHolds, effect.keeps.1 ▸ admissible, nextOwned⟩
  undisturbed state id choice call next after holds _ found stepped other bystander _
      otherFound := by
    obtain ⟨admissible, owned⟩ := holds.calls other bystander otherFound
    exact ⟨admissible, owned.mono fun row held => (ServiceStep.of_step stepped).held held⟩
  happened state happening after holds _ happened := by
    cases happened
    exact ⟨holds.shared.happen happening, fun id call found => holds.calls id call found⟩

/-- The outcome holds the resource, alone or in a page. -/
def Returns (outcome : Outcome) (resource : Resource) : Prop :=
  outcome = .ok (.resource resource) ∨
    ∃ result, outcome = .ok (.page result) ∧ resource ∈ result.items

theorem OutcomeOwned.clientId {clientId : String} {outcome : Outcome} {resource : Resource}
    (owned : OutcomeOwned store clientId outcome) (returned : Returns outcome resource) :
    ∃ client, uuidParam clientId = some client ∧ resource.clientId = uuidOut client := by
  have ownedBy : OwnedBy store clientId resource := by
    rcases returned with rfl | ⟨result, rfl, member⟩
    · exact owned
    · exact owned resource member
  obtain ⟨client, row, clientEq, _, rfl, decoded⟩ := ownedBy
  simp only [rowToResource, Option.map_eq_some_iff] at decoded
  obtain ⟨_, _, rfl⟩ := decoded
  exact ⟨_, clientEq, rfl⟩

/-- Calls return resources of their own client only; their steps leave the rows and
the cache entries of all others alone; and what is cached for a client and an id is
the serialisation of the client's row with that id. -/
theorem clients_isolated (roundTrips : platform.RoundTrips) {state : ServiceState platform}
    (reachable : (resourceService platform).machine.Reachable AdmissibleEvent state) :
    (∀ id call outcome resource, state.calls id = some call → call.phase = .done outcome →
      Returns outcome resource →
      ∃ client, uuidParam call.request.clientId = some client ∧
        resource.clientId = uuidOut client) ∧
    (∀ id call choice after, state.calls id = some call →
      (resourceService platform).eventStep state (.advance id choice) = some after →
      (∀ row : Row platform, uuidParam call.request.clientId ≠ some row.clientId →
        (row ∈ after.shared.database.resources.rows ↔
          row ∈ state.shared.database.resources.rows)) ∧
      ∀ other otherId, other ≠ call.request.clientId → isUuid otherId = true →
        after.shared.redis.lookup (dataKey other otherId) =
          state.shared.redis.lookup (dataKey other otherId)) ∧
    ∀ clientId id entry, isUuid id = true →
      state.shared.redis.lookup (dataKey clientId id) = some entry →
      ∃ resource, entry.value = .string (platform.dump (toJson resource)) ∧
        ReadFrom state.shared clientId id resource := by
  have holds := (isolationObligations roundTrips).of_reachable reachable
  refine ⟨fun id call outcome resource found ended returned => ?_,
    fun id call choice after found stepped => ?_, fun clientId id entry accepted found => ?_⟩
  · have owned := (holds.calls id call found).2
    rw [ended] at owned
    exact OutcomeOwned.clientId owned returned
  · obtain ⟨stepping, _, _, steppingFound, callStepped, rfl⟩ := Component.advance_cases stepped
    rw [found] at steppingFound
    cases steppingFound
    have effect := ServiceStep.of_step callStepped
    exact ⟨fun row foreign => effect.rows_frame foreign,
      fun other otherId foreign accepted =>
        effect.cache_frame (holds.calls id call found).1 foreign accepted⟩
  · obtain ⟨owner, ownerId, text, sameKey, valueEq, ownerAccepted, resource, rfl, read⟩ :=
      holds.shared.text_of_lookup found
    obtain ⟨rfl, rfl⟩ := dataKey_injective accepted ownerAccepted sameKey
    exact ⟨resource, valueEq, read⟩

/-- The client of another row. -/
def neighbour : Uuid := ⟨List.replicate 15 0 ++ [13], rfl⟩

def neighbourText : String := "00000000-0000-0000-0000-00000000000d"

def neighbourIdText : String := "00000000-0000-0000-0000-00000000000e"

def neighbourRow : Row Platform.reference :=
  { sampleRow with id := ⟨List.replicate 15 0 ++ [14], rfl⟩, clientId := neighbour }

/-- Two clients with a row each. -/
def twoClients : Database Platform.reference where
  clients := fun _ => true
  resources :=
    { rows := [sampleRow, neighbourRow]
      ids_unique := by
        have ids : [sampleId, neighbourRow.id].Nodup := by decide
        exact ids
      names_unique := by
        have names : [(sampleClient, "web"), (neighbour, "web")].Nodup := by decide
        exact names }

/-- Both clients have read their resource, and one has deleted it, up to its cache entry. -/
def readAndDeleted : List ServiceEvent :=
  .start 0 (.get sampleClientText sampleIdText) :: List.replicate 5 (.advance 0 sampleChoice) ++
    .start 1 (.get neighbourText neighbourIdText) :: List.replicate 5 (.advance 1 sampleChoice) ++
    [.start 2 (.remove sampleClientText sampleIdText), .advance 2 sampleChoice]

def deletedState : ServiceState Platform.reference :=
  (resourceService Platform.reference).replay { sampleStore with database := twoClients }
    readAndDeleted

theorem deletedState_reachable :
    (resourceService Platform.reference).machine.Reachable AdmissibleEvent deletedState := by
  have possible : ((resourceService Platform.reference).machine.execute
      (Component.fresh { sampleStore with database := twoClients }) readAndDeleted).isSome =
        true := by decide +kernel
  have admissible : ∀ event ∈ readAndDeleted, ∀ state : ServiceState Platform.reference,
      AdmissibleEvent state event := by
    have own : (Request.get sampleClientText sampleIdText).Admissible := by decide
    have others : (Request.get neighbourText neighbourIdText).Admissible := by decide
    have removal : (Request.remove sampleClientText sampleIdText).Admissible := by decide
    simp [readAndDeleted, List.replicate, AdmissibleEvent, own, others, removal]
  exact Component.reachable_replay ⟨rfl, rfl, rfl⟩ possible (Machine.allows_of_forall admissible)

/-- The entry of the other client is what it has read, and outlasts the eviction. -/
theorem clients_isolated_neighbours :
    (∃ resource, ReadFrom deletedState.shared neighbourText neighbourIdText resource) ∧
      ∃ after, (resourceService Platform.reference).eventStep deletedState
          (.advance 2 sampleChoice) = some after ∧
        (neighbourRow ∈ after.shared.database.resources.rows ↔
          neighbourRow ∈ deletedState.shared.database.resources.rows) ∧
        after.shared.redis.lookup (dataKey neighbourText neighbourIdText) =
          deletedState.shared.redis.lookup (dataKey neighbourText neighbourIdText) := by
  obtain ⟨_, frame, cached⟩ := clients_isolated Platform.reference_lawful.toRoundTrips
    deletedState_reachable
  have stored : (deletedState.shared.redis.lookup
      (dataKey neighbourText neighbourIdText)).isSome = true := by decide +kernel
  obtain ⟨entry, found⟩ := Option.isSome_iff_exists.mp stored
  obtain ⟨resource, _, read⟩ := cached neighbourText neighbourIdText entry (by decide) found
  have asks : (deletedState.calls 2).map (fun call => call.request.clientId) =
      some sampleClientText := by decide +kernel
  obtain ⟨call, calling, clientEq⟩ := Option.map_eq_some_iff.mp asks
  have enabled : ((resourceService Platform.reference).eventStep deletedState
      (.advance 2 sampleChoice)).isSome = true := by decide +kernel
  obtain ⟨after, stepped⟩ := Option.isSome_iff_exists.mp enabled
  obtain ⟨rows, entries⟩ := frame 2 call sampleChoice after calling stepped
  rw [clientEq] at rows entries
  refine ⟨⟨resource, read⟩, after, stepped, rows neighbourRow ?_, entries _ _ ?_ (by decide)⟩
  · have isSample : uuidParam sampleClientText = some sampleClient := by decide
    rw [isSample]
    decide
  · decide

end Corvus.Resources
