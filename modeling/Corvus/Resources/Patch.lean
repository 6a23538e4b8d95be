import Corvus.Resources.UpdateStatement
import Corvus.Resources.WriteAnswer

/-!
# What a PATCH changes

A body names columns by holding a value for them.  The row with the client and the
id gets these values and nothing else changes, as long as the texts reach the
statement whole: they are quoted up to their first NUL.
-/

namespace Corvus.Resources

open Corvus.Db

variable {platform : Platform}

/-- `parse_update_request` on a body, and `ResourceService::update` on what it accepts. -/
def patch (choice : Choice) (clientId id : String) (body : Json) (store : Store platform) :
    Option (Validated Outcome × Store platform) :=
  match parseUpdateRequest platform body with
  | .error error => some (.error error, store)
  | .ok request =>
      (Call.runUnder choice kCallSteps
        ((resourceService platform).enter (.update clientId id request) store) store).map
        fun ended => (.ok ended.1, ended.2)

/-- Parsing failed, or `update` threw one of its own exceptions. -/
inductive Refused : Validated Outcome → Prop where
  | invalid (error : ResourceValidationError) : Refused (.error error)
  | notFound (message : String) : Refused (.ok (.error (.notFound message)))
  | alreadyExists (message : String) : Refused (.ok (.error (.alreadyExists message)))

/-- The row with the client and the id was changed as the body says, no other row was, and
the returned resource is the new row. -/
def ChangedExactly (clientId id : String) (body : Json) (stamp : Stamp)
    (before after : Table platform) (resource : Resource) : Prop :=
  ∃ client uuid old new, uuidIn clientId = some client ∧ uuidIn id = some uuid ∧
    before.find client uuid = some old ∧ Row.Changes new old body ∧
    new.updatedAt = stamp.now ∧ Replaced before after old new ∧ rowToResource new = some resource

/-- None of the texts in the statement ends early. -/
structure ArrivesWhole (clientId id : String) (request : UpdateResourceRequest) : Prop where
  clientId : NulFree clientId
  id : NulFree id
  name : ∀ name ∈ request.name, NulFree name
  status : ∀ status ∈ request.status, NulFree status

/-! ## How an update ends -/

variable {choice : Choice} {clientId id : String} {body : Json} {store : Store platform}
  {request : UpdateResourceRequest}

/-- The transaction of an update, with the faults of a choice. -/
def executed (choice : Choice) (clientId id : String) (request : UpdateResourceRequest)
    (store : Store platform) : Executed platform (Option Resource) :=
  (update store.database clientId id request choice.stamp).under choice.sql

theorem patch_valid (parsed : parseUpdateRequest platform body = .ok request) :
    ∃ after, patch choice clientId id body store =
        some (.ok (updateOutcome id request (executed choice clientId id request store).answer),
          after) ∧
      after.database.resources = (executed choice clientId id request store).written.getD
        store.database.resources := by
  obtain ⟨after, ran, resources⟩ := @runUnder_update platform store id choice clientId request
  refine ⟨after, ?_, resources⟩
  simp only [patch, parsed, ran, Option.map_some]
  rfl

/-- What a transaction that wrote a row left. -/
structure Wrote (choice : Choice) (clientId id : String) (request : UpdateResourceRequest)
    (store : Store platform) (client uuid : Uuid) (metadata : Option platform.Jsonb)
    (old : Row platform) (resources : Table platform) : Prop where
  clientEq : uuidParam clientId = some client
  uuidEq : uuidParam id = some uuid
  cast : castMetadata platform request.metadata = some metadata
  found : store.database.resources.find client uuid = some old
  replaced : store.database.resources.replace (updatedRow old request metadata choice.stamp) =
    some resources
  written : (executed choice clientId id request store).written = some resources

/-- Either the connection failed, or the transaction went as the repository says. -/
theorem executed_cases (choice : Choice) (clientId id : String)
    (request : UpdateResourceRequest) (store : Store platform) :
    (executed choice clientId id request store).answer = .error .other ∨
      executed choice clientId id request store =
        update store.database clientId id request choice.stamp := by
  unfold executed
  cases choice.sql with
  | healthy => exact Or.inr rfl
  | refused => exact Or.inl rfl
  | replyLost => exact Or.inl rfl

/-- An update that is refused wrote nothing. -/
theorem written_of_refused
    (refused : Refused (.ok (updateOutcome id request
      (executed choice clientId id request store).answer))) :
    (executed choice clientId id request store).written = none := by
  rcases executed_cases choice clientId id request store with failed | went
  · rw [failed] at refused
    cases refused
  rw [went] at refused ⊢
  rcases update_cases store.database clientId id request choice.stamp with
    ⟨error, threw⟩ | ⟨_, _, _, _, _, absent⟩ | ⟨_, _, metadata, old, _, _, _, _, _, _, wrote⟩
  · rw [threw]
  · rw [absent]
  · rw [wrote] at refused
    cases decoded : rowToResource (updatedRow old request metadata choice.stamp) with
    | none =>
        simp only [decodeRow, decoded, Except.map, updateOutcome, updateError] at refused
        cases refused
    | some resource =>
        simp only [decodeRow, decoded, Except.map, updateOutcome] at refused
        cases refused

/-- An update that succeeds returns the row it wrote. -/
theorem wrote_of_reply {reply : Reply}
    (succeeded : updateOutcome id request (executed choice clientId id request store).answer =
      .ok reply) :
    ∃ client uuid metadata old resources resource,
      Wrote choice clientId id request store client uuid metadata old resources ∧
      reply = .resource resource ∧
      rowToResource (updatedRow old request metadata choice.stamp) = some resource := by
  rcases executed_cases choice clientId id request store with failed | went
  · rw [failed] at succeeded
    cases succeeded
  rcases update_cases store.database clientId id request choice.stamp with
    ⟨error, threw⟩ | ⟨_, _, _, _, _, absent⟩ |
      ⟨client, uuid, metadata, old, resources, clientEq, uuidEq, cast, found, replaced, wrote⟩
  · rw [went, threw] at succeeded
    cases succeeded
  · rw [went, absent] at succeeded
    cases succeeded
  · rw [went, wrote] at succeeded
    cases decoded : rowToResource (updatedRow old request metadata choice.stamp) with
    | none =>
        simp only [decodeRow, decoded, Except.map, updateOutcome] at succeeded
        cases succeeded
    | some resource =>
        simp only [decodeRow, decoded, Except.map, updateOutcome] at succeeded
        cases succeeded
        exact ⟨client, uuid, metadata, old, resources, resource,
          ⟨clientEq, uuidEq, cast, found, replaced, by rw [went, wrote]⟩, rfl, decoded⟩

/-- A row is changed exactly as the body says if and only if the texts arrive whole. -/
theorem changedExactly_iff {client uuid : Uuid} {metadata : Option platform.Jsonb}
    {old : Row platform} {resources : Table platform} {resource : Resource}
    (parsed : parseUpdateRequest platform body = .ok request)
    (wrote : Wrote choice clientId id request store client uuid metadata old resources)
    (decoded : rowToResource (updatedRow old request metadata choice.stamp) = some resource) :
    ChangedExactly clientId id body choice.stamp store.database.resources resources resource ↔
      ArrivesWhole clientId id request := by
  have oldIn := (Table.find_eq_some.mp wrote.found).1
  have rows := fun other => @Table.mem_replace _ _ _ old _ other wrote.replaced oldIn rfl
  have changes := @updatedRow_changes _ choice.stamp body request old metadata parsed wrote.cast
  constructor
  · rintro ⟨otherClient, otherUuid, before, new, clientEq, uuidEq, found, newChanges, _,
      ⟨_, newRows⟩, _⟩
    have clientFree := nulFree_of_uuidIn clientEq
    have idFree := nulFree_of_uuidIn uuidEq
    cases clientEq.symm.trans ((uuidIn_eq_some_iff wrote.clientEq).mpr clientFree)
    cases uuidEq.symm.trans ((uuidIn_eq_some_iff wrote.uuidEq).mpr idFree)
    cases found.symm.trans wrote.found
    have isRow : updatedRow old request metadata choice.stamp = new := by
      refine ((newRows _).mp ((rows _).mpr (Or.inr rfl))).resolve_left ?_
      rintro ⟨member, different⟩
      exact different (Table.eq_of_id member oldIn rfl)
    rw [← isRow] at newChanges
    obtain ⟨nameFree, statusFree⟩ := changes.mp newChanges
    exact ⟨clientFree, idFree, nameFree, statusFree⟩
  · intro whole
    refine ⟨client, uuid, old, _, (uuidIn_eq_some_iff wrote.clientEq).mpr whole.clientId,
      (uuidIn_eq_some_iff wrote.uuidEq).mpr whole.id, wrote.found,
      changes.mpr ⟨whole.name, whole.status⟩, rfl, ⟨oldIn, fun other => ?_⟩, decoded⟩
    refine (rows other).trans (or_congr_left (and_congr_right fun member => ?_))
    exact not_congr ⟨fun sameId => Table.eq_of_id member oldIn sameId, fun isOld => isOld ▸ rfl⟩

/-- An accepted body has a statement that is well formed, and executing it is what `update`
does. -/
structure StatementRuns (choice : Choice) (clientId id : String)
    (request : UpdateResourceRequest) (store : Store platform) : Prop where
  wellFormed : readUpdate (updateSql platform clientId id request) =
    some { assignments := request.assignments platform, clientId := cString clientId,
           id := cString id }
  runs : executeSql store.database (updateSql platform clientId id request) choice.stamp =
    update store.database clientId id request choice.stamp

theorem reference_escapes (json : Json) : NulFree (Platform.reference.dump json) := by
  have printed : Platform.reference.dump json = String.ofList (json.printChars []) := rfl
  rw [NulFree, printed, String.toList_ofList]
  exact Json.nul_not_mem_printChars json

/-- A body that sets a name. -/
def namingBody (name : String) : Json :=
  .object [("name", .string name)]

/-- A PATCH always ends.  A refused one changes nothing; the statement of an accepted one is
well formed; and one that succeeds changes exactly what it names, and returns the new row,
if and only if no text in its statement holds a NUL. -/
theorem patch_exact_iff (escapes : ∀ json, NulFree (platform.dump json)) (choice : Choice)
    (clientId id : String) (body : Json) (store : Store platform) :
    ∃ outcome after, patch choice clientId id body store = some (outcome, after) ∧
      (Refused outcome → after.database.resources = store.database.resources) ∧
      (∀ request, parseUpdateRequest platform body = .ok request →
        StatementRuns choice clientId id request store) ∧
      ∀ request reply, parseUpdateRequest platform body = .ok request →
        outcome = .ok (.ok reply) →
        ∃ resource, reply = .resource resource ∧
          (ChangedExactly clientId id body choice.stamp store.database.resources
              after.database.resources resource ↔
            ArrivesWhole clientId id request) := by
  cases parsed : parseUpdateRequest platform body with
  | error error =>
      refine ⟨.error error, store, by rw [patch, parsed], fun _ => rfl, ?_, ?_⟩
      · rintro request ⟨⟩
      · rintro request reply ⟨⟩
  | ok request =>
      obtain ⟨after, ran, resourcesEq⟩ := @patch_valid _ choice clientId id body store _ parsed
      refine ⟨_, after, ran, fun refused => ?_, ?_, ?_⟩
      · rw [resourcesEq, written_of_refused refused]
        rfl
      · rintro _ ⟨⟩
        have present : request.assignments platform ≠ [] := by
          rw [ne_eq, assignments_eq_nil, (parseUpdateRequest_ok parsed).2.2.2]
          exact Bool.false_ne_true
        exact ⟨readUpdate_updateSql present,
          (update_eq_executeSql escapes store.database clientId id request choice.stamp).symm⟩
      · rintro _ reply ⟨⟩ succeeded
        obtain ⟨client, uuid, metadata, old, resources, resource, wrote, isResource, decoded⟩ :=
          wrote_of_reply (Except.ok.inj succeeded)
        refine ⟨resource, isResource, ?_⟩
        rw [resourcesEq, wrote.written, Option.getD_some]
        exact changedExactly_iff parsed wrote decoded

theorem patch_exact_iff_renaming :
    ∃ outcome after, patch sampleChoice sampleClientText sampleIdText (namingBody "db")
        sampleStore = some (outcome, after) ∧
      (Refused outcome → after.database.resources = sampleStore.database.resources) ∧
      (∀ request, parseUpdateRequest Platform.reference (namingBody "db") = .ok request →
        StatementRuns sampleChoice sampleClientText sampleIdText request sampleStore) ∧
      ∀ request reply,
        parseUpdateRequest Platform.reference (namingBody "db") = .ok request →
        outcome = .ok (.ok reply) →
        ∃ resource, reply = .resource resource ∧
          (ChangedExactly sampleClientText sampleIdText (namingBody "db") sampleChoice.stamp
              sampleStore.database.resources after.database.resources resource ↔
            ArrivesWhole sampleClientText sampleIdText request) :=
  patch_exact_iff reference_escapes sampleChoice sampleClientText sampleIdText (namingBody "db")
    sampleStore

/-! ## A name that is cut -/

/-- A PATCH that succeeds changes exactly what its body names. -/
def PatchesExactly : Prop :=
  ∀ (platform : Platform) (choice : Choice) (clientId id : String) (body : Json)
    (store after : Store platform) (resource : Resource), platform.Lawful →
    patch choice clientId id body store = some (.ok (.ok (.resource resource)), after) →
    ChangedExactly clientId id body choice.stamp store.database.resources
      after.database.resources resource

/-- A name is stored up to its first NUL. -/
theorem not_patchesExactly : ¬PatchesExactly := by
  intro promise
  obtain ⟨resource, after, ran, isCut⟩ : ∃ resource after,
      patch sampleChoice sampleClientText sampleIdText (namingBody "a\x00b") sampleStore =
        some (.ok (.ok (.resource resource)), after) ∧ resource.name = "a" := ⟨_, _, rfl, rfl⟩
  obtain ⟨_, _, _, new, _, _, _, changes, _, _, decoded⟩ :=
    promise _ _ _ _ _ _ _ _ Platform.reference_lawful ran
  have named : new.name = "a\x00b" := changes.name
  obtain ⟨metadata, _, isNew⟩ := Option.map_eq_some_iff.mp decoded
  have same : new.name = "a" := by rwa [← isNew] at isCut
  rw [named] at same
  exact absurd same (by decide)

end Corvus.Resources
