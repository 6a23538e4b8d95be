import Corvus.Resources.Handler

/-!
# What the answer to a write says about the table

The row is committed in the middle of a request.  What comes after it can still
fail: the resource is printed by one JSON library and read again by another,
which gives up on deeply nested documents.  And the statement takes its text
parameters up to their first NUL, so the row can hold less than the body says.
-/

namespace Corvus.Resources

open Corvus.Db Corvus.Api

variable {platform : Platform}

/-! ## A request served alone -/

/-- The steps of the longest call, and one to see that it is done. -/
def kCallSteps : Nat := 6

/-- Run a call by itself, with the faults of a choice. -/
def Call.runUnder (choice : Choice) : Nat → Call platform → Store platform →
    Option (Outcome × Store platform)
  | 0, _, _ => none
  | fuel + 1, call, store =>
      match call.phase with
      | .done outcome => some (outcome, store)
      | _ => (call.step choice store).bind fun moved =>
          Call.runUnder choice fuel moved.1 moved.2

/-- Run a call by itself, with Redis and Postgres healthy. -/
def Call.runAlone (stamp : Stamp) : Nat → Call platform → Store platform →
    Option (Outcome × Store platform) :=
  Call.runUnder { stamp }

/-- Serve a request: answer it, or run the call the handler makes and answer with what
it returns. -/
def serve (stamp : Stamp) (handled : Handled) (store : Store platform) :
    Option (Response × Store platform) :=
  match handled with
  | .respond response => some (response, store)
  | .invoke request answer =>
      (Call.runAlone stamp kCallSteps ((resourceService platform).enter request store)
        store).map fun ended => (answer ended.1, ended.2)

/-! ## What a body describes -/

/-- A text column holds the text of the body, or what it holds without one. -/
def TextColumn (body : Json) (field absent value : String) : Prop :=
  value = match body.field? field with
    | some (.string text) => text
    | _ => absent

/-- The column `metadata` holds the object of the body, or what it holds without one. -/
def MetadataColumn (body : Json) (absent : Option platform.Jsonb) (value : platform.Jsonb) :
    Prop :=
  some value = match body.field? "metadata" with
    | some (.object fields) => platform.jsonbIn (platform.dump (.object fields))
    | _ => absent

/-- The row a body describes, for a client. -/
structure Row.Describes (row : Row platform) (client : Uuid) (body : Json) : Prop where
  clientId : row.clientId = client
  kind : body.field? "kind" = some (.string row.kind)
  name : body.field? "name" = some (.string row.name)
  status : TextColumn body "status" "unknown" row.status
  metadata : MetadataColumn body (platform.jsonbIn (platform.dump (.object []))) row.metadata

/-- The row a body makes of a row. -/
structure Row.Changes (new old : Row platform) (body : Json) : Prop where
  id : new.id = old.id
  clientId : new.clientId = old.clientId
  kind : new.kind = old.kind
  createdAt : new.createdAt = old.createdAt
  name : TextColumn body "name" old.name new.name
  status : TextColumn body "status" old.status new.status
  metadata : MetadataColumn body (some old.metadata) new.metadata

/-- Exactly this row was added. -/
def Inserted (before after : Table platform) (row : Row platform) : Prop :=
  row ∉ before.rows ∧ ∀ other, other ∈ after.rows ↔ other ∈ before.rows ∨ other = row

/-- Exactly this row was put in the place of that. -/
def Replaced (before after : Table platform) (old new : Row platform) : Prop :=
  old ∈ before.rows ∧
    ∀ other, other ∈ after.rows ↔ (other ∈ before.rows ∧ other ≠ old) ∨ other = new

/-- An error answer of `POST` means that nothing was written, a success that exactly the
described row was inserted. -/
def CreateAnswered (request : HttpRequest) (before after : Table platform)
    (response : Response) : Prop :=
  (400 ≤ response.status → after = before) ∧
    (response.status = 200 ∨ response.status = 201 →
      ∃ body client row, platform.parse request.body = some body ∧
        uuidParam request.clientId = some client ∧ row.Describes client body ∧
        Inserted before after row)

/-- An error answer of `PATCH` means that nothing was written, a success that exactly the
described row was changed. -/
def UpdateAnswered (request : HttpRequest) (id : String) (before after : Table platform)
    (response : Response) : Prop :=
  (400 ≤ response.status → after = before) ∧
    (response.status = 200 ∨ response.status = 201 →
      ∃ body client uuid old new, platform.parse request.body = some body ∧
        uuidParam request.clientId = some client ∧ uuidParam id = some uuid ∧
        before.find client uuid = some old ∧ Row.Changes new old body ∧
        Replaced before after old new)

/-! ## When it is so -/

/-- A document this deep can still be answered with. -/
def kMetadataMaxDepth : Nat := Platform.stackLimit - 1

/-- The nesting of the document in a row. -/
def Row.depth (row : Row platform) : Nat :=
  match platform.parse (platform.jsonbOut row.metadata) with
  | some document => document.depth
  | none => 0

/-- The nesting of the document an `UPDATE` leaves in a row. -/
def UpdateResourceRequest.depthOver (updateRequest : UpdateResourceRequest)
    (old : Row platform) : Nat :=
  (updateRequest.metadata.map Json.depth).getD old.depth

/-- The request passes the checks, and Postgres accepts its `INSERT`. -/
structure CreateCommits (request : HttpRequest) (database : Database platform) (stamp : Stamp)
    (createRequest : CreateResourceRequest) (client : Uuid) (metadata : platform.Jsonb) : Prop where
  valid : ∃ body, platform.parse request.body = some body ∧
    parseCreateRequest platform body = .ok createRequest
  clientEq : uuidParam request.clientId = some client
  cast : platform.jsonbIn (platform.dump (createRequest.metadata.getD (.object []))) =
    some metadata
  unique : (database.resources.insert (newRow client createRequest metadata stamp)).isSome = true
  known : database.clients client = true

/-- The request passes the checks, and Postgres accepts its `UPDATE` of the row. -/
structure UpdateCommits (request : HttpRequest) (id : String) (database : Database platform)
    (stamp : Stamp) (updateRequest : UpdateResourceRequest) (old : Row platform)
    (metadata : Option platform.Jsonb) : Prop where
  valid : ∃ body, platform.parse request.body = some body ∧
    parseUpdateRequest platform body = .ok updateRequest
  accepted : isUuid id = true
  found : ∃ client uuid, uuidParam request.clientId = some client ∧ uuidParam id = some uuid ∧
    database.resources.find client uuid = some old
  cast : castMetadata platform updateRequest.metadata = some metadata
  unique : (database.resources.replace (updatedRow old updateRequest metadata stamp)).isSome = true

/-- A committed `INSERT` has a document that can be answered with, and texts without NUL. -/
def CreateFaithful (request : HttpRequest) (database : Database platform) (stamp : Stamp) :
    Prop :=
  ∀ createRequest client metadata,
    CreateCommits request database stamp createRequest client metadata →
    (createRequest.metadata.getD (.object [])).depth ≤ kMetadataMaxDepth ∧
      NulFree createRequest.kind ∧ NulFree createRequest.name ∧
      ∀ status ∈ createRequest.status, NulFree status

/-- A committed `UPDATE` has a document that can be answered with and texts without NUL, or
has none that can and changes nothing. -/
def UpdateFaithful (request : HttpRequest) (id : String) (database : Database platform)
    (stamp : Stamp) : Prop :=
  ∀ updateRequest old metadata,
    UpdateCommits request id database stamp updateRequest old metadata →
    (updateRequest.depthOver old ≤ kMetadataMaxDepth ∧ (∀ name ∈ updateRequest.name, NulFree name) ∧
        ∀ status ∈ updateRequest.status, NulFree status) ∨
      kMetadataMaxDepth < updateRequest.depthOver old ∧
        updatedRow old updateRequest metadata stamp = old

/-! ## What the checks let through -/

theorem ok_of_bind {α β : Type} {first : Validated α} {rest : α → Validated β} {result : β}
    (succeeded : first.bind rest = .ok result) :
    ∃ value, first = .ok value ∧ rest value = .ok result := by
  cases first with
  | error error => cases succeeded
  | ok value => exact ⟨value, rfl, succeeded⟩

theorem field_of_requireString {body : Json} {field text : String}
    (required : requireString body field = .ok text) :
    body.field? field = some (.string text) := by
  unfold requireString at required
  split at required
  · cases required
  · rename_i found
    cases required
    exact found
  · cases required

/-- An optional text that passed is the text of the body, if it holds any. -/
theorem textColumn_of_optionalString {body : Json} {field absent value : String}
    {text : Option String} (optional : optionalString body field = .ok text) :
    TextColumn body field absent value ↔ value = text.getD absent := by
  unfold optionalString at optional
  unfold TextColumn
  split at optional <;> cases optional <;> rename_i found <;> rw [found] <;> rfl

theorem metadataColumn_of_optionalObject {body : Json} {metadata : Option Json}
    {absent : Option platform.Jsonb} {value : platform.Jsonb}
    (optional : optionalObject body "metadata" = .ok metadata) :
    MetadataColumn body absent value ↔
      some value = (metadata.map fun document => platform.jsonbIn (platform.dump document)).getD
        absent := by
  unfold optionalObject at optional
  unfold MetadataColumn
  split at optional <;> cases optional <;> rename_i found <;> rw [found] <;> rfl

/-- The fields of a body and what the checks made of them. -/
theorem parseCreateRequest_ok {body : Json} {createRequest : CreateResourceRequest}
    (parsed : parseCreateRequest platform body = .ok createRequest) :
    body.field? "kind" = some (.string createRequest.kind) ∧
      body.field? "name" = some (.string createRequest.name) ∧
      optionalString body "status" = .ok createRequest.status ∧
      optionalObject body "metadata" = .ok createRequest.metadata := by
  simp only [parseCreateRequest] at parsed
  split at parsed
  · cases parsed
  obtain ⟨kind, kindEq, parsed⟩ := ok_of_bind parsed
  obtain ⟨name, nameEq, parsed⟩ := ok_of_bind parsed
  obtain ⟨status, statusEq, parsed⟩ := ok_of_bind parsed
  obtain ⟨metadata, metadataEq, parsed⟩ := ok_of_bind parsed
  obtain ⟨_, _, parsed⟩ := ok_of_bind parsed
  obtain ⟨_, _, parsed⟩ := ok_of_bind parsed
  obtain ⟨_, _, parsed⟩ := ok_of_bind parsed
  obtain ⟨_, _, parsed⟩ := ok_of_bind parsed
  cases parsed
  exact ⟨field_of_requireString kindEq, field_of_requireString nameEq, statusEq, metadataEq⟩

theorem parseUpdateRequest_ok {body : Json} {updateRequest : UpdateResourceRequest}
    (parsed : parseUpdateRequest platform body = .ok updateRequest) :
    optionalString body "name" = .ok updateRequest.name ∧
      optionalString body "status" = .ok updateRequest.status ∧
      optionalObject body "metadata" = .ok updateRequest.metadata ∧
      (updateRequest.name.isNone && updateRequest.status.isNone &&
        updateRequest.metadata.isNone) = false := by
  simp only [parseUpdateRequest] at parsed
  split at parsed
  · cases parsed
  obtain ⟨name, nameEq, parsed⟩ := ok_of_bind parsed
  obtain ⟨status, statusEq, parsed⟩ := ok_of_bind parsed
  obtain ⟨metadata, metadataEq, parsed⟩ := ok_of_bind parsed
  split at parsed
  · cases parsed
  rename_i present
  obtain ⟨_, _, parsed⟩ := ok_of_bind parsed
  obtain ⟨_, _, parsed⟩ := ok_of_bind parsed
  obtain ⟨_, _, parsed⟩ := ok_of_bind parsed
  cases parsed
  exact ⟨nameEq, statusEq, metadataEq, Bool.eq_false_iff.mpr present⟩

/-- The metadata a request may carry is a field of its body. -/
theorem isValue_of_optionalObject {body : Json} {field : String} {metadata : Option Json}
    (isValue : platform.IsValue body) (optional : optionalObject body field = .ok metadata)
    {document : Json} (present : metadata = some document) : platform.IsValue document := by
  unfold optionalObject at optional
  split at optional <;> cases optional
  · cases present
  · cases present
  · rename_i fields found
    cases present
    exact .field isValue found

theorem isValue_of_create {text : String} {body : Json}
    {createRequest : CreateResourceRequest} (read : platform.parse text = some body)
    (parsed : parseCreateRequest platform body = .ok createRequest) :
    platform.IsValue (createRequest.metadata.getD (.object [])) := by
  obtain ⟨_, _, _, optional⟩ := parseCreateRequest_ok parsed
  cases present : createRequest.metadata with
  | none => exact .object .nil (by simp)
  | some document => exact isValue_of_optionalObject (.parsed read) optional present

theorem isValue_of_update {text : String} {body : Json}
    {updateRequest : UpdateResourceRequest} (read : platform.parse text = some body)
    (parsed : parseUpdateRequest platform body = .ok updateRequest) (document : Json)
    (present : updateRequest.metadata = some document) : platform.IsValue document := by
  obtain ⟨_, _, optional, _⟩ := parseUpdateRequest_ok parsed
  exact isValue_of_optionalObject (.parsed read) optional present

/-! ## How the calls end -/

variable {store : Store platform} {stamp : Stamp} {request : HttpRequest} {id : String}

theorem runUnder_done {call : Call platform} {choice : Choice} {fuel : Nat} {outcome : Outcome}
    (done : call.phase = .done outcome) :
    Call.runUnder choice (fuel + 1) call store = some (outcome, store) := by
  rw [Call.runUnder, done]

theorem runUnder_step {call next : Call platform} {choice : Choice} {after : Store platform}
    {fuel : Nat} (running : ∀ outcome, call.phase ≠ .done outcome)
    (stepped : call.step choice store = some (next, after)) :
    Call.runUnder choice (fuel + 1) call store = Call.runUnder choice fuel next after := by
  rw [Call.runUnder]
  split
  · rename_i outcome done
    exact (running outcome done).elim
  · rw [stepped]
    rfl

theorem runAlone_create (clientId : String) (createRequest : CreateResourceRequest) :
    Call.runAlone stamp kCallSteps
        ((resourceService platform).enter (.create clientId createRequest) store) store =
      some (createOutcome createRequest
          (create store.database clientId createRequest stamp).answer,
        store.commit (create store.database clientId createRequest stamp)
          (createOutcome createRequest
            (create store.database clientId createRequest stamp).answer)) := by
  have running : ∀ outcome, ((resourceService platform).enter
      (.create clientId createRequest) store).phase ≠ .done outcome := by
    rintro outcome ⟨⟩
  have stepped : ((resourceService platform).enter (.create clientId createRequest) store).step
      { stamp } store = ((resourceService platform).enter (.create clientId createRequest)
        store).createStep clientId createRequest { stamp } store := rfl
  simp only [Call.createStep, Executed.under] at stepped
  rw [Call.runAlone, kCallSteps, runUnder_step running stepped]
  exact runUnder_done rfl

/-- What `update` returns. -/
def updateOutcome (id : String) (updateRequest : UpdateResourceRequest) :
    Except RepositoryError (Option Resource) → Outcome
  | .ok (some updated) => .ok (.resource updated)
  | .ok none => notFound id
  | .error error => .error (updateError updateRequest error)

theorem commit_resources {Answer : Type} (executed : Executed platform Answer)
    (result : Outcome) :
    (store.commit executed result).database.resources =
      executed.written.getD store.database.resources := by
  unfold Store.commit
  split <;> rename_i written <;> rw [written] <;> rfl

/-- An update by itself ends, whatever fails on the way. -/
theorem runUnder_update (choice : Choice) (clientId : String)
    (updateRequest : UpdateResourceRequest) :
    ∃ after, Call.runUnder choice kCallSteps
        ((resourceService platform).enter (.update clientId id updateRequest) store) store =
      some (updateOutcome id updateRequest
        ((update store.database clientId id updateRequest choice.stamp).under choice.sql).answer,
          after) ∧
      after.database.resources = ((update store.database clientId id updateRequest
        choice.stamp).under choice.sql).written.getD store.database.resources := by
  have kept := fun result => @commit_resources platform store _
    ((update store.database clientId id updateRequest choice.stamp).under choice.sql) result
  have running : ∀ outcome, ((resourceService platform).enter
      (.update clientId id updateRequest) store).phase ≠ .done outcome := by
    rintro outcome ⟨⟩
  have stepped : ((resourceService platform).enter (.update clientId id updateRequest) store).step
      choice store = ((resourceService platform).enter (.update clientId id updateRequest)
        store).updateStep clientId id updateRequest choice store := rfl
  simp only [Call.updateStep] at stepped
  cases answered : ((update store.database clientId id updateRequest choice.stamp).under
      choice.sql).answer with
  | error error =>
      rw [answered] at stepped
      rw [kCallSteps, runUnder_step running stepped]
      exact ⟨_, runUnder_done rfl, kept _⟩
  | ok updated =>
      cases updated with
      | none =>
          rw [answered] at stepped
          rw [kCallSteps, runUnder_step running stepped]
          exact ⟨_, runUnder_done rfl, kept _⟩
      | some updated =>
          rw [answered] at stepped
          have evicting : ∀ outcome, (((resourceService platform).enter
              (.update clientId id updateRequest) store).goTo (.invalidateVersioned
                (.ok (.resource updated)) store.commits.length)).phase ≠ .done outcome := by
            rintro outcome ⟨⟩
          rw [kCallSteps, runUnder_step running stepped, runUnder_step evicting rfl]
          exact ⟨_, runUnder_done rfl, kept _⟩

theorem runAlone_update (clientId : String) (updateRequest : UpdateResourceRequest) :
    ∃ after, Call.runAlone stamp kCallSteps
        ((resourceService platform).enter (.update clientId id updateRequest) store) store =
      some (updateOutcome id updateRequest
        (update store.database clientId id updateRequest stamp).answer, after) ∧
      after.database.resources = (update store.database clientId id updateRequest
        stamp).written.getD store.database.resources := by
  rw [Call.runAlone]
  exact runUnder_update { stamp } clientId updateRequest

/-! ## How the answers look -/

theorem unexpected_isError : 400 ≤ (unexpected request).status :=
  four_hundred_le_httpStatus .internalError

theorem respondError_isError (code : ErrorCode) (message : String) (info : ResponseMeta) :
    400 ≤ (respondError code message info).status :=
  four_hundred_le_httpStatus code

/-- A resource is answered with unless its document is nested too deeply. -/
theorem respondResource_status (lawful : platform.Lawful) {resource : Resource}
    (isValue : platform.IsValue resource.metadata) {respond : Json → Response} {success : Nat}
    (succeeds : ∀ data, (respond data).status = success) :
    (respondResource platform request resource respond).status =
      if resource.metadata.depth ≤ kMetadataMaxDepth then success else 500 := by
  have readable : (toJsonValue platform resource).isSome = true ↔
      resource.metadata.depth ≤ kMetadataMaxDepth := by
    rw [toJsonValue, lawful.char_reader_dump _ (isValue_toJson isValue), depth_toJson,
      kMetadataMaxDepth, Platform.stackLimit]
    omega
  unfold respondResource
  split
  · rename_i data read
    rw [if_pos (readable.mp (by rw [read]; rfl))]
    exact succeeds data
  · rename_i unread
    rw [if_neg]
    · rfl
    · intro shallow
      have isSome := readable.mpr shallow
      rw [unread] at isSome
      cases isSome

/-- A row that was written can be decoded. -/
theorem decodeRow_ok (lawful : platform.Lawful) (row : Row platform) :
    ∃ resource, decodeRow row = .ok resource ∧ platform.IsValue resource.metadata ∧
      resource.metadata.depth = row.depth := by
  obtain ⟨document, parsed⟩ := lawful.parse_jsonb_out row.metadata
  simp [decodeRow, rowToResource, Row.depth, parsed, Platform.IsValue.parsed parsed]

theorem depth_of_cast (lawful : platform.Lawful) {row : Row platform} {document : Json}
    (isValue : platform.IsValue document)
    (cast : platform.jsonbIn (platform.dump document) = some row.metadata) :
    row.depth = document.depth := by
  obtain ⟨back, parsed⟩ := lawful.parse_jsonb_out row.metadata
  simp only [Row.depth, parsed]
  exact lawful.depth_jsonb _ document _ back (lawful.parse_dump document isValue) cast parsed

/-! ## `POST` -/

theorem create_of_commits {database : Database platform} {createRequest : CreateResourceRequest}
    {client : Uuid} {metadata : platform.Jsonb}
    (commits : CreateCommits request database stamp createRequest client metadata) :
    ∃ resources, database.resources.insert (newRow client createRequest metadata stamp) =
        some resources ∧
      create database request.clientId createRequest stamp =
        { answer := decodeRow (newRow client createRequest metadata stamp)
          written := some resources } := by
  obtain ⟨resources, inserted⟩ := Option.isSome_iff_exists.mp commits.unique
  refine ⟨resources, inserted, ?_⟩
  simp [create, commits.clientEq, commits.cast, inserted, commits.known]

theorem create_fails {database : Database platform} {createRequest : CreateResourceRequest}
    (valid : ∃ body, platform.parse request.body = some body ∧
      parseCreateRequest platform body = .ok createRequest)
    (refused : ∀ client metadata,
      ¬CreateCommits request database stamp createRequest client metadata) :
    ∃ error, create database request.clientId createRequest stamp =
      { answer := .error error } := by
  rcases create_cases database request.clientId createRequest stamp with
    failed | ⟨client, metadata, resources, clientEq, cast, inserted, executed⟩
  · exact failed
  · cases known : database.clients client with
    | true => exact (refused client metadata
        ⟨valid, clientEq, cast, by rw [inserted]; rfl, known⟩).elim
    | false =>
        simp only [create, clientEq, cast, inserted, known] at executed
        exact absurd (congrArg Executed.written executed) (by simp)

/-- `POST` answers with an error and writes nothing, or commits and answers according to
the nesting of the document. -/
theorem create_served (lawful : platform.Lawful) :
    ∃ response after, serve stamp (createResourceHandler platform request) store =
        some (response, after) ∧
      ((400 ≤ response.status ∧ after.database.resources = store.database.resources ∧
          ∀ createRequest client metadata,
            ¬CreateCommits request store.database stamp createRequest client metadata) ∨
        ∃ createRequest client metadata,
          CreateCommits request store.database stamp createRequest client metadata ∧
          store.database.resources.insert (newRow client createRequest metadata stamp) =
            some after.database.resources ∧
          response.status =
            if (createRequest.metadata.getD (.object [])).depth ≤ kMetadataMaxDepth then 201
            else 500) := by
  unfold createResourceHandler withClient
  split
  · rename_i noClient
    refine ⟨_, _, rfl, Or.inl ⟨unexpected_isError, rfl, fun _ _ _ commits => ?_⟩⟩
    have absent : uuidParam "" = none := by decide
    have found := commits.clientEq
    rw [noClient, absent] at found
    cases found
  unfold withBody
  split
  case h_2 unparsed =>
    refine ⟨_, _, rfl, Or.inl ⟨respondError_isError _ _ _, rfl, fun _ _ _ commits => ?_⟩⟩
    obtain ⟨body, parsed, _⟩ := commits.valid
    rw [unparsed] at parsed
    cases parsed
  case h_1 body parsed =>
    beta_reduce
    split
    · rename_i error invalid
      refine ⟨_, _, rfl, Or.inl ⟨respondError_isError _ _ _, rfl, fun _ _ _ commits => ?_⟩⟩
      obtain ⟨other, otherParsed, valid⟩ := commits.valid
      cases parsed.symm.trans otherParsed
      cases invalid.symm.trans valid
    · rename_i createRequest valid
      simp only [serve, runAlone_create, Option.map_some]
      refine ⟨_, _, rfl, ?_⟩
      by_cases commits : ∃ client metadata,
          CreateCommits request store.database stamp createRequest client metadata
      · right
        obtain ⟨client, metadata, commits⟩ := commits
        obtain ⟨resources, inserted, executed⟩ := create_of_commits commits
        refine ⟨createRequest, client, metadata, commits, ?_, ?_⟩
        · rw [executed]
          exact inserted
        · obtain ⟨resource, decoded, isValue, depthEq⟩ :=
            decodeRow_ok lawful (newRow client createRequest metadata stamp)
          rw [depth_of_cast lawful (isValue_of_create parsed valid) commits.cast] at depthEq
          rw [← depthEq]
          simp only [executed, decoded, createOutcome]
          exact respondResource_status lawful isValue fun _ => rfl
      · left
        have refused : ∀ client metadata,
            ¬CreateCommits request store.database stamp createRequest client metadata :=
          fun client metadata some => commits ⟨client, metadata, some⟩
        obtain ⟨error, failed⟩ := create_fails ⟨body, parsed, valid⟩ refused
        refine ⟨?_, ?_, fun other client metadata some => ?_⟩
        · simp only [failed, createOutcome]
          cases error with
          | uniqueViolation => exact respondError_isError _ _ _
          | invalidCursor error => exact unexpected_isError
          | other => exact unexpected_isError
        · simp only [failed, commit_resources, Option.getD_none]
        · obtain ⟨otherBody, otherParsed, otherValid⟩ := some.valid
          cases parsed.symm.trans otherParsed
          cases valid.symm.trans otherValid
          exact refused client metadata some

/-! ## `PATCH` -/

theorem update_of_commits {database : Database platform} {updateRequest : UpdateResourceRequest}
    {old : Row platform} {metadata : Option platform.Jsonb}
    (commits : UpdateCommits request id database stamp updateRequest old metadata) :
    ∃ resources, database.resources.replace (updatedRow old updateRequest metadata stamp) =
        some resources ∧
      update database request.clientId id updateRequest stamp =
        { answer := (decodeRow (updatedRow old updateRequest metadata stamp)).map some
          written := some resources } := by
  obtain ⟨resources, replaced⟩ := Option.isSome_iff_exists.mp commits.unique
  obtain ⟨client, uuid, clientEq, uuidEq, found⟩ := commits.found
  obtain ⟨body, _, valid⟩ := commits.valid
  obtain ⟨_, _, _, present⟩ := parseUpdateRequest_ok valid
  refine ⟨resources, replaced, ?_⟩
  rw [update, present]
  simp [clientEq, uuidEq, found, commits.cast, replaced]

theorem update_fails {database : Database platform} {updateRequest : UpdateResourceRequest}
    (valid : ∃ body, platform.parse request.body = some body ∧
      parseUpdateRequest platform body = .ok updateRequest) (accepted : isUuid id = true)
    (refused : ∀ old metadata,
      ¬UpdateCommits request id database stamp updateRequest old metadata) :
    (∃ error, update database request.clientId id updateRequest stamp =
        { answer := .error error }) ∨
      update database request.clientId id updateRequest stamp = { answer := .ok none } := by
  rcases update_cases database request.clientId id updateRequest stamp with
    failed | ⟨_, _, _, _, _, absent⟩ |
      ⟨client, uuid, metadata, old, resources, clientEq, uuidEq, cast, found, replaced, _⟩
  · exact Or.inl failed
  · exact Or.inr absent
  · exact (refused old metadata ⟨valid, accepted, ⟨client, uuid, clientEq, uuidEq, found⟩, cast,
      by rw [replaced]; rfl⟩).elim

theorem depth_updatedRow (lawful : platform.Lawful) {updateRequest : UpdateResourceRequest}
    {old : Row platform} {metadata : Option platform.Jsonb}
    (isValue : ∀ document, updateRequest.metadata = some document → platform.IsValue document)
    (cast : castMetadata platform updateRequest.metadata = some metadata) :
    (updatedRow old updateRequest metadata stamp).depth = updateRequest.depthOver old := by
  unfold castMetadata at cast
  unfold UpdateResourceRequest.depthOver
  split at cast
  · rename_i absent
    cases cast
    rw [absent]
    rfl
  · rename_i document present
    obtain ⟨stored, castEq, rfl⟩ := Option.map_eq_some_iff.mp cast
    rw [present]
    exact depth_of_cast lawful (isValue document present) castEq

/-- `PATCH` answers with an error and writes nothing, or commits and answers according to
the nesting of the document. -/
theorem update_served (lawful : platform.Lawful) :
    ∃ response after, serve stamp (updateResourceHandler platform request id) store =
        some (response, after) ∧
      ((400 ≤ response.status ∧ after.database.resources = store.database.resources ∧
          ∀ updateRequest old metadata,
            ¬UpdateCommits request id store.database stamp updateRequest old metadata) ∨
        ∃ updateRequest old metadata,
          UpdateCommits request id store.database stamp updateRequest old metadata ∧
          store.database.resources.replace (updatedRow old updateRequest metadata stamp) =
            some after.database.resources ∧
          response.status =
            if updateRequest.depthOver old ≤ kMetadataMaxDepth then 200 else 500) := by
  unfold updateResourceHandler withClient
  split
  · rename_i noClient
    refine ⟨_, _, rfl, Or.inl ⟨unexpected_isError, rfl, fun _ _ _ commits => ?_⟩⟩
    have absent : uuidParam "" = none := by decide
    obtain ⟨client, _, clientEq, _⟩ := commits.found
    rw [noClient, absent] at clientEq
    cases clientEq
  unfold withUuid
  split
  case isFalse malformed =>
    refine ⟨_, _, rfl, Or.inl ⟨respondError_isError _ _ _, rfl, fun _ _ _ commits => ?_⟩⟩
    exact malformed commits.accepted
  case isTrue accepted =>
    unfold withBody
    split
    case h_2 unparsed =>
      refine ⟨_, _, rfl, Or.inl ⟨respondError_isError _ _ _, rfl, fun _ _ _ commits => ?_⟩⟩
      obtain ⟨body, parsed, _⟩ := commits.valid
      rw [unparsed] at parsed
      cases parsed
    case h_1 body parsed =>
      beta_reduce
      split
      · rename_i error invalid
        refine ⟨_, _, rfl, Or.inl ⟨respondError_isError _ _ _, rfl, fun _ _ _ commits => ?_⟩⟩
        obtain ⟨other, otherParsed, valid⟩ := commits.valid
        cases parsed.symm.trans otherParsed
        cases invalid.symm.trans valid
      · rename_i updateRequest valid
        obtain ⟨after, ran, resourcesEq⟩ := @runAlone_update platform store stamp id
          request.clientId updateRequest
        simp only [serve, ran, Option.map_some]
        refine ⟨_, _, rfl, ?_⟩
        by_cases commits : ∃ old metadata,
            UpdateCommits request id store.database stamp updateRequest old metadata
        · right
          obtain ⟨old, metadata, commits⟩ := commits
          obtain ⟨resources, replaced, executed⟩ := update_of_commits commits
          refine ⟨updateRequest, old, metadata, commits, ?_, ?_⟩
          · rw [resourcesEq, executed]
            exact replaced
          · obtain ⟨resource, decoded, isValue, depthEq⟩ :=
              decodeRow_ok lawful (updatedRow old updateRequest metadata stamp)
            rw [depth_updatedRow lawful (isValue_of_update parsed valid) commits.cast] at depthEq
            rw [← depthEq]
            simp only [executed, decoded, updateOutcome, Except.map]
            exact respondResource_status lawful isValue fun _ => rfl
        · left
          have refused : ∀ old metadata,
              ¬UpdateCommits request id store.database stamp updateRequest old metadata :=
            fun old metadata some => commits ⟨old, metadata, some⟩
          refine ⟨?_, ?_, fun other old metadata some => ?_⟩
          · rcases update_fails ⟨body, parsed, valid⟩ accepted refused with
              ⟨error, failed⟩ | absent
            · simp only [failed, updateOutcome]
              cases error with
              | uniqueViolation => exact respondError_isError _ _ _
              | invalidCursor error => exact unexpected_isError
              | other => exact unexpected_isError
            · simp only [absent, updateOutcome, notFound]
              exact respondError_isError _ _ _
          · rw [resourcesEq]
            rcases update_fails ⟨body, parsed, valid⟩ accepted refused with
              ⟨error, failed⟩ | absent
            · rw [failed]
              rfl
            · rw [absent]
              rfl
          · obtain ⟨otherBody, otherParsed, otherValid⟩ := some.valid
            cases parsed.symm.trans otherParsed
            cases valid.symm.trans otherValid
            exact refused old metadata some

/-! ## When the answers say what happened -/

theorem CreateCommits.determined {database : Database platform}
    {createRequest other : CreateResourceRequest} {client otherClient : Uuid}
    {metadata otherMetadata : platform.Jsonb}
    (commits : CreateCommits request database stamp createRequest client metadata)
    (also : CreateCommits request database stamp other otherClient otherMetadata) :
    other = createRequest := by
  obtain ⟨body, parsed, valid⟩ := commits.valid
  obtain ⟨otherBody, otherParsed, otherValid⟩ := also.valid
  cases parsed.symm.trans otherParsed
  exact Except.ok.inj (otherValid.symm.trans valid)

/-- A committed row is described by the body exactly when its texts reached it whole. -/
theorem newRow_describes {body : Json} {createRequest : CreateResourceRequest} {client : Uuid}
    {metadata : platform.Jsonb} (valid : parseCreateRequest platform body = .ok createRequest)
    (cast : platform.jsonbIn (platform.dump (createRequest.metadata.getD (.object []))) =
      some metadata) :
    (newRow client createRequest metadata stamp).Describes client body ↔
      NulFree createRequest.kind ∧ NulFree createRequest.name ∧
        ∀ status ∈ createRequest.status, NulFree status := by
  obtain ⟨kindEq, nameEq, statusEq, metadataEq⟩ := parseCreateRequest_ok valid
  have statusColumn : TextColumn body "status" "unknown"
      (newRow client createRequest metadata stamp).status ↔
        ∀ status ∈ createRequest.status, NulFree status := by
    rw [textColumn_of_optionalString statusEq]
    cases present : createRequest.status with
    | none => simp [newRow, present, show NulFree "unknown" by decide]
    | some status => simp [newRow, present, cString_eq_self]
  constructor
  · intro describes
    have kindSame := kindEq.symm.trans describes.kind
    have nameSame := nameEq.symm.trans describes.name
    simp only [newRow, Option.some.injEq, Json.string.injEq] at kindSame nameSame
    exact ⟨cString_eq_self.mp kindSame.symm, cString_eq_self.mp nameSame.symm,
      statusColumn.mp describes.status⟩
  · rintro ⟨kindFree, nameFree, statusFree⟩
    refine ⟨rfl, ?_, ?_, statusColumn.mpr statusFree, ?_⟩
    · rw [kindEq, newRow, cString_of_nulFree kindFree]
    · rw [nameEq, newRow, cString_of_nulFree nameFree]
    · rw [metadataColumn_of_optionalObject metadataEq]
      cases present : createRequest.metadata with
      | none =>
          rw [present] at cast
          exact cast.symm
      | some document =>
          rw [present] at cast
          exact cast.symm

theorem create_answered_iff (lawful : platform.Lawful) :
    ∃ response after, serve stamp (createResourceHandler platform request) store =
        some (response, after) ∧
      (CreateAnswered request store.database.resources after.database.resources response ↔
        CreateFaithful request store.database stamp) := by
  obtain ⟨response, after, served, refused | committed⟩ :=
    @create_served _ store stamp request lawful
  · obtain ⟨isError, unchanged, notCommitted⟩ := refused
    refine ⟨response, after, served, fun _ createRequest client metadata commits =>
      (notCommitted createRequest client metadata commits).elim, fun _ => ⟨fun _ => unchanged, ?_⟩⟩
    rintro (ok | created) <;> omega
  · obtain ⟨createRequest, client, metadata, commits, inserted, statusEq⟩ := committed
    refine ⟨response, after, served, ?_⟩
    obtain ⟨body, parsed, valid⟩ := commits.valid
    have describes := @newRow_describes _ stamp body createRequest client metadata valid
      commits.cast
    have isNew : newRow client createRequest metadata stamp ∉ store.database.resources.rows :=
      fun member => Table.id_new_of_insert inserted _ member rfl
    have present := (Table.mem_insert inserted).mpr
      (Or.inr (rfl : newRow client createRequest metadata stamp = _))
    constructor
    · intro answered other otherClient otherMetadata also
      obtain rfl := commits.determined also
      have shallow : (other.metadata.getD (.object [])).depth ≤ kMetadataMaxDepth := by
        by_contra deep
        rw [if_neg deep] at statusEq
        have same := answered.1 (by omega)
        rw [same] at present
        exact isNew present
      rw [if_pos shallow] at statusEq
      obtain ⟨otherBody, ofClient, row, otherParsed, clientEq, rowDescribes, _, rows⟩ :=
        answered.2 (Or.inr statusEq)
      cases parsed.symm.trans otherParsed
      cases commits.clientEq.symm.trans clientEq
      have isRow : newRow client other metadata stamp = row :=
        ((rows _).mp present).resolve_left isNew
      rw [← isRow] at rowDescribes
      exact ⟨shallow, describes.mp rowDescribes⟩
    · intro faithful
      obtain ⟨shallow, nulFree⟩ := faithful createRequest client metadata commits
      rw [if_pos shallow] at statusEq
      refine ⟨fun isError => by omega, fun _ => ?_⟩
      exact ⟨body, client, _, parsed, commits.clientEq, describes.mpr nulFree, isNew,
        fun other => Table.mem_insert inserted⟩

theorem UpdateCommits.determined {database : Database platform}
    {updateRequest other : UpdateResourceRequest} {old otherOld : Row platform}
    {metadata otherMetadata : Option platform.Jsonb}
    (commits : UpdateCommits request id database stamp updateRequest old metadata)
    (also : UpdateCommits request id database stamp other otherOld otherMetadata) :
    other = updateRequest ∧ otherOld = old ∧ otherMetadata = metadata := by
  obtain ⟨body, parsed, valid⟩ := commits.valid
  obtain ⟨otherBody, otherParsed, otherValid⟩ := also.valid
  cases parsed.symm.trans otherParsed
  obtain rfl := Except.ok.inj (otherValid.symm.trans valid)
  obtain ⟨client, uuid, clientEq, uuidEq, found⟩ := commits.found
  obtain ⟨otherClient, otherUuid, otherClientEq, otherUuidEq, otherFound⟩ := also.found
  cases clientEq.symm.trans otherClientEq
  cases uuidEq.symm.trans otherUuidEq
  exact ⟨rfl, Option.some.inj (otherFound.symm.trans found),
    Option.some.inj (also.cast.symm.trans commits.cast)⟩

/-- An optional text that replaces a column. -/
theorem replaced_text {text : Option String} {old : String} :
    (text.map cString).getD old = text.getD old ↔ ∀ value ∈ text, NulFree value := by
  cases text with
  | none => simp
  | some value => simp [cString_eq_self]

/-- A committed row is changed as the body says exactly when its texts reached it whole. -/
theorem updatedRow_changes {body : Json} {updateRequest : UpdateResourceRequest}
    {old : Row platform} {metadata : Option platform.Jsonb}
    (valid : parseUpdateRequest platform body = .ok updateRequest)
    (cast : castMetadata platform updateRequest.metadata = some metadata) :
    (updatedRow old updateRequest metadata stamp).Changes old body ↔
      (∀ name ∈ updateRequest.name, NulFree name) ∧
        ∀ status ∈ updateRequest.status, NulFree status := by
  obtain ⟨nameEq, statusEq, metadataEq, _⟩ := parseUpdateRequest_ok valid
  constructor
  · intro changes
    exact ⟨replaced_text.mp ((textColumn_of_optionalString nameEq).mp changes.name),
      replaced_text.mp ((textColumn_of_optionalString statusEq).mp changes.status)⟩
  · rintro ⟨nameFree, statusFree⟩
    refine ⟨rfl, rfl, rfl, rfl, ?_, ?_, ?_⟩
    · exact (textColumn_of_optionalString nameEq).mpr (replaced_text.mpr nameFree)
    · exact (textColumn_of_optionalString statusEq).mpr (replaced_text.mpr statusFree)
    · rw [metadataColumn_of_optionalObject metadataEq]
      unfold castMetadata at cast
      split at cast
      · rename_i absent
        cases cast
        rw [absent]
        rfl
      · rename_i document present
        obtain ⟨stored, castEq, rfl⟩ := Option.map_eq_some_iff.mp cast
        rw [present]
        exact castEq.symm

theorem update_answered_iff (lawful : platform.Lawful) :
    ∃ response after, serve stamp (updateResourceHandler platform request id) store =
        some (response, after) ∧
      (UpdateAnswered request id store.database.resources after.database.resources response ↔
        UpdateFaithful request id store.database stamp) := by
  obtain ⟨response, after, served, refused | committed⟩ :=
    @update_served _ store stamp request id lawful
  · obtain ⟨isError, unchanged, notCommitted⟩ := refused
    refine ⟨response, after, served, fun _ updateRequest old metadata commits =>
      (notCommitted updateRequest old metadata commits).elim, fun _ => ⟨fun _ => unchanged, ?_⟩⟩
    rintro (ok | created) <;> omega
  · obtain ⟨updateRequest, old, metadata, commits, replaced, statusEq⟩ := committed
    refine ⟨response, after, served, ?_⟩
    obtain ⟨body, parsed, valid⟩ := commits.valid
    obtain ⟨client, uuid, clientEq, uuidEq, found⟩ := commits.found
    have oldIn := (Table.find_eq_some.mp found).1
    have changes := @updatedRow_changes _ stamp body updateRequest old metadata valid commits.cast
    have rows := fun other => @Table.mem_replace _ _ _ old _ other replaced oldIn rfl
    have present := (rows _).mpr (Or.inr rfl)
    have isNew : updatedRow old updateRequest metadata stamp ∈ store.database.resources.rows →
        updatedRow old updateRequest metadata stamp = old :=
      fun member => Table.eq_of_id member oldIn rfl
    constructor
    · intro answered other otherOld otherMetadata also
      obtain ⟨rfl, rfl, rfl⟩ := commits.determined also
      by_cases shallow : other.depthOver otherOld ≤ kMetadataMaxDepth
      · left
        rw [if_pos shallow] at statusEq
        obtain ⟨otherBody, ofClient, ofId, before, new, otherParsed, otherClientEq, otherUuidEq,
          beforeFound, newChanges, beforeIn, newRows⟩ := answered.2 (Or.inl statusEq)
        cases parsed.symm.trans otherParsed
        cases clientEq.symm.trans otherClientEq
        cases uuidEq.symm.trans otherUuidEq
        cases found.symm.trans beforeFound
        have isRow : updatedRow otherOld other otherMetadata stamp = new := by
          refine ((newRows _).mp present).resolve_left ?_
          rintro ⟨member, different⟩
          exact different (isNew member)
        rw [← isRow] at newChanges
        exact ⟨shallow, changes.mp newChanges⟩
      · right
        rw [if_neg shallow] at statusEq
        have same := answered.1 (by omega)
        rw [same] at present
        exact ⟨Nat.lt_of_not_le shallow, isNew present⟩
    · intro faithful
      rcases faithful updateRequest old metadata commits with ⟨shallow, nulFree⟩ | ⟨deep, same⟩
      · rw [if_pos shallow] at statusEq
        refine ⟨fun isError => by omega, fun _ => ?_⟩
        refine ⟨body, client, uuid, old, _, parsed, clientEq, uuidEq, found, changes.mpr nulFree,
          oldIn, fun other => (rows other).trans (or_congr_left (and_congr_right fun member => ?_))⟩
        exact not_congr ⟨fun sameId => Table.eq_of_id member oldIn sameId, fun isOld => isOld ▸ rfl⟩
      · rw [if_neg (Nat.not_le_of_lt deep)] at statusEq
        refine ⟨fun _ => ?_, fun success => by omega⟩
        rw [same] at replaced
        exact Table.eq_of_replace_self replaced oldIn

/-- With Redis and Postgres healthy, `POST` and `PATCH` always answer; an error means that
nothing was written and a success that exactly the described row was, if and only if a
write that Postgres accepts has a document that can be answered with and texts without
NUL (or is a change of nothing). -/
theorem write_answered_iff (lawful : platform.Lawful) (request : HttpRequest) (id : String)
    (store : Store platform) (stamp : Stamp) :
    (∃ response after, serve stamp (createResourceHandler platform request) store =
        some (response, after) ∧
      (CreateAnswered request store.database.resources after.database.resources response ↔
        CreateFaithful request store.database stamp)) ∧
    ∃ response after, serve stamp (updateResourceHandler platform request id) store =
        some (response, after) ∧
      (UpdateAnswered request id store.database.resources after.database.resources response ↔
        UpdateFaithful request id store.database stamp) :=
  ⟨create_answered_iff lawful, update_answered_iff lawful⟩

def sampleHttpRequest : HttpRequest where
  method := "PATCH"
  path := "/v1/resources/" ++ sampleIdText
  body := "\x7b\"status\":\"down\"\x7d"
  clientId := sampleClientText

theorem write_answered_iff_sample :
    ∃ response after, serve sampleChoice.stamp
        (updateResourceHandler Platform.reference sampleHttpRequest sampleIdText) sampleStore =
        some (response, after) ∧
      (UpdateAnswered sampleHttpRequest sampleIdText sampleStore.database.resources
          after.database.resources response ↔
        UpdateFaithful sampleHttpRequest sampleIdText sampleStore.database sampleChoice.stamp) :=
  (write_answered_iff Platform.reference_lawful sampleHttpRequest sampleIdText sampleStore
    sampleChoice.stamp).2

/-! ## A document nested too deeply -/

/-- Objects in objects. -/
def nested : Nat → Json
  | 0 => .object []
  | levels + 1 => .object [("a", nested levels)]

theorem depth_nested (levels : Nat) : (nested levels).depth = levels + 1 := by
  induction levels with
  | zero => rfl
  | succ levels ih =>
      simp only [nested, Json.depth, Json.depthFields, ih]
      omega

theorem nested_fields (levels : Nat) : ∃ fields, nested levels = .object fields := by
  cases levels with
  | zero => exact ⟨_, rfl⟩
  | succ levels => exact ⟨_, rfl⟩

theorem print_nested (levels : Nat) : Json.print [] (nested (levels + 1)) =
    "\x7b\"a\":" ++ Json.print [] (nested levels) ++ "\x7d" := by
  apply String.toList_inj.mp
  have quoted : Json.quote "a" = ['"', 'a', '"'] := by decide
  simp [Json.print, nested, Json.printChars, Json.printFields, quoted, String.toList_append]

theorem size_nested (levels : Nat) :
    (Json.print [] (nested levels)).utf8ByteSize = 6 * levels + 2 := by
  induction levels with
  | zero => decide
  | succ levels ih =>
      have opening : "\x7b\"a\":".utf8ByteSize = 5 := by decide
      have closing : "\x7d".utf8ByteSize = 1 := by decide
      rw [print_nested, String.utf8ByteSize_append, String.utf8ByteSize_append, ih, opening,
        closing]
      omega

def deepRequest (levels : Nat) : CreateResourceRequest where
  kind := "vm"
  name := "db"
  status := none
  metadata := some (nested levels)

def deepBody (levels : Nat) : Json :=
  .object [("kind", .string "vm"), ("metadata", nested levels), ("name", .string "db")]

/-- Each level takes six bytes, so that the bound on the size admits thousands. -/
theorem deepBody_valid {levels : Nat} (fits : 6 * levels + 2 ≤ kMetadataMaxBytes) :
    parseCreateRequest Platform.reference (deepBody levels) = .ok (deepRequest levels) := by
  obtain ⟨fields, fieldsEq⟩ := nested_fields levels
  have metadata : optionalObject (deepBody levels) "metadata" = .ok (some (nested levels)) := by
    have found : (deepBody levels).field? "metadata" = some (nested levels) := rfl
    rw [optionalObject, found, fieldsEq]
  have metadataFits : validateMetadata Platform.reference (nested levels) = .ok () := by
    have size : (Platform.reference.dump (nested levels)).utf8ByteSize = 6 * levels + 2 :=
      size_nested levels
    have isObject : (nested levels).isObject = true := by
      rw [fieldsEq]
      rfl
    rw [validateMetadata, isObject, size, if_neg (by simp), if_neg (by omega)]
  have kind : requireString (deepBody levels) "kind" = .ok "vm" := rfl
  have name : requireString (deepBody levels) "name" = .ok "db" := rfl
  have status : optionalString (deepBody levels) "status" = .ok none := rfl
  have kindFits : validateKind "vm" = .ok () := rfl
  have nameFits : validateName "db" = .ok () := rfl
  have isObject : (deepBody levels).isObject = true := rfl
  simp only [parseCreateRequest, isObject, kind, name, status, metadata, kindFits, nameFits,
    validateIfPresent, metadataFits, bind, Except.bind]
  rfl

def deepHttpRequest (levels : Nat) : HttpRequest where
  method := "POST"
  path := "/v1/resources"
  body := Platform.reference.dump (deepBody levels)
  clientId := sampleClientText

def deepStamp : Stamp where
  freshId := sampleClient
  now := sampleNow

theorem deep_commits {levels : Nat} (fits : 6 * levels + 2 ≤ kMetadataMaxBytes) :
    CreateCommits (deepHttpRequest levels) sampleStore.database deepStamp (deepRequest levels)
      sampleClient (nested levels) where
  valid := ⟨deepBody levels, Platform.read_dump (deepBody levels),
    deepBody_valid fits⟩
  clientEq := by
    have read : uuidParam sampleClientText = some sampleClient := by decide
    exact read
  cast := Platform.read_dump (nested levels)
  unique := by
    have ids : [sampleId, sampleClient].Nodup := by decide
    have names : [(sampleClient, "web"), (sampleClient, cString "db")].Nodup := by decide
    rw [Table.insert, Table.ofRows?, dif_pos ⟨ids, names⟩]
    rfl
  known := rfl

/-- An error answer means that nothing was written, and a success that exactly the
described row was. -/
def WritesAnswered : Prop :=
  ∀ (platform : Platform) (request : HttpRequest) (id : String) (store : Store platform)
    (stamp : Stamp) (response : Response) (after : Store platform), platform.Lawful →
    (serve stamp (createResourceHandler platform request) store = some (response, after) →
      CreateAnswered request store.database.resources after.database.resources response) ∧
    (serve stamp (updateResourceHandler platform request id) store = some (response, after) →
      UpdateAnswered request id store.database.resources after.database.resources response)

/-- The answer to a body with 1000 levels of metadata is an error, and the row is there. -/
theorem not_writesAnswered : ¬WritesAnswered := by
  intro promise
  obtain ⟨response, after, served, answered⟩ := @create_answered_iff _ sampleStore deepStamp
    (deepHttpRequest 999) Platform.reference_lawful
  have faithful := answered.mp ((promise Platform.reference (deepHttpRequest 999) "" sampleStore
    deepStamp response after Platform.reference_lawful).1 served)
  have shallow := (faithful _ _ _ (deep_commits (by decide))).1
  have depth : ((deepRequest 999).metadata.getD (.object [])).depth = 1000 := depth_nested 999
  rw [depth] at shallow
  exact absurd shallow (by decide)

end Corvus.Resources
