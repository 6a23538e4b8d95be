import Corvus.Resources.WriteAnswer

/-!
# What the stored rows look like

The checks bound the fields of a request.  What is stored is less for a text with a
NUL, and for a document what Postgres gives back, whose numbers may be longer.  Where
no text begins with a NUL and no document grows, every row of every run keeps the bounds of
the checks.
-/

namespace Corvus.Resources

open Corvus.Db

variable {platform : Platform}

/-! ## Texts that are cut -/

theorem cString_size_le (text : String) : (cString text).utf8ByteSize ≤ text.utf8ByteSize := by
  have split : cString text ++
      String.ofList (text.toList.dropWhile fun char => char != '\x00') = text := by
    rw [cString, ← String.ofList_append, List.takeWhile_append_dropWhile, String.ofList_toList]
  have size := congrArg String.utf8ByteSize split
  rw [String.utf8ByteSize_append] at size
  omega

/-- The text begins with a NUL, so that nothing of it is stored. -/
def StartsWithNul (text : String) : Prop :=
  text.toList.head? = some '\x00'

instance (text : String) : Decidable (StartsWithNul text) :=
  inferInstanceAs (Decidable (_ = _))

theorem cString_ne_empty {text : String} (nonempty : text ≠ "") (starts : ¬StartsWithNul text) :
    cString text ≠ "" := by
  intro empty
  have taken : text.toList.takeWhile (fun char => char != '\x00') = [] := by
    simpa [cString] using empty
  cases listEq : text.toList with
  | nil => exact nonempty (by simpa using listEq)
  | cons first rest =>
      rw [listEq] at taken
      have isNul : first = '\x00' := by simpa using taken
      exact starts (by rw [StartsWithNul, listEq, isNul, List.head?_cons])

/-! ## Valid rows -/

/-- The bounds of a text column. -/
def TextFits (max : Nat) (text : String) : Prop :=
  1 ≤ text.utf8ByteSize ∧ text.utf8ByteSize ≤ max

instance (max : Nat) (text : String) : Decidable (TextFits max text) :=
  inferInstanceAs (Decidable (_ ∧ _))

/-- The bounds of a document. -/
def DocumentFits (platform : Platform) (document : Json) : Prop :=
  document.isObject = true ∧ (platform.dump document).utf8ByteSize ≤ kMetadataMaxBytes

structure Row.Valid (row : Row platform) : Prop where
  kind : TextFits kKindMaxLen row.kind
  name : TextFits kNameMaxLen row.name
  status : TextFits kStatusMaxLen row.status
  metadata : ∃ document, platform.parse (platform.jsonbOut row.metadata) = some document ∧
    DocumentFits platform document

/-- No two rows of one client share a name. -/
def NamesDistinct (table : Table platform) : Prop :=
  ∀ left ∈ table.rows, ∀ right ∈ table.rows, left.clientId = right.clientId →
    left.name = right.name → left = right

theorem namesDistinct (table : Table platform) : NamesDistinct table := by
  intro left leftIn right rightIn sameClient sameName
  refine List.inj_on_of_nodup_map table.names_unique leftIn rightIn ?_
  rw [Row.clientName, Row.clientName, sameClient, sameName]

/-- The columns that are set once. -/
structure SameOrigin (left right : Row platform) : Prop where
  kind : left.kind = right.kind
  clientId : left.clientId = right.clientId
  createdAt : left.createdAt = right.createdAt

/-- A table has one row for an id. -/
theorem SameOrigin.of_table {table : Table platform} {old new : Row platform}
    (oldIn : old ∈ table.rows) (newIn : new ∈ table.rows) (sameId : old.id = new.id) :
    SameOrigin new old := by
  obtain rfl := Table.eq_of_id oldIn newIn sameId
  exact ⟨rfl, rfl, rfl⟩

theorem SameOrigin.trans {first second third : Row platform} (later : SameOrigin first second)
    (earlier : SameOrigin second third) : SameOrigin first third :=
  ⟨later.kind.trans earlier.kind, later.clientId.trans earlier.clientId,
    later.createdAt.trans earlier.createdAt⟩

/-! ## What the checks guarantee -/

theorem bounds_of_validateText {field value : String} {max : Nat}
    (valid : validateText field max value = .ok ()) :
    value ≠ "" ∧ value.utf8ByteSize ≤ max := by
  simp only [validateText, requireNonEmpty, requireMaxLength] at valid
  obtain ⟨_, nonempty, bounded⟩ := ok_of_bind valid
  split at nonempty
  · cases nonempty
  rename_i isText
  split at bounded
  · cases bounded
  · rename_i short
    exact ⟨isText, Nat.le_of_not_lt short⟩

theorem bounds_of_validateMetadata {metadata : Json}
    (valid : validateMetadata platform metadata = .ok ()) : DocumentFits platform metadata := by
  unfold validateMetadata at valid
  split at valid
  · cases valid
  rename_i isObject
  split at valid
  · cases valid
  · rename_i short
    exact ⟨by simpa using isObject, Nat.le_of_not_lt short⟩

theorem of_validateIfPresent {α : Type} {check : α → Validated Unit} {value : Option α}
    (valid : validateIfPresent check value = .ok ()) :
    ∀ present ∈ value, check present = .ok () := by
  rintro present ⟨⟩
  exact valid

/-- The bounds a checked request keeps. -/
structure CreateResourceRequest.Checked (platform : Platform)
    (request : CreateResourceRequest) : Prop where
  kind : request.kind ≠ "" ∧ request.kind.utf8ByteSize ≤ kKindMaxLen
  name : request.name ≠ "" ∧ request.name.utf8ByteSize ≤ kNameMaxLen
  status : ∀ status ∈ request.status, status ≠ "" ∧ status.utf8ByteSize ≤ kStatusMaxLen
  metadata : ∀ metadata ∈ request.metadata, DocumentFits platform metadata

structure UpdateResourceRequest.Checked (platform : Platform)
    (request : UpdateResourceRequest) : Prop where
  name : ∀ name ∈ request.name, name ≠ "" ∧ name.utf8ByteSize ≤ kNameMaxLen
  status : ∀ status ∈ request.status, status ≠ "" ∧ status.utf8ByteSize ≤ kStatusMaxLen
  metadata : ∀ metadata ∈ request.metadata, DocumentFits platform metadata

theorem checked_of_parseCreateRequest {body : Json} {request : CreateResourceRequest}
    (parsed : parseCreateRequest platform body = .ok request) : request.Checked platform := by
  simp only [parseCreateRequest] at parsed
  split at parsed
  · cases parsed
  obtain ⟨kind, _, parsed⟩ := ok_of_bind parsed
  obtain ⟨name, _, parsed⟩ := ok_of_bind parsed
  obtain ⟨status, _, parsed⟩ := ok_of_bind parsed
  obtain ⟨metadata, _, parsed⟩ := ok_of_bind parsed
  obtain ⟨_, kindValid, parsed⟩ := ok_of_bind parsed
  obtain ⟨_, nameValid, parsed⟩ := ok_of_bind parsed
  obtain ⟨_, statusValid, parsed⟩ := ok_of_bind parsed
  obtain ⟨_, metadataValid, parsed⟩ := ok_of_bind parsed
  cases parsed
  exact {
    kind := bounds_of_validateText kindValid
    name := bounds_of_validateText nameValid
    status := fun value present =>
      bounds_of_validateText (of_validateIfPresent statusValid value present)
    metadata := fun value present =>
      bounds_of_validateMetadata (of_validateIfPresent metadataValid value present) }

theorem checked_of_parseUpdateRequest {body : Json} {request : UpdateResourceRequest}
    (parsed : parseUpdateRequest platform body = .ok request) : request.Checked platform := by
  simp only [parseUpdateRequest] at parsed
  split at parsed
  · cases parsed
  obtain ⟨name, _, parsed⟩ := ok_of_bind parsed
  obtain ⟨status, _, parsed⟩ := ok_of_bind parsed
  obtain ⟨metadata, _, parsed⟩ := ok_of_bind parsed
  split at parsed
  · cases parsed
  obtain ⟨_, nameValid, parsed⟩ := ok_of_bind parsed
  obtain ⟨_, statusValid, parsed⟩ := ok_of_bind parsed
  obtain ⟨_, metadataValid, parsed⟩ := ok_of_bind parsed
  cases parsed
  exact {
    name := fun value present =>
      bounds_of_validateText (of_validateIfPresent nameValid value present)
    status := fun value present =>
      bounds_of_validateText (of_validateIfPresent statusValid value present)
    metadata := fun value present =>
      bounds_of_validateMetadata (of_validateIfPresent metadataValid value present) }

/-! ## What the statements store -/

/-- What the service relies on in `jsonb`: objects stay objects, and the empty one stays
empty. -/
structure KeepsObjects (platform : Platform) : Prop where
  isObject : ∀ document stored back, platform.jsonbIn (platform.dump document) = some stored →
    platform.parse (platform.jsonbOut stored) = some back → back.isObject = document.isObject
  empty : ∀ stored back, platform.jsonbIn (platform.dump (.object [])) = some stored →
    platform.parse (platform.jsonbOut stored) = some back → back = .object []
  short : (platform.dump (.object [])).utf8ByteSize ≤ kMetadataMaxBytes

/-- The document Postgres gives back for this one is no longer. -/
def NoLonger (platform : Platform) (document : Json) : Prop :=
  ∀ stored back, platform.jsonbIn (platform.dump document) = some stored →
    platform.parse (platform.jsonbOut stored) = some back →
    (platform.dump back).utf8ByteSize ≤ (platform.dump document).utf8ByteSize

theorem textFits_cString {text : String} {max : Nat}
    (bounds : text ≠ "" ∧ text.utf8ByteSize ≤ max) (starts : ¬StartsWithNul text) :
    TextFits max (cString text) := by
  have nonempty := cString_ne_empty bounds.1 starts
  have size := cString_size_le text
  refine ⟨Nat.pos_of_ne_zero fun isZero => ?_, size.trans bounds.2⟩
  exact nonempty (String.utf8ByteSize_eq_zero_iff.mp isZero)

theorem documentFits_of_cast (reads : platform.ReadsDocuments) (keeps : KeepsObjects platform)
    {document : Json} {stored : platform.Jsonb}
    (cast : platform.jsonbIn (platform.dump document) = some stored)
    (fits : DocumentFits platform document) (noLonger : NoLonger platform document) :
    ∃ back, platform.parse (platform.jsonbOut stored) = some back ∧
      DocumentFits platform back := by
  obtain ⟨back, parsed⟩ := reads.parse_jsonb_out stored
  have backIsObject := keeps.isObject document stored back cast parsed
  exact ⟨back, parsed, backIsObject.trans fits.1,
    (noLonger stored back cast parsed).trans fits.2⟩

theorem noLonger_empty (keeps : KeepsObjects platform) : NoLonger platform (.object []) := by
  intro stored back cast parsed
  rw [keeps.empty stored back cast parsed]

/-- No text of a request begins with a NUL, and no document grows when it is stored. -/
def Request.StoresWhole (platform : Platform) : Request → Prop
  | .create _ request =>
      ¬StartsWithNul request.kind ∧ ¬StartsWithNul request.name ∧
        (∀ status ∈ request.status, ¬StartsWithNul status) ∧
        ∀ metadata ∈ request.metadata, NoLonger platform metadata
  | .update _ _ request =>
      (∀ name ∈ request.name, ¬StartsWithNul name) ∧
        (∀ status ∈ request.status, ¬StartsWithNul status) ∧
        ∀ metadata ∈ request.metadata, NoLonger platform metadata
  | _ => True

theorem newRow_valid (reads : platform.ReadsDocuments) (keeps : KeepsObjects platform)
    {clientId : String} {client : Uuid} {request : CreateResourceRequest}
    {metadata : platform.Jsonb} {stamp : Stamp} (checked : request.Checked platform)
    (whole : (Request.create clientId request).StoresWhole platform)
    (cast : platform.jsonbIn (platform.dump (request.metadata.getD (.object []))) =
      some metadata) : (newRow client request metadata stamp).Valid where
  kind := textFits_cString checked.kind whole.1
  name := textFits_cString checked.name whole.2.1
  status := by
    cases statusEq : request.status with
    | none =>
        simp only [newRow, statusEq, Option.getD_none]
        exact textFits_cString (by decide) (by decide)
    | some status =>
        simp only [newRow, statusEq, Option.getD_some]
        exact textFits_cString (checked.status status statusEq) (whole.2.2.1 status statusEq)
  metadata := by
    cases metadataEq : request.metadata with
    | none =>
        rw [metadataEq] at cast
        exact documentFits_of_cast reads keeps cast ⟨rfl, keeps.short⟩ (noLonger_empty keeps)
    | some document =>
        rw [metadataEq] at cast
        exact documentFits_of_cast reads keeps cast (checked.metadata document metadataEq)
          (whole.2.2.2 document metadataEq)

theorem updatedRow_valid (reads : platform.ReadsDocuments) (keeps : KeepsObjects platform)
    {clientId id : String} {request : UpdateResourceRequest} {old : Row platform}
    {metadata : Option platform.Jsonb} {stamp : Stamp} (checked : request.Checked platform)
    (whole : (Request.update clientId id request).StoresWhole platform)
    (cast : castMetadata platform request.metadata = some metadata) (valid : old.Valid) :
    (updatedRow old request metadata stamp).Valid where
  kind := valid.kind
  name := by
    cases nameEq : request.name with
    | none => simpa only [updatedRow, nameEq, Option.map_none, Option.getD_none] using valid.name
    | some name =>
        simp only [updatedRow, nameEq, Option.map_some, Option.getD_some]
        exact textFits_cString (checked.name name nameEq) (whole.1 name nameEq)
  status := by
    cases statusEq : request.status with
    | none =>
        simpa only [updatedRow, statusEq, Option.map_none, Option.getD_none] using valid.status
    | some status =>
        simp only [updatedRow, statusEq, Option.map_some, Option.getD_some]
        exact textFits_cString (checked.status status statusEq) (whole.2.1 status statusEq)
  metadata := by
    cases metadataEq : request.metadata with
    | none =>
        rw [metadataEq] at cast
        cases cast
        exact valid.metadata
    | some document =>
        rw [metadataEq] at cast
        obtain ⟨stored, castEq, rfl⟩ := Option.map_eq_some_iff.mp cast
        exact documentFits_of_cast reads keeps castEq (checked.metadata document metadataEq)
          (whole.2.2 document metadataEq)

/-! ## What a step makes of the table -/

/-- The statements a step of a call can have executed. -/
inductive TableStep (request : Request) (before : Table platform) : Table platform → Prop where
  | same : TableStep request before before
  | inserted {clientId : String} {createRequest : CreateResourceRequest} {client : Uuid}
      {metadata : platform.Jsonb} {stamp : Stamp} {after : Table platform}
      (requestEq : request = .create clientId createRequest)
      (cast : platform.jsonbIn (platform.dump (createRequest.metadata.getD (.object []))) =
        some metadata)
      (stored : before.insert (newRow client createRequest metadata stamp) = some after) :
      TableStep request before after
  | replaced {clientId id : String} {updateRequest : UpdateResourceRequest} {old : Row platform}
      {metadata : Option platform.Jsonb} {stamp : Stamp} {after : Table platform}
      (requestEq : request = .update clientId id updateRequest)
      (cast : castMetadata platform updateRequest.metadata = some metadata)
      (present : old ∈ before.rows)
      (stored : before.replace (updatedRow old updateRequest metadata stamp) = some after) :
      TableStep request before after
  | deleted {client uuid : Uuid} : TableStep request before (before.delete client uuid)

/-- What a transaction leaves on a faulty connection is what it leaves, or nothing. -/
theorem under_written {Answer : Type} (executed : Executed platform Answer) (fault : Fault) :
    (executed.under fault).written = none ∨
      (executed.under fault).written = executed.written := by
  cases fault with
  | healthy => exact Or.inr rfl
  | refused => exact Or.inl rfl
  | replyLost => exact Or.inr rfl

theorem TableStep.of_commit {Answer : Type} {request : Request} {store : Store platform}
    {executed : Executed platform Answer} (fault : Fault) (result : Outcome)
    (written : TableStep request store.database.resources
      (executed.written.getD store.database.resources)) :
    TableStep request store.database.resources
      (store.commit (executed.under fault) result).database.resources := by
  rw [commit_resources]
  rcases under_written executed fault with nothing | same
  · rw [nothing]
    exact .same
  · rw [same]
    exact written

theorem TableStep.of_create {call next : Call platform} {choice : Choice}
    {store after : Store platform} {clientId : String} {request : CreateResourceRequest}
    (requestEq : call.request = .create clientId request)
    (stepped : call.createStep clientId request choice store = some (next, after)) :
    TableStep call.request store.database.resources after.database.resources := by
  unfold Call.createStep at stepped
  split at stepped
  case h_2 => cases stepped
  case h_1 =>
      cases stepped
      apply TableStep.of_commit
      rcases create_cases store.database clientId request choice.stamp with
        ⟨error, failed⟩ | ⟨client, metadata, resources, _, cast, inserted, wrote⟩
      · rw [failed]
        exact .same
      · rw [wrote]
        exact .inserted requestEq cast inserted

theorem TableStep.of_update {call next : Call platform} {choice : Choice}
    {store after : Store platform} {clientId id : String} {request : UpdateResourceRequest}
    (requestEq : call.request = .update clientId id request)
    (stepped : call.updateStep clientId id request choice store = some (next, after)) :
    TableStep call.request store.database.resources after.database.resources := by
  have written : TableStep call.request store.database.resources
      ((update store.database clientId id request choice.stamp).written.getD
        store.database.resources) := by
    rcases update_cases store.database clientId id request choice.stamp with
      ⟨error, failed⟩ | ⟨_, _, _, _, _, absent⟩ |
        ⟨client, uuid, metadata, old, resources, _, _, cast, found, replaced, wrote⟩
    · rw [failed]
      exact .same
    · rw [absent]
      exact .same
    · rw [wrote]
      exact .replaced requestEq cast (Table.find_eq_some.mp found).1 replaced
  unfold Call.updateStep at stepped
  split at stepped
  case h_1 =>
      simp only at stepped
      split at stepped <;> cases stepped <;> exact TableStep.of_commit choice.sql _ written
  case h_2 =>
      cases stepped
      exact .same
  case h_3 => cases stepped

theorem TableStep.of_remove {call next : Call platform} {choice : Choice}
    {store after : Store platform} {clientId id : String}
    (stepped : call.removeStep clientId id choice store = some (next, after)) :
    TableStep call.request store.database.resources after.database.resources := by
  have written : TableStep call.request store.database.resources
      ((remove store.database clientId id).written.getD store.database.resources) := by
    rcases remove_cases store.database clientId id with
      ⟨error, failed⟩ | ⟨_, _, _, _, _, absent⟩ | ⟨client, uuid, old, _, _, found, wrote⟩
    · rw [failed]
      exact .same
    · rw [absent]
      exact .same
    · rw [wrote]
      exact .deleted
  unfold Call.removeStep at stepped
  split at stepped
  case h_1 =>
      simp only at stepped
      split at stepped <;> cases stepped <;> exact TableStep.of_commit choice.sql _ written
  case h_2 =>
      cases stepped
      exact .same
  case h_3 => cases stepped

/-- A step of a read changes no row. -/
theorem resources_of_read {call next : Call platform} {choice : Choice}
    {store after : Store platform} (stepped : ServiceStep call choice store next after)
    (noCreate : ∀ clientId request, call.request ≠ .create clientId request)
    (noWrite : ∀ clientId id, ¬call.request.Writes clientId id) :
    after.database.resources = store.database.resources := by
  cases stepped
  case created requestEq _ _ _ => exact (noCreate _ _ requestEq).elim
  case written requestEq _ _ _ => exact (noWrite _ _ requestEq).elim
  all_goals rfl

theorem TableStep.of_step {call next : Call platform} {choice : Choice}
    {store after : Store platform} (stepped : call.step choice store = some (next, after)) :
    TableStep call.request store.database.resources after.database.resources := by
  have step := ServiceStep.of_step stepped
  unfold Call.step at stepped
  cases requestEq : call.request with
  | create clientId request =>
      rw [← requestEq]
      exact .of_create requestEq (by rwa [requestEq] at stepped)
  | update clientId id request =>
      rw [← requestEq]
      exact .of_update requestEq (by rwa [requestEq] at stepped)
  | remove clientId id =>
      rw [← requestEq]
      exact .of_remove (by rwa [requestEq] at stepped)
  | get clientId id =>
      rw [resources_of_read step (by simp [requestEq]) (by simp [requestEq, Request.Writes])]
      exact .same
  | list clientId filter =>
      rw [resources_of_read step (by simp [requestEq]) (by simp [requestEq, Request.Writes])]
      exact .same

/-! ## What a step preserves -/

variable {request : Request} {before after : Table platform}

/-- The columns that are set once stay as they are, as long as the row is there. -/
theorem TableStep.sameOrigin (stepped : TableStep request before after) {old new : Row platform}
    (oldIn : old ∈ before.rows) (newIn : new ∈ after.rows) (sameId : old.id = new.id) :
    SameOrigin new old := by
  have kept : new ∈ before.rows → SameOrigin new old :=
    fun present => .of_table oldIn present sameId
  cases stepped with
  | same => exact kept newIn
  | inserted _ _ stored =>
      rcases (Table.mem_insert stored).mp newIn with present | isNew
      · exact kept present
      · rw [isNew] at sameId
        exact (Table.id_new_of_insert stored old oldIn sameId).elim
  | @replaced _ _ _ replacedRow _ _ _ _ _ present stored =>
      rcases (Table.mem_replace stored present rfl).mp newIn with ⟨kept', _⟩ | isNew
      · exact kept kept'
      · subst isNew
        obtain rfl := Table.eq_of_id oldIn present sameId
        exact ⟨rfl, rfl, rfl⟩
  | deleted => exact kept (Table.mem_delete.mp newIn).1

/-- A request whose checks were made. -/
def Request.Checked (platform : Platform) : Request → Prop
  | .create _ request => request.Checked platform
  | .update _ _ request => request.Checked platform
  | _ => True

/-- A step of a request that was checked and is stored whole keeps rows valid. -/
theorem TableStep.valid (reads : platform.ReadsDocuments) (keeps : KeepsObjects platform)
    (stepped : TableStep request before after) (checked : request.Checked platform)
    (whole : request.StoresWhole platform) (valid : ∀ row ∈ before.rows, row.Valid) :
    ∀ row ∈ after.rows, row.Valid := by
  intro row rowIn
  cases stepped with
  | same => exact valid row rowIn
  | inserted requestEq cast stored =>
      subst requestEq
      rcases (Table.mem_insert stored).mp rowIn with present | rfl
      · exact valid row present
      · exact newRow_valid reads keeps checked whole cast
  | replaced requestEq cast present stored =>
      subst requestEq
      rcases (Table.mem_replace stored present rfl).mp rowIn with ⟨kept, _⟩ | rfl
      · exact valid row kept
      · exact updatedRow_valid reads keeps checked whole cast (valid _ present)
  | deleted => exact valid row (Table.mem_delete.mp rowIn).1

/-! ## Runs -/

/-- The service on a table that starts empty. -/
def emptyResourceService (platform : Platform) :
    Component (Store platform) Request (Call platform) Choice CacheHappening :=
  { resourceService platform with
    initial := fun store =>
      (resourceService platform).initial store ∧ store.database.resources = .empty }

/-- Creates and updates are made of bodies that passed the checks. -/
def Request.Parsed (platform : Platform) : Request → Prop
  | .create _ request => ∃ body, parseCreateRequest platform body = .ok request
  | .update _ _ request => ∃ body, parseUpdateRequest platform body = .ok request
  | _ => True

/-- They are made of the body with this text. -/
def Request.ParsedFrom (platform : Platform) (text : String) : Request → Prop
  | .create _ request => ∃ body, platform.parse text = some body ∧
      parseCreateRequest platform body = .ok request
  | .update _ _ request => ∃ body, platform.parse text = some body ∧
      parseUpdateRequest platform body = .ok request
  | _ => True

theorem Request.ParsedFrom.parsed {text : String} {request : Request}
    (parsedFrom : request.ParsedFrom platform text) : request.Parsed platform := by
  cases request with
  | create clientId request =>
      obtain ⟨body, _, parsed⟩ := parsedFrom
      exact ⟨body, parsed⟩
  | update clientId id request =>
      obtain ⟨body, _, parsed⟩ := parsedFrom
      exact ⟨body, parsed⟩
  | get => trivial
  | list => trivial
  | remove => trivial

theorem Request.Parsed.checked {request : Request} (parsed : request.Parsed platform) :
    request.Checked platform := by
  cases request with
  | create clientId request =>
      obtain ⟨body, parsed⟩ := parsed
      exact checked_of_parseCreateRequest parsed
  | update clientId id request =>
      obtain ⟨body, parsed⟩ := parsed
      exact checked_of_parseUpdateRequest parsed
  | get => trivial
  | list => trivial
  | remove => trivial

/-- Requests that are started have a property. -/
def Starting (property : Request → Prop) (_ : ServiceState platform) (event : ServiceEvent) :
    Prop :=
  ∀ id request, event = .start id request → property request

/-- A row with the id is in the table. -/
def Present (uuid : Uuid) (state : ServiceState platform) (_ : ServiceEvent) : Prop :=
  ∃ row ∈ state.shared.database.resources.rows, row.id = uuid

theorem valid_obligations (reads : platform.ReadsDocuments) (keeps : KeepsObjects platform) :
    (emptyResourceService platform).Obligations
      (Starting fun request => request.Parsed platform ∧ request.StoresWhole platform)
      (fun store => ∀ row ∈ store.database.resources.rows, row.Valid)
      (fun _ call => call.request.Checked platform ∧ call.request.StoresWhole platform) where
  initially := by
    rintro store ⟨_, empty⟩ row member
    rw [empty] at member
    cases member
  entered := by
    intro state id request _ allowed
    obtain ⟨parsed, whole⟩ := allowed id request rfl
    exact ⟨parsed.checked, whole⟩
  advanced := by
    intro state id choice call next after holds _ calling stepped
    obtain ⟨checked, whole⟩ := holds.calls id call calling
    refine ⟨(TableStep.of_step stepped).valid reads keeps checked whole holds.shared, ?_⟩
    rw [(ServiceStep.of_step stepped).keeps.1]
    exact ⟨checked, whole⟩
  undisturbed := by
    intro state id choice call next after holds _ _ _ other bystander _ found
    exact holds.calls other bystander found
  happened := by
    intro state happening after holds _ happened
    cases happened
    exact ⟨holds.shared, holds.calls⟩

/-- One event leaves the columns that are set once. -/
theorem sameOrigin_of_eventStep {state next : ServiceState platform} {event : ServiceEvent}
    (stepped : (emptyResourceService platform).eventStep state event = some next)
    {old new : Row platform} (oldIn : old ∈ state.shared.database.resources.rows)
    (newIn : new ∈ next.shared.database.resources.rows) (sameId : old.id = new.id) :
    SameOrigin new old := by
  cases event with
  | start id request =>
      obtain ⟨_, rfl⟩ := Component.start_cases stepped
      exact .of_table oldIn newIn sameId
  | advance id choice =>
      obtain ⟨call, moved, after, _, callStepped, rfl⟩ := Component.advance_cases stepped
      exact (TableStep.of_step callStepped).sameOrigin oldIn newIn sameId
  | stop id =>
      obtain rfl := Component.stop_cases stepped
      exact .of_table oldIn newIn sameId
  | happen happening =>
      obtain ⟨after, happened, rfl⟩ := Component.happen_cases stepped
      cases happened
      exact .of_table oldIn newIn sameId

/-- As long as a row is there, its kind, client and creation time stay. -/
theorem sameOrigin_of_runs {uuid : Uuid} {state later : ServiceState platform}
    (runs : (emptyResourceService platform).machine.Runs (Present uuid) state later)
    {old : Row platform} (oldIn : old ∈ state.shared.database.resources.rows)
    (oldId : old.id = uuid) :
    ∀ new ∈ later.shared.database.resources.rows, new.id = uuid → SameOrigin new old := by
  induction runs with
  | refl =>
      intro new newIn newId
      exact .of_table oldIn newIn (oldId.trans newId.symm)
  | tail _ present stepped ih =>
      intro new newIn newId
      obtain ⟨middle, middleIn, middleId⟩ := present
      have last := sameOrigin_of_eventStep stepped middleIn newIn (middleId.trans newId.symm)
      exact last.trans (ih middle middleIn middleId)

/-- In every run from an empty table whose requests passed the checks and are stored whole,
every row is valid, the names of a client's rows are distinct, and kind,
client and creation time of a row stay as long as the row is there. -/
theorem rows_stay_valid (reads : platform.ReadsDocuments) (keeps : KeepsObjects platform)
    {state : ServiceState platform}
    (reachable : (emptyResourceService platform).machine.Reachable
      (Starting fun request => request.Parsed platform ∧ request.StoresWhole platform) state) :
    (∀ row ∈ state.shared.database.resources.rows, row.Valid) ∧
      NamesDistinct state.shared.database.resources ∧
      ∀ uuid later, (emptyResourceService platform).machine.Runs (Present uuid) state later →
        ∀ old ∈ state.shared.database.resources.rows, old.id = uuid →
          ∀ new ∈ later.shared.database.resources.rows, new.id = uuid → SameOrigin new old := by
  refine ⟨((valid_obligations reads keeps).of_reachable reachable).shared, namesDistinct _, ?_⟩
  intro uuid later runs old oldIn oldId
  exact sameOrigin_of_runs runs oldIn oldId

/-! ## A row that is created and changed -/

theorem reference_back {document back : Json} {stored : Platform.reference.Jsonb}
    (cast : Platform.reference.jsonbIn (Platform.reference.dump document) = some stored)
    (parsed : Platform.reference.parse (Platform.reference.jsonbOut stored) = some back) :
    back = document := by
  have storedEq : document = stored :=
    Option.some.inj ((Platform.read_dump document).symm.trans cast)
  have backEq : stored = back :=
    Option.some.inj ((Platform.read_spaced stored).symm.trans parsed)
  rw [storedEq, backEq]

theorem reference_keepsObjects : KeepsObjects Platform.reference where
  isObject document stored back cast parsed := by rw [reference_back cast parsed]
  empty stored back cast parsed := reference_back cast parsed
  short := by
    have size : (Platform.reference.dump (.object [])).utf8ByteSize = 2 := by decide
    rw [size]
    decide

theorem reference_noLonger (document : Json) : NoLonger Platform.reference document :=
  fun _ _ cast parsed => by rw [reference_back cast parsed]

/-- An empty Redis and an empty table. -/
def emptyStore : Store Platform.reference where
  redis := .empty
  database := { clients := fun _ => true, resources := .empty }
  commits := []
  returned := []

/-- A replay is a run whose requests have a property, if those it starts do. -/
theorem reachable_starting {property : Request → Prop} {events : List ServiceEvent}
    (possible : ((emptyResourceService Platform.reference).machine.execute
      (Component.fresh emptyStore) events).isSome = true)
    (started : ∀ id request, .start id request ∈ events → property request) :
    (emptyResourceService Platform.reference).machine.Reachable (Starting property)
      ((emptyResourceService Platform.reference).replay emptyStore events) := by
  refine Component.reachable_replay ⟨⟨rfl, rfl, rfl⟩, rfl⟩ possible ?_
  exact Machine.allows_of_forall fun event member state id request isStart =>
    started id request (isStart ▸ member)

def labelled (label : String) : Json :=
  .object [("label", .string label)]

def labelledRequest : CreateResourceRequest where
  kind := "vm"
  name := "web"
  status := some "up"
  metadata := some (labelled "blue")

def labelledBody : Json :=
  .object [("kind", .string "vm"), ("metadata", labelled "blue"), ("name", .string "web"),
    ("status", .string "up")]

def relabelRequest : UpdateResourceRequest where
  name := some "db"
  status := none
  metadata := some (labelled "green")

def relabelBody : Json :=
  .object [("metadata", labelled "green"), ("name", .string "db"), ("status", .null)]

/-- A resource is created, then renamed and given another document. -/
def relabelled : List ServiceEvent :=
  [.start 0 (.create sampleClientText labelledRequest), .advance 0 sampleChoice,
    .start 1 (.update sampleClientText sampleIdText relabelRequest), .advance 1 sampleChoice]

theorem labelledBody_valid :
    parseCreateRequest Platform.reference labelledBody = .ok labelledRequest := by
  have isObject : labelledBody.isObject = true := rfl
  have kind : requireString labelledBody "kind" = .ok "vm" := rfl
  have name : requireString labelledBody "name" = .ok "web" := rfl
  have status : optionalString labelledBody "status" = .ok (some "up") := rfl
  have metadata : optionalObject labelledBody "metadata" = .ok (some (labelled "blue")) := rfl
  have kindFits : validateKind "vm" = .ok () := rfl
  have nameFits : validateName "web" = .ok () := rfl
  have statusFits : validateStatus "up" = .ok () := rfl
  have metadataFits : validateMetadata Platform.reference (labelled "blue") = .ok () := by
    decide +kernel
  simp only [parseCreateRequest, isObject, kind, name, status, metadata, kindFits, nameFits,
    validateIfPresent, statusFits, metadataFits, bind, Except.bind]
  rfl

theorem relabelBody_valid :
    parseUpdateRequest Platform.reference relabelBody = .ok relabelRequest := by
  have isObject : relabelBody.isObject = true := rfl
  have name : optionalString relabelBody "name" = .ok (some "db") := rfl
  have status : optionalString relabelBody "status" = .ok none := rfl
  have metadata : optionalObject relabelBody "metadata" = .ok (some (labelled "green")) := rfl
  have nameFits : validateName "db" = .ok () := rfl
  have metadataFits : validateMetadata Platform.reference (labelled "green") = .ok () := by
    decide +kernel
  simp only [parseUpdateRequest, isObject, name, status, metadata, nameFits, validateIfPresent,
    metadataFits, bind, Except.bind]
  rfl

theorem relabelled_allowed {id : Nat} {request : Request}
    (member : .start id request ∈ relabelled) :
    request.Parsed Platform.reference ∧ request.StoresWhole Platform.reference := by
  simp only [relabelled, List.mem_cons, ConcurrentEvent.start.injEq, reduceCtorEq,
    List.not_mem_nil, or_false, false_or] at member
  rcases member with ⟨_, rfl⟩ | ⟨_, rfl⟩
  · refine ⟨⟨labelledBody, labelledBody_valid⟩, by decide, by decide, ?_,
      fun _ _ => reference_noLonger _⟩
    rintro status ⟨⟩
    decide
  · refine ⟨⟨relabelBody, relabelBody_valid⟩, ?_, ?_, fun _ _ => reference_noLonger _⟩
    · rintro name ⟨⟩
      decide
    · rintro status ⟨⟩

theorem rows_stay_valid_relabelled :
    ((emptyResourceService Platform.reference).replay emptyStore
        relabelled).shared.database.resources.rows.map
      (fun row => (row.name, Platform.reference.jsonbOut row.metadata)) =
        [("db", "\x7b\"label\": \"green\"\x7d")] ∧
      (∀ row ∈ ((emptyResourceService Platform.reference).replay emptyStore
        relabelled).shared.database.resources.rows, row.Valid) ∧
      NamesDistinct ((emptyResourceService Platform.reference).replay emptyStore
        relabelled).shared.database.resources := by
  have possible : ((emptyResourceService Platform.reference).machine.execute
      (Component.fresh emptyStore) relabelled).isSome = true := by decide +kernel
  obtain ⟨valid, distinct, _⟩ := rows_stay_valid Platform.reference_lawful.toReadsDocuments
    reference_keepsObjects (reachable_starting possible fun _ _ => relabelled_allowed)
  exact ⟨by decide +kernel, valid, distinct⟩

/-! ## A kind of which nothing is stored -/

/-- In every run from an empty table whose requests passed the checks, every row is valid. -/
def RowsStayValid : Prop :=
  ∀ (platform : Platform) (state : ServiceState platform), platform.Lawful →
    KeepsObjects platform →
    (emptyResourceService platform).machine.Reachable
      (Starting fun request => request.Parsed platform) state →
    ∀ row ∈ state.shared.database.resources.rows, row.Valid

def kindRequest (kind : String) : CreateResourceRequest where
  kind
  name := "web"
  status := none
  metadata := none

def kindBody (kind : String) : Json :=
  .object [("kind", .string kind), ("name", .string "web")]

/-- A client creates a resource of a kind. -/
def kindCreated (kind : String) : List ServiceEvent :=
  [.start 0 (.create sampleClientText (kindRequest kind)), .advance 0 sampleChoice]

/-- The kind of one NUL passes the checks and is stored as the empty text. -/
theorem not_rowsStayValid : ¬RowsStayValid := by
  intro promise
  have reachable : (emptyResourceService Platform.reference).machine.Reachable
      (Starting fun request => request.Parsed Platform.reference)
      ((emptyResourceService Platform.reference).replay emptyStore (kindCreated "\x00")) := by
    refine reachable_starting rfl fun id request member => ?_
    simp only [kindCreated, List.mem_cons, ConcurrentEvent.start.injEq, reduceCtorEq,
      List.not_mem_nil, or_false] at member
    obtain ⟨_, rfl⟩ := member
    exact ⟨kindBody "\x00", rfl⟩
  have valid := promise _ _ Platform.reference_lawful reference_keepsObjects reachable
  have rows : ((emptyResourceService Platform.reference).replay emptyStore
      (kindCreated "\x00")).shared.database.resources.rows =
      [newRow sampleClient (kindRequest "\x00") (Json.object []) sampleChoice.stamp] := rfl
  rw [rows] at valid
  have kind := (valid _ List.mem_cons_self).kind
  revert kind
  decide

end Corvus.Resources
