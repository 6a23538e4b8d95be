import Corvus.Resources.Table
import Corvus.Resources.Resource
import Corvus.Resources.Cursor
import Mathlib.Data.List.Sort

/-!
# The statements of the repository

Each operation is one transaction.  A statement that fails leaves the table as it
is; a failure after the commit, when the returned row is decoded, does not undo
it.
-/

namespace Corvus.Resources

open Corvus.Db

/-- The tables the service uses; of the clients only their ids matter. -/
structure Database (platform : Platform) where
  clients : Uuid → Bool
  resources : Table platform

/-- The exceptions of the repository that its callers tell apart. -/
inductive RepositoryError where
  | uniqueViolation
  | invalidCursor (error : InvalidCursorError)
  | other
  deriving DecidableEq

structure ListFilter where
  kind : Option String := none
  status : Option String := none
  limit : Int := 50
  cursor : Option String := none

structure ListResult where
  items : List Resource
  nextCursor : Option String
  hasMore : Bool

/-- What the database adds to a row: a random id and the time of the transaction. -/
structure Stamp where
  freshId : Uuid
  now : Timestamp

/-- How a transaction ends: what its caller gets, and the table it leaves if it
changed the table. -/
structure Executed (platform : Platform) (Answer : Type) where
  answer : Except RepositoryError Answer
  written : Option (Table platform) := none

variable {platform : Platform}

/-- The database after a transaction. -/
def Database.after {Answer : Type} (database : Database platform)
    (executed : Executed platform Answer) : Database platform :=
  match executed.written with
  | none => database
  | some resources => { database with resources }

/-- `row_to_resource`; `none` is an exception of the JSON parser. -/
def rowToResource (row : Row platform) : Option Resource :=
  (platform.parse (platform.jsonbOut row.metadata)).map fun metadata =>
    { id := uuidOut row.id
      clientId := uuidOut row.clientId
      kind := row.kind
      name := row.name
      status := row.status
      metadata := metadata
      createdAt := row.createdAt.toChar
      updatedAt := row.updatedAt.toChar }

theorem isValue_of_rowToResource {row : Row platform} {resource : Resource}
    (decoded : rowToResource row = some resource) : platform.IsValue resource.metadata := by
  obtain ⟨metadata, parsed, rfl⟩ := Option.map_eq_some_iff.mp decoded
  exact .parsed parsed

/-- Decode a returned row. -/
def decodeRow (row : Row platform) : Except RepositoryError Resource :=
  match rowToResource row with
  | some resource => .ok resource
  | none => .error .other

/-- The row an `INSERT` makes of a request. -/
def newRow (client : Uuid) (request : CreateResourceRequest) (metadata : platform.Jsonb)
    (stamp : Stamp) : Row platform where
  id := stamp.freshId
  clientId := client
  kind := cString request.kind
  name := cString request.name
  status := cString (request.status.getD "unknown")
  metadata := metadata
  createdAt := stamp.now
  updatedAt := stamp.now

/-- `ResourceRepository::create`. -/
def create (database : Database platform) (clientId : String)
    (request : CreateResourceRequest) (stamp : Stamp) : Executed platform Resource :=
  match uuidParam clientId,
      platform.jsonbIn (platform.dump (request.metadata.getD (.object []))) with
  | some client, some metadata =>
      match database.resources.insert (newRow client request metadata stamp) with
      | none => { answer := .error .uniqueViolation }
      | some resources =>
          if database.clients client then
            { answer := decodeRow (newRow client request metadata stamp)
              written := some resources }
          else { answer := .error .other }
  | _, _ => { answer := .error .other }

/-- `ResourceRepository::find_by_id`. -/
def findById (database : Database platform) (clientId id : String) :
    Except RepositoryError (Option Resource) :=
  match uuidParam clientId, uuidParam id with
  | some client, some id =>
      match database.resources.find client id with
      | none => .ok none
      | some row => (decodeRow row).map some
  | _, _ => .error .other

/-- The cast of the metadata of an update, if it has any; `none` is an error. -/
def castMetadata (platform : Platform) (metadata : Option Json) :
    Option (Option platform.Jsonb) :=
  match metadata with
  | none => some none
  | some metadata => (platform.jsonbIn (platform.dump metadata)).map some

/-- The row an `UPDATE` makes of a row; the trigger `set_updated_at` stamps it. -/
def updatedRow (row : Row platform) (request : UpdateResourceRequest)
    (metadata : Option platform.Jsonb) (stamp : Stamp) : Row platform :=
  { row with
    name := (request.name.map cString).getD row.name
    status := (request.status.map cString).getD row.status
    metadata := metadata.getD row.metadata
    updatedAt := stamp.now }

/-- `ResourceRepository::update`.  Without a column to set the statement is a syntax
error. -/
def update (database : Database platform) (clientId id : String)
    (request : UpdateResourceRequest) (stamp : Stamp) : Executed platform (Option Resource) :=
  if request.name.isNone && request.status.isNone && request.metadata.isNone then
    { answer := .error .other }
  else
    match uuidParam clientId, uuidParam id, castMetadata platform request.metadata with
    | some client, some id, some metadata =>
        match database.resources.find client id with
        | none => { answer := .ok none }
        | some row =>
            match database.resources.replace (updatedRow row request metadata stamp) with
            | none => { answer := .error .uniqueViolation }
            | some resources =>
                { answer := (decodeRow (updatedRow row request metadata stamp)).map some
                  written := some resources }
    | _, _, _ => { answer := .error .other }

/-- `ResourceRepository::remove`. -/
def remove (database : Database platform) (clientId id : String) : Executed platform Bool :=
  match uuidParam clientId, uuidParam id with
  | some client, some id =>
      match database.resources.find client id with
      | none => { answer := .ok false }
      | some _ => { answer := .ok true, written := some (database.resources.delete client id) }
  | _, _ => { answer := .error .other }

/-! ## Listing -/

/-- `std::clamp(filter.limit, 1, 200)`. -/
def pageSize (filter : ListFilter) : Nat :=
  (max 1 (min filter.limit 200)).toNat

/-- `ORDER BY updated_at DESC, id DESC`.  The name `updated_at` is that of the output
column, which is the text made by `to_char`. -/
def SortsBefore (left right : Row platform) : Prop :=
  right.updatedAt.toChar.toList < left.updatedAt.toChar.toList ∨
    right.updatedAt.toChar.toList = left.updatedAt.toChar.toList ∧ right.id ≤ left.id

instance : DecidableRel (@SortsBefore platform) :=
  fun _ _ => inferInstanceAs (Decidable (_ ∨ _))

/-- `(updated_at, id) < (position)`, on the columns of the table. -/
def Row.Below (row : Row platform) (position : Timestamp × Uuid) : Prop :=
  row.updatedAt < position.1 ∨ row.updatedAt = position.1 ∧ row.id < position.2

instance (row : Row platform) (position : Timestamp × Uuid) :
    Decidable (row.Below position) :=
  inferInstanceAs (Decidable (_ ∨ _))

/-- The filters on kind and status. -/
def Row.Matches (row : Row platform) (client : Uuid) (filter : ListFilter) : Prop :=
  row.clientId = client ∧ (∀ kind ∈ filter.kind, row.kind = cString kind) ∧
    ∀ status ∈ filter.status, row.status = cString status

instance (row : Row platform) (client : Uuid) (filter : ListFilter) :
    Decidable (row.Matches client filter) :=
  inferInstanceAs (Decidable (_ ∧ _))

/-- The position the cursor of a filter stands for, if there is one. -/
def decodePosition (filter : ListFilter) :
    Except RepositoryError (Option CursorPosition) :=
  match filter.cursor with
  | none => .ok none
  | some cursor =>
      if cursor = "" then .ok none
      else
        match decodeCursor cursor with
        | .error error => .error (.invalidCursor error)
        | .ok position => .ok (some position)

/-- The casts of a position; `none` is an error of the statement. -/
def castPosition (platform : Platform) : Option CursorPosition →
    Option (Option (Timestamp × Uuid))
  | none => some none
  | some position => do
      let updatedAt ← textOf? (cBytes position.updatedAt)
      let id ← textOf? (cBytes position.id)
      let time ← platform.timestamptz updatedAt
      let uuid ← uuidIn id
      return some (time, uuid)

/-- The rows the statement returns, before its `LIMIT`. -/
def selectRows (table : Table platform) (client : Uuid) (filter : ListFilter)
    (position : Option (Timestamp × Uuid)) : List (Row platform) :=
  (table.rows.filter fun row =>
    decide (row.Matches client filter ∧ ∀ limit ∈ position, row.Below limit)).insertionSort
      SortsBefore

/-- The page made of the rows a statement returned. -/
def pageOf (size : Nat) (rows : List (Row platform)) : Except RepositoryError ListResult :=
  let hasMore := decide (size < rows.length)
  match (rows.take size).mapM rowToResource with
  | none => .error .other
  | some items =>
      .ok {
        items
        nextCursor :=
          if hasMore then items.getLast?.map fun last => encodeCursor last.updatedAt last.id
          else none
        hasMore }

/-- `ResourceRepository::list`. -/
def list (database : Database platform) (clientId : String) (filter : ListFilter) :
    Except RepositoryError ListResult :=
  match decodePosition filter with
  | .error error => .error error
  | .ok position =>
      match uuidParam clientId, castPosition platform position with
      | some client, some position =>
          pageOf (pageSize filter)
            ((selectRows database.resources client filter position).take (pageSize filter + 1))
      | _, _ => .error .other

/-! ## What the statements do -/

/-- What a read of a row yields is made of a row with that client and id. -/
theorem findById_eq_some {database : Database platform} {clientId id : String}
    {resource : Resource} (found : findById database clientId id = .ok (some resource)) :
    ∃ client uuid row, uuidParam clientId = some client ∧ uuidParam id = some uuid ∧
      database.resources.find client uuid = some row ∧ rowToResource row = some resource := by
  unfold findById at found
  split at found
  case h_1 client uuid clientEq uuidEq =>
      split at found
      · cases found
      · rename_i row rowFound
        unfold decodeRow at found
        split at found
        · rename_i decoded
          cases found
          exact ⟨client, uuid, row, clientEq, uuidEq, rowFound, decoded⟩
        · cases found
  case h_2 => cases found

theorem isValue_of_findById {database : Database platform} {clientId id : String}
    {resource : Resource} (found : findById database clientId id = .ok (some resource)) :
    platform.IsValue resource.metadata := by
  obtain ⟨_, _, _, _, _, _, decoded⟩ := findById_eq_some found
  exact isValue_of_rowToResource decoded

/-- An `INSERT` fails, or adds the row it returns. -/
theorem create_cases (database : Database platform) (clientId : String)
    (request : CreateResourceRequest) (stamp : Stamp) :
    (∃ error, create database clientId request stamp = { answer := .error error }) ∨
      ∃ client metadata resources, uuidParam clientId = some client ∧
        platform.jsonbIn (platform.dump (request.metadata.getD (.object []))) = some metadata ∧
        database.resources.insert (newRow client request metadata stamp) = some resources ∧
        create database clientId request stamp =
          { answer := decodeRow (newRow client request metadata stamp)
            written := some resources } := by
  unfold create
  split
  case h_1 client metadata clientEq cast =>
      split
      · exact Or.inl ⟨_, rfl⟩
      · rename_i resources inserted
        split
        · exact Or.inr ⟨client, metadata, resources, clientEq, cast, inserted, rfl⟩
        · exact Or.inl ⟨_, rfl⟩
  case h_2 => exact Or.inl ⟨_, rfl⟩

/-- An `UPDATE` fails, finds no row, or puts the row it returns in the place of the one
it found. -/
theorem update_cases (database : Database platform) (clientId id : String)
    (request : UpdateResourceRequest) (stamp : Stamp) :
    (∃ error, update database clientId id request stamp = { answer := .error error }) ∨
      (∃ client uuid, uuidParam clientId = some client ∧ uuidParam id = some uuid ∧
        database.resources.find client uuid = none ∧
        update database clientId id request stamp = { answer := .ok none }) ∨
      ∃ client uuid metadata row resources, uuidParam clientId = some client ∧
        uuidParam id = some uuid ∧ castMetadata platform request.metadata = some metadata ∧
        database.resources.find client uuid = some row ∧
        database.resources.replace (updatedRow row request metadata stamp) = some resources ∧
        update database clientId id request stamp =
          { answer := (decodeRow (updatedRow row request metadata stamp)).map some
            written := some resources } := by
  unfold update
  split
  · exact Or.inl ⟨_, rfl⟩
  · split
    case h_1 client uuid metadata clientEq uuidEq cast =>
        split
        · rename_i absent
          exact Or.inr (Or.inl ⟨client, uuid, clientEq, uuidEq, absent, rfl⟩)
        · rename_i row found
          split
          · exact Or.inl ⟨_, rfl⟩
          · rename_i resources replaced
            exact Or.inr (Or.inr ⟨client, uuid, metadata, row, resources, clientEq, uuidEq,
              cast, found, replaced, rfl⟩)
    case h_2 => exact Or.inl ⟨_, rfl⟩

/-- A `DELETE` fails, finds no row, or removes the row it found. -/
theorem remove_cases (database : Database platform) (clientId id : String) :
    (∃ error, remove database clientId id = { answer := .error error }) ∨
      (∃ client uuid, uuidParam clientId = some client ∧ uuidParam id = some uuid ∧
        database.resources.find client uuid = none ∧
        remove database clientId id = { answer := .ok false }) ∨
      ∃ client uuid row, uuidParam clientId = some client ∧ uuidParam id = some uuid ∧
        database.resources.find client uuid = some row ∧
        remove database clientId id =
          { answer := .ok true, written := some (database.resources.delete client uuid) } := by
  unfold remove
  split
  case h_1 client uuid clientEq uuidEq =>
      split
      · rename_i absent
        exact Or.inr (Or.inl ⟨client, uuid, clientEq, uuidEq, absent, rfl⟩)
      · rename_i row found
        exact Or.inr (Or.inr ⟨client, uuid, row, clientEq, uuidEq, found, rfl⟩)
  case h_2 => exact Or.inl ⟨_, rfl⟩

end Corvus.Resources
