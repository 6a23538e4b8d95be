import Corvus.Platform
import Corvus.Db.Postgres

/-!
# The resources table

Rows carry the types of their columns.  A table keeps the primary key and the
unique index on client and name; a statement that would break one of them leaves
the table as it is.
-/

namespace Corvus.Resources

open Corvus.Db

/-- A row of `resources`. -/
structure Row (platform : Platform) where
  id : Uuid
  clientId : Uuid
  kind : String
  name : String
  status : String
  metadata : platform.Jsonb
  createdAt : Timestamp
  updatedAt : Timestamp

/-- The columns of `resources_client_name_idx`. -/
def Row.clientName {platform : Platform} (row : Row platform) : Uuid × String :=
  (row.clientId, row.name)

structure Table (platform : Platform) where
  rows : List (Row platform)
  ids_unique : (rows.map Row.id).Nodup
  names_unique : (rows.map Row.clientName).Nodup

namespace Table

variable {platform : Platform}

/-- The table with the given rows; `none` is a unique violation. -/
def ofRows? (rows : List (Row platform)) : Option (Table platform) :=
  if unique : (rows.map Row.id).Nodup ∧ (rows.map Row.clientName).Nodup then
    some { rows, ids_unique := unique.1, names_unique := unique.2 }
  else none

def empty : Table platform where
  rows := []
  ids_unique := List.nodup_nil
  names_unique := List.nodup_nil

theorem ext {left right : Table platform} (same : left.rows = right.rows) : left = right := by
  cases left
  cases right
  simpa using same

theorem rows_of_ofRows? {rows : List (Row platform)} {table : Table platform}
    (built : ofRows? rows = some table) : table.rows = rows := by
  unfold ofRows? at built
  split at built
  · cases built
    rfl
  · cases built

/-- The row of a client with an id. -/
def find (table : Table platform) (client id : Uuid) : Option (Row platform) :=
  table.rows.find? fun row => decide (row.clientId = client ∧ row.id = id)

/-- Append a row. -/
def insert (table : Table platform) (row : Row platform) : Option (Table platform) :=
  ofRows? (table.rows ++ [row])

/-- Put a row in the place of the one with its id. -/
def replace (table : Table platform) (row : Row platform) : Option (Table platform) :=
  ofRows? (table.rows.map fun old => if old.id = row.id then row else old)

/-- Remove the row of a client with an id. -/
def delete (table : Table platform) (client id : Uuid) : Table platform where
  rows := table.rows.filter fun row => decide ¬(row.clientId = client ∧ row.id = id)
  ids_unique := table.ids_unique.sublist (List.filter_sublist.map _)
  names_unique := table.names_unique.sublist (List.filter_sublist.map _)

/-- Rows of one id are one row. -/
theorem eq_of_id {table : Table platform} {left right : Row platform}
    (leftIn : left ∈ table.rows) (rightIn : right ∈ table.rows) (same : left.id = right.id) :
    left = right :=
  List.inj_on_of_nodup_map table.ids_unique leftIn rightIn same

theorem find_eq_some {table : Table platform} {client id : Uuid} {row : Row platform} :
    table.find client id = some row ↔ row ∈ table.rows ∧ row.clientId = client ∧ row.id = id := by
  constructor
  · intro found
    exact ⟨List.mem_of_find?_eq_some found, by simpa using List.find?_some found⟩
  · rintro ⟨member, rfl, rfl⟩
    cases found : table.find row.clientId row.id with
    | none =>
        have absent := List.find?_eq_none.mp found row member
        simp at absent
    | some other =>
        have otherIn := List.mem_of_find?_eq_some found
        have same : other.clientId = row.clientId ∧ other.id = row.id := by
          simpa using List.find?_some found
        rw [eq_of_id otherIn member same.2]

theorem find_eq_none {table : Table platform} {client id : Uuid} :
    table.find client id = none ↔
      ∀ row ∈ table.rows, row.clientId = client → row.id ≠ id := by
  simp [find, List.find?_eq_none]

/-! ## What the statements leave -/

theorem mem_insert {table after : Table platform} {row other : Row platform}
    (inserted : table.insert row = some after) :
    other ∈ after.rows ↔ other ∈ table.rows ∨ other = row := by
  rw [rows_of_ofRows? inserted]
  simp

theorem mem_replace {table after : Table platform} {old row other : Row platform}
    (replaced : table.replace row = some after) (present : old ∈ table.rows)
    (same : old.id = row.id) :
    other ∈ after.rows ↔ (other ∈ table.rows ∧ other.id ≠ row.id) ∨ other = row := by
  rw [rows_of_ofRows? replaced, List.mem_map]
  constructor
  · rintro ⟨source, member, rfl⟩
    by_cases isRow : source.id = row.id
    · simp [isRow]
    · simp [isRow, member]
  · rintro (⟨member, different⟩ | rfl)
    · exact ⟨other, member, by simp [different]⟩
    · exact ⟨old, present, by simp [same]⟩

/-- Putting a row in its own place changes nothing. -/
theorem eq_of_replace_self {table after : Table platform} {row : Row platform}
    (replaced : table.replace row = some after) (present : row ∈ table.rows) : after = table := by
  apply ext
  rw [rows_of_ofRows? replaced]
  conv_rhs => rw [← List.map_id table.rows]
  refine List.map_congr_left fun old member => ?_
  split
  · rename_i same
    exact eq_of_id present member same.symm
  · rfl

theorem mem_delete {table : Table platform} {client id : Uuid} {other : Row platform} :
    other ∈ (table.delete client id).rows ↔
      other ∈ table.rows ∧ ¬(other.clientId = client ∧ other.id = id) := by
  simp only [delete, List.mem_filter, decide_eq_true_eq]

/-- A replaced row is found under its client and id. -/
theorem find_replace_self {table after : Table platform} {old row : Row platform}
    (replaced : table.replace row = some after) (present : old ∈ table.rows)
    (same : old.id = row.id) : after.find row.clientId row.id = some row :=
  find_eq_some.mpr ⟨(mem_replace replaced present same).mpr (Or.inr rfl), rfl, rfl⟩

/-- Replacing a row leaves the others where they are. -/
theorem find_replace_of_ne {table after : Table platform} {old row : Row platform}
    {client id : Uuid} (replaced : table.replace row = some after) (present : old ∈ table.rows)
    (same : old.id = row.id) (sameClient : old.clientId = row.clientId)
    (different : ¬(row.clientId = client ∧ row.id = id)) :
    after.find client id = table.find client id := by
  apply Option.ext
  intro other
  rw [find_eq_some, find_eq_some, mem_replace replaced present same]
  constructor
  · rintro ⟨⟨member, _⟩ | rfl, isClient, isId⟩
    · exact ⟨member, isClient, isId⟩
    · exact (different ⟨isClient, isId⟩).elim
  · rintro ⟨member, isClient, isId⟩
    refine ⟨Or.inl ⟨member, fun isRow => different ?_⟩, isClient, isId⟩
    obtain rfl := eq_of_id member present (isRow.trans same.symm)
    exact ⟨sameClient ▸ isClient, isRow ▸ isId⟩

@[simp] theorem find_delete_self (table : Table platform) (client id : Uuid) :
    (table.delete client id).find client id = none := by
  rw [find_eq_none]
  intro row member isClient isId
  exact (mem_delete.mp member).2 ⟨isClient, isId⟩

theorem find_delete_of_ne {table : Table platform} {client id otherClient other : Uuid}
    (different : ¬(otherClient = client ∧ other = id)) :
    (table.delete client id).find otherClient other = table.find otherClient other := by
  apply Option.ext
  intro row
  rw [find_eq_some, find_eq_some, mem_delete]
  constructor
  · rintro ⟨⟨member, _⟩, isClient, isId⟩
    exact ⟨member, isClient, isId⟩
  · rintro ⟨member, rfl, rfl⟩
    exact ⟨⟨member, different⟩, rfl, rfl⟩

/-- A row that can be inserted has a new id. -/
theorem id_new_of_insert {table after : Table platform} {row : Row platform}
    (inserted : table.insert row = some after) : ∀ other ∈ table.rows, other.id ≠ row.id := by
  intro other member same
  have unique := after.ids_unique
  rw [rows_of_ofRows? inserted, List.map_append, List.nodup_append] at unique
  exact unique.2.2 other.id (List.mem_map_of_mem member) row.id (by simp) same

end Table

end Corvus.Resources
