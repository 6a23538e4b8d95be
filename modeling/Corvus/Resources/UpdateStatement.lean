import Corvus.Resources.Repository

/-!
# The text of an UPDATE

The statement is written piece by piece, with a comma before every column but the
first and every value quoted.  Here it is read back the way the server reads it;
executing what was read is the operation of the repository.
-/

namespace Corvus.Resources

open Corvus.Db

/-! ## Literals -/

def apostrophe : Char := '\x27'

/-- How a character of a literal is written. -/
def doubled (char : Char) : List Char :=
  if char = apostrophe then [apostrophe, apostrophe] else [char]

/-- `txn.quote`, which takes the value up to its first NUL. -/
def quote (value : String) : String :=
  String.ofList (apostrophe :: ((cString value).toList.flatMap doubled ++ [apostrophe]))

/-- A literal after its opening apostrophe, and what follows it. -/
def readLiteral : List Char → Option (List Char × List Char)
  | [] => none
  | char :: rest =>
      if char = apostrophe then
        match rest with
        | [] => some ([], [])
        | next :: later =>
            if next = apostrophe then
              (readLiteral later).map fun read => (apostrophe :: read.1, read.2)
            else some ([], rest)
      else (readLiteral rest).map fun read => (char :: read.1, read.2)

/-- What follows a literal does not continue it. -/
def EndsLiteral (rest : List Char) : Prop :=
  rest.head? ≠ some apostrophe

theorem readLiteral_doubled {rest : List Char} (ends : EndsLiteral rest) (text : List Char) :
    readLiteral (text.flatMap doubled ++ apostrophe :: rest) = some (text, rest) := by
  induction text with
  | nil =>
      cases rest with
      | nil => simp [readLiteral]
      | cons next later =>
          have other : next ≠ apostrophe := by simpa [EndsLiteral] using ends
          simp [readLiteral, other]
  | cons char text ih =>
      by_cases isApostrophe : char = apostrophe
      · subst isApostrophe
        simp [doubled, readLiteral, ih]
      · have continued : readLiteral (char :: (text.flatMap doubled ++ apostrophe :: rest)) =
            (readLiteral (text.flatMap doubled ++ apostrophe :: rest)).map fun read =>
              (char :: read.1, read.2) := by
          rw [readLiteral.eq_def]
          simp only [isApostrophe, if_false]
        simp [doubled, isApostrophe, continued, ih]

/-- A quoted value is read back up to its first NUL. -/
theorem readLiteral_quote {rest : List Char} (ends : EndsLiteral rest) (value : String) :
    ∃ literal, (quote value).toList ++ rest = apostrophe :: literal ∧
      readLiteral literal = some ((cString value).toList, rest) := by
  refine ⟨(cString value).toList.flatMap doubled ++ apostrophe :: rest, ?_,
    readLiteral_doubled ends _⟩
  simp [quote]

/-! ## The statement -/

/-- `timestamp_select`. -/
def timestampSelect (column : String) : String :=
  "to_char(" ++ column ++ " AT TIME ZONE 'UTC', 'YYYY-MM-DD\"T\"HH24:MI:SS.US\"Z\"')"

/-- `select_columns`. -/
def selectColumns : String :=
  "id, client_id, kind, name, status, metadata::text, " ++ timestampSelect "created_at" ++
    " AS created_at, " ++ timestampSelect "updated_at" ++ " AS updated_at"

/-- The stream of the statement; `first` until a column was written to it. -/
structure SetList where
  sql : String
  first : Bool

/-- `add_set`; the metadata are written in the same way, with a cast. -/
def SetList.add (list : SetList) (column value cast : String) : SetList where
  sql := (if list.first then list.sql else list.sql ++ ", ") ++ column ++ " = " ++
    quote value ++ cast
  first := false

/-- A column that is set if the request has a value for it. -/
def SetList.addPresent (list : SetList) (column : String) (value : Option String)
    (cast : String) : SetList :=
  match value with
  | none => list
  | some value => list.add column value cast

/-- The stream after the columns of a request. -/
def setList (platform : Platform) (request : UpdateResourceRequest) : SetList :=
  let start : SetList := { sql := "UPDATE resources SET ", first := true }
  let named := start.addPresent "name" request.name ""
  let marked := named.addPresent "status" request.status ""
  marked.addPresent "metadata" (request.metadata.map platform.dump) "::jsonb"

/-- What is written after the columns. -/
def whereClause (clientId id : String) : String :=
  " WHERE client_id = " ++ quote clientId ++ " AND id = " ++ quote id ++ " RETURNING " ++
    selectColumns

/-- The statement `ResourceRepository::update` assembles. -/
def updateSql (platform : Platform) (clientId id : String) (request : UpdateResourceRequest) :
    String :=
  (setList platform request).sql ++ whereClause clientId id

/-! ## Reading a statement -/

/-- A column that is set to a literal, and whether the literal is cast to `jsonb`. -/
structure Assignment where
  column : String
  value : String
  isJsonb : Bool
  deriving DecidableEq

structure UpdateStatement where
  assignments : List Assignment
  clientId : String
  id : String
  deriving DecidableEq

def isNameChar (char : Char) : Bool :=
  char.isAlpha || char == '_'

def readAssignment (input : List Char) : Option (Assignment × List Char) :=
  let column := input.takeWhile isNameChar
  if column = [] then none
  else
    (Json.readWord " = '".toList (input.dropWhile isNameChar)).bind fun rest =>
      (readLiteral rest).map fun literal =>
        let value := String.ofList literal.1
        match Json.readWord "::jsonb".toList literal.2 with
        | some rest => ({ column := String.ofList column, value, isJsonb := true }, rest)
        | none => ({ column := String.ofList column, value, isJsonb := false }, literal.2)

/-- Assignments with commas between them. -/
def readAssignments : Nat → List Char → Option (List Assignment × List Char)
  | 0, _ => none
  | fuel + 1, input =>
      (readAssignment input).bind fun first =>
        match Json.readWord ", ".toList first.2 with
        | some rest =>
            (readAssignments fuel rest).map fun others => (first.1 :: others.1, others.2)
        | none => some ([first.1], first.2)

/-- The client and the id after the columns. -/
def readWhere (input : List Char) : Option (String × String) :=
  (Json.readWord " WHERE client_id = '".toList input).bind fun client =>
    (readLiteral client).bind fun clientId =>
      (Json.readWord " AND id = '".toList clientId.2).bind fun id =>
        (readLiteral id).bind fun id =>
          (Json.readWord " RETURNING ".toList id.2).bind fun columns =>
            if columns = selectColumns.toList then
              some (String.ofList clientId.1, String.ofList id.1)
            else none

/-- Read a whole statement; `none` is a syntax error. -/
def readUpdate (text : String) : Option UpdateStatement :=
  (Json.readWord "UPDATE resources SET ".toList text.toList).bind fun list =>
    (readAssignments list.length list).bind fun assignments =>
      (readWhere assignments.2).map fun condition =>
        { assignments := assignments.1, clientId := condition.1, id := condition.2 }

/-! ## Reading back what was assembled -/

theorem readWord_append (word rest : List Char) :
    Json.readWord word (word ++ rest) = some rest := by
  induction word with
  | nil => rfl
  | cons char word ih => simp [Json.readWord, ih]

@[simp] theorem quote_cString (value : String) : quote (cString value) = quote value := by
  rw [quote, cString_of_nulFree (nulFree_cString value), quote]

/-- The text of an assignment. -/
def Assignment.sql (assignment : Assignment) : String :=
  assignment.column ++ " = " ++ quote assignment.value ++
    (if assignment.isJsonb then "::jsonb" else "")

/-- Its column is a name and its value arrives whole. -/
structure Assignment.Legible (assignment : Assignment) : Prop where
  named : assignment.column.toList ≠ []
  name_chars : assignment.column.toList.all isNameChar = true
  nulFree : NulFree assignment.value

/-- What follows an assignment does not continue it. -/
def EndsAssignment (rest : List Char) : Prop :=
  ∀ char ∈ rest.head?, char ≠ apostrophe ∧ char ≠ ':'

theorem EndsAssignment.endsLiteral {rest : List Char} (ends : EndsAssignment rest) :
    EndsLiteral rest :=
  fun isApostrophe => (ends apostrophe isApostrophe).1 rfl

theorem EndsAssignment.noCast {rest : List Char} (ends : EndsAssignment rest) :
    Json.readWord "::jsonb".toList rest = none := by
  have word : "::jsonb".toList = ':' :: ":jsonb".toList := by decide
  rw [word]
  cases rest with
  | nil => rfl
  | cons char rest =>
      have other : ':' ≠ char := fun same => (ends char rfl).2 same.symm
      rw [Json.readWord, if_neg other]

theorem readAssignment_sql {assignment : Assignment} {rest : List Char}
    (legible : assignment.Legible) (ends : EndsAssignment rest) :
    readAssignment (assignment.sql.toList ++ rest) = some (assignment, rest) := by
  obtain ⟨column, value, isJsonb⟩ := assignment
  have equals : " = '".toList = [' ', '=', ' ', apostrophe] := by decide
  have between : " = ".toList = [' ', '=', ' '] := by decide
  have space : isNameChar ' ' = false := by decide
  have nameChars : ∀ char ∈ column.toList, isNameChar char = true :=
    List.all_eq_true.mp legible.name_chars
  have castEnds : EndsLiteral ((if isJsonb then "::jsonb" else "").toList ++ rest) := by
    cases isJsonb with
    | false => simpa using ends.endsLiteral
    | true => simp [EndsLiteral, apostrophe]
  obtain ⟨literal, quoted, read⟩ := readLiteral_quote castEnds value
  have text : (Assignment.sql { column, value, isJsonb }).toList ++ rest =
      column.toList ++ ([' ', '=', ' ', apostrophe] ++ literal) := by
    simp only [Assignment.sql, String.toList_append, List.append_assoc, between, quoted]
    rfl
  have taken : (column.toList ++ ([' ', '=', ' ', apostrophe] ++ literal)).takeWhile isNameChar =
      column.toList := by
    rw [List.takeWhile_append_of_pos nameChars]
    simp [space]
  have dropped : (column.toList ++ ([' ', '=', ' ', apostrophe] ++ literal)).dropWhile isNameChar =
      [' ', '=', ' ', apostrophe] ++ literal := by
    rw [List.dropWhile_append_of_pos nameChars]
    simp [space]
  rw [cString_of_nulFree legible.nulFree] at read
  simp only [text, readAssignment, taken, dropped, legible.named, if_false, equals,
    readWord_append, Option.bind_some, read, Option.map_some, String.ofList_toList]
  cases isJsonb with
  | false =>
      simp only [Bool.false_eq_true, if_false, String.toList_empty, List.nil_append, ends.noCast]
  | true => simp only [if_true, readWord_append]

/-- The assignments after the first. -/
def followers (others : List Assignment) : List Char :=
  others.flatMap fun assignment => ", ".toList ++ assignment.sql.toList

theorem length_le_followers (others : List Assignment) :
    others.length ≤ (followers others).length := by
  induction others with
  | nil => simp
  | cons assignment others ih =>
      have split : followers (assignment :: others) =
          ", ".toList ++ (assignment.sql.toList ++ followers others) := by
        simp only [followers, List.flatMap_cons, List.append_assoc]
      rw [split, List.length_append, List.length_append, List.length_cons]
      have comma : ", ".toList.length = 2 := by decide
      omega

theorem endsAssignment_followers (others : List Assignment) {rest : List Char}
    (ends : EndsAssignment rest) : EndsAssignment (followers others ++ rest) := by
  cases others with
  | nil => exact ends
  | cons assignment others =>
      intro char isHead
      have head : (followers (assignment :: others) ++ rest).head? = some ',' := by
        simp [followers]
      rw [head] at isHead
      cases isHead
      decide

theorem readAssignments_followers {others : List Assignment} {first : Assignment}
    {rest : List Char} {fuel : Nat} (legible : ∀ assignment ∈ first :: others, assignment.Legible)
    (ends : EndsAssignment rest) (stops : Json.readWord ", ".toList rest = none)
    (enough : others.length < fuel) :
    readAssignments fuel (first.sql.toList ++ (followers others ++ rest)) =
      some (first :: others, rest) := by
  induction others generalizing first fuel with
  | nil =>
      obtain ⟨less, rfl⟩ : ∃ less, fuel = less + 1 := ⟨fuel - 1, by simp at enough; omega⟩
      have read := readAssignment_sql (legible first (by simp)) ends
      simp only [followers, List.flatMap_nil, List.nil_append, readAssignments, read,
        Option.bind_some, stops]
  | cons second others ih =>
      obtain ⟨less, rfl⟩ : ∃ less, fuel = less + 1 := ⟨fuel - 1, by simp at enough; omega⟩
      have read := readAssignment_sql (legible first (by simp))
        (endsAssignment_followers (second :: others) ends)
      have later := @ih second less (fun assignment member =>
        legible assignment (List.mem_cons_of_mem _ member)) (by simpa using enough)
      have split : followers (second :: others) ++ rest =
          ", ".toList ++ (second.sql.toList ++ (followers others ++ rest)) := by
        simp only [followers, List.flatMap_cons, List.append_assoc]
      rw [split] at read ⊢
      simp only [readAssignments, read, Option.bind_some, readWord_append, later,
        Option.map_some]

/-- The text of a list of assignments. -/
def joined : List Assignment → List Char
  | [] => []
  | first :: others => first.sql.toList ++ followers others

theorem joined_snoc (assignments : List Assignment) (last : Assignment) :
    joined (assignments ++ [last]) =
      joined assignments ++
        ((if assignments = [] then [] else ", ".toList) ++ last.sql.toList) := by
  cases assignments with
  | nil => simp [joined, followers]
  | cons first others => simp [joined, followers]

/-- The stream holds the text of these assignments. -/
structure SetList.Holds (list : SetList) (assignments : List Assignment) : Prop where
  sql_eq : list.sql.toList = "UPDATE resources SET ".toList ++ joined assignments
  first_iff : list.first = true ↔ assignments = []

theorem SetList.Holds.add {list : SetList} {assignments : List Assignment}
    (holds : list.Holds assignments) (last : Assignment) :
    (list.add last.column last.value (if last.isJsonb then "::jsonb" else "")).Holds
      (assignments ++ [last]) where
  sql_eq := by
    rw [joined_snoc, ← List.append_assoc, ← holds.sql_eq]
    by_cases first : assignments = []
    · simp [SetList.add, holds.first_iff.mpr first, first, Assignment.sql, String.toList_append]
    · have later := mt holds.first_iff.mp first
      simp [SetList.add, later, first, Assignment.sql, String.toList_append]
  first_iff := by simp [SetList.add]

/-- The assignment of a column that is set if the request has a value for it. -/
def assigned (column : String) (isJsonb : Bool) (value : Option String) : List Assignment :=
  match value with
  | none => []
  | some value => [{ column, value := cString value, isJsonb }]

theorem SetList.Holds.addPresent {list : SetList} {assignments : List Assignment}
    (holds : list.Holds assignments) (column : String) (value : Option String) (isJsonb : Bool) :
    (list.addPresent column value (if isJsonb then "::jsonb" else "")).Holds
      (assignments ++ assigned column isJsonb value) := by
  cases value with
  | none => simpa [SetList.addPresent, assigned] using holds
  | some value =>
      have added := holds.add { column, value := cString value, isJsonb }
      rw [SetList.add, quote_cString] at added
      exact added

/-- The columns a request sets, in order, with the text of their values. -/
def UpdateResourceRequest.assignments (platform : Platform) (request : UpdateResourceRequest) :
    List Assignment :=
  assigned "name" false request.name ++ assigned "status" false request.status ++
    assigned "metadata" true (request.metadata.map platform.dump)

variable {platform : Platform} {request : UpdateResourceRequest} {clientId id : String}

theorem legible_assigned {column : String} {value : Option String} {isJsonb : Bool}
    (named : column.toList ≠ []) (nameChars : column.toList.all isNameChar = true) :
    ∀ assignment ∈ assigned column isJsonb value, assignment.Legible := by
  intro assignment member
  cases value with
  | none => cases member
  | some value =>
      obtain rfl := List.mem_singleton.mp member
      exact ⟨named, nameChars, nulFree_cString value⟩

theorem legible_assignments :
    ∀ assignment ∈ request.assignments platform, assignment.Legible := by
  intro assignment member
  rw [UpdateResourceRequest.assignments, List.mem_append, List.mem_append] at member
  rcases member with (isName | isStatus) | isMetadata
  · exact legible_assigned (by decide) (by decide) assignment isName
  · exact legible_assigned (by decide) (by decide) assignment isStatus
  · exact legible_assigned (by decide) (by decide) assignment isMetadata

theorem setList_holds : (setList platform request).Holds (request.assignments platform) := by
  have start : SetList.Holds { sql := "UPDATE resources SET ", first := true } [] :=
    ⟨by rw [joined, List.append_nil], by simp⟩
  have named := start.addPresent "name" request.name false
  have marked := named.addPresent "status" request.status false
  exact marked.addPresent "metadata" (request.metadata.map platform.dump) true

theorem updateSql_eq : (updateSql platform clientId id request).toList =
    "UPDATE resources SET ".toList ++
      (joined (request.assignments platform) ++ (whereClause clientId id).toList) := by
  rw [updateSql, String.toList_append, setList_holds.sql_eq, List.append_assoc]

/-- A quoted value after some text is read back. -/
theorem readWord_quote {rest : List Char} (ends : EndsLiteral rest) (word value : String) :
    ∃ literal, Json.readWord (word.toList ++ [apostrophe])
        (word.toList ++ ((quote value).toList ++ rest)) = some literal ∧
      readLiteral literal = some ((cString value).toList, rest) := by
  obtain ⟨literal, quoted, read⟩ := readLiteral_quote ends value
  refine ⟨literal, ?_, read⟩
  have split : word.toList ++ ((quote value).toList ++ rest) =
      (word.toList ++ [apostrophe]) ++ literal := by
    rw [quoted, List.append_assoc]
    rfl
  rw [split, readWord_append]

theorem readWhere_whereClause (clientId id : String) :
    readWhere (whereClause clientId id).toList = some (cString clientId, cString id) := by
  have returning : EndsLiteral (" RETURNING ".toList ++ selectColumns.toList) := by
    simp [EndsLiteral, apostrophe]
  obtain ⟨idText, idWord, idRead⟩ := readWord_quote returning " AND id = " id
  have condition : EndsLiteral (" AND id = ".toList ++
      ((quote id).toList ++ (" RETURNING ".toList ++ selectColumns.toList))) := by
    simp [EndsLiteral, apostrophe]
  obtain ⟨clientText, clientWord, clientRead⟩ :=
    readWord_quote condition " WHERE client_id = " clientId
  have clientOpening : " WHERE client_id = '".toList =
      " WHERE client_id = ".toList ++ [apostrophe] := by decide
  have idOpening : " AND id = '".toList = " AND id = ".toList ++ [apostrophe] := by decide
  have text : (whereClause clientId id).toList = " WHERE client_id = ".toList ++
      ((quote clientId).toList ++ (" AND id = ".toList ++
        ((quote id).toList ++ (" RETURNING ".toList ++ selectColumns.toList)))) := by
    unfold whereClause
    simp only [String.toList_append, List.append_assoc]
  simp only [readWhere, text, clientOpening, clientWord, Option.bind_some, clientRead, idOpening,
    idWord, idRead, readWord_append, if_true, String.ofList_toList]

theorem head_whereClause (clientId id : String) :
    (whereClause clientId id).toList.head? = some ' ' := by
  unfold whereClause
  simp [String.toList_append]

theorem endsAssignment_whereClause (clientId id : String) :
    EndsAssignment (whereClause clientId id).toList := by
  intro char isHead
  rw [head_whereClause] at isHead
  cases isHead
  decide

/-- Every assembled statement is read as the assignments of its request, in the row of the
client and the id. -/
theorem readUpdate_updateSql (present : request.assignments platform ≠ []) :
    readUpdate (updateSql platform clientId id request) =
      some { assignments := request.assignments platform, clientId := cString clientId,
             id := cString id } := by
  obtain ⟨first, others, listed⟩ := List.exists_cons_of_ne_nil present
  have legible := @legible_assignments platform request
  rw [listed] at legible
  have stops : Json.readWord ", ".toList (whereClause clientId id).toList = none := by
    obtain ⟨rest, starts⟩ := List.head?_eq_some_iff.mp (head_whereClause clientId id)
    rw [starts]
    rfl
  have enough : others.length <
      (first.sql.toList ++ (followers others ++ (whereClause clientId id).toList)).length := by
    have fits := length_le_followers others
    obtain ⟨rest, starts⟩ := List.head?_eq_some_iff.mp (head_whereClause clientId id)
    rw [List.length_append, List.length_append, starts, List.length_cons]
    omega
  have read := readAssignments_followers legible (endsAssignment_whereClause clientId id) stops
    enough
  rw [readUpdate, updateSql_eq, listed, joined, readWord_append, Option.bind_some,
    List.append_assoc, read, Option.bind_some, readWhere_whereClause]
  rfl

/-- Without a column the statement is a syntax error. -/
theorem readUpdate_eq_none (absent : request.assignments platform = []) :
    readUpdate (updateSql platform clientId id request) = none := by
  obtain ⟨rest, starts⟩ := List.head?_eq_some_iff.mp (head_whereClause clientId id)
  have space : isNameChar ' ' = false := by decide
  rw [readUpdate, updateSql_eq, absent, joined, List.nil_append, readWord_append, starts]
  simp [readAssignments, readAssignment, space]

/-! ## Executing a statement -/

/-- What an assignment makes of a row; `none` is an error of the statement. -/
def Assignment.change (platform : Platform) (assignment : Assignment) :
    Option (Row platform → Row platform) :=
  if assignment.column = "metadata" then
    (platform.jsonbIn assignment.value).map fun metadata row => { row with metadata }
  else if assignment.isJsonb then none
  else if assignment.column = "name" then some fun row => { row with name := assignment.value }
  else if assignment.column = "status" then some fun row => { row with status := assignment.value }
  else none

/-- The server executes a statement it could read.  The trigger `set_updated_at` stamps
the row. -/
def UpdateStatement.execute (statement : UpdateStatement) (database : Database platform)
    (stamp : Stamp) : Executed platform (Option Resource) :=
  match uuidIn statement.clientId, uuidIn statement.id,
      statement.assignments.mapM (Assignment.change platform) with
  | some client, some id, some changes =>
      match database.resources.find client id with
      | none => { answer := .ok none }
      | some row =>
          let new : Row platform :=
            { changes.foldl (fun row change => change row) row with updatedAt := stamp.now }
          match database.resources.replace new with
          | none => { answer := .error .uniqueViolation }
          | some resources =>
              { answer := (decodeRow new).map some, written := some resources }
  | _, _, _ => { answer := .error .other }

/-- `txn.exec` of a statement. -/
def executeSql (database : Database platform) (sql : String) (stamp : Stamp) :
    Executed platform (Option Resource) :=
  match readUpdate sql with
  | none => { answer := .error .other }
  | some statement => statement.execute database stamp

theorem assignments_eq_nil : request.assignments platform = [] ↔
    (request.name.isNone && request.status.isNone && request.metadata.isNone) = true := by
  obtain ⟨name, status, metadata⟩ := request
  cases name <;> cases status <;> cases metadata <;>
    simp [UpdateResourceRequest.assignments, assigned]

/-- The columns that hold text. -/
theorem changes_of_text (name status : Option String) :
    ∃ changes, (assigned "name" false name ++ assigned "status" false status).mapM
        (Assignment.change platform) = some changes ∧
      ∀ row, changes.foldl (fun row change => change row) row =
        { row with
          name := (name.map cString).getD row.name
          status := (status.map cString).getD row.status } := by
  cases name <;> cases status <;> exact ⟨_, rfl, fun row => rfl⟩

/-- The changes of the assignments make the row of the repository, and fail where its cast
does. -/
theorem changes_of_assignments (escapes : ∀ json, NulFree (platform.dump json)) :
    ((request.assignments platform).mapM (Assignment.change platform) = none ∧
        castMetadata platform request.metadata = none) ∨
      ∃ changes metadata,
        (request.assignments platform).mapM (Assignment.change platform) = some changes ∧
        castMetadata platform request.metadata = some metadata ∧
        ∀ row stamp, { changes.foldl (fun row change => change row) row with
          updatedAt := stamp.now } = updatedRow row request metadata stamp := by
  obtain ⟨name, status, metadata⟩ := request
  obtain ⟨changes, textChanges, made⟩ := @changes_of_text platform name status
  cases metadata with
  | none =>
      right
      refine ⟨changes, none, ?_, rfl, fun row stamp => ?_⟩
      · simpa [UpdateResourceRequest.assignments, assigned] using textChanges
      · rw [made]
        rfl
  | some document =>
      have change : Assignment.change platform
          { column := "metadata", value := cString (platform.dump document), isJsonb := true } =
          (platform.jsonbIn (platform.dump document)).map fun metadata row =>
            { row with metadata } := by
        rw [cString_of_nulFree (escapes document)]
        rfl
      have all : (UpdateResourceRequest.assignments platform
          { name, status, metadata := some document }).mapM (Assignment.change platform) =
          ((platform.jsonbIn (platform.dump document)).map fun metadata row =>
            { row with metadata }).map fun last => changes ++ [last] := by
        rw [UpdateResourceRequest.assignments, List.mapM_append, textChanges]
        simp only [Option.map_some, assigned, List.mapM_cons, List.mapM_nil, change]
        cases platform.jsonbIn (platform.dump document) <;> rfl
      cases cast : platform.jsonbIn (platform.dump document) with
      | none =>
          left
          rw [all, cast]
          simp [castMetadata, cast]
      | some metadata =>
          right
          refine ⟨_, some metadata, by rw [all, cast]; rfl, by simp [castMetadata, cast],
            fun row stamp => ?_⟩
          rw [List.foldl_append, made]
          rfl

/-- The operation of the repository is the execution of the text it assembles, when printed
JSON holds no NUL. -/
theorem update_eq_executeSql (escapes : ∀ json, NulFree (platform.dump json))
    (database : Database platform) (clientId id : String) (request : UpdateResourceRequest)
    (stamp : Stamp) :
    update database clientId id request stamp =
      executeSql database (updateSql platform clientId id request) stamp := by
  unfold executeSql update
  by_cases absent : request.assignments platform = []
  · rw [readUpdate_eq_none absent, if_pos (assignments_eq_nil.mp absent)]
  · rw [readUpdate_updateSql absent, if_neg (mt assignments_eq_nil.mpr absent)]
    simp only [UpdateStatement.execute, uuidParam]
    rcases @changes_of_assignments platform request escapes with
      ⟨failed, castFailed⟩ | ⟨changes, metadata, mapped, cast, made⟩
    · rw [failed, castFailed]
      cases uuidIn (cString clientId) <;> cases uuidIn (cString id) <;> rfl
    · rw [mapped, cast]
      cases uuidIn (cString clientId) with
      | none => cases uuidIn (cString id) <;> rfl
      | some client =>
          cases uuidIn (cString id) with
          | none => rfl
          | some uuid =>
              dsimp only
              cases database.resources.find client uuid with
              | none => rfl
              | some row =>
                  have rowEq := made row stamp
                  dsimp only at rowEq ⊢
                  rewrite [rowEq]
                  rfl

end Corvus.Resources
