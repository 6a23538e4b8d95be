import Corvus.Machine
import Corvus.Keyset
import Corvus.Resources.Service

/-!
# Walking through the pages of a list

A client asks for one page after the other while anybody writes.  Written rows
move up in the order, above the position the walk has reached.  The statement
orders by the text it selects for `updated_at` and compares the column with the
position, so the two orders have to agree.
-/

namespace Corvus.Resources

open Corvus.Db

variable {platform : Platform} {clientId : String} {kind status : Option String}

/-! ## Walks -/

/-- A walk in progress: what the next call sends, the pages so far, and the tables there
have been since the start. -/
structure Walk (platform : Platform) where
  database : Database platform
  cursor : Option String
  finished : Bool
  pages : List ListResult
  history : List (Table platform)

inductive WalkEvent where
  | page (limit : Int)
  | create (clientId : String) (request : CreateResourceRequest) (stamp : Stamp)
  | update (clientId id : String) (request : UpdateResourceRequest) (stamp : Stamp)
  | remove (clientId id : String)

/-- The filter of the next call. -/
def Walk.filter (walk : Walk platform) (kind status : Option String) (limit : Int) :
    ListFilter :=
  { kind, status, limit, cursor := walk.cursor }

/-- The walk after a statement of somebody. -/
def Walk.wrote {Answer : Type} (walk : Walk platform) (executed : Executed platform Answer) :
    Walk platform :=
  { walk with
    database := walk.database.after executed
    history := walk.history ++ [(walk.database.after executed).resources] }

/-- Pages of one client's list, with writes by anyone in between. -/
def walking (platform : Platform) (clientId : String) (kind status : Option String) :
    Machine (Walk platform) WalkEvent where
  initial walk := walk.cursor = none ∧ walk.finished = false ∧ walk.pages = [] ∧
    walk.history = [walk.database.resources]
  step walk
    | .page limit =>
        if walk.finished then none
        else match list walk.database clientId (walk.filter kind status limit) with
          | .error _ => none
          | .ok result => some
              { walk with
                cursor := result.nextCursor
                finished := !result.hasMore
                pages := walk.pages ++ [result] }
    | .create owner request stamp =>
        some (walk.wrote (create walk.database owner request stamp))
    | .update owner id request stamp =>
        some (walk.wrote (update walk.database owner id request stamp))
    | .remove owner id => some (walk.wrote (remove walk.database owner id))

/-- Everything the walk has returned. -/
def Walk.returned (walk : Walk platform) : List Resource :=
  walk.pages.flatMap ListResult.items

/-- Clocks do not run backwards, and generated ids are new. -/
def Stamped (walk : Walk platform) : WalkEvent → Prop
  | .create _ _ stamp =>
      (∀ row ∈ walk.database.resources.rows, row.updatedAt ≤ stamp.now) ∧
        ∀ table ∈ walk.history, ∀ row ∈ table.rows, row.id ≠ stamp.freshId
  | .update _ _ _ stamp => ∀ row ∈ walk.database.resources.rows, row.updatedAt ≤ stamp.now
  | _ => True

/-- The rows the list is about. -/
def Walk.Lists (walk : Walk platform) (clientId : String) (kind status : Option String)
    (row : Row platform) : Prop :=
  row ∈ walk.database.resources.rows ∧ ∃ client, uuidParam clientId = some client ∧
    row.Matches client { kind, status }

/-- The position the next call sends, as Postgres casts it. -/
def Walk.sent (walk : Walk platform) (kind status : Option String) (limit : Int) :
    Option (Timestamp × Uuid) :=
  match decodePosition (walk.filter kind status limit) with
  | .ok position => (castPosition platform position).join
  | .error _ => none

/-- The rows of the list that the next call selects. -/
def Walk.Selects (walk : Walk platform) (clientId : String) (kind status : Option String)
    (limit : Int) (row : Row platform) : Prop :=
  walk.Lists clientId kind status row ∧ ∀ position ∈ walk.sent kind status limit,
    row.Below position

/-- The selected texts sort as the timestamps they are made of. -/
def TextsSort (clientId : String) (kind status : Option String) (walk : Walk platform) :
    WalkEvent → Prop
  | .page limit => ∀ left right, walk.Selects clientId kind status limit left →
      walk.Selects clientId kind status limit right →
      (left.updatedAt.toChar.toList < right.updatedAt.toChar.toList ↔
        left.updatedAt < right.updatedAt)
  | _ => True

/-! ## Positions -/

/-- What rows are listed by. -/
def Row.position (row : Row platform) : Timestamp ×ₗ Uuid :=
  toLex (row.updatedAt, row.id)

theorem Row.below_iff {row : Row platform} {position : Timestamp × Uuid} :
    row.Below position ↔ row.position < toLex position := by
  rw [Row.position, Prod.Lex.toLex_lt_toLex, Row.Below]

theorem sortsBefore_iff {left right : Row platform} : SortsBefore left right ↔
    toLex (right.updatedAt.toChar.toList, right.id) ≤
      toLex (left.updatedAt.toChar.toList, left.id) := by
  rw [Prod.Lex.toLex_le_toLex, SortsBefore]

instance : Std.Total (@SortsBefore platform) where
  total left right := by
    rw [sortsBefore_iff, sortsBefore_iff]
    exact le_total _ _

instance : IsTrans (Row platform) SortsBefore where
  trans left middle right first second := by
    rw [sortsBefore_iff] at first second ⊢
    exact second.trans first

theorem toChar_injective : Function.Injective Timestamp.toChar := by
  intro left right same
  have read := congrArg Timestamp.ofText same
  simpa [Timestamp.ofText_toChar] using read

theorem mem_selectRows {table : Table platform} {client : Uuid} {filter : ListFilter}
    {position : Option (Timestamp × Uuid)} {row : Row platform} :
    row ∈ selectRows table client filter position ↔
      row ∈ table.rows ∧ row.Matches client filter ∧ ∀ limit ∈ position, row.Below limit := by
  rw [selectRows, List.mem_insertionSort, List.mem_filter, decide_eq_true_eq]

theorem ids_selectRows (table : Table platform) (client : Uuid) (filter : ListFilter)
    (position : Option (Timestamp × Uuid)) :
    ((selectRows table client filter position).map Row.id).Nodup := by
  have permuted := (List.perm_insertionSort SortsBefore (table.rows.filter fun row =>
    decide (row.Matches client filter ∧ ∀ limit ∈ position, row.Below limit))).map Row.id
  exact permuted.nodup_iff.mpr (table.ids_unique.sublist (List.filter_sublist.map _))

/-- With texts that sort as timestamps, the statement lists in descending order. -/
theorem selectRows_descending {table : Table platform} {client : Uuid} {filter : ListFilter}
    {position : Option (Timestamp × Uuid)}
    (sorts : ∀ left ∈ selectRows table client filter position,
      ∀ right ∈ selectRows table client filter position,
      (left.updatedAt.toChar.toList < right.updatedAt.toChar.toList ↔
        left.updatedAt < right.updatedAt)) :
    Keyset.Descending Row.position (selectRows table client filter position) := by
  have sorted : (selectRows table client filter position).Pairwise SortsBefore :=
    List.pairwise_insertionSort SortsBefore _
  have distinct : (selectRows table client filter position).Pairwise fun left right =>
      left.id ≠ right.id := List.pairwise_map.mp (ids_selectRows table client filter position)
  refine (sorted.and distinct).imp_of_mem fun {left right} leftIn rightIn ordered => ?_
  obtain ⟨before, different⟩ := ordered
  rw [Row.position, Row.position, Prod.Lex.toLex_lt_toLex]
  rcases before with earlier | ⟨sameText, idLe⟩
  · exact Or.inl ((sorts right rightIn left leftIn).mp earlier)
  · exact Or.inr ⟨toChar_injective (String.toList_inj.mp sameText),
      lt_of_le_of_ne idLe (Ne.symm different)⟩

/-! ## The cursor on its way -/

theorem ne_of_toChar {time : Timestamp} {char : Char} (member : char ∈ time.toChar.toList) :
    char ≠ '|' ∧ char ≠ '\x00' := by
  rcases Timestamp.toChar_chars member with separator | ⟨digit, small, rfl⟩
  · simp only [List.mem_cons, List.not_mem_nil, or_false] at separator
    rcases separator with rfl | rfl | rfl | rfl | rfl <;> decide
  · have digits : ∀ digit < 10,
        Char.ofNat (48 + digit) ≠ '|' ∧ Char.ofNat (48 + digit) ≠ '\x00' := by decide
    exact digits digit small

/-- The cursor of a position. -/
def cursorOf (position : Timestamp × Uuid) : String :=
  encodeCursor position.1.toChar (uuidOut position.2)

theorem decodeCursor_cursorOf (position : Timestamp × Uuid) :
    decodeCursor (cursorOf position) = .ok
      { updatedAt := bytesOf position.1.toChar, id := bytesOf (uuidOut position.2) } := by
  apply decodeCursor_encodeCursor
  · intro empty
    have last : 'Z' ∈ position.1.toChar.toList := by simp [Timestamp.toChar]
    rw [empty] at last
    simp at last
  · exact fun member => (ne_of_toChar member).1 rfl
  · intro empty
    have read := uuidIn_uuidOut position.2
    rw [empty] at read
    have absent : uuidIn "" = none := by decide
    rw [absent] at read
    cases read

/-- A cursor stands for the position it was made of. -/
theorem position_of_cursor (casts : platform.ReadsTimestamps) {filter : ListFilter}
    {position : Option (Timestamp × Uuid)} (cursorEq : filter.cursor = position.map cursorOf) :
    ∃ sent, decodePosition filter = .ok sent ∧ castPosition platform sent = some position := by
  cases position with
  | none =>
      rw [Option.map_none] at cursorEq
      exact ⟨none, by rw [decodePosition, cursorEq], rfl⟩
  | some position =>
      rw [Option.map_some] at cursorEq
      have decoded := decodeCursor_cursorOf position
      have notEmpty : cursorOf position ≠ "" := by
        intro empty
        rw [empty] at decoded
        have malformed : decodeCursor "" = .error ⟨"cursor is malformed"⟩ := by decide
        rw [malformed] at decoded
        cases decoded
      have nulFree : NulFree position.1.toChar := fun member => (ne_of_toChar member).2 rfl
      refine ⟨some { updatedAt := bytesOf position.1.toChar, id := bytesOf (uuidOut position.2) },
        ?_, ?_⟩
      · simp only [decodePosition, cursorEq, notEmpty, if_false, decoded]
      simp only [castPosition, cBytes_bytesOf nulFree, cBytes_bytesOf (nulFree_uuidOut _),
        textOf?_bytesOf, Option.bind_eq_bind, Option.bind_some, casts.timestamptz_to_char,
        uuidIn_uuidOut]
      rfl

/-! ## One page -/

/-- Every row can be decoded. -/
theorem exists_decode (reads : platform.ReadsDocuments) :
    ∃ decode : Row platform → Resource, ∀ row, rowToResource row = some (decode row) := by
  have decodes : ∀ row : Row platform, ∃ resource, rowToResource row = some resource := by
    intro row
    obtain ⟨document, parsed⟩ := reads.parse_jsonb_out row.metadata
    exact ⟨_, by rw [rowToResource, parsed]; rfl⟩
  exact Classical.skolem.mp decodes

variable {decode : Row platform → Resource}

theorem id_of_decode (decodes : ∀ row, rowToResource row = some (decode row))
    (row : Row platform) : (decode row).id = uuidOut row.id ∧
      (decode row).updatedAt = row.updatedAt.toChar := by
  have decoded := decodes row
  simp only [rowToResource, Option.map_eq_some_iff] at decoded
  obtain ⟨metadata, _, same⟩ := decoded
  rw [← same]
  exact ⟨rfl, rfl⟩

/-- The page of the first rows of a list. -/
def pageResult (decode : Row platform → Resource) (rows : List (Row platform)) (size : Nat) :
    ListResult where
  items := (rows.take size).map decode
  nextCursor := if size < rows.length then
      (rows.take size).getLast?.map fun last => cursorOf (last.updatedAt, last.id)
    else none
  hasMore := decide (size < rows.length)

/-- A call with the cursor of a position returns the first rows below it. -/
theorem list_of_position (casts : platform.ReadsTimestamps)
    (decodes : ∀ row, rowToResource row = some (decode row)) {database : Database platform}
    {filter : ListFilter} {position : Option (Timestamp × Uuid)} {client : Uuid}
    (clientEq : uuidParam clientId = some client)
    (cursorEq : filter.cursor = position.map cursorOf) :
    list database clientId filter =
      .ok (pageResult decode (selectRows database.resources client filter position)
        (pageSize filter)) := by
  obtain ⟨sent, decoded, cast⟩ := position_of_cursor casts cursorEq
  have isDecode : rowToResource = fun row : Row platform => (pure (decode row) : Option _) :=
    funext decodes
  have taken : ∀ rows : List (Row platform), (rows.take (pageSize filter + 1)).take
      (pageSize filter) = rows.take (pageSize filter) := by
    intro rows
    rw [List.take_take, Nat.min_eq_left (Nat.le_succ _)]
  have more : ∀ rows : List (Row platform), pageSize filter <
      (rows.take (pageSize filter + 1)).length ↔ pageSize filter < rows.length := by
    intro rows
    rw [List.length_take]
    omega
  simp only [list, decoded, clientEq, cast, pageOf, pageResult]
  rw [taken, isDecode, List.mapM_pure]
  simp only [pure, more, decide_eq_true_eq, List.getLast?_map, Option.map_map]
  have lastCursor : ((fun last => encodeCursor last.updatedAt last.id) ∘ decode) =
      fun last : Row platform => cursorOf (last.updatedAt, last.id) := by
    funext last
    obtain ⟨idEq, updatedEq⟩ := id_of_decode decodes last
    simp only [Function.comp, idEq, updatedEq, cursorOf]
  rw [lastCursor]

/-! ## The invariant -/

/-- A returned resource: its row was there, and a row of this id stands at or above the
position by now. -/
def Passed (walk : Walk platform) (position : Option (Timestamp × Uuid)) (resource : Resource) :
    Prop :=
  ∃ row : Row platform, resource.id = uuidOut row.id ∧ (∃ table ∈ walk.history, row ∈ table.rows) ∧
    ∃ reached ∈ position, ∀ current ∈ walk.database.resources.rows, current.id = row.id →
      ¬current.Below reached

/-- The row is there, as it is, throughout the walk. -/
def Steady (walk : Walk platform) (row : Row platform) : Prop :=
  ∀ table ∈ walk.history, row ∈ table.rows

structure WalkHolds (decode : Row platform → Resource) (client : Uuid)
    (kind status : Option String) (walk : Walk platform)
    (position : Option (Timestamp × Uuid)) : Prop where
  current : walk.database.resources ∈ walk.history
  cursor : walk.finished = false → walk.cursor = position.map cursorOf
  passed : ∀ resource ∈ walk.returned, Passed walk position resource
  covered : ∀ row, Steady walk row → row.Matches client { kind, status } →
    decode row ∈ walk.returned ∨ walk.finished = false ∧ ∀ reached ∈ position, row.Below reached
  distinct : (walk.returned.map Resource.id).Nodup

/-! ## Pages -/

section

variable {walk : Walk platform} {client : Uuid} {position : Option (Timestamp × Uuid)}
  {limit : Int}

/-- The rows a page call selects. -/
def Walk.rows (walk : Walk platform) (client : Uuid) (kind status : Option String)
    (position : Option (Timestamp × Uuid)) (limit : Int) : List (Row platform) :=
  selectRows walk.database.resources client (walk.filter kind status limit) position

/-- Where a page with some rows leaves the walk. -/
def reachedBy (rows : List (Row platform)) (position : Option (Timestamp × Uuid)) :
    Option (Timestamp × Uuid) :=
  (rows.getLast?.map fun last => (last.updatedAt, last.id)).or position

/-- The position a walk is at is the one its next call sends. -/
theorem Walk.sent_eq (casts : platform.ReadsTimestamps)
    (cursorEq : walk.cursor = position.map cursorOf) :
    walk.sent kind status limit = position := by
  obtain ⟨sent, decoded, cast⟩ := @position_of_cursor _ casts (walk.filter kind status limit)
    position cursorEq
  rw [Walk.sent, decoded]
  simp only [cast, Option.join_some]

theorem Walk.rows_descending (casts : platform.ReadsTimestamps)
    (clientEq : uuidParam clientId = some client)
    (cursorEq : walk.cursor = position.map cursorOf)
    (sorts : TextsSort clientId kind status walk (.page limit)) :
    Keyset.Descending Row.position (walk.rows client kind status position limit) := by
  have selected : ∀ row ∈ walk.rows client kind status position limit,
      walk.Selects clientId kind status limit row := by
    intro row member
    obtain ⟨inTable, isMatch, below⟩ := mem_selectRows.mp member
    rw [Walk.Selects, walk.sent_eq casts cursorEq]
    exact ⟨⟨inTable, client, clientEq, isMatch⟩, below⟩
  exact selectRows_descending fun left leftIn right rightIn =>
    sorts left right (selected left leftIn) (selected right rightIn)

/-- Nothing a page returns, and nothing returned before, is below the position it leaves. -/
theorem not_below_reached {rows : List (Row platform)}
    (sorted : Keyset.Descending Row.position rows)
    (below : ∀ row ∈ rows, ∀ reached ∈ position, row.Below reached) {row : Row platform}
    (passed : row ∈ rows ∨ ∃ reached ∈ position, ¬row.Below reached) {reached : Timestamp × Uuid}
    (isReached : reached ∈ reachedBy rows position) : ¬row.Below reached := by
  cases isLast : rows.getLast? with
  | none =>
      rw [List.getLast?_eq_none_iff] at isLast
      subst isLast
      rcases passed with onPage | ⟨before, isPosition, notBelow⟩
      · cases onPage
      · simp only [reachedBy, List.getLast?_nil, Option.map_none, Option.none_or] at isReached
        cases Option.mem_unique isReached isPosition
        exact notBelow
  | some last =>
      simp only [reachedBy, isLast, Option.map_some, Option.some_or, Option.mem_def,
        Option.some.injEq] at isReached
      subst isReached
      rw [Row.below_iff, not_lt]
      rcases passed with onPage | ⟨before, isPosition, notBelow⟩
      · exact sorted.last_le isLast onPage
      · have lastBelow := below last (List.mem_of_getLast? isLast) before isPosition
        rw [Row.below_iff] at lastBelow notBelow
        exact lastBelow.le.trans (not_lt.mp notBelow)

theorem exists_reached {rows : List (Row platform)}
    (some : rows ≠ [] ∨ ∃ reached, reached ∈ position) :
    ∃ reached, reached ∈ reachedBy rows position := by
  cases isLast : rows.getLast? with
  | none =>
      rw [List.getLast?_eq_none_iff] at isLast
      rcases some with notEmpty | ⟨reached, isPosition⟩
      · exact (notEmpty isLast).elim
      · exact ⟨reached, by simpa [reachedBy, isLast] using isPosition⟩
  | some last => exact ⟨(last.updatedAt, last.id), by simp [reachedBy, isLast]⟩

theorem one_le_pageSize (filter : ListFilter) : 1 ≤ pageSize filter := by
  unfold pageSize
  omega

/-- The page a call of a walk returns. -/
def Walk.page (walk : Walk platform) (decode : Row platform → Resource) (client : Uuid)
    (kind status : Option String) (position : Option (Timestamp × Uuid)) (limit : Int) :
    ListResult :=
  pageResult decode (walk.rows client kind status position limit)
    (pageSize (walk.filter kind status limit))

/-- The walk after a page. -/
def Walk.turned (walk : Walk platform) (page : ListResult) : Walk platform :=
  { walk with
    cursor := page.nextCursor
    finished := !page.hasMore
    pages := walk.pages ++ [page] }

/-- What a page call of a walk does. -/
theorem page_step (casts : platform.ReadsTimestamps)
    (decodes : ∀ row, rowToResource row = some (decode row))
    (clientEq : uuidParam clientId = some client) (running : walk.finished = false)
    (cursorEq : walk.cursor = position.map cursorOf) :
    (walking platform clientId kind status).step walk (.page limit) =
      some (walk.turned (walk.page decode client kind status position limit)) := by
  have listed := @list_of_position platform clientId decode casts decodes walk.database
    (walk.filter kind status limit) position client clientEq cursorEq
  simp only [walking, running, listed]
  rfl

theorem page_cases (casts : platform.ReadsTimestamps)
    (decodes : ∀ row, rowToResource row = some (decode row))
    (clientEq : uuidParam clientId = some client)
    (cursorEq : walk.finished = false → walk.cursor = position.map cursorOf)
    {next : Walk platform}
    (stepped : (walking platform clientId kind status).step walk (.page limit) = some next) :
    walk.finished = false ∧
      next = walk.turned (walk.page decode client kind status position limit) := by
  cases running : walk.finished with
  | true =>
      simp only [walking, running] at stepped
      cases stepped
  | false =>
      rw [page_step casts decodes clientEq running (cursorEq running)] at stepped
      exact ⟨rfl, (Option.some.inj stepped).symm⟩

/-- The rows of a page and what becomes of the others. -/
theorem mem_rows {row : Row platform} :
    row ∈ walk.rows client kind status position limit ↔
      row ∈ walk.database.resources.rows ∧ row.Matches client { kind, status } ∧
        ∀ reached ∈ position, row.Below reached :=
  mem_selectRows

theorem returned_page {next : Walk platform} {page : ListResult}
    (pagesEq : next.pages = walk.pages ++ [page]) :
    next.returned = walk.returned ++ page.items := by
  simp [Walk.returned, pagesEq]

/-- A page takes what is next below the position. -/
theorem WalkHolds.page (casts : platform.ReadsTimestamps)
    (decodes : ∀ row, rowToResource row = some (decode row))
    (clientEq : uuidParam clientId = some client)
    (holds : WalkHolds decode client kind status walk position)
    (sorts : TextsSort clientId kind status walk (.page limit)) {next : Walk platform}
    (stepped : (walking platform clientId kind status).step walk (.page limit) = some next) :
    WalkHolds decode client kind status next
      (reachedBy ((walk.rows client kind status position limit).take
        (pageSize (walk.filter kind status limit))) position) := by
  obtain ⟨running, nextEq⟩ := page_cases casts decodes clientEq holds.cursor stepped
  have sorted := @Walk.rows_descending _ _ kind status walk client position limit casts clientEq
    (holds.cursor running) sorts
  have isRow := fun row => @mem_rows _ kind status walk client position limit row
  have ids : ((walk.rows client kind status position limit).map Row.id).Nodup :=
    ids_selectRows _ _ _ _
  have positive := one_le_pageSize (walk.filter kind status limit)
  rw [Walk.page] at nextEq
  generalize walk.rows client kind status position limit = rows at *
  generalize pageSize (walk.filter kind status limit) = size at *
  have returnedEq : next.returned = walk.returned ++ (rows.take size).map decode :=
    returned_page (congrArg Walk.pages nextEq)
  have databaseEq : next.database = walk.database := by
    rw [nextEq]
    rfl
  have historyEq : next.history = walk.history := by
    rw [nextEq]
    rfl
  have finishedEq : next.finished = !decide (size < rows.length) := by
    rw [nextEq]
    rfl
  have pageSorted := sorted.take size
  have below : ∀ row ∈ rows.take size, ∀ reached ∈ position, row.Below reached :=
    fun row onPage => ((isRow row).mp (List.mem_of_mem_take onPage)).2.2
  have inTable : ∀ row ∈ rows.take size, row ∈ walk.database.resources.rows :=
    fun row onPage => ((isRow row).mp (List.mem_of_mem_take onPage)).1
  have stays : ∀ row : Row platform, (row ∈ rows.take size ∨ ∃ reached ∈ position,
      ¬row.Below reached) → ∀ reached ∈ reachedBy (rows.take size) position,
        ¬row.Below reached :=
    fun row passed reached isReached => not_below_reached pageSorted below passed isReached
  refine ⟨?_, fun nextRunning => ?_, fun resource member => ?_, fun row steady isMatch => ?_, ?_⟩
  · rw [databaseEq, historyEq]
    exact holds.current
  · have more : size < rows.length := by simpa [nextRunning] using finishedEq
    have cursorEq := congrArg Walk.cursor nextEq
    simp only [pageResult, more, if_true] at cursorEq
    have notEmpty : rows.take size ≠ [] := by
      rw [← List.length_pos_iff, List.length_take]
      omega
    rw [cursorEq, reachedBy, List.getLast?_eq_some_getLast notEmpty]
    rfl
  · rw [returnedEq, List.mem_append, List.mem_map] at member
    rcases member with before | ⟨row, onPage, rfl⟩
    · obtain ⟨row, idEq, wasThere, reached, isPosition, notBelow⟩ := holds.passed resource before
      obtain ⟨after, isReached⟩ := @exists_reached _ position (rows.take size)
        (Or.inr ⟨reached, isPosition⟩)
      refine ⟨row, idEq, historyEq ▸ wasThere, after, isReached, fun current member sameId => ?_⟩
      rw [databaseEq] at member
      exact stays current (Or.inr ⟨reached, isPosition, notBelow current member sameId⟩) after
        isReached
    · obtain ⟨after, isReached⟩ := @exists_reached _ position (rows.take size)
        (Or.inl (List.ne_nil_of_mem onPage))
      refine ⟨row, (id_of_decode decodes row).1,
        ⟨_, historyEq ▸ holds.current, inTable row onPage⟩, after, isReached,
        fun current member sameId => ?_⟩
      rw [databaseEq] at member
      obtain rfl := Table.eq_of_id member (inTable row onPage) sameId
      exact stays current (Or.inl onPage) after isReached
  · rw [returnedEq, List.mem_append, List.mem_map]
    have wasSteady : Steady walk row := fun table member => steady table (historyEq ▸ member)
    rcases holds.covered row wasSteady isMatch with before | ⟨_, notReached⟩
    · exact Or.inl (Or.inl before)
    · have selected : row ∈ rows :=
        (isRow row).mpr ⟨wasSteady _ holds.current, isMatch, notReached⟩
      have notEmpty : rows.take size ≠ [] := by
        have some := List.length_pos_of_mem selected
        rw [← List.length_pos_iff, List.length_take]
        omega
      have isLast := List.getLast?_eq_some_getLast notEmpty
      rcases sorted.mem_take_or_below isLast selected with onPage | lower
      · exact Or.inl (Or.inr ⟨row, onPage, rfl⟩)
      · right
        have more := (sorted.exists_below_iff isLast).mp ⟨row, selected, lower⟩
        refine ⟨by simp [finishedEq, more], fun reached isReached => ?_⟩
        simp only [reachedBy, isLast, Option.map_some, Option.some_or, Option.mem_def,
          Option.some.injEq] at isReached
        subst isReached
        exact Row.below_iff.mpr lower
  · rw [returnedEq, List.map_append, List.map_map, List.nodup_append]
    refine ⟨holds.distinct, ?_, fun before member new newMember same => ?_⟩
    · have idsEq : (rows.take size).map (Resource.id ∘ decode) =
          ((rows.take size).map Row.id).map uuidOut := by
        rw [List.map_map]
        exact List.map_congr_left fun row _ => (id_of_decode decodes row).1
      rw [idsEq]
      exact (ids.sublist ((List.take_sublist size rows).map _)).map uuidOut_injective
    · obtain ⟨resource, wasReturned, rfl⟩ := List.mem_map.mp member
      obtain ⟨row, onPage, rfl⟩ := List.mem_map.mp newMember
      obtain ⟨other, idEq, _, reached, isPosition, notBelow⟩ := holds.passed resource wasReturned
      have sameId : row.id = other.id := uuidOut_injective
        ((id_of_decode decodes row).1.symm.trans (same.symm.trans idEq))
      exact notBelow row (inTable row onPage) sameId (below row onPage reached isPosition)

/-! ## Writes -/

/-- What a statement makes of a table: rows stay, are written later than they were, or
are new. -/
def Evolves (walk : Walk platform) (after : Table platform) : Prop :=
  ∀ row ∈ after.rows, row ∈ walk.database.resources.rows ∨
    (∃ old ∈ walk.database.resources.rows, old.id = row.id ∧ old.updatedAt ≤ row.updatedAt) ∨
    ∀ table ∈ walk.history, ∀ other ∈ table.rows, other.id ≠ row.id

theorem evolves_create {owner : String} {request : CreateResourceRequest} {stamp : Stamp}
    (stamped : Stamped walk (.create owner request stamp)) :
    Evolves walk (walk.database.after (create walk.database owner request stamp)).resources := by
  rcases create_cases walk.database owner request stamp with
    ⟨error, failed⟩ | ⟨ofClient, metadata, resources, _, _, inserted, executed⟩
  · rw [failed]
    exact fun row member => Or.inl member
  · rw [executed]
    intro row member
    rcases (Table.mem_insert inserted).mp member with before | rfl
    · exact Or.inl before
    · exact Or.inr (Or.inr stamped.2)

theorem evolves_update {owner id : String} {request : UpdateResourceRequest} {stamp : Stamp}
    (stamped : Stamped walk (.update owner id request stamp)) :
    Evolves walk (walk.database.after (update walk.database owner id request stamp)).resources := by
  rcases update_cases walk.database owner id request stamp with
    ⟨error, failed⟩ | ⟨_, _, _, _, _, absent⟩ |
      ⟨ofClient, uuid, metadata, old, resources, _, _, _, found, replaced, executed⟩
  · rw [failed]
    exact fun row member => Or.inl member
  · rw [absent]
    exact fun row member => Or.inl member
  · rw [executed]
    intro row member
    have oldIn := (Table.find_eq_some.mp found).1
    rcases (Table.mem_replace replaced oldIn rfl).mp member with ⟨before, _⟩ | rfl
    · exact Or.inl before
    · exact Or.inr (Or.inl ⟨old, oldIn, rfl, stamped old oldIn⟩)

theorem evolves_remove (owner id : String) :
    Evolves walk (walk.database.after (remove walk.database owner id)).resources := by
  rcases remove_cases walk.database owner id with
    ⟨error, failed⟩ | ⟨_, _, _, _, _, absent⟩ | ⟨ofClient, uuid, old, _, _, _, executed⟩
  · rw [failed]
    exact fun row member => Or.inl member
  · rw [absent]
    exact fun row member => Or.inl member
  · rw [executed]
    exact fun row member => Or.inl (Table.mem_delete.mp member).1

/-- Rows that are written move up, away from the position. -/
theorem WalkHolds.wrote (holds : WalkHolds decode client kind status walk position)
    {Answer : Type} {executed : Executed platform Answer}
    (evolves : Evolves walk (walk.database.after executed).resources) :
    WalkHolds decode client kind status (walk.wrote executed) position where
  current := List.mem_append_right _ (List.mem_singleton.mpr rfl)
  cursor := holds.cursor
  passed resource member := by
    obtain ⟨row, idEq, ⟨table, inHistory, rowIn⟩, reached, isPosition, notBelow⟩ :=
      holds.passed resource member
    refine ⟨row, idEq, ⟨table, List.mem_append_left _ inHistory, rowIn⟩, reached, isPosition,
      fun current currentIn sameId => ?_⟩
    rcases evolves current currentIn with before | ⟨old, oldIn, oldId, later⟩ | isNew
    · exact notBelow current before sameId
    · have oldNotBelow := notBelow old oldIn (oldId.trans sameId)
      rw [Row.below_iff, not_lt] at oldNotBelow ⊢
      refine oldNotBelow.trans ?_
      rw [Row.position, Row.position, oldId, Prod.Lex.toLex_le_toLex]
      rcases later.lt_or_eq with earlier | same
      · exact Or.inl earlier
      · exact Or.inr ⟨same, le_rfl⟩
    · exact (isNew table inHistory row rowIn sameId.symm).elim
  covered row steady isMatch :=
    holds.covered row (fun table member => steady table (List.mem_append_left _ member)) isMatch
  distinct := holds.distinct

/-! ## Whole walks -/

/-- The guard of the walks in which nothing is lost: stamps do not run backwards, and at
each page the selected texts sort as the timestamps. -/
def SteadyOrder (clientId : String) (kind status : Option String) (walk : Walk platform)
    (event : WalkEvent) : Prop :=
  Stamped walk event ∧ TextsSort clientId kind status walk event

theorem walkHolds_of_reachable (casts : platform.ReadsTimestamps)
    (decodes : ∀ row, rowToResource row = some (decode row))
    (clientEq : uuidParam clientId = some client)
    (reachable : (walking platform clientId kind status).Reachable
      (SteadyOrder clientId kind status) walk) :
    ∃ position, WalkHolds decode client kind status walk position := by
  refine @Machine.Reachable.invariant _ _ _ _
    (fun state => ∃ position, WalkHolds decode client kind status state position) ?_ ?_ _ reachable
  · rintro start ⟨cursorEq, running, pagesEq, historyEq⟩
    have nothing : start.returned = [] := by simp [Walk.returned, pagesEq]
    refine ⟨none, by simp [historyEq], fun _ => cursorEq, ?_, fun row _ _ => Or.inr ⟨running, ?_⟩,
      by simp [nothing]⟩
    · simp [nothing]
    · simp
  · rintro state event next ⟨position, holds⟩ ⟨stamped, sorts⟩ stepped
    cases event with
    | page limit => exact ⟨_, holds.page casts decodes clientEq sorts stepped⟩
    | create owner request stamp =>
        cases stepped
        exact ⟨position, holds.wrote (evolves_create stamped)⟩
    | update owner id request stamp =>
        cases stepped
        exact ⟨position, holds.wrote (evolves_update stamped)⟩
    | remove owner id =>
        cases stepped
        exact ⟨position, holds.wrote (evolves_remove owner id)⟩

/-- A list for something that is no UUID fails. -/
theorem list_of_noClient {database : Database platform} {filter : ListFilter}
    (noClient : uuidParam clientId = none) (result : ListResult) :
    list database clientId filter ≠ .ok result := by
  unfold list
  rw [noClient]
  split <;> simp

theorem nothing_of_noClient (noClient : uuidParam clientId = none)
    {guard : Walk platform → WalkEvent → Prop}
    (reachable : (walking platform clientId kind status).Reachable guard walk) :
    walk.pages = [] := by
  refine @Machine.Reachable.invariant _ _ _ _ (fun state => state.pages = []) ?_ ?_ _ reachable
  · rintro start ⟨_, _, pagesEq, _⟩
    exact pagesEq
  · intro state event next nothing _ stepped
    cases event with
    | page limit =>
        simp only [walking] at stepped
        split at stepped
        · cases stepped
        · split at stepped
          · cases stepped
          · rename_i result listed
            exact (list_of_noClient noClient result listed).elim
    | _ =>
        cases stepped
        exact nothing

/-- What a page has to be: no longer than asked for, in descending order, and followed by
another exactly if a row of the list is below its last item. -/
def PageSound (walk : Walk platform) (clientId : String) (kind status : Option String)
    (limit : Int) (page : ListResult) : Prop :=
  page.items.length ≤ (max 1 (min limit 200)).toNat ∧
    (page.nextCursor.isSome = true ↔ page.hasMore = true) ∧
    ∃ rows : List (Row platform), rows.mapM rowToResource = some page.items ∧
      (∀ row ∈ rows, walk.Lists clientId kind status row) ∧
      Keyset.Descending Row.position rows ∧
      (page.hasMore = true ↔ ∃ last row, rows.getLast? = some last ∧
        walk.Lists clientId kind status row ∧ row.Below (last.updatedAt, last.id))

theorem WalkHolds.pageSound (casts : platform.ReadsTimestamps)
    (decodes : ∀ row, rowToResource row = some (decode row))
    (clientEq : uuidParam clientId = some client)
    (holds : WalkHolds decode client kind status walk position)
    (sorts : TextsSort clientId kind status walk (.page limit)) {next : Walk platform}
    (stepped : (walking platform clientId kind status).step walk (.page limit) = some next) :
    ∃ page, next.pages = walk.pages ++ [page] ∧
      PageSound walk clientId kind status limit page := by
  obtain ⟨running, nextEq⟩ := page_cases casts decodes clientEq holds.cursor stepped
  refine ⟨walk.page decode client kind status position limit, congrArg Walk.pages nextEq, ?_⟩
  have sorted := @Walk.rows_descending _ _ kind status walk client position limit casts clientEq
    (holds.cursor running) sorts
  have isRow := fun row => @mem_rows _ kind status walk client position limit row
  have sizeEq : pageSize (walk.filter kind status limit) = (max 1 (min limit 200)).toNat := rfl
  have positive := one_le_pageSize (walk.filter kind status limit)
  rw [Walk.page]
  generalize walk.rows client kind status position limit = rows at *
  rw [PageSound, ← sizeEq]
  generalize pageSize (walk.filter kind status limit) = size at *
  have isDecode : rowToResource = fun row : Row platform => (pure (decode row) : Option _) :=
    funext decodes
  have notEmpty : size < rows.length → rows.take size ≠ [] := by
    intro more
    rw [← List.length_pos_iff, List.length_take]
    omega
  refine ⟨by simp [pageResult], ?_, rows.take size, ?_, ?_, sorted.take size, ?_⟩
  · by_cases more : size < rows.length
    · simp [pageResult, more, List.getLast?_eq_some_getLast (notEmpty more)]
    · simp [pageResult, more]
  · rw [isDecode, List.mapM_pure]
    rfl
  · intro row onPage
    obtain ⟨inTable, isMatch, _⟩ := (isRow row).mp (List.mem_of_mem_take onPage)
    exact ⟨inTable, client, clientEq, isMatch⟩
  · simp only [pageResult, decide_eq_true_eq]
    constructor
    · intro more
      have isLast := List.getLast?_eq_some_getLast (notEmpty more)
      obtain ⟨row, isIn, lower⟩ := (sorted.exists_below_iff isLast).mpr more
      obtain ⟨inTable, isMatch, _⟩ := (isRow row).mp isIn
      exact ⟨_, row, isLast, ⟨inTable, client, clientEq, isMatch⟩, Row.below_iff.mpr lower⟩
    · rintro ⟨last, row, isLast, ⟨inTable, other, otherEq, isMatch⟩, lower⟩
      cases clientEq.symm.trans otherEq
      rw [Row.below_iff] at lower
      refine (sorted.exists_below_iff isLast).mp ⟨row, ?_, lower⟩
      have lastIn := (isRow last).mp (List.mem_of_mem_take (List.mem_of_getLast? isLast))
      refine (isRow row).mpr ⟨inTable, isMatch, fun reached isPosition => ?_⟩
      exact Row.below_iff.mpr (lower.trans (Row.below_iff.mp (lastIn.2.2 reached isPosition)))

/-- Every walk returns each id once at most, has returned what stayed as it was when it is
finished, and all its pages are as they have to be. -/
theorem walk_complete (reads : platform.ReadsDocuments) (casts : platform.ReadsTimestamps)
    (reachable : (walking platform clientId kind status).Reachable
      (SteadyOrder clientId kind status) walk) :
    (walk.returned.map Resource.id).Nodup ∧
      (walk.finished = true → ∀ client row, uuidParam clientId = some client →
        row.Matches client { kind, status } → Steady walk row →
        ∃ resource ∈ walk.returned, rowToResource row = some resource) ∧
      ∀ limit next, (walking platform clientId kind status).step walk (.page limit) = some next →
        TextsSort clientId kind status walk (.page limit) →
        ∃ page, next.pages = walk.pages ++ [page] ∧
          PageSound walk clientId kind status limit page := by
  obtain ⟨decode, decodes⟩ := exists_decode reads
  cases clientEq : uuidParam clientId with
  | none =>
      have nothing := nothing_of_noClient clientEq reachable
      refine ⟨by simp [Walk.returned, nothing], fun _ client row found => ?_,
        fun limit next stepped => ?_⟩
      · cases found
      simp only [walking] at stepped
      split at stepped
      · cases stepped
      · split at stepped
        · cases stepped
        · rename_i result listed
          exact (list_of_noClient clientEq result listed).elim
  | some client =>
      obtain ⟨position, holds⟩ := walkHolds_of_reachable casts decodes clientEq reachable
      refine ⟨holds.distinct, fun finished other row same isMatch steady => ?_,
        fun limit next stepped sorts => holds.pageSound casts decodes clientEq sorts stepped⟩
      cases same
      rcases holds.covered row steady isMatch with returned | ⟨running, _⟩
      · exact ⟨_, returned, decodes row⟩
      · rw [finished] at running
        cases running

/-- With four-digit years the texts always sort as the timestamps. -/
theorem textsSort_of_years (event : WalkEvent)
    (years : ∀ row ∈ walk.database.resources.rows, row.updatedAt.year < 10000) :
    TextsSort clientId kind status walk event := by
  cases event with
  | page limit =>
      exact fun left right isLeft isRight =>
        Timestamp.toChar_lt_iff (years left isLeft.1.1) (years right isRight.1.1)
  | _ => trivial

end

/-! ## A walk with writes between its pages -/

def startOf (database : Database Platform.reference) : Walk Platform.reference where
  database
  cursor := none
  finished := false
  pages := []
  history := [database.resources]

/-- `SteadyOrder`, for years of four digits. -/
def steadyCheck (walk : Walk platform) : WalkEvent → Bool
  | .page _ => walk.database.resources.rows.all fun row => decide (row.updatedAt.year < 10000)
  | .create _ _ stamp =>
      (walk.database.resources.rows.all fun row => decide (row.updatedAt ≤ stamp.now)) &&
        walk.history.all fun table => table.rows.all fun row => decide (row.id ≠ stamp.freshId)
  | .update _ _ _ stamp =>
      walk.database.resources.rows.all fun row => decide (row.updatedAt ≤ stamp.now)
  | .remove _ _ => true

theorem steadyOrder_of_check {walk : Walk platform} {event : WalkEvent}
    (checked : steadyCheck walk event = true) : SteadyOrder clientId kind status walk event := by
  cases event with
  | page limit =>
      refine ⟨trivial, textsSort_of_years (.page limit) fun row member => ?_⟩
      exact of_decide_eq_true (List.all_eq_true.mp checked row member)
  | create owner request stamp =>
      rw [steadyCheck, Bool.and_eq_true, List.all_eq_true, List.all_eq_true] at checked
      refine ⟨⟨fun row member => of_decide_eq_true (checked.1 row member),
        fun table inHistory row member => ?_⟩, trivial⟩
      exact of_decide_eq_true (List.all_eq_true.mp (checked.2 table inHistory) row member)
  | update owner id request stamp =>
      exact ⟨fun row member => of_decide_eq_true (List.all_eq_true.mp checked row member), trivial⟩
  | remove owner id => exact ⟨trivial, trivial⟩

def laterId (last : UInt8) : Uuid := ⟨List.replicate 15 0 ++ [last], rfl⟩

def movedRow : Row Platform.reference :=
  { sampleRow with id := laterId 12, name := "db", updatedAt := sampleTime 2023 }

def lastRow : Row Platform.reference :=
  { sampleRow with id := laterId 13, name := "mail", updatedAt := sampleTime 2022 }

def threeRows : Database Platform.reference where
  clients := fun _ => true
  resources :=
    { rows := [sampleRow, lastRow, movedRow]
      ids_unique := by
        have ids : [sampleId, laterId 13, laterId 12].Nodup := by decide
        exact ids
      names_unique := by
        have names : [(sampleClient, "web"), (sampleClient, "mail"), (sampleClient, "db")].Nodup :=
          by decide
        exact names }

/-- Between the pages one row moves up, past the first page, and another one is added. -/
def writtenBetween : List WalkEvent :=
  [.page 1,
    .update sampleClientText "00000000-0000-0000-0000-00000000000c"
      { name := none, status := some "down", metadata := none }
      { freshId := sampleId, now := sampleNow },
    .create sampleClientText { kind := "vm", name := "new", status := none, metadata := none }
      { freshId := laterId 14, now := sampleTime 2026 },
    .page 1]

/-- What a walk has shown so far. -/
def Walk.names (walk : Walk platform) : List (List String) × List String :=
  (walk.pages.map fun page => page.items.map Resource.name,
    walk.database.resources.rows.map Row.name)

theorem walk_complete_written : ∃ walk : Walk Platform.reference,
    walk.names = ([["web"], ["mail"]], ["web", "mail", "db", "new"]) ∧
      (walk.returned.map Resource.id).Nodup ∧
      ∀ row ∈ [sampleRow, lastRow],
        ∃ resource ∈ walk.returned, rowToResource row = some resource := by
  have shown : ((walking Platform.reference sampleClientText none none).execute
      (startOf threeRows) writtenBetween).map (fun walk => (walk.finished, walk.names)) =
        some (true, [["web"], ["mail"]], ["web", "mail", "db", "new"]) := by decide +kernel
  obtain ⟨walk, replayed, sameShown⟩ := Option.map_eq_some_iff.mp shown
  obtain ⟨finished, names⟩ := Prod.mk.inj sameShown
  have checked : (walking Platform.reference sampleClientText none none).accepts steadyCheck
      (startOf threeRows) writtenBetween = true := by decide +kernel
  have allowed : (walking Platform.reference sampleClientText none none).Allows
      (SteadyOrder sampleClientText none none) (startOf threeRows) writtenBetween :=
    @Machine.allows_of_accepts _ _ _ _ _ (fun _ => True) _ _ trivial
      (fun _ _ _ _ accepted => steadyOrder_of_check accepted) (fun _ _ _ _ _ _ => trivial) checked
  have reachable : (walking Platform.reference sampleClientText none none).Reachable
      (SteadyOrder sampleClientText none none) walk :=
    ⟨startOf threeRows, ⟨rfl, rfl, rfl, rfl⟩, Machine.runs_of_execute replayed allowed⟩
  have complete := walk_complete Platform.reference_lawful.toReadsDocuments
    Platform.reference_lawful.toReadsTimestamps reachable
  have kept : ((walking Platform.reference sampleClientText none none).execute
      (startOf threeRows) writtenBetween).map
        (fun walk => walk.history.map fun table => table.rows.take 2) =
      some (List.replicate 3 [sampleRow, lastRow]) := by rfl
  rw [replayed, Option.map_some, Option.some.injEq] at kept
  have clientEq : uuidParam sampleClientText = some sampleClient := by decide
  refine ⟨walk, names, complete.1, fun row member => ?_⟩
  have ofClient : row.clientId = sampleClient := by
    rcases List.mem_pair.mp member with rfl | rfl <;> rfl
  refine complete.2.1 finished sampleClient row clientEq ⟨ofClient, by simp, by simp⟩
    fun table inHistory => ?_
  have firstTwo : table.rows.take 2 ∈ walk.history.map fun table => table.rows.take 2 :=
    List.mem_map_of_mem inHistory
  rw [kept] at firstTwo
  rw [← List.eq_of_mem_replicate firstTwo] at member
  exact List.mem_of_mem_take member

/-! ## Years of five digits -/

/-- A finished walk has returned what stayed as it was, whatever the texts. -/
def WalksComplete : Prop :=
  ∀ (platform : Platform) (clientId : String) (kind status : Option String)
    (walk : Walk platform), platform.Lawful →
    (walking platform clientId kind status).Reachable Stamped walk → walk.finished = true →
    ∀ client row, uuidParam clientId = some client → row.Matches client { kind, status } →
      Steady walk row → ∃ resource ∈ walk.returned, rowToResource row = some resource

def earlyRow : Row Platform.reference :=
  { sampleRow with updatedAt := sampleTime 9999 }

def lateRow : Row Platform.reference :=
  { sampleRow with id := sampleClient, name := "db", updatedAt := sampleTime 10000 }

def twoYears : Database Platform.reference where
  clients := fun _ => true
  resources :=
    { rows := [earlyRow, lateRow]
      ids_unique := by
        have ids : [sampleId, sampleClient].Nodup := by decide
        exact ids
      names_unique := by
        have names : [(sampleClient, "web"), (sampleClient, "db")].Nodup := by decide
        exact names }

/-- The text of the later year sorts first. -/
theorem late_text_lt :
    (sampleTime 10000).toChar.toList < (sampleTime 9999).toChar.toList := by
  have digits : Nat.log 10 10000 = 4 := by norm_num
  rw [Timestamp.toChar, Timestamp.toChar, String.toList_ofList, String.toList_ofList]
  have late : padded 4 (sampleTime 10000).year = '1' :: decimalDigits 4 0 := by
    rw [padded, sampleTime, digits]
    rfl
  have early : padded 4 (sampleTime 9999).year = '9' :: decimalDigits 3 999 := by
    rw [sampleTime, padded_eq (by decide) (by decide)]
    rfl
  rw [late, early, List.cons_append, List.cons_append, List.cons_lt_cons_iff]
  exact Or.inl (by decide)

/-- The position after the page with the row of the earlier year. -/
def earlyPosition : Timestamp × Uuid := (sampleTime 9999, sampleId)

theorem twoYears_rows {walk : Walk Platform.reference} (limit : Int)
    (rowsEq : walk.database.resources.rows = [earlyRow, lateRow]) :
    walk.rows sampleClient none none none limit = [earlyRow, lateRow] ∧
      walk.rows sampleClient none none (some earlyPosition) limit = [] := by
  have sorted : [earlyRow, lateRow].Pairwise SortsBefore :=
    List.pairwise_pair.mpr (Or.inl late_text_lt)
  constructor
  · rw [Walk.rows, selectRows, rowsEq, List.filter_eq_self.mpr]
    · exact sorted.insertionSort_eq
    · intro row member
      rw [decide_eq_true_eq]
      refine ⟨?_, by simp⟩
      have matchesAll : ∀ other : Row Platform.reference, other.clientId = sampleClient →
          other.Matches sampleClient (walk.filter none none limit) :=
        fun other ofClient => ⟨ofClient, by simp [Walk.filter], by simp [Walk.filter]⟩
      rcases List.mem_pair.mp member with rfl | rfl <;> exact matchesAll _ rfl
  · rw [Walk.rows, selectRows, rowsEq, List.filter_eq_nil_iff.mpr]
    · rfl
    · intro row member isSelected
      rw [decide_eq_true_eq] at isSelected
      have below := isSelected.2 earlyPosition rfl
      revert below
      rcases List.mem_pair.mp member with rfl | rfl <;> decide

/-- The row of the later year is never returned: it stands above the position of the first
page, and yet the first page did not begin with it. -/
theorem not_walksComplete : ¬WalksComplete := by
  intro promise
  obtain ⟨decode, decodes⟩ := exists_decode Platform.reference_lawful.toReadsDocuments
  have clientEq : uuidParam sampleClientText = some sampleClient := by decide
  have first := @page_step _ _ none none decode (startOf twoYears) sampleClient none 1
    Platform.reference_lawful.toReadsTimestamps decodes clientEq rfl rfl
  rw [Walk.page, (twoYears_rows 1 rfl).1] at first
  have second := @page_step _ _ none none decode ((startOf twoYears).turned
      (pageResult decode [earlyRow, lateRow] 1)) sampleClient (some earlyPosition) 1
    Platform.reference_lawful.toReadsTimestamps decodes clientEq rfl rfl
  rw [Walk.page, (twoYears_rows 1 rfl).2] at second
  have allowed : ∀ walk : Walk Platform.reference, Stamped walk (.page 1) := fun _ => trivial
  have reachable : (walking Platform.reference sampleClientText none none).Reachable Stamped _ :=
    ⟨startOf twoYears, ⟨rfl, rfl, rfl, rfl⟩,
      ((Machine.Runs.refl _).tail (allowed _) first).tail (allowed _) second⟩
  have steady : Steady (startOf twoYears) lateRow := by
    intro table member
    rw [List.mem_singleton.mp member]
    simp [twoYears]
  obtain ⟨resource, returned, isLate⟩ := promise Platform.reference sampleClientText none none _
    Platform.reference_lawful reachable rfl sampleClient lateRow clientEq
    ⟨rfl, by simp, by simp⟩ steady
  have isEarly : resource = decode earlyRow := List.mem_singleton.mp returned
  have same : decode earlyRow = decode lateRow :=
    isEarly.symm.trans (Option.some.inj (isLate.symm.trans (decodes lateRow)))
  have ids := congrArg Resource.id same
  rw [(id_of_decode decodes earlyRow).1, (id_of_decode decodes lateRow).1] at ids
  exact absurd (uuidOut_injective ids) (by decide)

end Corvus.Resources
