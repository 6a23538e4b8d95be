import Corvus.Resources.Handler

/-!
# Cursors that cannot be used

`decode_cursor` looks for a bar with something on both sides of it.  What stands
there is for Postgres to read, within the statement, and a failure of the
statement is no `InvalidCursorError`.
-/

namespace Corvus.Resources

open Corvus.Db Corvus.Api

variable {platform : Platform}

/-! ## What `list` returns -/

/-- What `ResourceService::list` makes of the answer of the repository. -/
def listOutcome : Except RepositoryError ListResult → Outcome
  | .ok result => .ok (.page result)
  | .error error => .error (passError error)

/-- On a healthy connection a call of `list` is over in one step. -/
theorem listStep_healthy {call : Call platform} {clientId : String} {filter : ListFilter}
    {choice : Choice} {store : Store platform} (atSelect : call.phase = .selectPage)
    (healthy : choice.sql = .healthy) :
    call.listStep clientId filter choice store =
      some (call.finish (listOutcome (list store.database clientId filter)), store) := by
  simp only [Call.listStep, atSelect, healthy, Executed.under]
  cases list store.database clientId filter with
  | ok result => rfl
  | error error => rfl

/-- `decode_cursor` rejects the cursor.  An empty one counts as none and is not decoded. -/
def CursorMalformed (cursor : String) : Prop :=
  cursor ≠ "" ∧ ∃ error, decodeCursor cursor = .error error

/-- The two halves of the cursor, as they reach Postgres, are a `timestamptz` and a
`uuid`. -/
def CursorAccepted (platform : Platform) (cursor : String) : Prop :=
  ∃ position bound, decodeCursor cursor = .ok position ∧
    castPosition platform (some position) = some bound

/-- The rows of a table can be decoded, so that every statement that succeeds gives a page. -/
theorem exists_page (reads : platform.ReadsDocuments) (size : Nat) (rows : List (Row platform)) :
    ∃ page, pageOf size rows = .ok page := by
  have decodes : ∀ rows : List (Row platform), ∃ items, rows.mapM rowToResource = some items := by
    intro rows
    induction rows with
    | nil => exact ⟨[], rfl⟩
    | cons row rest ih =>
        obtain ⟨items, decoded⟩ := ih
        obtain ⟨document, parsed⟩ := reads.parse_jsonb_out row.metadata
        have read : ∃ resource, rowToResource row = some resource := by
          rw [rowToResource, parsed]
          exact ⟨_, rfl⟩
        obtain ⟨resource, read⟩ := read
        refine ⟨resource :: items, ?_⟩
        rw [List.mapM_cons, decoded, read]
        rfl
  obtain ⟨items, decoded⟩ := decodes (rows.take size)
  rw [pageOf, decoded]
  exact ⟨_, rfl⟩

section List

variable {database : Database platform} {clientId cursor : String} {filter : ListFilter}

theorem list_of_malformed (given : filter.cursor = some cursor)
    (malformed : CursorMalformed cursor) :
    ∃ error, list database clientId filter = .error (.invalidCursor error) := by
  obtain ⟨notEmpty, error, rejected⟩ := malformed
  refine ⟨error, ?_⟩
  simp only [list, decodePosition, given, notEmpty, if_false, rejected]

/-- A position that is sent to Postgres with the statement. -/
theorem decodePosition_of_accepted (given : filter.cursor = some cursor)
    (usable : cursor = "" ∨ CursorAccepted platform cursor) :
    ∃ position bound, decodePosition filter = .ok position ∧
      castPosition platform position = some bound := by
  by_cases isEmpty : cursor = ""
  · refine ⟨none, none, ?_, rfl⟩
    simp only [decodePosition, given, isEmpty, if_true]
  · obtain ⟨position, bound, decoded, cast⟩ := usable.resolve_left isEmpty
    refine ⟨some position, bound, ?_, cast⟩
    simp only [decodePosition, given, isEmpty, if_false, decoded]

theorem list_of_accepted (reads : platform.ReadsDocuments) {position : Option CursorPosition}
    {bound : Option (Timestamp × Uuid)} (isClient : (uuidParam clientId).isSome)
    (decoded : decodePosition filter = .ok position)
    (cast : castPosition platform position = some bound) :
    ∃ page, list database clientId filter = .ok page := by
  obtain ⟨client, clientEq⟩ := Option.isSome_iff_exists.mp isClient
  simp only [list, decoded, clientEq, cast]
  exact exists_page reads _ _

/-- Whatever else can be decoded is an error of the statement. -/
theorem list_of_refused (given : filter.cursor = some cursor)
    (notMalformed : ¬CursorMalformed cursor)
    (refused : ¬((uuidParam clientId).isSome ∧
      (cursor = "" ∨ CursorAccepted platform cursor))) :
    list database clientId filter = .error .other := by
  obtain ⟨position, decoded⟩ : ∃ position, decodePosition filter = .ok position := by
    by_cases isEmpty : cursor = ""
    · exact ⟨none, by simp only [decodePosition, given, isEmpty, if_true]⟩
    · cases found : decodeCursor cursor with
      | error error => exact absurd ⟨isEmpty, error, found⟩ notMalformed
      | ok position =>
          refine ⟨some position, ?_⟩
          simp only [decodePosition, given, isEmpty, if_false, found]
  simp only [list, decoded]
  split
  · rename_i client bound clientEq cast
    apply absurd _ refused
    refine ⟨by rw [clientEq]; rfl, ?_⟩
    by_cases isEmpty : cursor = ""
    · exact .inl isEmpty
    · right
      simp only [decodePosition, given, isEmpty, if_false] at decoded
      split at decoded
      · cases decoded
      · rename_i found
        cases decoded
        exact ⟨_, bound, found, cast⟩
  · rfl

end List

/-! ## What the handler answers -/

def listAnswer (platform : Platform) (request : HttpRequest) : Outcome → Response
  | .ok (.page result) =>
      match toJsonValues platform result.items with
      | some items => respondList items request.info result.nextCursor result.hasMore
      | none => unexpected request
  | .error (.invalidCursor _) =>
      respondError .badRequest "Query parameter 'cursor' is not valid." request.info
  | _ => unexpected request

theorem answer_eq_listAnswer {request : HttpRequest} {invoked : Request}
    {answer : Outcome → Response}
    (invokes : listResourcesHandler platform request = .invoke invoked answer) :
    answer = listAnswer platform request := by
  simp only [listResourcesHandler] at invokes
  obtain ⟨_, invokes⟩ := invoke_of_withClient invokes
  split at invokes
  · cases invokes
    rfl
  · split at invokes
    · cases invokes
      rfl
    · cases invokes

theorem listAnswer_status {request : HttpRequest} {invoked : Request}
    {answer : Outcome → Response}
    (invokes : listResourcesHandler platform request = .invoke invoked answer) :
    (∀ error, (answer (.error (.invalidCursor error))).status = 400) ∧
      (answer (.error .other)).status = 500 ∧
      ∀ page, (answer (.ok (.page page))).status ≠ 400 := by
  rw [answer_eq_listAnswer invokes]
  refine ⟨fun _ => rfl, rfl, fun page => ?_⟩
  simp only [listAnswer]
  split
  · exact (by decide : (200 : Nat) ≠ 400)
  · exact (by decide : (500 : Nat) ≠ 400)

/-- A cursor leads to a page after the position it stands for, or to an
`InvalidCursorError`. -/
def CursorAnswered (database : Database platform) (clientId : String) (filter : ListFilter) :
    Prop :=
  (∃ position bound page, decodePosition filter = .ok position ∧
      castPosition platform position = some bound ∧
      list database clientId filter = .ok page) ∨
    ∃ error, list database clientId filter = .error (.invalidCursor error)

/-- A cursor is answered exactly when it is malformed, or empty, or names a time and a
uuid to Postgres.  Otherwise it leads to an exception that is answered 500. -/
theorem cursor_answered_iff (reads : platform.ReadsDocuments) (database : Database platform)
    (clientId cursor : String) {filter : ListFilter} (given : filter.cursor = some cursor) :
    (CursorAnswered database clientId filter ↔
        CursorMalformed cursor ∨
          (uuidParam clientId).isSome ∧ (cursor = "" ∨ CursorAccepted platform cursor)) ∧
      ∀ request answer,
        listResourcesHandler platform request = .invoke (.list clientId filter) answer →
        ((answer (listOutcome (list database clientId filter))).status = 400 ↔
            CursorMalformed cursor) ∧
          (¬CursorAnswered database clientId filter →
            (answer (listOutcome (list database clientId filter))).status = 500) := by
  by_cases malformed : CursorMalformed cursor
  · obtain ⟨error, rejected⟩ := list_of_malformed given malformed
    have answered : CursorAnswered database clientId filter := .inr ⟨error, rejected⟩
    refine ⟨iff_of_true answered (.inl malformed), fun request answer invokes => ?_⟩
    rw [rejected]
    exact ⟨iff_of_true ((listAnswer_status invokes).1 error) malformed,
      fun notAnswered => absurd answered notAnswered⟩
  · by_cases usable : (uuidParam clientId).isSome ∧
        (cursor = "" ∨ CursorAccepted platform cursor)
    · obtain ⟨position, bound, decoded, cast⟩ := decodePosition_of_accepted given usable.2
      obtain ⟨page, listed⟩ :=
        list_of_accepted reads usable.1 decoded cast
      have answered : CursorAnswered database clientId filter :=
        .inl ⟨position, bound, page, decoded, cast, listed⟩
      refine ⟨iff_of_true answered (.inr usable), fun request answer invokes => ?_⟩
      rw [listed]
      exact ⟨iff_of_false ((listAnswer_status invokes).2.2 page) malformed,
        fun notAnswered => absurd answered notAnswered⟩
    · have refused : list database clientId filter = .error .other :=
        list_of_refused given malformed usable
      have notAnswered : ¬CursorAnswered database clientId filter := by
        rintro (⟨_, _, _, _, _, listed⟩ | ⟨_, listed⟩)
        · rw [refused] at listed
          cases listed
        · rw [refused] at listed
          cases listed
      refine ⟨iff_of_false notAnswered fun good => good.elim malformed usable,
        fun request answer invokes => ?_⟩
      have status := (listAnswer_status invokes).2.1
      rw [refused]
      exact ⟨iff_of_false (fun isBad => absurd (status.symm.trans isBad) (by decide)) malformed,
        fun _ => status⟩

/-! ## A cursor of no position -/

/-- The table is empty, and there is one client. -/
def oneClient : Database .reference where
  clients client := client = ⟨List.replicate 16 0, rfl⟩
  resources := .empty

def zeroUuid : String := "00000000-0000-0000-0000-000000000000"

/-- Text that is not base64 is malformed. -/
theorem cursor_answered_malformed :
    CursorAnswered oneClient zeroUuid { cursor := some "not-valid-base64!!!" } :=
  (cursor_answered_iff Platform.reference_lawful.toReadsDocuments oneClient zeroUuid
    "not-valid-base64!!!" rfl).1.mpr (.inl ⟨by decide, ⟨"cursor is malformed"⟩, by decide +kernel⟩)

/-- Every cursor a client may send is answered. -/
def CursorsAreAnswered : Prop :=
  ∀ (database : Database .reference) (clientId cursor : String),
    (uuidParam clientId).isSome →
    CursorAnswered database clientId { cursor := some cursor }

theorem not_cursorsAreAnswered : ¬CursorsAreAnswered := by
  intro answered
  -- The cursor is the base64 form of `a|b`.
  have listed : list oneClient zeroUuid { cursor := some "YXxi" } = .error .other := rfl
  rcases answered oneClient zeroUuid "YXxi" (by decide) with
    ⟨_, _, _, _, _, paged⟩ | ⟨_, rejected⟩
  · rw [listed] at paged
    cases paged
  · rw [listed] at rejected
    cases rejected

end Corvus.Resources
