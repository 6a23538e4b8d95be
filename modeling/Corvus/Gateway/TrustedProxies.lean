import Corvus.Fields
import Corvus.Gateway.ClientKey

/-!
# Which peers are trusted

`trusted_proxies` cuts the value of `CORVUS_TRUSTED_PROXIES` at its commas by positions.
It keeps every field that is not blank, without the blanks around it.
-/

namespace Corvus.Gateway

open Corvus.Fields Corvus.Trim

def isComma (char : Char) : Bool :=
  char == ','

/-- The comma-separated fields that are not blank, in order, without the blanks around
them. -/
def strippedFields (value : String) : List String :=
  (((value.toList.splitOnP isComma).map (trim isBlank)).filter (· ≠ [])).map String.ofList

theorem trimmedEntry_eq (entry : List Char) :
    trimmedEntry entry =
      if trim isBlank entry = [] then none else some (String.ofList (trim isBlank entry)) := by
  unfold trimmedEntry
  by_cases blank : trim isBlank entry = []
  · rw [if_pos blank, firstNot_eq_none_iff.mpr blank]
  · rw [if_neg blank]
    cases firstFound : firstNot isBlank entry with
    | none => exact (blank (firstNot_eq_none_iff.mp firstFound)).elim
    | some first =>
        cases lastFound : lastNot isBlank entry with
        | none => exact (blank (lastNot_eq_none_iff.mp lastFound)).elim
        | some last => exact congrArg (some ∘ String.ofList) (slice_eq_trim firstFound lastFound)

/-- The fields of what is left of the value, as the loop collects them. -/
theorem proxiesFrom_eq {value : List Char} {start : Nat} (inside : start ≤ value.length) :
    proxiesFrom value start =
      ((value.drop start).splitOnP isComma).flatMap fun entry => (trimmedEntry entry).toList := by
  induction left : value.length - start using Nat.strongRecOn generalizing start with
  | ind left ih =>
      rw [proxiesFrom, if_pos inside]
      cases found : (value.drop start).findIdx? (· == ',') with
      | none =>
          have free : ∀ char ∈ value.drop start, isComma char = false :=
            List.findIdx?_eq_none_iff.mp found
          have whole : slice value start (value.length - start) = value.drop start :=
            List.take_of_length_le (by rw [List.length_drop])
          rw [List.splitOnP_eq_singleton free, List.flatMap_singleton, whole]
      | some offset =>
          obtain ⟨within, atComma, before⟩ := List.findIdx?_eq_some_iff_getElem.mp found
          rw [List.length_drop] at within
          have free : ∀ char ∈ (value.drop start).take offset, isComma char = false := by
            intro char member
            obtain ⟨position, bound, rfl⟩ := List.mem_take_iff_getElem.mp member
            rw [isComma, ← Bool.not_eq_true]
            simpa using before position (by omega)
          have cut : value.drop start = (value.drop start).take offset ++
              (value.drop start)[offset] :: value.drop (start + offset + 1) := by
            rw [Nat.add_assoc, ← List.drop_drop, List.getElem_cons_drop, List.take_append_drop]
          have later := ih (value.length - (start + offset + 1)) (by omega) (by omega) rfl
          dsimp only
          rw [later, cut, List.splitOnP_append_cons_of_forall_mem free _ atComma,
            List.flatMap_cons, slice]

theorem strippedFields_eq (value : String) :
    strippedFields value =
      (value.toList.splitOnP isComma).flatMap fun entry => (trimmedEntry entry).toList := by
  unfold strippedFields
  generalize value.toList.splitOnP isComma = entries
  induction entries with
  | nil => rfl
  | cons entry rest ih =>
      rw [List.map_cons, List.flatMap_cons, ← ih, trimmedEntry_eq]
      by_cases blank : trim isBlank entry = []
      · rw [if_pos blank, List.filter_cons_of_neg (by simp [blank])]
        rfl
      · rw [if_neg blank, List.filter_cons_of_pos (by simpa using blank)]
        rfl

theorem trustedProxies_eq (raw : Option String) :
    trustedProxies raw = strippedFields (raw.getD "") := by
  have nothing : strippedFields "" = [] := by decide
  cases raw with
  | none => exact nothing.symm
  | some value =>
      by_cases empty : value = ""
      · rw [trustedProxies, if_pos empty, empty]
        exact nothing.symm
      · rw [trustedProxies, if_neg empty, proxiesFrom_eq (Nat.zero_le _), List.drop_zero]
        exact (strippedFields_eq value).symm

theorem mem_strippedFields {value peer : String} :
    peer ∈ strippedFields value ↔ ∃ field, MaximalPiece isComma value.toList field ∧
      trim isBlank field ≠ [] ∧ peer.toList = trim isBlank field := by
  simp only [strippedFields, List.mem_map, List.mem_filter, decide_eq_true_eq,
    ← mem_splitOnP_iff]
  constructor
  · rintro ⟨_, ⟨⟨field, member, rfl⟩, notBlank⟩, rfl⟩
    exact ⟨field, member, notBlank, String.toList_ofList⟩
  · rintro ⟨field, member, notBlank, peerEq⟩
    exact ⟨_, ⟨⟨field, member, rfl⟩, notBlank⟩, by rw [← peerEq, String.ofList_toList]⟩

/-- The loop ends with the fields that are not blank, and whose forwarded header is believed
depends on these fields only. -/
theorem trustedProxies_exact (raw : Option String) :
    trustedProxies raw = strippedFields (raw.getD "") ∧
      (∀ peer, peer ∈ trustedProxies raw ↔
        ∃ field, MaximalPiece isComma (raw.getD "").toList field ∧
          trim isBlank field ≠ [] ∧ peer.toList = trim isBlank field) ∧
      ∀ peer xff, clientKeyFromRequest (trustedProxies raw) peer xff =
        if peer ∈ strippedFields (raw.getD "") then firstName peer xff else peer := by
  refine ⟨trustedProxies_eq raw, fun peer => ?_, fun peer xff => ?_⟩
  · rw [trustedProxies_eq, mem_strippedFields]
  · by_cases trusted : peer ∈ strippedFields (raw.getD "")
    · rw [if_pos trusted, ← clientKey_of_trusted trusted, trustedProxies_eq]
    · rw [if_neg trusted, trustedProxies_eq, clientKeyFromRequest, if_pos trusted]

example : trustedProxies (some " 10.0.0.1,, \t,10.0.0.2\t,10.0.0.1 ,") =
    ["10.0.0.1", "10.0.0.2", "10.0.0.1"] := by
  rw [trustedProxies_eq]
  decide +kernel

end Corvus.Gateway
