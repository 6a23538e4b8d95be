import Corvus.Hex
import Corvus.Db.Postgres

/-!
# Request ids

A request carries an id through the program: the one its client sent, or a new
one.  New ids are made of six random numbers, of which some bits are replaced by
the version and the variant of the UUID and some are not used.
-/

namespace Corvus.Api

open Corvus.Db

/-- Six draws of the uniform distribution. -/
structure Draws where
  a : UInt32
  b : UInt32
  c : UInt32
  d : UInt32
  e : UInt32
  f : UInt32
  deriving DecidableEq

namespace Draws

/-- The third number, with the version in it. -/
def versioned (draws : Draws) : UInt32 :=
  (draws.c &&& 0x0FFF) ||| 0x4000

/-- The fourth number, with the variant in it. -/
def varied (draws : Draws) : UInt32 :=
  (draws.d &&& 0x3FFF) ||| 0x8000

end Draws

/-- `generate_uuid`. -/
def generateUuid (draws : Draws) : String :=
  String.ofList (paddedHex 8 draws.a.toNat ++ ('-' ::
    paddedHex 4 (draws.b >>> 16).toNat ++ ('-' ::
    paddedHex 4 draws.versioned.toNat ++ ('-' ::
    paddedHex 4 draws.varied.toNat ++ ('-' ::
    paddedHex 4 (draws.e >>> 16).toNat ++ paddedHex 8 draws.f.toNat)))))

/-- `get_request_id`, for the attribute and the header of a request; both are empty
where they are not set. -/
def getRequestId (assigned header : String) (draws : Draws) : String :=
  if assigned ≠ "" then assigned
  else if header ≠ "" then header
  else generateUuid draws

theorem generateUuid_ne_empty (draws : Draws) : generateUuid draws ≠ "" := by
  intro empty
  have letters := congrArg String.toList empty
  simp [generateUuid] at letters

/-- An id that a request has once been given stays. -/
theorem getRequestId_kept (header : String) (draws later : Draws) :
    getRequestId (getRequestId "" header draws) header later = getRequestId "" header draws := by
  have given : getRequestId "" header draws ≠ "" := by
    unfold getRequestId
    rw [if_neg (not_not.mpr rfl)]
    split
    · assumption
    · exact generateUuid_ne_empty draws
  rw [getRequestId, if_pos given]

/-! ## What is generated -/

/-- The two bytes of a number below `2 ^ 16`. -/
def twoBytes (number : Nat) : List UInt8 :=
  [UInt8.ofNat (number / 256), UInt8.ofNat number]

/-- The four bytes of a number below `2 ^ 32`. -/
def fourBytes (number : Nat) : List UInt8 :=
  twoBytes (number / 65536) ++ twoBytes number

theorem paddedHex_four {number : Nat} (fits : number < 65536) :
    paddedHex 4 number = (twoBytes number).flatMap hexByte := by
  rw [paddedHex_eq (by simpa using fits), lastHexDigits_byte, lastHexDigits_byte]
  simp [twoBytes, lastHexDigits]

theorem paddedHex_eight {number : Nat} (fits : number < 4294967296) :
    paddedHex 8 number = (fourBytes number).flatMap hexByte := by
  rw [paddedHex_eq (by simpa using fits), lastHexDigits_byte, lastHexDigits_byte,
    lastHexDigits_byte, lastHexDigits_byte]
  simp [fourBytes, twoBytes, lastHexDigits, Nat.div_div_eq_div_mul]

namespace Draws

variable (draws : Draws)

/-- The twelve bits of the third number that are kept. -/
theorem toNat_versioned : draws.versioned.toNat = 16384 + draws.c.toNat % 4096 := by
  have masked : draws.c.toNat &&& 4095 = draws.c.toNat % 4096 :=
    Nat.and_two_pow_sub_one_eq_mod draws.c.toNat 12
  have small : draws.c.toNat % 4096 < 2 ^ 14 :=
    Nat.lt_trans (Nat.mod_lt _ (by decide)) (by decide)
  have joined := Nat.two_pow_add_eq_or_of_lt small 1
  simp only [versioned, UInt32.toNat_or, UInt32.toNat_and, UInt32.reduceToNat, masked]
  rw [Nat.lor_comm]
  simpa using joined.symm

/-- The fourteen bits of the fourth number that are kept. -/
theorem toNat_varied : draws.varied.toNat = 32768 + draws.d.toNat % 16384 := by
  have masked : draws.d.toNat &&& 16383 = draws.d.toNat % 16384 :=
    Nat.and_two_pow_sub_one_eq_mod draws.d.toNat 14
  have small : draws.d.toNat % 16384 < 2 ^ 15 :=
    Nat.lt_trans (Nat.mod_lt _ (by decide)) (by decide)
  have joined := Nat.two_pow_add_eq_or_of_lt small 1
  simp only [varied, UInt32.toNat_or, UInt32.toNat_and, UInt32.reduceToNat, masked]
  rw [Nat.lor_comm]
  simpa using joined.symm

/-- The UUID that is printed. -/
def uuid : Uuid where
  bytes := fourBytes draws.a.toNat ++ (twoBytes (draws.b.toNat / 65536) ++
    (twoBytes (16384 + draws.c.toNat % 4096) ++ (twoBytes (32768 + draws.d.toNat % 16384) ++
      (twoBytes (draws.e.toNat / 65536) ++ fourBytes draws.f.toNat))))
  length_eq := rfl

end Draws

/-- What is generated is the canonical text of a UUID. -/
theorem generateUuid_eq (draws : Draws) : generateUuid draws = uuidOut draws.uuid := by
  have small : ∀ word : UInt32, word.toNat < 4294967296 := fun word => word.toNat_lt
  have high : ∀ word : UInt32, (word >>> 16).toNat = word.toNat / 65536 := by
    intro word
    simp [UInt32.toNat_shiftRight, Nat.shiftRight_eq_div_pow]
  have highSmall : ∀ word : UInt32, word.toNat / 65536 < 65536 := by
    intro word
    have := small word
    omega
  have third : 16384 + draws.c.toNat % 4096 < 65536 := by omega
  have fourth : 32768 + draws.d.toNat % 16384 < 65536 := by omega
  rw [generateUuid, high, high, draws.toNat_versioned, draws.toNat_varied,
    paddedHex_eight (small _), paddedHex_eight (small _), paddedHex_four (highSmall _),
    paddedHex_four (highSmall _), paddedHex_four third, paddedHex_four fourth]
  rfl

/-- The draws agree on the bits that are kept. -/
def Draws.SameBits (draws other : Draws) : Prop :=
  draws.a = other.a ∧ draws.b.toNat / 65536 = other.b.toNat / 65536 ∧
    draws.c.toNat % 4096 = other.c.toNat % 4096 ∧
    draws.d.toNat % 16384 = other.d.toNat % 16384 ∧
    draws.e.toNat / 65536 = other.e.toNat / 65536 ∧ draws.f = other.f

theorem ofNat_inj {left right : Nat} (leftFits : left < 256) (rightFits : right < 256)
    (same : UInt8.ofNat left = UInt8.ofNat right) : left = right := by
  have values := congrArg UInt8.toNat same
  simpa [Nat.mod_eq_of_lt leftFits, Nat.mod_eq_of_lt rightFits] using values

theorem twoBytes_inj {left right : Nat} (leftFits : left < 65536) (rightFits : right < 65536)
    (same : twoBytes left = twoBytes right) : left = right := by
  simp only [twoBytes, List.cons.injEq, and_true] at same
  have high := ofNat_inj (by omega) (by omega) same.1
  have low := congrArg UInt8.toNat same.2
  simp only [UInt8.toNat_ofNat'] at low
  omega

theorem fourBytes_inj {left right : Nat} (leftFits : left < 4294967296)
    (rightFits : right < 4294967296) (same : fourBytes left = fourBytes right) :
    left = right := by
  obtain ⟨high, low⟩ := List.append_inj same rfl
  have highEq := twoBytes_inj (by omega) (by omega) high
  simp only [twoBytes, List.cons.injEq, and_true] at low
  have second := congrArg UInt8.toNat low.1
  have first := congrArg UInt8.toNat low.2
  simp only [UInt8.toNat_ofNat'] at second first
  omega

/-- Draws that agree on the bits that are kept, and no others, print the same UUID. -/
theorem Draws.uuid_eq_iff (draws other : Draws) :
    draws.uuid = other.uuid ↔ draws.SameBits other := by
  constructor
  · intro same
    have bytes : draws.uuid.bytes = other.uuid.bytes := congrArg Uuid.bytes same
    have small : ∀ word : UInt32, word.toNat < 4294967296 := fun word => word.toNat_lt
    have highSmall : ∀ word : UInt32, word.toNat / 65536 < 65536 := by
      intro word
      have := small word
      omega
    obtain ⟨first, bytes⟩ := List.append_inj bytes rfl
    obtain ⟨second, bytes⟩ := List.append_inj bytes rfl
    obtain ⟨third, bytes⟩ := List.append_inj bytes rfl
    obtain ⟨fourth, bytes⟩ := List.append_inj bytes rfl
    obtain ⟨fifth, sixth⟩ := List.append_inj bytes rfl
    have version := twoBytes_inj (by omega) (by omega) third
    have variant := twoBytes_inj (by omega) (by omega) fourth
    exact ⟨UInt32.toNat_inj.mp (fourBytes_inj (small _) (small _) first),
      twoBytes_inj (highSmall _) (highSmall _) second, by omega, by omega,
      twoBytes_inj (highSmall _) (highSmall _) fifth,
      UInt32.toNat_inj.mp (fourBytes_inj (small _) (small _) sixth)⟩
  · rintro ⟨first, second, third, fourth, fifth, sixth⟩
    simp only [uuid, first, second, third, fourth, fifth, sixth]

/-- Every id that is generated is the canonical text of a UUID of version 4 and of the
common variant, and two are the same exactly if the draws agree on the 122 bits that
are kept. -/
theorem generated_ids (draws other : Draws) :
    (∃ uuid, uuidIn (generateUuid draws) = some uuid ∧ uuidOut uuid = generateUuid draws ∧
      (uuid.bytes.getD 6 0).toNat / 16 = 4 ∧ (uuid.bytes.getD 8 0).toNat / 64 = 2) ∧
    (generateUuid draws = generateUuid other ↔ draws.SameBits other) := by
  refine ⟨⟨draws.uuid, ?_, (generateUuid_eq draws).symm, ?_, ?_⟩, ?_⟩
  · rw [generateUuid_eq, uuidIn_uuidOut]
  · have version : (UInt8.ofNat ((16384 + draws.c.toNat % 4096) / 256)).toNat / 16 = 4 := by
      rw [UInt8.toNat_ofNat']
      omega
    exact version
  · have variant : (UInt8.ofNat ((32768 + draws.d.toNat % 16384) / 256)).toNat / 64 = 2 := by
      rw [UInt8.toNat_ofNat']
      omega
    exact variant
  · rw [generateUuid_eq, generateUuid_eq, uuidOut_injective.eq_iff, Draws.uuid_eq_iff]

end Corvus.Api
