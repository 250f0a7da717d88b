import Mathlib.Data.Int.ModEq
import VideoCore.Proofs.Bits
import VideoCore.Proofs.Outcome

namespace VideoCore

/-!
# Sign extension

Sign extension to some bits is the only number in the range of these bits that
has the same low bits (`signExtend_eq_iff`).  What it does to residues and sums
follows from this alone, and so does its pattern of bits: the sign bit is
repeated without end (`testBit_signExtend`).
-/

/-! ## Numbers in two's complement -/

/-- A number that `bits` bits in two's complement can stand for. -/
def IsSigned
    (bits : Nat)
    (number : Int) : Prop :=
  -(2 ^ (bits - 1)) ≤ number ∧ number < 2 ^ (bits - 1)

instance (bits : Nat) (number : Int) : Decidable (IsSigned bits number) :=
  inferInstanceAs (Decidable (_ ∧ _))

variable {bits : Nat}

/-- The sign bit has half the weight of the bit behind it. -/
theorem two_pow_eq_double
    (positive : 0 < bits) :
    (2 : Int) ^ bits = 2 * 2 ^ (bits - 1) := by
  obtain ⟨half, rfl⟩ : ∃ half, bits = half + 1 := ⟨bits - 1, by omega⟩
  rw [Nat.add_sub_cancel, Int.pow_succ, Int.mul_comm]

/-- From the sign bit on, all bits are the sign. -/
theorem IsSigned.testBit_of_le
    {number : Int}
    (isSigned : IsSigned bits number)
    {index : Nat}
    (high : bits - 1 ≤ index) :
    number.testBit index = decide (number < 0) := by
  obtain ⟨lower, upper⟩ := isSigned
  have wider : (2 : Int) ^ (bits - 1) ≤ 2 ^ index :=
    mod_cast Nat.pow_le_pow_right (show 0 < 2 by decide) high
  rw [testBit_eq]
  by_cases negative : number < 0
  · have quotient : number / 2 ^ index = -1 :=
      Int.ediv_eq_neg_one_of_neg_of_le negative (by omega)
    simp [quotient, negative]
  · have quotient : number / 2 ^ index = 0 :=
      Int.ediv_eq_zero_of_lt (by omega) (by omega)
    simp [quotient, negative]

/-! ## The extended number -/

/--
Sign extension is the only number of the range that has the same low bits.
-/
theorem signExtend_eq_iff
    (positive : 0 < bits)
    {value number : Int} :
    signExtend bits value = number ↔
      IsSigned bits number ∧ number ≡ value [ZMOD 2 ^ bits] := by
  have power : ((2 ^ bits : Nat) : Int) = 2 ^ bits := Int.natCast_pow 2 bits
  have lowerHalf : (2 : Int) ^ bits / 2 = 2 ^ (bits - 1) := by
    rw [two_pow_eq_double positive]
    omega
  have upperHalf : ((2 : Int) ^ bits + 1) / 2 = 2 ^ (bits - 1) := by
    rw [two_pow_eq_double positive]
    omega
  rw [signExtend_eq_bmod, Int.bmod_eq_iff (Nat.two_pow_pos bits), power,
    lowerHalf, upperHalf, Int.modEq_comm, Int.modEq_iff_dvd, IsSigned,
    and_assoc]

theorem isSigned_signExtend
    (positive : 0 < bits)
    (value : Int) :
    IsSigned bits (signExtend bits value) :=
  ((signExtend_eq_iff positive).mp rfl).1

/-- The low bits stay as they are. -/
theorem signExtend_modEq
    (positive : 0 < bits)
    (value : Int) :
    signExtend bits value ≡ value [ZMOD 2 ^ bits] :=
  ((signExtend_eq_iff positive).mp rfl).2

/-- An extended number is no larger than its bits allow. -/
theorem natAbs_signExtend_lt
    (positive : 0 < bits)
    (value : Int) :
    (signExtend bits value).natAbs < 2 ^ bits := by
  have ⟨lower, upper⟩ := isSigned_signExtend positive value
  have weight := two_pow_eq_double positive
  have half : (0 : Int) < 2 ^ (bits - 1) := Int.pow_pos (by decide)
  have power : ((2 ^ bits : Nat) : Int) = 2 ^ bits := Int.natCast_pow 2 bits
  omega

/-- Two numbers are extended to the same if they have the same low bits. -/
theorem signExtend_congr_iff
    (positive : 0 < bits)
    {first second : Int} :
    signExtend bits first = signExtend bits second ↔
      first ≡ second [ZMOD 2 ^ bits] := by
  constructor
  · intro same
    calc
      first ≡ signExtend bits first [ZMOD 2 ^ bits] :=
        (signExtend_modEq positive first).symm
      _ = signExtend bits second := same
      _ ≡ second [ZMOD 2 ^ bits] := signExtend_modEq positive second
  · intro congruent
    exact (signExtend_eq_iff positive).mpr
      ⟨isSigned_signExtend positive second,
        (signExtend_modEq positive second).trans congruent.symm⟩

/-- The numbers of the range, and no others, are left as they are. -/
theorem signExtend_eq_self_iff
    (positive : 0 < bits)
    {value : Int} :
    signExtend bits value = value ↔ IsSigned bits value := by
  rw [signExtend_eq_iff positive]
  exact and_iff_left (Int.ModEq.refl value)

/-- Sums can be extended term by term. -/
theorem signExtend_add
    (positive : 0 < bits)
    (first second : Int) :
    signExtend bits (signExtend bits first + signExtend bits second) =
      signExtend bits (first + second) :=
  (signExtend_congr_iff positive).mpr
    ((signExtend_modEq positive first).add (signExtend_modEq positive second))

/-! ## Its bits -/

/-- The low bits are kept and the highest of them is repeated. -/
theorem testBit_signExtend
    (positive : 0 < bits)
    (value : Int)
    (index : Nat) :
    (signExtend bits value).testBit index =
      value.testBit (min index (bits - 1)) := by
  have isSigned := isSigned_signExtend positive value
  have lowBit (place : Nat) (inside : place < bits) :
      (signExtend bits value).testBit place = value.testBit place := by
    have same :=
      congrArg (Int.testBit · place) (signExtend_modEq positive value)
    simpa only [testBit_emod, inside, decide_true, Bool.true_and] using same
  by_cases inside : index < bits
  · rw [lowBit index inside, Nat.min_eq_left (by omega)]
  · calc
      (signExtend bits value).testBit index
          = decide (signExtend bits value < 0) :=
            isSigned.testBit_of_le (by omega)
      _ = (signExtend bits value).testBit (bits - 1) :=
        (isSigned.testBit_of_le (Nat.le_refl _)).symm
      _ = value.testBit (bits - 1) := lowBit _ (by omega)
      _ = value.testBit (min index (bits - 1)) := by
        rw [Nat.min_eq_right (by omega)]

/-- The weight of the sign bit counts as negative. -/
theorem signExtend_eq_lowBits
    (positive : 0 < bits)
    (value : Int) :
    signExtend bits value =
      if (lowBits bits value).testBit (bits - 1) then
        lowBits bits value - 2 ^ bits
      else
        lowBits bits value := by
  have weight := two_pow_eq_double positive
  have half : (0 : Int) < 2 ^ (bits - 1) := Int.pow_pos (by decide)
  have lower := Int.emod_nonneg value (show (2 : Int) ^ bits ≠ 0 by omega)
  have upper := Int.emod_lt_of_pos value (show (0 : Int) < 2 ^ bits by omega)
  have congruent : value % 2 ^ bits ≡ value [ZMOD 2 ^ bits] :=
    Int.mod_modEq value _
  rw [lowBits_eq_emod, testBit_eq]
  by_cases small : value % 2 ^ bits < 2 ^ (bits - 1)
  · have noSign : value % 2 ^ bits / 2 ^ (bits - 1) = 0 :=
      Int.ediv_eq_zero_of_lt lower small
    rw [noSign, if_neg (by decide), signExtend_eq_iff positive]
    exact ⟨⟨by omega, small⟩, congruent⟩
  · have sign : value % 2 ^ bits / 2 ^ (bits - 1) = 1 :=
      (Int.ediv_eq_iff_of_pos half).mpr ⟨by omega, by omega⟩
    rw [sign, if_pos (by decide), signExtend_eq_iff positive]
    exact ⟨⟨by omega, by omega⟩, (Int.sub_modulus_modEq_iff).mpr congruent⟩

/-! ## Laws -/

/-- With some bits and room for them, an extended number is given. -/
theorem signExtend?_of_room
    {width : Int}
    (positive : 0 < width)
    (room : requireRoom 1 width.toNat = .ok ())
    (value : Int) :
    signExtend? width value = .ok (signExtend width.toNat value) := by
  rw [signExtend?, if_pos positive, room]
  rfl

/--
A number is extended to any width that there is room for, and to no other.
-/
theorem signExtend?_eq_ok_iff
    {width value number : Int} :
    signExtend? width value = .ok number ↔
      0 < width ∧ width < mostBits ∧ signExtend width.toNat value = number := by
  constructor
  · intro extended
    unfold signExtend? at extended
    split at extended
    · next positive =>
        obtain ⟨_, room, same⟩ := Outcome.exists_of_bind_eq_ok extended
        have fits := requireRoom_eq_ok_iff.mp room
        exact ⟨positive, by omega, Except.ok.inj same⟩
    · contradiction
  · rintro ⟨positive, fits, rfl⟩
    exact
      signExtend?_of_room positive (requireRoom_eq_ok_iff.mpr (by omega)) value

/-- What sign extension to `bits` bits makes of integers of any size. -/
structure SignLaws (bits : Nat) : Prop where
  /-- It gives the only number of the range that has the same residue. -/
  unique : ∀ value number,
    signExtend bits value = number ↔
      IsSigned bits number ∧ number ≡ value [ZMOD 2 ^ bits]
  /-- Nothing but the residue decides. -/
  residue : ∀ first second,
    signExtend bits first = signExtend bits second ↔
      first ≡ second [ZMOD 2 ^ bits]
  idempotent : ∀ value,
    signExtend bits (signExtend bits value) = signExtend bits value
  fixed : ∀ value,
    signExtend bits value = value ↔ IsSigned bits value
  add : ∀ first second,
    signExtend bits (signExtend bits first + signExtend bits second) =
      signExtend bits (first + second)
  /--
  It gives the low bits, less the weight of the next bit if the sign bit is set.
  -/
  masked : ∀ value,
    signExtend bits value =
      if (lowBits bits value).testBit (bits - 1) then
        lowBits bits value - 2 ^ bits
      else
        lowBits bits value
  /-- Behind the low bits, the sign bit is repeated. -/
  repeated : ∀ value index,
    (signExtend bits value).testBit index = value.testBit (min index (bits - 1))
  /-- The only limit to the width is the memory for a bit of that weight. -/
  answered : ∀ value number,
    signExtend? bits value = .ok number ↔
      bits < mostBits ∧ signExtend bits value = number

/-- Sign extension obeys its laws for every width with a sign bit. -/
theorem signExtend_isLawful
    (positive : 0 < bits) :
    SignLaws bits where
  unique _ _ := signExtend_eq_iff positive
  residue _ _ := signExtend_congr_iff positive
  idempotent value :=
    (signExtend_eq_self_iff positive).mpr (isSigned_signExtend positive value)
  fixed _ := signExtend_eq_self_iff positive
  add := signExtend_add positive
  masked := signExtend_eq_lowBits positive
  repeated := testBit_signExtend positive
  answered _ _ := by simp [signExtend?_eq_ok_iff, positive]

/--
The four bits of an index delta, with a sign bit that is set, a large number and
a sum.
-/
theorem signExtend_isLawful_of_delta :
    0 < 4 ∧ SignLaws 4 ∧
      signExtend 4 8 = -8 ∧
      signExtend 4 (-77777) = -1 ∧
      signExtend 4 (7 + 7) = -2 := by
  have laws : SignLaws 4 := signExtend_isLawful (by decide)
  exact ⟨by decide, laws,
    (laws.unique 8 (-8)).mpr ⟨by decide, by decide⟩,
    (laws.unique (-77777) (-1)).mpr ⟨by decide, by decide⟩,
    (laws.unique (7 + 7) (-2)).mpr ⟨by decide, by decide⟩⟩

end VideoCore
