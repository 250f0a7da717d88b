import Mathlib.Data.Int.Bitwise
import VideoCore.Bits

namespace VideoCore

/-!
# Bits of spans

Which bits a number has is a matter of division (`testBit_eq`), and its bits say
which number it is (`eq_of_testBit_eq`).  Reading a span takes its bits and
writing replaces them (`BitSpan.testBit_read`, `BitSpan.testBit_write`); every
law of spans is proved from these two facts, bit by bit.
-/

/-! ## Bits of integers -/

/-- A bit is the remainder of a quotient. -/
theorem testBit_eq
    (value : Int)
    (index : Nat) :
    value.testBit index = decide (value / 2 ^ index % 2 = 1) := by
  have power : ((2 ^ index : Nat) : Int) = 2 ^ index := Int.natCast_pow 2 index
  cases value with
  | ofNat magnitude =>
      have bit :
          (Int.ofNat magnitude).testBit index = magnitude.testBit index :=
        rfl
      rw [bit, Nat.testBit_eq_decide_div_mod_eq, ← power, Int.ofNat_eq_natCast,
        ← Int.natCast_ediv]
      exact decide_eq_decide.mpr (by omega)
  | negSucc magnitude =>
      have bit :
          (Int.negSucc magnitude).testBit index = !magnitude.testBit index :=
        rfl
      have quotient : Int.negSucc magnitude / ((2 ^ index : Nat) : Int) =
          -((magnitude / 2 ^ index : Nat) : Int) - 1 := by
        rw [Int.negSucc_ediv magnitude
            (Int.natCast_pos.mpr (Nat.two_pow_pos index)),
          Int.natCast_ediv]
        exact Int.neg_add
      rw [bit, Nat.testBit_eq_decide_div_mod_eq, ← power, quotient,
        ← decide_not]
      exact decide_eq_decide.mpr (by omega)

/-- Numbers with the same bits are the same. -/
theorem eq_of_testBit_eq
    {first second : Int}
    (same : ∀ index, first.testBit index = second.testBit index) :
    first = second := by
  -- Far to the left a number has no bits, and a negative one has all of them.
  have farBits (first second : Nat) : first.testBit (first + second) = false :=
    Nat.testBit_lt_two_pow
      (Nat.lt_of_lt_of_le Nat.lt_two_pow_self
        (Nat.pow_le_pow_right (by decide) (by omega)))
  have differ (first second : Nat) :
      (Int.ofNat first).testBit (first + second) ≠
        (Int.negSucc second).testBit (first + second) := by
    have firstBit : (Int.ofNat first).testBit (first + second) =
        first.testBit (first + second) := rfl
    have secondBit : (Int.negSucc second).testBit (first + second) = true := by
      have negated : (Int.negSucc second).testBit (first + second) =
          !second.testBit (first + second) := rfl
      rw [negated, Nat.add_comm first second, farBits second first,
        Bool.not_false]
    rw [firstBit, secondBit, farBits first second]
    decide
  cases first with
  | ofNat first =>
      cases second with
      | ofNat second => exact congrArg Int.ofNat (Nat.eq_of_testBit_eq same)
      | negSucc second => exact (differ first second (same _)).elim
  | negSucc first =>
      cases second with
      | ofNat second => exact (differ second first (same _).symm).elim
      | negSucc second =>
          exact congrArg Int.negSucc
            (Nat.eq_of_testBit_eq fun index => Bool.not_inj (same index))

/-- Dividing moves the bits down. -/
theorem testBit_ediv
    (value : Int)
    (low index : Nat) :
    (value / 2 ^ low).testBit index = value.testBit (low + index) := by
  have nonnegative : (0 : Int) ≤ 2 ^ low :=
    Int.le_of_lt (Int.pow_pos (by decide))
  rw [testBit_eq, testBit_eq, Int.ediv_ediv_of_nonneg nonnegative,
    ← Int.pow_add]

/-- A remainder has the low bits only. -/
theorem testBit_emod
    (value : Int)
    (width index : Nat) :
    (value % 2 ^ width).testBit index =
      (decide (index < width) && value.testBit index) := by
  have weightNonzero (index : Nat) : (2 : Int) ^ index ≠ 0 :=
    Int.pow_ne_zero (by decide)
  have weightPositive (index : Nat) : (0 : Int) < 2 ^ index :=
    Int.pow_pos (by decide)
  rw [testBit_eq, testBit_eq]
  by_cases inside : index < width
  · obtain ⟨above, rfl⟩ : ∃ above, width = index + (1 + above) :=
      ⟨width - index - 1, by omega⟩
    have weight :
        (2 : Int) ^ (index + (1 + above)) = 2 ^ index * (2 * 2 ^ above) := by
      rw [Int.pow_add, Int.pow_add, Int.pow_one]
    have quotient : value / 2 ^ index =
        value % 2 ^ (index + (1 + above)) / 2 ^ index +
          2 * (2 ^ above * (value / 2 ^ (index + (1 + above)))) := by
      conv_lhs => rw [← Int.emod_add_mul_ediv value (2 ^ (index + (1 + above)))]
      rw [weight, Int.mul_assoc, Int.mul_assoc,
        Int.add_mul_ediv_left _ _ (weightNonzero index)]
    rw [quotient, Int.add_mul_emod_self_left]
    simp [inside]
  · have small : value % 2 ^ width < 2 ^ index := by
      have remainder := Int.emod_lt_of_pos value (weightPositive width)
      have wider : (2 : Int) ^ width ≤ 2 ^ index :=
        mod_cast Nat.pow_le_pow_right (show 0 < 2 by decide)
          (show width ≤ index by omega)
      omega
    rw [Int.ediv_eq_zero_of_lt (Int.emod_nonneg _ (weightNonzero width)) small]
    simp [inside]

namespace BitSpan

/-! ## Spans -/

/-- The bits of the span. -/
def Covers
    (span : BitSpan)
    (index : Nat) : Prop :=
  span.low ≤ index ∧ index < span.low + span.width

instance (span : BitSpan) (index : Nat) : Decidable (span.Covers index) :=
  inferInstanceAs (Decidable (_ ∧ _))

/-- Whether two spans have no bit in common. -/
def IsDisjoint (first second : BitSpan) : Prop :=
  ∀ index, ¬(first.Covers index ∧ second.Covers index)

variable (span : BitSpan) (raw value : Int)

/-- A bit of what a span reads is the bit at its place. -/
theorem testBit_read
    (index : Nat) :
    (span.read value).testBit index =
      (decide (index < span.width) && value.testBit (span.low + index)) := by
  rw [read_eq_emod, testBit_emod, testBit_ediv]

/-- Below the span, writing adds a multiple of the weight of its lowest bit. -/
private theorem write_emod :
    span.write raw value % 2 ^ span.low = value % 2 ^ span.low := by
  rw [write_eq_add, Int.add_mul_emod_self_right]

/-- From its lowest bit on, writing replaces a remainder. -/
private theorem write_ediv :
    span.write raw value / 2 ^ span.low =
      raw % 2 ^ span.width +
        2 ^ span.width * (value / 2 ^ span.low / 2 ^ span.width) := by
  have nonzero : (2 : Int) ^ span.low ≠ 0 := Int.pow_ne_zero (by decide)
  have parts := Int.emod_add_mul_ediv (value / 2 ^ span.low) (2 ^ span.width)
  rw [write_eq_add, Int.add_mul_ediv_right _ _ nonzero, read_eq_emod]
  omega

/-- Writing replaces the bits of the span and leaves the others as they are. -/
theorem testBit_write
    (index : Nat) :
    (span.write raw value).testBit index =
      if span.Covers index then
        raw.testBit (index - span.low)
      else
        value.testBit index := by
  have nonzero : (2 : Int) ^ span.width ≠ 0 := Int.pow_ne_zero (by decide)
  by_cases below : index < span.low
  · have sameLow := congrArg (Int.testBit · index) (write_emod span raw value)
    simp only [testBit_emod, below, decide_true, Bool.true_and] at sameLow
    rw [if_neg (fun covered => by have := covered.1; omega), sameLow]
  · obtain ⟨offset, rfl⟩ : ∃ offset, index = span.low + offset :=
      ⟨index - span.low, by omega⟩
    rw [← testBit_ediv, write_ediv]
    by_cases inside : offset < span.width
    · rw [if_pos ⟨by omega, by omega⟩, Nat.add_sub_cancel_left]
      have lowPart :
          (raw % 2 ^ span.width +
              2 ^ span.width * (value / 2 ^ span.low / 2 ^ span.width)) %
                2 ^ span.width =
            raw % 2 ^ span.width := by
        rw [Int.add_mul_emod_self_left, Int.emod_emod]
      have sameBit := congrArg (Int.testBit · offset) lowPart
      simpa only [testBit_emod, inside, decide_true,
        Bool.true_and] using sameBit
    · obtain ⟨above, rfl⟩ : ∃ above, offset = span.width + above :=
        ⟨offset - span.width, by omega⟩
      have noRest : raw % 2 ^ span.width / 2 ^ span.width = 0 :=
        Int.ediv_eq_zero_of_lt (Int.emod_nonneg _ nonzero)
          (Int.emod_lt_of_pos _ (Int.pow_pos (by decide)))
      rw [if_neg (fun covered => by have := covered.2; omega), ← testBit_ediv,
        Int.add_mul_ediv_left _ _ nonzero, noRest, Int.zero_add, testBit_ediv,
        testBit_ediv]

/-- What was written is read again, as far as there are bits for it. -/
@[simp] theorem read_write :
    span.read (span.write raw value) = raw % 2 ^ span.width := by
  apply eq_of_testBit_eq
  intro index
  rw [testBit_read, testBit_emod, testBit_write]
  by_cases inside : index < span.width
  · rw [if_pos ⟨by omega, by omega⟩, Nat.add_sub_cancel_left]
  · simp [inside]

/-- Writing what was read changes nothing. -/
@[simp] theorem write_read :
    span.write (span.read value) value = value := by
  apply eq_of_testBit_eq
  intro index
  rw [testBit_write]
  split
  · next covered =>
      obtain ⟨low, high⟩ := covered
      have inside : index - span.low < span.width := by omega
      rw [testBit_read, Nat.add_sub_cancel' low]
      simp [inside]
  · rfl

/-- What is written later replaces what was written before. -/
@[simp] theorem write_write
    (later : Int) :
    span.write later (span.write raw value) = span.write later value := by
  apply eq_of_testBit_eq
  intro index
  simp only [testBit_write]
  split <;> rfl

variable {span} {other : BitSpan}

/-- Writing does not change what another span reads. -/
theorem read_write_of_isDisjoint
    (disjoint : span.IsDisjoint other) :
    other.read (span.write raw value) = other.read value := by
  apply eq_of_testBit_eq
  intro index
  rw [testBit_read, testBit_read, testBit_write]
  by_cases inside : index < other.width
  · have covered : other.Covers (other.low + index) := ⟨by omega, by omega⟩
    rw [if_neg fun both => disjoint _ ⟨both, covered⟩]
  · simp [inside]

/-- The order of two writes to different spans makes no difference. -/
theorem write_comm_of_isDisjoint
    (disjoint : span.IsDisjoint other)
    (otherRaw : Int) :
    other.write otherRaw (span.write raw value) =
      span.write raw (other.write otherRaw value) := by
  apply eq_of_testBit_eq
  intro index
  simp only [testBit_write]
  by_cases covered : span.Covers index
  · have notCovered : ¬other.Covers index := fun both =>
      disjoint index ⟨covered, both⟩
    simp only [notCovered, covered, if_true, if_false]
  · simp only [covered, if_false]

/-- Above a bound that the span keeps to, nothing is changed. -/
theorem write_ediv_of_le
    {bits : Nat}
    (fits : span.low + span.width ≤ bits) :
    span.write raw value / 2 ^ bits = value / 2 ^ bits := by
  apply eq_of_testBit_eq
  intro index
  rw [testBit_ediv, testBit_ediv, testBit_write,
    if_neg fun covered => by have := covered.2; omega]

end BitSpan

end VideoCore
