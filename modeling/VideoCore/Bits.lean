import VideoCore.Fault

namespace VideoCore

/-!
# Bits of integers

Integers have a two's complement bit pattern of unlimited length.  A span of
bits is read as a non-negative number and written modulo its width.  Reading is
possible at any distance; a number that would have bits too far away is refused.
-/

/-! ## Powers

Powers of natural numbers and of integers are the built-in ones, also where a
theory with powers of its own is at hand.
-/

/-- The powers of natural numbers. -/
@[default_instance 20001]
instance natPower : HPow Nat Nat Nat :=
  @instHPow Nat Nat (@instPowNat Nat instNatPowNat)

/-- The powers of integers. -/
@[default_instance 20000]
instance intPower : HPow Int Nat Int :=
  @instHPow Int Nat (@instPowNat Int Int.instNatPow)

/-! ## Room for large numbers -/

/-- The bits of one digit of a stored number. -/
def digitBits : Nat :=
  30

/-- The number of digits that some bits take. -/
def digitsOf (bits : Nat) : Nat :=
  (bits + digitBits - 1) / digitBits

/-- The most digits that a stored number can have. -/
def mostDigits : Nat :=
  2 ^ 61 - 7

/-- The most bits that there is memory for. -/
def mostBits : Nat :=
  2 ^ 36

/--
Refuse a number of `bits` bits with `zeros` zeros behind it if there is no room
for it.
-/
def requireRoom (bits zeros : Nat) : Except Fault Unit :=
  if bits = 0 then .ok ()
  else if mostDigits < digitsOf bits + digitsOf zeros then .error .overflow
  else if mostBits < bits + zeros then .error .exhausted
  else .ok ()

/-- There is room for everything that there is memory for. -/
theorem requireRoom_eq_ok_iff
    {bits zeros : Nat} :
    requireRoom bits zeros = .ok () ↔ bits = 0 ∨ bits + zeros ≤ mostBits := by
  unfold requireRoom
  split
  · next empty => simp [empty]
  · next nonempty =>
      split
      · next tooLong =>
          have noMemory : ¬bits + zeros ≤ mostBits := by
            simp only [mostDigits, digitsOf, digitBits, mostBits] at *
            omega
          simp [nonempty, noMemory]
      · split
        · next noMemory => simp [nonempty, Nat.not_le.mpr noMemory]
        · next fits => simp [Nat.not_lt.mp fits]

/-! ## Low bits and signs -/

/-- The number that the `width` low bits of a value are. -/
def lowBits
    (width : Nat)
    (value : Int) : Int :=
  if 0 ≤ value ∧ value.toNat.log2 < width then value else value % 2 ^ width

/-- Low bits are a remainder; a shorter number is its own. -/
theorem lowBits_eq_emod
    (width : Nat)
    (value : Int) :
    lowBits width value = value % 2 ^ width := by
  unfold lowBits
  split
  · next short =>
      obtain ⟨magnitude, rfl⟩ := Int.eq_ofNat_of_zero_le short.1
      by_cases zero : magnitude = 0
      · simp [zero]
      · have below := (Nat.log2_lt zero).mp short.2
        have power : ((2 : Int) ^ width) = ((2 ^ width : Nat) : Int) := by simp
        rw [power]
        symm
        exact Int.emod_eq_of_lt (Int.natCast_nonneg _) (Int.ofNat_lt.mpr below)
  · rfl

/--
The integer in `[-2 ^ (bits - 1), 2 ^ (bits - 1))` congruent to `value` modulo
`2 ^ bits`.
-/
def signExtend
    (bits : Nat)
    (value : Int) : Int :=
  if value.natAbs.log2 + 1 < bits then value else value.bmod (2 ^ bits)

/--
Sign extension is a balanced remainder; a number that is shorter by a bit is its
own.
-/
theorem signExtend_eq_bmod
    (bits : Nat)
    (value : Int) :
    signExtend bits value = value.bmod (2 ^ bits) := by
  unfold signExtend
  split
  · next short =>
      obtain ⟨half, rfl⟩ : ∃ half, bits = half + 1 := ⟨bits - 1, by omega⟩
      have below : value.natAbs < 2 ^ half := by
        by_cases zero : value.natAbs = 0
        · rw [zero]; exact Nat.two_pow_pos half
        · exact (Nat.log2_lt zero).mp (by omega)
      have double : 2 ^ (half + 1) = 2 * 2 ^ half := by rw [Nat.pow_succ]; omega
      rw [double]
      generalize 2 ^ half = bound at below
      symm
      apply Int.bmod_eq_of_le_mul_two <;> omega
  · rfl

/--
Sign extension, refused for a width that has no sign bit or that there is no
room for.
-/
def signExtend?
    (bits : Int)
    (value : Int) : Except Fault Int :=
  if 0 < bits then do
    requireRoom 1 bits.toNat
    .ok (signExtend bits.toNat value)
  else
    .error .badValue

/-! ## Spans -/

/-- A run of `width` bits that starts at bit `low`. -/
structure BitSpan where
  low : Nat
  width : Nat
deriving DecidableEq

namespace BitSpan

/-- The bits of the span, as a number below `2 ^ width`. -/
def read
    (span : BitSpan)
    (value : Int) : Int :=
  lowBits span.width (value >>> span.low)

/-- The value with the bits of the span replaced by the low bits of `raw`. -/
def write
    (span : BitSpan)
    (raw value : Int) : Int :=
  let change := lowBits span.width raw - span.read value
  if change = 0 then value else value + change * 2 ^ span.low

/-- Reading divides by the weight of the lowest bit. -/
theorem read_eq_emod
    (span : BitSpan)
    (value : Int) :
    span.read value = value / 2 ^ span.low % 2 ^ span.width := by
  simp [read, lowBits_eq_emod, Int.shiftRight_eq_div_pow]

/-- Writing adds the difference between the new bits and the old ones. -/
theorem write_eq_add
    (span : BitSpan)
    (raw value : Int) :
    span.write raw value =
      value + (raw % 2 ^ span.width - span.read value) * 2 ^ span.low := by
  simp only [write, lowBits_eq_emod]
  split
  · next unchanged => simp [unchanged]
  · rfl

end BitSpan

end VideoCore
