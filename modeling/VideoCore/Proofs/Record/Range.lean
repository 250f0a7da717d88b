import VideoCore.Proofs.Number.Binary
import VideoCore.Proofs.Record.Storage

namespace VideoCore

/-!
# Values that fields can hold

A value is in the range of an encoding if it can be stored without being
changed: it can be written, and what is read from its bytes is the same value
(`Encoding.exists_write`, `Encoding.same_settle`).  Conversely, what is read
from bytes is in range and is written as these bytes again, unless it is an
undefined floating-point number (`Encoding.inRange_value`,
`Encoding.write_value_of_isLossless`).
-/

namespace Value

/--
Whether two values are equal: integers however they are shown, numbers in two
formats if they are the same number, lists element by element.
-/
inductive Same : Value → Value → Prop where
  | integer
      {first second : Value}
      {number : Int}
      (firstIs : first.integer? = some number)
      (secondIs : second.integer? = some number) :
      Same first second
  | number
      {first : Value}
      {number : Int}
      {bits : UInt64}
      (firstIs : first.integer? = some number)
      (exactly : (Value.real bits).isNumber number = true) :
      Same first (.real bits)
  | real (bits : UInt64) :
      Same (.real bits) (.real bits)
  | register (held : Register) :
      Same (.register held) (.register held)
  | list
      {items others : List Value}
      (length_eq : items.length = others.length)
      (each :
        ∀ (index : Nat) (first second : Value),
          items[index]? = some first →
          others[index]? = some second →
          Same first second) :
      Same (.list items) (.list others)

/-- Whether a value is a number of the four-byte format, exactly. -/
def IsSingle (value : Value) : Prop :=
  ∃ bits < 256 ^ 4,
    (FloatFormat.single.decode bits).isNumber = true ∧
      value.realBits? = some (widen bits) ∧
      value.Same (.real (widen bits))

/-- Whether a value is anything but an undefined floating-point number. -/
def isDefined : Value → Bool
  | .real bits => (FloatFormat.double.decode bits.toNat).isNumber
  | _ => true

/-- Whether a value is a number that can be given in eight bytes. -/
def IsNumeric (value : Value) : Prop :=
  ∃ bits, value.realBits? = some bits

/-- A short integer can be given in eight bytes. -/
theorem isNumeric_of_integer?
    {value : Value}
    {number : Int}
    (isInteger : value.integer? = some number)
    (short : number.natAbs < 2 ^ 16) :
    value.IsNumeric := by
  obtain ⟨bits, bitsAre⟩ := exists_doubleOfInt? short
  refine ⟨bits, ?_⟩
  cases value with
  | truth | integer | decimal =>
      cases isInteger
      exact bitsAre
  | absent | real | text | bytes | list | tuple | register =>
      contradiction

end Value

theorem natCast_lt_pow
    {size number : Nat}
    (small : number < 256 ^ size) :
    (number : Int) < 256 ^ size := by
  have small := Int.ofNat_lt.mpr small
  rwa [Int.natCast_pow] at small

/-- The remainder nearest to zero fits a word in two's complement. -/
theorem bmod_bounds
    (size : Nat)
    (number : Int) :
    -(256 ^ size) ≤ 2 * Int.bmod number (256 ^ size) ∧
      2 * Int.bmod number (256 ^ size) < 256 ^ size := by
  have positive : 0 < 256 ^ size := Nat.pow_pos (by decide)
  have lower := Int.le_bmod positive (x := number)
  have upper := Int.bmod_lt positive (x := number)
  have power : (256 : Int) ^ size = (256 ^ size : Nat) :=
    (Int.natCast_pow 256 size).symm
  rw [power]
  omega

namespace Encoding

/-- Whether a value can be stored without being changed. -/
def InRange : Encoding → Value → Prop
  | .word size, value => value.IsBelow (256 ^ size)
  | .count size, value => value.IsBelow (256 ^ size)
  | .signedWord size, value =>
      ∃ number,
        value.integer? = some number ∧
          -(256 ^ size) ≤ 2 * number ∧ 2 * number < 256 ^ size
  | .single, value => value.IsSingle
  | .register type, value =>
      ∃ number : Nat,
        value = .register ⟨type, number⟩ ∧
          number < 256 ^ (Encoding.register type).size
  | .array length element, value =>
      ∃ items,
        value = .list items ∧
          items.length = length ∧ ∀ item ∈ items, element.InRange item

/-- Whether bytes are written as they were read, but for undefined numbers. -/
def isLossless : Encoding → Bool
  | .array length element => (array length element).isExact && element.isPlain
  | encoding => encoding.isPlain

/-- Whether the values of a field are short numbers. -/
def isNumeric : Encoding → Bool
  | .signedWord size => size == 2
  | .single => true
  | _ => false

variable {encoding : Encoding} {value : Value} {bytes : Bytes}

theorem isPlain_of_isLossless
    (lossless : encoding.isLossless = true) :
    encoding.isPlain = true := by
  cases encoding with
  | word | count | signedWord | single | register =>
      exact lossless
  | array length element =>
      exact (Bool.and_eq_true_iff.mp lossless).2

/-- A plain register takes as many bytes as its encoding. -/
theorem byteSize?_of_isPlain
    {type : RegisterClass}
    (plain : (register type).isPlain = true) :
    type.byteSize? = .ok (register type).size := by
  cases stored : type.byteSize? with
  | error fault =>
      simp [isPlain, stored, Except.isOk, Except.toBool] at plain
  | ok size =>
      simp [Encoding.size, stored, Except.toOption]

/-! ## Writing values that are in range -/

theorem ne_absent_of_inRange
    (inRange : encoding.InRange value) :
    value ≠ .absent := by
  rintro rfl
  cases encoding with
  | word | count =>
      obtain ⟨number, isInteger, _⟩ := inRange
      contradiction
  | signedWord =>
      obtain ⟨number, isInteger, _⟩ := inRange
      contradiction
  | single =>
      obtain ⟨bits, _, _, isReal, _⟩ := inRange
      contradiction
  | register =>
      obtain ⟨number, isRegister, _⟩ := inRange
      contradiction
  | array =>
      obtain ⟨items, isList, _⟩ := inRange
      contradiction

/-- A value that is in range can be written. -/
theorem exists_write
    (plain : encoding.isPlain = true)
    (inRange : encoding.InRange value) :
    ∃ own, encoding.write value = .ok own := by
  induction encoding generalizing value with
  | word size | count size =>
      exact (exists_write_word rfl inRange).2
  | signedWord size =>
      obtain ⟨number, isInteger, lower, upper⟩ := inRange
      rw [write, isInteger, Option.elim_some, writeSignedWord,
        if_pos ⟨lower, upper⟩]
      exact ⟨_, rfl⟩
  | single =>
      obtain ⟨bits, short, isNumber, isReal, _⟩ := inRange
      have narrows : value.realBits?.bind narrow? = some bits := by
        rw [isReal, Option.bind_some, narrow?_widen short isNumber]
      refine ⟨Bytes.ofWord 4 bits, ?_⟩
      simp only [write, narrows]
  | register type =>
      obtain ⟨number, rfl, upper⟩ := inRange
      have fits :
          0 ≤ (number : Int) ∧
            (number : Int) < 256 ^ (register type).size :=
        ⟨Int.natCast_nonneg _, natCast_lt_pow upper⟩
      simp only [write, byteSize?_of_isPlain plain, Outcome.ok_bind,
        Value.toInteger, writeWord, if_pos fits]
      exact ⟨_, rfl⟩
  | array length element inductionHypothesis =>
      obtain ⟨items, rfl, count, each⟩ := inRange
      obtain ⟨own, writes⟩ :=
        exists_writeMany fun item member =>
          inductionHypothesis plain (each item member)
      refine ⟨own, ?_⟩
      simp only [write, Value.items?, if_pos count, writes]

/-- A value that is in range is read as the same value. -/
theorem same_settle
    (inRange : encoding.InRange value) :
    value.Same (encoding.settle value) := by
  induction encoding generalizing value with
  | word | count =>
      obtain ⟨number, isInteger, _⟩ := inRange
      rw [settle, isInteger]
      exact .integer isInteger rfl
  | signedWord =>
      obtain ⟨number, isInteger, _⟩ := inRange
      rw [settle, isInteger]
      exact .integer isInteger rfl
  | single =>
      obtain ⟨bits, short, isNumber, isReal, same⟩ := inRange
      rw [settle, isReal, Option.bind_some,
        narrow?_widen short isNumber]
      exact same
  | register type =>
      obtain ⟨number, rfl, _⟩ := inRange
      exact .register _
  | array length element inductionHypothesis =>
      obtain ⟨items, rfl, _, each⟩ := inRange
      rw [settle, Value.items?, Option.getD_some]
      refine .list (List.length_map ..).symm ?_
      intro index first second firstIs secondIs
      rw [List.getElem?_map, firstIs] at secondIs
      cases secondIs
      exact inductionHypothesis
        (each first (List.mem_of_getElem? firstIs))

/-! ## Values of bytes -/

/-- A word in two's complement is read as a remainder. -/
theorem value_signedWord
    (size : Nat)
    (bytes : Bytes) :
    (signedWord size).value bytes =
      .integer
        (Int.bmod (Bytes.toWord (bytes.take size)) (256 ^ size)) := by
  rw [value, signExtend_eq_bmod, Nat.pow_mul]

/-- A word that is read is a number below the bound. -/
theorem isBelow_toWord
    {size : Nat}
    (isInteger :
      value.integer? = some (Bytes.toWord (bytes.take size) : Int)) :
    value.IsBelow (256 ^ size) :=
  ⟨_, isInteger, Int.natCast_nonneg _,
    natCast_lt_pow (Bytes.toWord_take_lt size bytes)⟩

/-- What an exact field holds is in range. -/
theorem inRange_value_of_isExact
    (exact : encoding.isExact = true)
    (bytes : Bytes) :
    encoding.InRange (encoding.value bytes) := by
  induction encoding generalizing bytes with
  | word size | count size =>
      exact isBelow_toWord rfl
  | array length element inductionHypothesis =>
      exact ⟨_, rfl, length_elements ..,
        forall_mem_elements (inductionHypothesis exact) _ _ _⟩
  | signedWord | single | register =>
      contradiction

/-- What is read from bytes is in range, unless it is undefined. -/
theorem inRange_value
    (lossless : encoding.isLossless = true)
    (isDefined : (encoding.value bytes).isDefined = true) :
    encoding.InRange (encoding.value bytes) := by
  cases encoding with
  | word | count =>
      exact inRange_value_of_isExact rfl bytes
  | signedWord size =>
      rw [value_signedWord]
      exact ⟨_, rfl, bmod_bounds size _⟩
  | single =>
      exact ⟨_, Bytes.toWord_take_lt 4 bytes, isNumber_of_widen isDefined, rfl,
        .real _⟩
  | register type =>
      exact ⟨_, rfl, Bytes.toWord_take_lt _ bytes⟩
  | array length element =>
      exact inRange_value_of_isExact (Bool.and_eq_true_iff.mp lossless).1 bytes

/--
What is read from bytes is written as these bytes, unless it is undefined.
-/
theorem write_value_of_isLossless
    (lossless : encoding.isLossless = true)
    (isDefined : (encoding.value bytes).isDefined = true)
    (fits : encoding.size ≤ bytes.length) :
    encoding.write (encoding.value bytes) =
      .ok (bytes.take encoding.size) := by
  have same : ∀ size ≤ bytes.length,
      Bytes.ofWord size (Bytes.toWord (bytes.take size)) =
        bytes.take size := by
    intro size fits
    have same := Bytes.ofWord_toWord (bytes.take size)
    rwa [List.length_take_of_le fits] at same
  cases encoding with
  | word | count =>
      exact write_value rfl fits
  | signedWord size =>
      have small := Bytes.toWord_take_lt size bytes
      have power : (256 : Int) ^ size = (256 ^ size : Nat) :=
        (Int.natCast_pow 256 size).symm
      rw [value_signedWord, write, Value.integer?, Option.elim_some,
        writeSignedWord, if_pos (bmod_bounds size _), power,
        Int.bmod_emod, ← Int.natCast_emod, Int.toNat_natCast,
        Nat.mod_eq_of_lt small, same size fits]
      rfl
  | single =>
      have narrows :=
        narrow?_widen (Bytes.toWord_take_lt 4 bytes)
          (isNumber_of_widen isDefined)
      simp only [value, write, Value.realBits?, Option.bind_some, narrows,
        same 4 fits, Encoding.size]
  | register type =>
      simp only [value, write, byteSize?_of_isPlain lossless,
        Outcome.ok_bind, Value.toInteger, writeWord_toWord fits]
  | array length element =>
      exact write_value (Bool.and_eq_true_iff.mp lossless).1 fits

/-! ## Short numbers -/

/-- A short number that is in range can be computed with. -/
theorem isNumeric_of_inRange
    (numeric : encoding.isNumeric = true)
    (inRange : encoding.InRange value) :
    value.IsNumeric := by
  cases encoding with
  | signedWord size =>
      obtain rfl : size = 2 := by simpa [isNumeric] using numeric
      obtain ⟨number, isInteger, lower, upper⟩ := inRange
      exact Value.isNumeric_of_integer? isInteger (by omega)
  | single =>
      obtain ⟨bits, _, _, isReal, _⟩ := inRange
      exact ⟨_, isReal⟩
  | word | count | register | array =>
      contradiction

/-- A short number that is read can be computed with. -/
theorem isNumeric_value
    (numeric : encoding.isNumeric = true)
    (bytes : Bytes) :
    (encoding.value bytes).IsNumeric := by
  cases encoding with
  | signedWord size =>
      exact isNumeric_of_inRange numeric (inRange_value rfl rfl)
  | single =>
      exact ⟨_, rfl⟩
  | word | count | register | array =>
      contradiction

end Encoding

end VideoCore
