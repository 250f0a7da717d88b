import VideoCore.Proofs.Register.Reading
import VideoCore.Record.Encoding
import VideoCore.Value.Printer

namespace VideoCore

/-!
# Reading single fields

A field whose encoding is plain can be read whenever its bytes are there,
whatever they are.  What is read is worked out by `Encoding.value`, and every
listing can show it.
-/

namespace Bytes

/-- A byte string stores a number of its size. -/
theorem toWord_lt
    (bytes : Bytes) :
    bytes.toWord < 256 ^ bytes.length := by
  induction bytes with
  | nil =>
      simp [toWord]
  | cons byte rest inductionHypothesis =>
      have small := byte.toNat_lt
      rw [toWord, List.length_cons, Nat.pow_succ]
      omega

/-- Some bytes hold a number below their weight. -/
theorem toWord_take_lt
    (size : Nat)
    (bytes : Bytes) :
    toWord (bytes.take size) < 256 ^ size :=
  Nat.lt_of_lt_of_le (toWord_lt _)
    (Nat.pow_le_pow_right (by decide) (List.length_take_le ..))

/-- At most eight bytes store a number below 2 ^ 64. -/
theorem toWord_take_lt_of_le
    {size : Nat}
    (short : size ≤ 8)
    (bytes : Bytes) :
    toWord (bytes.take size) < 2 ^ 64 :=
  calc
    toWord (bytes.take size) < 256 ^ size := toWord_take_lt size bytes
    _ ≤ 256 ^ 8 := Nat.pow_le_pow_right (by decide) short
    _ = 2 ^ 64 := rfl

end Bytes

namespace Value

/-- Whether a listing can show a value. -/
def IsShown (value : Value) : Prop :=
  ∃ text, value.display = .ok text

/-- A number of at most eight bytes can be written in decimal. -/
theorem decimalText_of_lt
    {value : Int}
    (short : value.natAbs < 2 ^ 64) :
    decimalText value = .ok (toString value) := by
  have room : 2 ^ 64 ≤ leastUnwritten :=
    calc
      2 ^ 64 ≤ 10 ^ 20 := by decide
      _ ≤ leastUnwritten :=
        Nat.pow_le_pow_right (by decide) (by simp [longestNumber])
  have written : value.natAbs < leastUnwritten :=
    Nat.lt_of_lt_of_le short room
  simp [decimalText, decimalText?, written]

/-- Values each of which can be shown can be shown together. -/
theorem exists_displays
    {values : List Value}
    (shown : ∀ value ∈ values, value.IsShown) :
    ∃ texts, displays values = .ok texts := by
  induction values with
  | nil =>
      exact ⟨[], by rw [displays]⟩
  | cons first rest inductionHypothesis =>
      obtain ⟨text, firstShown⟩ := shown first (by simp)
      obtain ⟨texts, restShown⟩ :=
        inductionHypothesis fun value member =>
          shown value (List.mem_cons_of_mem _ member)
      rw [displays, firstShown, restShown]
      exact ⟨_, rfl⟩

end Value

/-- What `takeBytes` does if the bytes are there. -/
theorem takeBytes_of_le
    {size : Nat}
    {bytes : Bytes}
    (fits : size ≤ bytes.length) :
    takeBytes size bytes = .ok (bytes.take size, bytes.drop size) := by
  simp [takeBytes, fits]

namespace Encoding

/-- The values of `length` elements of `size` bytes. -/
def elements
    (valueOf : Bytes → Value)
    (size : Nat) :
    Nat → Bytes → List Value
  | 0, _ => []
  | length + 1, bytes =>
      valueOf bytes :: elements valueOf size length (bytes.drop size)

/-- The value that a byte string begins with. -/
def value : Encoding → Bytes → Value
  | .word size, bytes => .integer (Bytes.toWord (bytes.take size))
  | .count size, bytes => .decimal (Bytes.toWord (bytes.take size))
  | .signedWord size, bytes =>
      .integer (signExtend (8 * size) (Bytes.toWord (bytes.take size)))
  | .single, bytes => .real (widen (Bytes.toWord (bytes.take 4)))
  | .register type, bytes =>
      .register
        ⟨type, Bytes.toWord (bytes.take (Encoding.register type).size)⟩
  | .array length element, bytes =>
      .list (elements element.value element.size length bytes)

/--
Whether every byte string of the right size has a value that can be shown.
-/
def isPlain : Encoding → Bool
  | .word _ => true
  | .count size => size ≤ 8
  | .signedWord _ => true
  | .single => true
  | .register type => type.byteSize?.isOk && type.isTotal
  | .array _ element => element.isPlain

/-- A property of the value of every element is one of all elements. -/
theorem forall_mem_elements
    {valueOf : Bytes → Value}
    {good : Value → Prop}
    (each : ∀ bytes, good (valueOf bytes))
    (size length : Nat)
    (bytes : Bytes) :
    ∀ element ∈ elements valueOf size length bytes, good element := by
  induction length generalizing bytes with
  | zero =>
      simp [elements]
  | succ length inductionHypothesis =>
      exact List.forall_mem_cons.mpr
        ⟨each bytes, inductionHypothesis (bytes.drop size)⟩

/-- Elements that can be read one by one can be read together. -/
theorem readMany_eq
    {readOne : Bytes → Except Fault (Value × Bytes)}
    {valueOf : Bytes → Value}
    {size : Nat}
    (reads :
      ∀ bytes : Bytes,
        size ≤ bytes.length →
        readOne bytes = .ok (valueOf bytes, bytes.drop size))
    {length : Nat}
    {bytes : Bytes}
    (fits : length * size ≤ bytes.length) :
    readMany readOne length bytes =
      .ok (elements valueOf size length bytes,
        bytes.drop (length * size)) := by
  induction length generalizing bytes with
  | zero =>
      simp [readMany, elements]
  | succ length inductionHypothesis =>
      rw [Nat.succ_mul] at fits
      have restFits : length * size ≤ (bytes.drop size).length := by
        rw [List.length_drop]
        omega
      simp only [readMany, reads bytes (by omega), Outcome.ok_bind,
        inductionHypothesis restFits, elements, List.drop_drop,
        Nat.succ_mul, Nat.add_comm size]

/-- A plain field is read whenever its bytes are there. -/
theorem read_eq
    {encoding : Encoding}
    (plain : encoding.isPlain = true)
    {bytes : Bytes}
    (fits : encoding.size ≤ bytes.length) :
    encoding.read bytes =
      .ok (encoding.value bytes, bytes.drop encoding.size) := by
  induction encoding generalizing bytes with
  | word size | count size | signedWord size | single =>
      simp only [Encoding.size] at fits
      simp only [read, takeBytes_of_le fits, Outcome.ok_bind, value,
        Encoding.size]
  | register type =>
      simp only [isPlain, Bool.and_eq_true] at plain
      cases stored : type.byteSize? with
      | error fault =>
          simp [stored, Except.isOk, Except.toBool] at plain
      | ok size =>
          have sizeShape : (Encoding.register type).size = size := by
            simp [Encoding.size, stored, Except.toOption]
          rw [sizeShape] at fits
          simp only [read, stored, Outcome.ok_bind, takeBytes_of_le fits,
            Register.ofValue_of_isTotal plain.2, value, sizeShape]
  | array length element inductionHypothesis =>
      have each :
          ∀ bytes : Bytes,
            element.size ≤ bytes.length →
            element.read bytes =
              .ok (element.value bytes, bytes.drop element.size) :=
        fun bytes bytesFit => inductionHypothesis plain bytesFit
      simp only [read, readMany_eq each fits, Outcome.ok_bind, value,
        Encoding.size]

/-- Whatever plain fields hold can be shown. -/
theorem isShown_value
    {encoding : Encoding}
    (plain : encoding.isPlain = true)
    (bytes : Bytes) :
    (encoding.value bytes).IsShown := by
  induction encoding generalizing bytes with
  | word size | signedWord size =>
      exact ⟨_, by rw [value, Value.display]⟩
  | single =>
      exact ⟨_, by rw [value, Value.display]⟩
  | count size =>
      simp only [isPlain, decide_eq_true_eq] at plain
      have small := Bytes.toWord_take_lt_of_le plain bytes
      rw [Value.IsShown, value, Value.display,
        Value.decimalText_of_lt (by simpa using small)]
      exact ⟨_, rfl⟩
  | register type =>
      simp only [isPlain, Bool.and_eq_true] at plain
      rw [Value.IsShown, value, Value.display]
      exact Register.exists_describe plain.2 _
  | array length element inductionHypothesis =>
      obtain ⟨texts, textsAre⟩ :=
        Value.exists_displays
          (forall_mem_elements (inductionHypothesis plain)
            element.size length bytes)
      rw [Value.IsShown, value, Value.display, textsAre]
      exact ⟨_, rfl⟩

end Encoding

end VideoCore
