import Mathlib.Data.Nat.Find
import Mathlib.Order.Bounds.Defs
import VideoCore.Proofs.Record.Encoding
import VideoCore.Shader.Program

namespace VideoCore.Shader

/-!
# Extents of programs

A program extends to the second instruction behind the first one that signals
its end, or to its last whole instruction if there are fewer
(`extent_isUpToFirstEnd`). What lies behind makes no difference, so that a
program which is cut to its extent has the same extent again.
-/

/-- The word at an index of a byte string, eight bytes each. -/
def storedWord
    (bytes : Bytes)
    (index : Nat) : Nat :=
  Bytes.toWord ((bytes.drop (8 * index)).take 8)

/--
Whether there is a word at an index, with the signal of an end in its four top
bits.
-/
def EndsAt
    (bytes : Bytes)
    (index : Nat) : Prop :=
  index < bytes.length / 8 ∧ storedWord bytes index / 2 ^ 60 = 3

instance (bytes : Bytes) (index : Nat) : Decidable (EndsAt bytes index) :=
  inferInstanceAs (Decidable (_ ∧ _))

/-- Whether an index is that of the first end. -/
abbrev IsFirstEnd
    (bytes : Bytes)
    (index : Nat) : Prop :=
  IsLeast {index | EndsAt bytes index} index

variable {code : Window} {bytes longer : Bytes} {index : Nat}

/-! ## The search for an end -/

/-- An instruction is the word at its index. -/
theorem instructionAt_eq
    (code : Window)
    (index : Nat) :
    instructionAt code index = storedWord code.toBytes index := by
  have place : 8 * index + 8 - 8 * index = 8 := by omega
  rw [instructionAt, storedWord, Window.slice, Window.toBytes_drop,
    Window.toBytes_take, List.drop_take, instructionSize, place]

/-- A window ends a program where its bytes do. -/
theorem endsAt_eq_true
    (inside : index < count code) :
    endsAt code index = true ↔ EndsAt code.toBytes index := by
  have small : storedWord code.toBytes index < 2 ^ 64 :=
    Bytes.toWord_take_lt_of_le (Nat.le_refl 8) _
  have length : code.toBytes.length / 8 = count code := by
    rw [Window.length_toBytes, count, instructionSize]
  rw [endsAt_eq_signalsEnd inside, instructionAt_eq, signalsEnd, beq_iff_eq,
    signal, BitSpan.read_eq_emod, EndsAt, length]
  generalize storedWord code.toBytes index = word at small
  dsimp only
  omega

/-- The search finds the first end from its start on, if there is one. -/
theorem endFrom?_spec
    (code : Window)
    (start : Nat) :
    match endFrom? code start with
    | some found =>
        start ≤ found ∧ EndsAt code.toBytes found ∧
          ∀ index, start ≤ index → index < found →
            ¬EndsAt code.toBytes index
    | none => ∀ index, start ≤ index → ¬EndsAt code.toBytes index := by
  fun_induction endFrom? code start with
  | case1 start inside ends =>
      refine ⟨Nat.le_refl _, (endsAt_eq_true inside).mp ends, ?_⟩
      intro index lower upper
      omega
  | case2 start inside goesOn inductionHypothesis =>
      have noEnd : ¬EndsAt code.toBytes start := fun ends =>
        goesOn ((endsAt_eq_true inside).mpr ends)
      have fromStart :
          ∀ {index : Nat}, start ≤ index → EndsAt code.toBytes index →
            start + 1 ≤ index := by
        intro index lower ends
        exact Nat.lt_of_le_of_ne lower fun same => noEnd (same ▸ ends)
      split at inductionHypothesis
      · obtain ⟨lower, ends, noEarlier⟩ := inductionHypothesis
        refine ⟨by omega, ends, fun index after before isEnd => ?_⟩
        exact noEarlier index (fromStart after isEnd) before isEnd
      · intro index lower isEnd
        exact inductionHypothesis index (fromStart lower isEnd) isEnd
  | case3 start outside =>
      intro index lower ends
      have inside := ends.1
      rw [Window.length_toBytes] at inside
      simp only [count, instructionSize] at outside
      omega

/--
A program extends two instructions behind its first end, if these are there.
-/
theorem extent_of_isFirstEnd
    (isFirst : IsFirstEnd code.toBytes index) :
    extent code = ⟨8 * min (index + 3) (code.size / 8), true⟩ := by
  have spec := endFrom?_spec code 0
  cases searched : endFrom? code 0 with
  | none =>
      rw [searched] at spec
      exact absurd isFirst.1 (spec index (Nat.zero_le _))
  | some found =>
      rw [searched] at spec
      obtain ⟨_, ends, noEarlier⟩ := spec
      have notBefore : ¬index < found := fun before =>
        noEarlier index (Nat.zero_le _) before isFirst.1
      have same : found = index :=
        Nat.le_antisymm (Nat.not_lt.mp notBefore) (isFirst.2 ends)
      rw [extent, searched, same]
      rfl

/-- A program without an end takes all instructions. -/
theorem extent_of_endless
    (endless : ∀ index, ¬EndsAt code.toBytes index) :
    extent code = ⟨8 * (code.size / 8), false⟩ := by
  have spec := endFrom?_spec code 0
  cases searched : endFrom? code 0 with
  | none =>
      rw [extent, searched]
      rfl
  | some found =>
      rw [searched] at spec
      exact absurd spec.2.1 (endless found)

/--
A program consists of whole instructions and does not extend past its bytes.
-/
theorem extent_size
    (code : Window) :
    8 ∣ (extent code).size ∧ (extent code).size ≤ code.size := by
  have instructionsFit : 8 * count code ≤ code.size :=
    Nat.mul_div_le code.size 8
  unfold extent
  cases endFrom? code 0 with
  | some index =>
      have delayed :
          min (index + 1 + delaySlots) (count code) ≤ count code :=
        Nat.min_le_right _ _
      simp only [instructionSize]
      omega
  | none =>
      simp only [instructionSize]
      omega

/-- There is a first end, or none at all. -/
theorem exists_isFirstEnd_or_endless
    (bytes : Bytes) :
    (∃ first, IsFirstEnd bytes first) ∨ ∀ index, ¬EndsAt bytes index := by
  by_cases ends : ∃ index, EndsAt bytes index
  · refine .inl ⟨Nat.find ends, Nat.find_spec ends, ?_⟩
    intro index isEnd
    exact Nat.find_min' ends isEnd
  · exact .inr (not_exists.mp ends)

/-- An end is found just if there is one. -/
theorem found_extent_iff
    (code : Window) :
    (extent code).found = true ↔ ∃ index, EndsAt code.toBytes index := by
  rcases exists_isFirstEnd_or_endless code.toBytes with
    ⟨first, isFirst⟩ | endless
  · rw [extent_of_isFirstEnd isFirst]
    exact ⟨fun _ => ⟨first, isFirst.1⟩, fun _ => rfl⟩
  · rw [extent_of_endless endless]
    exact ⟨fun isFound => by contradiction,
      fun ⟨index, ends⟩ => absurd ends (endless index)⟩

/-! ## Parts of a program -/

/-- The words of a byte string are those of every longer one. -/
theorem endsAt_of_prefixed
    (isPrefix : bytes <+: longer) :
    EndsAt bytes index ↔
      index < bytes.length / 8 ∧ EndsAt longer index := by
  obtain ⟨later, rfl⟩ := isPrefix
  have sameWord :
      index < bytes.length / 8 →
        storedWord (bytes ++ later) index = storedWord bytes index := by
    intro inside
    rw [storedWord, storedWord,
      List.drop_append_of_le_length (by omega),
      List.take_append_of_le_length (by rw [List.length_drop]; omega)]
  have longerToo : bytes.length / 8 ≤ (bytes ++ later).length / 8 := by
    rw [List.length_append]
    omega
  constructor
  · rintro ⟨inside, signals⟩
    exact ⟨inside, Nat.lt_of_lt_of_le inside longerToo,
      (sameWord inside).symm ▸ signals⟩
  · rintro ⟨inside, _, signals⟩
    exact ⟨inside, sameWord inside ▸ signals⟩

/-- More bytes do not change where the first end is. -/
theorem isFirstEnd_of_prefixed
    (isPrefix : bytes <+: longer)
    (inside : index < bytes.length / 8) :
    IsFirstEnd bytes index ↔ IsFirstEnd longer index := by
  constructor
  · rintro ⟨ends, least⟩
    refine ⟨((endsAt_of_prefixed isPrefix).mp ends).2, ?_⟩
    intro other otherEnds
    by_cases otherInside : other < bytes.length / 8
    · exact least ((endsAt_of_prefixed isPrefix).mpr ⟨otherInside, otherEnds⟩)
    · omega
  · rintro ⟨ends, least⟩
    refine ⟨(endsAt_of_prefixed isPrefix).mpr ⟨inside, ends⟩, ?_⟩
    intro other otherEnds
    exact least ((endsAt_of_prefixed isPrefix).mp otherEnds).2

/-! ## Programs that are byte strings -/

theorem size_ofBytes
    (bytes : Bytes) :
    (Window.ofBytes bytes).size = bytes.length := by
  rw [← Window.length_toBytes, Window.toBytes_ofBytes]

/--
A program extends two instructions beyond its first end, if they are there.
-/
theorem extent_ofBytes_of_isFirstEnd
    (isFirst : IsFirstEnd bytes index) :
    extent (.ofBytes bytes) =
      ⟨8 * min (index + 3) (bytes.length / 8), true⟩ := by
  rw [← Window.toBytes_ofBytes bytes] at isFirst
  rw [extent_of_isFirstEnd isFirst, size_ofBytes]

theorem extent_ofBytes_of_endless
    (endless : ∀ index, ¬EndsAt bytes index) :
    extent (.ofBytes bytes) = ⟨8 * (bytes.length / 8), false⟩ := by
  rw [← Window.toBytes_ofBytes bytes] at endless
  rw [extent_of_endless endless, size_ofBytes]

/-- A program that is cut to its extent has the same extent. -/
theorem extent_take
    (bytes : Bytes) :
    extent (.ofBytes (bytes.take (extent (.ofBytes bytes)).size)) =
      extent (.ofBytes bytes) := by
  rcases exists_isFirstEnd_or_endless bytes with
    ⟨first, isFirst⟩ | endless
  · have inside := isFirst.1.1
    rw [extent_ofBytes_of_isFirstEnd isFirst]
    generalize sizeIs : 8 * min (first + 3) (bytes.length / 8) = size
    have length : (bytes.take size).length = size := by
      rw [List.length_take]
      omega
    have isFirstToo : IsFirstEnd (bytes.take size) first :=
      (isFirstEnd_of_prefixed (List.take_prefix size bytes)
        (by rw [length]; omega)).mpr isFirst
    rw [extent_ofBytes_of_isFirstEnd isFirstToo, length, Extent.mk.injEq]
    exact ⟨by omega, rfl⟩
  · rw [extent_ofBytes_of_endless endless]
    generalize sizeIs : 8 * (bytes.length / 8) = size
    have endlessToo : ∀ index, ¬EndsAt (bytes.take size) index := by
      intro index ends
      exact endless index
        ((endsAt_of_prefixed (List.take_prefix size bytes)).mp ends).2
    rw [extent_ofBytes_of_endless endlessToo, List.length_take,
      Extent.mk.injEq]
    exact ⟨by omega, rfl⟩

/--
Bytes behind a program with an end and all its instructions make no difference.
-/
theorem extent_append
    (isFirst : IsFirstEnd bytes index)
    (slotsThere : index + 3 ≤ bytes.length / 8)
    (later : Bytes) :
    extent (.ofBytes (bytes ++ later)) = extent (.ofBytes bytes) := by
  have isFirstToo : IsFirstEnd (bytes ++ later) index :=
    (isFirstEnd_of_prefixed (List.prefix_append _ _) isFirst.1.1).mp isFirst
  rw [extent_ofBytes_of_isFirstEnd isFirstToo,
    extent_ofBytes_of_isFirstEnd isFirst, List.length_append,
    Extent.mk.injEq]
  exact ⟨by omega, rfl⟩

/--
An end is found if some whole word has the signal of an end in its four top
bits, and the program then extends two instructions behind the first such word,
or to the last whole word if there are fewer.  Without an end it takes all whole
words. A program that is cut to its extent has the same extent again; and once
both instructions behind the end are there, more bytes do not change it.
-/
theorem extent_isUpToFirstEnd
    (bytes : Bytes) :
    let extentOf := fun stored : Bytes => extent (.ofBytes stored)
    ((extentOf bytes).found = true ↔ ∃ index, EndsAt bytes index) ∧
      (∀ first,
        IsFirstEnd bytes first →
        (extentOf bytes).size =
          8 * min (first + 3) (bytes.length / 8)) ∧
      ((¬∃ index, EndsAt bytes index) →
        extentOf bytes = ⟨8 * (bytes.length / 8), false⟩) ∧
      extentOf (bytes.take (extentOf bytes).size) = extentOf bytes ∧
      ∀ first,
        IsFirstEnd bytes first →
        first + 3 ≤ bytes.length / 8 →
        ∀ later, extentOf (bytes ++ later) = extentOf bytes := by
  intro extentOf
  refine ⟨?_, ?_, ?_, extent_take bytes, fun _ => extent_append⟩
  · rw [found_extent_iff, Window.toBytes_ofBytes]
  · intro first isFirst
    exact congrArg Extent.size (extent_ofBytes_of_isFirstEnd isFirst)
  · intro endless
    exact extent_ofBytes_of_endless (not_exists.mp endless)

/--
An end with both instructions behind it, and three bytes that fill no
instruction.
-/
def endedProgram : Bytes :=
  [0, 0, 0, 0, 0, 0, 0, 0x3f] ++ List.replicate 16 0 ++ [1, 2, 3]

/--
The bytes that fill no instruction are left out, with more of them behind or
not.
-/
theorem extent_isUpToFirstEnd_ended :
    IsFirstEnd endedProgram 0 ∧
      0 + 3 ≤ endedProgram.length / 8 ∧
      (extent (.ofBytes endedProgram)).size = 24 ∧
      extent (.ofBytes (endedProgram ++ List.replicate 5 0x30)) =
        extent (.ofBytes endedProgram) := by
  have ends : EndsAt endedProgram 0 := by decide +kernel
  have isFirst : IsFirstEnd endedProgram 0 :=
    ⟨ends, fun _ _ => Nat.zero_le _⟩
  obtain ⟨_, sizes, _, _, stays⟩ := extent_isUpToFirstEnd endedProgram
  exact ⟨isFirst, by decide, sizes 0 isFirst,
    stays 0 isFirst (by decide) _⟩

end VideoCore.Shader
