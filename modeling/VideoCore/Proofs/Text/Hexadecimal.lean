import Mathlib.Data.List.Basic
import Mathlib.Tactic.Ring
import VideoCore.Text.Hexadecimal

namespace VideoCore.Hexadecimal

/-!
# What hexadecimal text says

The digits of a number give it back, however many zeros stand in front of them,
and they hold neither a minus sign nor a space.  So a padded number is found
again in any text in which a space follows it, and a byte string of known length
is found again in any text that begins with its digits.
-/

/-- The number that a digit stands for. -/
def digitValue (digit : Char) : Nat :=
  if digit.toNat < 'a'.toNat then
    digit.toNat - '0'.toNat
  else
    digit.toNat - 'a'.toNat + 10

/-- The number that digits stand for, the most significant one first. -/
def valueOf (digits : List Char) : Nat :=
  digits.foldl (fun value digit => 16 * value + digitValue digit) 0

/-- A digit at the end counts least. -/
theorem valueOf_concat
    (digits : List Char)
    (digit : Char) :
    valueOf (digits ++ [digit]) = 16 * valueOf digits + digitValue digit := by
  simp [valueOf]

/-- A digit stands for the number it was made from. -/
theorem digitValue_digitChar :
    ∀ value < 16, digitValue (Nat.digitChar value) = value := by
  decide

/-- The digits of a number stand for it. -/
theorem valueOf_toDigits
    (value : Nat) :
    valueOf (Nat.toDigits 16 value) = value := by
  induction value using Nat.strongRecOn with
  | ind value inductionHypothesis =>
      by_cases single : value < 16
      · rw [Nat.toDigits_of_lt_base single]
        simpa [valueOf] using digitValue_digitChar value single
      · rw [Nat.toDigits_of_base_le (by decide) (by omega), valueOf_concat,
          inductionHypothesis (value / 16) (by omega),
          digitValue_digitChar (value % 16) (by omega)]
        omega

/-- Zeros in front of digits change nothing. -/
theorem valueOf_zeros
    (count : Nat)
    (digits : List Char) :
    valueOf (List.replicate count '0' ++ digits) = valueOf digits := by
  induction count with
  | zero => rfl
  | succ count inductionHypothesis =>
      rw [← inductionHypothesis]
      simp [valueOf, List.replicate_succ, digitValue]

/-- A digit that a number is written with. -/
def IsDigit (digit : Char) : Prop :=
  ∃ value < 16, digit = Nat.digitChar value

theorem isDigit_zero : IsDigit '0' :=
  ⟨0, by decide, rfl⟩

theorem IsDigit.ne_space
    {digit : Char}
    (isDigit : IsDigit digit) :
    digit ≠ ' ' := by
  obtain ⟨value, small, rfl⟩ := isDigit
  have noSpace : ∀ value < 16, Nat.digitChar value ≠ ' ' := by decide
  exact noSpace value small

theorem IsDigit.ne_minus
    {digit : Char}
    (isDigit : IsDigit digit) :
    digit ≠ '-' := by
  obtain ⟨value, small, rfl⟩ := isDigit
  have noMinus : ∀ value < 16, Nat.digitChar value ≠ '-' := by decide
  exact noMinus value small

theorem isDigit_of_mem_toDigits
    {value : Nat}
    {digit : Char}
    (member : digit ∈ Nat.toDigits 16 value) :
    IsDigit digit := by
  induction value using Nat.strongRecOn with
  | ind value inductionHypothesis =>
      by_cases single : value < 16
      · rw [Nat.toDigits_of_lt_base single, List.mem_singleton] at member
        exact ⟨value, single, member⟩
      · rw [Nat.toDigits_of_base_le (by decide) (by omega), List.mem_append,
          List.mem_singleton] at member
        rcases member with earlier | isLast
        · exact inductionHypothesis (value / 16) (by omega) earlier
        · exact ⟨value % 16, by omega, isLast⟩

/-- What an integer is written with before its digits. -/
def signOf (value : Int) : List Char :=
  if value < 0 then ['-'] else []

/-- A padded integer is its sign, zeros and its digits. -/
theorem exists_toList_padded
    (width : Nat)
    (value : Int) :
    ∃ count, (padded width value).toList =
      signOf value ++
        (List.replicate count '0' ++ Nat.toDigits 16 value.natAbs) := by
  unfold padded signOf
  split
  · next negative => exact ⟨_, by simp; rfl⟩
  · next positive => exact ⟨_, by simp; rfl⟩

/-- Behind the sign of a padded integer stand digits only. -/
private theorem isDigit_of_mem_magnitude
    {count magnitude : Nat}
    {character : Char}
    (member :
      character ∈ List.replicate count '0' ++ Nat.toDigits 16 magnitude) :
    IsDigit character := by
  rcases List.mem_append.mp member with isZero | isLater
  · exact List.eq_of_mem_replicate isZero ▸ isDigit_zero
  · exact isDigit_of_mem_toDigits isLater

/-- A padded integer holds no space. -/
theorem space_not_mem_padded
    (width : Nat)
    (value : Int) :
    ' ' ∉ (padded width value).toList := by
  obtain ⟨count, written⟩ := exists_toList_padded width value
  rw [written]
  intro member
  rcases List.mem_append.mp member with isSign | isDigit
  · unfold signOf at isSign
    split at isSign <;> simp at isSign
  · exact (isDigit_of_mem_magnitude isDigit).ne_space rfl

/-- Padded integers that look the same are the same. -/
theorem padded_injective
    (width : Nat) :
    Function.Injective (padded width) := by
  intro first second same
  obtain ⟨firstCount, firstWritten⟩ := exists_toList_padded width first
  obtain ⟨secondCount, secondWritten⟩ := exists_toList_padded width second
  have sameText :=
    (firstWritten.symm.trans (congrArg String.toList same)).trans secondWritten
  -- Equal signs can be taken off; then the digits say the magnitude.
  have sameMagnitude
      (digits : List.replicate firstCount '0' ++ Nat.toDigits 16 first.natAbs =
        List.replicate secondCount '0' ++ Nat.toDigits 16 second.natAbs) :
      first.natAbs = second.natAbs := by
    rw [← valueOf_toDigits first.natAbs, ← valueOf_zeros firstCount, digits,
      valueOf_zeros, valueOf_toDigits]
  have minusIsNoDigit
      {count magnitude : Nat}
      {rest : List Char}
      (starts : '-' :: rest =
        List.replicate count '0' ++ Nat.toDigits 16 magnitude) :
      False :=
    (isDigit_of_mem_magnitude (starts ▸ List.mem_cons_self)).ne_minus rfl
  unfold signOf at sameText
  split at sameText <;> split at sameText
  · next firstNegative secondNegative =>
      have := sameMagnitude (by simpa using sameText)
      omega
  · next firstNegative secondPositive =>
      exact (minusIsNoDigit sameText).elim
  · next firstPositive secondNegative =>
      exact (minusIsNoDigit sameText.symm).elim
  · next firstPositive secondPositive =>
      have := sameMagnitude (by simpa using sameText)
      omega

/-- Texts before the first separator are found again. -/
theorem append_separator_inj
    {separator : Char}
    {first second firstRest secondRest : List Char}
    (firstFree : separator ∉ first)
    (secondFree : separator ∉ second)
    (same :
      first ++ separator :: firstRest = second ++ separator :: secondRest) :
    first = second := by
  have front
      {text rest : List Char}
      (free : separator ∉ text) :
      (text ++ separator :: rest).takeWhile (· ≠ separator) = text := by
    rw [List.takeWhile_append_of_pos]
    · simp
    · intro character member
      simpa using ne_of_mem_of_not_mem member free
  exact
    ((front firstFree).symm.trans (congrArg _ same)).trans (front secondFree)

/-- A padded integer is found again in any text in which a space follows it. -/
theorem padded_space_inj
    {width : Nat}
    {first second : Int}
    {firstRest secondRest : List Char}
    (same : (padded width first).toList ++ ' ' :: firstRest =
      (padded width second).toList ++ ' ' :: secondRest) :
    first = second :=
  padded_injective width (String.toList_inj.mp
    (append_separator_inj (space_not_mem_padded width first)
      (space_not_mem_padded width second) same))

/-- The two digits of a byte say which byte it is. -/
theorem byte_injective :
    Function.Injective byte := by
  intro first second same
  have firstBelow := first.toNat_lt
  have secondBelow := second.toNat_lt
  simp only [byte, String.ofList_inj, List.cons.injEq, and_true] at same
  have high := congrArg digitValue same.1
  have low := congrArg digitValue same.2
  rw [digitValue_digitChar _ (by omega),
    digitValue_digitChar _ (by omega)] at high low
  exact UInt8.toNat_inj.mp (by omega)

/-- Texts with separators between them, of known lengths, are found again. -/
theorem intercalate_append_inj
    {separator : List Char}
    {first second : List (List Char)}
    {firstRest secondRest : List Char}
    (lengths : first.map List.length = second.map List.length)
    (same : separator.intercalate first ++ firstRest =
      separator.intercalate second ++ secondRest) :
    first = second ∧ firstRest = secondRest := by
  induction first generalizing second with
  | nil =>
      have secondIsNil : second = [] := by simpa using lengths.symm
      subst secondIsNil
      exact ⟨rfl, by simpa using same⟩
  | cons head tail inductionHypothesis =>
      cases second with
      | nil => simp at lengths
      | cons otherHead otherTail =>
          obtain ⟨headLength, tailLengths⟩ := List.cons.inj lengths
          cases tail with
          | nil =>
              have otherIsNil : otherTail = [] := by
                simpa using tailLengths.symm
              subst otherIsNil
              simp only [List.intercalate_singleton] at same
              obtain ⟨sameHead, sameRest⟩ := List.append_inj same headLength
              exact ⟨by rw [sameHead], sameRest⟩
          | cons next later =>
              cases otherTail with
              | nil => simp at tailLengths
              | cons otherNext otherLater =>
                  simp only [List.intercalate_cons_cons,
                    List.append_assoc] at same
                  obtain ⟨sameHead, sameTail⟩ := List.append_inj same headLength
                  obtain ⟨sameLater, sameRest⟩ :=
                    inductionHypothesis tailLengths
                      (List.append_cancel_left sameTail)
                  exact ⟨by rw [sameHead, sameLater], sameRest⟩

theorem length_intercalate
    (separator : List Char)
    (texts : List (List Char)) :
    (separator.intercalate texts).length =
      (texts.map List.length).sum + (texts.length - 1) * separator.length := by
  induction texts with
  | nil => simp
  | cons head tail inductionHypothesis =>
      cases tail with
      | nil => simp
      | cons next later =>
          rw [List.intercalate_cons_cons, List.length_append,
            List.length_append, inductionHypothesis]
          simp only [List.map_cons, List.sum_cons, List.length_cons,
            Nat.add_sub_cancel]
          ring

private theorem toList_bytes
    (separator : String)
    (data : Bytes) :
    (bytes separator data).toList =
      separator.toList.intercalate
        (data.map fun byte => (Hexadecimal.byte byte).toList) := by
  rw [bytes, String.toList_intercalate, List.map_map]
  rfl

private theorem lengths_of_bytes
    (data : Bytes) :
    (data.map fun byte => (Hexadecimal.byte byte).toList).map List.length =
      List.replicate data.length 2 := by
  rw [List.map_map, ← List.map_const']
  exact List.map_congr_left fun byte _ => by simp [Hexadecimal.byte]

/-- How much room bytes take depends on their number only. -/
theorem length_bytes
    (separator : String)
    (data : Bytes) :
    (bytes separator data).length =
      2 * data.length + (data.length - 1) * separator.length := by
  rw [← String.length_toList, toList_bytes, length_intercalate,
    lengths_of_bytes, List.sum_replicate_nat, List.length_map,
    String.length_toList, Nat.mul_comm]

/-- A byte string of known length is found again from its digits. -/
theorem eq_of_bytes_eq
    {separator : String}
    {first second : Bytes}
    (lengths : first.length = second.length)
    (same : bytes separator first = bytes separator second) :
    first = second := by
  have sameText := congrArg String.toList same
  rw [toList_bytes, toList_bytes] at sameText
  have lengthsOfTexts :
      (first.map fun value => (byte value).toList).map List.length =
        (second.map fun value => (byte value).toList).map List.length := by
    rw [lengths_of_bytes, lengths_of_bytes, lengths]
  have samePieces :=
    (intercalate_append_inj lengthsOfTexts (congrArg (· ++ []) sameText)).1
  refine List.map_injective_iff.mpr ?_ samePieces
  intro _ _ sameByte
  exact byte_injective (String.toList_inj.mp sameByte)

end VideoCore.Hexadecimal
