import VideoCore.Bits
import VideoCore.Text.Blank

namespace VideoCore

/-!
# Integers as text

An integer is an optional sign and decimal digits, with blanks around it.
Single underscores may stand between digits.  The separators of files, groups,
records and units are no blanks here.
-/

/-- The longest run of digits that is read or written. -/
def longestNumber : Nat :=
  4300

/-- The least number that takes a longer run of digits. -/
def leastUnwritten : Nat :=
  10 ^ longestNumber

/-- Write an integer in decimal, unless that takes too many digits. -/
def decimalText? (value : Int) : Option String :=
  if value.natAbs < leastUnwritten then some (toString value) else none

/-- The values of digits between which single underscores may stand. -/
def digitValues? : List Char → Option (List Nat)
  | [] => none
  | [digit] => (digitValue? digit).map ([·])
  | digit :: '_' :: rest =>
      match digitValue? digit, digitValues? rest with
      | some value, some values => some (value :: values)
      | _, _ => none
  | digit :: next :: rest =>
      match digitValue? digit, digitValues? (next :: rest) with
      | some value, some values => some (value :: values)
      | _, _ => none

/-- The number that decimal digits stand for, most significant first. -/
def numberOfDigits (values : List Nat) : Nat :=
  values.foldl (fun total value => 10 * total + value) 0

/-- Read an unsigned integer. -/
def unsignedOfChars? (chars : List Char) : Option Nat :=
  match digitValues? chars with
  | some values =>
      if values.length ≤ longestNumber then
        some (numberOfDigits values)
      else
        none
  | none => none

/-- Whether a character may stand around an integer. -/
def isIntegerBlank (char : Char) : Bool :=
  isBlank char && !(0x1c ≤ char.toNat && char.toNat ≤ 0x1f)

/-- Read an integer. -/
def integerOfChars? (chars : List Char) : Option Int :=
  match trimBlanks isIntegerBlank chars with
  | '-' :: rest =>
      (unsignedOfChars? rest).map fun magnitude => -(magnitude : Int)
  | '+' :: rest =>
      (unsignedOfChars? rest).map fun magnitude => (magnitude : Int)
  | rest =>
      (unsignedOfChars? rest).map fun magnitude => (magnitude : Int)

/-- Read an integer that is written in ASCII. -/
def integerOfBytes? (content : Bytes) : Option Int :=
  if content.all (· < 0x80) then
    integerOfChars? (content.map fun byte => Char.ofNat byte.toNat)
  else
    none

end VideoCore
