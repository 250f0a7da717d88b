import VideoCore.Number.Binary
import VideoCore.Register.Basic
import VideoCore.Text.Integer

namespace VideoCore

/-!
# Values

What the fields of a record hold and what a listing shows.  Integers come in
two kinds that differ only in how they are shown.
-/

/-- The value of a field. -/
inductive Value
  | absent
  | truth (value : Bool)
  /-- An integer shown in hexadecimal. -/
  | integer (value : Int)
  /-- An integer shown in decimal. -/
  | decimal (value : Int)
  /-- A floating-point number, by the bits of its eight-byte format. -/
  | real (bits : UInt64)
  | text (content : String)
  | bytes (content : Bytes)
  | list (items : List Value)
  | tuple (items : List Value)
  | register (register : Register)

namespace Value

/-- The integer that a value is, if it is one. -/
def integer? : Value → Option Int
  | .truth value => some value.toInt
  | .integer value => some value
  | .decimal value => some value
  | _ => none

/-- Convert a value to an integer: floats lose their fraction, text is read. -/
def toInteger : Value → Except Fault Int
  | .truth value => .ok value.toInt
  | .integer value => .ok value
  | .decimal value => .ok value
  | .register held => .ok held.value
  | .real bits =>
      match FloatFormat.double.decode bits.toNat with
      | .undefined .. => .error .badValue
      | meaning => meaning.truncate?.elim (.error .overflow) .ok
  | .text content =>
      (integerOfChars? content.toList).elim (.error .badValue) .ok
  | .bytes content => (integerOfBytes? content).elim (.error .badValue) .ok
  | .absent => .error .wrongKind
  | .list _ => .error .wrongKind
  | .tuple _ => .error .wrongKind

/-- The elements of a value that has some. -/
def items? : Value → Option (List Value)
  | .list items => some items
  | .tuple items => some items
  | .bytes content => some (content.map fun byte => .integer byte.toNat)
  | .text content =>
      some (content.toList.map fun char => .text (String.singleton char))
  | _ => none

/--
The bits of the eight-byte number that a value is or converts to exactly or by
rounding.
-/
def realBits? : Value → Option UInt64
  | .real bits => some bits
  | value => value.integer?.bind doubleOfInt?

/-- Whether a value is exactly the number `expected`. -/
def isNumber (expected : Int) : Value → Bool
  | .real bits => (FloatFormat.double.decode bits.toNat).isExactly expected
  | value => value.integer? == some expected

/-- Whether a value is a text. -/
def isText (expected : String) : Value → Bool
  | .text content => content == expected
  | _ => false

/--
Whether a text is an element of a value, or a part of it if the value is a text
itself.
-/
def holdsText (text : String) : Value → Except Fault Bool
  | .text content => .ok (text = "" ∨ 1 < (content.splitOn text).length)
  | .list items => .ok (items.any (isText text))
  | .tuple items => .ok (items.any (isText text))
  | _ => .error .wrongKind

mutual

/--
Whether a value can be an element of a set: lists cannot, nor can what holds
one.
-/
def isSettled : Value → Bool
  | .list _ => false
  | .tuple items => areSettled items
  | _ => true

/-- Whether all of some values can be elements of a set. -/
def areSettled : List Value → Bool
  | [] => true
  | value :: rest => value.isSettled && areSettled rest

end

end Value

/--
The number that a value sets some bits to: one bit takes integers, more take
what converts.
-/
def FieldShape.rawOf
    (shape : FieldShape)
    (value : Value) : Except Fault Int :=
  match shape with
  | .bit _ => value.integer?.elim (.error .wrongKind) .ok
  | .range .. => value.toInteger

end VideoCore
