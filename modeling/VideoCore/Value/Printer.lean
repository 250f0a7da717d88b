import VideoCore.Number.Decimal
import VideoCore.Register.Printer
import VideoCore.Text.Quoted
import VideoCore.Value.Basic

namespace VideoCore.Value

/-!
# Text of values

A value has three texts: the one a listing shows, the plain one, and the
literal one that it has inside a tuple.
-/

/-- The text of a truth value. -/
def truthText (value : Bool) : String :=
  if value then "True" else "False"

/-- The decimal digits of an integer, unless they are too many. -/
def decimalText (value : Int) : Except Fault String :=
  (decimalText? value).elim (.error .badValue) .ok

/-- Items between brackets. -/
def bracketed (texts : List String) : String :=
  "[" ++ ", ".intercalate texts ++ "]"

/-- Items between parentheses; a single one is followed by a comma. -/
def parenthesized (texts : List String) : String :=
  match texts with
  | [single] => "(" ++ single ++ ",)"
  | _ => "(" ++ ", ".intercalate texts ++ ")"

mutual

/--
The text inside a tuple: strings are quoted, registers written with their class.
-/
def literal : Value → Except Fault String
  | .absent => .ok "None"
  | .truth value => .ok (truthText value)
  | .integer value => decimalText value
  | .decimal value => decimalText value
  | .real bits => .ok (Decimal.shortest bits)
  | .text content => .ok (Quoted.text content)
  | .bytes content => .ok (Quoted.bytes content)
  | .list items => do
      let texts ← literals items
      .ok (bracketed texts)
  | .tuple items => do
      let texts ← literals items
      .ok (parenthesized texts)
  | .register held => held.literal

/-- The literal texts of some values. -/
def literals : List Value → Except Fault (List String)
  | [] => .ok []
  | value :: rest => do
      let shown ← literal value
      let texts ← literals rest
      .ok (shown :: texts)

end

/--
The plain text: strings as they are, registers described, all else literal.
-/
def plain : Value → Except Fault String
  | .text content => .ok content
  | .register held => held.describe
  | value => value.literal

mutual

/--
The text a listing shows: integers in hexadecimal unless they are decimal,
floats with six places, bytes in hexadecimal or, if all are zero, by number.
-/
def display : Value → Except Fault String
  | .bytes content =>
      if content.isZero then
        .ok ("bytes(" ++ Hexadecimal.marked content.length ++ ")")
      else
        .ok (Hexadecimal.bytes " " content)
  | .decimal value => decimalText value
  | .register held => held.describe
  | .truth value => .ok (truthText value)
  | .integer value => .ok (Hexadecimal.marked value)
  | .real bits => .ok (Decimal.fixed 6 bits)
  | .list items => do
      let texts ← displays items
      .ok (bracketed texts)
  | .tuple items => do
      let texts ← literals items
      .ok (parenthesized texts)
  | .text content => .ok content
  | .absent => .ok "None"

/-- The texts a listing shows for some values. -/
def displays : List Value → Except Fault (List String)
  | [] => .ok []
  | value :: rest => do
      let shown ← display value
      let texts ← displays rest
      .ok (shown :: texts)

end

/--
The hexadecimal digits of an integer, filled with zeros; other values have none.
-/
def hexadecimal
    (width : Nat)
    (value : Value) : Except Fault String :=
  match value with
  | .text _ => .error .badValue
  | .real _ => .error .badValue
  | _ =>
      match value.integer? with
      | some number => .ok (Hexadecimal.padded width number)
      | none => .error .wrongKind

end VideoCore.Value
