import VideoCore.Text.Hexadecimal
import VideoCore.Text.Printable

namespace VideoCore.Quoted

/-!
# Quoted text

Text inside a tuple or a list is written between quotes: single ones, unless
the text holds a single quote and no double one.  The quote, the backslash and
what cannot be printed are escaped.
-/

/-- The quote that a text is written between. -/
def quoteFor (chars : List Char) : Char :=
  if chars.contains '\'' && !chars.contains '"' then '"' else '\''

/--
A backslash, a letter and hexadecimal digits filled with zeros to `width`.
-/
def numericEscape
    (letter : String)
    (width code : Nat) : String :=
  "\\" ++ letter ++ Hexadecimal.padded width code

/-- The escapes that quoted text and quoted bytes share. -/
def commonEscape? (quote char : Char) : Option String :=
  if char = quote ∨ char = '\\' then
    some ("\\" ++ String.singleton char)
  else if char = '\n' then
    some "\\n"
  else if char = '\r' then
    some "\\r"
  else if char = '\t' then
    some "\\t"
  else
    none

/-- One character between quotes. -/
def escape (quote char : Char) : String :=
  match commonEscape? quote char with
  | some text => text
  | none =>
      if isPrintable char then
        String.singleton char
      else if char.toNat < 0x100 then
        numericEscape "x" 2 char.toNat
      else if char.toNat < 0x10000 then
        numericEscape "u" 4 char.toNat
      else
        numericEscape "U" 8 char.toNat

/-- Text between quotes. -/
def text (content : String) : String :=
  let chars := content.toList
  let quote := quoteFor chars
  String.singleton quote ++ String.join (chars.map (escape quote)) ++
    String.singleton quote

/-- One byte between quotes. -/
def escapeByte
    (quote : Char)
    (byte : UInt8) : String :=
  let char := Char.ofNat byte.toNat
  match commonEscape? quote char with
  | some text => text
  | none =>
      if 0x20 ≤ byte && byte < 0x7f then
        String.singleton char
      else
        numericEscape "x" 2 byte.toNat

/-- Bytes between quotes, with a mark in front. -/
def bytes (content : Bytes) : String :=
  let quote := quoteFor (content.map fun byte => Char.ofNat byte.toNat)
  "b" ++ String.singleton quote ++
    String.join (content.map (escapeByte quote)) ++ String.singleton quote

end VideoCore.Quoted
