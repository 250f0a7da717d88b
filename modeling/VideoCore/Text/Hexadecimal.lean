import VideoCore.Bytes

namespace VideoCore.Hexadecimal

/-!
# Hexadecimal text

Numbers are written with lowercase digits.  A negative number is a minus sign
and the digits of its magnitude; padding counts the sign and stands after it.
-/

/-- The digits of a number, without leading zeros. -/
def digits (value : Nat) : String :=
  String.ofList (Nat.toDigits 16 value)

/-- The digits of an integer after its sign. -/
def signed (value : Int) : String :=
  if value < 0 then "-" ++ digits value.natAbs else digits value.natAbs

/-- A sign, the mark `0x` and the digits. -/
def marked (value : Int) : String :=
  if value < 0 then
    "-0x" ++ digits value.natAbs
  else
    "0x" ++ digits value.natAbs

/--
A sign and the digits, filled with zeros between them to `width` characters.
-/
def padded
    (width : Nat)
    (value : Int) : String :=
  let text := Nat.toDigits 16 value.natAbs
  if value < 0 then
    "-" ++ String.ofList (List.replicate (width - 1 - text.length) '0' ++ text)
  else
    String.ofList (List.replicate (width - text.length) '0' ++ text)

/-- The two digits of a byte. -/
def byte (value : UInt8) : String :=
  String.ofList
    [Nat.digitChar (value.toNat / 16), Nat.digitChar (value.toNat % 16)]

/-- The bytes in two digits each, with a separator between them. -/
def bytes
    (separator : String)
    (data : Bytes) : String :=
  separator.intercalate (data.map byte)

end VideoCore.Hexadecimal
