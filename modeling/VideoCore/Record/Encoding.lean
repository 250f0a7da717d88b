import VideoCore.Value.Basic

namespace VideoCore

/-!
# Encodings of single fields

How the value of one field is stored in bytes.  All words are little-endian.
Reading takes the bytes of the field off the front; writing refuses a value
that does not fit.
-/

/-- How a stored field is encoded. -/
inductive Encoding
  /-- An unsigned word, shown in hexadecimal. -/
  | word (size : Nat)
  /-- An unsigned word, shown in decimal. -/
  | count (size : Nat)
  /-- A word in two's complement. -/
  | signedWord (size : Nat)
  /-- A four-byte floating-point number. -/
  | single
  /-- A bitfield register, in the bytes of its class. -/
  | register (type : RegisterClass)
  /-- A fixed number of elements. -/
  | array (length : Nat) (element : Encoding)
deriving DecidableEq

/-- Take `size` bytes off the front. -/
def takeBytes
    (size : Nat)
    (bytes : Bytes) : Except Fault (Bytes × Bytes) :=
  if size ≤ bytes.length then
    .ok (bytes.take size, bytes.drop size)
  else
    .error .shortData

/--
The fault of a value that does not fit a word; words of three bytes have their
own.
-/
def misfitOf (size : Nat) : Fault :=
  if size = 3 then .integerMisfit else .misfit

/-- The bytes of an unsigned word. -/
def writeWord
    (size : Nat)
    (value : Int) : Except Fault Bytes :=
  if 0 ≤ value ∧ value < 256 ^ size then
    .ok (Bytes.ofWord size value.toNat)
  else
    .error (misfitOf size)

/-- The bytes of a word in two's complement. -/
def writeSignedWord
    (size : Nat)
    (value : Int) : Except Fault Bytes :=
  if -(256 ^ size) ≤ 2 * value ∧ 2 * value < 256 ^ size then
    .ok (Bytes.ofWord size (value % 256 ^ size).toNat)
  else
    .error (misfitOf size)

namespace Encoding

/-- The number of bytes of a field. -/
def size : Encoding → Nat
  | .word size => size
  | .count size => size
  | .signedWord size => size
  | .single => 4
  | .register type => type.byteSize?.toOption.getD 0
  | .array length element => length * element.size

/-- Read `length` elements, one after the other. -/
def readMany (readOne : Bytes → Except Fault (Value × Bytes)) :
    Nat → Bytes → Except Fault (List Value × Bytes)
  | 0, bytes => .ok ([], bytes)
  | length + 1, bytes => do
      let (value, rest) ← readOne bytes
      let (values, rest) ← readMany readOne length rest
      .ok (value :: values, rest)

/-- Read a field off the front. -/
def read : Encoding → Bytes → Except Fault (Value × Bytes)
  | .word size, bytes => do
      let (stored, rest) ← takeBytes size bytes
      .ok (.integer stored.toWord, rest)
  | .count size, bytes => do
      let (stored, rest) ← takeBytes size bytes
      .ok (.decimal stored.toWord, rest)
  | .signedWord size, bytes => do
      let (stored, rest) ← takeBytes size bytes
      .ok (.integer (signExtend (8 * size) stored.toWord), rest)
  | .single, bytes => do
      let (stored, rest) ← takeBytes 4 bytes
      .ok (.real (widen stored.toWord), rest)
  | .register type, bytes => do
      let size ← type.byteSize?
      let (stored, rest) ← takeBytes size bytes
      let register ← Register.ofValue type stored.toWord
      .ok (.register register, rest)
  | .array length element, bytes => do
      let (values, rest) ← readMany element.read length bytes
      .ok (.list values, rest)

/-- Write some elements, one after the other. -/
def writeMany
    (writeOne : Value → Except Fault Bytes) : List Value → Except Fault Bytes
  | [] => .ok []
  | value :: rest => do
      let first ← writeOne value
      let others ← writeMany writeOne rest
      .ok (first ++ others)

/-- The bytes of a field. -/
def write : Encoding → Value → Except Fault Bytes
  | .word size, value =>
      value.integer?.elim (.error (misfitOf size)) (writeWord size)
  | .count size, value =>
      value.integer?.elim (.error (misfitOf size)) (writeWord size)
  | .signedWord size, value =>
      value.integer?.elim (.error (misfitOf size)) (writeSignedWord size)
  | .single, value =>
      match value.realBits?.bind narrow? with
      | some bits => .ok (Bytes.ofWord 4 bits)
      | none => .error .misfit
  | .register type, value => do
      let size ← type.byteSize?
      let raw ← value.toInteger
      writeWord size raw
  | .array length element, value =>
      match value.items? with
      | none => .error .wrongKind
      | some items =>
          if items.length = length then
            writeMany element.write items
          else
            .error .wrongCount

end Encoding

end VideoCore
