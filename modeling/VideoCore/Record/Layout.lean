import VideoCore.Record.Encoding
import VideoCore.Record.Fields

namespace VideoCore

/-!
# Layouts of records

A layout lists the parts of a record in the order in which they are stored.
Reading gathers the named values; writing looks them up and puts their bytes
in the same order.  The offset of a part is the total size of the parts before
it, as long as these have fixed sizes.
-/

/-- A part of a record. -/
inductive Part
  /-- A byte that always has the same value. -/
  | constant (name : String) (value : UInt8)
  /-- A stored field; writing falls back on the default, if there is one. -/
  | field (name : String) (encoding : Encoding) (fallback : Option Value)
  /-- As many bytes as an earlier field says. -/
  | content (name : String) (lengthField : String)
  /-- A value that is computed from the fields before it and takes no bytes. -/
  | computed (name : String) (rule : Fields → Except Fault Value)
  /-- Bytes without a meaning. -/
  | padding (size : Nat)

/-- The parts of a record, in order. -/
abbrev Layout := List Part

namespace Part

/-- The name of a part; padding has none. -/
def name? : Part → Option String
  | .constant name _ => some name
  | .field name _ _ => some name
  | .content name _ => some name
  | .computed name _ => some name
  | .padding _ => none

/-- The number of bytes, if it is fixed. -/
def size? : Part → Option Nat
  | .constant _ _ => some 1
  | .field _ encoding _ => some encoding.size
  | .content _ _ => none
  | .computed _ _ => some 0
  | .padding size => some size

/-- The length that a field holds. -/
def lengthIn
    (fields : Fields)
    (lengthField : String) : Except Fault Int :=
  match fields.get? lengthField with
  | none => .error .missingField
  | some value => value.integer?.elim (.error .wrongKind) .ok

/-- Read the value of a part, given the fields before it. -/
def read
    (fields : Fields)
    (part : Part)
    (bytes : Bytes) : Except Fault (Option Value × Bytes) :=
  match part with
  | .constant _ value => do
      let (stored, rest) ← takeBytes 1 bytes
      if stored = [value] then
        .ok (some (.integer value.toNat), rest)
      else
        .error .wrongConstant
  | .field _ encoding _ => do
      let (value, rest) ← encoding.read bytes
      .ok (some value, rest)
  | .content _ lengthField => do
      let length ← lengthIn fields lengthField
      if length < 0 then
        .error .shortData
      else
        let (stored, rest) ← takeBytes length.toNat bytes
        .ok (some (.bytes stored), rest)
  | .computed _ rule => do
      let value ← rule fields
      .ok (some value, bytes)
  | .padding size => do
      let (_, rest) ← takeBytes size bytes
      .ok (none, rest)

/--
The bytes of a run whose length is given: bytes, or the digits of a number.
-/
def contentBytes
    (length : Int)
    (value : Value) : Except Fault Bytes :=
  match value, value.integer? with
  | .bytes stored, _ =>
      if (stored.length : Int) = length then .ok stored else .error .shortData
  | _, some number =>
      if 0 < length ∧ 0 ≤ number ∧ number < 256 ^ length.toNat then
        .ok (Bytes.ofWord length.toNat number.toNat).reverse
      else
        .error .badValue
  | _, none => .error .notBytes

/-- The bytes of a part, and the value that later parts see under its name. -/
def write
    (fields : Fields)
    (part : Part) : Except Fault (Bytes × Option Value) :=
  match part with
  | .constant name value =>
      match fields.get? name with
      | none | some .absent => .ok ([value], some (.integer value.toNat))
      | some given =>
          if given.isNumber value.toNat then
            .ok ([value], some (.integer value.toNat))
          else
            .error .wrongConstant
  | .field name encoding fallback =>
      match fields.get? name, fallback with
      | none, none => .error .missingField
      | none, some value | some .absent, some value => do
          let bytes ← encoding.write value
          .ok (bytes, some value)
      | some value, _ => do
          let bytes ← encoding.write value
          .ok (bytes, some value)
  | .content name lengthField =>
      match fields.get? name with
      | none => .error .missingField
      | some value => do
          let length ← lengthIn fields lengthField
          let bytes ← contentBytes length value
          .ok (bytes, some value)
  | .computed _ rule => do
      let value ← rule fields
      .ok ([], some value)
  | .padding size => .ok (List.replicate size 0, none)

/-- The fields after a part has given its value. -/
def record
    (part : Part)
    (fields : Fields)
    (value? : Option Value) : Fields :=
  match part.name?, value? with
  | some name, some value => fields.set name value
  | _, _ => fields

end Part

namespace Layout

/-- The size of a record, if it is fixed. -/
def size? : Layout → Option Nat
  | [] => some 0
  | part :: rest =>
      match part.size?, size? rest with
      | some first, some others => some (first + others)
      | _, _ => none

/--
The names with an offset: those up to the first part without a fixed size. 
Later parts come first, since of the parts with one name the last one gives the
offset.
-/
def offsetsFrom (start : Nat) : Layout → List (String × Nat)
  | [] => []
  | part :: rest =>
      let here := part.name?.toList.map fun name => (name, start)
      match part.size? with
      | some size => offsetsFrom (start + size) rest ++ here
      | none => here

/-- The offsets of the named parts. -/
def offsets (layout : Layout) : List (String × Nat) :=
  layout.offsetsFrom 0

/-- Read all parts, given the fields before them. -/
def readFrom (fields : Fields) : Layout → Bytes → Except Fault (Fields × Bytes)
  | [], bytes => .ok (fields, bytes)
  | part :: rest, bytes => do
      let (value?, bytes) ← part.read fields bytes
      readFrom (part.record fields value?) rest bytes

/-- Read a record off the front. -/
def read
    (layout : Layout)
    (bytes : Bytes) : Except Fault (Fields × Bytes) :=
  layout.readFrom [] bytes

/-- The bytes of all parts; later parts see the values of earlier ones. -/
def write (fields : Fields) : Layout → Except Fault Bytes
  | [] => .ok []
  | part :: rest => do
      let (bytes, value?) ← part.write fields
      let others ← write (part.record fields value?) rest
      .ok (bytes ++ others)

end Layout

end VideoCore
