import VideoCore.Record.Layout

namespace VideoCore

/-!
# Records

A record is what a layout reads at an address.  Fields with hidden names have
an offset but are not kept.  A listing shows the fields in the order of their
offsets, and those without one at the end.
-/

/-- A named layout. -/
structure RecordType where
  name : String
  layout : Layout

/-- A record that has been read, or is about to be written. -/
structure Record where
  type : RecordType
  /-- The address the record was found at. -/
  addr : Option Int
  fields : Fields

/-- Whether a field is kept after reading. -/
def isKept (name : String) : Bool :=
  !isHidden name

/--
The rank of a field without an offset, behind everything in four gigabytes.
-/
def lastRank : Nat :=
  2 ^ 32

namespace RecordType

/-- The size of the records. -/
def size (type : RecordType) : Except Fault Nat :=
  type.layout.size?.elim (.error .unsized) .ok

/-- The size of records that have a fixed one, zero for the others. -/
def fixedSize (type : RecordType) : Nat :=
  type.layout.size?.getD 0

/-- The offset of a field. -/
def offset
    (type : RecordType)
    (name : String) : Except Fault Nat :=
  (type.layout.offsets.lookup name).elim (.error .missingField) .ok

/-- The rank of a field in a listing, which is its offset if it has one. -/
def rank
    (type : RecordType)
    (name : String) : Nat :=
  (type.layout.offsets.lookup name).getD lastRank

/-- Read a record; what its own rules refuse makes it unreadable. -/
def read
    (type : RecordType)
    (bytes : Bytes)
    (addr : Option Int) : Except Fault Record :=
  match type.layout.read bytes with
  | .ok (fields, _) =>
      .ok ⟨type, addr, fields.filter fun (name, _) => isKept name⟩
  | .error fault =>
      if fault.isEncoding then
        .error fault
      else
        .error (.unreadableRecord type.name)

end RecordType

namespace Record

/-- The bytes of the record. -/
def write (record : Record) : Except Fault Bytes :=
  record.type.layout.write record.fields

/-- The address of a field. -/
def addressOf
    (record : Record)
    (name : String) : Except Fault Int := do
  let offset ← record.type.offset name
  match record.addr with
  | some addr => .ok (addr + offset)
  | none => .error .wrongKind

/-- Offset, name and value of every field, by rank. -/
def items (record : Record) : List (Option Nat × String × Value) :=
  (record.fields.sortByRank record.type.rank).map fun (name, value) =>
    (record.type.layout.offsets.lookup name, name, value)

/-- Set some fields. -/
def update
    (record : Record)
    (news : Fields) : Record :=
  { record with fields := record.fields.update news }

end Record

end VideoCore
