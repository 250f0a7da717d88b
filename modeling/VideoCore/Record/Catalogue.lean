import VideoCore.Compressed
import VideoCore.Shader.Record
import VideoCore.Snapshot.State

namespace VideoCore

/-!
# All records

Every known type of record: packets, forms of compressed index data, shader
records, and the records of the snapshot container.  The families that they
belong to are known by name, too, but have no layout.  A name can also be that
of a register class, which is no type of record.
-/

/-- What the name of a type of record can stand for. -/
inductive RecordKind
  | packet (type : PacketType)
  | form (encoding : IndexForm)
  | plain (type : RecordType)
  /-- What several types of record have in common. -/
  | family (name : String)

namespace RecordKind

/-- The named layout of the records, if there is one. -/
def type? : RecordKind → Option RecordType
  | .packet type => some type.record
  | .form encoding => some encoding.record
  | .plain type => some type
  | .family _ => none

/-- The name. -/
def name : RecordKind → String
  | .packet type => type.record.name
  | .form encoding => encoding.record.name
  | .plain type => type.name
  | .family name => name

/-- The size of the records. -/
def size (kind : RecordKind) : Except Fault Nat :=
  match kind.type? with
  | some type => type.size
  | none => .error .noAttribute

/-- The offset of a field; a family has no fields. -/
def offset
    (kind : RecordKind)
    (field : String) : Except Fault Nat :=
  match kind.type? with
  | some type => type.offset field
  | none => .error .missingField

/-- Read a record; nothing is a record of a family and of no type in it. -/
def read
    (kind : RecordKind)
    (bytes : Bytes)
    (addr : Option Int) : Except Fault Record :=
  match kind.type? with
  | some type => type.read bytes addr
  | none => .error (.unreadableRecord kind.name)

/-- The bytes of a record with some fields. -/
def write
    (kind : RecordKind)
    (fields : Fields) : Except Fault Bytes :=
  match kind.type? with
  | some type => type.layout.write fields
  | none => .error .noAttribute

/--
The address that a record leads to when it is found at an address; only branches
do.
-/
def targetOf
    (kind : RecordKind)
    (record : Record)
    (addr : Option Int) : Except Fault Int :=
  match kind with
  | .form .branch => IndexForm.targetOf record addr
  | _ => .error .noAttribute

/-- Every known kind. -/
def all : List RecordKind :=
  (PacketType.unknown :: PacketType.all).map .packet ++
    IndexForm.all.map .form ++
    [.plain Shader.recordType, .plain Shader.attributeType, .plain hangState,
      .plain bufferRecord] ++
    [.family "ConstructClass", .family "Packet", .family "CompressedForm"]

/--
What a name stands for; the name of a register class stands for nothing with a
layout.
-/
def find (name : String) : Except Fault RecordKind :=
  match all.find? fun kind => kind.name == name with
  | some kind => .ok kind
  | none =>
      .error
        (if RegisterClass.all.any fun type => type.name == name then
          .noAttribute
        else
          .missingField)

end RecordKind

end VideoCore
