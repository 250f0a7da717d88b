import VideoCore.Memory.Basic
import VideoCore.Snapshot.State

namespace VideoCore

/-!
# The snapshot container

A version word, the register state, one record per buffer, and the contents of
all buffers one after the other.  Bytes after the last buffer are counted but
not kept.
-/

/-- The container version that is read and written. -/
def snapshotVersion : Nat :=
  0

/-- A captured hang. -/
structure Snapshot where
  version : Nat
  state : Fields
  buffers : Memory
  /-- The number of bytes after the contents of the last buffer. -/
  trailing : Nat

/-- What the buffer table says about one buffer. -/
structure BufferEntry where
  handle : Nat
  paddr : Nat
  size : Nat

/-- A state that is handed in to be written. -/
inductive StateSource
  /-- Values by name. -/
  | values (given : Fields)
  /-- A record of the head; what it holds under hidden names is not written. -/
  | record (held : Fields)

/-- The fields that a state is written from. -/
def StateSource.fields : StateSource → Fields
  | .values given => given
  | .record held => held.filter fun (name, _) => isKept name

namespace Snapshot

/--
Read a record of the container off the front; `offset` is its place in the
container.
-/
def readRecord
    (type : RecordType)
    (record : ContainerRecord)
    (offset : Nat)
    (input : Bytes) : Except Fault (Fields × Bytes) :=
  let stored := input.take type.fixedSize
  if stored.length < type.fixedSize then
    .error (.malformedSnapshot
      (.truncatedRecord record offset type.fixedSize stored.length))
  else do
    let read ← type.read stored (some offset)
    .ok (read.fields, input.drop type.fixedSize)

/--
Read `count` entries of the buffer table, the first of which has the given index
and offset.
-/
def readTable :
    (count index offset : Nat) →
    Bytes →
    Except Fault (List BufferEntry × Bytes)
  | 0, _, _, input => .ok ([], input)
  | count + 1, index, offset, input => do
      let (fields, rest) ← readRecord bufferRecord (.buffer index) offset input
      let entry : BufferEntry :=
        { handle := (fields.integer "handle").toNat
          paddr := (fields.integer "paddr").toNat
          size := (fields.integer "size").toNat }
      let (entries, rest) ←
        readTable count (index + 1) (offset + bufferRecord.fixedSize) rest
      .ok (entry :: entries, rest)

/--
Read the contents of the buffers of a table, the first of which has the given
index.
-/
def readContents
    (index : Nat) : List BufferEntry → Bytes → Except Fault (Memory × Bytes)
  | [], input => .ok ([], input)
  | entry :: entries, input =>
      let (stored, after) := input.gather entry.size #[]
      if stored.size < entry.size then
        .error (.malformedSnapshot
          (.truncatedContents index entry.handle entry.size stored.size))
      else do
        let buffer : Buffer :=
          ⟨entry.handle, entry.paddr, stored, some index⟩
        let (buffers, rest) ← readContents (index + 1) entries after
        .ok (buffer :: buffers, rest)

/-- Read a container. -/
def decode (input : Bytes) : Except Fault Snapshot :=
  if (input.take 4).length < 4 then
    .error (.malformedSnapshot .tooShort)
  else
    let version := Bytes.toWord (input.take 4)
    if version ≠ snapshotVersion then
      .error (.wrongVersion version)
    else do
      let (state, rest) ← readRecord hangState .header 4 (input.drop 4)
      let (entries, rest) ←
        readTable (state.integer "bo_count").toNat 0 (4 + hangState.fixedSize)
          rest
      let (buffers, rest) ← readContents 0 entries rest
      .ok ⟨version, state, buffers, rest.length⟩

/-- The record of a buffer. -/
def bufferFields (buffer : Buffer) : Fields :=
  [("handle", .integer buffer.handle), ("paddr", .integer buffer.paddr),
    ("size", .integer buffer.size), ("pad", .integer 0)]

/-- The bytes of the buffer table. -/
def writeTable : Memory → Except Fault Bytes
  | [] => .ok []
  | buffer :: rest => do
      let entry ← bufferRecord.layout.write (bufferFields buffer)
      let others ← writeTable rest
      .ok (entry ++ others)

/-- The contents of some buffers, one after the other. -/
def writeContents : Memory → Bytes
  | [] => []
  | buffer :: rest => buffer.contents.toListAppend (writeContents rest)

/--
The name that no state can have a value for, since it stands for the state
itself.
-/
def occupiedName : String :=
  "self"

/--
Write a container; fields missing from the state are zero, and its buffer count
is replaced.
-/
def encode
    (state : Fields)
    (buffers : Memory) : Except Fault Bytes := do
  if (state.get? occupiedName).isSome then
    .error .wrongKind
  let complete :=
    (initialState.update state).set "bo_count" (.integer buffers.length)
  let header ← hangState.layout.write complete
  let table ← writeTable buffers
  .ok
    (Bytes.ofWord 4 snapshotVersion ++ header ++ table ++ writeContents buffers)

/-- Write a container from a state in either form. -/
def write
    (source : StateSource)
    (buffers : Memory) : Except Fault Bytes :=
  encode source.fields buffers

end Snapshot

end VideoCore
