import VideoCore.Area.Reference
import VideoCore.Report.Unresolved
import VideoCore.Shader.Program
import VideoCore.Shader.Record

namespace VideoCore.Shader

/-!
# Walks over shader records and programs

A shader record is listed with its attributes.  Its three programs become
areas, each on its own: one that leads nowhere does not hold up the others.
-/

/--
The stages of a shader record in the order in which their programs are looked
up.
-/
def stages : List (String × AreaType) :=
  [("cs", .coordinateShader), ("vs", .vertexShader), ("fs", .fragmentShader)]

/-- The name of the field that holds the address of a stage's program. -/
def codeField (stage : String) : String :=
  stage ++ "_code_addr"

/-- The entry for a program whose end is not signalled. -/
def missingEndEvent
    (type : AreaType)
    (paddr : Int) : Event :=
  .entry ⟨some paddr, Entry.missingProgramEnd, .text type.name, .error⟩

/-- The area of the program at an address. -/
def programAt
    (memory : Memory)
    (type : AreaType)
    (paddr : Int) : Traced Area := do
  let code ← Traced.ofExcept (memory.view paddr none)
  let extent := extent code
  if !extent.found then
    Traced.emit [missingEndEvent type paddr]
  let area ← Traced.ofExcept (memory.sizedArea type paddr extent.size)
  Traced.emit [.request area]
  return area

/--
The area of the program at an address, its type given by a number, which has no
name.
-/
def numberedProgramAt
    (memory : Memory)
    (type paddr : Int) : Traced Area := do
  let code ← Traced.ofExcept (memory.view paddr none)
  let extent := extent code
  if !extent.found then
    Traced.ofExcept (.error .noAttribute)
  let area ← Traced.ofExcept
    (memory.numberedArea type paddr extent.size unsetPrimMode 0 false)
  Traced.emit [.request area]
  return area

/-- Read a record and list its fields under a title. -/
def listRecord
    (type : RecordType)
    (bytes : Bytes)
    (addr : Int)
    (title : String → String) : Traced Record := do
  let record ← Traced.ofExcept (type.read bytes (some addr))
  let entries ← Traced.ofExcept (record.entries title [])
  Traced.emit (entries.map .entry)
  return record

/-- The title of a field of an attribute. -/
def attributeTitle
    (index : Nat)
    (name : String) : String :=
  "attr[" ++ toString index ++ "]." ++ name

/--
List `count` attributes, of which the first has the given index and address.
-/
def listAttributes
    (bytes : Bytes)
    (addr : Int)
    (index : Nat) : (count : Nat) → Traced (List Record)
  | 0 => return []
  | count + 1 => do
      let size := attributeType.fixedSize
      let first ←
        listRecord attributeType (bytes.take size) addr (attributeTitle index)
      let others ←
        listAttributes (bytes.drop size) (addr + size) (index + 1) count
      return first :: others

/-- Look up the program of a stage of a record. -/
def lookUpStage
    (memory : Memory)
    (record : Record)
    (stage : String)
    (type : AreaType) : Traced Unit := do
  let place ← Traced.ofExcept (record.addressOf (codeField stage))
  Traced.reportingUncaptured memory place ()
    (do
      let _ ← programAt memory type (record.fields.integer (codeField stage)))

/-- Look up the programs of some stages of a record. -/
def lookUpStages
    (memory : Memory)
    (record : Record) : List (String × AreaType) → Traced Unit
  | [] => return ()
  | (stage, type) :: rest => do
      lookUpStage memory record stage type
      lookUpStages memory record rest

/-- A shader record with its attributes. -/
structure Listed where
  record : Record
  attributes : List Record

/-- Walk a shader record. -/
def walkRecord
    (memory : Memory)
    (area : Area) : Traced Listed := do
  let bytes ← Traced.ofExcept (memory.read area.paddr area.size)
  let size := recordType.fixedSize
  let record ← listRecord recordType (bytes.take size) area.paddr id
  let attributes ←
    listAttributes (bytes.drop size) (area.paddr + size) 0 area.attributes.toNat
  lookUpStages memory record stages
  return ⟨record, attributes⟩

/--
The entries of some instructions, the first of which has the given address.
-/
def instructionEvents
    (text : Disassembler)
    (type : AreaType)
    (addr : Int) : List Nat → List Event
  | [] => []
  | word :: rest =>
      .entry ⟨some addr, type.name, .text (text word addr), .instruction⟩ ::
        instructionEvents text type (addr + instructionSize) rest

/-- Walk a program. -/
def walkProgram
    (memory : Memory)
    (text : Disassembler)
    (area : Area) : Traced Unit := do
  let code ← Traced.ofExcept (memory.read area.paddr area.size)
  Traced.emit (instructionEvents text area.type area.paddr (instructions code))

end VideoCore.Shader
