import VideoCore.Area.Reference
import VideoCore.Packet.Basic

namespace VideoCore

/-!
# Effects of packets

Besides describing its fields, a packet may refer to an area or set the format
of compressed primitives.
-/

/-- What decoding a packet leads to. -/
structure Consequence where
  /-- The area that the packet refers to. -/
  area : Option Area
  /-- The format of compressed primitives after the packet. -/
  primMode : Int

/-- The shader record that a register refers to. -/
def Memory.shaderRecordOf
    (memory : Memory)
    (reference : Register) : Except Fault Area := do
  let count ← reference.countOrEight "ATTRIBUTE_COUNT"
  let extended ← reference.read "EXTENDED"
  memory.shaderRecordAt reference.alignedAddress count.toInt
    (extended == .number 1)

namespace PacketEffect

/-- The register that a field holds. -/
def registerIn
    (fields : Fields)
    (field : String) : Except Fault Register :=
  match fields.get field with
  | .register held => .ok held
  | _ => .error .noAttribute

/-- What a packet with some fields leads to while a format is in force. -/
def apply
    (effect : PacketEffect)
    (memory : Memory)
    (primMode : Int)
    (fields : Fields) : Except Fault Consequence :=
  match effect with
  | .nothing => .ok ⟨none, primMode⟩
  | .namesList field => do
      let area ← memory.subListAt (fields.integer field) primMode
      .ok ⟨some area, primMode⟩
  | .setsFormat field => do
      let format ← registerIn fields field
      .ok ⟨none, format.value⟩
  | .namesShaderRecord field => do
      let reference ← registerIn fields field
      let area ← memory.shaderRecordOf reference
      .ok ⟨some area, primMode⟩

end PacketEffect

end VideoCore
