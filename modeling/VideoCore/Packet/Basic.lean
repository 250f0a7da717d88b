import VideoCore.Record.Basic

namespace VideoCore

/-!
# Control list packets

A packet is a record that begins with its opcode.  Its type says whether the
list ends with it, whether compressed index data follows it, and what it does
beyond describing its fields.
-/

/-- What decoding a packet does besides listing its fields. -/
inductive PacketEffect
  | nothing
  /-- Another list begins at the address in a field. -/
  | namesList (field : String)
  /-- Later compressed data has the format in a register field. -/
  | setsFormat (field : String)
  /-- A shader record lies at the address in a register field. -/
  | namesShaderRecord (field : String)
deriving DecidableEq

/-- A type of packets. -/
structure PacketType where
  record : RecordType
  name : String
  /-- The opcode; the type of unknown packets has none. -/
  opcode : Option Nat
  /-- Whether the list ends with the packet. -/
  terminal : Bool
  /-- Whether compressed index data follows the packet. -/
  compressed : Bool
  effect : PacketEffect

namespace PacketType

/-- A packet type without a special role, given its fields after the opcode. -/
def plain
    (record : String)
    (name : String)
    (opcode : UInt8)
    (parts : Layout) : PacketType where
  record := ⟨record, .constant "opcode" opcode :: parts⟩
  name := name
  opcode := some opcode.toNat
  terminal := false
  compressed := false
  effect := .nothing

/-- The number of bytes of a packet. -/
def size (type : PacketType) : Nat :=
  type.record.fixedSize

end PacketType

end VideoCore
