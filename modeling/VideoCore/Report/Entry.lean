import VideoCore.Record.Basic
import VideoCore.Value.Printer

namespace VideoCore

/-!
# Entries of a listing

An entry says what was found at an address.  Its kind decides how its value is
written.  The fields of a record become entries, each at the address where the
field is stored.
-/

/-- The kind of an entry. -/
inductive EntryKind
  /-- A packet; the value is its opcode. -/
  | packet
  /-- A field of a record. -/
  | field
  /--
  A form of compressed index data; the value is its indices or its target.
  -/
  | compressed
  /-- A shader instruction; the value is its text. -/
  | instruction
  /-- Something that could not be decoded. -/
  | error
  /-- A kind of a caller's own, written like an error. -/
  | other (label : String)
deriving DecidableEq

/-- What was found, and where. -/
structure Entry where
  /-- The address, if it is known; only an entry with one has a line. -/
  addr : Option Int
  name : String
  value : Value
  kind : EntryKind

namespace EntryKind

/-- The name of a kind. -/
def label : EntryKind → String
  | .packet => "packet"
  | .field => "field"
  | .compressed => "compressed"
  | .instruction => "inst"
  | .error => "error"
  | .other label => label

/-- The kind with a name. -/
def ofLabel : String → EntryKind
  | "packet" => .packet
  | "field" => .field
  | "compressed" => .compressed
  | "inst" => .instruction
  | "error" => .error
  | label => .other label

end EntryKind

namespace Entry

/-- The name of an entry for an opcode that no packet has. -/
def unknownPacket : String :=
  "Unknown packet"

/-- The name of an entry for a packet or form that does not fit. -/
def overflow : String :=
  "CL overflow"

/-- The name of an entry for compressed data of another format. -/
def unsupportedMode : String :=
  "Unsupported compressed primitive mode"

/-- The name of an entry for an address in no buffer. -/
def unresolved : String :=
  "Unresolved address"

/-- The name of an entry for a program without an end. -/
def missingProgramEnd : String :=
  "Missing program end"

/-- The address at the head of a line. -/
def addressText (addr : Option Int) : Except Fault String :=
  match addr with
  | some addr => .ok ("0x" ++ Hexadecimal.padded 8 addr ++ ":")
  | none => .error .wrongKind

/-- The plain texts of some values, separated by commas. -/
def plainTexts (values : List Value) : Except Fault String := do
  let texts ← values.mapM Value.plain
  .ok (", ".intercalate texts)

/--
The value of a compressed entry: indices by number, a target as an address.
-/
def compressedText (value : Value) : Except Fault String :=
  match value with
  | .absent => .ok ""
  | .tuple indices => do
      let texts ← plainTexts indices
      .ok (" " ++ texts)
  | _ => do
      let digits ← value.hexadecimal 8
      .ok (" 0x" ++ digits)

/-- What an error entry says. -/
def errorText
    (name : String)
    (value : Value) : Except Fault String :=
  if name = unknownPacket then do
    let digits ← value.hexadecimal 2
    let number ← value.plain
    .ok ("Unknown packet 0x" ++ digits ++ " (" ++ number ++ ")!")
  else if name = overflow then
    .ok "CL overflow!"
  else
    match value with
    | .absent => .ok (name ++ "!")
    | _ => do
        let text ← value.display
        .ok (name ++ " (" ++ text ++ ")!")

/-- What a line says behind the address. -/
def lineBody (entry : Entry) : Except Fault String :=
  match entry.kind with
  | .packet => do
      let digits ← entry.value.hexadecimal 2
      .ok (" 0x" ++ digits ++ " " ++ entry.name)
  | .field => do
      let shown ← entry.value.display
      .ok ("      " ++ entry.name ++ " " ++ shown)
  | .compressed => do
      let shown ← compressedText entry.value
      .ok ("      " ++ entry.name ++ shown)
  | .instruction => do
      let shown ← entry.value.plain
      .ok (" " ++ shown)
  | .error | .other _ => do
      let shown ← errorText entry.name entry.value
      .ok (" " ++ shown)

/-- The line of an entry. -/
def line (entry : Entry) : Except Fault String := do
  let head ← addressText entry.addr
  let body ← entry.lineBody
  .ok (head ++ body)

end Entry

namespace Record

/-- The entry of a field, under a title; a field without an address has none. -/
def entry
    (record : Record)
    (title : String → String)
    (offset? : Option Nat)
    (name : String)
    (value : Value) :
    Except Fault Entry :=
  match record.addr, offset? with
  | some addr, some offset =>
      .ok ⟨some (addr + offset), title name, value, .field⟩
  | _, _ => .error .wrongKind

/--
The entries of all fields but those in `hidden`, in the order of the layout.
-/
def entries
    (record : Record)
    (title : String → String)
    (hidden : List String) :
    Except Fault (List Entry) :=
  (record.items.filter fun (_, name, _) => !hidden.contains name).mapM
    fun (offset?, name, value) => record.entry title offset? name value

end Record

end VideoCore
