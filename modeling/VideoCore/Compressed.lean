import VideoCore.Packet.Catalogue

namespace VideoCore

/-!
# Compressed index data

The indices of compressed triangles are a sequence of forms.  The leading byte
of a form selects its encoding; an escape leads back to packets, and a branch
continues the data elsewhere.
-/

/-- An encoding of compressed index data. -/
inductive IndexForm
  | escape
  | absolute
  | branch
  | absoluteRelative
  | threeRelative
  | oneRelative
deriving DecidableEq

namespace IndexForm

/-- The form that a leading byte selects. -/
def ofCode (code : Int) : IndexForm :=
  if code = 128 then
    .escape
  else if code = 130 then
    .branch
  else if code = 129 then
    .absolute
  else if code % 16 = 15 then
    .absoluteRelative
  else if code % 4 = 3 then
    .threeRelative
  else
    .oneRelative

/-- What a listing calls the form. -/
def name : IndexForm → String
  | .escape => "escape"
  | .absolute => "absolute"
  | .branch => "relative branch"
  | .absoluteRelative => "absolute + 2 relative"
  | .threeRelative => "3 relative"
  | .oneRelative => "1 relative"

/-- The layout of the form. -/
def record : IndexForm → RecordType
  | .escape =>
      ⟨"CompressedEscape", [.constant "code" 128]⟩
  | .absolute =>
      ⟨"CompressedAbsolute",
        [.constant "code" 129, .field "index" (.array 3 (.count 2)) none]⟩
  | .branch =>
      ⟨"CompressedBranch", [.constant "code" 130, .signedHalf "offset"]⟩
  | .absoluteRelative =>
      ⟨"CompressedAbsRelative",
        [.register "header" .absoluteRelativeHeader, .count "index" 2]⟩
  | .threeRelative =>
      ⟨"CompressedRelative3", [.register "header" .threeRelativeHeader]⟩
  | .oneRelative =>
      ⟨"CompressedRelative1", [.register "header" .oneRelativeHeader]⟩

/-- Every form. -/
def all : List IndexForm :=
  [.escape, .absolute, .branch, .absoluteRelative, .threeRelative, .oneRelative]

/-- The number of bytes of the form. -/
def size (form : IndexForm) : Nat :=
  form.record.fixedSize

theorem size_pos
    (form : IndexForm) :
    0 < form.size := by
  cases form <;> decide

/-- The number that a field of a form's header holds. -/
def headerField
    (fields : Fields)
    (name : String) : Int :=
  match fields.get "header" with
  | .register header =>
      match header.read name with
      | .ok (.number value) => value
      | _ => 0
  | _ => 0

/-- The indices that the form lists; none for an escape or a branch. -/
def indices
    (form : IndexForm)
    (fields : Fields) : Value :=
  match form with
  | .escape => .absent
  | .branch => .absent
  | .absolute => .tuple ((fields.get "index").items?.getD [])
  | .absoluteRelative =>
      .tuple [fields.get "index", .integer (headerField fields "DELTA1"),
        .integer (headerField fields "DELTA2")]
  | .threeRelative =>
      .tuple [.integer (headerField fields "DELTA0"),
        .integer (headerField fields "DELTA1"),
        .integer (headerField fields "DELTA2")]
  | .oneRelative => .tuple [.integer (headerField fields "DELTA")]

/--
The address that a branch at `addr` leads to.  Offsets count units of 32 bytes
from the unit of the branch; addresses have 32 bits.
-/
def branchTarget (offset addr : Int) : Int :=
  (addr - addr % 32 + 32 * offset) % 2 ^ 32

/--
The address that the record of a branch leads to, by default from where it was
found.
-/
def targetOf
    (record : Record)
    (addr : Option Int) : Except Fault Int :=
  match addr.or record.addr with
  | some addr => .ok (branchTarget (record.fields.integer "offset") addr)
  | none => .error .wrongKind

end IndexForm

end VideoCore
