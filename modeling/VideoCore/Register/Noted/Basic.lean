import VideoCore.Record.Encoding
import VideoCore.Record.Fields
import VideoCore.Value.Names

namespace VideoCore

/-!
# Registers with notes

Under hidden names a register keeps notes: values of any kind beside its bits.
What a class keeps under a hidden name is shared by its registers until they
have a note of their own there.  Some hidden names mean something to the
register itself, and nothing checks what is written under them: its whole
value, the names that count as fields, and the names that its text lists.
-/

/-- A register with notes of its own. -/
structure NotedRegister where
  type : RegisterClass
  /--
  The whole value, an integer as long as it is not replaced by something else.
  -/
  whole : Value
  /-- The notes, in the order in which their names were first used. -/
  notes : Fields

/-- The position of some bits, as a value of the kind that it is. -/
def FieldShape.position : FieldShape → Value
  | .bit index => .integer index
  | .range high low _ => .tuple [.integer high, .integer low]

/--
The position of some bits as a value; bits that are no plain number have none.
-/
def FieldShape.toValue (shape : FieldShape) : Except Fault Value :=
  match shape.kind with
  | .unsigned => .ok shape.position
  | _ => .error .wrongKind

namespace NotedRegister

/-- Names that a new register cannot be given values for. -/
def occupiedNames : List String :=
  ["self", "v"]

/-- What a name leads to. -/
inductive Found
  /-- What a field holds, or what is derived. -/
  | reading (reading : FieldReading)
  /-- The position of some bits. -/
  | definition (shape : FieldShape)
  /-- A value; `absent` for a name whose definition was taken back. -/
  | value (value : Value)
  /-- A set of names. -/
  | names (names : List String)
  /-- A table of values, such as everything that a register keeps. -/
  | contents (contents : Fields)
  /-- The class of a register. -/
  | kind
  /-- A rule, bound to its register. -/
  | rule
  /-- An operation of any value, bound to its register. -/
  | operation

namespace Found

/--
What is found as a value; a member is its number, and some things are no values.
-/
def toValue : Found → Except Fault Value
  | .reading held => .ok (.integer held.toInt)
  | .definition shape => shape.toValue
  | .value held => .ok held
  | _ => .error .wrongKind

/-- Whether what is found counts as zero. -/
def isZero : Found → Bool
  | .reading held => held.toInt = 0
  | .definition (.bit index) => index = 0
  | .value .absent => true
  | _ => false

/-- What a name leads to while there is no register. -/
def ofNothing (name : String) : Except Fault Found :=
  if name = ClassEntry.aboutName then .ok (.value .absent)
  else if Value.absent.hasName name then .ok .operation
  else .error .noAttribute

/-- The fault of setting a name while there is no register. -/
def faultOfSetting (name : String) : Fault :=
  if name = ClassEntry.kindName then .wrongKind else .noAttribute

end Found

/-- The register itself, as long as its bits are there. -/
def register (noted : NotedRegister) : Except Fault Register :=
  match noted.whole.integer? with
  | some value => .ok ⟨noted.type, value⟩
  | none => .error .wrongKind

/-- The number that the register is. -/
def number (noted : NotedRegister) : Except Fault Int := do
  noted.type.require .number
  let register ← noted.register
  .ok register.value

/-- The register after its class was asked for its annotations. -/
def annotate (noted : NotedRegister) : NotedRegister :=
  { noted with type := noted.type.annotate }

/-! ## Looking up names -/

/-- Whether a name counts as a field. -/
def isField
    (noted : NotedRegister)
    (name : String) : Except Fault Bool :=
  match noted.notes.get? ClassEntry.fieldsName with
  | some names => names.holdsText name
  | none => .ok (noted.type.hasField name)

/--
What takes the place of the class, if the class says something about its own
hidden name.
-/
def standIn? (noted : NotedRegister) : Option Value :=
  (noted.type.definition? ClassEntry.kindName).map fun shape? =>
    (noted.notes.get? ClassEntry.kindName).getD
      (shape?.elim .absent FieldShape.position)

/-- The bits of a field, which the class gives or what takes its place. -/
def shape?
    (noted : NotedRegister)
    (name : String) : Except Fault FieldShape :=
  match noted.standIn? with
  | some value => do
      let shape? ← value.shapeUnder? name
      shape?.elim (.error .noAttribute) .ok
  | none => noted.type.shape? name

/-- Read a field. -/
def getField
    (noted : NotedRegister)
    (name : String) : Except Fault FieldReading := do
  let shape ← noted.shape? name
  let register ← noted.register
  shape.read register.value

/--
What a name leads to that is a field or that the class says something about.
-/
def getStated
    (noted : NotedRegister)
    (name : String) : Except Fault Found := do
  let isField ← noted.isField name
  if isField then
    (noted.getField name).map .reading
  else
    match noted.type.definition? name with
    | some (some shape) => .ok (.definition shape)
    | some none => .ok (.value .absent)
    | none => .error .noAttribute

/-- Compute a derived field. -/
def derive (noted : NotedRegister) : DerivedField → Except Fault Found
  | .alignedAddress => do
      let register ← noted.register
      .ok (.reading (.number register.alignedAddress))
  | .countOrEight field => do
      let found ← noted.getStated field
      .ok (if found.isZero then .reading (.number 8) else found)

/-- What the register has of something that its class keeps. -/
def ofEntry (noted : NotedRegister) : ClassEntry → Except Fault Found
  | .stated (some shape) => .ok (.definition shape)
  | .stated none => .ok (.value .absent)
  | .derived field => noted.derive field
  | .whole => .ok (.value noted.whole)
  | .listing => .ok (.value (.list (noted.type.fieldNames.map .text)))
  | .fields => .ok (.names noted.type.fieldNames)
  | .text content => .ok (.value (content.elim .absent .text))
  | .annotations => .ok (.contents [])
  | .rule => .ok .rule
  | .operation => .ok .operation
  | .kind => .ok .kind
  | .contents =>
      .ok (.contents ((ClassEntry.hiddenValueName, noted.whole) :: noted.notes))
  | .referrer => .ok (.value .absent)

/-- The register's own value under a hidden name. -/
def own?
    (noted : NotedRegister)
    (name : String) : Option Value :=
  if name = ClassEntry.hiddenValueName then
    some noted.whole
  else
    noted.notes.get? name

/--
What a hidden name leads to: something sealed, the register's own value, or the
class's.
-/
def getHidden
    (noted : NotedRegister)
    (name : String) : Except Fault Found :=
  match noted.type.entry? name, noted.own? name with
  | some entry, some value =>
      if entry.isSealed then noted.ofEntry entry else .ok (.value value)
  | none, some value => .ok (.value value)
  | some entry, none => noted.ofEntry entry
  | none, none => .error .noAttribute

/--
What a name leads to that is not hidden: a field, or what the class keeps under
it.
-/
def getOpen
    (noted : NotedRegister)
    (name : String) : Except Fault Found := do
  let isField ← noted.isField name
  if isField then
    (noted.getField name).map .reading
  else
    match noted.type.entry? name with
    | some entry => noted.ofEntry entry
    | none => .error .noAttribute

/--
What a name leads to; a class may have lost how to say that it leads to nothing.
-/
def get
    (noted : NotedRegister)
    (name : String) : Except Fault Found :=
  match if isHidden name then noted.getHidden name else noted.getOpen name with
  | .error .noAttribute =>
      .error
        (if noted.type.states ClassEntry.missingName then .wrongKind
        else .noAttribute)
  | found => found

/-- Refuse if a name does not lead to the rule that is kept under it. -/
def requireRule
    (noted : NotedRegister)
    (name : String) : Except Fault Unit := do
  let found ← noted.get name
  match found with
  | .rule => .ok ()
  | _ => .error .wrongKind

/-! ## Setting names -/

/-- Set a field. -/
def setField
    (noted : NotedRegister)
    (name : String)
    (value : Value) : Except Fault NotedRegister := do
  let shape ← noted.shape? name
  let span ← shape.writeSpan?
  let register ← noted.register
  let raw ← shape.rawOf value
  .ok { noted with whole := .integer (span.write raw register.value) }

/--
Set a name: a hidden one is a note or the whole value, any other one a field.
-/
def set
    (noted : NotedRegister)
    (name : String)
    (value : Value) : Except Fault NotedRegister :=
  if name = ClassEntry.hiddenValueName then
    .ok { noted with whole := value }
  else if isHidden name then
    .ok { noted with notes := noted.notes.set name value }
  else
    noted.setField name value

/-- Set several names, one after the other. -/
def setAll (noted : NotedRegister) : Fields → Except Fault NotedRegister
  | [] => .ok noted
  | (name, value) :: rest => do
      let changed ← noted.set name value
      changed.setAll rest

/-- A register with a value whose fields can all be read. -/
def ofValue
    (type : RegisterClass)
    (value : Value) : Except Fault NotedRegister := do
  type.require .making
  let noted : NotedRegister := ⟨type, value, []⟩
  type.fieldNames.forM fun name => do
    let _ ← noted.get name
    .ok ()
  .ok noted

/-- A register that starts at zero, whether its fields can be read or not. -/
def blank (type : RegisterClass) : Except Fault NotedRegister := do
  type.require .making
  .ok ⟨type, .integer 0, []⟩

/-- A register with a value, or one that starts at zero, with some names set. -/
def create
    (type : RegisterClass)
    (value : Value)
    (settings : Fields) : Except Fault NotedRegister :=
  if settings.any fun (name, _) => occupiedNames.contains name then
    .error .wrongKind
  else do
    let noted ←
      match value with
      | .absent => blank type
      | value => ofValue type value
    noted.setAll settings

/-! ## Comparing and storing -/

/--
Whether the class and the whole value are those of a register with a number.
-/
def same (noted other : NotedRegister) : Bool :=
  noted.type.name == other.type.name &&
    other.whole.integer?.any fun number => noted.whole.isNumber number

/-- Whether two things are equal, where `none` is anything but a register. -/
def equal : Option NotedRegister → Option NotedRegister → Except Fault Bool
  | some noted, some other => do
      if other.type.extends? noted.type then
        other.type.require .equality
      noted.type.require .equality
      .ok (noted.same other)
  | some noted, none => do
      noted.type.require .equality
      .ok false
  | none, some noted => do
      noted.type.require .equality
      .ok false
  | none, none => .ok false

/-- Refuse a register that cannot be an element of a set. -/
def requireSettled (noted : NotedRegister) : Except Fault Unit := do
  noted.type.require .digest
  if noted.whole.isSettled then .ok () else .error .wrongKind

/--
The size of the set of two things, where `none` is anything but a register.
-/
def distinct (noted other : Option NotedRegister) : Except Fault Nat := do
  noted.toList.forM requireSettled
  other.toList.forM requireSettled
  match noted, other with
  | some noted, some other => .ok (if noted.same other then 1 else 2)
  | _, _ => .ok 2

/-- Read a register off the front of some bytes. -/
def ofBytes
    (type : RegisterClass)
    (bytes : Bytes) : Except Fault NotedRegister := do
  let size ← type.byteSize?
  let (stored, _) ← takeBytes size bytes
  ofValue type (.integer stored.toWord)

/-- The bytes of a register, which is stored as its number. -/
def toBytes (noted : NotedRegister) : Except Fault Bytes := do
  let size ← noted.type.byteSize?
  let number ← noted.number
  writeWord size number

end NotedRegister

end VideoCore
