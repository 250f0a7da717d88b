import VideoCore.Bits

namespace VideoCore

/-!
# Bitfield registers

A register class names bits of an integer.  A class extends another one: it
inherits the fields of that class, may define them anew and may add more.  The
value of a register is any integer; a class limits it only when the register
is stored in a fixed number of bytes.

A name that begins with an underscore is hidden: whatever a class says about
it, it is no field.  The number of bits that the registers of a class are
stored in is what the class says about one of these names.
-/

/-- A type whose values have names; a name stands for its position. -/
structure Enumeration where
  name : String
  members : List String
deriving DecidableEq

/-- How the raw bits of a field are understood. -/
inductive FieldKind
  | unsigned
  | signed (bits : Int)
  | enumeration (type : Enumeration)
deriving DecidableEq

/-- The bits of a field. -/
inductive FieldShape
  /-- One bit. -/
  | bit (index : Int)
  /-- The bits from `low` up to `high`; none if `high + 1 = low`. -/
  | range (high low : Int) (kind : FieldKind)
deriving DecidableEq

/-- What a field holds. -/
inductive FieldReading
  | number (value : Int)
  | member (type : Enumeration) (index : Nat) (name : String)
deriving DecidableEq

/-- The number of a reading; that of a member is its position. -/
def FieldReading.toInt : FieldReading → Int
  | .number value => value
  | .member _ index _ => index

/-- Something that a register class computes from a register. -/
inductive DerivedField
  /-- The value with its four low bits cleared. -/
  | alignedAddress
  /-- What a field holds, where zero stands for eight. -/
  | countOrEight (field : String)
deriving DecidableEq

/-- What one class says about names itself; `none` takes a definition back. -/
abbrev FieldTable := List (String × Option FieldShape)

/--
A register class: the tables of its own fields and of every class it extends.
-/
structure RegisterClass where
  name : String
  /-- The nearest table first. -/
  tables : List FieldTable
  derived : List (String × DerivedField)
  /-- The part of the program that the class belongs to. -/
  home : String
  /-- What the class tells about itself. -/
  about : Option String
  /--
  Whether the class has an empty table of annotations; it has one once it is
  asked for it.
  -/
  annotated : Bool
deriving DecidableEq

/-- A register: a value seen through a class. -/
structure Register where
  type : RegisterClass
  value : Int
deriving DecidableEq

namespace FieldKind

/-- Understand raw bits. -/
def interpret
    (kind : FieldKind)
    (raw : Int) : Except Fault FieldReading :=
  match kind with
  | .unsigned => .ok (.number raw)
  | .signed bits => (signExtend? bits raw).map .number
  | .enumeration type =>
      match type.members[raw.toNat]? with
      | some name => .ok (.member type raw.toNat name)
      | none => .error .badValue

end FieldKind

namespace FieldShape

/-- The position of the lowest bit. -/
def low : FieldShape → Int
  | .bit index => index
  | .range _ low _ => low

/-- The number of bits, negative if the bounds are crossed. -/
def width : FieldShape → Int
  | .bit _ => 1
  | .range high low _ => high + 1 - low

/--
The span of bits; refused if a position is negative or the bounds are crossed.
-/
def span? (shape : FieldShape) : Except Fault BitSpan :=
  if 0 ≤ shape.low ∧ 0 ≤ shape.width then
    .ok ⟨shape.low.toNat, shape.width.toNat⟩
  else
    .error .badValue

/-- The span to read from; the bits themselves must have room. -/
def readSpan? (shape : FieldShape) : Except Fault BitSpan := do
  let span ← shape.span?
  requireRoom 1 span.width
  .ok span

/-- The span to write to; the bits must have room in their place, too. -/
def writeSpan? (shape : FieldShape) : Except Fault BitSpan := do
  requireRoom 1 shape.width.toNat
  let span ← shape.span?
  requireRoom span.width span.low
  .ok span

/-- How the bits are understood; a single bit is a number. -/
def kind : FieldShape → FieldKind
  | .bit _ => .unsigned
  | .range _ _ kind => kind

/-- Read the field from a value. -/
def read
    (shape : FieldShape)
    (value : Int) : Except Fault FieldReading := do
  let span ← shape.readSpan?
  shape.kind.interpret (span.read value)

/-- Replace the bits of the field. -/
def write
    (shape : FieldShape)
    (raw value : Int) : Except Fault Int := do
  let span ← shape.writeSpan?
  .ok (span.write raw value)

end FieldShape

/-- Whether a name is hidden. -/
def isHidden (name : String) : Bool :=
  name.startsWith "_"

/-- The hidden name of the number of bits that registers are stored in. -/
def widthName : String :=
  "__WIDTH__"

namespace FieldTable

/-- The names that the table itself gives bits to. -/
def fieldNames (table : FieldTable) : List String :=
  table.filterMap fun (name, shape?) =>
    if shape?.isSome && !isHidden name then some name else none

/-- Whether the table itself gives bits to a name. -/
def givesBits
    (table : FieldTable)
    (name : String) : Bool :=
  table.any fun (defined, shape?) => defined == name && shape?.isSome

/-- Define a name; one that is defined again keeps its place. -/
def define
    (table : FieldTable)
    (name : String)
    (shape? : Option FieldShape) : FieldTable :=
  match table with
  | [] => [(name, shape?)]
  | (first, old) :: rest =>
      if first = name then
        (name, shape?) :: rest
      else
        (first, old) :: define rest name shape?

end FieldTable

namespace RegisterClass

/-- What the class without fields tells about itself. -/
def rootRemark : String :=
  "Bitfield view over an integer.\n\n    " ++
    "Fields are class attributes: a bare int names a single bit, a\n    " ++
    "``(msb, lsb)`` or ``(msb, lsb, type)`` tuple names a bit range. " ++
    "The\n    optional type is called on the extracted value (an Enum, " ++
    "or one of the\n    " ++
    "``signed(n)`` helpers for two's complement fields).\n    "

/-- The class without fields and without a width. -/
def root : RegisterClass where
  name := "Register"
  tables := [[]]
  derived := []
  home := "vc4dump.utils"
  about := some rootRemark
  annotated := false

/-- A class with `table` as its own table and a width, if one is given. -/
def extend
    (base : RegisterClass)
    (name : String)
    (width : Option Int)
    (table : FieldTable) : RegisterClass where
  name := name
  tables :=
    (match width with
      | some width => table.define widthName (some (.bit width))
      | none => table) :: base.tables
  derived := base.derived
  home := root.home
  about := none
  annotated := false

/--
Inherited names, the nearest class's first, and then the class's own new names.
-/
def fieldNames (type : RegisterClass) : List String :=
  match type.tables with
  | [] => []
  | own :: inherited =>
      (inherited.flatMap FieldTable.fieldNames ++ own.fieldNames).eraseDups

/-- Whether a name is that of a field. -/
def hasField
    (type : RegisterClass)
    (name : String) : Bool :=
  !isHidden name && type.tables.any (·.givesBits name)

/-- The fields are those that have a place in the order of fields. -/
theorem hasField_iff_mem_fieldNames
    (type : RegisterClass)
    (name : String) :
    type.hasField name = true ↔ name ∈ type.fieldNames := by
  have table_iff (table : FieldTable) :
      name ∈ table.fieldNames ↔
        isHidden name = false ∧ table.givesBits name = true := by
    simp only [FieldTable.fieldNames, FieldTable.givesBits, List.mem_filterMap,
      List.any_eq_true]
    constructor
    · rintro ⟨⟨defined, shape?⟩, member, shown⟩
      split at shown
      · next visible =>
          obtain rfl := Option.some.inj shown
          simp only [Bool.and_eq_true, Bool.not_eq_true'] at visible
          exact ⟨visible.2, _, member, by simp [visible.1]⟩
      · contradiction
    · rintro ⟨visible, ⟨defined, shape?⟩, member, given⟩
      simp only [Bool.and_eq_true, beq_iff_eq] at given
      obtain ⟨rfl, given⟩ := given
      exact ⟨_, member, by simp [visible, given]⟩
  unfold hasField fieldNames
  split
  · next none => simp [none]
  · next own inherited tables =>
      simp only [tables, Bool.and_eq_true, Bool.not_eq_true', List.any_cons,
        Bool.or_eq_true, List.any_eq_true, List.mem_eraseDups, List.mem_append,
        List.mem_flatMap, table_iff]
      constructor
      · rintro ⟨visible, given | ⟨table, member, given⟩⟩
        · exact Or.inr ⟨visible, given⟩
        · exact Or.inl ⟨table, member, visible, given⟩
      · rintro (⟨table, member, visible, given⟩ | ⟨visible, given⟩)
        · exact ⟨visible, Or.inr ⟨table, member, given⟩⟩
        · exact ⟨visible, Or.inl given⟩

/-- The nearest definition of a name. -/
def definition?
    (type : RegisterClass)
    (name : String) : Option (Option FieldShape) :=
  type.tables.findSome? (·.lookup name)

/-- What the class itself says about a name. -/
def own?
    (type : RegisterClass)
    (name : String) : Option (Option FieldShape) :=
  (type.tables.headD []).lookup name

/-- Whether the class or one that it extends says something about a name. -/
def states
    (type : RegisterClass)
    (name : String) : Bool :=
  (type.definition? name).isSome

/-- Whether a class is another one or extends it. -/
def extends? (type base : RegisterClass) : Bool :=
  base.tables.isSuffixOf type.tables

/-- The bits of a field. -/
def shape?
    (type : RegisterClass)
    (name : String) : Except Fault FieldShape :=
  if isHidden name then
    .error .noAttribute
  else
    match type.definition? name with
    | some (some shape) => .ok shape
    | _ => .error .noAttribute

/-- The number of bytes that a register is stored in. -/
def byteSize? (type : RegisterClass) : Except Fault Nat :=
  match type.definition? widthName with
  | none => .error .noAttribute
  | some (some (.bit width)) =>
      if width ∈ [8, 16, 24, 32, 64] then
        .ok (width.toNat / 8)
      else
        .error .badValue
  | some _ => .error .badValue

end RegisterClass

namespace Register

/-- Read a field. -/
def read
    (register : Register)
    (name : String) : Except Fault FieldReading := do
  let shape ← register.type.shape? name
  shape.read register.value

/-- Whether every field can be read. -/
def validate (register : Register) : Except Fault Unit :=
  register.type.fieldNames.forM fun name => do
    let _ ← register.read name
    .ok ()

/-- A register with a value all of whose fields can be read. -/
def ofValue
    (type : RegisterClass)
    (value : Int) : Except Fault Register := do
  let register : Register := ⟨type, value⟩
  register.validate
  .ok register

/-- The value with its four low bits cleared. -/
def alignedAddress (register : Register) : Int :=
  register.value - register.value % 16

/-- What a field holds, where zero stands for eight. -/
def countOrEight
    (register : Register)
    (field : String) : Except Fault FieldReading := do
  let reading ← register.read field
  .ok (if reading.toInt = 0 then .number 8 else reading)

/-- Compute a derived field. -/
def derive (register : Register) : DerivedField → Except Fault FieldReading
  | .alignedAddress => .ok (.number register.alignedAddress)
  | .countOrEight field => register.countOrEight field

/-- The derived fields that can be computed. -/
def derivedFields (register : Register) : List (String × FieldReading) :=
  register.type.derived.filterMap fun (name, field) =>
    (register.derive field).toOption.map fun reading => (name, reading)

/-- Replace the bits of a field. -/
def set
    (register : Register)
    (name : String)
    (raw : Int) : Except Fault Register := do
  let shape ← register.type.shape? name
  let value ← shape.write raw register.value
  .ok { register with value := value }

end Register

end VideoCore
