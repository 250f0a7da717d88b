import VideoCore.Register.Basic

namespace VideoCore

/-!
# Workings of registers

What registers do is kept under names as well: how they are made and changed,
compared and written.  A class can say something about such a name as about any
other one.  The working is lost then, and whatever needs it is refused.
-/

/-- Something that registers do. -/
inductive Working
  /-- Being made and being changed. -/
  | making
  /-- Being a number. -/
  | number
  /-- Being described by the value and the fields. -/
  | description
  /-- Being written as the class and the fields. -/
  | literal
  /-- Being compared. -/
  | equality
  /-- Being an element of a set. -/
  | digest
  /-- Being extended, which a class does. -/
  | extension
deriving DecidableEq

/-- The names that a working is kept under. -/
def Working.names : Working → List String
  | .making =>
      ["__new__", "__init__", "__setattr__", "__getattribute__", "__dict__"]
  | .number => ["__int__"]
  | .description => ["__str__"]
  | .literal => ["__repr__"]
  | .equality => ["__eq__"]
  | .digest => ["__hash__", "__eq__"]
  | .extension => ["mro", "__init_subclass__"]

/-- What a class keeps under a name for its registers. -/
inductive ClassEntry
  /--
  What the class says about the name; `none` if it only takes something back.
  -/
  | stated (shape? : Option FieldShape)
  /-- Something computed from a register. -/
  | derived (field : DerivedField)
  /-- The whole value of a register. -/
  | whole
  /-- The names that the text of a register lists. -/
  | listing
  /-- The names that count as fields. -/
  | fields
  /-- A text, if there is one. -/
  | text (content : Option String)
  /-- The empty table of annotations. -/
  | annotations
  /-- A rule that registers have of their own. -/
  | rule
  /-- An operation that all values have. -/
  | operation
  /-- The class itself. -/
  | kind
  /-- Everything that a register keeps. -/
  | contents
  /-- What refers to a register without keeping it; nothing does. -/
  | referrer
deriving DecidableEq

namespace ClassEntry

/-- The name of the whole value. -/
def valueName : String :=
  "value"

/-- The hidden name of the whole value. -/
def hiddenValueName : String :=
  "_value"

/-- The hidden name of the names that the text of a register lists. -/
def listingName : String :=
  "_fields_list"

/-- The hidden name of the names that count as fields. -/
def fieldsName : String :=
  "_fields"

/-- The hidden name of the rule for the text of one field. -/
def fieldTextName : String :=
  "_field_val"

/-- The name of the rule for the text of all fields. -/
def fieldsTextName : String :=
  "str_fields"

/-- The hidden name of the class. -/
def kindName : String :=
  "__class__"

/-- The hidden name of the part of the program that a class belongs to. -/
def homeName : String :=
  "__module__"

/-- The hidden name of what a class tells about itself. -/
def aboutName : String :=
  "__doc__"

/-- The hidden name of the annotations of a class. -/
def annotationsName : String :=
  "__annotations__"

/-- The hidden name of what a class leaves to those that extend it. -/
def abstractName : String :=
  "__abstractmethods__"

/-- The hidden name of what makes a register an element of a set. -/
def digestName : String :=
  "__hash__"

/-- The hidden name of what is asked for names that lead to nothing. -/
def missingName : String :=
  "__getattr__"

/-- The names of rules that only registers have. -/
def ruleNames : List String :=
  [fieldTextName, fieldsTextName, "__int__"]

/--
The names of operations that all values have, and registers have rules of their
own for.
-/
def replacedNames : List String :=
  ["__init__", "__getattribute__", "__setattr__", "__eq__", digestName,
    "__str__", "__repr__"]

/-- The names of the other operations that all values have. -/
def operationNames : List String :=
  ["__delattr__", "__dir__", "__format__", "__ge__", "__getstate__", "__gt__",
    "__init_subclass__", "__le__", "__lt__", "__ne__", "__new__", "__reduce__",
    "__reduce_ex__", "__sizeof__", "__subclasshook__"]

/-- Whether something is kept under a name in values of any kind. -/
def isUniversal (name : String) : Bool :=
  name = kindName || name = aboutName || replacedNames.contains name ||
    operationNames.contains name

/-- What every class keeps under a name, unless it says something about it. -/
def common? (name : String) : Option ClassEntry :=
  if name = valueName then some .whole
  else if name = kindName then some .kind
  else if name = "__dict__" then some .contents
  else if name = "__weakref__" then some .referrer
  else if ruleNames.contains name || replacedNames.contains name then some .rule
  else if operationNames.contains name then some .operation
  else none

/-- Whether a register cannot have something else under the name. -/
def isSealed : ClassEntry → Bool
  | .kind => true
  | .contents => true
  | .referrer => true
  | _ => false

end ClassEntry

namespace RegisterClass

/-- Refuse a class that has lost a working. -/
def require
    (type : RegisterClass)
    (working : Working) : Except Fault Unit :=
  if working.names.any type.states then .error .wrongKind else .ok ()

/--
What a class says about being an element of a set: comparing in its own way, it
is none.
-/
def digest? (type : RegisterClass) : Option (Option FieldShape) :=
  type.tables.findSome? fun table =>
    (table.lookup ClassEntry.digestName).or
      ((table.lookup "__eq__").map fun _ => none)

/--
What a class keeps under a name; it belongs somewhere and tells about itself for
itself.
-/
def entry?
    (type : RegisterClass)
    (name : String) : Option ClassEntry :=
  if name = ClassEntry.listingName then some .listing
  else if name = ClassEntry.fieldsName then some .fields
  else if name = ClassEntry.homeName then
    some ((type.own? name).elim (.text (some type.home)) .stated)
  else if name = ClassEntry.aboutName then
    some ((type.own? name).elim (.text type.about) .stated)
  else if name = ClassEntry.annotationsName && type.annotated then
    some ((type.own? name).elim .annotations .stated)
  else if name = ClassEntry.digestName then
    some (type.digest?.elim .rule .stated)
  else
    match type.definition? name with
    | some shape? => some (.stated shape?)
    | none =>
        ((type.derived.lookup name).map .derived).or (ClassEntry.common? name)

/-- The class after it was asked for its annotations. -/
def annotate (type : RegisterClass) : RegisterClass :=
  { type with annotated := true }

/--
Extend a class, unless it cannot be extended or something about the new one is
refused.
-/
def extend?
    (base : RegisterClass)
    (name : String)
    (width : Option Int)
    (table : FieldTable) : Except Fault RegisterClass :=
  let mentions (name : String) : Bool := (table.lookup name).isSome
  if mentions "__slots__" then .error .wrongKind
  else if name.contains '\x00' then .error .badValue
  else if mentions "__qualname__" || mentions "__classcell__" then
    .error .wrongKind
  else do
    base.require .extension
    .ok (base.extend name width table)

end RegisterClass

end VideoCore
