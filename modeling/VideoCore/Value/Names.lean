import VideoCore.Register.Workings
import VideoCore.Value.Basic

namespace VideoCore

/-!
# Names in values

Values of a kind have names, too.  What is found there is a number or something
that stands for no bits: an operation of the kind, a text, a table.  Some names
are those of values of any kind, and values of kinds that do much the same
share others.
-/

namespace Value

/-! ## Names of kinds -/

/-- Names in integers and floats. -/
def numberNames : List String :=
  ["__abs__", "__add__", "__bool__", "__ceil__", "__divmod__", "__float__",
    "__floor__", "__floordiv__", "__getnewargs__", "__int__", "__mod__",
    "__mul__", "__neg__", "__pos__", "__pow__", "__radd__", "__rdivmod__",
    "__rfloordiv__", "__rmod__", "__rmul__", "__round__", "__rpow__",
    "__rsub__", "__rtruediv__", "__sub__", "__truediv__", "__trunc__",
    "as_integer_ratio", "conjugate", "imag", "real"]

/-- More names in integers. -/
def integerNames : List String :=
  ["__and__", "__index__", "__invert__", "__lshift__", "__or__", "__rand__",
    "__rlshift__", "__ror__", "__rrshift__", "__rshift__", "__rxor__",
    "__xor__", "bit_count", "bit_length", "denominator", "from_bytes",
    "numerator", "to_bytes"]

/-- More names in integers that are shown in decimal. -/
def decimalNames : List String :=
  ["__dict__", "__module__", "new"]

/-- More names in floats. -/
def realNames : List String :=
  ["__getformat__", "fromhex", "hex", "is_integer"]

/-- Names in values that have elements. -/
def sequenceNames : List String :=
  ["__add__", "__contains__", "__getitem__", "__iter__", "__len__", "__mul__",
    "__rmul__", "count", "index"]

/-- More names in texts and bytes. -/
def stringNames : List String :=
  ["__getnewargs__", "__mod__", "__rmod__", "capitalize", "center", "endswith",
    "expandtabs", "find", "isalnum", "isalpha", "isascii", "isdigit", "islower",
    "isspace", "istitle", "isupper", "join", "ljust", "lower", "lstrip",
    "maketrans", "partition", "removeprefix", "removesuffix", "replace",
    "rfind", "rindex", "rjust", "rpartition", "rsplit", "rstrip", "split",
    "splitlines", "startswith", "strip", "swapcase", "title", "translate",
    "upper", "zfill"]

/-- More names in texts. -/
def textNames : List String :=
  ["casefold", "encode", "format", "format_map", "isdecimal", "isidentifier",
    "isnumeric", "isprintable"]

/-- More names in bytes. -/
def bytesNames : List String :=
  ["__bytes__", "decode", "fromhex", "hex"]

/-- More names in lists. -/
def listNames : List String :=
  ["__class_getitem__", "__delitem__", "__iadd__", "__imul__", "__reversed__",
    "__setitem__", "append", "clear", "copy", "extend", "insert", "pop",
    "remove", "reverse", "sort"]

/-- More names in tuples. -/
def tupleNames : List String :=
  ["__class_getitem__", "__getnewargs__"]

/--
Whether a value has a name because of its kind; a register has those of its
class.
-/
def hasName
    (value : Value)
    (name : String) : Bool :=
  ClassEntry.isUniversal name ||
    match value with
    | .absent => name = "__bool__"
    | .truth _ => numberNames.contains name || integerNames.contains name
    | .integer _ => numberNames.contains name || integerNames.contains name
    | .decimal _ =>
        numberNames.contains name || integerNames.contains name ||
          decimalNames.contains name
    | .real _ => numberNames.contains name || realNames.contains name
    | .text _ =>
        sequenceNames.contains name || stringNames.contains name ||
          textNames.contains name
    | .bytes _ =>
        sequenceNames.contains name || stringNames.contains name ||
          bytesNames.contains name
    | .list _ => sequenceNames.contains name || listNames.contains name
    | .tuple _ => sequenceNames.contains name || tupleNames.contains name
    | .register _ => false

/-! ## Numbers under names -/

/-- The number under a name in an integer. -/
def partOf
    (number : Int)
    (name : String) : Option Int :=
  match name with
  | "real" => some number
  | "imag" => some 0
  | "numerator" => some number
  | "denominator" => some 1
  | _ => none

end Value

namespace Register

/--
The bits that something a class keeps for a register stands for, if it stands
for some.
-/
def shapeOfEntry
    (register : Register) : ClassEntry → Except Fault (Option FieldShape)
  | .stated shape? => .ok shape?
  | .derived field =>
      (register.derive field).map fun reading => some (.bit reading.toInt)
  | .whole => .ok (some (.bit register.value))
  | _ => .ok none

/--
The bits that a name in a register stands for: a number that is found there is a
bit.
-/
def shapeUnder?
    (register : Register)
    (name : String) : Except Fault (Option FieldShape) :=
  if name = ClassEntry.hiddenValueName then
    .ok (some (.bit register.value))
  else if register.type.hasField name then
    (register.read name).map fun reading => some (.bit reading.toInt)
  else
    match register.type.entry? name with
    | some entry => register.shapeOfEntry entry
    | none => .error .noAttribute

end Register

namespace Value

/--
The bits that a name in a value stands for: a number that is found there is a
bit, anything else stands for none.
-/
def shapeUnder?
    (value : Value)
    (name : String) : Except Fault (Option FieldShape) :=
  match value with
  | .register held => held.shapeUnder? name
  | _ =>
      match value.integer?.bind fun number => partOf number name with
      | some number => .ok (some (.bit number))
      | none => if value.hasName name then .ok none else .error .noAttribute

end Value

end VideoCore
