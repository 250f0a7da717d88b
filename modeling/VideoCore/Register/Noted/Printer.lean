import VideoCore.Register.Noted.Basic
import VideoCore.Register.Printer
import VideoCore.Value.Printer

namespace VideoCore

/-!
# Text of registers with notes

The text of a register with notes lists the names that it is told to list, each
with what it leads to.  What looks like an integer is written in the manner of
the bits that the class gives to the name.
-/

/-- The text of how the bits of a field are understood, if it is told. -/
def FieldKind.literal : FieldKind → Option String
  | .unsigned => none
  | .signed bits => some ("<signed " ++ toString bits ++ ">")
  | .enumeration type => some ("<enum '" ++ type.name ++ "'>")

/-- The text of the position of some bits. -/
def FieldShape.literal : FieldShape → String
  | .bit index => toString index
  | .range high low kind =>
      Value.parenthesized ([toString high, toString low] ++ kind.literal.toList)

/-- How a class wants what is listed under a name to be written. -/
inductive Manner
  /-- Like a field with these bits. -/
  | bits (shape : FieldShape)
  /-- As it is. -/
  | plain
  /-- As it is, but not if it is a number that is not negative. -/
  | refused (fault : Fault)

namespace Manner

/--
What a class wants for names that tell of the class and not of its registers.
-/
def ofClassName? (name : String) : Option Manner :=
  if name = "__bases__" then some (.refused .badValue)
  else if name = "__mro__" then some (.refused .wrongKind)
  else if classNames.contains name then some .plain
  else none
where
  /-- Names that tell of a class, whatever it says about them. -/
  classNames : List String :=
    [ClassEntry.kindName, "__dict__", "__name__", "__qualname__",
      "__base__", "__basicsize__", "__itemsize__", "__flags__",
      "__dictoffset__", "__weakrefoffset__", "__text_signature__"]

/-- Names that tell of a class that says nothing about them. -/
def fallbackNames : List String :=
  ["mro", "__subclasses__", "__prepare__", "__instancecheck__",
    "__subclasscheck__", "__call__", "__or__", "__ror__"]

/-- What a class wants for a name that it gives these bits to. -/
def ofShape : Option FieldShape → Manner
  | some shape => .bits shape
  | none => .plain

/-- The text of a number. -/
def numberText
    (form : Register.Form)
    (manner : Manner)
    (number : Int) : Except Fault String :=
  match manner with
  | .bits shape =>
      if 0 ≤ number && Register.usesHexadecimal shape then
        .ok (Register.readingText form shape (.number number))
      else
        Value.decimalText number
  | .plain => Value.decimalText number
  | .refused fault =>
      if 0 ≤ number then .error fault else Value.decimalText number

/--
The text of a truth value, which is a number where numbers are written in
hexadecimal.
-/
def truthText
    (form : Register.Form)
    (manner : Manner)
    (value : Bool) : Except Fault String :=
  match manner with
  | .bits shape =>
      if Register.usesHexadecimal shape then
        .ok (Register.readingText form shape (.number value.toInt))
      else
        .ok (Value.truthText value)
  | .plain => .ok (Value.truthText value)
  | .refused fault => .error fault

/-- The text of a member of an enumeration; its description needs the bits. -/
def memberText
    (form : Register.Form)
    (manner : Manner)
    (reading : FieldReading) : Except Fault String :=
  match form, manner with
  | .literal, _ => .ok (toString reading.toInt)
  | .described, .bits shape => .ok (Register.readingText form shape reading)
  | .described, _ => .error .wrongKind

end Manner

namespace RegisterClass

/--
How a class wants what is listed under a name to be written; it has to know the
name.
-/
def manner
    (type : RegisterClass)
    (name : String) : Except Fault Manner :=
  match Manner.ofClassName? name with
  | some manner => .ok manner
  | none =>
      if name = ClassEntry.annotationsName then
        .ok ((type.own? name).elim .plain .ofShape)
      else if name = ClassEntry.abstractName then
        (type.own? name).elim (.error .noAttribute)
          fun shape? => .ok (.ofShape shape?)
      else
        match type.entry? name with
        | some (.stated shape?) => .ok (.ofShape shape?)
        | some _ => .ok .plain
        | none =>
            if Manner.fallbackNames.contains name then
              .ok .plain
            else
              .error .noAttribute

/-- The text of a class; without a home of its own it is only named. -/
def text (type : RegisterClass) : String :=
  let home :=
    if (type.own? ClassEntry.homeName).isSome then "" else type.home ++ "."
  "<class '" ++ home ++ type.name ++ "'>"

end RegisterClass

namespace NotedRegister

/--
How what is listed under a name is written, by the class or what takes its
place.
-/
def manner
    (noted : NotedRegister)
    (name : String) : Except Fault Manner :=
  match noted.standIn? with
  | none => noted.type.manner name
  | some value => (value.shapeUnder? name).map .ofShape

/--
The text of a value; what looks like an integer is written in a manner of its
own.
-/
def valueText
    (form : Register.Form)
    (manner : Manner)
    (value : Value) : Except Fault String :=
  match value, value.integer? with
  | .truth value, _ => manner.truthText form value
  | _, some number => manner.numberText form number
  | _, none => value.plain

/-- The text of everything that a register keeps. -/
def contentsText (contents : Fields) : Except Fault String := do
  let texts ← contents.mapM fun (name, value) => do
    let text ← value.literal
    .ok (Quoted.text name ++ ": " ++ text)
  .ok ("\x7b" ++ ", ".intercalate texts ++ "\x7d")

/-- The text of a set of names. -/
def namesText (names : List String) : String :=
  if names.isEmpty then "set()"
  else "\x7b" ++ ", ".intercalate (names.map Quoted.text) ++ "\x7d"

/--
The text of what a name leads to.  The text of a rule has the text of its
register in it, which lists the rule: there is no such text.
-/
def foundText
    (form : Register.Form)
    (noted : NotedRegister)
    (manner : Manner) : Found → Except Fault String
  | .reading (.number number) => manner.numberText form number
  | .reading reading => manner.memberText form reading
  | .definition (.bit index) => manner.numberText form index
  | .definition shape => .ok shape.literal
  | .value value => valueText form manner value
  | .names names => .ok (namesText names)
  | .contents contents => contentsText contents
  | .kind => .ok noted.type.text
  | .rule => do
      noted.type.require .literal
      .error .endless
  | .operation => .ok "<operation>"

/-- The register once its class was asked for a name. -/
def afterName
    (noted : NotedRegister)
    (name : String) : NotedRegister :=
  if name = ClassEntry.annotationsName ∧ noted.standIn?.isNone then
    noted.annotate
  else
    noted

/-- One listed name with what it leads to. -/
def nameText
    (form : Register.Form)
    (noted : NotedRegister)
    (name : String) : Except Fault String := do
  let manner ← noted.manner name
  let found ← (noted.afterName name).get name
  let text ← noted.foundText form manner found
  .ok (name ++ "=" ++ text)

/--
One item of the listing; only names can be listed, and only while the rule for
it is there.
-/
def itemText
    (form : Register.Form)
    (noted : NotedRegister)
    (item : Value) : Except Fault String :=
  match item with
  | .text name => do
      noted.requireRule ClassEntry.fieldTextName
      noted.nameText form name
  | _ => .error .wrongKind

/-- The items that the text of a register lists. -/
def items (noted : NotedRegister) : Except Fault (List Value) := do
  let found ← noted.get ClassEntry.listingName
  let listing ← found.toValue
  listing.items?.elim (.error .wrongKind) .ok

/-- What a text of a register begins with, before it lists anything. -/
def opening
    (form : Register.Form)
    (noted : NotedRegister) : Except Fault String :=
  match form with
  | .described => do
      noted.type.require .description
      let digits ← noted.whole.hexadecimal 0
      noted.requireRule ClassEntry.fieldsTextName
      .ok ("0x" ++ digits ++ " ")
  | .literal => do
      noted.type.require .literal
      .ok noted.type.name

/--
The text of a register: its opening and the listed names with what they lead to.
-/
def textOf
    (form : Register.Form)
    (noted : NotedRegister) : Except Fault String := do
  let opening ← noted.opening form
  let items ← noted.items
  let texts ← items.mapM (itemText form noted)
  .ok (opening ++ "(" ++ ", ".intercalate texts ++ ")")

/-- The value and the listed names. -/
def describe (noted : NotedRegister) : Except Fault String :=
  noted.textOf .described

/-- The class and the listed names. -/
def literal (noted : NotedRegister) : Except Fault String :=
  noted.textOf .literal

/-! ## What a text leaves behind -/

/-- The register once its class was asked for an item of the listing. -/
def afterItem
    (noted : NotedRegister)
    (item : Value) : NotedRegister :=
  match item, noted.requireRule ClassEntry.fieldTextName with
  | .text name, .ok () => noted.afterName name
  | _, _ => noted

/-- The register after some items were listed, as far as they have texts. -/
def afterItems
    (form : Register.Form)
    (noted : NotedRegister) : List Value → NotedRegister
  | [] => noted
  | item :: rest =>
      match itemText form noted item with
      | .ok _ => (noted.afterItem item).afterItems form rest
      | .error _ => noted.afterItem item

/--
The register after its text was written: its class may have been asked for
something.
-/
def afterText
    (form : Register.Form)
    (noted : NotedRegister) : NotedRegister :=
  match noted.opening form, noted.items with
  | .ok _, .ok items => noted.afterItems form items
  | _, _ => noted

end NotedRegister

end VideoCore
