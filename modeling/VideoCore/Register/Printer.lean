import VideoCore.Register.Basic

namespace VideoCore.Register

/-!
# Text of registers

A register is written as its value with its fields behind it, or as its class
with its fields.  Numbers of more than three bits are hexadecimal, all others
and negative ones decimal.
-/

/-- Which of the two forms of a register is written. -/
inductive Form
  /-- The value and the fields; members of an enumeration have their names. -/
  | described
  /-- The class and the fields; members of an enumeration are numbers. -/
  | literal
deriving DecidableEq

/-- Whether numbers of a field are written in hexadecimal. -/
def usesHexadecimal : FieldShape → Bool
  | .bit _ => false
  | .range high low _ => 3 < high - low + 1

/-- The text of what a field holds. -/
def readingText
    (form : Form)
    (shape : FieldShape) :
    FieldReading → String
  | .member _ index name =>
      match form with
      | .literal => toString index
      | .described =>
          (if usesHexadecimal shape then Hexadecimal.marked index
          else toString index) ++
            "(" ++ name ++ ")"
  | .number value =>
      if 0 ≤ value ∧ usesHexadecimal shape = true then
        Hexadecimal.marked value
      else
        toString value

/-- One field with its name. -/
def fieldText
    (form : Form)
    (register : Register)
    (name : String) : Except Fault String := do
  let shape ← register.type.shape? name
  let reading ← shape.read register.value
  .ok (name ++ "=" ++ readingText form shape reading)

/-- All fields with their names. -/
def fieldsText
    (form : Form)
    (register : Register) : Except Fault String := do
  let texts ← register.type.fieldNames.mapM (fieldText form register)
  .ok (", ".intercalate texts)

/-- The value and the fields. -/
def describe (register : Register) : Except Fault String := do
  let fields ← fieldsText .described register
  .ok ("0x" ++ Hexadecimal.signed register.value ++ " (" ++ fields ++ ")")

/-- The class and the fields. -/
def literal (register : Register) : Except Fault String := do
  let fields ← fieldsText .literal register
  .ok (register.type.name ++ "(" ++ fields ++ ")")

end VideoCore.Register
