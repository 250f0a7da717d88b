import VideoCore.Text.Hexadecimal

namespace VideoCore

/-!
# Faults

Everything that can go wrong, by cause.  Faults of a snapshot, of an address
and of an unsupported encoding carry a message for the user; the others say
only what kind of value was refused.
-/

/--
A place in captured memory: a buffer by its index and a byte offset in it.
-/
structure Location where
  buffer : Int
  offset : Int
deriving DecidableEq

/-- A record of the snapshot container. -/
inductive ContainerRecord
  /-- The register state at the head of the container. -/
  | header
  /-- An entry of the buffer table, by its index. -/
  | buffer (index : Nat)
deriving DecidableEq

/-- Why a byte string is no snapshot of the current version. -/
inductive SnapshotDefect
  /-- The version tag does not fit. -/
  | tooShort
  /-- A record does not fit; `present` bytes of the needed ones are there. -/
  | truncatedRecord (record : ContainerRecord) (offset needed present : Nat)
  /-- The contents of a buffer do not fit. -/
  | truncatedContents (index handle expected present : Nat)
deriving DecidableEq

/-- The cause of a failure. -/
inductive Fault
  /-- The container is tagged with another version. -/
  | wrongVersion (version : Nat)
  /-- The container is damaged. -/
  | malformedSnapshot (defect : SnapshotDefect)
  /-- No captured buffer contains the address. -/
  | unmapped (addr : Int)
  /-- No captured buffer has that place. -/
  | noSuchLocation (location : Location)
  /-- A shader record uses the extended encoding. -/
  | extendedShaderRecord
  /-- A record's own rules failed on the bytes read. -/
  | unreadableRecord (name : String)
  /-- The bytes end before the record does. -/
  | shortData
  /-- A constant byte has another value. -/
  | wrongConstant
  /-- A value does not fit a word or a float, or is no number. -/
  | misfit
  /-- A value does not fit a three-byte word, or is no integer. -/
  | integerMisfit
  /-- An array has the wrong number of elements. -/
  | wrongCount
  /-- A value has no bytes to be stored. -/
  | notBytes
  /-- The size of a record depends on its contents. -/
  | unsized
  /-- There is no such field. -/
  | missingField
  /-- A value of the right kind is not acceptable. -/
  | badValue
  /-- A value is of the wrong kind. -/
  | wrongKind
  /-- There is no such attribute, or it cannot be set. -/
  | noAttribute
  /-- An index lies outside the data. -/
  | outsideData
  /-- A divisor is zero. -/
  | divisionByZero
  /--
  A number is too large for any room, or infinite and so without an integer
  part.
  -/
  | overflow
  /-- There is no memory for a number. -/
  | exhausted
  /-- A text would have to contain itself. -/
  | endless
  /-- The operation is not provided. -/
  | notProvided
deriving DecidableEq

namespace ContainerRecord

/-- How a message names the record. -/
def describe : ContainerRecord → String
  | .header => "hang state header"
  | .buffer index => "BO record " ++ toString index

end ContainerRecord

namespace SnapshotDefect

/-- What the user is told about a damaged container. -/
def message : SnapshotDefect → String
  | .tooShort =>
      "Input too short for the version tag"
  | .truncatedRecord record offset needed present =>
      "Truncated " ++ record.describe ++
        " at offset " ++ Hexadecimal.marked offset ++
        " (need " ++ Hexadecimal.marked needed ++
        " bytes, have " ++ Hexadecimal.marked present ++ ")"
  | .truncatedContents index handle expected present =>
      "Contents of BO " ++ toString index ++
        " (handle " ++ toString handle ++
        ") truncated: expected " ++ Hexadecimal.marked expected ++
        " bytes, have " ++ Hexadecimal.marked present

end SnapshotDefect

namespace Fault

/-- What the user is told, for the faults that carry a message. -/
def message? : Fault → Option String
  | .wrongVersion version =>
      some ("Input had wrong version " ++ toString version)
  | .malformedSnapshot defect =>
      some defect.message
  | .unmapped addr =>
      some ("Couldn't translate paddr 0x" ++ Hexadecimal.padded 8 addr)
  | .noSuchLocation location =>
      some ("Couldn't translate pointer Location(bo=" ++
        toString location.buffer ++ ", offset=" ++ toString location.offset ++
        ")")
  | .extendedShaderRecord =>
      some "Extended GL shader records are not supported"
  | .unreadableRecord name =>
      some ("parsing " ++ name)
  | _ => none

/--
Whether a fault comes from the encoding of a record rather than from its rules.
-/
def isEncoding : Fault → Bool
  | .shortData => true
  | .wrongConstant => true
  | .misfit => true
  | .integerMisfit => true
  | .wrongCount => true
  | .notBytes => true
  | .unsized => true
  | _ => false

end Fault

end VideoCore
