namespace VideoCore

/-!
# Byte strings

Captured memory is a list of bytes.  Words are stored with their least
significant byte first.  Positions are integers: a negative position counts
back from the end, and the bounds of a slice are clamped to the string.
-/

/-- A string of bytes, in address order. -/
abbrev Bytes := List UInt8

namespace Bytes

/-- The `size` low bytes of a number, least significant byte first. -/
def ofWord : Nat → Nat → Bytes
  | 0, _ => []
  | size + 1, value => UInt8.ofNat value :: ofWord size (value / 256)

/-- The number that a byte string stores, least significant byte first. -/
def toWord : Bytes → Nat
  | [] => 0
  | byte :: rest => byte.toNat + 256 * toWord rest

@[simp] theorem length_ofWord
    (size value : Nat) :
    (ofWord size value).length = size := by
  induction size generalizing value with
  | zero => rfl
  | succ size inductionHypothesis =>
      simp [ofWord, inductionHypothesis]

/-- Whether every byte is zero; the empty string counts. -/
def isZero (bytes : Bytes) : Bool :=
  bytes.all (· == 0)

/-- A bound of a slice: counted back from the end if negative, then clamped. -/
def clampBound
    (length : Nat)
    (bound : Int) : Nat :=
  if bound < 0 then (length + bound).toNat else min bound.toNat length

/-- The position an index names, counted back from the end if negative. -/
def position?
    (length : Nat)
    (index : Int) : Option Nat :=
  if index < 0 then
    if length + index < 0 then none else some (length + index).toNat
  else if index < length then
    some index.toNat
  else
    none

/--
Up to `count` bytes off the front of a byte string, behind those gathered
before, and the rest of the string.
-/
def gather : (count : Nat) → Array UInt8 → Bytes → Array UInt8 × Bytes
  | count + 1, gathered, byte :: rest => gather count (gathered.push byte) rest
  | _, gathered, rest => (gathered, rest)

/-- Gathering splits a byte string. -/
theorem gather_eq
    (count : Nat)
    (gathered : Array UInt8)
    (bytes : Bytes) :
    gather count gathered bytes =
      (gathered ++ (bytes.take count).toArray, bytes.drop count) := by
  induction count generalizing gathered bytes with
  | zero => simp [gather]
  | succ count inductionHypothesis =>
      cases bytes with
      | nil => simp [gather]
      | cons byte rest => simp [gather, inductionHypothesis]

/--
The pieces of `size` bytes that a byte string consists of; the last may be
shorter.
-/
def chunks
    (size : Nat)
    (bytes : Bytes) : List Bytes :=
  if size = 0 ∨ bytes = [] then
    []
  else
    bytes.take size :: chunks size (bytes.drop size)
termination_by bytes.length
decreasing_by
  have nonempty : 0 < bytes.length :=
    List.length_pos_iff.mpr (by grind)
  simp only [List.length_drop]
  omega

end Bytes

end VideoCore
