import VideoCore.Memory.Window
import VideoCore.Register.Catalogue

namespace VideoCore

/-!
# Shader programs

A program is a sequence of eight-byte instructions.  It ends two instructions
after the first one whose signal says so.
-/

namespace Shader

/-- The number of bytes of an instruction. -/
def instructionSize : Nat :=
  8

/--
The number of instructions that are still carried out after the end is
signalled.
-/
def delaySlots : Nat :=
  2

/--
The instructions stored in a byte string; bytes that fill no instruction are
left out.
-/
def instructions (code : Bytes) : List Nat :=
  (code.chunks instructionSize).filterMap fun chunk =>
    if chunk.length = instructionSize then some chunk.toWord else none

/-- The signal of an instruction, by number. -/
def signal (instruction : Int) : Int :=
  (⟨60, 4⟩ : BitSpan).read instruction

/-- Whether an instruction signals the end of the program. -/
def signalsEnd (instruction : Nat) : Bool :=
  signal instruction == 3

/--
The number of instructions in a window; bytes that fill no instruction are left
out.
-/
def count (code : Window) : Nat :=
  code.size / instructionSize

/-- The instruction at an index of a window. -/
def instructionAt
    (code : Window)
    (index : Nat) : Nat :=
  (code.slice (instructionSize * index)
    (instructionSize * index + instructionSize)).toBytes.toWord

/--
Whether the instruction at an index signals the end; the signal is in its last
byte.
-/
def endsAt
    (code : Window)
    (index : Nat) : Bool :=
  code.byteAt (instructionSize * index + (instructionSize - 1)) >>> 4 == 3

/-- The signal of a stored instruction is the upper half of its last byte. -/
theorem signalsEnd_toWord
    {stored : Bytes}
    (whole : stored.length = instructionSize)
    {last : UInt8}
    (isLast : stored[instructionSize - 1]? = some last) :
    signalsEnd stored.toWord = (last >>> 4 == 3) := by
  match stored, whole, isLast with
  | [b0, b1, b2, b3, b4, b5, b6, b7], _, isLast =>
      obtain rfl : b7 = last := by simpa [instructionSize] using isLast
      have value :
          signal ((Bytes.toWord [b0, b1, b2, b3, b4, b5, b6, b7] : Nat) : Int) =
            ((b7.toNat / 16 : Nat) : Int) := by
        have := b0.toNat_lt
        have := b1.toNat_lt
        have := b2.toNat_lt
        have := b3.toNat_lt
        have := b4.toNat_lt
        have := b5.toNat_lt
        have := b6.toNat_lt
        have := b7.toNat_lt
        simp only [signal, BitSpan.read_eq_emod, Bytes.toWord]
        omega
      have upper : (b7 >>> 4).toNat = b7.toNat / 16 := by
        simp [UInt8.toNat_shiftRight, Nat.shiftRight_eq_div_pow]
      rw [signalsEnd, value, Bool.eq_iff_iff, beq_iff_eq, beq_iff_eq,
        ← UInt8.toNat_inj, upper]
      simp only [UInt8.reduceToNat]
      omega

/-- The last byte of an instruction tells whether it signals the end. -/
theorem endsAt_eq_signalsEnd
    {code : Window}
    {index : Nat}
    (inside : index < count code) :
    endsAt code index = signalsEnd (instructionAt code index) := by
  have fits : instructionSize * index + instructionSize ≤ code.size := by
    simp only [count, instructionSize] at *
    omega
  have bytes : (code.slice (instructionSize * index)
      (instructionSize * index + instructionSize)).toBytes =
      (code.toBytes.take (instructionSize * index + instructionSize)).drop
        (instructionSize * index) := by
    simp [Window.slice]
  rw [instructionAt, bytes, signalsEnd_toWord ?_ ?_, endsAt]
  · simp only [List.length_drop, List.length_take, Window.length_toBytes]
    omega
  · rw [List.getElem?_drop,
      List.getElem?_take_of_lt (by simp only [instructionSize]; omega),
      ← Window.byte?_eq_getElem?,
      Window.byte?_eq_some_byteAt (by simp only [instructionSize] at *; omega)]

/--
The index of the first instruction, `index` or later, that signals the end.
-/
def endFrom?
    (code : Window)
    (index : Nat) : Option Nat :=
  if index < count code then
    if endsAt code index then some index else endFrom? code (index + 1)
  else
    none
termination_by count code - index

/-- How far a program extends. -/
structure Extent where
  /-- The number of bytes. -/
  size : Nat
  /-- Whether the end is signalled. -/
  found : Bool
deriving DecidableEq

/--
The extent of the program at the start of a window; without an end it takes all
of it.
-/
def extent (code : Window) : Extent :=
  match endFrom? code 0 with
  | some index =>
      ⟨instructionSize * min (index + 1 + delaySlots) (count code), true⟩
  | none => ⟨instructionSize * count code, false⟩

/-- The text of an instruction, given its address. -/
abbrev Disassembler :=
  Int → Int → String

/-- The name of the signal of an instruction. -/
def signalName (instruction : Int) : String :=
  (Enumeration.signal.members[(signal instruction).toNat]?.getD "").toLower

/-- The instruction as a word, with its signal. -/
def disassemble : Disassembler :=
  fun instruction _ =>
    Hexadecimal.padded 16 instruction ++ " sig " ++ signalName instruction

end Shader

end VideoCore
