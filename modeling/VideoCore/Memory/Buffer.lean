import VideoCore.Memory.Window
import VideoCore.Text.Hexadecimal

namespace VideoCore

/-!
# Captured buffers
-/

/-- One captured buffer: where it lies in physical memory, and its contents. -/
structure Buffer where
  handle : Int
  paddr : Int
  contents : Array UInt8
  /--
  The place in the container that the buffer was read from, if it was read.
  -/
  index : Option Nat
deriving DecidableEq

namespace Buffer

/-- The number of captured bytes. -/
def size (buffer : Buffer) : Nat :=
  buffer.contents.size

/-- The captured bytes. -/
def bytes (buffer : Buffer) : Bytes :=
  buffer.contents.toList

/-- The window of all captured bytes. -/
def window (buffer : Buffer) : Window :=
  .ofArray buffer.contents

/-- The address after the last byte. -/
def stop (buffer : Buffer) : Int :=
  buffer.paddr + buffer.size

/-- Whether the buffer covers an address. -/
def contains
    (buffer : Buffer)
    (addr : Int) : Bool :=
  buffer.paddr ≤ addr && addr < buffer.stop

/-- The first and the last address. -/
def rangeText (buffer : Buffer) : String :=
  "0x" ++ Hexadecimal.padded 8 buffer.paddr ++
    "..0x" ++ Hexadecimal.padded 8 (buffer.stop - 1)

/-- The buffer with its index and its addresses. -/
def describe (buffer : Buffer) : String :=
  "BufferObject(#" ++ (buffer.index.map toString).getD "None" ++ ", " ++
    buffer.rangeText ++ ")"

end Buffer

end VideoCore
