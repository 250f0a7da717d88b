import VideoCore.Fault
import VideoCore.Memory.Window

namespace VideoCore

/-!
# Hexadecimal dumps

A dump shows a byte string in lines of equal length: address, bytes in columns
of eight, and the printable characters.  In an abbreviated dump a run of lines
equal to the line before it is shown as one line with a star.
-/

/-- How a dump is laid out. -/
structure HexdumpStyle where
  /-- The address of the first byte. -/
  start : Int
  /-- Whether repeated lines are left out. -/
  abbreviate : Bool
  /-- The number of bytes of a line. -/
  stride : Nat
  /-- What stands in front of every line. -/
  indent : String

namespace Hexdump

/-- Sixteen bytes to a line, repeated lines left out. -/
def standardStyle (start : Int) : HexdumpStyle :=
  ⟨start, true, 16, ""⟩

/-- A text filled with spaces to a width. -/
def fillRight
    (width : Nat)
    (text : String) : String :=
  text ++ String.ofList (List.replicate (width - text.length) ' ')

/-- A printable character, or a point in its place. -/
def printable (byte : UInt8) : Char :=
  if 0x20 ≤ byte ∧ byte ≤ 0x7e then Char.ofNat byte.toNat else '.'

/-- The number of bytes of a column. -/
def columnSize : Nat :=
  8

/-- The columns of a line, as many as a full line has. -/
def columns
    (stride : Nat)
    (chunk : Bytes) : List String :=
  let shown := (chunk.chunks columnSize).map (Hexadecimal.bytes " ")
  let count := (stride + columnSize - 1) / columnSize
  (shown ++ List.replicate (count - shown.length) "").map (fillRight 23)

/-- The address at the head of a line. -/
def addressText
    (style : HexdumpStyle)
    (offset : Nat) : String :=
  style.indent ++ Hexadecimal.padded 8 (style.start + offset)

/-- The line of a chunk. -/
def chunkLine
    (style : HexdumpStyle)
    (offset : Nat)
    (chunk : Window) : String :=
  let bytes := chunk.toBytes
  addressText style offset ++ "  " ++
    "  ".intercalate (columns style.stride bytes) ++
    "  |" ++ fillRight style.stride (String.ofList (bytes.map printable)) ++ "|"

/-- The line that stands for chunks left out. -/
def skipLine
    (style : HexdumpStyle)
    (offset : Nat) : String :=
  addressText style offset ++ "  *"

/-- The lines of all chunks, the first of which has the given offset. -/
def plainLines
    (style : HexdumpStyle)
    (offset : Nat) :
    List Window → List String
  | [] => []
  | chunk :: rest =>
      chunkLine style offset chunk ::
        plainLines style (offset + style.stride) rest

/-- What the next line of an abbreviated dump depends on. -/
structure Progress where
  /-- The chunk that was printed last. -/
  last : Option Window
  /-- Whether a star stands for the chunks after it. -/
  skipping : Bool

/-- The lines of an abbreviated dump. -/
def abbreviatedLines
    (style : HexdumpStyle)
    (progress : Progress)
    (offset : Nat) : List Window → List String
  | [] => []
  | chunk :: rest =>
      if progress.last.any chunk.shows then
        let others :=
          abbreviatedLines style { progress with skipping := true }
            (offset + style.stride) rest
        if progress.skipping then others else skipLine style offset :: others
      else
        chunkLine style offset chunk ::
          abbreviatedLines style ⟨some chunk, false⟩
            (offset + style.stride) rest

/-- The lines of a dump. -/
def lines
    (style : HexdumpStyle)
    (window : Window) : List String :=
  let chunks := window.chunks style.stride
  if style.abbreviate then
    abbreviatedLines style ⟨none, false⟩ 0 chunks
  else
    plainLines style 0 chunks

/--
The lines of a dump for any stride: zero is refused, a negative one gives no
lines.
-/
def linesWithStride
    (start : Int)
    (abbreviate : Bool)
    (stride : Int)
    (indent : String)
    (bytes : Bytes) : Except Fault (List String) :=
  if stride = 0 then
    .error .badValue
  else
    .ok (lines ⟨start, abbreviate, stride.toNat, indent⟩ (.ofBytes bytes))

end Hexdump

end VideoCore
