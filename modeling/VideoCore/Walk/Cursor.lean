import VideoCore.Area.Basic
import VideoCore.Memory.Window

namespace VideoCore

/-!
# Cursors

A cursor is a position in a region of memory that is being decoded.  The bytes
of the region are at hand; the end of the region may lie past them.
-/

/-- A position in a region. -/
structure Cursor where
  start : Int
  stop : Int
  addr : Int
  /-- The bytes from `start` on. -/
  window : Window
  isRender : Bool
  /-- The format of compressed primitives that is in force. -/
  primMode : Int

namespace Cursor

/-- A cursor at the start of a region. -/
def atStart
    (start stop : Int)
    (window : Window)
    (isRender : Bool)
    (primMode : Int) : Cursor where
  start := start
  stop := stop
  addr := start
  window := window
  isRender := isRender
  primMode := primMode

/-- The distance from the start of the region. -/
def offset (cursor : Cursor) : Int :=
  cursor.addr - cursor.start

/--
The byte at the position; a position before the start counts back from the end
of the bytes.
-/
def peek (cursor : Cursor) : Except Fault UInt8 :=
  match (Bytes.position? cursor.window.size cursor.offset).bind
      cursor.window.byte? with
  | some byte => .ok byte
  | none => .error .outsideData

/-- Whether `size` bytes from the position on lie in the region. -/
def fits
    (cursor : Cursor)
    (size : Int) : Bool :=
  cursor.addr + size ≤ cursor.stop

/-- The bytes from the position on, up to `size` of them. -/
def take
    (cursor : Cursor)
    (size : Int) : Bytes :=
  let length := cursor.window.size
  (cursor.window.slice
    (Bytes.clampBound length cursor.offset)
    (Bytes.clampBound length (cursor.offset + size))).toBytes

/-- The cursor `size` bytes further on. -/
def advance
    (cursor : Cursor)
    (size : Int) : Cursor :=
  { cursor with addr := cursor.addr + size }

/-- The cursor in one line. -/
def describe (cursor : Cursor) : String :=
  "DecodeCursor(0x" ++ Hexadecimal.padded 8 cursor.start ++
    "..0x" ++ Hexadecimal.padded 8 cursor.stop ++
    " @ 0x" ++ Hexadecimal.padded 8 cursor.addr ++
    ", prim_mode=0x" ++ Hexadecimal.padded 2 cursor.primMode ++ ")"

end Cursor

end VideoCore
