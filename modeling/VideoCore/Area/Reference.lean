import VideoCore.Area.Basic
import VideoCore.Memory.Basic

namespace VideoCore.Memory

/-!
# References to areas

A reference becomes an area only if it leads into captured memory.  Lists
extend to the end of the buffer they begin in.
-/

/-- An area of a given size, at a mapped address. -/
def sizedArea
    (memory : Memory)
    (type : AreaType)
    (paddr size : Int) : Except Fault Area := do
  let _ ← memory.regionEnd paddr
  .ok ⟨type, paddr, size, unsetPrimMode, 0, false⟩

/-- An area that extends to the end of its buffer. -/
def areaToEnd
    (memory : Memory)
    (type : AreaType)
    (paddr primMode : Int) : Except Fault Area := do
  let stop ← memory.regionEnd paddr
  .ok ⟨type, paddr, stop - paddr, primMode, 0, false⟩

/-- A list of packets. -/
def subListAt
    (memory : Memory)
    (paddr primMode : Int) : Except Fault Area :=
  memory.areaToEnd .subList paddr primMode

/-- A list of compressed index data. -/
def compressedListAt
    (memory : Memory)
    (paddr primMode : Int) : Except Fault Area :=
  memory.areaToEnd .compressedList paddr primMode

/-- A shader record; the encoding is checked before the address. -/
def shaderRecordAt
    (memory : Memory)
    (paddr attributes : Int)
    (extended : Bool) : Except Fault Area := do
  let size ← sizeOfShaderRecord attributes extended
  let area ← memory.sizedArea .shaderRecord paddr size
  .ok { area with attributes := attributes, extended := extended }

/--
Any area at a mapped address, its type given by number; the number is checked
first.
-/
def numberedArea
    (memory : Memory)
    (type paddr size primMode attributes : Int)
    (extended : Bool) : Except Fault Area := do
  let type ← AreaType.ofNumber type
  let area ← memory.sizedArea type paddr size
  .ok
    { area with
      primMode := primMode, attributes := attributes, extended := extended }

/--
An area to the end of its buffer, its type given by number; the address is
checked first.
-/
def numberedAreaToEnd
    (memory : Memory)
    (type paddr primMode attributes : Int)
    (extended : Bool) : Except Fault Area := do
  let stop ← memory.regionEnd paddr
  memory.numberedArea type paddr (stop - paddr) primMode attributes extended

end VideoCore.Memory
