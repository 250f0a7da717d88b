import VideoCore.Report.Unresolved
import VideoCore.Walk.Run

namespace VideoCore.Walk

/-!
# Walks over lists

A list is walked from its start to its end, but never past the end of the
buffer it begins in.  A reference that leads nowhere ends the walk and is
reported at the cursor.
-/

/-- A list to be walked. -/
structure ListRegion where
  start : Int
  stop : Int
  /-- Whether the list belongs to rendering rather than to binning. -/
  isRender : Bool
  /-- The format of compressed primitives that is in force at the start. -/
  primMode : Int
  /-- What the list begins with. -/
  phase : Phase

/-- The message about a list that extends past the end of its buffer. -/
def clampEvent
    (region : ListRegion)
    (limit : Int) : Event :=
  .log ("List at 0x" ++ Hexadecimal.padded 8 region.start ++
    " ends at 0x" ++ Hexadecimal.padded 8 region.stop ++
    ", past its BO; stopping at 0x" ++ Hexadecimal.padded 8 limit)

/-- The messages that a walk begins with. -/
def clampEvents
    (region : ListRegion)
    (limit : Int) : List Event :=
  if limit < region.stop then [clampEvent region limit] else []

/-- What a run over a list reports in the end, and the cursor it leaves. -/
def conclude
    (memory : Memory)
    (progress : Progress) : Traced (Option Cursor) :=
  Traced.reportingUncaptured memory progress.cursor.addr (some progress.cursor)
    ⟨progress.events, progress.outcome.map fun _ => some progress.cursor⟩

/-- Walk a list in a buffer that ends at `limit`. -/
def listWithin
    (memory : Memory)
    (region : ListRegion)
    (limit : Int) : Traced (Option Cursor) := do
  let stop := min region.stop limit
  Traced.emit (clampEvents region limit)
  let window ← Traced.ofExcept (memory.view region.start (some stop))
  let cursor :=
    Cursor.atStart region.start stop window region.isRender region.primMode
  conclude memory (run memory region.phase cursor)

/-- Walk a list; no cursor is left if its start is in no buffer. -/
def list
    (memory : Memory)
    (region : ListRegion) : Traced (Option Cursor) :=
  match memory.regionEnd region.start with
  | .error fault => ⟨memory.unresolved region.start fault, .ok none⟩
  | .ok limit => listWithin memory region limit

end VideoCore.Walk
