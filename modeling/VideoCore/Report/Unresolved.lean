import VideoCore.Memory.Basic
import VideoCore.Report.Event

namespace VideoCore

/-!
# Unresolved references

A reference that leads nowhere is reported at the address it was found at,
with the buffers that were captured.
-/

namespace Fault

/-- The address that a fault is about; places in no buffer have none. -/
def address : Fault → Value
  | .unmapped addr => .integer addr
  | _ => .absent

/-- Whether a fault is an address or place that was not captured. -/
def isUncaptured : Fault → Bool
  | .unmapped _ => true
  | .noSuchLocation _ => true
  | _ => false

end Fault

/-- A message for the user, marked as coming from the decoder. -/
def Event.log (text : String) : Event :=
  .diagnostic ("[HangDump] " ++ text)

/-- The report of a reference at `addr` that leads nowhere. -/
def Memory.unresolved
    (memory : Memory)
    (addr : Int)
    (fault : Fault) : List Event :=
  [.entry ⟨some addr, Entry.unresolved, fault.address, .error⟩,
    .log (fault.message?.getD ""),
    .log memory.describe]

namespace Traced

/--
Report an uncaptured address at `addr` and go on with `fallback`; other faults
stay.
-/
def reportingUncaptured
    {α : Type}
    (memory : Memory)
    (addr : Int)
    (fallback : α)
    (run : Traced α) : Traced α :=
  match run.outcome with
  | .ok _ => run
  | .error fault =>
      if fault.isUncaptured then
        ⟨run.events ++ memory.unresolved addr fault, .ok fallback⟩
      else
        run

end Traced

end VideoCore
