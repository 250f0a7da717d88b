import VideoCore.Area.Registry
import VideoCore.Memory.Basic
import VideoCore.Report.Event

namespace VideoCore

/-!
# Sweeps over the registry

A sweep visits every area of a registry in order, those included that are
requested on the way.  The number of visits is limited; the limit in use is
one that decoding cannot reach, since an address has only so many areas.
-/

/-- How far a sweep has come. -/
structure Sweep where
  registry : Registry
  /-- The areas before this position have been visited. -/
  position : Nat

namespace Sweep

/-- A sweep that has visited nothing yet. -/
def ofRegistry (registry : Registry) : Sweep :=
  ⟨registry, 0⟩

/-- The area that is visited next. -/
def next? (sweep : Sweep) : Option Area :=
  sweep.registry[sweep.position]?

/-- The sweep after a visit that requested some areas. -/
def advance
    (sweep : Sweep)
    (requests : List Area) : Sweep :=
  ⟨sweep.registry.addAll requests, sweep.position + 1⟩

/-- The areas that have been visited. -/
def visited (sweep : Sweep) : List Area :=
  sweep.registry.take sweep.position

/-- Visit the areas that are left, at most `limit` of them. -/
def run (visit : Area → Traced Unit) : (limit : Nat) → Sweep → Traced Sweep
  | 0, sweep => return sweep
  | limit + 1, sweep =>
      match sweep.next? with
      | none => return sweep
      | some area => do
          let found := visit area
          found
          run visit limit (sweep.advance (Event.requests found.events))

end Sweep

namespace Registry

/--
A number of areas that decoding cannot exceed.  Per covered address there are
the lists of packets, one for each of the 256 formats and of those that known
areas begin with, one list of compressed data, eight shader records and three
programs.
-/
def limit
    (registry : Registry)
    (memory : Memory) : Nat :=
  registry.length + (268 + registry.length) * memory.capacity

/-- Visit every area, those included that are requested on the way. -/
def sweep
    (registry : Registry)
    (memory : Memory)
    (visit : Area → Traced Unit) : Traced Sweep :=
  (Sweep.ofRegistry registry).run visit (registry.limit memory)

end Registry

end VideoCore
