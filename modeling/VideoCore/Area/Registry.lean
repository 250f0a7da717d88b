import VideoCore.Area.Basic

namespace VideoCore

/-!
# The registry of areas

Areas in the order of their first request, each of them once.
-/

/-- The known areas, in the order of discovery. -/
abbrev Registry := List Area

namespace Registry

/-- Add an area unless it is known. -/
def add
    (registry : Registry)
    (area : Area) : Registry :=
  if registry.contains area then registry else registry ++ [area]

/-- Add several areas, one after the other. -/
def addAll
    (registry : Registry)
    (areas : List Area) : Registry :=
  areas.foldl add registry

/-- The position of an area. -/
def position?
    (registry : Registry)
    (area : Area) : Option Nat :=
  registry.findIdx? (· == area)

/-- The area at an index; a negative index counts back from the end. -/
def at?
    (registry : Registry)
    (index : Int) : Except Fault Area :=
  match (Bytes.position? registry.length index).bind (registry[·]?) with
  | some area => .ok area
  | none => .error .outsideData

end Registry

end VideoCore
