import VideoCore.Shader.Walk

namespace VideoCore

/-!
# Requests for areas

The ways in which an area can be asked for.  A request that fails, because of
its type, its address or its encoding, asks for nothing.
-/

/-- A type as it is handed over. -/
inductive TypeReference
  /-- The type itself. -/
  | named (type : AreaType)
  /-- Its number only, which has no name and need not be one of a type. -/
  | numbered (number : Int)

instance : Coe AreaType TypeReference :=
  ⟨.named⟩

/-- A request for an area. -/
inductive AreaRequest
  /-- An area given in full, its type by number. -/
  | sized (type paddr size primMode attributes : Int) (extended : Bool)
  /-- An area up to the end of its buffer, its type by number. -/
  | toEnd
      (type paddr primMode : Int)
      (attributes : Int := 0)
      (extended : Bool := false)
  | subList (paddr primMode : Int)
  | compressedList (paddr primMode : Int)
  | shaderRecord (paddr attributes : Int) (extended : Bool)
  /-- The program at an address, as far as it extends. -/
  | program (type : TypeReference) (paddr : Int)

namespace AreaRequest

/-- Ask for an area that has been worked out. -/
def grant (area : Except Fault Area) : Traced Area := do
  let area ← Traced.ofExcept area
  Traced.emit [.request area]
  return area

/-- Work out the area that is asked for. -/
def carryOut
    (request : AreaRequest)
    (memory : Memory) : Traced Area :=
  match request with
  | .sized type paddr size primMode attributes extended =>
      grant (memory.numberedArea type paddr size primMode attributes extended)
  | .toEnd type paddr primMode attributes extended =>
      grant (memory.numberedAreaToEnd type paddr primMode attributes extended)
  | .subList paddr primMode =>
      grant (memory.subListAt paddr primMode)
  | .compressedList paddr primMode =>
      grant (memory.compressedListAt paddr primMode)
  | .shaderRecord paddr attributes extended =>
      grant (memory.shaderRecordAt paddr attributes extended)
  | .program (.named type) paddr =>
      Shader.programAt memory type paddr
  | .program (.numbered type) paddr =>
      Shader.numberedProgramAt memory type paddr

end AreaRequest

end VideoCore
