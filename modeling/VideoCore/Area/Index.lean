import Mathlib.Data.List.Basic
import VideoCore.Area.Registry
import VideoCore.Area.Request

namespace VideoCore

/-!
# The index of a registry

A registry that has grown large finds its areas by their hash.  It keeps the
list of the areas and, beside it, the position of every area in a hash map.
Requests work on both, step by step, and what they have done stays done if they
fail.
-/

/-- A registry with an index. -/
structure IndexedRegistry where
  /-- The areas in the order of their first request. -/
  areas : Registry
  /-- The position of every area. -/
  index : Std.HashMap Area Nat

namespace IndexedRegistry

/-- A registry before any request. -/
def empty : IndexedRegistry :=
  ⟨[], ∅⟩

/-- Whether an area is registered, as far as the index tells. -/
def contains
    (registry : IndexedRegistry)
    (area : Area) : Bool :=
  registry.index.contains area

end IndexedRegistry

namespace TypeReference

/-- The number of the type. -/
def number : TypeReference → Int
  | .named type => type.number
  | .numbered number => number

/-- The name of the type. -/
def name : TypeReference → Except Fault String
  | .named type => .ok type.name
  | .numbered _ => .error .noAttribute

end TypeReference

/-- What requests work on. -/
structure RequestState where
  registry : IndexedRegistry
  /-- The entries that have been listed on the way. -/
  entries : List Entry

/-- A request in progress; the state is kept also if it fails. -/
abbrev Requesting := ExceptT Fault (StateM RequestState)

namespace Requesting

/-- List an entry. -/
def list (entry : Entry) : Requesting Unit :=
  modify fun state => { state with entries := state.entries ++ [entry] }

/--
The position of an area, which is registered if the index does not have it.
-/
def enter (area : Area) : Requesting Nat := do
  let registry := (← get).registry
  match registry.index[area]? with
  | some position => return position
  | none =>
      let position := registry.areas.length
      let index := registry.index.insert area position
      modify fun state =>
        { state with registry := { state.registry with index := index } }
      let areas := registry.areas ++ [area]
      modify fun state =>
        { state with registry := { state.registry with areas := areas } }
      return position

/-- Register an area given in full; the type is checked before the address. -/
def addSized
    (memory : Memory)
    (type paddr size primMode attributes : Int)
    (extended : Bool) : Requesting Nat := do
  let type ← AreaType.ofNumber type
  let area : Area := ⟨type, paddr, size, primMode, attributes, extended⟩
  let _ ← memory.regionEnd paddr
  enter area

/-- Register an area to the end of its buffer. -/
def addToEnd
    (memory : Memory)
    (type paddr primMode attributes : Int)
    (extended : Bool) : Requesting Nat := do
  let stop ← memory.regionEnd paddr
  addSized memory type paddr (stop - paddr) primMode attributes extended

/-- Register a list of packets. -/
def addSubList
    (memory : Memory)
    (paddr primMode : Int) : Requesting Nat :=
  addToEnd memory AreaType.subList.number paddr primMode 0 false

/-- Register a list of compressed index data. -/
def addCompressedList
    (memory : Memory)
    (paddr primMode : Int) : Requesting Nat :=
  addToEnd memory AreaType.compressedList.number paddr primMode 0 false

/-- Register a shader record; the encoding is checked before the address. -/
def addShaderRecord
    (memory : Memory)
    (paddr attributes : Int)
    (extended : Bool) : Requesting Nat := do
  let size ← sizeOfShaderRecord attributes extended
  addSized memory AreaType.shaderRecord.number paddr size unsetPrimMode
    attributes extended

/--
Register a program, as far as it extends; a missing end is listed under the
type's name.
-/
def addProgram
    (memory : Memory)
    (type : TypeReference)
    (paddr : Int) : Requesting Nat := do
  let stop ← memory.regionEnd paddr
  let code ← memory.view paddr (some stop)
  let extent := Shader.extent code
  if !extent.found then
    let name ← type.name
    list ⟨some paddr, Entry.missingProgramEnd, .text name, .error⟩
  addSized memory type.number paddr extent.size unsetPrimMode 0 false

end Requesting

namespace AreaRequest

/-- Carry out a request on a registry with an index. -/
def enter (memory : Memory) : AreaRequest → Requesting Nat
  | .sized type paddr size primMode attributes extended =>
      Requesting.addSized memory type paddr size primMode attributes extended
  | .toEnd type paddr primMode attributes extended =>
      Requesting.addToEnd memory type paddr primMode attributes extended
  | .subList paddr primMode =>
      Requesting.addSubList memory paddr primMode
  | .compressedList paddr primMode =>
      Requesting.addCompressedList memory paddr primMode
  | .shaderRecord paddr attributes extended =>
      Requesting.addShaderRecord memory paddr attributes extended
  | .program type paddr =>
      Requesting.addProgram memory type paddr

end AreaRequest

namespace RequestState

/-- The state before any request. -/
def empty : RequestState :=
  ⟨.empty, []⟩

/-- Answer a request: with the position of the area, or with what is wrong. -/
def answer
    (memory : Memory)
    (state : RequestState)
    (request : AreaRequest) : Except Fault Nat × RequestState :=
  ((request.enter memory).run).run state

/-- The state after some requests, whether they succeed or not. -/
def answerAll
    (memory : Memory)
    (state : RequestState)
    (requests : List AreaRequest) : RequestState :=
  requests.foldl
    (fun current request => (answer memory current request).2) state

end RequestState

end VideoCore
