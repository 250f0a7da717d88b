import VideoCore.Area.Sweep
import VideoCore.Snapshot.Container
import VideoCore.Walk.Area

namespace VideoCore

/-!
# Dumps of a hang

A dump lists the registers at the time of the hang, the binning and the
rendering list, and then every area that is reached from them.
-/

/-- A snapshot to be dumped, and how. -/
structure Dump where
  snapshot : Snapshot
  /-- How shader instructions are written. -/
  disassembler : Shader.Disassembler
  /-- Whether every area is dumped byte by byte, too. -/
  hexdumps : Bool

/-- Which optional parts of a dump are wanted. -/
structure DumpParts where
  registers : Bool
  areas : Bool

namespace Dump

/-- A register of the snapshot. -/
def state
    (dump : Dump)
    (name : String) : Value :=
  dump.snapshot.state.get name

/-- The address that a register of the snapshot holds. -/
def address
    (dump : Dump)
    (name : String) : Int :=
  dump.snapshot.state.integer name

/-- The message about bytes after the last buffer. -/
def opening (dump : Dump) : List Event :=
  if dump.snapshot.trailing = 0 then
    []
  else
    [.log ("Ignoring " ++ Hexadecimal.marked dump.snapshot.trailing ++
      " bytes after the last BO")]

/-- The state registers that are listed after those of the two lists. -/
def listedRegisters : List (String × String) :=
  [("V3D_VPMBASE", "vpmbase"), ("V3D_DBGE", "dbge"), ("V3D_FDBGO", "fdbgo"),
    ("V3D_FDBGB", "fdbgb"), ("V3D_FDBGR", "fdbgr"), ("V3D_FDBGS", "fdbgs"),
    ("V3D_ERRSTAT", "errstat")]

/-- The register summary. -/
def registerSummary (dump : Dump) : List Event :=
  [.register "Bin CL" (.tuple [dump.state "start_bin", dump.state "ct0ea"]),
    .register "Bin current" (dump.state "ct0ca"),
    .register "Render CL"
      (.tuple [dump.state "start_render", dump.state "ct1ea"]),
    .register "Render current" (dump.state "ct1ca"),
    .separator] ++
    listedRegisters.map
      (fun (title, name) => .register title (dump.state name)) ++
    [.separator]

/--
A list that the snapshot names by the registers with its start and its end.
-/
def rootRegion
    (dump : Dump)
    (start stop : String)
    (isRender : Bool) : Walk.ListRegion where
  start := dump.address start
  stop := dump.address stop
  isRender := isRender
  primMode := unsetPrimMode
  phase := .packets

/-- Walk a list of the snapshot under a heading. -/
def rootList
    (dump : Dump)
    (title : String)
    (region : Walk.ListRegion) : Traced Unit := do
  Traced.emit
    [.heading (title ++ " at 0x" ++ Hexadecimal.padded 8 region.start)]
  let _ ← Walk.list dump.snapshot.buffers region

/-- Walk the binning list, unless it is empty, and the rendering list. -/
def controlLists (dump : Dump) : Traced Unit := do
  let binning := dump.rootRegion "start_bin" "ct0ea" false
  if binning.start ≠ binning.stop then
    dump.rootList "Bin CL" binning
  dump.rootList "Render CL" (dump.rootRegion "start_render" "ct1ea" true)

/-- The bytes of an area, if they are wanted. -/
def areaBytes
    (dump : Dump)
    (area : Area) : Traced Unit := do
  if dump.hexdumps then
    let window ←
      Traced.ofExcept (dump.snapshot.buffers.view area.paddr (some area.stop))
    Traced.emit [.hexdump (some area.paddr) window]

/-- Walk an area under a heading. -/
def visit
    (dump : Dump)
    (area : Area) : Traced Unit := do
  Traced.emit
    [.separator,
      .heading
        (area.type.name ++ " at 0x" ++ Hexadecimal.padded 8 area.paddr ++ ":")]
  let _ ← Walk.area dump.snapshot.buffers dump.disassembler area
  dump.areaBytes area

/-- Walk the areas of a registry and all areas that are reached from them. -/
def areas
    (dump : Dump)
    (registry : Registry) : Traced Unit := do
  let _ ← registry.sweep dump.snapshot.buffers dump.visit

/-- Produce the wanted parts of a dump, when some areas are known already. -/
def run
    (dump : Dump)
    (registry : Registry)
    (parts : DumpParts) : Traced Unit := do
  let lists := dump.controlLists
  if parts.registers then
    Traced.emit dump.registerSummary
  lists
  if parts.areas then
    dump.areas (registry.addAll (Event.requests lists.events))

end Dump

end VideoCore
