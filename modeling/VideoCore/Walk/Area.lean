import VideoCore.Shader.Walk
import VideoCore.Walk.List

namespace VideoCore.Walk

/-!
# Walks over areas

An area is walked according to its type.  Areas other than lists are reported
as a whole if they are not fully captured.
-/

/-- The list that an area holds, beginning with some phase. -/
def listRegion
    (area : Area)
    (phase : Phase) : ListRegion where
  start := area.paddr
  stop := area.stop
  isRender := true
  primMode := area.primMode
  phase := phase

/-- Walk an area; only a list leaves a cursor. -/
def area
    (memory : Memory)
    (text : Shader.Disassembler)
    (area : Area) : Traced (Option Cursor) :=
  match area.type with
  | .subList => list memory (listRegion area .packets)
  | .compressedList => list memory (listRegion area .forms)
  | .shaderRecord =>
      Traced.reportingUncaptured memory area.paddr none
        (do
          let _ ← Shader.walkRecord memory area
          return none)
  | _ =>
      Traced.reportingUncaptured memory area.paddr none
        (do
          Shader.walkProgram memory text area
          return none)

end VideoCore.Walk
