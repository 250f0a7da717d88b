import VideoCore.Packet.Catalogue

namespace VideoCore

/-!
# Records of the snapshot container

The head of the container holds the registers at the time of the hang, the
table behind it one record per captured buffer.
-/

/-- The names of the captured four-byte registers, in order. -/
def stateWords : List String :=
  ["start_bin", "start_render", "ct0ca", "ct0ea", "ct1ca", "ct1ea", "ct0cs",
    "ct1cs", "ct0ra0", "ct1ra0", "bpca", "bpcs", "bpoa", "bpos", "vpmbase",
    "dbge", "fdbgo", "fdbgb", "fdbgr", "fdbgs", "errstat"]

/-- The padding of the head: sixteen zero words. -/
def statePadding : Value :=
  .list (List.replicate 16 (.integer 0))

/-- The head of the container. -/
def hangState : RecordType where
  name := "HangState"
  layout :=
    .field "bo" (.word 8) (some (.integer 0)) ::
      .count "bo_count" 4 ::
      stateWords.map (fun name => .word name 4) ++
      [.field "pad" (.array 16 (.word 4)) (some statePadding)]

/-- An entry of the buffer table. -/
def bufferRecord : RecordType where
  name := "HangStateBO"
  layout :=
    [.count "handle" 4, .word "paddr" 4, .word "size" 4,
      .field "pad" (.word 4) (some (.integer 0))]

/-- A state with every field zero. -/
def initialState : Fields :=
  hangState.layout.filterMap fun part =>
    part.name?.map fun name =>
      (name, if name = "pad" then statePadding else .integer 0)

end VideoCore
