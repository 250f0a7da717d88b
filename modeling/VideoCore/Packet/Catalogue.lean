import VideoCore.Packet.Basic
import VideoCore.Register.Catalogue

namespace VideoCore

/-!
# The packets of the GPU

The layout of every packet, in the order of the opcodes, and the table that
finds a packet type by its opcode.
-/

namespace Part

/-- An unsigned word, shown in hexadecimal. -/
def word
    (name : String)
    (size : Nat) : Part :=
  .field name (.word size) none

/-- An unsigned word, shown in decimal. -/
def count
    (name : String)
    (size : Nat) : Part :=
  .field name (.count size) none

/-- A two-byte word in two's complement. -/
def signedHalf (name : String) : Part :=
  .field name (.signedWord 2) none

/-- A four-byte floating-point number. -/
def single (name : String) : Part :=
  .field name .single none

/-- A bitfield register. -/
def register
    (name : String)
    (type : RegisterClass) : Part :=
  .field name (.register type) none

/-- A length in pixels, computed from one in sixteenths of a pixel. -/
def pixels
    (name : String)
    (source : String) : Part :=
  .computed name fun fields =>
    match (fields.get? source).bind Value.realBits? with
    | some bits => .ok (.real (sixteenths bits))
    | none => .error .wrongKind

end Part

namespace PacketType

/-- A packet that no type is known for. -/
def unknown : PacketType where
  record := ⟨"UnknownPacket", [.word "opcode" 1]⟩
  name := "UNKNOWN"
  opcode := none
  terminal := false
  compressed := false
  effect := .nothing

/-- End of a list. -/
def halt : PacketType :=
  { plain "HaltPacket" "HALT" 0 [] with terminal := true }

/-- No operation. -/
def nop : PacketType :=
  plain "NopPacket" "NOP" 1 []

/-- Flush the binning state. -/
def flush : PacketType :=
  plain "FlushPacket" "FLUSH" 4 []

/-- Flush all state. -/
def flushAll : PacketType :=
  plain "FlushAllPacket" "FLUSH_ALL" 5 []

/-- Begin binning. -/
def startTileBinning : PacketType :=
  plain "StartTileBinningPacket" "START_TILE_BINNING" 6 []

/-- Raise the semaphore between binning and rendering. -/
def incrementSemaphore : PacketType :=
  plain "IncrementSemaphorePacket" "INCREMENT_SEMAPHORE" 7 []

/-- Wait for the semaphore between binning and rendering. -/
def waitOnSemaphore : PacketType :=
  plain "WaitOnSemaphorePacket" "WAIT_ON_SEMAPHORE" 8 []

/-- Continue at an address and never come back. -/
def branch : PacketType :=
  { plain "BranchPacket" "BRANCH" 16 [.word "addr" 4] with
    terminal := true
    effect := .namesList "addr" }

/-- Run another list and come back. -/
def branchToSubList : PacketType :=
  { plain "BranchToSubListPacket" "BRANCH_TO_SUB_LIST" 17 [.word "addr" 4] with
    effect := .namesList "addr" }

/-- Come back from another list. -/
def returnFromSubList : PacketType :=
  { plain "ReturnFromSubListPacket" "RETURN_FROM_SUB_LIST" 18 [] with
    terminal := true }

/-- Store the multisample tile buffer. -/
def storeMultisample : PacketType :=
  plain "StoreMSTileBufferPacket" "STORE_MS_TILE_BUFFER" 24 []

/-- Store the multisample tile buffer and end the frame. -/
def storeMultisampleAndEnd : PacketType :=
  { plain "StoreMSTileBufferAndEOFPacket" "STORE_MS_TILE_BUFFER_AND_EOF"
      25 [] with
    terminal := true }

/-- Store the tile buffer at full resolution. -/
def storeFullResolution : PacketType :=
  plain "StoreFullResTileBufferPacket" "STORE_FULL_RES_TILE_BUFFER" 26
    [.register "addr" .fullResolutionAddress]

/-- Load the tile buffer at full resolution. -/
def loadFullResolution : PacketType :=
  plain "LoadFullResTileBufferPacket" "LOAD_FULL_RES_TILE_BUFFER" 27
    [.register "addr" .fullResolutionAddress]

/-- Store one of the tile buffers. -/
def storeGeneral : PacketType :=
  plain "StoreTileBufferGeneralPacket" "STORE_TILE_BUFFER_GENERAL" 28
    [.register "bits" .tileBufferBits, .register "addr" .tileBufferAddress]

/-- Load one of the tile buffers. -/
def loadGeneral : PacketType :=
  plain "LoadTileBufferGeneralPacket" "LOAD_TILE_BUFFER_GENERAL" 29
    [.register "bits" .tileBufferBits, .register "addr" .tileBufferAddress]

/-- Draw indexed primitives. -/
def indexedPrimitive : PacketType :=
  plain "GLIndexedPrimitivePacket" "GL_INDEXED_PRIMITIVE" 32
    [.register "mode" .drawMode, .count "length" 4, .word "index_addr" 4,
      .count "max_index" 4]

/-- Draw consecutive primitives. -/
def arrayPrimitive : PacketType :=
  plain "GLArrayPrimitivePacket" "GL_ARRAY_PRIMITIVE" 33
    [.register "mode" .drawMode, .count "length" 4, .count "first_index" 4]

/-- Draw the primitives whose compressed indices follow. -/
def compressedPrimitive : PacketType :=
  { plain "CompressedPrimitivePacket" "COMPRESSED_PRIMITIVE" 48 [] with
    compressed := true }

/-- Draw the clipped primitives whose compressed indices follow. -/
def clippedCompressedPrimitive : PacketType :=
  { plain "ClippedCompressedPrimitivePacket" "CLIPPED_COMPRESSED_PRIMITIVE" 49
      [.word "clip_header" 4] with
    compressed := true }

/-- Set the format of compressed primitives. -/
def setPrimitiveListFormat : PacketType :=
  { plain "PrimitiveListFormatPacket" "PRIMITIVE_LIST_FORMAT" 56
      [.register "format" .primitiveListFormat] with
    effect := .setsFormat "format" }

/-- Use a shader record. -/
def shaderState : PacketType :=
  { plain "GLShaderStatePacket" "GL_SHADER_STATE" 64
      [.register "rec" .shaderStateAddress] with
    effect := .namesShaderRecord "rec" }

/-- Use a shader record without vertex processing. -/
def nativeShaderState : PacketType :=
  plain "NVShaderStatePacket" "NV_SHADER_STATE" 65 [.word "addr" 4]

/-- Use a vector graphics shader record. -/
def vectorShaderState : PacketType :=
  plain "VGShaderStatePacket" "VG_SHADER_STATE" 66 [.word "addr" 4]

/-- Set the state of the fixed-function pipeline. -/
def configuration : PacketType :=
  plain "ConfigurationBitsPacket" "CONFIGURATION_BITS" 96
    [.register "bits" .configurationBits]

/-- Select the varyings that are not interpolated. -/
def flatShadeFlags : PacketType :=
  plain "FlatShadeFlagsPacket" "FLAT_SHADE_FLAGS" 97 [.word "bits" 4]

/-- Set the size of points. -/
def pointSize : PacketType :=
  plain "PointSizePacket" "POINT_SIZE" 98 [.single "size"]

/-- Set the width of lines. -/
def lineWidth : PacketType :=
  plain "LineWidthPacket" "LINE_WIDTH" 99 [.single "width"]

/-- Set the boundary of right-handed triangles. -/
def boundary : PacketType :=
  plain "RHTXBoundaryPacket" "RHT_X_BOUNDARY" 100 [.signedHalf "boundary"]

/-- Set the depth offset. -/
def depthOffset : PacketType :=
  plain "DepthOffsetPacket" "DEPTH_OFFSET" 101
    [.word "factor" 2, .word "units" 2]

/-- Set the clip window. -/
def clipWindow : PacketType :=
  plain "ClipWindowPacket" "CLIP_WINDOW" 102
    [.count "left" 2, .count "bottom" 2, .count "width" 2, .count "height" 2]

/-- Set the origin of the viewport, in sixteenths of a pixel. -/
def viewportOffset : PacketType :=
  plain "ViewportOffsetPacket" "VIEWPORT_OFFSET" 103
    [.signedHalf "x", .signedHalf "y", .pixels "x_px" "x", .pixels "y_px" "y"]

/-- Set the range of depths. -/
def depthClipping : PacketType :=
  plain "ZClippingPacket" "Z_CLIPPING" 104 [.single "min_z", .single "max_z"]

/-- Set the scale of the clipper, in sixteenths of a pixel. -/
def clipperScaling : PacketType :=
  plain "ClipperXYScalingPacket" "CLIPPER_XY_SCALING" 105
    [.single "x", .single "y", .pixels "x_px" "x", .pixels "y_px" "y"]

/-- Set the depth scale of the clipper. -/
def clipperDepthScaling : PacketType :=
  plain "ClipperZScalingPacket" "CLIPPER_Z_SCALING" 106
    [.single "translate", .single "scale"]

/-- Set up a binning pass. -/
def binningConfig : PacketType :=
  plain "TileBinningModeConfigPacket" "TILE_BINNING_MODE_CONFIG" 112
    [.word "tile_alloc_addr" 4, .word "tile_alloc_size" 4,
      .word "tile_state_addr" 4, .count "width_tiles" 1,
      .count "height_tiles" 1,
      .register "flags" .tileBinningFlags]

/-- Set up a rendering pass. -/
def renderingConfig : PacketType :=
  plain "TileRenderingModeConfigPacket" "TILE_RENDERING_MODE_CONFIG" 113
    [.word "color_addr" 4, .count "width" 2, .count "height" 2,
      .register "flags" .tileRenderingFlags]

/-- Set the colours that buffers are cleared to. -/
def clearColors : PacketType :=
  plain "ClearColorsPacket" "CLEAR_COLORS" 114
    [.field "color" (.array 2 (.word 4)) none, .word "z" 3, .word "vg_mask" 1,
      .word "stencil" 1]

/-- Select a tile. -/
def tileCoordinates : PacketType :=
  plain "TileCoordinatesPacket" "TILE_COORDINATES" 115
    [.count "column" 1, .count "row" 1]

/-- Every known packet type, in the order of the opcodes. -/
def all : List PacketType :=
  [halt, nop, flush, flushAll, startTileBinning, incrementSemaphore,
    waitOnSemaphore, branch, branchToSubList, returnFromSubList,
    storeMultisample, storeMultisampleAndEnd, storeFullResolution,
    loadFullResolution, storeGeneral, loadGeneral, indexedPrimitive,
    arrayPrimitive, compressedPrimitive, clippedCompressedPrimitive,
    setPrimitiveListFormat, shaderState, nativeShaderState, vectorShaderState,
    configuration, flatShadeFlags, pointSize, lineWidth, boundary, depthOffset,
    clipWindow, viewportOffset, depthClipping, clipperScaling,
    clipperDepthScaling, binningConfig, renderingConfig, clearColors,
    tileCoordinates]

/-- The packet type with an opcode. -/
def find? (opcode : Nat) : Option PacketType :=
  all.find? fun type => type.opcode == some opcode

/-- Every known packet takes some bytes. -/
theorem size_pos_of_mem_all
    {type : PacketType}
    (known : type ∈ all) :
    0 < type.size := by
  have sizes : ∀ candidate ∈ all, 0 < candidate.size := by decide
  exact sizes type known

/-- A packet found by its opcode takes some bytes. -/
theorem size_pos_of_find?
    {opcode : Nat}
    {type : PacketType}
    (found : find? opcode = some type) :
    0 < type.size :=
  size_pos_of_mem_all (List.mem_of_find?_eq_some found)

/-- The number of opcodes up to the last known one. -/
def tableSize : Nat :=
  116

/--
The entry of the table of all opcodes; a negative opcode counts back from its
end.
-/
def lookup (opcode : Int) : Except Fault PacketType :=
  if (tableSize : Int) ≤ opcode then
    .ok unknown
  else
    match Bytes.position? tableSize opcode with
    | some position => .ok ((find? position).getD unknown)
    | none => .error .outsideData

end PacketType

end VideoCore
