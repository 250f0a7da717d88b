import VideoCore.Register.Basic

namespace VideoCore

/-!
# The registers of the GPU

The bitfields of control list packets, of compressed index data, of shader
records and of shader instructions.
-/

namespace Enumeration

/-- The buffer that a tile is stored to or loaded from. -/
def tileBuffer : Enumeration :=
  ⟨"TileBuffer", ["NONE", "COLOR", "ZS", "Z", "VGMASK", "FULL", "RESERVED_6",
    "RESERVED_7"]⟩

/-- The layout of an image in memory. -/
def tiling : Enumeration :=
  ⟨"Tiling", ["LINEAR", "T", "LT", "RESERVED"]⟩

/-- The pixel format that a tile is stored in. -/
def storeFormat : Enumeration :=
  ⟨"StoreFormat", ["RGBA8888", "BGR565_DITHER", "BGR565", "RESERVED"]⟩

/-- The pixel format that is rendered to. -/
def renderFormat : Enumeration :=
  ⟨"RenderFormat", ["BGR565_DITHERED", "RGBA8888", "BGR565", "RESERVED"]⟩

/-- The comparison of the depth test. -/
def depthFunc : Enumeration :=
  ⟨"DepthFunc",
    ["NEVER", "LESS", "EQUAL", "LEQUAL", "GREATER", "NOTEQUAL", "GEQUAL",
      "ALWAYS"]⟩

/-- The primitives that a draw call assembles. -/
def primitiveMode : Enumeration :=
  ⟨"GLPrimitiveMode",
    ["POINTS", "LINES", "LINE_LOOP", "LINE_STRIP", "TRIANGLES",
      "TRIANGLE_STRIP", "TRIANGLE_FAN", "RESERVED_7", "RESERVED_8",
      "RESERVED_9", "RESERVED_10", "RESERVED_11", "RESERVED_12", "RESERVED_13",
      "RESERVED_14", "RESERVED_15"]⟩

/-- The signal of a shader instruction. -/
def signal : Enumeration :=
  ⟨"QPUSig",
    ["BREAK", "NONE", "THREAD_SWITCH", "PROG_END", "WAIT_FOR_SCOREBOARD",
      "SCOREBOARD_UNLOCK", "LAST_THREAD_SWITCH", "COVERAGE_LOAD", "COLOR_LOAD",
      "COLOR_LOAD_END", "LOAD_TMU0", "LOAD_TMU1", "ALPHA_MASK_LOAD",
      "SMALL_IMM", "LOAD_IMM", "BRANCH"]⟩

end Enumeration

namespace FieldShape

/-- A run of bits that holds a number. -/
def bits (high low : Int) : FieldShape :=
  .range high low .unsigned

/-- A run of bits that holds a number in two's complement. -/
def signedBits (high low : Int) : FieldShape :=
  .range high low (.signed (high + 1 - low))

/-- A run of bits that holds a member of an enumeration. -/
def named
    (high low : Int)
    (type : Enumeration) : FieldShape :=
  .range high low (.enumeration type)

end FieldShape

namespace RegisterClass

/-- The class of registers of one width, without fields. -/
def ofWidth
    (name : String)
    (width : Int) : RegisterClass :=
  root.extend name (some width) []

/-- Registers of one byte. -/
def byte : RegisterClass :=
  ofWidth "Register8" 8

/-- Registers of two bytes. -/
def half : RegisterClass :=
  ofWidth "Register16" 16

/-- Registers of three bytes. -/
def triple : RegisterClass :=
  ofWidth "Register24" 24

/-- Registers of four bytes. -/
def word : RegisterClass :=
  ofWidth "Register32" 32

/-- Registers of eight bytes. -/
def double : RegisterClass :=
  ofWidth "Register64" 64

/-- A class of the control lists with fields of its own. -/
def withFields
    (base : RegisterClass)
    (name : String)
    (fields : List (String × FieldShape)) : RegisterClass :=
  { base.extend name none
      (fields.map fun (field, shape) => (field, some shape)) with
    home := "vc4dump.packets" }

/-- A class as part of the shaders. -/
def ofShaders (type : RegisterClass) : RegisterClass :=
  { type with home := "vc4dump.shader" }

/-- The format of primitive lists. -/
def primitiveListFormat : RegisterClass :=
  byte.withFields "PrimitiveListFormat" [
    ("DATA_TYPE", .bits 7 4),
    ("TYPE", .bits 3 0)]

/-- The target of a full resolution load or store. -/
def fullResolutionAddress : RegisterClass :=
  { word.withFields "LoadStoreFullResAddr" [
      ("ADDR", .bits 31 4),
      ("EOF", .bit 3),
      ("DISABLE_CLEAR_ALL", .bit 2),
      ("DISABLE_ZS", .bit 1),
      ("DISABLE_COLOR", .bit 0)] with
    derived := [("address", .alignedAddress)] }

/-- What a general load or store moves. -/
def tileBufferBits : RegisterClass :=
  half.withFields "TileBufferGeneralBits" [
    ("FORMAT", .named 9 8 .storeFormat),
    ("DISABLE_DOUBLE_BUFFER_SWAP", .bit 6),
    ("TILING", .named 5 4 .tiling),
    ("BUFFER", .named 2 0 .tileBuffer)]

/-- The target of a general load or store. -/
def tileBufferAddress : RegisterClass :=
  { word.withFields "TileBufferGeneralAddr" [
      ("ADDR", .bits 31 4),
      ("EOF", .bit 3),
      ("DISABLE_VGMASK", .bit 2),
      ("DISABLE_ZS", .bit 1),
      ("DISABLE_COLOR", .bit 0)] with
    derived := [("address", .alignedAddress)] }

/-- The mode of a draw call. -/
def drawMode : RegisterClass :=
  byte.withFields "GLIndexedMode" [
    ("INDEX_16BIT", .bit 4),
    ("MODE", .named 3 0 .primitiveMode)]

/-- The place of a shader record and the number of its attributes. -/
def shaderStateAddress : RegisterClass :=
  { word.withFields "GLShaderStateAddr" [
      ("ADDR", .bits 31 4),
      ("EXTENDED", .bit 3),
      ("ATTRIBUTE_COUNT", .bits 2 0)] with
    derived :=
      [("address", .alignedAddress),
        ("attributes", .countOrEight "ATTRIBUTE_COUNT")] }

/-- The state of the fixed-function pipeline. -/
def configurationBits : RegisterClass :=
  triple.withFields "ConfigurationBits" [
    ("EARLY_Z_UPDATE", .bit 17),
    ("EARLY_Z", .bit 16),
    ("Z_UPDATE", .bit 15),
    ("DEPTH_FUNC", .named 14 12 .depthFunc),
    ("COVERAGE_READ_LEAVE", .bit 11),
    ("COVERAGE_UPDATE", .bits 10 9),
    ("COVERAGE_PIPE_SELECT", .bit 8),
    ("RASTERIZER_OVERSAMPLE", .bits 7 6),
    ("AA_POINTS_AND_LINES", .bit 4),
    ("ENABLE_DEPTH_OFFSET", .bit 3),
    ("CW_PRIMITIVES", .bit 2),
    ("ENABLE_PRIM_BACK", .bit 1),
    ("ENABLE_PRIM_FRONT", .bit 0)]

/-- The flags of a binning pass. -/
def tileBinningFlags : RegisterClass :=
  byte.withFields "TileBinningFlags" [
    ("DOUBLE_BUFFER", .bit 7),
    ("ALLOC_BLOCK_SIZE", .bits 6 5),
    ("ALLOC_INITIAL_BLOCK_SIZE", .bits 4 3),
    ("AUTO_INIT_TSDA", .bit 2),
    ("TILE_BUFFER_64BIT", .bit 1),
    ("MS_MODE_4X", .bit 0)]

/-- The flags of a rendering pass. -/
def tileRenderingFlags : RegisterClass :=
  half.withFields "TileRenderingFlags" [
    ("DOUBLE_BUFFER", .bit 12),
    ("EARLY_Z_DISABLE", .bit 11),
    ("EARLY_Z_DIRECTION_GE", .bit 10),
    ("COVERAGE_MODE", .bit 9),
    ("ENABLE_VG_MASK", .bit 8),
    ("TILING", .named 7 6 .tiling),
    ("DECIMATE", .bits 5 4),
    ("FORMAT", .named 3 2 .renderFormat),
    ("TILE_BUFFER_64BIT", .bit 1),
    ("MS_MODE_4X", .bit 0)]

/-- The head of an absolute index with two relative ones. -/
def absoluteRelativeHeader : RegisterClass :=
  half.withFields "CompressedAbsRelHeader" [
    ("DELTA2", .signedBits 11 8),
    ("DELTA1", .signedBits 7 4),
    ("TAG", .bits 3 0)]

/-- Three relative indices. -/
def threeRelativeHeader : RegisterClass :=
  half.withFields "CompressedRel3Header" [
    ("DELTA2", .signedBits 15 12),
    ("DELTA1", .signedBits 11 8),
    ("DELTA0", .signedBits 7 4),
    ("TAG", .bits 1 0)]

/--
One relative index; the new triangle shares two vertices with earlier ones.
-/
def oneRelativeHeader : RegisterClass :=
  byte.withFields "CompressedRel1Header" [
    ("DELTA", .signedBits 7 2),
    ("SHARE", .bits 1 0)]

/-- The flags of a shader record. -/
def shaderRecordFlags : RegisterClass :=
  ofShaders <| half.withFields "GLShaderRecFlags" [
    ("CLIPPING_ENABLE", .bit 2),
    ("POINT_SIZE_INCLUDED", .bit 1),
    ("FS_SINGLE_THREAD", .bit 0)]

/-- A shader instruction; only its signal is decoded. -/
def instruction : RegisterClass :=
  ofShaders <| double.withFields "QPUInstruction" [
    ("SIG", .named 63 60 .signal)]

/-- Every register class of the GPU, with the classes they extend. -/
def all : List RegisterClass :=
  [root, byte, half, triple, word, double, primitiveListFormat,
    fullResolutionAddress, tileBufferBits, tileBufferAddress, drawMode,
    shaderStateAddress, configurationBits, tileBinningFlags, tileRenderingFlags,
    absoluteRelativeHeader, threeRelativeHeader, oneRelativeHeader,
    shaderRecordFlags, instruction]

end RegisterClass

end VideoCore
