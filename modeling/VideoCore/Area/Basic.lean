import VideoCore.Fault

namespace VideoCore

/-!
# Memory areas

What lists and records refer to: shader records, lists of packets or of
compressed index data, and the programs of the three shader stages.
-/

/-- What an area holds. -/
inductive AreaType
  | shaderRecord
  | subList
  | compressedList
  | coordinateShader
  | vertexShader
  | fragmentShader
deriving DecidableEq, Hashable

/-- A memory area. -/
structure Area where
  type : AreaType
  paddr : Int
  size : Int
  /-- The format of compressed primitives that a list begins with. -/
  primMode : Int
  /-- The number of attributes of a shader record. -/
  attributes : Int
  /-- Whether a shader record uses the extended encoding. -/
  extended : Bool
deriving DecidableEq, Hashable

/-- The primitive format of a list before any packet has set one. -/
def unsetPrimMode : Int :=
  0xff

/--
The format of compressed triangles with two-byte indices, the only one that is
decoded.
-/
def trianglesPrimMode : Int :=
  0x12

namespace AreaType

/-- Every type, at the position of its number. -/
def all : List AreaType :=
  [.shaderRecord, .subList, .compressedList, .coordinateShader, .vertexShader,
    .fragmentShader]

/-- The type with a number. -/
def ofNumber (number : Int) : Except Fault AreaType :=
  if number < 0 then
    .error .badValue
  else
    (all[number.toNat]?).elim (.error .badValue) .ok

/-- The number of a type. -/
def number (type : AreaType) : Int :=
  all.idxOf type

/-- What a listing calls the type. -/
def name : AreaType → String
  | .shaderRecord => "GL_SHADER_REC"
  | .subList => "SUB_LIST"
  | .compressedList => "COMPRESSED_PRIM_LIST"
  | .coordinateShader => "CS"
  | .vertexShader => "VS"
  | .fragmentShader => "FS"

/-- Whether areas of the type hold shader programs. -/
def isCode : AreaType → Bool
  | .coordinateShader => true
  | .vertexShader => true
  | .fragmentShader => true
  | _ => false

end AreaType

namespace Area

/-- The address after the area. -/
def stop (area : Area) : Int :=
  area.paddr + area.size

/-- The area in one line. -/
def describe (area : Area) : String :=
  let range :=
    area.type.name ++ " 0x" ++ Hexadecimal.padded 8 area.paddr ++
      "..0x" ++ Hexadecimal.padded 8 area.stop
  let mode :=
    if area.primMode = unsetPrimMode then
      ""
    else
      " prim_mode 0x" ++ Hexadecimal.padded 2 area.primMode
  let record :=
    if area.type = .shaderRecord then
      " attributes " ++ toString area.attributes ++
        (if area.extended then " extended" else "")
    else
      ""
  range ++ mode ++ record

end Area

/-- The number of bytes of a shader record without attributes. -/
def shaderRecordSize : Int :=
  36

/-- The number of bytes of an attribute of a shader record. -/
def shaderAttributeSize : Int :=
  8

/-- The number of bytes of a shader record. -/
def sizeOfShaderRecord
    (attributes : Int)
    (extended : Bool) : Except Fault Int :=
  if extended then
    .error .extendedShaderRecord
  else
    .ok (shaderRecordSize + attributes * shaderAttributeSize)

end VideoCore
