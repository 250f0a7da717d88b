import VideoCore.Area.Basic
import VideoCore.Packet.Catalogue

namespace VideoCore

/-!
# Layouts of shader records

A shader record describes the fragment, vertex and coordinate shader of a draw
call; its attributes follow it.
-/

namespace Shader

/-- The fields of the vertex or coordinate shader, under a stage's name. -/
def stageParts (stage : String) : Layout :=
  [.count (stage ++ "_num_uniforms") 2,
    .word (stage ++ "_attribute_array_select") 1,
    .count (stage ++ "_total_attribute_size") 1,
    .word (stage ++ "_code_addr") 4,
    .word (stage ++ "_uniforms_addr") 4]

/-- A shader record without its attributes. -/
def recordType : RecordType where
  name := "GLShaderRecord"
  layout :=
    [.register "flags" .shaderRecordFlags,
      .count "fs_num_uniforms" 1, .count "fs_num_varyings" 1,
      .word "fs_code_addr" 4, .word "fs_uniforms_addr" 4] ++
      stageParts "vs" ++ stageParts "cs"

/-- An attribute of a shader record. -/
def attributeType : RecordType where
  name := "GLShaderAttribute"
  layout :=
    [.word "addr" 4, .count "size_minus_1" 1, .count "stride" 1,
      .word "vs_vpm_offset" 1, .word "cs_vpm_offset" 1]

/-- The size that records are asked for with is that of their layout. -/
theorem fixedSize_recordType :
    (recordType.fixedSize : Int) = shaderRecordSize := by
  decide

theorem fixedSize_attributeType :
    (attributeType.fixedSize : Int) = shaderAttributeSize := by
  decide

end Shader

end VideoCore
