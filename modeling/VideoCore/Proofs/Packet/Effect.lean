import VideoCore.Packet.Effect
import VideoCore.Proofs.Area.Canonical
import VideoCore.Proofs.Packet.Reading

namespace VideoCore

/-!
# What packets lead to

A packet leads to a canonical area, to a format of one byte, or to neither.  It
fails for an address in no buffer, and for a shader record with the extended
encoding; no other fault is possible.
-/

/-- Whether a number is a format of compressed primitives, of one byte. -/
def IsFormat (primMode : Int) : Prop :=
  0 ≤ primMode ∧ primMode ≤ 255

theorem isFormat_unsetPrimMode : IsFormat unsetPrimMode :=
  ⟨by decide, by decide⟩

theorem isFormat_trianglesPrimMode : IsFormat trianglesPrimMode :=
  ⟨by decide, by decide⟩

/-- What a packet can lead to while a format is in force. -/
inductive Consequence.Regular
    (memory : Memory)
    (primMode : Int) :
    Except Fault Consequence → Prop where
  | format
      {newMode : Int}
      (isFormat : IsFormat newMode) :
      Regular memory primMode (.ok ⟨none, newMode⟩)
  | area
      {area : Area}
      (canonical : Area.Canonical memory area) :
      Regular memory primMode (.ok ⟨some area, primMode⟩)
  | unmapped
      (addr : Int) :
      Regular memory primMode (.error (.unmapped addr))

/--
Whether the bytes of a packet refer to a shader record with the extended
encoding.
-/
def IsExtendedReference
    (opcode : Nat)
    (bytes : Bytes) : Prop :=
  opcode = 64 ∧ (Bytes.toWord ((bytes.drop 1).take 4)).testBit 3 = true

namespace Memory

variable {memory : Memory} {word : Nat}

/-- The number of attributes is in the three low bits. -/
theorem read_attributeCount
    (value : Int) :
    Register.read ⟨.shaderStateAddress, value⟩ "ATTRIBUTE_COUNT" =
      .ok (.number (value % 8)) := by
  have shape :
      RegisterClass.shaderStateAddress.shape? "ATTRIBUTE_COUNT" =
        .ok (.bits 2 0) := by
    decide +kernel
  have span : (FieldShape.bits 2 0).readSpan? = .ok ⟨0, 3⟩ := by
    decide +kernel
  simp only [Register.read, shape, Outcome.ok_bind, FieldShape.read,
    span, BitSpan.read_eq_emod]
  simp [FieldShape.bits, FieldShape.kind, FieldKind.interpret]

/-- Whether the extended encoding is used is in bit 3. -/
theorem read_extended
    (value : Int) :
    Register.read ⟨.shaderStateAddress, value⟩ "EXTENDED" =
      .ok (.number (value / 8 % 2)) := by
  have shape :
      RegisterClass.shaderStateAddress.shape? "EXTENDED" =
        .ok (.bit 3) := by
    decide +kernel
  have span : (FieldShape.bit 3).readSpan? = .ok ⟨3, 1⟩ := by
    decide +kernel
  simp only [Register.read, shape, Outcome.ok_bind, FieldShape.read,
    span, BitSpan.read_eq_emod]
  simp [FieldShape.kind, FieldKind.interpret]

/-- The fields of a reference to a shader record, as numbers. -/
theorem shaderRecordOf_eq :
    memory.shaderRecordOf ⟨.shaderStateAddress, word⟩ =
      memory.shaderRecordAt ((word : Int) - word % 16)
        (if (word : Int) % 8 = 0 then 8 else (word : Int) % 8)
        (word.testBit 3) := by
  have bit :
      (FieldReading.number ((word : Int) / 8 % 2) == .number 1) =
        word.testBit 3 := by
    rw [Nat.testBit_eq_decide_div_mod_eq, Bool.eq_iff_iff]
    simp only [beq_iff_eq, FieldReading.number.injEq,
      decide_eq_true_eq]
    omega
  simp only [shaderRecordOf, Register.countOrEight, read_attributeCount,
    read_extended, Outcome.ok_bind, bit, Register.alignedAddress]
  by_cases none : (word : Int) % 8 = 0 <;>
    simp [none, FieldReading.toInt]

/-- A reference with bit 3 set is refused, wherever it leads. -/
theorem shaderRecordOf_of_testBit
    (extended : word.testBit 3 = true) :
    memory.shaderRecordOf ⟨.shaderStateAddress, word⟩ =
      .error .extendedShaderRecord := by
  rw [shaderRecordOf_eq, shaderRecordAt, extended]
  rfl

/-- Any other reference leads to a canonical area or nowhere. -/
theorem shaderRecordOf_of_not_testBit
    (plain : word.testBit 3 = false) :
    (∃ area,
      Area.Canonical memory area ∧
        memory.shaderRecordOf ⟨.shaderStateAddress, word⟩ = .ok area) ∨
      ∃ addr,
        memory.shaderRecordOf ⟨.shaderStateAddress, word⟩ =
          .error (.unmapped addr) := by
  rw [shaderRecordOf_eq, plain]
  generalize place : (word : Int) - word % 16 = paddr
  generalize counted :
    (if (word : Int) % 8 = 0 then 8 else (word : Int) % 8) = attributes
  have aligned : 16 ∣ paddr := by omega
  have inRange : 1 ≤ attributes ∧ attributes ≤ 8 := by
    split at counted <;> omega
  by_cases covered : memory.Covers paddr
  · obtain ⟨limit, resolved, _⟩ := regionEnd_of_covers covered
    refine Or.inl ⟨_,
      .shaderRecord resolved aligned inRange.1 inRange.2, ?_⟩
    simp only [shaderRecordAt, sizeOfShaderRecord, sizedArea, resolved,
      Outcome.ok_bind, Bool.false_eq_true, if_false]
  · refine Or.inr ⟨paddr, ?_⟩
    simp only [shaderRecordAt, sizeOfShaderRecord, sizedArea,
      regionEnd_of_not_covers covered, Outcome.ok_bind,
      Outcome.error_bind, Bool.false_eq_true, if_false]

end Memory

namespace PacketType

variable {opcode : Nat} {type : PacketType}

/-- Most packets have no effect; each of the others is one of four. -/
theorem effect_of_mem_all :
    ∀ type ∈ all,
      type.effect = .nothing ∨
        type.effect = .namesList "addr" ∨
        type.opcode = some 56 ∨ type.opcode = some 64 := by
  decide

/-- What the register of a packet is, if it is the only field. -/
theorem registerIn_of_yields
    {value : UInt8}
    {field : String}
    {held : RegisterClass}
    (distinct : "opcode" ≠ field)
    (kept : isKept field = true)
    {bytes : Bytes}
    {final : Fields}
    (yields :
      Layout.Yields []
        [.constant "opcode" value, .register field held]
        bytes final) :
    PacketEffect.registerIn
        (final.filter fun (name, _) => isKept name) field =
      .ok ⟨held,
        Bytes.toWord
          ((bytes.drop 1).take (Encoding.register held).size)⟩ := by
  have keptOpcode : isKept "opcode" = true := by decide +kernel
  have different : (field == "opcode") = false := by
    simpa using distinct.symm
  rw [yields.eq_of_field distinct]
  simp [PacketEffect.registerIn, Fields.get, Fields.get?, List.lookup_cons,
    keptOpcode, kept, different, Encoding.value]

theorem size_shaderStateAddress :
    (Encoding.register .shaderStateAddress).size = 4 := by
  decide +kernel

theorem size_primitiveListFormat :
    (Encoding.register .primitiveListFormat).size = 1 := by
  decide +kernel

/-- A type is the only one with its opcode. -/
theorem eq_of_opcode_eq
    {number : Nat}
    {only : PacketType}
    (found : find? opcode = some type)
    (isOnly : find? number = some only)
    (opcodeIs : type.opcode = some number) :
    opcode = number ∧ type = only := by
  obtain rfl : opcode = number :=
    Option.some.inj ((mem_all_of_find? found).2.symm.trans opcodeIs)
  exact ⟨rfl, Option.some.inj (found.symm.trans isOnly)⟩

section Registers

variable {bytes : Bytes} {final : Fields}

/-- A setting of the format puts the byte behind its opcode in force. -/
theorem apply_setPrimitiveListFormat
    (yields :
      Layout.Yields [] setPrimitiveListFormat.record.layout bytes final)
    (memory : Memory)
    (primMode : Int) :
    setPrimitiveListFormat.effect.apply memory primMode
        (final.filter fun (name, _) => isKept name) =
      .ok ⟨none, Bytes.toWord ((bytes.drop 1).take 1)⟩ := by
  have format :=
    registerIn_of_yields (by decide) (by decide +kernel) yields
  have effect : setPrimitiveListFormat.effect = .setsFormat "format" :=
    rfl
  rw [effect, PacketEffect.apply, format, Outcome.ok_bind,
    size_primitiveListFormat]

/--
A reference leads to the shader record that the word behind its opcode names.
-/
theorem apply_shaderState
    (yields : Layout.Yields [] shaderState.record.layout bytes final)
    (memory : Memory)
    (primMode : Int) :
    shaderState.effect.apply memory primMode
        (final.filter fun (name, _) => isKept name) =
      (memory.shaderRecordOf
          ⟨.shaderStateAddress, Bytes.toWord ((bytes.drop 1).take 4)⟩).map
        fun area => ⟨some area, primMode⟩ := by
  have reference :=
    registerIn_of_yields (by decide) (by decide +kernel) yields
  rw [size_shaderStateAddress] at reference
  have effect : shaderState.effect = .namesShaderRecord "rec" := rfl
  rw [effect, PacketEffect.apply, reference, Outcome.ok_bind]
  cases memory.shaderRecordOf _ <;> rfl

end Registers

/-- Only one type of packet refers to shader records. -/
theorem eq_shaderState_of_isExtendedReference
    {type : PacketType}
    {opcode : Nat}
    {bytes : Bytes}
    (found : find? opcode = some type)
    (extended : IsExtendedReference opcode bytes) :
    type = shaderState := by
  obtain ⟨rfl, _⟩ := extended
  exact (Option.some.inj found).symm

/-- A reference to an extended shader record is refused. -/
theorem apply_of_isExtendedReference
    (found : find? opcode = some type)
    {bytes : Bytes}
    {final : Fields}
    (yields : Layout.Yields [] type.record.layout bytes final)
    (extended : IsExtendedReference opcode bytes)
    (memory : Memory)
    (primMode : Int) :
    type.effect.apply memory primMode
        (final.filter fun (name, _) => isKept name) =
      .error .extendedShaderRecord := by
  obtain rfl := eq_shaderState_of_isExtendedReference found extended
  rw [apply_shaderState yields,
    Memory.shaderRecordOf_of_testBit extended.2]
  rfl

/-- Every other packet leads to something regular. -/
theorem apply_regular
    (found : find? opcode = some type)
    {bytes : Bytes}
    {final : Fields}
    (yields : Layout.Yields [] type.record.layout bytes final)
    (plain : ¬IsExtendedReference opcode bytes)
    (memory : Memory)
    {primMode : Int}
    (isFormat : IsFormat primMode) :
    Consequence.Regular memory primMode
      (type.effect.apply memory primMode
        (final.filter fun (name, _) => isKept name)) := by
  rcases effect_of_mem_all type (mem_all_of_find? found).1 with
    isNothing | namesList | isSetting | isReference
  · rw [isNothing]
    exact .format isFormat
  · rw [namesList, PacketEffect.apply, Memory.subListAt]
    generalize Fields.integer _ _ = paddr
    rcases memory.areaToEnd_cases .subList paddr primMode with
      ⟨limit, resolved, areaIs⟩ | missing
    · rw [areaIs]
      exact .area (.subList resolved isFormat.1 isFormat.2)
    · rw [missing]
      exact .unmapped paddr
  · obtain ⟨_, rfl⟩ :=
      eq_of_opcode_eq found
        (show find? 56 = some setPrimitiveListFormat from rfl) isSetting
    rw [apply_setPrimitiveListFormat yields]
    have small := Bytes.toWord_take_lt 1 (bytes.drop 1)
    exact .format
      ⟨Int.natCast_nonneg _, Int.le_of_lt_add_one (Int.ofNat_lt.mpr small)⟩
  · obtain ⟨isShaderState, rfl⟩ :=
      eq_of_opcode_eq found (show find? 64 = some shaderState from rfl)
        isReference
    have bit :
        (Bytes.toWord ((bytes.drop 1).take 4)).testBit 3 = false :=
      Bool.eq_false_iff.mpr fun isSet => plain ⟨isShaderState, isSet⟩
    rw [apply_shaderState yields]
    rcases Memory.shaderRecordOf_of_not_testBit bit with
      ⟨area, canonical, areaIs⟩ | ⟨addr, missing⟩
    · rw [areaIs]
      exact .area canonical
    · rw [missing]
      exact .unmapped addr

end PacketType

end VideoCore
