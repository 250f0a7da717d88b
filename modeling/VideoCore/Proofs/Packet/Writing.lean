import VideoCore.Proofs.Packet.Effect
import VideoCore.Proofs.Record.Placement
import VideoCore.Proofs.Record.Writing
import VideoCore.Walk.Item

namespace VideoCore

/-!
# Packets that are put together

A packet is put together from values for its fields (`PacketSource`).  What it
leads to when it is found in memory is told by these values.
-/

namespace PacketEffect

/-- The field that an effect depends on, with its encoding. -/
def field? : PacketEffect → Option (String × Encoding)
  | .nothing => none
  | .namesList field => some (field, .word 4)
  | .setsFormat field => some (field, .register .primitiveListFormat)
  | .namesShaderRecord field => some (field, .register .shaderStateAddress)

/-- An effect depends on no other field. -/
theorem apply_congr
    {effect : PacketEffect}
    {fields other : Fields}
    (same :
      ∀ field ∈ effect.field?, fields.get? field.1 = other.get? field.1)
    (memory : Memory)
    (primMode : Int) :
    effect.apply memory primMode fields =
      effect.apply memory primMode other := by
  cases effect with
  | nothing =>
      rfl
  | namesList field | setsFormat field | namesShaderRecord field =>
      have fieldIs := same _ rfl
      simp only at fieldIs
      simp only [apply, registerIn, Fields.get, Fields.integer, fieldIs]

end PacketEffect

namespace PacketType

variable {type : PacketType}

/-- The field that an effect depends on is stored under its name, and kept. -/
theorem field?_of_mem_all :
    ∀ type ∈ all,
      ∀ field ∈ type.effect.field?,
        type.record.layout.encodings.lookup field.1 = some field.2 ∧
          isKept field.1 = true := by
  decide +kernel

/-- Packets that compressed data follows do nothing else. -/
theorem goesOn_of_compressed :
    ∀ type ∈ all,
      type.compressed = true →
      type.terminal = false ∧ type.effect = .nothing := by
  decide

/-- The constant byte that a packet begins with. -/
def leadingByte? (type : PacketType) : Option UInt8 :=
  match type.record.layout with
  | .constant _ value :: _ => some value
  | _ => none

/-- Every known packet begins with its opcode. -/
theorem leadingByte?_of_mem_all :
    ∀ type ∈ all,
      ∃ value ∈ type.leadingByte?, type.opcode = some value.toNat := by
  decide

/-- No two packets have the same opcode. -/
theorem pairwise_opcode_ne :
    all.Pairwise fun first second => first.opcode ≠ second.opcode := by
  decide

/-- The table finds every known type by its opcode. -/
theorem find?_of_mem_all
    (known : type ∈ all)
    {opcode : Nat}
    (opcodeIs : type.opcode = some opcode) :
    find? opcode = some type := by
  obtain ⟨earlier, others, shape⟩ := List.append_of_mem known
  have distinct := pairwise_opcode_ne
  rw [shape, List.pairwise_append] at distinct
  have noneEarlier :
      (earlier.find? fun other => other.opcode == some opcode) = none := by
    rw [List.find?_eq_none]
    intro other member
    have different := distinct.2.2 other member type (by simp)
    rw [opcodeIs] at different
    simpa using different
  rw [find?, shape, List.find?_append, noneEarlier, Option.none_or,
    List.find?_cons_of_pos (by simp [opcodeIs])]

/-- A written packet begins with its opcode. -/
theorem head?_of_write
    (known : type ∈ all)
    {fields : Fields}
    {bytes : Bytes}
    (writes : type.record.layout.write fields = .ok bytes) :
    ∃ value : UInt8,
      bytes.head? = some value ∧ type.opcode = some value.toNat := by
  obtain ⟨value, leading, opcodeIs⟩ := leadingByte?_of_mem_all type known
  refine ⟨value, ?_, opcodeIs⟩
  rw [leadingByte?] at leading
  split at leading
  · next layoutIs =>
      cases leading
      rw [layoutIs] at writes
      exact Layout.head?_of_write writes
  · contradiction

end PacketType

/-- A packet that is put together from values for its fields. -/
structure PacketSource where
  type : PacketType
  fields : Fields
  bytes : Bytes
  known : type ∈ PacketType.all
  writes : type.record.layout.write fields = .ok bytes

namespace PacketSource

variable (source : PacketSource)

/-- The fields that the packet depends on, as they are read again. -/
def settled : Fields :=
  source.type.record.layout.settle source.fields

/--
Whether the packet refers to captured memory, if to any, in the usual encoding.
-/
def IsResolved (memory : Memory) : Prop :=
  match source.type.effect with
  | .nothing | .setsFormat _ => True
  | .namesList field => memory.Covers (source.settled.integer field)
  | .namesShaderRecord field =>
      ∃ word : Nat,
        source.settled.get field = .register ⟨.shaderStateAddress, word⟩ ∧
          word.testBit 3 = false ∧
          memory.Covers (word - word % 16)

/-- The format of compressed primitives behind the packet. -/
def modeAfter (primMode : Int) : Int :=
  match source.type.effect with
  | .setsFormat field =>
      match source.settled.get field with
      | .register format => format.value
      | _ => primMode
  | _ => primMode

/--
The events of the packet when it is found at an address: its name, its fields as
its own bytes are read there, and the area that its fields refer to.
-/
def events
    (memory : Memory)
    (addr primMode : Int) : Except Fault (List Event) := do
  let record ← source.type.record.read source.bytes (some addr)
  let entries ← record.entries id ["opcode"]
  let consequence ←
    source.type.effect.apply memory primMode source.settled
  .ok
    (Walk.packetEvent source.type addr (source.type.opcode.getD 0) ::
      entries.map .entry ++ consequence.area.toList.map .request)

variable {source : PacketSource} {memory : Memory}

theorem size?_eq :
    source.type.record.layout.size? = some source.type.size := by
  obtain ⟨_, _, opcodeIs⟩ :=
    PacketType.head?_of_write source.known source.writes
  exact PacketType.size?_of_find?
    (PacketType.find?_of_mem_all source.known opcodeIs)

theorem length_bytes :
    source.bytes.length = source.type.size :=
  Layout.length_of_write source.writes size?_eq

/-- What is read from the packet leads to what its fields lead to. -/
theorem apply_eq
    {final : Fields}
    (yields :
      Layout.Yields [] source.type.record.layout source.bytes final)
    (primMode : Int) :
    source.type.effect.apply memory primMode
        (final.filter fun (name, _) => isKept name) =
      source.type.effect.apply memory primMode source.settled := by
  apply PacketEffect.apply_congr
  rintro ⟨field, encoding⟩ isField
  obtain ⟨stored, kept⟩ :=
    PacketType.field?_of_mem_all source.type source.known _ isField
  rw [← List.append_nil source.bytes] at yields
  rw [Fields.get?_filter final kept, settled, Layout.get?_settle, stored,
    Layout.get?_of_write
      (PacketType.nodup_names_of_mem_all source.type source.known)
      source.writes yields stored]
  rfl

/-- A packet that refers to captured memory leads there. -/
theorem exists_apply
    (resolved : source.IsResolved memory)
    (primMode : Int) :
    ∃ area?,
      source.type.effect.apply memory primMode source.settled =
        .ok ⟨area?, source.modeAfter primMode⟩ := by
  have fieldIs :=
    PacketType.field?_of_mem_all source.type source.known
  unfold IsResolved at resolved
  unfold modeAfter
  cases effectIs : source.type.effect with
  | nothing =>
      exact ⟨none, rfl⟩
  | namesList field =>
      simp only [effectIs] at resolved
      obtain ⟨limit, limitIs, _⟩ := Memory.regionEnd_of_covers resolved
      have areaIs :
          ∃ area,
            memory.subListAt (source.settled.integer field) primMode =
              .ok area := by
        rw [Memory.subListAt, Memory.areaToEnd, limitIs]
        exact ⟨_, rfl⟩
      obtain ⟨area, areaIs⟩ := areaIs
      exact ⟨some area, by rw [PacketEffect.apply, areaIs]; rfl⟩
  | setsFormat field =>
      rw [effectIs] at fieldIs
      have stored := (fieldIs _ rfl).1
      have held :
          source.settled.get field =
            (Encoding.register .primitiveListFormat).settle
              (source.fields.get field) := by
        rw [Fields.get, settled, Layout.get?_settle, stored]
        rfl
      refine ⟨none, ?_⟩
      simp only [PacketEffect.apply, PacketEffect.registerIn, held,
        Encoding.settle, Outcome.ok_bind]
  | namesShaderRecord field =>
      simp only [effectIs] at resolved
      obtain ⟨word, held, plain, covered⟩ := resolved
      obtain ⟨limit, limitIs, _⟩ := Memory.regionEnd_of_covers covered
      have areaIs :
          ∃ area,
            memory.shaderRecordOf ⟨.shaderStateAddress, word⟩ =
              .ok area := by
        simp only [Memory.shaderRecordOf_eq, plain,
          Memory.shaderRecordAt, sizeOfShaderRecord, Memory.sizedArea,
          limitIs, Outcome.ok_bind, Bool.false_eq_true, if_false]
        exact ⟨_, rfl⟩
      obtain ⟨area, areaIs⟩ := areaIs
      refine ⟨some area, ?_⟩
      rw [PacketEffect.apply, PacketEffect.registerIn, held,
        Outcome.ok_bind, areaIs]
      rfl

end PacketSource

end VideoCore
