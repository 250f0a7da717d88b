import VideoCore.Proofs.Compressed
import VideoCore.Proofs.Packet.Effect
import VideoCore.Proofs.Walk.Tiling

namespace VideoCore

/-!
# What items refer to

A packet or a form refers to one address at most.  Which address that is can be
told from the stored bytes and from the format that is in force, and the
reference becomes an area if its target is in a buffer (`Reference.area?`).  The
effects of packets are exactly these references and formats
(`PacketType.apply_eq`).
-/

/-- A reference to an area. -/
inductive Reference
  /-- A list of packets, which begins with a format. -/
  | list (paddr primMode : Int)
  /-- Compressed index data. -/
  | indexData (paddr : Int)
  /-- A shader record with a number of attributes. -/
  | shaderRecord (paddr attributes : Int)
deriving DecidableEq

namespace Reference

/-- The address that is referred to. -/
def target : Reference → Int
  | .list paddr _ => paddr
  | .indexData paddr => paddr
  | .shaderRecord paddr _ => paddr

/--
The area that is referred to, if the buffer of its address ends at `limit`.
-/
def areaTo (limit : Int) : Reference → Area
  | .list paddr primMode =>
      ⟨.subList, paddr, limit - paddr, primMode, 0, false⟩
  | .indexData paddr =>
      ⟨.compressedList, paddr, limit - paddr, trianglesPrimMode, 0, false⟩
  | .shaderRecord paddr attributes =>
      ⟨.shaderRecord, paddr, 36 + 8 * attributes, unsetPrimMode,
        attributes, false⟩

/-- The area that is referred to, or a fault if its address is in no buffer. -/
def resolve
    (memory : Memory)
    (reference : Reference) : Except Fault Area := do
  let limit ← memory.regionEnd reference.target
  .ok (reference.areaTo limit)

/-- The area that is referred to, if its address is in a buffer. -/
def area?
    (memory : Memory)
    (reference : Reference) : Option Area :=
  (reference.resolve memory).toOption

variable {memory : Memory} {reference : Reference}

/-- A reference is resolved just if its target is covered. -/
theorem resolve_cases
    (memory : Memory)
    (reference : Reference) :
    (memory.Covers reference.target ∧
        ∃ area,
          reference.resolve memory = .ok area ∧
            reference.area? memory = some area) ∨
      ¬memory.Covers reference.target ∧
        reference.resolve memory = .error (.unmapped reference.target) ∧
        reference.area? memory = none := by
  by_cases covered : memory.Covers reference.target
  · obtain ⟨limit, resolved, _⟩ := Memory.regionEnd_of_covers covered
    have resolves :
        reference.resolve memory = .ok (reference.areaTo limit) := by
      rw [resolve, resolved, Outcome.ok_bind]
    exact .inl ⟨covered, _, resolves, by rw [area?, resolves]; rfl⟩
  · have resolves :
        reference.resolve memory =
          .error (.unmapped reference.target) := by
      rw [resolve, Memory.regionEnd_of_not_covers covered]
      rfl
    exact .inr ⟨covered, resolves, by rw [area?, resolves]; rfl⟩

end Reference

/-! ## Items -/

/-- A type of packets, or a form of compressed index data. -/
inductive ItemType
  | packet (type : PacketType)
  | form (form : IndexForm)

/-- The word of some bytes from an address on, least significant byte first. -/
def wordAt
    (byteAt? : Int → Option UInt8)
    (addr : Int) :
    Nat → Nat
  | 0 => 0
  | size + 1 =>
      ((byteAt? addr).getD 0).toNat + 256 * wordAt byteAt? (addr + 1) size

namespace ItemType

/-- The type of the item that begins with a byte. -/
def ofByte?
    (phase : Phase)
    (first : UInt8) : Option ItemType :=
  match phase with
  | .packets => (PacketType.find? first.toNat).map .packet
  | .forms => some (.form (IndexForm.ofCode first.toNat))

/-- Whether an item is a packet or a form. -/
def phase : ItemType → Phase
  | .packet _ => .packets
  | .form _ => .forms

/-- The number of bytes of an item. -/
def size : ItemType → Nat
  | .packet type => type.size
  | .form kind => kind.size

/-- What comes after an item that has been decoded. -/
def outlook : ItemType → Outlook
  | .packet type => Walk.outlookAfter type
  | .form .escape => .follows .packets
  | .form .branch => .ended .branched
  | .form _ => .follows .forms

/-- What an item at an address refers to while a format is in force. -/
def reference?
    (byteAt? : Int → Option UInt8)
    (addr primMode : Int) :
    ItemType → Option Reference
  | .packet type =>
      let word : Int := wordAt byteAt? (addr + 1) 4
      if type.opcode = PacketType.branch.opcode ∨
          type.opcode = PacketType.branchToSubList.opcode then
        some (.list word primMode)
      else if type.opcode = PacketType.shaderState.opcode then
        let attributes := word % 8
        some
          (.shaderRecord (word - word % 16)
            (if attributes = 0 then 8 else attributes))
      else
        none
  | .form .branch =>
      let offset := (wordAt byteAt? (addr + 1) 2 : Int).bmod (2 ^ 16)
      some (.indexData ((addr - addr % 32 + 32 * offset) % 2 ^ 32))
  | .form _ => none

/-- The format that an item at an address puts in force. -/
def format?
    (byteAt? : Int → Option UInt8)
    (addr : Int) :
    ItemType → Option Int
  | .packet type =>
      if type.opcode = PacketType.setPrimitiveListFormat.opcode then
        some (wordAt byteAt? (addr + 1) 1)
      else
        none
  | .form _ => none

/-- What a byte stands for in a phase belongs to that phase. -/
theorem phase_of_ofByte?
    {phase : Phase}
    {first : UInt8}
    {item : ItemType}
    (found : ofByte? phase first = some item) :
    item.phase = phase := by
  cases phase with
  | packets =>
      obtain ⟨type, _, rfl⟩ := Option.map_eq_some_iff.mp found
      rfl
  | forms =>
      cases found
      rfl

end ItemType

/-! ## Effects -/

/-- A byte string stores the word of the bytes at its addresses. -/
theorem Bytes.toWord_eq_wordAt
    {byteAt? : Int → Option UInt8}
    {addr : Int}
    {bytes : Bytes}
    (stored :
      ∀ index < bytes.length, bytes[index]? = byteAt? (addr + index)) :
    Bytes.toWord bytes = wordAt byteAt? addr bytes.length := by
  induction bytes generalizing addr with
  | nil =>
      rfl
  | cons byte rest inductionHypothesis =>
      have first := stored 0 (Nat.zero_lt_succ _)
      rw [List.getElem?_cons_zero, Int.natCast_zero, Int.add_zero]
        at first
      have later :
          ∀ index < rest.length,
            rest[index]? = byteAt? (addr + 1 + index) := by
        intro index inside
        have next := stored (index + 1) (Nat.succ_lt_succ inside)
        rw [List.getElem?_cons_succ] at next
        rw [next]
        congr 1
        omega
      rw [Bytes.toWord, List.length_cons, wordAt, ← first,
        inductionHypothesis later]
      rfl

/-- The bytes behind the first one store the word at the next address. -/
theorem Bytes.toWord_behindFirst
    {byteAt? : Int → Option UInt8}
    {addr : Int}
    {bytes : Bytes}
    {size : Nat}
    (stored :
      ∀ index < bytes.length, bytes[index]? = byteAt? (addr + index))
    (fits : 1 + size ≤ bytes.length) :
    Bytes.toWord ((bytes.drop 1).take size) =
      wordAt byteAt? (addr + 1) size := by
  have length : ((bytes.drop 1).take size).length = size := by
    rw [List.length_take, List.length_drop]
    omega
  have behind :
      ∀ index < ((bytes.drop 1).take size).length,
        ((bytes.drop 1).take size)[index]? =
          byteAt? (addr + 1 + index) := by
    intro index inside
    rw [length] at inside
    rw [List.getElem?_take_of_lt inside, List.getElem?_drop,
      stored _ (by omega)]
    congr 1
    omega
  rw [Bytes.toWord_eq_wordAt behind, length]

/-- The one field behind a leading byte is kept with the value of its bytes. -/
theorem Layout.Yields.get?_of_field
    {first second : String}
    {value : UInt8}
    {encoding : Encoding}
    {fallback : Option Value}
    {bytes : Bytes}
    {final : Fields}
    (distinct : first ≠ second)
    (kept : isKept second = true)
    (yields :
      Yields [] [.constant first value, .field second encoding fallback]
        bytes final) :
    Fields.get? (final.filter fun (name, _) => isKept name) second =
      some (encoding.value (bytes.drop 1)) := by
  have different : (second == first) = false := by
    simpa using distinct.symm
  rw [yields.eq_of_field distinct, Fields.get?]
  cases keptFirst : isKept first <;>
    simp [List.lookup_cons, keptFirst, kept, different]

/--
A reference without the extended encoding leads to the record at its address.
-/
theorem Memory.shaderRecordOf_of_plain
    {memory : Memory}
    {word : Nat}
    (plain : word.testBit 3 = false) :
    memory.shaderRecordOf ⟨.shaderStateAddress, word⟩ =
      Reference.resolve memory
        (.shaderRecord ((word : Int) - word % 16)
          (if (word : Int) % 8 = 0 then 8 else (word : Int) % 8)) := by
  rw [shaderRecordOf_eq, plain, Reference.resolve, Reference.target]
  generalize (if (word : Int) % 8 = 0 then 8 else (word : Int) % 8) =
    attributes
  simp only [shaderRecordAt, sizeOfShaderRecord, sizedArea,
    Bool.false_eq_true, if_false, Outcome.ok_bind, Reference.areaTo,
    shaderRecordSize, shaderAttributeSize, Int.mul_comm attributes 8]
  cases memory.regionEnd _ <;> rfl

namespace PacketType

variable {opcode : Nat} {type : PacketType}

/-- Four types of packets have an effect. -/
theorem effect_eq_nothing_of_mem_all :
    ∀ type ∈ all,
      type.opcode ≠ branch.opcode →
      type.opcode ≠ branchToSubList.opcode →
      type.opcode ≠ setPrimitiveListFormat.opcode →
      type.opcode ≠ shaderState.opcode →
      type.effect = .nothing := by
  decide

/-- A call of a list leads to the address that is stored behind its opcode. -/
theorem apply_of_namesList
    {value : UInt8}
    {bytes : Bytes}
    {final : Fields}
    (yields :
      Layout.Yields [] [.constant "opcode" value, .word "addr" 4] bytes
        final)
    (memory : Memory)
    (primMode : Int) :
    (PacketEffect.namesList "addr").apply memory primMode
        (final.filter fun (name, _) => isKept name) =
      (Reference.resolve memory
          (.list (Bytes.toWord ((bytes.drop 1).take 4)) primMode)).map
        fun area => ⟨some area, primMode⟩ := by
  have field := yields.get?_of_field (by decide) (by decide +kernel)
  rw [PacketEffect.apply, Fields.integer, field, Reference.resolve,
    Reference.target]
  simp only [Encoding.value, Option.bind_some, Value.integer?,
    Option.getD_some, Memory.subListAt, Memory.areaToEnd]
  cases memory.regionEnd _ <;> rfl

/-- A packet that is no extended reference leads to what it refers to. -/
theorem apply_eq
    (found : find? opcode = some type)
    {bytes : Bytes}
    {final : Fields}
    (yields : Layout.Yields [] type.record.layout bytes final)
    (plain : ¬IsExtendedReference opcode bytes)
    {byteAt? : Int → Option UInt8}
    {addr : Int}
    (length : bytes.length = type.size)
    (stored :
      ∀ index < bytes.length, bytes[index]? = byteAt? (addr + index))
    (memory : Memory)
    (primMode : Int) :
    type.effect.apply memory primMode
        (final.filter fun (name, _) => isKept name) =
      let next :=
        ((ItemType.packet type).format? byteAt? addr).getD primMode
      match (ItemType.packet type).reference? byteAt? addr primMode with
      | none => .ok ⟨none, next⟩
      | some reference =>
          (reference.resolve memory).map fun area => ⟨some area, next⟩ := by
  have word :
      ∀ size, type.size = 1 + size →
        Bytes.toWord ((bytes.drop 1).take size) =
          wordAt byteAt? (addr + 1) size :=
    fun size sizeIs =>
      Bytes.toWord_behindFirst stored (by omega)
  by_cases isBranch : type.opcode = branch.opcode
  · obtain ⟨rfl, rfl⟩ :=
      eq_of_opcode_eq found (show find? 16 = some branch from rfl) isBranch
    rw [show branch.effect = .namesList "addr" from rfl,
      apply_of_namesList yields, word 4 rfl]
    rfl
  by_cases isCall : type.opcode = branchToSubList.opcode
  · obtain ⟨rfl, rfl⟩ :=
      eq_of_opcode_eq found (show find? 17 = some branchToSubList from rfl)
        isCall
    rw [show branchToSubList.effect = .namesList "addr" from rfl,
      apply_of_namesList yields, word 4 rfl]
    rfl
  by_cases isSetting : type.opcode = setPrimitiveListFormat.opcode
  · obtain ⟨rfl, rfl⟩ :=
      eq_of_opcode_eq found
        (show find? 56 = some setPrimitiveListFormat from rfl) isSetting
    rw [apply_setPrimitiveListFormat yields, word 1 rfl]
    rfl
  by_cases isReference : type.opcode = shaderState.opcode
  · obtain ⟨rfl, rfl⟩ :=
      eq_of_opcode_eq found (show find? 64 = some shaderState from rfl)
        isReference
    have bit :
        (Bytes.toWord ((bytes.drop 1).take 4)).testBit 3 = false :=
      Bool.eq_false_iff.mpr fun isSet => plain ⟨rfl, isSet⟩
    rw [apply_shaderState yields, Memory.shaderRecordOf_of_plain bit,
      word 4 rfl]
    simp only [ItemType.reference?, isBranch, isCall, or_self, if_false,
      if_true]
    rfl
  have nothing : type.effect = .nothing :=
    effect_eq_nothing_of_mem_all type (mem_all_of_find? found).1 isBranch
      isCall isSetting isReference
  rw [nothing, PacketEffect.apply]
  simp only [ItemType.reference?, ItemType.format?, isBranch, isCall,
    isSetting, isReference, or_self, if_false, Option.getD_none]

end PacketType

/-- A branch leads to the compressed data that it refers to. -/
theorem IndexForm.branchTarget_eq
    {bytes : Bytes}
    {final : Fields}
    (yields :
      Layout.Yields [] IndexForm.branch.record.layout bytes final)
    {byteAt? : Int → Option UInt8}
    {addr : Int}
    (length : bytes.length = IndexForm.branch.size)
    (stored :
      ∀ index < bytes.length, bytes[index]? = byteAt? (addr + index))
    (primMode : Int) :
    (ItemType.form .branch).reference? byteAt? addr primMode =
      some
        (.indexData
          (branchTarget
            (Fields.integer
              (final.filter fun (name, _) => isKept name) "offset")
            addr)) := by
  have size : IndexForm.branch.size = 1 + 2 := by decide
  have word : Bytes.toWord ((bytes.drop 1).take 2) =
      wordAt byteAt? (addr + 1) 2 :=
    Bytes.toWord_behindFirst stored (by omega)
  have field := yields.get?_of_field (by decide) (by decide +kernel)
  rw [Fields.integer, field, Option.bind_some, Encoding.value,
    Value.integer?, Option.getD_some, signExtend_eq_bmod, word]
  rfl

end VideoCore
