import VideoCore.Packet.Catalogue
import VideoCore.Proofs.Number.Binary
import VideoCore.Proofs.Record.Layout

namespace VideoCore

/-!
# Reading packets

Every packet of a known type can be read and listed once its bytes are there
and the first of them is its opcode.  Nothing else is asked of the bytes.
-/

namespace Layout

/-- A length in pixels can be computed from a field that is a number. -/
theorem Yields.pixels
    {fields final : Fields}
    {name source : String}
    {rest : Layout}
    {bytes : Bytes}
    (bits : UInt64)
    (number : (fields.get? source).bind Value.realBits? = some bits)
    (later :
      Yields (fields.set name (.real (sixteenths bits))) rest bytes
        final) :
    Yields fields (.pixels name source :: rest) bytes final :=
  .computed (by simp only [number]) ⟨_, by rw [Value.display]⟩ later

/-- Two numbers that are given in pixels, too, can be read. -/
theorem exists_yields_of_pixels
    (encoding : Encoding)
    {opcode : UInt8}
    (plain : encoding.isPlain = true)
    (isNumber :
      ∀ bytes, ∃ bits, (encoding.value bytes).realBits? = some bits)
    {bytes : Bytes}
    (begins : bytes.take 1 = [opcode])
    (fits : 1 + 2 * encoding.size ≤ bytes.length) :
    ∃ final,
      Yields []
        [.constant "opcode" opcode,
          .field "x" encoding none, .field "y" encoding none,
          .pixels "x_px" "x", .pixels "y_px" "y"]
        bytes final := by
  obtain ⟨first, firstIs⟩ := isNumber (bytes.drop 1)
  obtain ⟨second, secondIs⟩ :=
    isNumber ((bytes.drop 1).drop encoding.size)
  refine ⟨_, .constant begins
    (.field plain (by rw [List.length_drop]; omega)
      (.field plain (by simp only [List.length_drop]; omega)
        (.pixels first ?_ (.pixels second ?_ (.nil _ _)))))⟩
  · simpa [Fields.set, Fields.get?, List.lookup_cons] using firstIs
  · simpa [Fields.set, Fields.get?, List.lookup_cons] using secondIs

end Layout

namespace PacketType

/-- Whether a packet is an opcode with plain fields behind it. -/
def isOrdinary (type : PacketType) : Bool :=
  match type.record.layout with
  | .constant _ value :: parts =>
      type.opcode == some value.toNat && parts.all Part.isPlain
  | _ => false

/-- All packets but two are ordinary; those two compute lengths in pixels. -/
theorem isOrdinary_of_mem_all :
    ∀ type ∈ all,
      type.opcode ≠ some 103 →
      type.opcode ≠ some 105 →
      type.isOrdinary = true := by
  decide +kernel

theorem isSome_size?_of_mem_all :
    ∀ type ∈ all, type.record.layout.size?.isSome = true := by
  decide +kernel

theorem nodup_names_of_mem_all :
    ∀ type ∈ all, type.record.layout.names.Nodup := by
  decide

variable {opcode : Nat} {type : PacketType}

/-- What the table finds is a known type with the opcode. -/
theorem mem_all_of_find?
    (found : find? opcode = some type) :
    type ∈ all ∧ type.opcode = some opcode := by
  refine ⟨List.mem_of_find?_eq_some found, ?_⟩
  have matched := List.find?_some found
  simpa using matched

/-- The size of a packet is that of its layout. -/
theorem size?_of_find?
    (found : find? opcode = some type) :
    type.record.layout.size? = some type.size := by
  obtain ⟨size, sizeIs⟩ :=
    Option.isSome_iff_exists.mp
      (isSome_size?_of_mem_all type (mem_all_of_find? found).1)
  rw [sizeIs, PacketType.size, RecordType.fixedSize, sizeIs,
    Option.getD_some]

/-- The bytes of a packet can be read by its layout. -/
theorem exists_yields
    (found : find? opcode = some type)
    {bytes : Bytes}
    {first : UInt8}
    (begins : bytes.take 1 = [first])
    (isOpcode : first.toNat = opcode)
    (fits : type.size ≤ bytes.length) :
    ∃ final, Layout.Yields [] type.record.layout bytes final := by
  obtain ⟨known, opcodeIs⟩ := mem_all_of_find? found
  have sizeIs := size?_of_find? found
  by_cases isOffset : opcode = 103
  · subst isOffset
    obtain rfl : viewportOffset = type := Option.some.inj found
    obtain rfl : first = 103 := UInt8.toNat_inj.mp isOpcode
    exact Layout.exists_yields_of_pixels (.signedWord 2) rfl
      (fun bytes => exists_doubleOfInt? (natAbs_signExtend_lt (by decide) _))
      begins fits
  · by_cases isScaling : opcode = 105
    · subst isScaling
      obtain rfl : clipperScaling = type := Option.some.inj found
      obtain rfl : first = 105 := UInt8.toNat_inj.mp isOpcode
      exact Layout.exists_yields_of_pixels .single rfl
        (fun bytes => ⟨_, rfl⟩) begins fits
    · have ordinary :=
        isOrdinary_of_mem_all type known
          (by simpa [opcodeIs] using isOffset)
          (by simpa [opcodeIs] using isScaling)
      unfold isOrdinary at ordinary
      split at ordinary
      · next name value parts layoutIs =>
          simp only [Bool.and_eq_true, beq_iff_eq, opcodeIs,
            Option.some.injEq] at ordinary
          have sameByte : first = value :=
            UInt8.toNat_inj.mp (isOpcode.trans ordinary.1)
          rw [layoutIs] at sizeIs ⊢
          exact Layout.exists_yields_of_constant ordinary.2 sizeIs
            (sameByte ▸ begins) fits
      · contradiction

/--
A packet whose bytes are there can be read and listed, with the fields that it
yields.
-/
theorem exists_read
    (found : find? opcode = some type)
    {bytes : Bytes}
    {first : UInt8}
    (begins : bytes.take 1 = [first])
    (isOpcode : first.toNat = opcode)
    (fits : type.size ≤ bytes.length)
    (addr : Int) :
    ∃ final record,
      Layout.Yields [] type.record.layout bytes final ∧
        type.record.read bytes (some addr) = .ok record ∧
        record.fields = final.filter (fun (name, _) => isKept name) ∧
        record.IsListable := by
  obtain ⟨final, yields⟩ := exists_yields found begins isOpcode fits
  obtain ⟨readsAs, listable⟩ :=
    RecordType.read_of_yields yields (size?_of_find? found) addr
  exact ⟨final, _, yields, readsAs, rfl, listable⟩

end PacketType

end VideoCore
