import VideoCore.Proofs.Packet.Writing
import VideoCore.Proofs.Record.Update
import VideoCore.Record.Catalogue

namespace VideoCore

/-!
# All records lose nothing

Every known type of record consists of constants, exact fields and lengths in
pixels (`RecordType.IsKnown.isLossless`).  Reading and writing of known records
is therefore a lens on byte strings (`RecordType.update_isLens`).
-/

namespace RecordType

variable {type : RecordType}

/--
Whether all parts of a type are stored, under distinct names that are kept.
-/
def isStored (type : RecordType) : Bool :=
  type.layout.all Part.isStored &&
    decide type.layout.names.Nodup &&
    type.layout.names.all isKept &&
    type.layout.size?.isSome

theorem size?_eq_of_isSome
    (sized : type.layout.size?.isSome = true) :
    type.layout.size? = some type.fixedSize := by
  obtain ⟨size, sizeIs⟩ := Option.isSome_iff_exists.mp sized
  rw [fixedSize, sizeIs, Option.getD_some]

/-- Record types with stored fields only lose nothing. -/
theorem isLossless_of_isStored
    (stored : type.isStored = true) :
    type.IsLossless := by
  simp only [isStored, Bool.and_eq_true, decide_eq_true_eq,
    List.all_eq_true (p := isKept)] at stored
  obtain ⟨⟨⟨parts, distinct⟩, kept⟩, sized⟩ := stored
  exact ⟨Layout.isLossless_of_isStored parts, distinct, kept,
    size?_eq_of_isSome sized⟩

end RecordType

/-- Two numbers that are given in pixels, too, lose nothing. -/
theorem Layout.isLossless_of_pixels
    (encoding : Encoding)
    (lossless : encoding.isLossless = true)
    (numeric : encoding.isNumeric = true)
    (opcode : UInt8) :
    IsLossless []
      [.constant "opcode" opcode,
        .field "x" encoding none, .field "y" encoding none,
        .pixels "x_px" "x", .pixels "y_px" "y"] := by
  refine
    .constant _ _
      (@Layout.IsLossless.field _ ["x"] _ _ _ _ lossless ?_
        (@Layout.IsLossless.field _ ["y", "x"] _ _ _ _ lossless ?_
          (.pixels _ ?_ (.pixels _ ?_ (.nil _)))))
  all_goals simp [numeric]

namespace PacketType

/-- All packets but two are stored part by part. -/
theorem isStored_of_mem_all :
    ∀ type ∈ all,
      type.opcode ≠ some 103 →
      type.opcode ≠ some 105 →
      type.record.isStored = true := by
  decide +kernel

/-- The records of all known packets lose nothing. -/
theorem isLossless_of_mem_all
    {type : PacketType}
    (known : type ∈ all) :
    type.record.IsLossless := by
  by_cases isOffset : type.opcode = some 103
  · have found := find?_of_mem_all known isOffset
    obtain rfl : viewportOffset = type := Option.some.inj found
    exact ⟨Layout.isLossless_of_pixels (.signedWord 2) rfl rfl 103,
      by decide, by decide +kernel, rfl⟩
  · by_cases isScaling : type.opcode = some 105
    · have found := find?_of_mem_all known isScaling
      obtain rfl : clipperScaling = type := Option.some.inj found
      exact ⟨Layout.isLossless_of_pixels .single rfl rfl 105,
        by decide, by decide +kernel, rfl⟩
    · exact RecordType.isLossless_of_isStored
        (isStored_of_mem_all type known isOffset isScaling)

end PacketType

/-- Whether a type of records is a known one. -/
def RecordType.IsKnown (type : RecordType) : Prop :=
  ∃ kind ∈ RecordKind.all, kind.type? = some type

/-- No known record loses anything. -/
theorem RecordType.IsKnown.isLossless
    {type : RecordType}
    (known : type.IsKnown) :
    type.IsLossless := by
  obtain ⟨kind, member, isType⟩ := known
  simp only [RecordKind.all, List.mem_append, or_assoc] at member
  rcases member with isPacket | isForm | isPlain | isFamily
  · obtain ⟨packet, member, rfl⟩ := List.mem_map.mp isPacket
    cases isType
    rcases List.mem_cons.mp member with rfl | inTable
    · exact isLossless_of_isStored (by decide +kernel)
    · exact PacketType.isLossless_of_mem_all inTable
  · obtain ⟨form, _, rfl⟩ := List.mem_map.mp isForm
    cases isType
    refine isLossless_of_isStored ?_
    cases form <;> decide +kernel
  · simp only [List.mem_cons, List.not_mem_nil, or_false] at isPlain
    rcases isPlain with rfl | rfl | rfl | rfl <;> cases isType
    all_goals exact isLossless_of_isStored (by decide +kernel)
  · simp only [List.mem_cons, List.not_mem_nil, or_false] at isFamily
    rcases isFamily with rfl | rfl | rfl <;> contradiction

/--
Reading and writing of known records is a lens on byte strings.  A record that
has been read, without undefined numbers, is written as the bytes that it was
read from.  If some of its fields are set to values in range, exactly the bytes
at the offsets of these fields are replaced by the encodings of the values; and
reading the new bytes gives these values, all other stored fields as before, and
computed fields that agree with them.
-/
theorem RecordType.update_isLens
    {type : RecordType}
    (known : type.IsKnown)
    {bytes : Bytes}
    (sized : bytes.length = type.fixedSize)
    {addr? : Option Int}
    {record : Record}
    (reads : type.read bytes addr? = .ok record)
    (defined : type.IsDefined record.fields)
    {news : Fields}
    (assigns : type.layout.Assigns news) :
    record.write = .ok bytes ∧
      ∃ written result,
        (record.update news).write = .ok written ∧
          type.Replaces news bytes written ∧
          type.read written addr? = .ok result ∧
          type.Sets news record.fields result.fields := by
  have isLossless := known.isLossless
  obtain ⟨typeIs, _⟩ := type_and_addr_of_read reads
  have yields := isLossless.yields_of_read reads (Nat.le_of_eq sized.symm)
  constructor
  · have nothing : type.IsUpdated bytes record.fields [] :=
      ⟨isLossless, yields, sized, defined, ⟨List.nodup_nil, by simp⟩⟩
    obtain ⟨written, writes⟩ := nothing.exists_write
    have replaces := nothing.replaces writes
    have same : written = bytes :=
      List.ext_getElem? fun index => replaces.others index (by simp)
    rw [Record.write, typeIs, ← same]
    exact writes
  · have isUpdated : type.IsUpdated bytes record.fields news :=
      ⟨isLossless, yields, sized, defined, assigns⟩
    obtain ⟨written, writes⟩ := isUpdated.exists_write
    obtain ⟨final, finalYields⟩ := isUpdated.exists_yields writes
    refine
      ⟨written, ⟨type, addr?, final⟩, ?_, isUpdated.replaces writes,
        isLossless.read_eq finalYields addr?,
        isUpdated.sets writes finalYields⟩
    rw [Record.write, Record.update, typeIs]
    exact writes

/-- A clipper scale of one and two sixteenths of a pixel. -/
def scalingBytes : Bytes :=
  [105, 0, 0, 128, 63, 0, 0, 0, 64]

/-- The fields that are read: the scale in sixteenths and in pixels. -/
def scalingFields : Fields :=
  [("opcode", .integer 105), ("x", .real 0x3FF0000000000000),
    ("y", .real 0x4000000000000000), ("x_px", .real 0x3FB0000000000000),
    ("y_px", .real 0x3FC0000000000000)]

/-- The scale is set to three, given as an integer, and to minus a half. -/
def scalingNews : Fields :=
  [("y", .integer 3), ("x", .real 0xBFE0000000000000)]

/-- Both coordinates of a clipper scale can be set at once, in any order. -/
theorem RecordType.update_isLens_scaling :
    ∃ record,
      PacketType.clipperScaling.record.IsKnown ∧
        scalingBytes.length =
          PacketType.clipperScaling.record.fixedSize ∧
        PacketType.clipperScaling.record.read scalingBytes none =
          .ok record ∧
        PacketType.clipperScaling.record.IsDefined record.fields ∧
        PacketType.clipperScaling.record.layout.Assigns scalingNews ∧
        record.write = .ok scalingBytes ∧
        ∃ written result,
          (record.update scalingNews).write = .ok written ∧
            PacketType.clipperScaling.record.Replaces scalingNews
              scalingBytes written ∧
            PacketType.clipperScaling.record.read written none =
              .ok result ∧
            PacketType.clipperScaling.record.Sets scalingNews
              record.fields result.fields := by
  have known : PacketType.clipperScaling.record.IsKnown := by
    refine ⟨.packet .clipperScaling, ?_, rfl⟩
    have inTable : PacketType.clipperScaling ∈ PacketType.all :=
      List.mem_of_find?_eq_some
        (show PacketType.find? 105 = some .clipperScaling from rfl)
    simp only [RecordKind.all, List.mem_append, List.mem_map]
    exact .inl (.inl (.inl ⟨_, List.mem_cons_of_mem _ inTable, rfl⟩))
  have reads :
      PacketType.clipperScaling.record.read scalingBytes none =
        .ok ⟨PacketType.clipperScaling.record, none, scalingFields⟩ := by
    with_unfolding_all rfl
  have defined : PacketType.clipperScaling.record.IsDefined scalingFields := by
    intro name fallback value _ given
    obtain ⟨earlier, others, shape, _⟩ :=
      List.lookup_eq_some_iff.mp given
    have member : (name, value) ∈ scalingFields := by
      rw [shape]
      simp
    have allDefined : ∀ field ∈ scalingFields, field.2.isDefined = true := by
      decide +kernel
    exact allDefined (name, value) member
  have assigns :
      PacketType.clipperScaling.record.layout.Assigns scalingNews := by
    refine ⟨by decide, fun name value isNew => ?_⟩
    simp only [scalingNews, List.mem_cons, List.not_mem_nil, or_false,
      Prod.mk.injEq] at isNew
    rcases isNew with ⟨rfl, rfl⟩ | ⟨rfl, rfl⟩
    · exact ⟨.single, none, by simp [PacketType.clipperScaling,
        PacketType.plain, Part.single],
        0x40400000, by decide, by decide, by decide +kernel,
        .number rfl (by decide +kernel)⟩
    · exact ⟨.single, none, by simp [PacketType.clipperScaling,
        PacketType.plain, Part.single],
        0xBF000000, by decide, by decide, by decide +kernel,
        .real _⟩
  exact ⟨_, known, rfl, reads, defined, assigns,
    RecordType.update_isLens known rfl reads defined assigns⟩

end VideoCore
