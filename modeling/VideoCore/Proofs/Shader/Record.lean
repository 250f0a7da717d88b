import VideoCore.Proofs.Area.Request
import VideoCore.Proofs.Record.Listing
import VideoCore.Proofs.Shader.Extent
import VideoCore.Walk.Area

namespace VideoCore.Shader

/-!
# Walks over shader records

A shader record is listed as a whole or reported as missing.  What follows a
listing are the programs of its three stages, each of which becomes an area or
is reported, whatever becomes of the others (`shaderRecord_isListedOrReported`).
-/

variable {memory : Memory} {anchor addr paddr : Int} {bytes : Bytes}

/-! ## Fields of records -/

/-- Shader records hold unsigned numbers only. -/
theorem isUnsigned_recordType : recordType.IsUnsigned where
  plain := by decide +kernel
  distinct := by decide
  kept := by decide +kernel
  sized := by decide
  unsigned := by decide +kernel

theorem isUnsigned_attributeType : attributeType.IsUnsigned where
  plain := by decide +kernel
  distinct := by decide
  kept := by decide +kernel
  sized := by decide
  unsigned := by decide +kernel

/-- The fields of an attribute, under the titles of their entries. -/
def attributeFields (index : Nat) : List (String × Encoding) :=
  attributeType.layout.fieldsUnder (attributeTitle index)

/--
The fields of a record with some attributes, under the titles of their entries.
-/
def listedFields (attributes : Nat) : List (String × Encoding) :=
  recordType.layout.fieldsUnder id ++
    (List.range attributes).flatMap attributeFields

/-- A captured record is listed, and is the result. -/
theorem listRecord_of_captures
    {type : RecordType}
    (isUnsigned : type.IsUnsigned)
    (captured :
      memory.Captures anchor addr (addr + type.fixedSize) bytes)
    (title : String → String) :
    ∃ entries,
      listRecord type bytes addr title =
          ⟨entries.map .entry,
            .ok ⟨type, some addr, type.layout.values bytes⟩⟩ ∧
        Entry.Tile memory anchor addr (type.layout.fieldsUnder title)
          entries (addr + type.fixedSize) := by
  have length := captured.length_eq
  obtain ⟨entries, listed, tile⟩ := isUnsigned.exists_tile captured title
  refine ⟨entries, ?_, tile⟩
  rw [listRecord, isUnsigned.read_eq (by omega), Traced.ofExcept_ok_bind,
    listed, Traced.ofExcept_ok_bind, Traced.emit_bind, Traced.events_pure,
    List.append_nil, Traced.outcome_pure]

/-- Captured attributes are listed one behind the other. -/
theorem listAttributes_of_captures
    {count : Nat}
    (captured :
      memory.Captures anchor addr (addr + 8 * count) bytes)
    (index : Nat) :
    ∃ entries attributes,
      listAttributes bytes addr index count =
          ⟨entries.map .entry, .ok attributes⟩ ∧
        Entry.Tile memory anchor addr
          ((List.range' index count).flatMap attributeFields) entries
          (addr + 8 * count) := by
  induction count generalizing addr index bytes with
  | zero =>
      refine ⟨[], [], rfl, ?_⟩
      rw [Int.natCast_zero, Int.mul_zero, Int.add_zero]
      exact .nil addr
  | succ count inductionHypothesis =>
      have sizeIs : attributeType.fixedSize = 8 := by decide
      have lastAddr :
          addr + 8 * ((count + 1 : Nat) : Int) =
            addr + attributeType.fixedSize + 8 * count := by
        omega
      rw [lastAddr] at captured ⊢
      obtain ⟨entries, isFirst, tile⟩ :=
        listRecord_of_captures isUnsigned_attributeType
          (captured.take (by omega)) (attributeTitle index)
      obtain ⟨others, attributes, areOthers, othersTile⟩ :=
        inductionHypothesis (captured.drop attributeType.fixedSize)
          (index + 1)
      refine
        ⟨entries ++ others,
          ⟨attributeType, some addr,
            attributeType.layout.values
              (bytes.take attributeType.fixedSize)⟩ :: attributes,
          ?_, ?_⟩
      · rw [listAttributes, isFirst, Traced.bind_of_ok rfl, areOthers,
          Traced.bind_of_ok rfl, Traced.events_pure, List.append_nil,
          ← List.map_append]
        rfl
      · rw [List.range'_succ, List.flatMap_cons]
        exact tile.append othersTile

/-! ## Programs of the stages -/

/--
Whether some events are those of a pointer to a program, by its place and its
value: the program becomes an area, behind the report of a missing end if there
is no end in all that is captured from its address on; a pointer that leads
nowhere is reported.
-/
inductive Follows
    (memory : Memory)
    (place pointer : Int)
    (type : AreaType) :
    List Event → Prop where
  | mapped
      {code : Window}
      {index : Nat}
      (shown : memory.view pointer none = .ok code)
      (ends : EndsAt code.toBytes index) :
      Follows memory place pointer type
        [.request
          ⟨type, pointer, (extent code).size, unsetPrimMode, 0, false⟩]
  | endless
      {code : Window}
      (shown : memory.view pointer none = .ok code)
      (endless : ∀ index, ¬EndsAt code.toBytes index) :
      Follows memory place pointer type
        [missingEndEvent type pointer,
          .request
            ⟨type, pointer, (extent code).size, unsetPrimMode, 0, false⟩]
  | unmapped
      (uncovered : ¬memory.Covers pointer) :
      Follows memory place pointer type
        (memory.unresolved place (.unmapped pointer))

/--
Whether some events are those of the pointer that is stored at an offset of a
record.
-/
def FollowsStored
    (memory : Memory)
    (paddr : Int)
    (offset : Nat)
    (type : AreaType)
    (events : List Event) :
    Prop :=
  ∃ stored,
    memory.Captures paddr (paddr + offset) (paddr + offset + 4) stored ∧
      Follows memory (paddr + offset) stored.toWord type events

/-- A pointer is followed, or reported at its place, and nothing fails. -/
theorem exists_follows
    (memory : Memory)
    (place pointer : Int)
    (type : AreaType) :
    ∃ events,
      Traced.reportingUncaptured memory place ()
          (do
            let _ ← programAt memory type pointer) =
          ⟨events, .ok ()⟩ ∧
        Follows memory place pointer type events := by
  by_cases covered : memory.Covers pointer
  · obtain ⟨limit, resolved, _⟩ := Memory.regionEnd_of_covers covered
    obtain ⟨code, shown, _⟩ := Memory.exists_view resolved none
    refine
      ⟨extentEvents type pointer code ++
          [.request
            ⟨type, pointer, (extent code).size, unsetPrimMode, 0,
              false⟩], ?_, ?_⟩
    · rw [programAt_eq type shown, Traced.bind_of_ok rfl,
        Traced.reportingUncaptured_of_ok rfl, Traced.events_pure,
        List.append_nil]
      rfl
    · rw [extentEvents]
      cases found : (extent code).found with
      | true =>
          obtain ⟨index, ends⟩ := (found_extent_iff code).mp found
          exact .mapped shown ends
      | false =>
          refine .endless shown fun index ends => ?_
          rw [(found_extent_iff code).mpr ⟨index, ends⟩] at found
          contradiction
  · refine
      ⟨memory.unresolved place (.unmapped pointer), ?_,
        .unmapped covered⟩
    rw [programAt_of_error type (Memory.view_of_not_covers covered none),
      Traced.bind_of_error rfl, Traced.reportingUncaptured_of_unmapped rfl,
      List.nil_append]

/--
The pointer of a stage is followed from the word that the record stores for it.
-/
theorem lookUpStage_of_captures
    (captured :
      memory.Captures paddr paddr (paddr + recordType.fixedSize) bytes)
    {stage : String}
    {offset : Nat}
    (placed :
      recordType.layout.offsets.lookup (codeField stage) = some offset)
    (inside : offset + 4 ≤ recordType.fixedSize)
    (isWord :
      (recordType.layout.filterMap Part.field?).lookup
          (codeField stage) =
        some (.word 4))
    (type : AreaType) :
    ∃ events,
      lookUpStage memory
          ⟨recordType, some paddr, recordType.layout.values bytes⟩ stage
          type =
          ⟨events, .ok ()⟩ ∧
        FollowsStored memory paddr offset type events := by
  have held :=
    Layout.get?_values isUnsigned_recordType.plain
      isUnsigned_recordType.distinct isWord placed bytes
  have pointer :
      (recordType.layout.values bytes).integer (codeField stage) =
        Bytes.toWord ((bytes.drop offset).take 4) := by
    rw [Fields.integer, held]
    rfl
  have place :
      Record.addressOf
          ⟨recordType, some paddr, recordType.layout.values bytes⟩
          (codeField stage) =
        .ok (paddr + offset) := by
    rw [Record.addressOf, RecordType.offset, placed, Option.elim_some,
      Outcome.ok_bind]
  have stored :=
    (captured.drop offset).take
      (show paddr + offset + (4 : Nat) ≤ paddr + recordType.fixedSize by
        omega)
  obtain ⟨events, looked, follows⟩ :=
    exists_follows memory (paddr + offset)
      (Bytes.toWord ((bytes.drop offset).take 4)) type
  refine ⟨events, ?_, _, stored, follows⟩
  rw [lookUpStage, place, Traced.ofExcept_ok_bind, pointer, looked]

/--
The programs of all stages are looked up, whatever becomes of each of them.
-/
theorem lookUpStages_of_captures
    (captured :
      memory.Captures paddr paddr (paddr + recordType.fixedSize) bytes) :
    ∃ coordinate vertex fragment,
      lookUpStages memory
          ⟨recordType, some paddr, recordType.layout.values bytes⟩
          stages =
          ⟨coordinate ++ vertex ++ fragment, .ok ()⟩ ∧
        FollowsStored memory paddr 28 .coordinateShader coordinate ∧
        FollowsStored memory paddr 16 .vertexShader vertex ∧
        FollowsStored memory paddr 4 .fragmentShader fragment := by
  obtain ⟨coordinate, csLooked, csFollows⟩ :=
    @lookUpStage_of_captures memory paddr bytes captured "cs" 28
      (by decide) (by decide) (by decide) .coordinateShader
  obtain ⟨vertex, vsLooked, vsFollows⟩ :=
    @lookUpStage_of_captures memory paddr bytes captured "vs" 16
      (by decide) (by decide) (by decide) .vertexShader
  obtain ⟨fragment, fsLooked, fsFollows⟩ :=
    @lookUpStage_of_captures memory paddr bytes captured "fs" 4
      (by decide) (by decide) (by decide) .fragmentShader
  refine
    ⟨coordinate, vertex, fragment, ?_, csFollows, vsFollows, fsFollows⟩
  simp only [stages, lookUpStages]
  rw [csLooked, Traced.bind_of_ok rfl, vsLooked, Traced.bind_of_ok rfl,
    fsLooked, Traced.bind_of_ok rfl, Traced.events_pure, Traced.outcome_pure,
    List.append_nil, List.append_assoc]

/--
A captured record is listed with its attributes, and its programs are looked up.
-/
theorem walkRecord_of_captures
    {area : Area}
    {attributes : Nat}
    (counted : area.attributes = attributes)
    (isRead : memory.read area.paddr area.size = .ok bytes)
    (captured :
      memory.Captures area.paddr area.paddr
        (area.paddr + (36 + attributes * 8)) bytes) :
    ∃ listed entries coordinate vertex fragment,
      walkRecord memory area =
          ⟨entries.map .entry ++ (coordinate ++ vertex ++ fragment),
            .ok listed⟩ ∧
        Entry.Tile memory area.paddr area.paddr (listedFields attributes)
          entries (area.paddr + (36 + attributes * 8)) ∧
        FollowsStored memory area.paddr 28 .coordinateShader coordinate ∧
        FollowsStored memory area.paddr 16 .vertexShader vertex ∧
        FollowsStored memory area.paddr 4 .fragmentShader fragment := by
  have sizeIs : recordType.fixedSize = 36 := by decide
  have lastAddr :
      area.paddr + (36 + (attributes : Int) * 8) =
        area.paddr + recordType.fixedSize + 8 * attributes := by
    omega
  rw [lastAddr] at captured ⊢
  have own :=
    captured.take
      (show area.paddr + recordType.fixedSize ≤
          area.paddr + recordType.fixedSize + 8 * attributes by
        omega)
  have behind := captured.drop recordType.fixedSize
  obtain ⟨head, headListed, headTile⟩ :=
    listRecord_of_captures isUnsigned_recordType own id
  obtain ⟨others, records, othersListed, othersTile⟩ :=
    listAttributes_of_captures behind 0
  obtain ⟨coordinate, vertex, fragment, looked, follow⟩ :=
    lookUpStages_of_captures own
  refine
    ⟨⟨⟨recordType, some area.paddr,
        recordType.layout.values (bytes.take recordType.fixedSize)⟩,
        records⟩,
      head ++ others, coordinate, vertex, fragment, ?_, ?_, follow⟩
  · have count : area.attributes.toNat = attributes := by omega
    rw [walkRecord, isRead, Traced.ofExcept_ok_bind]
    dsimp only
    rw [headListed, Traced.bind_of_ok rfl, count, othersListed,
      Traced.bind_of_ok rfl, looked, Traced.bind_of_ok rfl]
    simp only [Traced.events_pure, Traced.outcome_pure, List.append_nil,
      List.map_append, List.append_assoc]
  · rw [listedFields, List.range_eq_range']
    exact headTile.append othersTile

/--
The area of a shader record is listed as a whole, or reported as a whole if it
is cut off by the end of its buffer: with one entry, at the record, and nothing
is requested.  The entries of the fields of the record and its attributes tile
the area in order, each with the number that is stored there.  Then the pointers
to the coordinate, the vertex and the fragment shader are followed, each by
itself.
-/
theorem shaderRecord_isListedOrReported
    (memory : Memory)
    (text : Disassembler)
    {paddr : Int}
    (covered : memory.Covers paddr)
    (attributes : Nat) :
    ∃ area limit,
      memory.shaderRecordAt paddr attributes false = .ok area ∧
        area.paddr = paddr ∧
        area.size = 36 + attributes * 8 ∧
        memory.regionEnd paddr = .ok limit ∧
        (limit < area.stop →
          Walk.area memory text area =
              ⟨memory.unresolved paddr (.unmapped limit), .ok none⟩ ∧
            Event.entries (Walk.area memory text area).events =
              [⟨some paddr, Entry.unresolved, .integer limit, .error⟩] ∧
            Event.requests (Walk.area memory text area).events = []) ∧
        (area.stop ≤ limit →
          ∃ entries coordinate vertex fragment,
            Walk.area memory text area =
                ⟨entries.map .entry ++ (coordinate ++ vertex ++ fragment),
                  .ok none⟩ ∧
              Entry.Tile memory paddr paddr (listedFields attributes)
                entries area.stop ∧
              FollowsStored memory paddr 28 .coordinateShader
                coordinate ∧
              FollowsStored memory paddr 16 .vertexShader vertex ∧
              FollowsStored memory paddr 4 .fragmentShader fragment) := by
  obtain ⟨limit, resolved, _⟩ := Memory.regionEnd_of_covers covered
  let area : Area :=
    ⟨.shaderRecord, paddr, 36 + attributes * 8, unsetPrimMode, attributes,
      false⟩
  have isArea : memory.shaderRecordAt paddr attributes false = .ok area := by
    simp only [Memory.shaderRecordAt, sizeOfShaderRecord, Bool.false_eq_true,
      if_false, Outcome.ok_bind, Memory.sizedArea, resolved]
    rfl
  have isWalk :
      Walk.area memory text area =
        Traced.reportingUncaptured memory paddr none
          (walkRecord memory area >>= fun _ => return none) :=
    rfl
  refine ⟨area, limit, isArea, rfl, rfl, resolved, ?_, ?_⟩
  · intro outside
    have missing :
        memory.read area.paddr area.size = .error (.unmapped limit) :=
      Memory.read_of_not_fits resolved outside
    rw [isWalk, walkRecord, missing, Traced.ofExcept_error_bind,
      Traced.bind_of_error rfl, Traced.reportingUncaptured_of_unmapped rfl,
      List.nil_append]
    exact ⟨rfl, rfl, rfl⟩
  · intro fits
    obtain ⟨bytes, isRead, _⟩ :=
      @Memory.read_of_fits memory paddr limit (36 + attributes * 8)
        resolved fits
    obtain ⟨_, _, captured⟩ := (Memory.read_eq_ok_iff resolved).mp isRead
    obtain ⟨listed, entries, coordinate, vertex, fragment, walked, tile,
      follow⟩ :=
      @walkRecord_of_captures memory bytes area attributes rfl isRead
        captured
    refine
      ⟨entries, coordinate, vertex, fragment, ?_, tile, follow⟩
    rw [isWalk, walked, Traced.bind_of_ok rfl,
      Traced.reportingUncaptured_of_ok rfl, Traced.events_pure,
      Traced.outcome_pure, List.append_nil]

/-- A buffer with room for a record and one attribute. -/
def recordBuffer : Buffer :=
  ⟨1, 0x1000, Array.replicate 44 0, some 0⟩

/--
At its start the buffer holds the record, four bytes further on it does not.
-/
theorem shaderRecord_isListedOrReported_atEnd :
    Memory.Covers [recordBuffer] 0x1000 ∧
      Memory.Covers [recordBuffer] 0x1004 ∧
      (∃ entries events,
        Walk.area [recordBuffer] disassemble
            ⟨.shaderRecord, 0x1000, 44, unsetPrimMode, 1, false⟩ =
            ⟨entries.map .entry ++ events, .ok none⟩ ∧
          Entry.Tile [recordBuffer] 0x1000 0x1000 (listedFields 1)
            entries 0x102c) ∧
      Walk.area [recordBuffer] disassemble
          ⟨.shaderRecord, 0x1004, 44, unsetPrimMode, 1, false⟩ =
        ⟨Memory.unresolved [recordBuffer] 0x1004 (.unmapped 0x102c),
          .ok none⟩ := by
  have atStart : Memory.Covers [recordBuffer] 0x1000 :=
    ⟨recordBuffer, List.mem_singleton_self _, by decide⟩
  have behindStart : Memory.Covers [recordBuffer] 0x1004 :=
    ⟨recordBuffer, List.mem_singleton_self _, by decide⟩
  obtain ⟨area, limit, isArea, _, _, resolved, _, isListed⟩ :=
    shaderRecord_isListedOrReported [recordBuffer] disassemble atStart 1
  obtain ⟨other, otherLimit, isOther, _, _, otherResolved, isReported, _⟩ :=
    shaderRecord_isListedOrReported [recordBuffer] disassemble
      behindStart 1
  cases isArea
  cases resolved
  cases isOther
  cases otherResolved
  obtain ⟨entries, coordinate, vertex, fragment, walked, tile, _⟩ :=
    isListed (by decide)
  exact ⟨atStart, behindStart, ⟨entries, _, walked, tile⟩,
    (isReported (by decide)).1⟩

end VideoCore.Shader
