import VideoCore.Proofs.Snapshot.Acceptance

namespace VideoCore

/-!
# Writing accepted snapshots

What has been read from a container is written as the same container, except
that the padding of the table is cleared (`Snapshot.write_of_decode`).
-/

/-! ## States -/

/-- A state starts with the names of its layout. -/
theorem names_initialState :
    initialState.map Prod.fst = hangState.layout.names := by
  rw [initialState, List.map_filterMap, Layout.names]
  congr 1
  funext part
  cases part.name? <;> rfl

/-! ## Records of the table -/

namespace BufferEntry

theorem ofRecord_eq
    (record : Bytes) :
    ofRecord record =
      { handle := Bytes.toWord (record.take 4)
        paddr := Bytes.toWord ((record.drop 4).take 4)
        size := Bytes.toWord ((record.drop 8).take 4) } := by
  simp [ofRecord, ofFields, bufferRecord, Part.count, Part.word,
    Layout.values, Encoding.value, Encoding.size, Fields.integer,
    Fields.get?_cons, Value.integer?]

end BufferEntry

namespace Snapshot

/-- A record of the table with its padding cleared. -/
def cleared (record : Bytes) : Bytes :=
  record.take 12 ++ [0, 0, 0, 0]

/-- A buffer is written as the record that announces it. -/
theorem write_bufferFields
    {record : Bytes}
    (whole : record.length = bufferRecord.fixedSize)
    {buffer : Buffer}
    (announced : (BufferEntry.ofRecord record).Announces buffer) :
    bufferRecord.layout.write (bufferFields buffer) =
      .ok (cleared record) := by
  have length : record.length = 16 := whole
  rw [BufferEntry.ofRecord_eq] at announced
  have handle := Encoding.writeWord_toWord (show 4 ≤ record.length by omega)
  have paddr :=
    Encoding.writeWord_toWord
      (show 4 ≤ (record.drop 4).length by rw [List.length_drop]; omega)
  have size :=
    Encoding.writeWord_toWord
      (show 4 ≤ (record.drop 8).length by rw [List.length_drop]; omega)
  have sizeIs : buffer.size = Bytes.toWord ((record.drop 8).take 4) :=
    announced.size_eq
  rw [← announced.handle_eq, ← Encoding.write_count] at handle
  rw [← announced.paddr_eq, ← Encoding.write_word] at paddr
  rw [← sizeIs, ← Encoding.write_word] at size
  have padding :
      (Encoding.word 4).write (.integer 0) = .ok [0, 0, 0, 0] := by
    simp [Encoding.write_word, writeWord, Bytes.ofWord]
  have given :
      (bufferFields buffer).get? "handle" =
          some (.integer buffer.handle) ∧
        (bufferFields buffer).get? "paddr" =
          some (.integer buffer.paddr) ∧
        (bufferFields buffer).get? "size" =
          some (.integer buffer.size) ∧
        (bufferFields buffer).get? "pad" = some (.integer 0) :=
    ⟨rfl, rfl, rfl, rfl⟩
  rcases given with ⟨handleGiven, paddrGiven, sizeGiven, paddingGiven⟩
  have stores :
      Layout.Stores (bufferFields buffer) bufferRecord.layout
        (record.take 4 ++
          ((record.drop 4).take 4 ++
            ((record.drop 8).take 4 ++ ([0, 0, 0, 0] ++ [])))) :=
    .field handleGiven (Value.integer_ne_absent _) handle
      (.field paddrGiven (Value.integer_ne_absent _) paddr
        (.field sizeGiven (Value.integer_ne_absent _) size
          (.field paddingGiven (Value.integer_ne_absent _) padding
            .nil)))
  have joined :
      record.take 4 ++
          ((record.drop 4).take 4 ++
            ((record.drop 8).take 4 ++ ([0, 0, 0, 0] ++ []))) =
        cleared record := by
    rw [cleared, show (12 : Nat) = 4 + (4 + 4) from rfl, List.take_add,
      List.take_add, List.drop_drop, List.append_nil]
    simp only [List.append_assoc]
  rw [← joined]
  exact stores.write_eq

/-- The table is written as it was read, but for the padding. -/
theorem writeTable_eq
    {records : List Bytes}
    (whole : AreWhole records)
    {buffers : Memory}
    (announced :
      List.Forall₂ BufferEntry.Announces
        (records.map BufferEntry.ofRecord) buffers) :
    writeTable buffers = .ok (records.map cleared).flatten := by
  induction buffers generalizing records with
  | nil =>
      cases records with
      | nil =>
          rfl
      | cons record rest =>
          cases announced
  | cons buffer others inductionHypothesis =>
      cases records with
      | nil =>
          cases announced
      | cons record rest =>
          obtain ⟨ownWhole, restWhole⟩ := List.forall_mem_cons.mp whole
          obtain ⟨own, later⟩ := List.forall₂_cons.mp announced
          rw [writeTable, write_bufferFields ownWhole own,
            Outcome.ok_bind, inductionHypothesis restWhole later,
            Outcome.ok_bind, List.map_cons, List.flatten_cons]

/--
A state is written as the header that stores it, before the table of the
buffers.
-/
theorem encode_eq
    {state : Fields}
    (free : state.get? occupiedName = none)
    {buffers : Memory}
    {header : Bytes}
    (stores :
      Layout.Stores
        ((initialState.update state).set "bo_count"
          (.integer buffers.length))
        hangState.layout header)
    {records : List Bytes}
    (whole : AreWhole records)
    (announced :
      List.Forall₂ BufferEntry.Announces
        (records.map BufferEntry.ofRecord) buffers) :
    encode state buffers =
      .ok
        (Bytes.ofWord 4 snapshotVersion ++ header ++
          (records.map cleared).flatten ++ writeContents buffers) := by
  simp only [encode, free, Option.isSome_none, Bool.false_eq_true,
    if_false, stores.write_eq, writeTable_eq whole announced,
    Outcome.ok_bind]

/-! ## Padding -/

/--
Whether a position is in the padding of one of the first `count` records of the
table.
-/
def isTablePadding (count position : Nat) : Bool :=
  164 ≤ position && position < 164 + 16 * count &&
    12 ≤ (position - 164) % 16

/-- A container with the padding of `count` records set to zero. -/
def clearPadding
    (count : Nat)
    (container : Bytes) : Bytes :=
  container.mapIdx fun position byte =>
    if isTablePadding count position then 0 else byte

theorem mapIdx_eq_self
    {bytes : Bytes}
    {change : Nat → UInt8 → UInt8}
    (same :
      ∀ position byte,
        position < bytes.length → change position byte = byte) :
    bytes.mapIdx change = bytes := by
  apply List.ext_getElem
  · exact List.length_mapIdx
  · intro position _ inside
    rw [List.getElem_mapIdx, same _ _ inside]

/-- Bytes before the table or behind it are no padding. -/
theorem mapIdx_of_outside
    {count start : Nat}
    {bytes : Bytes}
    (outside : start + bytes.length ≤ 164 ∨ 164 + 16 * count ≤ start) :
    (bytes.mapIdx fun position byte =>
        if isTablePadding count (position + start) then 0 else byte) =
      bytes := by
  refine mapIdx_eq_self fun position byte inside => ?_
  have noPadding : isTablePadding count (position + start) = false := by
    simp only [isTablePadding, Bool.and_eq_false_iff,
      decide_eq_false_iff_not]
    omega
  rw [noPadding, if_neg Bool.false_ne_true]

/-- Clearing the last word of a record clears its padding. -/
theorem mapIdx_record
    {record : Bytes}
    (whole : record.length = bufferRecord.fixedSize) :
    (record.mapIdx fun position byte =>
        if 12 ≤ position % 16 then 0 else byte) =
      cleared record := by
  have length : record.length = 16 := whole
  have front : (record.take 12).length = 12 :=
    List.length_take_of_le (by omega)
  have back : (record.drop 12).length = 4 := by
    rw [List.length_drop, length]
  have frontSame :
      ((record.take 12).mapIdx fun position byte =>
          if 12 ≤ position % 16 then 0 else byte) =
        record.take 12 := by
    refine mapIdx_eq_self fun position byte inside => ?_
    rw [if_neg (by omega)]
  have backZero :
      ((record.drop 12).mapIdx fun position byte =>
          if 12 ≤ (position + 12) % 16 then 0 else byte) =
        [0, 0, 0, 0] := by
    match record.drop 12, back with
    | [_, _, _, _], _ =>
        simp
  rw [cleared, ← frontSame, ← backZero]
  conv_lhs => rw [← List.take_append_drop 12 record]
  rw [List.mapIdx_append, front]

theorem mapIdx_table
    {records : List Bytes}
    (whole : AreWhole records) :
    (records.flatten.mapIdx fun position byte =>
        if 12 ≤ position % 16 then 0 else byte) =
      (records.map cleared).flatten := by
  induction records with
  | nil =>
      rfl
  | cons record rest inductionHypothesis =>
      obtain ⟨ownWhole, restWhole⟩ := List.forall_mem_cons.mp whole
      have length : record.length = 16 := ownWhole
      rw [List.flatten_cons, List.mapIdx_append, mapIdx_record ownWhole,
        length]
      simp only [Nat.add_mod_right]
      rw [inductionHypothesis restWhole, List.map_cons,
        List.flatten_cons]

theorem length_flatten
    {records : List Bytes}
    (whole : AreWhole records) :
    records.flatten.length = 16 * records.length := by
  induction records with
  | nil =>
      rfl
  | cons record rest inductionHypothesis =>
      obtain ⟨ownWhole, restWhole⟩ := List.forall_mem_cons.mp whole
      have length : record.length = 16 := ownWhole
      rw [List.flatten_cons, List.length_append,
        inductionHypothesis restWhole, List.length_cons]
      omega

theorem length_writeContents
    (buffers : Memory) :
    (writeContents buffers).length = buffers.capacity := by
  induction buffers with
  | nil =>
      rfl
  | cons buffer rest inductionHypothesis =>
      rw [writeContents_cons, List.length_append, inductionHypothesis]
      rfl

end Snapshot

namespace Container

variable (container : Container)

/-- Clearing the padding changes the records of the table only. -/
theorem clearPadding_bytes :
    Snapshot.clearPadding container.records.length container.bytes =
      Bytes.ofWord 4 snapshotVersion ++ container.header ++
        (container.records.map Snapshot.cleared).flatten ++
          Snapshot.writeContents container.buffers := by
  have version := length_version
  have header : container.header.length = 160 := container.header_whole
  have table := Snapshot.length_flatten container.records_whole
  have shape :
      container.bytes =
        (Bytes.ofWord 4 snapshotVersion ++ container.header) ++
          container.records.flatten ++
            Snapshot.writeContents container.buffers := by
    simp only [bytes, body, List.append_assoc]
  have front :
      (Bytes.ofWord 4 snapshotVersion ++ container.header).length =
        164 := by
    rw [List.length_append]
    omega
  have behindTable :
      (Bytes.ofWord 4 snapshotVersion ++ container.header ++
          container.records.flatten).length =
        164 + 16 * container.records.length := by
    rw [List.length_append, front, table]
  rw [shape, Snapshot.clearPadding, List.mapIdx_append,
    List.mapIdx_append, front, behindTable]
  congr 1
  · congr 1
    · exact @Snapshot.mapIdx_of_outside _ 0 _ (.inl (by omega))
    · rw [← Snapshot.mapIdx_table container.records_whole,
        List.mapIdx_eq_mapIdx_iff]
      intro position inside
      have padding :
          Snapshot.isTablePadding container.records.length
              (position + 164) =
            decide (12 ≤ position % 16) := by
        simp only [Snapshot.isTablePadding, Nat.add_sub_cancel]
        rw [decide_eq_true (by omega), decide_eq_true (by omega)]
        rfl
      simp only [padding, decide_eq_true_eq]
  · exact Snapshot.mapIdx_of_outside (.inr (by omega))

theorem names_state :
    container.state.map Prod.fst = hangState.layout.names :=
  Layout.names_values RecordType.isRegular_hangState.plain _

theorem fields_record_state :
    (StateSource.record container.state).fields = container.state :=
  RecordType.filter_isKept RecordType.isRegular_hangState.kept
    container.names_state

theorem get?_count :
    container.state.get? "bo_count" =
      some (.decimal container.records.length) := by
  have counted := container.counted
  have held :
      container.state.get? "bo_count" =
        some (.decimal (Bytes.toWord ((container.header.drop 8).take 4))) :=
    rfl
  rw [state] at held
  rw [Fields.integer, held] at counted
  rw [state, held, ← counted]
  rfl

/-- The state of a container is written as its header. -/
theorem stores_header :
    Layout.Stores
      ((initialState.update container.state).set "bo_count"
        (.integer container.records.length))
      hangState.layout container.header := by
  have exact : hangState.layout.all Part.isExact = true := by decide
  have distinct : (container.state.map Prod.fst).Nodup := by
    rw [container.names_state]
    exact RecordType.isRegular_hangState.distinct
  have replaced : initialState.update container.state = container.state :=
    Fields.update_of_names distinct
      (names_initialState.trans container.names_state.symm)
  have asRead :
      Layout.Stores container.state hangState.layout
        (container.header.take hangState.fixedSize) :=
    Layout.stores_of_values exact RecordType.isRegular_hangState.sized
      (Nat.le_of_eq container.header_whole.symm)
      (fun field member => Fields.get?_of_mem distinct member)
  rw [List.take_of_length_le (Nat.le_of_eq container.header_whole)]
    at asRead
  rw [replaced]
  refine asRead.congr fun name value given present => ?_
  rw [Fields.get?_set]
  by_cases isCount : "bo_count" = name
  · subst isCount
    rw [container.get?_count] at given
    cases given
    rw [if_pos rfl]
    exact ⟨_, rfl, Value.integer_ne_absent _,
      fun encoding => (encoding.write_decimal _).symm⟩
  · rw [if_neg isCount]
    exact ⟨value, given, present, fun _ => rfl⟩

/-- The table has an entry for every buffer. -/
theorem length_records :
    container.records.length = container.buffers.length := by
  have length := container.announced.length_eq
  rwa [List.length_map] at length

/-- Writing what a container says clears its padding. -/
theorem write_eq :
    Snapshot.write (.record container.state) container.buffers =
      .ok
        (Snapshot.clearPadding container.buffers.length
          container.bytes) := by
  have free : container.state.get? Snapshot.occupiedName = none := by
    refine Fields.get?_eq_none ?_
    rw [container.names_state]
    decide
  have stores := container.stores_header
  rw [container.length_records] at stores
  rw [Snapshot.write, container.fields_record_state,
    Snapshot.encode_eq free stores container.records_whole
      container.announced,
    ← container.length_records, container.clearPadding_bytes]

/-- A container has room for version, header, table and contents. -/
theorem length_bytes :
    container.bytes.length =
      4 + 160 + 16 * container.buffers.length +
        container.buffers.capacity := by
  have version := length_version
  have header : container.header.length = 160 := container.header_whole
  have table := Snapshot.length_flatten container.records_whole
  have contents := Snapshot.length_writeContents container.buffers
  rw [container.length_records] at table
  rw [bytes, body]
  simp only [List.length_append, version, header, table, contents]
  omega

end Container

namespace Snapshot

/--
An accepted byte string consists of the version, the header, the table, the
contents of all buffers, and the trailing bytes.  Writing the snapshot again
gives the same bytes up to the trailing ones, with the padding of the table set
to zero.
-/
theorem write_of_decode
    {input : Bytes}
    {snapshot : Snapshot}
    (accepted : decode input = .ok snapshot) :
    snapshot.state.get "bo_count" = .decimal snapshot.buffers.length ∧
      input.length =
        4 + 160 + 16 * snapshot.buffers.length +
          snapshot.buffers.capacity + snapshot.trailing ∧
      write (.record snapshot.state) snapshot.buffers =
        .ok
          (clearPadding snapshot.buffers.length
            (input.take (input.length - snapshot.trailing))) := by
  obtain ⟨container, later, rfl, rfl⟩ :=
    exists_container_of_decode accepted
  simp only [Container.snapshot]
  refine ⟨?_, ?_, ?_⟩
  · rw [Fields.get, container.get?_count, container.length_records]
    rfl
  · rw [List.length_append, container.length_bytes]
  · rw [List.length_append, Nat.add_sub_cancel, List.take_left]
    exact container.write_eq

/-- A container with one buffer, whose record has padding that is not zero. -/
def paddedContainer : Container where
  header := List.replicate 8 0 ++ [1, 0, 0, 0] ++ List.replicate 148 0
  records := [[7, 0, 0, 0, 0, 16, 0, 0, 2, 0, 0, 0, 9, 9, 9, 9]]
  buffers := [⟨7, 0x1000, #[0xaa, 0xbb], some 0⟩]
  header_whole := by decide +kernel
  records_whole := by simp only [AreWhole, List.forall_mem_singleton]; decide
  counted := by decide
  announced := .cons ⟨rfl, rfl, rfl⟩ .nil
  numbered := rfl

/-- One buffer whose entry has padding that is not empty. -/
theorem write_of_decode_padded :
    decode (paddedContainer.bytes ++ [0xcc]) =
        .ok (paddedContainer.snapshot 1) ∧
      ∃ written,
        write (.record paddedContainer.state) paddedContainer.buffers =
            .ok written ∧
          written.drop 164 =
            [7, 0, 0, 0, 0, 16, 0, 0, 2, 0, 0, 0, 0, 0, 0, 0,
              0xaa, 0xbb] := by
  have accepted := paddedContainer.decode_eq [0xcc]
  obtain ⟨_, _, rewritten⟩ := write_of_decode accepted
  refine ⟨accepted, _, rewritten, ?_⟩
  decide +kernel

end Snapshot

end VideoCore
