import VideoCore.Proofs.Report.Regular
import VideoCore.Proofs.Walk.Cursor
import VideoCore.Walk.Item

namespace VideoCore.Walk

/-!
# What an item can do

An item leaves the cursor where it is, or moves it ahead, or meets a reference
that it cannot follow.  It never does anything else, whatever bytes it finds
(`item_decodes`).
-/

/-- Whether the item at a cursor refers to an extended shader record. -/
def IsExtendedItem
    (phase : Phase)
    (cursor : Cursor) : Prop :=
  phase = .packets ∧ cursor.MeetsExtendedReference

/-- What decoding an item at a cursor can lead to. -/
inductive Decodes
    (memory : Memory)
    (phase : Phase)
    (cursor : Cursor) :
    Progress → Prop where
  /-- The list ends here. -/
  | stays
      {events : List Event}
      {ending : Ending}
      (plain : ¬IsExtendedItem phase cursor)
      (regular : ∀ event ∈ events, event.Regular memory) :
      Decodes memory phase cursor
        ⟨events, cursor, .ok (.ended ending)⟩
  /-- The item is decoded, and the list may go on after it. -/
  | moves
      {events : List Event}
      {next : Cursor}
      {outlook : Outlook}
      (plain : ¬IsExtendedItem phase cursor)
      (regular : ∀ event ∈ events, event.Regular memory)
      (moves : cursor.Moves next)
      (isFormat : IsFormat next.primMode) :
      Decodes memory phase cursor ⟨events, next, .ok outlook⟩
  /-- The item refers to an address in no buffer. -/
  | unmapped
      {events : List Event}
      {next : Cursor}
      {addr : Int}
      (plain : ¬IsExtendedItem phase cursor)
      (regular : ∀ event ∈ events, event.Regular memory)
      (moves : cursor.Moves next) :
      Decodes memory phase cursor
        ⟨events, next, .error (.unmapped addr)⟩
  /-- The item refers to an extended shader record. -/
  | extended
      {events : List Event}
      (extended : IsExtendedItem phase cursor)
      (regular : ∀ event ∈ events, event.Regular memory) :
      Decodes memory phase cursor
        ⟨events, cursor, .error .extendedShaderRecord⟩

variable {memory : Memory} {phase next : Phase} {cursor : Cursor}

/-! ## Records at the cursor -/

/-- A packet of a known type can be read where its bytes are left. -/
theorem exists_packetRecord
    (within : cursor.Within)
    {opcode : UInt8}
    {type : PacketType}
    (peeked : cursor.peek = .ok opcode)
    (found : PacketType.find? opcode.toNat = some type)
    (fits : cursor.fits type.size = true) :
    ∃ final record,
      Layout.Yields [] type.record.layout (cursor.take type.size) final ∧
        type.record.read (cursor.take type.size) (some cursor.addr) =
          .ok record ∧
        record.fields = final.filter (fun (name, _) => isKept name) ∧
        record.IsListable :=
  PacketType.exists_read found
    (within.take_one_of_peek peeked (PacketType.size_pos_of_find? found)) rfl
    (Nat.le_of_eq (within.length_take fits).symm) cursor.addr

/-- The form that a byte selects can be read where its bytes are left. -/
theorem exists_formRecord
    (within : cursor.Within)
    {code : UInt8}
    {form : IndexForm}
    (peeked : cursor.peek = .ok code)
    (selected : IndexForm.ofCode code.toNat = form)
    (fits : cursor.fits form.size = true) :
    ∃ final record,
      Layout.Yields [] form.record.layout (cursor.take form.size) final ∧
        form.record.read (cursor.take form.size) (some cursor.addr) =
          .ok record ∧
        record.fields = final.filter (fun (name, _) => isKept name) :=
  IndexForm.exists_read selected
    (within.take_one_of_peek peeked form.size_pos)
    (Nat.le_of_eq (within.length_take fits).symm) cursor.addr

/-! ## Moves of the cursor -/

/-- Decoding a packet never moves back. -/
theorem packet_moves :
    cursor.Moves (packet memory cursor).cursor := by
  unfold packet
  split
  · exact .refl cursor
  · split
    · exact .refl cursor
    · next found =>
        split
        · next fits =>
            unfold knownPacket
            split
            · exact .refl cursor
            · dsimp only
              split
              · exact .refl cursor
              · unfold carryOut
                split
                · exact .refl cursor
                · exact Cursor.moves_advance
                    (PacketType.size_pos_of_find? found) fits _
        · exact .refl cursor

theorem form_moves :
    cursor.Moves (form memory cursor).cursor := by
  unfold form
  split
  · exact .refl cursor
  · next code _ =>
      dsimp only
      split
      · next fits =>
          have moves :
              cursor.Moves
                (cursor.advance (IndexForm.ofCode code.toNat).size) :=
            Cursor.moves_advance (IndexForm.size_pos _) fits
              cursor.primMode
          unfold knownForm
          split
          · exact .refl cursor
          · dsimp only
            split
            · exact moves
            · unfold followBranch
              dsimp only
              split <;> exact moves
            · exact moves
      · exact .refl cursor

/-- An item leaves the cursor in its place or moves it on, inside its region. -/
theorem item_moves
    (memory : Memory)
    (phase : Phase)
    (cursor : Cursor) :
    cursor.Moves (item memory phase cursor).cursor := by
  unfold item
  split
  · split
    · exact packet_moves
    · exact .refl cursor
  · split
    · exact .refl cursor
    · split
      · exact form_moves
      · exact .refl cursor

/-- A move that brings the end of the region nearer leads further on. -/
theorem lt_addr_of_moves
    {moved : Cursor}
    (moves : cursor.Moves moved)
    (nearer : remaining moved < remaining cursor) :
    cursor.addr < moved.addr ∧ moved.addr ≤ cursor.stop := by
  have stop_eq := moves.stop_eq
  have place := moves.place
  simp only [remaining] at nearer
  omega

/-- An item that another one follows moves the cursor on, inside its region. -/
theorem lt_addr_item
    (follows : (item memory phase cursor).outcome = .ok (.follows next)) :
    cursor.addr < (item memory phase cursor).cursor.addr ∧
      (item memory phase cursor).cursor.addr ≤ cursor.stop :=
  lt_addr_of_moves (item_moves ..) (remaining_item_lt follows)

/-! ## What items lead to -/

namespace Decodes

variable {progress : Progress}

/-- The events of every item are regular. -/
theorem regular
    (decodes : Decodes memory phase cursor progress) :
    ∀ event ∈ progress.events, event.Regular memory := by
  cases decodes <;> assumption

/--
An item that another one follows is no extended reference, and keeps the format
in range.
-/
theorem of_follows
    (decodes : Decodes memory phase cursor progress)
    (follows : progress.outcome = .ok (.follows next)) :
    ¬IsExtendedItem phase cursor ∧ IsFormat progress.cursor.primMode := by
  cases decodes with
  | moves plain regular moves isFormat =>
      exact ⟨plain, isFormat⟩
  | stays | unmapped | extended =>
      cases follows

end Decodes

/-- The only extended reference at a cursor is that of the packet there. -/
theorem isExtendedReference_iff
    {opcode : UInt8}
    {type : PacketType}
    (peeked : cursor.peek = .ok opcode)
    (found : PacketType.find? opcode.toNat = some type)
    (fits : cursor.fits type.size = true) :
    IsExtendedReference opcode.toNat (cursor.take type.size) ↔
      cursor.MeetsExtendedReference := by
  constructor
  · intro extended
    obtain rfl :=
      PacketType.eq_shaderState_of_isExtendedReference found extended
    exact ⟨opcode, peeked, fits, extended⟩
  · rintro ⟨other, otherPeeked, _, extended⟩
    obtain rfl : opcode = other :=
      Except.ok.inj (peeked.symm.trans otherPeeked)
    obtain rfl :=
      PacketType.eq_shaderState_of_isExtendedReference found extended
    exact extended

/-- A packet that fits is listed, and leads to what its effect leads to. -/
theorem knownPacket_decodes
    (within : cursor.Within)
    (isFormat : IsFormat cursor.primMode)
    {opcode : UInt8}
    {type : PacketType}
    (peeked : cursor.peek = .ok opcode)
    (found : PacketType.find? opcode.toNat = some type)
    (fits : cursor.fits type.size = true) :
    Decodes memory .packets cursor
      (knownPacket memory cursor opcode.toNat type) := by
  have positive := PacketType.size_pos_of_find? found
  obtain ⟨final, record, yields, readsAs, fieldsAre, listable⟩ :=
    exists_packetRecord within peeked found fits
  obtain ⟨entries, entriesAre, printed⟩ :=
    listable.exists_entries id ["opcode"]
  have regular :
      ∀ event ∈
          packetEvent type cursor.addr opcode.toNat ::
            entries.map .entry,
        event.Regular memory := by
    intro event member
    rcases List.mem_cons.mp member with rfl | member
    · exact .entry (Entry.isPrinted_packet _)
    · obtain ⟨entry, entryMember, rfl⟩ := List.mem_map.mp member
      exact .entry (printed entry entryMember)
  simp only [knownPacket, readsAs, entriesAre, carryOut, fieldsAre]
  have extended_iff := isExtendedReference_iff peeked found fits
  by_cases extended :
      IsExtendedReference opcode.toNat (cursor.take type.size)
  · rw [PacketType.apply_of_isExtendedReference found yields extended]
    exact .extended ⟨rfl, extended_iff.mp extended⟩ regular
  · have plain : ¬IsExtendedItem .packets cursor :=
      fun item => extended (extended_iff.mpr item.2)
    have leads :=
      PacketType.apply_regular found yields extended memory isFormat
    generalize type.effect.apply memory cursor.primMode _ = result
      at leads
    cases leads with
    | format newFormat =>
        refine .moves plain ?_ (Cursor.moves_advance positive fits _)
          newFormat
        simpa using regular
    | @area area canonical =>
        refine .moves plain ?_ (Cursor.moves_advance positive fits _)
          isFormat
        intro event member
        rcases List.mem_append.mp member with shown | requested
        · exact regular event shown
        · obtain rfl := List.mem_singleton.mp requested
          exact .request canonical
    | unmapped addr =>
        exact .unmapped plain regular (.refl cursor)

/-- A packet before the end of the region. -/
theorem packet_decodes
    (within : cursor.Within)
    (isFormat : IsFormat cursor.primMode)
    (left : cursor.addr < cursor.stop) :
    Decodes memory .packets cursor (packet memory cursor) := by
  obtain ⟨opcode, peeked⟩ := within.exists_peek left
  have isReference :
      cursor.MeetsExtendedReference →
        PacketType.find? opcode.toNat = some PacketType.shaderState ∧
          cursor.fits PacketType.shaderState.size = true := by
    rintro ⟨other, otherPeeked, fits, extended⟩
    obtain rfl : opcode = other :=
      Except.ok.inj (peeked.symm.trans otherPeeked)
    rw [extended.1]
    exact ⟨rfl, fits⟩
  simp only [packet, peeked]
  cases found : PacketType.find? opcode.toNat with
  | none =>
      refine .stays ?_ ?_
      · rintro ⟨_, meets⟩
        rw [(isReference meets).1] at found
        contradiction
      · intro event member
        obtain rfl := List.mem_singleton.mp member
        exact .entry (Entry.isPrinted_unknownPacket opcode)
  | some type =>
      by_cases fits : cursor.fits type.size = true
      · simp only [fits, if_true]
        exact knownPacket_decodes within isFormat peeked found fits
      · simp only [fits]
        refine .stays ?_ ?_
        · rintro ⟨_, meets⟩
          obtain ⟨isType, isInside⟩ := isReference meets
          obtain rfl := Option.some.inj (found.symm.trans isType)
          exact fits isInside
        · intro event member
          simp only [List.mem_cons, List.not_mem_nil, or_false]
            at member
          rcases member with rfl | rfl
          · exact .entry (Entry.isPrinted_packet _)
          · exact .entry (Entry.isPrinted_error (by decide) ⟨_, rfl⟩)

/-- Forms of compressed index data refer to no shader records. -/
theorem not_isExtendedItem_forms :
    ¬IsExtendedItem .forms cursor := by
  rintro ⟨isPackets, _⟩
  contradiction

/-- A branch in compressed index data leads to a canonical area or nowhere. -/
theorem followBranch_decodes
    {next : Cursor}
    (moves : cursor.Moves next)
    (isTriangles : next.primMode = trianglesPrimMode)
    (addr : Int)
    (fields : Fields) :
    Decodes memory .forms cursor
      (followBranch memory addr next fields) := by
  unfold followBranch
  generalize targetIs :
    IndexForm.branchTarget (fields.integer "offset") addr = target
  have aligned : 32 ∣ target := by
    rw [← targetIs, IndexForm.branchTarget]
    omega
  have lower : 0 ≤ target := by
    rw [← targetIs, IndexForm.branchTarget]
    omega
  have upper : target < 2 ^ 32 := by
    rw [← targetIs, IndexForm.branchTarget]
    omega
  have shown :
      (formEvent .branch addr (.integer target)).Regular memory :=
    .entry (Entry.isPrinted_target target)
  rw [isTriangles]
  simp only [Memory.compressedListAt]
  rcases memory.areaToEnd_cases .compressedList target
      trianglesPrimMode with
    ⟨limit, resolved, areaIs⟩ | missing
  · rw [areaIs]
    refine .moves not_isExtendedItem_forms ?_ moves ?_
    · intro event member
      simp only [List.mem_cons, List.not_mem_nil, or_false] at member
      rcases member with rfl | rfl
      · exact shown
      · exact .request (.compressedList resolved aligned lower upper)
    · rw [isTriangles]
      exact isFormat_trianglesPrimMode
  · rw [missing]
    refine .unmapped not_isExtendedItem_forms ?_ moves
    intro event member
    obtain rfl := List.mem_singleton.mp member
    exact shown

/-- A form before the end of the region. -/
theorem form_decodes
    (within : cursor.Within)
    (isTriangles : cursor.primMode = trianglesPrimMode)
    (left : cursor.addr < cursor.stop) :
    Decodes memory .forms cursor (form memory cursor) := by
  obtain ⟨code, peeked⟩ := within.exists_peek left
  simp only [form, peeked]
  generalize selected : IndexForm.ofCode code.toNat = kind
  by_cases fits : cursor.fits kind.size = true
  · obtain ⟨final, record, yields, readsAs, fieldsAre⟩ :=
      exists_formRecord within peeked selected fits
    have moves : cursor.Moves (cursor.advance kind.size) :=
      Cursor.moves_advance kind.size_pos fits cursor.primMode
    have isFormat : IsFormat (cursor.advance kind.size).primMode := by
      rw [show (cursor.advance kind.size).primMode = trianglesPrimMode
        from isTriangles]
      exact isFormat_trianglesPrimMode
    have shown :
        kind ≠ .branch →
          ∀ event ∈
              [formEvent kind cursor.addr (kind.indices record.fields)],
            event.Regular memory := by
      intro noBranch event member
      obtain rfl := List.mem_singleton.mp member
      rw [fieldsAre]
      exact .entry
        (IndexForm.isPrinted_indices noBranch yields cursor.addr)
    simp only [fits, if_true, knownForm, readsAs]
    cases kind with
    | branch =>
        exact followBranch_decodes moves isTriangles _ _
    | escape | absolute | absoluteRelative | threeRelative
    | oneRelative =>
        exact .moves not_isExtendedItem_forms (shown (by decide)) moves
          isFormat
  · simp only [fits]
    refine .stays not_isExtendedItem_forms ?_
    intro event member
    obtain rfl := List.mem_singleton.mp member
    exact .entry (Entry.isPrinted_error (by decide) ⟨_, rfl⟩)

/-- Every item does what an item can do. -/
theorem item_decodes
    (memory : Memory)
    (phase : Phase)
    (within : cursor.Within)
    (isFormat : IsFormat cursor.primMode) :
    Decodes memory phase cursor (item memory phase cursor) := by
  cases phase with
  | packets =>
      by_cases left : cursor.addr < cursor.stop
      · simp only [item, left, if_true]
        exact packet_decodes within isFormat left
      · simp only [item, left, if_false]
        refine .stays ?_ (by simp)
        rintro ⟨_, _, _, fits, _⟩
        have positive : 0 < PacketType.shaderState.size := by decide
        simp only [Cursor.fits, decide_eq_true_eq] at fits
        omega
  | forms =>
      by_cases isTriangles : cursor.primMode = trianglesPrimMode
      · by_cases left : cursor.addr < cursor.stop
        · simp only [item, isTriangles, ne_eq, not_true_eq_false, left,
            if_true, if_false]
          exact form_decodes within isTriangles left
        · simp only [item, isTriangles, ne_eq, not_true_eq_false, left,
            if_false]
          exact .stays not_isExtendedItem_forms (by simp)
      · simp only [item, ne_eq, isTriangles, not_false_eq_true, if_true]
        refine .stays not_isExtendedItem_forms ?_
        intro event member
        obtain rfl := List.mem_singleton.mp member
        exact .entry (Entry.isPrinted_error (by decide) ⟨_, rfl⟩)

end VideoCore.Walk
