import VideoCore.Proofs.Walk.Reference

namespace VideoCore

/-!
# What items do

Decoding either finds nothing that can be decoded at a cursor, or a packet or
form that fits.  Such an item is shown, what it refers to is requested or is in
no buffer, and the next item stands behind it.  There is nothing else that an
item does (`Walk.item_finds`).
-/

/-- The item of a phase that is stored at an address. -/
def itemAt?
    (byteAt? : Int → Option UInt8)
    (phase : Phase)
    (addr : Int) : Option ItemType :=
  (byteAt? addr).bind (ItemType.ofByte? phase)

/-- No item is empty. -/
theorem ItemType.size_pos_of_itemAt?
    {byteAt? : Int → Option UInt8}
    {phase : Phase}
    {addr : Int}
    {item : ItemType}
    (found : itemAt? byteAt? phase addr = some item) :
    0 < item.size := by
  obtain ⟨first, _, selected⟩ := Option.bind_eq_some_iff.mp found
  cases phase with
  | packets =>
      obtain ⟨type, known, rfl⟩ := Option.map_eq_some_iff.mp selected
      exact PacketType.size_pos_of_find? known
  | forms =>
      cases selected
      exact IndexForm.size_pos _

/-- The cursor that an item leaves if it refers to an address in no buffer. -/
def ItemType.interrupted
    (item : ItemType)
    (cursor : Cursor) : Cursor :=
  match item with
  | .packet _ => cursor
  | .form kind => cursor.advance kind.size

namespace Entry

/-- The phase of the item that an entry is for. -/
def phase? (entry : Entry) : Option Phase :=
  match entry.kind with
  | .packet => some .packets
  | .compressed => some .forms
  | _ => none

/--
The item that an entry is for, as it is stored at the address of the entry.
-/
def item?
    (byteAt? : Int → Option UInt8)
    (entry : Entry) : Option ItemType := do
  let phase ← entry.phase?
  let addr ← entry.addr
  itemAt? byteAt? phase addr

/-- Whether an entry is for an item of a phase at an address. -/
structure IsHead
    (entry : Entry)
    (phase : Phase)
    (addr : Int) : Prop where
  addr_eq : entry.addr = some addr
  phase_eq : entry.phase? = some phase

namespace IsHead

variable {byteAt? : Int → Option UInt8} {phase : Phase} {addr : Int}
  {head : Entry} {item : ItemType}

theorem isItem_eq_true
    (isHead : head.IsHead phase addr) :
    head.isItem = true := by
  have phaseIs := isHead.phase_eq
  unfold phase? at phaseIs
  unfold isItem
  split at phaseIs
  · next isPacket =>
      rw [isPacket]
      rfl
  · next isForm =>
      rw [isForm]
      rfl
  · contradiction

theorem kind_ne_error
    (isHead : head.IsHead phase addr) :
    head.kind ≠ .error := by
  intro isError
  have phaseIs := isHead.phase_eq
  rw [phase?, isError] at phaseIs
  contradiction

theorem eq_forms
    (isHead : head.IsHead phase addr)
    (isForm : head.kind = .compressed) :
    phase = .forms := by
  have phaseIs := isHead.phase_eq
  rw [phase?, isForm] at phaseIs
  exact (Option.some.inj phaseIs).symm

/-- The head of an item tells which item it is. -/
theorem item?_eq
    (isHead : head.IsHead phase addr)
    (found : itemAt? byteAt? phase addr = some item) :
    head.item? byteAt? = some item := by
  simp only [item?, isHead.phase_eq, isHead.addr_eq, Option.bind_eq_bind,
    Option.bind_some, found]

end IsHead

end Entry

/-- Whether an item stands at a cursor, and can be decoded. -/
structure Cursor.Meets
    (cursor : Cursor)
    (byteAt? : Int → Option UInt8)
    (phase : Phase)
    (item : ItemType) : Prop where
  found : itemAt? byteAt? phase cursor.addr = some item
  isSupported : phase = .forms → cursor.primMode = trianglesPrimMode
  fits : cursor.addr + item.size ≤ cursor.stop

theorem Cursor.fits_iff
    {cursor : Cursor}
    {size : Int} :
    cursor.fits size = true ↔ cursor.addr + size ≤ cursor.stop := by
  rw [Cursor.fits, decide_eq_true_eq]

/-- An item is met in its own phase. -/
theorem Cursor.Meets.phase_eq
    {cursor : Cursor}
    {byteAt? : Int → Option UInt8}
    {phase : Phase}
    {item : ItemType}
    (meets : cursor.Meets byteAt? phase item) :
    item.phase = phase := by
  obtain ⟨first, _, selected⟩ := Option.bind_eq_some_iff.mp meets.found
  exact ItemType.phase_of_ofByte? selected

namespace Walk

/-- Whether events show an item, with its fields behind it if it has any. -/
structure ShowsItem
    (cursor : Cursor)
    (phase : Phase)
    (head : Entry)
    (fields : List Entry)
    (events : List Event) : Prop where
  entries_eq : Event.entries events = head :: fields
  isHead : head.IsHead phase cursor.addr
  areFields : ∀ field ∈ fields, field.kind = .field

/-- What decoding finds at a cursor. -/
inductive Finds
    (memory : Memory)
    (byteAt? : Int → Option UInt8)
    (phase : Phase)
    (cursor : Cursor) :
    Progress → Prop where
  /-- The end of the region. -/
  | nothing
      (ended : cursor.stop ≤ cursor.addr) :
      Finds memory byteAt? phase cursor ⟨[], cursor, .ok (.ended .done)⟩
  /-- A byte that no item begins with. -/
  | unknown
      {first : UInt8}
      (stored : byteAt? cursor.addr = some first)
      (isUnknown : ItemType.ofByte? phase first = none) :
      Finds memory byteAt? phase cursor
        ⟨[.entry
            ⟨some cursor.addr, Entry.unknownPacket, .integer first.toNat,
              .error⟩],
          cursor, .ok (.ended .stopped)⟩
  /-- Compressed index data of another format. -/
  | unsupported
      (isForms : phase = .forms)
      (isRefused : cursor.primMode ≠ trianglesPrimMode) :
      Finds memory byteAt? phase cursor
        ⟨[unsupportedEvent cursor], cursor, .ok (.ended .stopped)⟩
  /-- A packet that does not fit. -/
  | packetOverflow
      {item : ItemType}
      {head : Entry}
      (isPackets : phase = .packets)
      (found : itemAt? byteAt? phase cursor.addr = some item)
      (isHead : head.IsHead phase cursor.addr)
      (left : cursor.addr < cursor.stop)
      (beyond : cursor.stop < cursor.addr + item.size) :
      Finds memory byteAt? phase cursor
        ⟨[.entry head, overflowEvent cursor], cursor, .ok (.ended .stopped)⟩
  /-- A form that does not fit. -/
  | formOverflow
      {item : ItemType}
      (isForms : phase = .forms)
      (found : itemAt? byteAt? phase cursor.addr = some item)
      (left : cursor.addr < cursor.stop)
      (beyond : cursor.stop < cursor.addr + item.size) :
      Finds memory byteAt? phase cursor
        ⟨[overflowEvent cursor], cursor, .ok (.ended .stopped)⟩
  /-- An item that is passed. -/
  | passed
      {item : ItemType}
      {head : Entry}
      {fields : List Entry}
      {events : List Event}
      (meets : cursor.Meets byteAt? phase item)
      (shows : ShowsItem cursor phase head fields events)
      (resolves :
        ∀ reference,
          item.reference? byteAt? cursor.addr cursor.primMode =
            some reference →
          memory.Covers reference.target)
      (requests_eq :
        Event.requests events =
          ((item.reference? byteAt? cursor.addr cursor.primMode).bind
            (Reference.area? memory)).toList) :
      Finds memory byteAt? phase cursor
        ⟨events,
          { cursor.advance item.size with
            primMode :=
              (item.format? byteAt? cursor.addr).getD cursor.primMode },
          .ok item.outlook⟩
  /-- An item that refers to an address in no buffer. -/
  | unresolved
      {item : ItemType}
      {reference : Reference}
      {head : Entry}
      {fields : List Entry}
      {events : List Event}
      (meets : cursor.Meets byteAt? phase item)
      (shows : ShowsItem cursor phase head fields events)
      (refers :
        item.reference? byteAt? cursor.addr cursor.primMode =
          some reference)
      (missing : ¬memory.Covers reference.target)
      (requests_eq : Event.requests events = []) :
      Finds memory byteAt? phase cursor
        ⟨events, item.interrupted cursor,
          .error (.unmapped reference.target)⟩
  /-- A reference to an extended shader record. -/
  | extended
      {events : List Event}
      (extended : IsExtendedItem phase cursor) :
      Finds memory byteAt? phase cursor
        ⟨events, cursor, .error .extendedShaderRecord⟩

/--
Whether decoding passes an item: it is shown, what it refers to is requested,
and the cursor is left behind it, with the format that is in force there.
-/
structure IsPassed
    (memory : Memory)
    (byteAt? : Int → Option UInt8)
    (phase : Phase)
    (cursor : Cursor)
    (item : ItemType)
    (head : Entry)
    (fields : List Entry)
    (progress : Progress) : Prop where
  meets : cursor.Meets byteAt? phase item
  shows : ShowsItem cursor phase head fields progress.events
  requests_eq :
    Event.requests progress.events =
      ((item.reference? byteAt? cursor.addr cursor.primMode).bind
        (Reference.area? memory)).toList
  addr_eq : progress.cursor.addr = cursor.addr + item.size
  primMode_eq :
    progress.cursor.primMode =
      (item.format? byteAt? cursor.addr).getD cursor.primMode

variable {memory : Memory} {byteAt? : Int → Option UInt8}
  {phase next : Phase} {cursor : Cursor}

/-- The entries that show an item are no errors. -/
theorem ShowsItem.areNoErrors
    {head : Entry}
    {fields : List Entry}
    {events : List Event}
    (shows : ShowsItem cursor phase head fields events) :
    ∀ entry ∈ Event.entries events, entry.kind ≠ .error := by
  intro entry member
  rw [shows.entries_eq] at member
  rcases List.mem_cons.mp member with rfl | isField
  · exact shows.isHead.kind_ne_error
  · rw [shows.areFields entry isField]
    decide

/-- An item that another one follows is passed. -/
theorem Finds.of_follows
    {progress : Progress}
    (finds : Finds memory byteAt? phase cursor progress)
    (follows : progress.outcome = .ok (.follows next)) :
    ∃ item head fields,
      IsPassed memory byteAt? phase cursor item head fields progress ∧
        item.outlook = .follows next := by
  cases finds with
  | nothing | unknown | unsupported | packetOverflow | formOverflow
  | unresolved | extended =>
      cases follows
  | passed meets shows resolves requests_eq =>
      exact ⟨_, _, _, ⟨meets, shows, requests_eq, rfl, rfl⟩,
        Except.ok.inj follows⟩

/-- The bytes that are taken at a cursor are those at their addresses. -/
theorem getElem?_take_cursor
    (within : cursor.Within)
    (shows : cursor.Shows byteAt?)
    {size : Nat}
    (fits : cursor.fits size = true) :
    ∀ index < (cursor.take size).length,
      (cursor.take size)[index]? = byteAt? (cursor.addr + index) := by
  intro index inside
  have fitting := Cursor.fits_iff.mp fits
  rw [within.length_take fits] at inside
  rw [within.take_eq, List.getElem?_take_of_lt inside, shows,
    if_pos (by omega)]

/-- Requests behind an item that is shown are no part of what is shown. -/
theorem ShowsItem.append_request
    {head : Entry}
    {fields : List Entry}
    {events : List Event}
    (shows : ShowsItem cursor phase head fields events)
    (area : Area) :
    ShowsItem cursor phase head fields (events ++ [.request area]) where
  entries_eq := by
    rw [Event.entries_append, shows.entries_eq]
    exact List.append_nil _
  isHead := shows.isHead
  areFields := shows.areFields

/-- An item is passed, if what it refers to is in a buffer and is requested. -/
theorem Finds.resolved
    {item : ItemType}
    {reference : Reference}
    {area : Area}
    {head : Entry}
    {fields : List Entry}
    {events : List Event}
    (meets : cursor.Meets byteAt? phase item)
    (shows : ShowsItem cursor phase head fields events)
    (noRequests : Event.requests events = [])
    (refers :
      item.reference? byteAt? cursor.addr cursor.primMode =
        some reference)
    (covered : memory.Covers reference.target)
    (areaIs : reference.area? memory = some area) :
    Finds memory byteAt? phase cursor
      ⟨events ++ [.request area],
        { cursor.advance item.size with
          primMode :=
            (item.format? byteAt? cursor.addr).getD cursor.primMode },
        .ok item.outlook⟩ := by
  refine .passed meets (shows.append_request area) ?_ ?_
  · intro other otherRefers
    obtain rfl := Option.some.inj (refers.symm.trans otherRefers)
    exact covered
  · rw [Event.requests_append, noRequests, refers, Option.bind_some,
      areaIs]
    rfl

/-- A known packet that fits does one of the things that items do. -/
theorem knownPacket_finds
    (within : cursor.Within)
    (shows : cursor.Shows byteAt?)
    {opcode : UInt8}
    {type : PacketType}
    (peeked : cursor.peek = .ok opcode)
    (found : PacketType.find? opcode.toNat = some type)
    (fits : cursor.fits type.size = true) :
    Finds memory byteAt? .packets cursor
      (knownPacket memory cursor opcode.toNat type) := by
  obtain ⟨final, record, yields, readsAs, fieldsAre, listable⟩ :=
    exists_packetRecord within peeked found fits
  obtain ⟨entries, entriesAre, _⟩ :=
    listable.exists_entries id ["opcode"]
  have meets :
      cursor.Meets byteAt? .packets (.packet type) :=
    { found := by
        rw [itemAt?, byteAt?_of_peek within shows peeked,
          Option.bind_some, ItemType.ofByte?, found, Option.map_some]
      isSupported := by simp
      fits := Cursor.fits_iff.mp fits }
  have areFields :=
    (RecordType.entries_areFieldsWithin readsAs
      (PacketType.size?_of_find? found) entriesAre).areFields
  have showsItem :
      ShowsItem cursor .packets
        ⟨some cursor.addr, type.name, .integer opcode.toNat, .packet⟩
        entries
        (packetEvent type cursor.addr opcode.toNat ::
          entries.map .entry) :=
    ⟨congrArg (_ :: ·) (Event.entries_map_entry entries), ⟨rfl, rfl⟩,
      areFields⟩
  have noRequests :
      Event.requests
          (packetEvent type cursor.addr opcode.toNat ::
            entries.map .entry) =
        [] :=
    Event.requests_map_entry entries
  simp only [knownPacket, readsAs, entriesAre, carryOut, fieldsAre]
  have extended_iff := isExtendedReference_iff peeked found fits
  by_cases extended :
      IsExtendedReference opcode.toNat (cursor.take type.size)
  · rw [PacketType.apply_of_isExtendedReference found yields extended]
    exact .extended ⟨rfl, extended_iff.mp extended⟩
  · rw [PacketType.apply_eq found yields extended
      (within.length_take fits) (getElem?_take_cursor within shows fits)]
    cases refers :
        (ItemType.packet type).reference? byteAt? cursor.addr
          cursor.primMode with
    | none =>
        simp only [Option.toList_none, List.map_nil, List.append_nil]
        refine .passed meets showsItem (by simp [refers]) ?_
        rw [refers, noRequests]
        rfl
    | some reference =>
        rcases reference.resolve_cases memory with
          ⟨covered, area, resolves, areaIs⟩ | ⟨missing, resolves, _⟩
        · simp only [resolves, Except.map]
          exact .resolved meets showsItem noRequests refers covered areaIs
        · simp only [resolves, Except.map]
          exact .unresolved meets showsItem refers missing noRequests

/-- Where bytes are left, a packet does one of the things that items do. -/
theorem packet_finds
    (within : cursor.Within)
    (shows : cursor.Shows byteAt?)
    (left : cursor.addr < cursor.stop) :
    Finds memory byteAt? .packets cursor (packet memory cursor) := by
  obtain ⟨opcode, peeked⟩ := within.exists_peek left
  have stored := byteAt?_of_peek within shows peeked
  simp only [packet, peeked]
  cases found : PacketType.find? opcode.toNat with
  | none =>
      exact .unknown stored (by rw [ItemType.ofByte?, found]; rfl)
  | some type =>
      by_cases fits : cursor.fits type.size = true
      · simp only [fits, if_true]
        exact knownPacket_finds within shows peeked found fits
      · simp only [fits]
        have isFound :
            itemAt? byteAt? .packets cursor.addr =
              some (.packet type) := by
          rw [itemAt?, stored, Option.bind_some, ItemType.ofByte?, found,
            Option.map_some]
        exact .packetOverflow rfl isFound ⟨rfl, rfl⟩ left
          (Int.not_le.mp (mt Cursor.fits_iff.mpr fits))

/-- A branch is resolved, or its missing address is reported. -/
theorem followBranch_finds
    {record : Record}
    (meets : cursor.Meets byteAt? .forms (.form .branch))
    (refers :
      (ItemType.form .branch).reference? byteAt? cursor.addr
          cursor.primMode =
        some
          (.indexData
            (IndexForm.branchTarget (record.fields.integer "offset")
              cursor.addr))) :
    Finds memory byteAt? .forms cursor
      (followBranch memory cursor.addr
        (cursor.advance IndexForm.branch.size) record.fields) := by
  unfold followBranch
  generalize IndexForm.branchTarget _ cursor.addr = target at refers
  have resolvesAs :
      memory.compressedListAt target
          (cursor.advance IndexForm.branch.size).primMode =
        (Reference.indexData target).resolve memory := by
    rw [show (cursor.advance IndexForm.branch.size).primMode =
        trianglesPrimMode from meets.isSupported rfl]
    rfl
  have showsItem :
      ShowsItem cursor .forms
        ⟨some cursor.addr, IndexForm.branch.name, .integer target,
          .compressed⟩
        [] [formEvent .branch cursor.addr (.integer target)] :=
    ⟨rfl, ⟨rfl, rfl⟩, by simp⟩
  rcases Reference.resolve_cases memory (.indexData target) with
    ⟨covered, area, resolves, areaIs⟩ | ⟨missing, resolves, _⟩
  · simp only [resolvesAs, resolves]
    exact .resolved meets showsItem rfl refers covered areaIs
  · simp only [resolvesAs, resolves]
    exact .unresolved meets showsItem refers missing rfl

/-- Where bytes are left, a form does one of the things that items do. -/
theorem form_finds
    (within : cursor.Within)
    (shows : cursor.Shows byteAt?)
    (isTriangles : cursor.primMode = trianglesPrimMode)
    (left : cursor.addr < cursor.stop) :
    Finds memory byteAt? .forms cursor (form memory cursor) := by
  obtain ⟨code, peeked⟩ := within.exists_peek left
  have found :
      itemAt? byteAt? .forms cursor.addr =
        some (.form (IndexForm.ofCode code.toNat)) := by
    rw [itemAt?, byteAt?_of_peek within shows peeked]
    rfl
  simp only [form, peeked]
  generalize selected : IndexForm.ofCode code.toNat = kind at found
  by_cases fits : cursor.fits kind.size = true
  · obtain ⟨final, record, yields, readsAs, fieldsAre⟩ :=
      exists_formRecord within peeked selected fits
    have meets : cursor.Meets byteAt? .forms (.form kind) :=
      { found := found
        isSupported := fun _ => isTriangles
        fits := Cursor.fits_iff.mp fits }
    simp only [fits, if_true, knownForm, readsAs]
    cases kind with
    | branch =>
        refine followBranch_finds meets ?_
        rw [fieldsAre]
        exact IndexForm.branchTarget_eq yields (within.length_take fits)
          (getElem?_take_cursor within shows fits) _
    | escape | absolute | absoluteRelative | threeRelative
    | oneRelative =>
        exact .passed meets ⟨rfl, ⟨rfl, rfl⟩, by simp⟩
          (by simp [ItemType.reference?]) rfl
  · simp only [fits]
    exact .formOverflow rfl found left
      (Int.not_le.mp (mt Cursor.fits_iff.mpr fits))

/-- Every item does one of the things that items do. -/
theorem item_finds
    (memory : Memory)
    (phase : Phase)
    (within : cursor.Within)
    (shows : cursor.Shows byteAt?) :
    Finds memory byteAt? phase cursor (item memory phase cursor) := by
  unfold item
  split
  · split
    · next left =>
        exact packet_finds within shows left
    · next passed =>
        exact .nothing (Int.not_lt.mp passed)
  · split
    · next isRefused =>
        exact .unsupported rfl isRefused
    · next isTriangles =>
        split
        · next left =>
            exact form_finds within shows (Decidable.not_not.mp isTriangles)
              left
        · next passed =>
            exact .nothing (Int.not_lt.mp passed)

end Walk

end VideoCore
