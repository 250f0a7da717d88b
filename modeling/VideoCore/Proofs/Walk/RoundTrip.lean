import VideoCore.Proofs.Walk.Source

namespace VideoCore

/-!
# Lists are found as they are put together

A list that is put together from parts and stored in a buffer is walked part by
part.  The walk finds every packet and every form at its place, with what its
fields hold, and nothing besides (`ListSource.list_finds_parts`).
-/

open Walk

/--
A list of parts, which may end early with a packet and any bytes behind it.
-/
structure ListSource where
  items : List ListItem
  ending : Option (PacketSource × Bytes)

namespace ListSource

variable {source : ListSource} {memory : Memory} {cursor : Cursor}
  {later : Bytes} {items : List ListItem}

/-! ## What a list is expected to show -/

def itemBytes (items : List ListItem) : Bytes :=
  items.flatMap ListItem.bytes

def modeAfter
    (primMode : Int)
    (items : List ListItem) : Int :=
  items.foldl (fun current item => item.modeAfter current) primMode

/-- Whether every part can stand behind those before it. -/
def AreReady (memory : Memory) : Int → List ListItem → Prop
  | _, [] => True
  | primMode, item :: rest =>
      item.IsReady memory primMode ∧
        AreReady memory (item.modeAfter primMode) rest

def itemEvents (memory : Memory) :
    Int → Int → List ListItem → Except Fault (List Event)
  | _, _, [] => .ok []
  | addr, primMode, item :: rest => do
      let shown ← item.events memory addr primMode
      let others ←
        itemEvents memory (addr + item.bytes.length)
          (item.modeAfter primMode) rest
      .ok (shown ++ others)

def lastBytes (source : ListSource) : Bytes :=
  source.ending.elim [] fun (packet, _) => packet.bytes

def partBytes (source : ListSource) : Bytes :=
  itemBytes source.items ++ source.lastBytes

/-- The bytes of the list. -/
def bytes (source : ListSource) : Bytes :=
  source.partBytes ++ source.ending.elim [] Prod.snd

/--
Whether the list can be walked: every part can stand where it does, and what
ends the list early is a terminal packet.
-/
structure IsReady
    (source : ListSource)
    (memory : Memory)
    (primMode : Int) : Prop where
  items : AreReady memory primMode source.items
  ending :
    ∀ packet later,
      source.ending = some (packet, later) →
      packet.type.terminal = true ∧ packet.IsResolved memory

/--
The format of compressed primitives behind the last packet, if there is one.
-/
def lastMode
    (source : ListSource)
    (primMode : Int) : Int :=
  source.ending.elim primMode fun (packet, _) => packet.modeAfter primMode

def finalMode
    (source : ListSource)
    (primMode : Int) : Int :=
  source.lastMode (modeAfter primMode source.items)

def lastEvents
    (source : ListSource)
    (memory : Memory)
    (addr primMode : Int) : Except Fault (List Event) :=
  source.ending.elim (.ok []) fun (packet, _) =>
    packet.events memory addr primMode

/-- The events of the list when it begins at an address. -/
def events
    (source : ListSource)
    (memory : Memory)
    (addr primMode : Int) : Except Fault (List Event) := do
  let shown ← itemEvents memory addr primMode source.items
  let others ←
    source.lastEvents memory (addr + (itemBytes source.items).length)
      (modeAfter primMode source.items)
  .ok (shown ++ others)

/-! ## What a walk finds -/

/-- Parts are found where their bytes are, one behind the other. -/
theorem exists_passes_items
    (ready : AreReady memory cursor.primMode items)
    (has : cursor.Has (itemBytes items ++ later)) :
    ∃ events met,
      itemEvents memory cursor.addr cursor.primMode items = .ok events ∧
        Passes memory .packets cursor events .packets met ∧
        met.Has later ∧
        met.addr = cursor.addr + (itemBytes items).length ∧
        met.primMode = modeAfter cursor.primMode items := by
  -- Every part leaves the cursor at the next one, with its format in force.
  induction items generalizing cursor with
  | nil =>
      exact ⟨[], cursor, rfl, .refl _ _, has, (Int.add_zero _).symm, rfl⟩
  | cons item rest inductionHypothesis =>
      obtain ⟨itemReady, restReady⟩ := ready
      have split :
          itemBytes (item :: rest) = item.bytes ++ itemBytes rest := by
        rw [itemBytes, List.flatMap_cons, itemBytes]
      rw [split, List.append_assoc] at has
      obtain ⟨shown, shownAre, passes⟩ :=
        ListItem.exists_passes itemReady has
      obtain ⟨others, met, othersAre, restPasses, left, addrIs, modeIs⟩ :=
        @inductionHypothesis (item.behind cursor) restReady
          (has.advance item.length_pos _)
      refine
        ⟨shown ++ others, met, ?_, passes.append restPasses, left, ?_,
          modeIs⟩
      · rw [itemEvents, shownAre, Outcome.ok_bind]
        rw [ListItem.behind, Cursor.advance] at othersAre
        rw [othersAre]
        rfl
      · rw [addrIs, split, List.length_append, Int.natCast_add,
          ← Int.add_assoc]
        rfl

/-- Behind its parts a list ends, with a last packet or where its bytes do. -/
theorem exists_item_ending
    (ending :
      ∀ packet later,
        source.ending = some (packet, later) →
        packet.type.terminal = true ∧ packet.IsResolved memory)
    (has :
      cursor.Has (source.lastBytes ++ source.ending.elim [] Prod.snd)) :
    ∃ events last,
      source.lastEvents memory cursor.addr cursor.primMode = .ok events ∧
        item memory .packets cursor =
          ⟨events, last, .ok (.ended .done)⟩ ∧
        last.state =
          (cursor.addr + source.lastBytes.length, cursor.stop,
            source.lastMode cursor.primMode) := by
  unfold lastEvents lastMode
  unfold lastBytes at has ⊢
  cases endingIs : source.ending with
  | none =>
      rw [endingIs] at has
      have atEnd : ¬cursor.addr < cursor.stop := by
        have length := has.within.length_rest
        rw [has.rest_eq] at length
        simp only [Option.elim_none, List.append_nil, List.length_nil]
          at length
        omega
      exact ⟨[], cursor, rfl, if_neg atEnd,
        by simp only [Cursor.state, Option.elim_none, List.length_nil,
          Int.natCast_zero, Int.add_zero]⟩
  | some last =>
      obtain ⟨packet, trailing⟩ := last
      obtain ⟨terminal, resolved⟩ := ending packet trailing endingIs
      rw [endingIs] at has
      obtain ⟨events, eventsAre, itemIs⟩ := packet.item_eq resolved has
      rw [outlookAfter, if_pos terminal] at itemIs
      exact ⟨events, _, eventsAre, itemIs, rfl⟩

/-- A run over the bytes of a list finds its parts, and ends behind them. -/
theorem exists_run_eq
    (ready : source.IsReady memory cursor.primMode)
    (has : cursor.Has source.bytes) :
    ∃ events last,
      source.events memory cursor.addr cursor.primMode = .ok events ∧
        run memory .packets cursor =
          ⟨events, last, .ok (.ended .done)⟩ ∧
        last.state =
          (cursor.addr + source.partBytes.length, cursor.stop,
            source.finalMode cursor.primMode) := by
  rw [bytes, partBytes, List.append_assoc] at has
  obtain ⟨shown, met, shownAre, passes, left, addrIs, modeIs⟩ :=
    exists_passes_items ready.items has
  obtain ⟨others, last, othersAre, itemIs, stateIs⟩ :=
    exists_item_ending ready.ending left
  rw [addrIs, modeIs] at othersAre stateIs
  refine ⟨shown ++ others, last, ?_, ?_, ?_⟩
  · rw [events, shownAre, Outcome.ok_bind, othersAre]
    rfl
  · rw [passes.run_eq, run_of_ended itemIs]
    rfl
  · rw [stateIs, passes.moves.stop_eq, partBytes, List.length_append,
      Int.natCast_add, Int.add_assoc]
    rfl

/-- The region that a list fills when it begins at an address. -/
def region
    (source : ListSource)
    (start : Int)
    (isRender : Bool)
    (primMode : Int) : ListRegion where
  start := start
  stop := start + source.bytes.length
  isRender := isRender
  primMode := primMode
  phase := .packets

/--
A cursor at the start of a region has the bytes of the buffer from there on.
-/
theorem rest_of_cursor?
    {region : ListRegion}
    {index : Nat}
    {buffer : Buffer}
    (found : memory.find region.start = .ok (index, buffer))
    (starts : region.cursor? memory = .ok cursor) :
    cursor.rest =
      (buffer.bytes.drop (region.start - buffer.paddr).toNat).take
        (min region.stop buffer.stop - region.start).toNat := by
  rw [ListRegion.cursor?, Memory.regionEnd_of_find found,
    Outcome.ok_bind] at starts
  obtain ⟨window, shown, cursorIs⟩ :=
    Outcome.exists_of_bind_eq_ok starts
  cases cursorIs
  obtain ⟨other, otherShown, bytesAre⟩ :=
    Memory.view_of_find found (min region.stop buffer.stop)
  obtain rfl : window = other :=
    Except.ok.inj (shown.symm.trans otherShown)
  rw [Cursor.rest_atStart, bytesAre,
    Int.min_eq_left (Int.min_le_right region.stop buffer.stop)]

/-- The bytes of a list are at hand where it is stored. -/
theorem exists_cursor?
    {start : Int}
    {index : Nat}
    {buffer : Buffer}
    (found : memory.find start = .ok (index, buffer))
    (stored :
      source.bytes <+: buffer.bytes.drop (start - buffer.paddr).toNat)
    (isRender : Bool)
    (primMode : Int) :
    ∃ cursor,
      cursor.Has source.bytes ∧
        cursor.state =
          (start, start + source.bytes.length, primMode) ∧
        list memory (source.region start isRender primMode) =
          conclude memory (run memory .packets cursor) := by
  -- The buffer holds the list whole, so that its end is not cut off.
  have inside : start + source.bytes.length ≤ buffer.stop := by
    obtain ⟨lower, upper⟩ := Memory.bounds_of_find found
    have length := stored.length_le
    have size : buffer.bytes.length = buffer.size := rfl
    have stopIs : buffer.stop = buffer.paddr + buffer.size := rfl
    rw [List.length_drop] at length
    omega
  have resolved := Memory.regionEnd_of_find found
  obtain ⟨cursor, starts, isStart, listIs⟩ :=
    @list_of_regionEnd memory (source.region start isRender primMode) _
      resolved
  have stop_eq : cursor.stop = start + source.bytes.length :=
    isStart.stop_eq.trans (Int.min_eq_left inside)
  refine ⟨cursor, ⟨isStart.within, ?_⟩, ?_, ?_⟩
  · have taken :
        (min (start + source.bytes.length) buffer.stop - start).toNat =
          source.bytes.length := by
      omega
    have rest_eq := rest_of_cursor? found starts
    simp only [region, taken] at rest_eq
    exact rest_eq.trans (List.prefix_iff_eq_take.mp stored).symm
  · rw [Cursor.state, isStart.addr_eq, stop_eq, isStart.primMode_eq]
    rfl
  · have notClamped :
        clampEvents (source.region start isRender primMode)
          buffer.stop = [] :=
      if_neg (Int.not_lt.mpr inside)
    rw [listIs, notClamped, Traced.emit_bind]
    rfl

/--
A list that is put together from parts and stored in one buffer is found again.
The walk over its bytes lists every packet with its fields and every form with
its indices, in order and where they are stored, requests what they refer to,
and reports nothing else.  It ends behind the last part, with the format that
the list has set.
-/
theorem list_finds_parts
    {start : Int}
    {index : Nat}
    {buffer : Buffer}
    (found : memory.find start = .ok (index, buffer))
    (stored :
      source.bytes <+: buffer.bytes.drop (start - buffer.paddr).toNat)
    {primMode : Int}
    (ready : source.IsReady memory primMode)
    (isRender : Bool) :
    ∃ events cursor,
      source.events memory start primMode = .ok events ∧
        list memory (source.region start isRender primMode) =
          ⟨events, .ok (some cursor)⟩ ∧
        cursor.state =
          (start + source.partBytes.length,
            start + source.bytes.length, source.finalMode primMode) := by
  obtain ⟨cursor, has, stateIs, listIs⟩ :=
    exists_cursor? found stored isRender primMode
  simp only [Cursor.state, Prod.mk.injEq] at stateIs
  obtain ⟨rfl, stop_eq, rfl⟩ := stateIs
  obtain ⟨events, last, eventsAre, runIs, lastIs⟩ :=
    exists_run_eq ready has
  refine ⟨events, last, eventsAre, ?_, stop_eq ▸ lastIs⟩
  rw [listIs, runIs]
  rfl

/--
A list with a format, compressed triangles, a call and the end of the list.
-/
def triangleList : ListSource where
  items :=
    [.packet
        { type := .setPrimitiveListFormat
          fields := [("format", .integer 0x12)]
          bytes := [56, 0x12]
          known := by simp [PacketType.all]
          writes := by decide +kernel },
      .compressed
        { type := .compressedPrimitive
          fields := []
          bytes := [48]
          known := by simp [PacketType.all]
          writes := by decide +kernel }
        [{ form := .absolute
           fields :=
            [("index", .tuple [.integer 1, .integer 2, .integer 3])]
           bytes := [129, 1, 0, 2, 0, 3, 0]
           holdsIndices := by decide
           writes := by decide +kernel
           selects := by decide +kernel },
          { form := .oneRelative
            fields := [("header", .integer 0xfc)]
            bytes := [0xfc]
            holdsIndices := by decide
            writes := by decide +kernel
            selects := by decide +kernel }],
      .packet
        { type := .branchToSubList
          fields := [("addr", .integer 0x1000)]
          bytes := [17, 0x00, 0x10, 0, 0]
          known := by simp [PacketType.all]
          writes := by decide +kernel }]
  ending :=
    some
      ({ type := .halt
         fields := []
         bytes := [0]
         known := by simp [PacketType.all]
         writes := by decide +kernel },
        [0xff])

/-- A buffer that the list lies in. -/
def triangleMemory : Memory :=
  [⟨1, 0x1000, triangleList.bytes.toArray, some 0⟩]

/-- The list is found in the buffer, with the format that it sets. -/
theorem list_finds_triangles :
    ∃ events cursor,
      triangleList.events triangleMemory 0x1000 unsetPrimMode =
          .ok events ∧
        list triangleMemory
            (triangleList.region 0x1000 false unsetPrimMode) =
          ⟨events, .ok (some cursor)⟩ ∧
        cursor.state = (0x1012, 0x1013, 0x12) := by
  have covered : triangleMemory.Covers 0x1000 :=
    ⟨_, List.mem_singleton.mpr rfl, by decide⟩
  have ready : triangleList.IsReady triangleMemory unsetPrimMode :=
    { items :=
        ⟨⟨rfl, rfl, trivial⟩, ⟨rfl, by decide +kernel⟩,
          ⟨rfl, rfl, covered⟩, trivial⟩
      ending := by
        rintro packet later ⟨rfl, rfl⟩
        exact ⟨rfl, trivial⟩ }
  have found :
      triangleMemory.find 0x1000 =
        .ok (0, ⟨1, 0x1000, triangleList.bytes.toArray, some 0⟩) := by
    decide +kernel
  obtain ⟨events, cursor, eventsAre, listIs, stateIs⟩ :=
    list_finds_parts found (List.prefix_rfl) ready false
  refine ⟨events, cursor, eventsAre, listIs, ?_⟩
  rw [stateIs]
  decide +kernel

end ListSource

end VideoCore
