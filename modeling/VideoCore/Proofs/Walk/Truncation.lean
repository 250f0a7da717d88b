import VideoCore.Proofs.Walk.Agreement

namespace VideoCore

/-!
# Walks to an earlier end

The end of a region does nothing but end a walk.  A walk to an earlier end finds
what a walk to a later end finds, item by item, until an item does not fit any
more (`Walk.run_cutsShort`).  What it lists up to there and what it requests is
therefore the beginning of what the other walk lists and requests
(`Walk.list_isMonotone`).
-/

namespace Entry

/-- Whether an entry says that an item does not fit. -/
def isOverflow (entry : Entry) : Bool :=
  entry.kind == .error && entry.name == overflow

/-- A listing without the overflow that it ends with, if it ends with one. -/
def withoutOverflow (entries : List Entry) : List Entry :=
  if entries.getLast?.any isOverflow then entries.dropLast else entries

theorem withoutOverflow_isPrefix
    (entries : List Entry) :
    withoutOverflow entries <+: entries := by
  unfold withoutOverflow
  split
  · exact List.dropLast_prefix entries
  · exact List.prefix_rfl

/-- What stands in front of a listing stands in front of its beginning, too. -/
theorem withoutOverflow_append_isPrefix
    {entries others : List Entry}
    (begins : withoutOverflow entries <+: others)
    (earlier : List Entry) :
    withoutOverflow (earlier ++ entries) <+: earlier ++ others := by
  by_cases nothing : entries = []
  · rw [nothing, List.append_nil]
    exact (withoutOverflow_isPrefix earlier).trans (List.prefix_append _ _)
  · have appended :
        withoutOverflow (earlier ++ entries) =
          earlier ++ withoutOverflow entries := by
      unfold withoutOverflow
      rw [List.getLast?_append_of_ne_nil _ nothing,
        List.dropLast_append_of_ne_nil nothing]
      split <;> rfl
    rw [appended]
    exact (List.prefix_append_right_inj earlier).mpr begins

end Entry

namespace Cursor

/-- The cursor in its region up to another end. -/
def upTo
    (cursor : Cursor)
    (stop : Int) : Cursor :=
  { cursor with
    stop := stop
    window := cursor.window.take (stop - cursor.start).toNat }

/-- Whether the region of a cursor can end at an address, not behind its end. -/
structure CanEndAt
    (cursor : Cursor)
    (stop : Int) : Prop where
  within : cursor.Within
  stop_le : stop ≤ cursor.stop
  addr_le : cursor.addr ≤ max cursor.start stop

variable {cursor next : Cursor} {stop : Int}

/-- Up to another end, the bytes before that end are left. -/
theorem Within.rest_upTo
    (within : cursor.Within)
    (stop : Int) :
    (cursor.upTo stop).rest =
      cursor.rest.take (stop - cursor.addr).toNat := by
  have started := within.started
  simp only [rest, offset, upTo, Window.toBytes_take, List.drop_take]
  congr 1
  omega

/-- A shorter list has room for what ends ahead of its end. -/
theorem fits_upTo_iff
    {size : Int} :
    (cursor.upTo stop).fits size = true ↔ cursor.addr + size ≤ stop := by
  rw [fits, decide_eq_true_eq]
  rfl

/-- The same memory is shown up to an earlier end. -/
theorem Shows.upTo
    {byteAt? : Int → Option UInt8}
    (shows : cursor.Shows byteAt?)
    (within : cursor.Within)
    (stop_le : stop ≤ cursor.stop) :
    (cursor.upTo stop).Shows byteAt? := by
  intro index
  have addr_eq : (cursor.upTo stop).addr = cursor.addr := rfl
  have stop_eq : (cursor.upTo stop).stop = stop := rfl
  rw [within.rest_upTo, List.getElem?_take, shows, addr_eq, stop_eq]
  by_cases inside : cursor.addr + index < stop
  · rw [if_pos (by omega), if_pos (by omega), if_pos inside]
  · rw [if_neg (by omega), if_neg inside]

namespace CanEndAt

theorem within_upTo
    (ends : cursor.CanEndAt stop) :
    (cursor.upTo stop).Within where
  started := ends.within.started
  ended := ends.addr_le
  shown := by
    have shown := ends.within.shown
    have stop_le := ends.stop_le
    simp only [upTo, Window.size_take]
    omega

/-- Inside the shorter list, the next byte is the same. -/
theorem peek_upTo
    (ends : cursor.CanEndAt stop)
    (left : cursor.addr < stop) :
    (cursor.upTo stop).peek = cursor.peek := by
  rw [ends.within_upTo.peek_eq, ends.within.peek_eq,
    ends.within.rest_upTo, List.head?_take, if_neg (by omega)]

/-- What fits the shorter list is the same there. -/
theorem take_upTo
    (ends : cursor.CanEndAt stop)
    {size : Nat}
    (fits : (cursor.upTo stop).fits size = true) :
    (cursor.upTo stop).take size = cursor.take size := by
  rw [fits_upTo_iff] at fits
  rw [ends.within_upTo.take_eq, ends.within.take_eq,
    ends.within.rest_upTo, List.take_take, Nat.min_eq_left (by omega)]

/-- What fits before an earlier end fits before the end. -/
theorem fits_of_upTo
    (ends : cursor.CanEndAt stop)
    {size : Nat}
    (fits : (cursor.upTo stop).fits size = true) :
    cursor.fits size = true := by
  rw [fits_upTo_iff] at fits
  rw [Cursor.fits, decide_eq_true_eq]
  exact fits.trans ends.stop_le

/-- A move that does not pass an earlier end is possible up to that end. -/
theorem of_moves
    (ends : cursor.CanEndAt stop)
    (moves : cursor.Moves next)
    (shortMoves : (cursor.upTo stop).Moves (next.upTo stop)) :
    next.CanEndAt stop where
  within := ends.within.of_moves moves
  stop_le := by
    rw [moves.stop_eq]
    exact ends.stop_le
  addr_le := by
    have addr_le := ends.addr_le
    have start_eq := moves.start_eq
    have place := shortMoves.place
    simp only [upTo] at place
    omega

end CanEndAt

end Cursor

/-- The same progress in a region up to another end. -/
def Progress.upTo
    (progress : Progress)
    (stop : Int) : Progress :=
  { progress with cursor := progress.cursor.upTo stop }

namespace Walk

/--
Whether a part of a walk does the same as another one up to an earlier end, or
ends there, having listed and requested the beginning of what the other one
does.
-/
inductive CutsShort
    (stop : Int)
    (whole : Progress) :
    Progress → Prop where
  /-- The earlier end makes no difference. -/
  | unaffected :
      CutsShort stop whole (whole.upTo stop)
  /-- The earlier end is reached. -/
  | ended
      {events : List Event}
      {cursor : Cursor}
      {ending : Ending}
      (entriesBegin :
        Entry.withoutOverflow (Event.entries events) <+:
          Event.entries whole.events)
      (requestsBegin :
        Event.requests events <+: Event.requests whole.events) :
      CutsShort stop whole ⟨events, cursor, .ok (.ended ending)⟩

variable {memory : Memory} {phase : Phase} {cursor : Cursor} {stop : Int}
  {short whole : Progress}

namespace CutsShort

/-- The same events may come before both. -/
theorem after
    (cutsShort : CutsShort stop whole short)
    (earlier : List Event) :
    CutsShort stop (whole.after earlier) (short.after earlier) := by
  cases cutsShort with
  | unaffected =>
      exact .unaffected
  | ended entriesBegin requestsBegin =>
      refine .ended ?_ ?_
      · simp only [Progress.after, Event.entries_append]
        exact Entry.withoutOverflow_append_isPrefix entriesBegin _
      · simp only [Progress.after, Event.requests_append]
        exact (List.prefix_append_right_inj _).mpr requestsBegin

end CutsShort

/-! ## Items before an earlier end -/

/-- The effect of a packet does not depend on where its list ends. -/
theorem carryOut_upTo
    (type : PacketType)
    (record : Record)
    (shown : List Event) :
    carryOut memory (cursor.upTo stop) type record shown =
      (carryOut memory cursor type record shown).upTo stop := by
  simp only [carryOut, Cursor.upTo]
  split <;> rfl

/-- A packet that fits the shorter list is decoded alike. -/
theorem knownPacket_upTo
    (ends : cursor.CanEndAt stop)
    {type : PacketType}
    (fits : (cursor.upTo stop).fits type.size = true)
    (opcode : Int) :
    knownPacket memory (cursor.upTo stop) opcode type =
      (knownPacket memory cursor opcode type).upTo stop := by
  have addr_eq : (cursor.upTo stop).addr = cursor.addr := rfl
  simp only [knownPacket, ends.take_upTo fits, addr_eq]
  split
  · rfl
  · split
    · rfl
    · exact carryOut_upTo ..

/-- A packet that fits is listed with its header first. -/
theorem exists_knownPacket_events
    (within : cursor.Within)
    {opcode : UInt8}
    {type : PacketType}
    (peeked : cursor.peek = .ok opcode)
    (found : PacketType.find? opcode.toNat = some type)
    (fits : cursor.fits type.size = true) :
    ∃ later,
      (knownPacket memory cursor opcode.toNat type).events =
        packetEvent type cursor.addr opcode.toNat :: later := by
  obtain ⟨_, record, _, readsAs, _⟩ :=
    exists_packetRecord within peeked found fits
  simp only [knownPacket, readsAs]
  split
  · exact ⟨[], rfl⟩
  · unfold carryOut
    split <;> exact ⟨_, rfl⟩

/-- A packet is the same before an earlier end, or does not fit there. -/
theorem packet_cutsShort
    (ends : cursor.CanEndAt stop)
    (left : cursor.addr < stop) :
    CutsShort stop (packet memory cursor)
      (packet memory (cursor.upTo stop)) := by
  have stop_le := ends.stop_le
  obtain ⟨opcode, peeked⟩ := ends.within.exists_peek (by omega)
  simp only [packet, ends.peek_upTo left, peeked]
  cases found : PacketType.find? opcode.toNat with
  | none =>
      exact .unaffected
  | some type =>
      by_cases fits : (cursor.upTo stop).fits type.size = true
      · simp only [fits, ends.fits_of_upTo fits, if_true,
          knownPacket_upTo ends fits]
        exact .unaffected
      · -- The header is listed, whether the packet fits later on or not.
        simp only [fits]
        refine .ended ?_ List.nil_prefix
        by_cases later : cursor.fits type.size = true
        · obtain ⟨events, eventsAre⟩ :=
            @exists_knownPacket_events memory _ ends.within _ _ peeked
              found later
          simp only [later, if_true, eventsAre]
          exact List.prefix_append [_] _
        · simp only [later]
          exact List.prefix_append [_] _

/-- Where a branch leads does not depend on where its list ends. -/
theorem followBranch_upTo
    (addr : Int)
    (next : Cursor)
    (fields : Fields) :
    followBranch memory addr (next.upTo stop) fields =
      (followBranch memory addr next fields).upTo stop := by
  simp only [followBranch, Cursor.upTo]
  split <;> rfl

/-- A form that fits the shorter list is decoded alike. -/
theorem knownForm_upTo
    (ends : cursor.CanEndAt stop)
    {kind : IndexForm}
    (fits : (cursor.upTo stop).fits kind.size = true) :
    knownForm memory (cursor.upTo stop) kind =
      (knownForm memory cursor kind).upTo stop := by
  have addr_eq : (cursor.upTo stop).addr = cursor.addr := rfl
  have advance_eq :
      (cursor.upTo stop).advance kind.size =
        (cursor.advance kind.size).upTo stop :=
    rfl
  simp only [knownForm, ends.take_upTo fits, addr_eq, advance_eq]
  split
  · rfl
  · split
    · rfl
    · exact followBranch_upTo ..
    · rfl

/-- A form is the same before an earlier end, or does not fit there. -/
theorem form_cutsShort
    (ends : cursor.CanEndAt stop)
    (left : cursor.addr < stop) :
    CutsShort stop (form memory cursor)
      (form memory (cursor.upTo stop)) := by
  have stop_le := ends.stop_le
  obtain ⟨code, peeked⟩ := ends.within.exists_peek (by omega)
  simp only [form, ends.peek_upTo left, peeked]
  generalize IndexForm.ofCode code.toNat = kind
  by_cases fits : (cursor.upTo stop).fits kind.size = true
  · simp only [fits, ends.fits_of_upTo fits, if_true,
      knownForm_upTo ends fits]
    exact .unaffected
  · simp only [fits]
    exact .ended List.nil_prefix List.nil_prefix

/-- An item is the same before an earlier end, or the walk ends there. -/
theorem item_cutsShort
    (ends : cursor.CanEndAt stop)
    (phase : Phase) :
    CutsShort stop (item memory phase cursor)
      (item memory phase (cursor.upTo stop)) := by
  have stop_le := ends.stop_le
  have addr_eq : (cursor.upTo stop).addr = cursor.addr := rfl
  have stop_eq : (cursor.upTo stop).stop = stop := rfl
  have primMode_eq : (cursor.upTo stop).primMode = cursor.primMode := rfl
  have atEnd :
      ∀ whole,
        CutsShort stop whole ⟨[], cursor.upTo stop, .ok (.ended .done)⟩ :=
    fun _ => .ended List.nil_prefix List.nil_prefix
  cases phase with
  | packets =>
      by_cases left : cursor.addr < stop
      · simp only [item, addr_eq, stop_eq, left, if_true,
          Int.lt_of_lt_of_le left stop_le]
        exact packet_cutsShort ends left
      · simp only [item, addr_eq, stop_eq, left, if_false]
        exact atEnd _
  | forms =>
      by_cases isTriangles : cursor.primMode = trianglesPrimMode
      · by_cases left : cursor.addr < stop
        · simp only [item, addr_eq, stop_eq, primMode_eq, isTriangles,
            ne_eq, not_true_eq_false, left, if_true, if_false,
            Int.lt_of_lt_of_le left stop_le]
          exact form_cutsShort ends left
        · simp only [item, addr_eq, stop_eq, primMode_eq, isTriangles,
            ne_eq, not_true_eq_false, left, if_false]
          exact atEnd _
      · simp only [item, primMode_eq, ne_eq, isTriangles,
          not_false_eq_true, if_true]
        exact .unaffected

/-! ## Runs up to an earlier end -/

/--
A run up to an earlier end does the same, or ends with the beginning of it.
-/
theorem run_cutsShort
    (ends : cursor.CanEndAt stop)
    (phase : Phase) :
    CutsShort stop (run memory phase cursor)
      (run memory phase (cursor.upTo stop)) := by
  have runs := runs_run memory phase cursor
  generalize run memory phase cursor = whole at runs
  -- Item by item, both cursors stay at the same address before the earlier end.
  induction runs with
  | @last phase cursor last =>
      have items := @item_cutsShort memory _ _ ends phase
      generalize shortIs : item memory phase (cursor.upTo stop) = short
        at items
      cases items with
      | unaffected =>
          have shortLast :
              ∀ next,
                (item memory phase (cursor.upTo stop)).outcome =
                  .ok (.follows next) →
                true = false := by
            intro next follows
            rw [shortIs] at follows
            exact last next follows
          rw [run, runWhile_of_ends shortLast, shortIs]
          exact .unaffected
      | ended entriesBegin requestsBegin =>
          rw [run_of_ended shortIs]
          exact .ended entriesBegin requestsBegin
  | @goesOn phase next cursor whole follows isWanted later
      inductionHypothesis =>
      have items := @item_cutsShort memory _ _ ends phase
      have shortMoves := item_moves memory phase (cursor.upTo stop)
      generalize shortIs : item memory phase (cursor.upTo stop) = short
        at items shortMoves
      cases items with
      | unaffected =>
          have shortFollows :
              (item memory phase (cursor.upTo stop)).outcome =
                .ok (.follows next) := by
            rw [shortIs]
            exact follows
          have nextEnds :=
            ends.of_moves (item_moves memory phase cursor) shortMoves
          rw [run, runWhile_of_follows shortFollows rfl, shortIs]
          exact (inductionHypothesis nextEnds).after _
      | ended entriesBegin requestsBegin =>
          rw [run_of_ended shortIs]
          refine .ended ?_ ?_
          · rw [Progress.after, Event.entries_append]
            exact entriesBegin.trans (List.prefix_append _ _)
          · rw [Progress.after, Event.requests_append]
            exact requestsBegin.trans (List.prefix_append _ _)

/--
Whether a walk lists and requests the beginning of what another one does, an
overflow at its end apart, and fails only as the other one does.
-/
structure IsBeginning (short whole : Traced (Option Cursor)) : Prop where
  entriesBegin :
    Entry.withoutOverflow (Event.entries short.events) <+:
      Event.entries whole.events
  requestsBegin :
    Event.requests short.events <+: Event.requests whole.events
  of_error :
    ∀ fault,
      short.outcome = .error fault →
      whole.outcome = .error fault ∧
        Event.entries short.events = Event.entries whole.events ∧
        Event.requests short.events = Event.requests whole.events

theorem SameResult.outcome_eq_error
    {first second : Traced (Option Cursor)}
    {fault : Fault}
    (same : SameResult first second)
    (fails : first.outcome = .error fault) :
    second.outcome = .error fault := by
  have outcomes := same.outcome_eq
  rw [fails] at outcomes
  exact Outcome.eq_error_of_map outcomes.symm

/-- The beginning of a walk is that of every walk with the same result. -/
theorem IsBeginning.of_sameResult
    {first second third fourth : Traced (Option Cursor)}
    (begins : IsBeginning second third)
    (short : SameResult first second)
    (whole : SameResult third fourth) :
    IsBeginning first fourth where
  entriesBegin := by
    rw [short.entries_eq, ← whole.entries_eq]
    exact begins.entriesBegin
  requestsBegin := by
    rw [short.requests_eq, ← whole.requests_eq]
    exact begins.requestsBegin
  of_error := by
    intro fault fails
    obtain ⟨wholeFails, entries, requests⟩ :=
      begins.of_error fault (short.outcome_eq_error fails)
    exact ⟨whole.outcome_eq_error wholeFails,
      short.entries_eq.trans (entries.trans whole.entries_eq),
      short.requests_eq.trans (requests.trans whole.requests_eq)⟩

/--
A run that is cut short comes to the beginning of what the whole run does.
-/
theorem CutsShort.isBeginning
    (cutsShort : CutsShort stop whole short) :
    IsBeginning (conclude memory short) (conclude memory whole) := by
  cases cutsShort with
  | unaffected =>
      have events_eq :
          (conclude memory (whole.upTo stop)).events =
            (conclude memory whole).events := by
        rw [events_conclude, events_conclude]
        rfl
      refine ⟨?_, by rw [events_eq], ?_⟩
      · rw [events_eq]
        exact Entry.withoutOverflow_isPrefix _
      · intro fault fails
        have runFails := outcome_conclude_eq_error_iff.mp fails
        exact ⟨outcome_conclude_eq_error_iff.mpr runFails, by rw [events_eq],
          by rw [events_eq]⟩
  | @ended events cursor ending entriesBegin requestsBegin =>
      have concluded :
          conclude memory ⟨events, cursor, .ok (.ended ending)⟩ =
            ⟨events, .ok (some cursor)⟩ :=
        rfl
      rw [concluded]
      refine ⟨?_, ?_, fun _ fails => by contradiction⟩
      · rw [events_conclude, Event.entries_append]
        exact entriesBegin.trans (List.prefix_append _ _)
      · rw [events_conclude, Event.requests_append]
        exact requestsBegin.trans (List.prefix_append _ _)

/-- A list can end at any address before its end. -/
theorem ListRegion.canEndAt
    {region : ListRegion}
    {limit : Int}
    (starts : region.cursor? memory = .ok cursor)
    (isStart : region.IsStart limit cursor)
    (stop_le : stop ≤ cursor.stop) :
    cursor.CanEndAt stop := by
  refine ⟨isStart.within, stop_le, ?_⟩
  obtain ⟨_, _, shown⟩ := Outcome.exists_of_bind_eq_ok starts
  obtain ⟨_, _, cursorIs⟩ := Outcome.exists_of_bind_eq_ok shown
  cases cursorIs
  exact Int.le_max_left _ _

/-- A list begins as a list that ends later does, if that one is cut short. -/
theorem ListRegion.exists_agrees_upTo
    {region : ListRegion}
    {later limit : Int}
    (resolved : memory.regionEnd region.start = .ok limit)
    (stop_le : region.stop ≤ later) :
    ∃ start longerStart,
      region.cursor? memory = .ok start ∧
        cursor? { region with stop := later } memory = .ok longerStart ∧
        longerStart.CanEndAt start.stop ∧
        start.Agrees (longerStart.upTo start.stop) := by
  obtain ⟨start, starts, isStart, _⟩ := list_of_regionEnd resolved
  obtain ⟨longerStart, longerStarts, longerIsStart, _⟩ :=
    @list_of_regionEnd memory { region with stop := later } limit resolved
  have ends : longerStart.CanEndAt start.stop := by
    refine canEndAt longerStarts longerIsStart ?_
    rw [isStart.stop_eq, longerIsStart.stop_eq]
    exact min_le_min_right limit stop_le
  refine ⟨start, longerStart, starts, longerStarts, ends, ?_⟩
  have longerShows := longerIsStart.shows resolved longerStarts
  refine
    .of_shows isStart.within ends.within_upTo ?_
      (isStart.shows resolved starts)
      (longerShows.upTo ends.within ends.stop_le) fun _ _ _ => rfl
  simp only [Cursor.state, Cursor.upTo, isStart.addr_eq,
    isStart.primMode_eq, longerIsStart.addr_eq,
    longerIsStart.primMode_eq]

/-- A walk to an earlier end is the beginning of a walk to a later end. -/
theorem list_isBeginning
    {region : ListRegion}
    {later : Int}
    (stop_le : region.stop ≤ later) :
    IsBeginning (list memory region)
      (list memory { region with stop := later }) := by
  by_cases covered : memory.Covers region.start
  · obtain ⟨limit, resolved, _⟩ := Memory.regionEnd_of_covers covered
    obtain ⟨start, longerStart, starts, longerStarts, ends, agrees⟩ :=
      ListRegion.exists_agrees_upTo resolved stop_le
    have begins :
        IsBeginning
          (conclude memory
            (run memory region.phase (longerStart.upTo start.stop)))
          (conclude memory (run memory region.phase longerStart)) :=
      (run_cutsShort ends region.phase).isBeginning
    have sameRun :=
      run_agrees (Memory.SameRegions.refl memory) agrees region.phase
    exact begins.of_sameResult
      ((sameResult_conclude starts).trans (conclude_agrees sameRun))
      (sameResult_conclude longerStarts).symm
  · have walkIs := list_of_not_covers covered
    have longerIs :
        list memory { region with stop := later } = _ :=
      list_of_not_covers covered
    rw [walkIs, longerIs]
    exact ⟨Entry.withoutOverflow_isPrefix _, List.prefix_rfl,
      fun _ fails => ⟨fails, rfl, rfl⟩⟩

/--
A walk to an earlier end lists what a walk to a later end lists first, but for
an overflow at its end, and requests what that one requests first.  If it fails,
so does the other one, with the same entries and requests.
-/
theorem list_isMonotone
    (memory : Memory)
    (region : ListRegion)
    {later : Int}
    (stop_le : region.stop ≤ later) :
    let walk := list memory region
    let longer := list memory { region with stop := later }
    Entry.withoutOverflow (Event.entries walk.events) <+:
        Event.entries longer.events ∧
      Event.requests walk.events <+: Event.requests longer.events ∧
      ∀ fault,
        walk.outcome = .error fault →
        longer.outcome = .error fault ∧
          Event.entries walk.events = Event.entries longer.events ∧
          Event.requests walk.events = Event.requests longer.events := by
  intro walk longer
  have begins : IsBeginning walk longer := list_isBeginning stop_le
  exact ⟨begins.entriesBegin, begins.requestsBegin, begins.of_error⟩

/-- Two calls of a list, and a reference to an extended shader record. -/
def calling : Memory :=
  [⟨1, 0x1000, #[17, 0x00, 0x10, 0, 0, 17, 0x00, 0x10, 0, 0], some 0⟩,
    ⟨2, 0x2000, #[64, 0x08, 0x10, 0, 0, 1], some 1⟩]

/-- The calls, up to an end inside the second one. -/
def firstCall : ListRegion :=
  ⟨0x1000, 0x1007, false, unsetPrimMode, .packets⟩

/-- The reference, up to the packet behind it. -/
def extendedRecord : ListRegion :=
  ⟨0x2000, 0x2005, false, unsetPrimMode, .packets⟩

/--
The second call is cut short; the reference is refused whatever comes later.
-/
theorem list_isMonotone_calling :
    let walk := list calling firstCall
    let longer := list calling { firstCall with stop := 0x100a }
    let refused := list calling { extendedRecord with stop := 0x2006 }
    (Event.entries walk.events).map Entry.name =
        ["BRANCH_TO_SUB_LIST", "addr", "BRANCH_TO_SUB_LIST",
          Entry.overflow] ∧
      Entry.withoutOverflow (Event.entries walk.events) <+:
        Event.entries longer.events ∧
      Event.requests walk.events <+: Event.requests longer.events ∧
      Event.requests walk.events ≠ Event.requests longer.events ∧
      refused.outcome = .error .extendedShaderRecord := by
  intro walk longer refused
  have callsEnd : firstCall.stop ≤ 0x100a := by decide
  have referenceEnds : extendedRecord.stop ≤ 0x2006 := by decide
  obtain ⟨entries, requests, _⟩ :=
    list_isMonotone calling firstCall callsEnd
  obtain ⟨_, _, fails⟩ :=
    list_isMonotone calling extendedRecord referenceEnds
  have isRefused :
      (list calling extendedRecord).outcome.map
          (Option.map Cursor.state) =
        .error .extendedShaderRecord := by
    decide +kernel
  exact ⟨by decide +kernel, entries, requests, by decide +kernel,
    (fails _ (Outcome.eq_error_of_map isRefused)).1⟩

end Walk

end VideoCore
