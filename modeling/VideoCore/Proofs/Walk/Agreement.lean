import VideoCore.Proofs.Walk.Area

namespace VideoCore

/-!
# Walks that see the same

What a walk does depends on the bytes that are left of its region, on the format
in force, and on where addresses resolve.  Two cursors that agree in this lead
to the same events and to the same end (`run_agrees`), whatever lies around
their regions.
-/

namespace Memory.SameRegions

variable {memory other : Memory}

theorem areaToEnd_eq
    (same : memory.SameRegions other)
    (type : AreaType)
    (paddr primMode : Int) :
    memory.areaToEnd type paddr primMode =
      other.areaToEnd type paddr primMode := by
  rw [areaToEnd, areaToEnd, same]

/-- Shader records are looked up by the regions only. -/
theorem shaderRecordOf_eq
    (same : memory.SameRegions other)
    (reference : Register) :
    memory.shaderRecordOf reference = other.shaderRecordOf reference := by
  simp only [shaderRecordOf, shaderRecordAt, sizedArea, same _]

/-- What a packet causes depends on the regions only. -/
theorem apply_eq
    (same : memory.SameRegions other)
    (effect : PacketEffect)
    (primMode : Int)
    (fields : Fields) :
    effect.apply memory primMode fields =
      effect.apply other primMode fields := by
  cases effect with
  | nothing | setsFormat =>
      rfl
  | namesList field =>
      simp only [PacketEffect.apply, subListAt, same.areaToEnd_eq]
  | namesShaderRecord field =>
      simp only [PacketEffect.apply, same.shaderRecordOf_eq]

end Memory.SameRegions

/--
Whether two cursors stand at the same address and see the same from there on.
-/
structure Cursor.Agrees (first second : Cursor) : Prop where
  within : first.Within
  otherWithin : second.Within
  addr_eq : first.addr = second.addr
  stop_eq : first.stop = second.stop
  primMode_eq : first.primMode = second.primMode
  rest_eq : first.rest = second.rest

namespace Cursor.Agrees

variable {first second : Cursor}

/--
Cursors at the same address agree if they see the same bytes from there on.
-/
theorem of_shows
    {byteAt? otherByteAt? : Int → Option UInt8}
    (within : first.Within)
    (otherWithin : second.Within)
    (state_eq : first.state = second.state)
    (shows : first.Shows byteAt?)
    (otherShows : second.Shows otherByteAt?)
    (bytes :
      ∀ addr,
        first.addr ≤ addr →
        addr < first.stop →
        byteAt? addr = otherByteAt? addr) :
    first.Agrees second := by
  simp only [state, Prod.mk.injEq] at state_eq
  obtain ⟨addr_eq, stop_eq, primMode_eq⟩ := state_eq
  refine
    ⟨within, otherWithin, addr_eq, stop_eq, primMode_eq,
      List.ext_getElem? fun index => ?_⟩
  rw [shows, otherShows, ← addr_eq, ← stop_eq]
  split
  · next inside =>
      exact bytes _ (by omega) inside
  · rfl

theorem peek_eq
    (agrees : first.Agrees second) :
    first.peek = second.peek := by
  rw [agrees.within.peek_eq, agrees.otherWithin.peek_eq, agrees.rest_eq]

theorem take_eq
    (agrees : first.Agrees second)
    (size : Nat) :
    first.take size = second.take size := by
  rw [agrees.within.take_eq, agrees.otherWithin.take_eq, agrees.rest_eq]

theorem fits_eq
    (agrees : first.Agrees second)
    (size : Int) :
    first.fits size = second.fits size := by
  rw [fits, fits, agrees.addr_eq, agrees.stop_eq]

/-- Cursors that agree still do so behind what fits them. -/
theorem advance
    (agrees : first.Agrees second)
    {size : Nat}
    (positive : 0 < size)
    (fits : first.fits size = true) :
    (first.advance size).Agrees (second.advance size) := by
  have moves : first.Moves (first.advance size) :=
    moves_advance positive fits first.primMode
  have otherMoves : second.Moves (second.advance size) :=
    moves_advance positive (agrees.fits_eq size ▸ fits) second.primMode
  have addr_eq : (first.advance size).addr = (second.advance size).addr :=
    congrArg (· + (size : Int)) agrees.addr_eq
  exact
    { within := agrees.within.of_moves moves
      otherWithin := agrees.otherWithin.of_moves otherMoves
      addr_eq := addr_eq
      stop_eq := agrees.stop_eq
      primMode_eq := agrees.primMode_eq
      rest_eq := by
        rw [agrees.within.rest_of_moves moves,
          agrees.otherWithin.rest_of_moves otherMoves, agrees.rest_eq,
          agrees.addr_eq, addr_eq] }

theorem withFormat
    (agrees : first.Agrees second)
    (primMode : Int) :
    Agrees { first with primMode := primMode }
      { second with primMode := primMode } where
  within := agrees.within.of_moves ⟨rfl, rfl, rfl, rfl, Or.inl rfl⟩
  otherWithin :=
    agrees.otherWithin.of_moves ⟨rfl, rfl, rfl, rfl, Or.inl rfl⟩
  addr_eq := agrees.addr_eq
  stop_eq := agrees.stop_eq
  primMode_eq := rfl
  rest_eq := agrees.rest_eq

end Cursor.Agrees

/-- Whether two parts of walks do the same and leave cursors that agree. -/
structure Progress.Agrees (first second : Progress) : Prop where
  events_eq : first.events = second.events
  outcome_eq : first.outcome = second.outcome
  cursors : first.cursor.Agrees second.cursor

namespace Walk

variable {memory other : Memory} {first second : Cursor}

/-- A packet has the same effect at cursors that agree. -/
theorem carryOut_agrees
    (same : memory.SameRegions other)
    (agrees : first.Agrees second)
    {type : PacketType}
    (positive : 0 < type.size)
    (fits : first.fits type.size = true)
    (record : Record)
    (shown : List Event) :
    (carryOut memory first type record shown).Agrees
      (carryOut other second type record shown) := by
  simp only [carryOut, same.apply_eq, agrees.primMode_eq]
  split
  · exact ⟨rfl, rfl, agrees⟩
  · exact ⟨rfl, rfl, (agrees.advance positive fits).withFormat _⟩

/-- A packet is decoded alike at cursors that agree. -/
theorem knownPacket_agrees
    (same : memory.SameRegions other)
    (agrees : first.Agrees second)
    {type : PacketType}
    (positive : 0 < type.size)
    (fits : first.fits type.size = true)
    (opcode : Int) :
    (knownPacket memory first opcode type).Agrees
      (knownPacket other second opcode type) := by
  simp only [knownPacket, agrees.take_eq, agrees.addr_eq]
  split
  · exact ⟨rfl, rfl, agrees⟩
  · split
    · exact ⟨rfl, rfl, agrees⟩
    · exact carryOut_agrees same agrees positive fits _ _

theorem packet_agrees
    (same : memory.SameRegions other)
    (agrees : first.Agrees second) :
    (packet memory first).Agrees (packet other second) := by
  simp only [packet, agrees.peek_eq]
  split
  · exact ⟨rfl, rfl, agrees⟩
  · split
    · exact ⟨by simp only [agrees.addr_eq], rfl, agrees⟩
    · next found =>
        simp only [← agrees.fits_eq]
        split
        · next fits =>
            exact knownPacket_agrees same agrees
              (PacketType.size_pos_of_find? found) fits _
        · exact ⟨by simp only [agrees.addr_eq, overflowEvent, agrees.stop_eq],
            rfl, agrees⟩

/-- Branches are followed alike at cursors that agree. -/
theorem followBranch_agrees
    (same : memory.SameRegions other)
    (agrees : first.Agrees second)
    (addr : Int)
    (fields : Fields) :
    (followBranch memory addr first fields).Agrees
      (followBranch other addr second fields) := by
  simp only [followBranch, Memory.compressedListAt, same.areaToEnd_eq,
    agrees.primMode_eq]
  split <;> exact ⟨rfl, rfl, agrees⟩

theorem form_agrees
    (same : memory.SameRegions other)
    (agrees : first.Agrees second) :
    (form memory first).Agrees (form other second) := by
  simp only [form, agrees.peek_eq]
  split
  · exact ⟨rfl, rfl, agrees⟩
  · simp only [← agrees.fits_eq]
    split
    · next fits =>
        have next := agrees.advance (IndexForm.size_pos _) fits
        simp only [knownForm, agrees.take_eq, agrees.addr_eq]
        split
        · exact ⟨rfl, rfl, agrees⟩
        · split
          · exact ⟨rfl, rfl, next⟩
          · exact followBranch_agrees same next _ _
          · exact ⟨rfl, rfl, next⟩
    · exact ⟨by simp only [overflowEvent, agrees.stop_eq], rfl, agrees⟩

/-- Items are decoded alike at cursors that agree. -/
theorem item_agrees
    (same : memory.SameRegions other)
    (agrees : first.Agrees second)
    (phase : Phase) :
    (item memory phase first).Agrees (item other phase second) := by
  cases phase with
  | packets =>
      simp only [item, agrees.addr_eq, agrees.stop_eq]
      split
      · exact packet_agrees same agrees
      · exact ⟨rfl, rfl, agrees⟩
  | forms =>
      simp only [item, agrees.addr_eq, agrees.stop_eq,
        agrees.primMode_eq]
      split
      · exact ⟨by simp only [unsupportedEvent, agrees.addr_eq,
          agrees.primMode_eq], rfl, agrees⟩
      · split
        · exact form_agrees same agrees
        · exact ⟨rfl, rfl, agrees⟩

/-- Runs that begin at cursors that agree do the same. -/
theorem run_agrees
    (same : memory.SameRegions other)
    (agrees : first.Agrees second)
    (phase : Phase) :
    (run memory phase first).Agrees (run other phase second) := by
  have runs := runs_run memory phase first
  generalize run memory phase first = progress at runs
  -- Item by item, the cursors agree again and the same phase follows.
  induction runs generalizing second with
  | @last phase first ends =>
      have items := item_agrees same agrees phase
      have otherEnds :
          ∀ next,
            (item other phase second).outcome = .ok (.follows next) →
            true = false := by
        intro next follows
        exact ends next (items.outcome_eq.trans follows)
      rw [run, runWhile_of_ends otherEnds]
      exact items
  | @goesOn phase next first progress follows isWanted later
      inductionHypothesis =>
      have items := item_agrees same agrees phase
      have rest := inductionHypothesis items.cursors
      rw [run,
        runWhile_of_follows (items.outcome_eq.symm.trans follows) rfl]
      exact ⟨congrArg₂ (· ++ ·) items.events_eq rest.events_eq,
        rest.outcome_eq, rest.cursors⟩

/-! ## Conclusions -/

/-- Whether two walks list the same, request the same and end alike. -/
structure SameResult (first second : Traced (Option Cursor)) : Prop where
  entries_eq : Event.entries first.events = Event.entries second.events
  requests_eq : Event.requests first.events = Event.requests second.events
  outcome_eq :
    first.outcome.map (Option.map Cursor.state) =
      second.outcome.map (Option.map Cursor.state)

namespace SameResult

variable {first second third : Traced (Option Cursor)}

theorem symm
    (same : SameResult first second) :
    SameResult second first :=
  ⟨same.entries_eq.symm, same.requests_eq.symm, same.outcome_eq.symm⟩

theorem trans
    (same : SameResult first second)
    (other : SameResult second third) :
    SameResult first third :=
  ⟨same.entries_eq.trans other.entries_eq,
    same.requests_eq.trans other.requests_eq,
    same.outcome_eq.trans other.outcome_eq⟩

end SameResult

/-- The message about a clamped end apart, a walk is the run over its region. -/
theorem sameResult_conclude
    {region : ListRegion}
    {cursor : Cursor}
    (starts : region.cursor? memory = .ok cursor) :
    SameResult (list memory region)
      (conclude memory (run memory region.phase cursor)) := by
  obtain ⟨limit, _, _, eventsAre, outcomeIs⟩ := list_of_cursor? starts
  obtain ⟨noEntries, noRequests⟩ := entries_clampEvents region limit
  refine ⟨?_, ?_, by rw [outcomeIs]⟩
  · rw [eventsAre, Event.entries_append, noEntries, List.nil_append]
  · rw [eventsAre, Event.requests_append, noRequests, List.nil_append]

/-- A list whose start is in a buffer is walked by a run over its bytes. -/
theorem list_of_covers
    {region : ListRegion}
    (covered : memory.Covers region.start) :
    ∃ limit start,
      memory.regionEnd region.start = .ok limit ∧
        region.IsStart limit start ∧
        start.Shows (memory.byteAt? region.start) ∧
        SameResult (list memory region)
          (conclude memory (run memory region.phase start)) ∧
        (list memory region).outcome =
          (conclude memory (run memory region.phase start)).outcome := by
  obtain ⟨_, captured, _⟩ := Memory.regionEnd_of_covers covered
  obtain ⟨start, starts, _, _⟩ := list_of_regionEnd captured
  obtain ⟨limit, resolved, isStart, _, outcomeIs⟩ :=
    list_of_cursor? starts
  exact ⟨limit, start, resolved, isStart, isStart.shows resolved starts,
    sameResult_conclude starts, outcomeIs⟩

/-- What is reported once a run is over. -/
def closing
    (memory : Memory)
    (progress : Progress) : List Event :=
  match progress.outcome with
  | .ok _ => []
  | .error fault =>
      if fault.isUncaptured then
        memory.unresolved progress.cursor.addr fault
      else
        []

theorem events_conclude
    (memory : Memory)
    (progress : Progress) :
    (conclude memory progress).events =
      progress.events ++ closing memory progress := by
  unfold conclude closing Traced.reportingUncaptured
  cases progress.outcome with
  | ok outlook =>
      simp [Except.map]
  | error fault =>
      cases uncaptured : fault.isUncaptured <;>
        simp [Except.map, uncaptured]

/-- Concluding stops at a missing address, and passes other faults on. -/
theorem outcome_conclude
    (memory : Memory)
    (progress : Progress) :
    (conclude memory progress).outcome =
      match progress.outcome with
      | .ok _ => .ok (some progress.cursor)
      | .error fault =>
          if fault.isUncaptured then
            .ok (some progress.cursor)
          else
            .error fault := by
  unfold conclude Traced.reportingUncaptured
  cases progress.outcome with
  | ok outlook =>
      rfl
  | error fault =>
      cases uncaptured : fault.isUncaptured <;>
        simp [Except.map, uncaptured]

/-- A conclusion fails as the run does, but for faults that are reported. -/
theorem outcome_conclude_eq_error_iff
    {progress : Progress}
    {fault : Fault} :
    (conclude memory progress).outcome = .error fault ↔
      progress.outcome = .error fault ∧ fault.isUncaptured = false := by
  rw [outcome_conclude]
  cases progress.outcome with
  | ok outlook =>
      simp
  | error found =>
      cases uncaptured : found.isUncaptured with
      | true =>
          have reported :
              found = fault → fault.isUncaptured ≠ false := by
            rintro rfl
            simp [uncaptured]
          simpa [uncaptured] using reported
      | false =>
          have captured :
              found = fault → fault.isUncaptured = false := by
            rintro rfl
            exact uncaptured
          simpa [uncaptured] using captured

/-- Earlier events come first in a conclusion, and do not change how it ends. -/
theorem conclude_after
    (memory : Memory)
    (progress : Progress)
    (earlier : List Event) :
    (conclude memory (progress.after earlier)).events =
        earlier ++ (conclude memory progress).events ∧
      (conclude memory (progress.after earlier)).outcome =
        (conclude memory progress).outcome := by
  constructor
  · rw [events_conclude, events_conclude, Progress.after,
      List.append_assoc]
    rfl
  · rw [outcome_conclude, outcome_conclude]
    rfl

/--
The report of an unresolved reference has one entry, and requests nothing.
-/
theorem closing_agrees
    {progress others : Progress}
    (agrees : progress.Agrees others) :
    Event.entries (closing memory progress) =
        Event.entries (closing other others) ∧
      Event.requests (closing memory progress) =
        Event.requests (closing other others) := by
  unfold closing
  rw [agrees.outcome_eq, agrees.cursors.addr_eq]
  split
  · exact ⟨rfl, rfl⟩
  · split <;> exact ⟨rfl, rfl⟩

/-- Runs that agree are concluded with the same result. -/
theorem conclude_agrees
    {progress others : Progress}
    (agrees : progress.Agrees others) :
    SameResult (conclude memory progress) (conclude other others) where
  entries_eq := by
    rw [events_conclude, events_conclude, Event.entries_append,
      Event.entries_append, agrees.events_eq,
      (closing_agrees agrees).1]
  requests_eq := by
    rw [events_conclude, events_conclude, Event.requests_append,
      Event.requests_append, agrees.events_eq,
      (closing_agrees agrees).2]
  outcome_eq := by
    have state_eq : progress.cursor.state = others.cursor.state := by
      simp only [Cursor.state, agrees.cursors.addr_eq,
        agrees.cursors.stop_eq, agrees.cursors.primMode_eq]
    rw [outcome_conclude, outcome_conclude, agrees.outcome_eq]
    split
    · simp only [Except.map, Option.map_some, state_eq]
    · split
      · simp only [Except.map, Option.map_some, state_eq]
      · rfl

end Walk

end VideoCore
