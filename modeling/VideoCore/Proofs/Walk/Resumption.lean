import VideoCore.Proofs.Walk.Agreement

namespace VideoCore.Walk

/-!
# Walks can be resumed

A walk can be cut at every boundary between items.  A walk from there on, with
the format that is in force and with packets or forms as they stand there, finds
what the first walk finds from there on (`list_resumes`).
-/

/-- The list that is left of a region at a cursor. -/
def ListRegion.resumedAt
    (region : ListRegion)
    (phase : Phase)
    (met : Cursor) : ListRegion where
  start := met.addr
  stop := region.stop
  isRender := region.isRender
  primMode := met.primMode
  phase := phase

variable {memory : Memory} {region : ListRegion} {phase : Phase}
  {cursor met : Cursor}

/--
The cursor at the start of what is left of a list agrees with the one that has
come there, if both are in the same buffer.
-/
theorem ListRegion.exists_agrees_resumedAt
    (starts : region.cursor? memory = .ok cursor)
    (moves : cursor.Moves met)
    (sameBuffer : memory.find met.addr = memory.find region.start)
    (phase : Phase) :
    ∃ resumed,
      (region.resumedAt phase met).cursor? memory = .ok resumed ∧
        met.Agrees resumed := by
  obtain ⟨limit, resolved, isStart, _⟩ := list_of_cursor? starts
  have resumedResolved : memory.regionEnd met.addr = .ok limit := by
    rw [← resolved, Memory.regionEnd, Memory.regionEnd, sameBuffer]
  obtain ⟨resumed, resumedStarts, resumedIsStart, _⟩ :=
    @list_of_regionEnd memory (region.resumedAt phase met) limit
      resumedResolved
  have sameBytes :
      memory.byteAt? met.addr = memory.byteAt? region.start := by
    funext addr
    rw [Memory.byteAt?, Memory.byteAt?, sameBuffer]
  refine ⟨resumed, resumedStarts, ?_⟩
  refine
    .of_shows (isStart.within.of_moves moves) resumedIsStart.within ?_
      ((isStart.shows resolved starts).of_moves isStart.within moves)
      (resumedIsStart.shows resumedResolved resumedStarts) ?_
  · simp only [Cursor.state, moves.stop_eq, isStart.stop_eq,
      resumedIsStart.addr_eq, resumedIsStart.stop_eq,
      resumedIsStart.primMode_eq, resumedAt]
  · intro addr _ _
    rw [resumedAt, sameBytes]

/--
A walk over a list can be resumed wherever it comes to a packet or a form, as
long as that address resolves to the same buffer.  The second walk lists and
requests exactly what the first one does from there on, and ends with the same
cursor or with the same fault.
-/
theorem list_resumes
    (starts : region.cursor? memory = .ok cursor)
    (reaches : Reaches memory region.phase cursor phase met)
    (sameBuffer : memory.find met.addr = memory.find region.start) :
    let walk := list memory region
    let resumed := list memory (region.resumedAt phase met)
    ∃ earlier,
      Passes memory region.phase cursor earlier phase met ∧
        Event.entries walk.events =
          Event.entries earlier ++ Event.entries resumed.events ∧
        Event.requests walk.events =
          Event.requests earlier ++ Event.requests resumed.events ∧
        walk.outcome.map (Option.map Cursor.state) =
          resumed.outcome.map (Option.map Cursor.state) := by
  intro walk resumed
  obtain ⟨earlier, passes⟩ := reaches.exists_passes
  obtain ⟨next, resumedStarts, agrees⟩ :=
    ListRegion.exists_agrees_resumedAt starts passes.moves sameBuffer
      phase
  have whole := sameResult_conclude starts
  have rest :
      SameResult (conclude memory (run memory phase met)) resumed :=
    (conclude_agrees
        (run_agrees (.refl memory) agrees phase)).trans
      (sameResult_conclude resumedStarts).symm
  obtain ⟨eventsAre, outcomeIs⟩ :=
    conclude_after memory (run memory phase met) earlier
  rw [passes.run_eq] at whole
  refine ⟨earlier, passes, ?_, ?_, ?_⟩
  · rw [whole.entries_eq, eventsAre, Event.entries_append,
      rest.entries_eq]
  · rw [whole.requests_eq, eventsAre, Event.requests_append,
      rest.requests_eq]
  · rw [whole.outcome_eq, outcomeIs, rest.outcome_eq]

/--
A buffer with a format, a packet with compressed data, and the end of the list.
-/
def formattedTriangles : Memory :=
  [⟨1, 0x1000, #[56, 0x12, 48, 0x04, 128, 0], some 0⟩]

/-- The list that fills the buffer. -/
def formattedRegion : ListRegion :=
  ⟨0x1000, 0x1006, false, unsetPrimMode, .packets⟩

/-- The start of the list. -/
def formattedStart : Cursor :=
  .atStart 0x1000 0x1006
    ⟨#[56, 0x12, 48, 0x04, 128, 0], 0, 6, by decide, by decide⟩ false
    unsetPrimMode

/-- The position behind the format. -/
def behindFormat : Cursor :=
  (item formattedTriangles .packets formattedStart).cursor

/-- The position behind the packet with compressed data. -/
def behindPacket : Cursor :=
  (item formattedTriangles .packets behindFormat).cursor

/-- The position behind the first form. -/
def behindForm : Cursor :=
  (item formattedTriangles .forms behindPacket).cursor

/-- A walk over compressed data is resumed behind its first form. -/
theorem list_resumes_inside_forms :
    behindForm.state = (0x1004, 0x1006, 0x12) ∧
      ∃ earlier,
        Passes formattedTriangles .packets formattedStart earlier .forms
            behindForm ∧
          Event.entries (list formattedTriangles formattedRegion).events =
            Event.entries earlier ++
              Event.entries
                (list formattedTriangles
                  (formattedRegion.resumedAt .forms behindForm)).events := by
  have starts :
      formattedRegion.cursor? formattedTriangles =
        .ok formattedStart := by
    rfl
  have format :
      (item formattedTriangles .packets formattedStart).outcome =
        .ok (.follows .packets) := by
    decide +kernel
  have header :
      (item formattedTriangles .packets behindFormat).outcome =
        .ok (.follows .forms) := by
    decide +kernel
  have index :
      (item formattedTriangles .forms behindPacket).outcome =
        .ok (.follows .forms) := by
    decide +kernel
  have reaches :=
    Reaches.cons format (.cons header (.cons index (.refl .forms _)))
  have sameBuffer :
      formattedTriangles.find behindForm.addr =
        formattedTriangles.find formattedRegion.start := by
    decide +kernel
  obtain ⟨earlier, passes, entriesAre, _⟩ :=
    list_resumes starts reaches sameBuffer
  exact ⟨by decide +kernel, earlier, passes, entriesAre⟩

end VideoCore.Walk
