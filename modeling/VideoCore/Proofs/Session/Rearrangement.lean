import VideoCore.Proofs.Walk.Matching
import VideoCore.Session

namespace VideoCore

/-!
# Dumps of rearranged snapshots

The order in which a snapshot stores its buffers is of no importance, as long as
no address is in two of them, and buffers without bytes are of none at all.  A
dump reports the same and finds the same areas; only the listing of the buffers
in its messages is another one (`Session.run_isArrangementFree`).
-/

/--
Whether another snapshot holds the same registers and the same buffers, these in
any order, with buffers without bytes put in anywhere.  Only the number of
buffers may have changed with them.
-/
structure Snapshot.IsRearranged (snapshot other : Snapshot) : Prop where
  state :
    ∀ name,
      name ≠ "bo_count" →
      snapshot.state.get? name = other.state.get? name
  buffers : snapshot.buffers.IsRearranged other.buffers
  trailing_eq : snapshot.trailing = other.trailing

/-- The same dump of another snapshot. -/
def Dump.ofSnapshot
    (dump : Dump)
    (snapshot : Snapshot) : Dump :=
  { dump with snapshot := snapshot }

namespace Dump

variable {dump : Dump} {other : Snapshot}

/-! ## What is read of the snapshot -/

/-- Rearranging buffers changes no register. -/
theorem state_eq
    (rearranged : dump.snapshot.IsRearranged other)
    {name : String}
    (isRegister : name ≠ "bo_count") :
    (dump.ofSnapshot other).state name = dump.state name := by
  rw [state, state, Fields.get, Fields.get]
  exact congrArg (·.getD .absent) (rearranged.state name isRegister).symm

theorem rootRegion_eq
    (rearranged : dump.snapshot.IsRearranged other)
    {start stop : String}
    (startIsRegister : start ≠ "bo_count")
    (stopIsRegister : stop ≠ "bo_count")
    (isRender : Bool) :
    (dump.ofSnapshot other).rootRegion start stop isRender =
      dump.rootRegion start stop isRender := by
  simp only [rootRegion, address, Fields.integer,
    rearranged.state start startIsRegister,
    rearranged.state stop stopIsRegister]
  rfl

/-- Rearranging buffers does not show in the summary. -/
theorem registerSummary_eq
    (rearranged : dump.snapshot.IsRearranged other) :
    (dump.ofSnapshot other).registerSummary = dump.registerSummary := by
  have same :
      ∀ name,
        name ≠ "bo_count" →
        (dump.ofSnapshot other).state name = dump.state name :=
    fun name isRegister => state_eq rearranged isRegister
  simp [registerSummary, listedRegisters, same]

/-! ## What is reported -/

/-- The root lists report the same of rearranged buffers. -/
theorem controlLists_matches
    (same : dump.snapshot.buffers.SameBuffers other.buffers)
    (rearranged : dump.snapshot.IsRearranged other) :
    dump.controlLists.Matches dump.snapshot.buffers other.buffers
      (dump.ofSnapshot other).controlLists := by
  have rootList_matches (title : String) (region : Walk.ListRegion) :
      (dump.rootList title region).Matches dump.snapshot.buffers
        other.buffers ((dump.ofSnapshot other).rootList title region) :=
    .bind (.refl _) fun _ =>
      .bind (Walk.list_matches same region) fun _ => .refl _
  rw [controlLists, controlLists,
    rootRegion_eq rearranged (by decide) (by decide),
    rootRegion_eq rearranged (by decide) (by decide)]
  dsimp only
  split
  · exact .bind (rootList_matches _ _) fun _ => rootList_matches _ _
  · exact rootList_matches _ _

/-- A visit reports the same of rearranged buffers. -/
theorem visit_matches
    (same : dump.snapshot.buffers.SameBuffers other.buffers)
    (area : Area) :
    (dump.visit area).Matches dump.snapshot.buffers other.buffers
      ((dump.ofSnapshot other).visit area) := by
  have bytes_eq :
      dump.areaBytes area = (dump.ofSnapshot other).areaBytes area := by
    simp only [areaBytes, same.view_eq]
    rfl
  exact .bind (.refl _) fun _ =>
    .bind (Walk.area_matches same dump.disassembler area) fun _ =>
      .of_eq bytes_eq

end Dump

/-- Sweeps with matching visits match. -/
theorem Sweep.run_matches
    {memory other : Memory}
    {visit otherVisit : Area → Traced Unit}
    (visits_match :
      ∀ area, (visit area).Matches memory other (otherVisit area))
    (limit : Nat)
    (sweep : Sweep) :
    (sweep.run visit limit).Matches memory other
      (sweep.run otherVisit limit) := by
  induction limit generalizing sweep with
  | zero =>
      exact .refl _
  | succ limit inductionHypothesis =>
      rw [run, run]
      split
      · exact .refl _
      · next area _ =>
          dsimp only
          rw [← Event.requests_eq_of_matches (visits_match area).events]
          exact .bind (visits_match area) fun _ => inductionHypothesis _

namespace Dump

variable {dump : Dump} {other : Snapshot}

/-- A sweep reports the same of rearranged buffers. -/
theorem areas_matches
    (same : dump.snapshot.buffers.SameBuffers other.buffers)
    (rearranged : dump.snapshot.IsRearranged other)
    (registry : Registry) :
    (dump.areas registry).Matches dump.snapshot.buffers other.buffers
      ((dump.ofSnapshot other).areas registry) := by
  have limit_eq :
      registry.limit other.buffers =
        registry.limit dump.snapshot.buffers := by
    rw [Registry.limit, Registry.limit,
      Memory.capacity_of_isRearranged rearranged.buffers]
  refine .bind ?_ fun _ => .refl _
  rw [Registry.sweep, Registry.sweep, ofSnapshot, limit_eq]
  exact Sweep.run_matches (visit_matches same) _ _

/-- The runs of dumps of rearranged snapshots match. -/
theorem run_matches
    (same : dump.snapshot.buffers.SameBuffers other.buffers)
    (rearranged : dump.snapshot.IsRearranged other)
    (registry : Registry)
    (parts : DumpParts) :
    (dump.run registry parts).Matches dump.snapshot.buffers other.buffers
      ((dump.ofSnapshot other).run registry parts) := by
  have lists := controlLists_matches same rearranged
  have rest :
      (if parts.areas then
          dump.areas
            (registry.addAll (Event.requests dump.controlLists.events))
        else
          return ()).Matches dump.snapshot.buffers other.buffers
        (if parts.areas then
          (dump.ofSnapshot other).areas
            (registry.addAll (Event.requests
              (dump.ofSnapshot other).controlLists.events))
        else
          return ()) := by
    rw [← Event.requests_eq_of_matches lists.events]
    split
    · exact areas_matches same rearranged _
    · exact .refl _
  rw [run, run, registerSummary_eq rearranged]
  dsimp only
  split
  · exact .bind (.refl _) fun _ => .bind lists fun _ => rest
  · exact .bind lists fun _ => rest

end Dump

/--
Whether two sessions have found and reported the same, but for listings of their
buffers.
-/
structure Session.Matches (first second : Session) : Prop where
  registry_eq : first.registry = second.registry
  recording :
    first.recording.Matches first.dump.snapshot.buffers
      second.dump.snapshot.buffers second.recording

namespace Session

/-- Matching sessions still match after matching events. -/
theorem Matches.after
    {first second : Session}
    {events others : List Event}
    (sessions_match : first.Matches second)
    (events_match :
      List.Forall₂
        (Event.Matches first.dump.snapshot.buffers
          second.dump.snapshot.buffers)
        events others) :
    (first.after events).Matches (second.after others) where
  registry_eq :=
    congrArg₂ Registry.addAll sessions_match.registry_eq
      (Event.requests_eq_of_matches events_match)
  recording := sessions_match.recording.addAll events_match

variable {dump : Dump} {other : Snapshot}

/-- Sessions over rearranged buffers start alike. -/
theorem start_matches
    (rearranged : dump.snapshot.IsRearranged other) :
    (start dump).Matches (start (dump.ofSnapshot other)) := by
  have blanks_match :
      (blank dump).Matches (blank (dump.ofSnapshot other)) :=
    ⟨rfl, ⟨rfl, rfl, .nil, rfl, rfl⟩⟩
  have opening_eq :
      (dump.ofSnapshot other).opening = dump.opening := by
    rw [Dump.opening, Dump.opening, rearranged.trailing_eq]
    rfl
  rw [start, start, opening_eq]
  exact blanks_match.after (Event.matches_refl dump.opening)

/--
The order of the buffers of a snapshot makes no difference if no address is in
two of them, and buffers without bytes make none.  Every run reports the same
entries, headings, registers and dumps of memory in the same order, registers
the same areas in the same order and ends alike.  Of the messages, only the
listings of the buffers differ.
-/
theorem run_isArrangementFree
    (disjoint : dump.snapshot.buffers.IsDisjoint)
    (rearranged : dump.snapshot.IsRearranged other)
    (parts : DumpParts) :
    let session := start dump
    let otherSession := start (dump.ofSnapshot other)
    let command := SessionCommand.everything parts
    (session.runOf command).Matches dump.snapshot.buffers other.buffers
        (otherSession.runOf command) ∧
      (session.perform command).1.Matches
        (otherSession.perform command).1 ∧
      (session.perform command).2 = (otherSession.perform command).2 := by
  intro session otherSession command
  have same := Memory.SameBuffers.of_isRearranged disjoint
    rearranged.buffers
  have sessions_match := start_matches rearranged
  have runs_match :
      (session.runOf command).Matches dump.snapshot.buffers
        other.buffers (otherSession.runOf command) := by
    rw [runOf, runOf, ← sessions_match.registry_eq]
    exact Dump.run_matches same rearranged session.registry parts
  exact ⟨runs_match, sessions_match.after runs_match.events,
    runs_match.outcome_eq⟩

/-- A dump of some buffers, with a rendering list of six bytes. -/
def calling
    (count : Int)
    (buffers : Memory) : Dump where
  snapshot :=
    { version := 0
      state :=
        [("start_render", .integer 0x1000), ("ct1ea", .integer 0x1006),
          ("bo_count", .decimal count)]
      buffers := buffers
      trailing := 0 }
  disassembler := Shader.disassemble
  hexdumps := true

/--
A list that calls another one, in the buffer at some place of a container.
-/
def caller (index : Nat) : Buffer :=
  ⟨1, 0x1000, #[17, 0x00, 0x20, 0, 0, 0], some index⟩

/-- A list that leads nowhere. -/
def called (index : Nat) : Buffer :=
  ⟨2, 0x2000, #[16, 0, 0, 0, 0x90], some index⟩

/-- A buffer without bytes, in the middle of another one. -/
def blankBuffer (index : Nat) : Buffer :=
  ⟨3, 0x1002, #[], some index⟩

/--
Exchanging two buffers and putting one without bytes in front changes a listing,
but no entry and no area.
-/
theorem run_isArrangementFree_exchanged :
    let ended :=
      ((start (calling 2 [caller 0, called 1])).perform
        (.everything ⟨true, true⟩)).1
    let otherEnded :=
      ((start (calling 3 [blankBuffer 0, called 1, caller 2])).perform
        (.everything ⟨true, true⟩)).1
    ended.registry = [⟨.subList, 0x2000, 5, 0xff, 0, false⟩] ∧
      otherEnded.registry = ended.registry ∧
      otherEnded.recording.entries = ended.recording.entries ∧
      otherEnded.recording.diagnostics ≠ ended.recording.diagnostics := by
  intro ended otherEnded
  have disjoint : Memory.IsDisjoint [caller 0, called 1] := by
    refine List.pairwise_pair.mpr ?_
    rintro addr ⟨inCaller, inCalled⟩
    have callerStop : (caller 0).stop = 0x1006 := rfl
    have calledStart : (called 1).paddr = 0x2000 := rfl
    simp only [Buffer.contains, Bool.and_eq_true, decide_eq_true_eq]
      at inCaller inCalled
    omega
  have rearranged :
      (calling 2 [caller 0, called 1]).snapshot.IsRearranged
        (calling 3 [blankBuffer 0, called 1, caller 2]).snapshot := by
    refine ⟨?_, ⟨[blankBuffer 0], by decide, by decide⟩, rfl⟩
    intro name isRegister
    have other : (name == "bo_count") = false := by simpa using isRegister
    simp only [calling, Fields.get?, List.lookup_cons, other]
  obtain ⟨_, sessions_match, _⟩ :=
    run_isArrangementFree disjoint rearranged ⟨true, true⟩
  exact ⟨by decide +kernel, sessions_match.registry_eq.symm,
    sessions_match.recording.entries_eq.symm, by decide +kernel⟩

end Session

end VideoCore
