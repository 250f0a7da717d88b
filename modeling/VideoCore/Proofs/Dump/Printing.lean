import VideoCore.Proofs.Dump.Run
import VideoCore.Proofs.Snapshot.State

namespace VideoCore

/-!
# Printed dumps

Every event of a dump of an accepted snapshot has a text, so that printing never
ends before the dump does.
-/

namespace Printed

/-- Events each of which has a text can be printed. -/
theorem ofEventsAfter_eq_none
    {events : List Event}
    (printable : ∀ event ∈ events, ∃ text, ofEvent event = .ok text)
    (printed : Printed) :
    (ofEventsAfter printed events).2 = none := by
  induction events generalizing printed with
  | nil =>
      rfl
  | cons first rest inductionHypothesis =>
      obtain ⟨text, textIs⟩ := printable first (by simp)
      rw [ofEventsAfter, textIs]
      exact inductionHypothesis
        (fun event member =>
          printable event (List.mem_cons_of_mem _ member))
        (printed.append text)

end Printed

namespace Dump

variable {dump : Dump}

/-- Whether the captured registers of a dump are integers. -/
def HasRegisters (dump : Dump) : Prop :=
  ∀ name ∈ stateWords, ∃ number, dump.state name = .integer number

/-- The register summary can be printed. -/
theorem exists_ofEvent_of_mem_registerSummary
    (hasRegisters : dump.HasRegisters)
    {event : Event}
    (member : event ∈ dump.registerSummary) :
    ∃ text, Printed.ofEvent event = .ok text := by
  have single
      (title name : String)
      (isRegister : name ∈ stateWords) :
      ∃ text,
        Printed.ofEvent (.register title (dump.state name)) =
          .ok text := by
    obtain ⟨number, numberIs⟩ := hasRegisters name isRegister
    rw [numberIs]
    exact ⟨_, rfl⟩
  have range
      (title start stop : String)
      (isStart : start ∈ stateWords)
      (isStop : stop ∈ stateWords) :
      ∃ text,
        Printed.ofEvent
            (.register title
              (.tuple [dump.state start, dump.state stop])) =
          .ok text := by
    obtain ⟨first, firstIs⟩ := hasRegisters start isStart
    obtain ⟨last, lastIs⟩ := hasRegisters stop isStop
    rw [firstIs, lastIs]
    exact ⟨_, rfl⟩
  have listed :
      ∀ entry ∈ listedRegisters, entry.2 ∈ stateWords := by
    decide
  simp only [registerSummary, List.mem_append, List.mem_cons,
    List.not_mem_nil, or_false, List.mem_map] at member
  rcases member with
    ((rfl | rfl | rfl | rfl | rfl) | ⟨entry, isListed, rfl⟩) | rfl
  · exact range _ _ _ (by decide) (by decide)
  · exact single _ _ (by decide)
  · exact range _ _ _ (by decide) (by decide)
  · exact single _ _ (by decide)
  · exact ⟨_, rfl⟩
  · exact single _ _ (listed entry isListed)
  · exact ⟨_, rfl⟩

/-- Every event of a dump can be printed. -/
theorem exists_ofEvent_of_ofDump
    (hasRegisters : dump.HasRegisters)
    {event : Event}
    (ofDump : event.OfDump dump) :
    ∃ text, Printed.ofEvent event = .ok text := by
  cases ofDump with
  | heading title =>
      exact ⟨_, rfl⟩
  | separator =>
      exact ⟨_, rfl⟩
  | walk regular =>
      exact regular.exists_ofEvent
  | hexdump addr data =>
      exact ⟨_, rfl⟩
  | summary member =>
      exact exists_ofEvent_of_mem_registerSummary hasRegisters member

end Dump

end VideoCore
