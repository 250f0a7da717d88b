import Mathlib.Data.List.Forall2
import VideoCore.Proofs.Report.Traced
import VideoCore.Report.Recording

namespace VideoCore

/-!
# Reports that match

A report of an unresolved reference lists the buffers that were captured.  Two
reports match if they are the same but for such listings, each of which is that
of its own memory.  Runs that are put together from matching parts match.
-/

/-- The message that lists the buffers. -/
def Memory.listing (memory : Memory) : Event :=
  .log memory.describe

/-- Whether two events are the same, or the listings of two memories. -/
inductive Event.Matches (memory other : Memory) : Event → Event → Prop where
  | same (event : Event) :
      Matches memory other event event
  | listing :
      Matches memory other memory.listing other.listing

/--
Whether two runs report the same, but for listings of buffers, and end alike.
-/
structure Traced.Matches
    {α : Type}
    (memory other : Memory)
    (first second : Traced α) : Prop where
  events :
    List.Forall₂ (Event.Matches memory other) first.events second.events
  outcome_eq : first.outcome = second.outcome

variable {α β : Type} {memory other : Memory}

namespace Event

variable {events others : List Event}

theorem matches_refl
    (events : List Event) :
    List.Forall₂ (Matches memory other) events events :=
  List.forall₂_same.mpr fun event _ => .same event

/-- What is picked out of matching reports is the same, if it is no message. -/
theorem filterMap_eq_of_matches
    {pick : Event → Option β}
    (silent : ∀ message, pick (.diagnostic message) = none)
    (events_match : List.Forall₂ (Matches memory other) events others) :
    events.filterMap pick = others.filterMap pick := by
  induction events_match with
  | nil =>
      rfl
  | cons first later inductionHypothesis =>
      rw [List.filterMap_cons, List.filterMap_cons, inductionHypothesis]
      cases first with
      | same event =>
          rfl
      | listing =>
          rw [Memory.listing, Memory.listing, log, log, silent, silent]

/-- Matching events ask for the same areas. -/
theorem requests_eq_of_matches
    (events_match : List.Forall₂ (Matches memory other) events others) :
    requests events = requests others :=
  filterMap_eq_of_matches (fun _ => rfl) events_match

/-- Whether two messages are the same, or the listings of two memories. -/
inductive MatchingMessages (memory other : Memory) :
    String →
    String →
    Prop where
  | same (message : String) :
      MatchingMessages memory other message message
  | listing
      {message otherMessage : String}
      (isListing : Event.diagnostic message = memory.listing)
      (otherIsListing : Event.diagnostic otherMessage = other.listing) :
      MatchingMessages memory other message otherMessage

theorem diagnostics_of_matches
    (events_match : List.Forall₂ (Matches memory other) events others) :
    List.Forall₂ (MatchingMessages memory other) (diagnostics events)
      (diagnostics others) := by
  refine List.rel_filterMap ?_ events_match
  intro event otherEvent first
  cases first with
  | same =>
      cases event with
      | diagnostic message =>
          exact .some (.same message)
      | entry | heading | separator | register | hexdump | request =>
          exact .none
  | listing =>
      exact .some (.listing rfl rfl)

end Event

/-- The reports of an unresolved reference in two memories match. -/
theorem Memory.unresolved_matches
    (addr : Int)
    (fault : Fault) :
    List.Forall₂ (Event.Matches memory other)
      (memory.unresolved addr fault) (other.unresolved addr fault) :=
  .cons (.same _) (.cons (.same _) (.cons .listing .nil))

namespace Traced.Matches

theorem refl
    (run : Traced α) :
    run.Matches memory other run :=
  ⟨Event.matches_refl run.events, rfl⟩

theorem of_eq
    {first second : Traced α}
    (same : first = second) :
    first.Matches memory other second :=
  same ▸ refl first

/-- Runs match if their parts do. -/
theorem bind
    {first second : Traced α}
    {next otherNext : α → Traced β}
    (parts_match : first.Matches memory other second)
    (later : ∀ value, (next value).Matches memory other (otherNext value)) :
    (first >>= next).Matches memory other (second >>= otherNext) := by
  have outcome_eq := parts_match.outcome_eq
  cases ended : first.outcome with
  | error fault =>
      rw [bind_of_error ended, bind_of_error (outcome_eq ▸ ended)]
      exact ⟨parts_match.events, rfl⟩
  | ok value =>
      rw [bind_of_ok ended, bind_of_ok (outcome_eq ▸ ended)]
      exact ⟨List.rel_append parts_match.events (later value).events,
        (later value).outcome_eq⟩

/-- Runs that report missing addresses match if what they report on does. -/
theorem reportingUncaptured
    {first second : Traced α}
    (runs_match : first.Matches memory other second)
    (addr : Int)
    (fallback : α) :
    (Traced.reportingUncaptured memory addr fallback first).Matches memory
      other (Traced.reportingUncaptured other addr fallback second) := by
  rw [Traced.reportingUncaptured, Traced.reportingUncaptured,
    ← runs_match.outcome_eq]
  split
  · exact runs_match
  · next fault _ =>
      split
      · exact ⟨List.rel_append runs_match.events
          (Memory.unresolved_matches addr fault), rfl⟩
      · exact runs_match

end Traced.Matches

/-- Whether two recordings are the same but for listings of buffers. -/
structure Recording.Matches
    (memory other : Memory)
    (first second : Recording) : Prop where
  entries_eq : first.entries = second.entries
  headings_eq : first.headings = second.headings
  diagnostics :
    List.Forall₂ (Event.MatchingMessages memory other) first.diagnostics
      second.diagnostics
  registers_eq : first.registers = second.registers
  hexdumps_eq : first.hexdumps = second.hexdumps

/-- Recordings that match still do so when matching events are recorded. -/
theorem Recording.Matches.addAll
    {first second : Recording}
    {events others : List Event}
    (recordings_match : first.Matches memory other second)
    (events_match :
      List.Forall₂ (Event.Matches memory other) events others) :
    (first.addAll events).Matches memory other (second.addAll others) where
  entries_eq :=
    congrArg₂ (· ++ ·) recordings_match.entries_eq
      (Event.filterMap_eq_of_matches (fun _ => rfl) events_match)
  headings_eq :=
    congrArg₂ (· ++ ·) recordings_match.headings_eq
      (Event.filterMap_eq_of_matches (fun _ => rfl) events_match)
  diagnostics :=
    List.rel_append recordings_match.diagnostics
      (Event.diagnostics_of_matches events_match)
  registers_eq :=
    congrArg₂ Fields.update recordings_match.registers_eq
      (Event.filterMap_eq_of_matches (fun _ => rfl) events_match)
  hexdumps_eq :=
    congrArg₂ (· ++ ·) recordings_match.hexdumps_eq
      (Event.filterMap_eq_of_matches (fun _ => rfl) events_match)

end VideoCore
