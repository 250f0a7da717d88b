import VideoCore.Proofs.Report.Regular

namespace VideoCore.Traced

/-!
# Safe walks

A careful run produces regular events and fails for an address in no buffer
only.  Reporting such addresses makes it safe: it succeeds.  A walk as a whole
is safe up to references to extended shader records, for which it fails.
-/

variable {α β : Type} {memory : Memory}

/--
Whether a run produces regular events and fails for an address in no buffer
only.
-/
structure Careful
    (memory : Memory)
    (run : Traced α) : Prop where
  regular : run.Emits (Event.Regular memory)
  ends :
    (∃ value, run.outcome = .ok value) ∨
      ∃ addr, run.outcome = .error (.unmapped addr)

/--
Whether a run produces regular events and fails exactly for an extended
reference.
-/
structure Safe
    (memory : Memory)
    (extended : Prop)
    (run : Traced α) : Prop where
  regular : run.Emits (Event.Regular memory)
  succeeds : ¬extended → ∃ value, run.outcome = .ok value
  refuses : extended → run.outcome = .error .extendedShaderRecord

namespace Careful

theorem ofPure
    (value : α) :
    Careful memory (Pure.pure value : Traced α) :=
  ⟨.ofPure value, Or.inl ⟨value, rfl⟩⟩

/-- A careful run goes on carefully. -/
theorem bind
    {run : Traced α}
    {next : α → Traced β}
    (first : run.Careful memory)
    (later :
      ∀ value, run.outcome = .ok value → (next value).Careful memory) :
    (run >>= next).Careful memory where
  regular :=
    first.regular.bind fun value ended => (later value ended).regular
  ends := by
    rcases first.ends with ⟨value, ended⟩ | ⟨addr, fails⟩
    · rw [bind_of_ok ended]
      exact (later value ended).ends
    · rw [bind_of_error fails]
      exact Or.inr ⟨addr, rfl⟩

/-- Regular events can be reported in front of a careful run. -/
theorem emit_bind
    {events : List Event}
    {next : Unit → Traced β}
    (regular : ∀ event ∈ events, event.Regular memory)
    (later : (next ()).Careful memory) :
    (emit events >>= next).Careful memory :=
  bind ⟨regular, Or.inl ⟨(), rfl⟩⟩ fun _ _ => later

/-- An outcome that is no other fault than a missing address is careful. -/
theorem ofExcept
    {outcome : Except Fault α}
    (ends :
      (∃ value, outcome = .ok value) ∨
        ∃ addr, outcome = .error (.unmapped addr)) :
    Careful memory (Traced.ofExcept outcome) :=
  ⟨.ofOutcome outcome, ends⟩

/-- A careful run succeeds once addresses in no buffer are reported. -/
theorem reportingUncaptured
    {run : Traced α}
    (careful : run.Careful memory)
    (addr : Int)
    (fallback : α) :
    Safe memory False
      (Traced.reportingUncaptured memory addr fallback run) where
  regular :=
    careful.regular.reportingUncaptured fun fault =>
      Event.Regular.unresolved addr fault
  succeeds := by
    intro _
    rcases careful.ends with ⟨value, ended⟩ | ⟨missing, fails⟩
    · rw [reportingUncaptured_of_ok ended]
      exact ⟨value, ended⟩
    · rw [reportingUncaptured_of_unmapped fails]
      exact ⟨fallback, rfl⟩
  refuses := False.elim

end Careful

/-- A run that always succeeds is careful. -/
theorem Safe.careful
    {run : Traced α}
    (safe : run.Safe memory False) :
    run.Careful memory :=
  ⟨safe.regular, Or.inl (safe.succeeds not_false)⟩

end VideoCore.Traced
