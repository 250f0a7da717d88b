import VideoCore.Area.Sweep
import VideoCore.Proofs.Area.Registry
import VideoCore.Proofs.Report.Traced

namespace VideoCore.Sweep

/-!
# Sweeps without a limit

A sweep goes from area to area until nothing is left or a visit fails.  This is
described here without a limit on the number of visits.  The limited sweep does
the same (`run_completes`) if the registries on the way stay below the limit.
-/

variable {visit : Area → Traced Unit}

/-- The events of visits to some areas, one after the other. -/
def eventsOf
    (visit : Area → Traced Unit)
    (areas : List Area) : List Event :=
  areas.flatMap fun area => (visit area).events

/-- A sweep visits some areas, with success, and goes on to another state. -/
inductive Visits (visit : Area → Traced Unit) :
    Sweep → List Area → Sweep → Prop where
  | nil (sweep : Sweep) :
      Visits visit sweep [] sweep
  | cons
      {sweep final : Sweep}
      {area : Area}
      {rest : List Area}
      (next : sweep.next? = some area)
      (succeeds : (visit area).outcome = .ok ())
      (later :
        Visits visit
          (sweep.advance (Event.requests (visit area).events))
          rest final) :
      Visits visit sweep (area :: rest) final

/-- A sweep visits some areas and ends there, by itself. -/
inductive Completes
    (visit : Area → Traced Unit)
    (sweep : Sweep)
    (areas : List Area)
    (final : Sweep) : Traced Sweep → Prop where
  /-- Nothing is left. -/
  | finished
      (visits : Visits visit sweep areas final)
      (atEnd : final.next? = none) :
      Completes visit sweep areas final
        ⟨eventsOf visit areas, .ok final⟩
  /-- The next visit fails. -/
  | failed
      {area : Area}
      {fault : Fault}
      (visits : Visits visit sweep areas final)
      (next : final.next? = some area)
      (fails : (visit area).outcome = .error fault) :
      Completes visit sweep areas final
        ⟨eventsOf visit areas ++ (visit area).events, .error fault⟩

/-- A sweep that ends has visited some areas before. -/
theorem Completes.visits
    {sweep final : Sweep}
    {areas : List Area}
    {result : Traced Sweep}
    (completes : Completes visit sweep areas final result) :
    Visits visit sweep areas final := by
  cases completes with
  | finished visits atEnd => exact visits
  | failed visits next fails => exact visits

/-- A sweep has a next area as long as it is inside its registry. -/
theorem next?_eq_none_iff
    {sweep : Sweep} :
    sweep.next? = none ↔ sweep.registry.length ≤ sweep.position := by
  simp [next?]

/-- What is registered behind the position does not count as visited. -/
theorem visited_of_grown
    {registry later : Registry}
    {position : Nat}
    (grown : registry <+: later)
    (inside : position ≤ registry.length) :
    visited ⟨later, position⟩ = visited ⟨registry, position⟩ := by
  obtain ⟨added, rfl⟩ := grown
  exact List.take_append_of_le_length inside

theorem visited_of_next
    {sweep : Sweep}
    {area : Area}
    (next : sweep.next? = some area) :
    visited ⟨sweep.registry, sweep.position + 1⟩ =
      sweep.visited ++ [area] := by
  obtain ⟨before, isArea⟩ := List.getElem?_eq_some_iff.mp next
  rw [visited, List.take_succ_eq_append_getElem before, isArea]
  rfl

namespace Visits

variable {sweep final : Sweep} {areas : List Area}

theorem position_eq
    (visits : Visits visit sweep areas final) :
    final.position = sweep.position + areas.length := by
  induction visits with
  | nil sweep =>
      rfl
  | cons next succeeds later inductionHypothesis =>
      rw [inductionHypothesis, List.length_cons]
      simp only [advance]
      omega

/-- The registry grows by what the visits request. -/
theorem registry_eq
    (visits : Visits visit sweep areas final) :
    final.registry =
      sweep.registry.addAll
        (Event.requests (eventsOf visit areas)) := by
  induction visits with
  | nil sweep =>
      rfl
  | cons next succeeds later inductionHypothesis =>
      rw [inductionHypothesis]
      simp [advance, eventsOf]

/-- Visits only add areas behind those that are known. -/
theorem registry_prefix
    (visits : Visits visit sweep areas final) :
    sweep.registry <+: final.registry := by
  rw [visits.registry_eq]
  exact Registry.addAll_prefix

/-- Visits stay inside the registry. -/
theorem position_le
    (visits : Visits visit sweep areas final)
    (inside : sweep.position ≤ sweep.registry.length) :
    final.position ≤ final.registry.length := by
  induction visits with
  | nil sweep =>
      exact inside
  | @cons sweep final area rest next succeeds later inductionHypothesis =>
      apply inductionHypothesis
      have before : sweep.position < sweep.registry.length :=
        (List.getElem?_eq_some_iff.mp next).1
      have grows :
          sweep.registry.length ≤
            (sweep.registry.addAll
              (Event.requests (visit area).events)).length :=
        Registry.addAll_prefix.length_le
      simp only [advance]
      omega

/-- What has been visited is what was visited before and the visits. -/
theorem visited_eq
    (visits : Visits visit sweep areas final) :
    final.visited = sweep.visited ++ areas := by
  induction visits with
  | nil sweep =>
      simp
  | @cons sweep final area rest next succeeds later inductionHypothesis =>
      have before : sweep.position + 1 ≤ sweep.registry.length :=
        (List.getElem?_eq_some_iff.mp next).1
      have advanced :
          (sweep.advance
            (Event.requests (visit area).events)).visited =
            sweep.visited ++ [area] :=
        (visited_of_grown Registry.addAll_prefix before).trans
          (visited_of_next next)
      rw [inductionHypothesis, advanced, List.append_assoc]
      rfl

/-- Properties of areas that requests hand on hold throughout the registry. -/
theorem forall_mem_registry
    {allowed : Area → Prop}
    (visits : Visits visit sweep areas final)
    (start : ∀ area ∈ sweep.registry, allowed area)
    (handedOn :
      ∀ area,
        allowed area →
        ∀ requested ∈ Event.requests (visit area).events,
          allowed requested) :
    ∀ area ∈ final.registry, allowed area := by
  induction visits with
  | nil sweep =>
      exact start
  | @cons sweep final area rest next succeeds later inductionHypothesis =>
      apply inductionHypothesis
      intro candidate member
      rcases Registry.mem_addAll.mp member with known | requested
      · exact start candidate known
      · exact handedOn area
          (start area (List.mem_of_getElem? next))
          candidate requested

theorem nodup_registry
    (visits : Visits visit sweep areas final)
    (unique : sweep.registry.Nodup) :
    final.registry.Nodup := by
  rw [visits.registry_eq]
  exact Registry.nodup_addAll unique

/-- Every visited area was next at some time, and its visit succeeded. -/
theorem succeeds_of_mem
    (visits : Visits visit sweep areas final)
    {area : Area}
    (member : area ∈ areas) :
    (visit area).outcome = .ok () := by
  induction visits with
  | nil sweep =>
      exact absurd member List.not_mem_nil
  | cons next succeeds later inductionHypothesis =>
      rcases List.mem_cons.mp member with isFirst | inRest
      · exact isFirst ▸ succeeds
      · exact inductionHypothesis inRest

end Visits

/-- A sweep with nothing left does nothing, whatever its limit. -/
theorem run_of_next?_eq_none
    {sweep : Sweep}
    (atEnd : sweep.next? = none)
    (limit : Nat) :
    run visit limit sweep = ⟨[], .ok sweep⟩ := by
  cases limit with
  | zero =>
      rfl
  | succ limit =>
      rw [run, atEnd]
      rfl

/-- A run fails with the visit of its next area. -/
theorem run_of_fails
    {sweep : Sweep}
    {area : Area}
    {fault : Fault}
    (next : sweep.next? = some area)
    (fails : (visit area).outcome = .error fault)
    (limit : Nat) :
    run visit (limit + 1) sweep =
      ⟨(visit area).events, .error fault⟩ := by
  rw [run, next]
  exact Traced.bind_of_error fails _

/-- A run goes on behind a visit that succeeds. -/
theorem run_of_succeeds
    {sweep : Sweep}
    {area : Area}
    (next : sweep.next? = some area)
    (succeeds : (visit area).outcome = .ok ())
    (limit : Nat) :
    run visit (limit + 1) sweep =
      ⟨(visit area).events ++
          (run visit limit
            (sweep.advance
              (Event.requests (visit area).events))).events,
        (run visit limit
          (sweep.advance
            (Event.requests (visit area).events))).outcome⟩ := by
  rw [run, next]
  exact Traced.bind_of_ok succeeds _

/--
The limit of a sweep makes no difference if no registry that the sweep reaches
has more areas than there are visits up to the limit.
-/
theorem run_completes
    {sweep : Sweep}
    {limit : Nat}
    (bounded :
      ∀ {areas final},
        Visits visit sweep areas final →
        final.registry.length ≤ sweep.position + limit) :
    ∃ areas final,
      Completes visit sweep areas final (run visit limit sweep) := by
  induction limit generalizing sweep with
  | zero =>
      have atEnd : sweep.next? = none :=
        next?_eq_none_iff.mpr (bounded (.nil sweep))
      rw [run_of_next?_eq_none atEnd]
      exact ⟨[], sweep, .finished (.nil sweep) atEnd⟩
  | succ limit inductionHypothesis =>
      cases next : sweep.next? with
      | none =>
          rw [run_of_next?_eq_none next]
          exact ⟨[], sweep, .finished (.nil sweep) next⟩
      | some area =>
          cases ended : (visit area).outcome with
          | error fault =>
              rw [run_of_fails next ended]
              exact ⟨[], sweep, .failed (.nil sweep) next ended⟩
          | ok _ =>
              -- A visit uses up one of the limit and one place of the registry.
              let advanced :=
                sweep.advance (Event.requests (visit area).events)
              have advancedBounded :
                  ∀ {areas final},
                    Visits visit advanced areas final →
                    final.registry.length ≤
                      advanced.position + limit := by
                intro areas final visits
                have bound := bounded (.cons next ended visits)
                simp only [advanced, advance]
                omega
              obtain ⟨areas, final, completes⟩ :=
                inductionHypothesis advancedBounded
              refine ⟨area :: areas, final, ?_⟩
              rw [run_of_succeeds next ended]
              generalize run visit limit _ = rest at completes
              cases completes with
              | finished visits atEnd =>
                  exact .finished (.cons next ended visits) atEnd
              | failed visits finalNext fails =>
                  rw [← List.append_assoc]
                  exact .failed (.cons next ended visits) finalNext fails

/--
A sweep whose visits are known has their events, and goes on where they end.
-/
theorem Visits.run_eq
    {sweep final : Sweep}
    {areas : List Area}
    (visits : Visits visit sweep areas final)
    (limit : Nat) :
    run visit (areas.length + limit) sweep =
      ⟨eventsOf visit areas ++ (run visit limit final).events,
        (run visit limit final).outcome⟩ := by
  induction visits with
  | nil sweep =>
      simp [eventsOf]
  | @cons sweep final area rest next succeeds later inductionHypothesis =>
      have oneMore :
          (area :: rest).length + limit = rest.length + limit + 1 := by
        rw [List.length_cons]
        omega
      rw [oneMore, run_of_succeeds next succeeds, inductionHypothesis]
      simp [eventsOf]

/-- A sweep ends in one way only, if its limit allows for the final registry. -/
theorem Completes.run_eq
    {sweep final : Sweep}
    {areas : List Area}
    {result : Traced Sweep}
    (completes : Completes visit sweep areas final result)
    (inside : sweep.position ≤ sweep.registry.length)
    {limit : Nat}
    (enough : final.registry.length ≤ sweep.position + limit) :
    run visit limit sweep = result := by
  -- The visits never outnumber the registry, so the limit is not reached.
  cases completes with
  | finished visits atEnd =>
      have last := visits.position_le inside
      have place := visits.position_eq
      obtain ⟨left, rfl⟩ :
          ∃ left, limit = areas.length + left :=
        ⟨limit - areas.length, by omega⟩
      rw [visits.run_eq, run_of_next?_eq_none atEnd]
      simp
  | failed visits next fails =>
      have last := (List.getElem?_eq_some_iff.mp next).1
      have place := visits.position_eq
      obtain ⟨left, rfl⟩ :
          ∃ left, limit = areas.length + (left + 1) :=
        ⟨limit - areas.length - 1, by omega⟩
      rw [visits.run_eq, run_of_fails next fails]

end VideoCore.Sweep
