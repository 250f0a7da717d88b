import Mathlib.Data.Finset.Card
import Mathlib.Logic.Function.Iterate
import VideoCore.Proofs.Area.Index
import VideoCore.Proofs.Area.Sweep

namespace VideoCore

/-!
# Iteration over a growing registry

An iteration yields the areas of a registry one by one, and whoever is given
them may ask for more between any two of them.  It is described here step by
step: what has been yielded is always a beginning of what is registered, and all
of it when the iteration ends (`Iteration.isComplete`).  A sweep is an iteration
whose visits do the asking (`Iteration.run_eq_of_ended`).
-/

/--
An iteration over a registry, with all that is done to the registry meanwhile.
-/
structure Iteration where
  state : RequestState
  /-- The position of the area that is yielded next. -/
  position : Nat
  yielded : List Area
  ended : Bool

namespace Iteration

/-- An iteration that has yielded nothing yet. -/
def start (state : RequestState) : Iteration :=
  ⟨state, 0, [], false⟩

/-- What is registered at the moment. -/
def registry (iteration : Iteration) : Registry :=
  iteration.state.registry.areas

/-- How far the iteration has come in what is registered at the moment. -/
def sweep (iteration : Iteration) : Sweep :=
  ⟨iteration.registry, iteration.position⟩

/-- Yield the next area, or end if there is none; what has ended stays so. -/
def resume (iteration : Iteration) : Iteration :=
  if iteration.ended then
    iteration
  else
    match iteration.sweep.next? with
    | some area =>
        { iteration with
          position := iteration.position + 1
          yielded := iteration.yielded ++ [area] }
    | none => { iteration with ended := true }

/-- What can happen while an iteration is in progress. -/
inductive Step
  | resume
  /-- An area is asked for, with success or without. -/
  | request (request : AreaRequest)

def perform
    (memory : Memory)
    (iteration : Iteration) :
    Step → Iteration
  | .resume => iteration.resume
  | .request request =>
      { iteration with state := (iteration.state.answer memory request).2 }

def performAll
    (memory : Memory)
    (iteration : Iteration)
    (steps : List Step) :
    Iteration :=
  steps.foldl (perform memory) iteration

/--
What the body of a loop asks for, given what has been yielded so far, which is
different in each pass.
-/
abbrev Body :=
  List Area → List AreaRequest

/-- One pass of a loop: the next area and, unless that was the end, the body. -/
def pass
    (memory : Memory)
    (body : Body)
    (iteration : Iteration) :
    Iteration :=
  let resumed := iteration.resume
  if resumed.ended then
    resumed
  else
    resumed.performAll memory
      ((body resumed.yielded).map Step.request)

variable {memory : Memory} {body : Body} {iteration : Iteration}
  {state : RequestState} {area : Area}

/-! ## Single steps -/

theorem resume_of_ended
    (ended : iteration.ended = true) :
    iteration.resume = iteration := by
  rw [resume, if_pos ended]

/-- Resuming yields the next area and moves behind it. -/
theorem resume_of_next
    (running : iteration.ended = false)
    (next : iteration.sweep.next? = some area) :
    iteration.resume =
      { iteration with
        position := iteration.position + 1
        yielded := iteration.yielded ++ [area] } := by
  rw [resume, if_neg (by simp [running]), next]

theorem resume_at_end
    (running : iteration.ended = false)
    (atEnd : iteration.sweep.next? = none) :
    iteration.resume = { iteration with ended := true } := by
  rw [resume, if_neg (by simp [running]), atEnd]

/-- Requests reach the registry only. -/
theorem performAll_requests
    (iteration : Iteration)
    (requests : List AreaRequest) :
    iteration.performAll memory (requests.map Step.request) =
      { iteration with
        state := iteration.state.answerAll memory requests } := by
  induction requests generalizing iteration with
  | nil =>
      rfl
  | cons request rest inductionHypothesis =>
      exact inductionHypothesis (iteration.perform memory (.request request))

/-- A pass is made of steps. -/
theorem exists_steps_of_pass
    (memory : Memory)
    (body : Body)
    (iteration : Iteration) :
    ∃ steps,
      iteration.pass memory body = iteration.performAll memory steps := by
  rw [pass]
  split
  · exact ⟨[.resume], rfl⟩
  · exact ⟨.resume :: (body iteration.resume.yielded).map Step.request, rfl⟩

theorem pass_of_ended
    (ended : iteration.ended = true) :
    iteration.pass memory body = iteration := by
  rw [pass, resume_of_ended ended]
  exact if_pos ended

/-! ## What holds at any time -/

/--
Whether an iteration is as it should be at any time: it has yielded what stands
before its position, in a registry that is in order.
-/
structure IsRegular
    (memory : Memory)
    (iteration : Iteration) : Prop where
  kept : RequestState.IsKept memory iteration.state.registry
  yielded_eq : iteration.yielded = iteration.sweep.visited
  inside : iteration.position ≤ iteration.registry.length

theorem isRegular_start
    (kept : RequestState.IsKept memory state.registry) :
    IsRegular memory (start state) :=
  ⟨kept, rfl, Nat.zero_le _⟩

namespace IsRegular

variable (regular : iteration.IsRegular memory)

include regular

/-- The areas that were yielded are the first ones of the registry. -/
theorem yielded_isPrefix : iteration.yielded <+: iteration.registry := by
  rw [regular.yielded_eq]
  exact List.take_prefix _ _

theorem nodup_yielded : iteration.yielded.Nodup :=
  regular.kept.inStep.nodup.sublist regular.yielded_isPrefix.sublist

/-- With nothing next, all of the registry was yielded. -/
theorem yielded_eq_registry
    (atEnd : iteration.sweep.next? = none) :
    iteration.yielded = iteration.registry := by
  rw [regular.yielded_eq]
  exact List.take_of_length_le (Sweep.next?_eq_none_iff.mp atEnd)

/-- An iteration that ends on being resumed has yielded everything. -/
theorem yielded_resume
    (running : iteration.ended = false)
    (ended : iteration.resume.ended = true) :
    iteration.resume.yielded = iteration.resume.registry := by
  cases next : iteration.sweep.next? with
  | none =>
      rw [resume_at_end running next]
      exact regular.yielded_eq_registry next
  | some area =>
      rw [resume_of_next running next] at ended
      exact absurd (running.symm.trans ended) Bool.false_ne_true

theorem length_le_card
    {areas : Finset Area}
    (bounded : ∀ area ∈ iteration.registry, area ∈ areas) :
    iteration.registry.length ≤ areas.card := by
  have unique : iteration.registry.Nodup := regular.kept.inStep.nodup
  rw [← List.toFinset_card_of_nodup unique]
  apply Finset.card_le_card
  intro area member
  exact bounded area (List.mem_toFinset.mp member)

theorem isRegular_resume : iteration.resume.IsRegular memory := by
  cases ended : iteration.ended with
  | true =>
      rwa [resume_of_ended ended]
  | false =>
      cases next : iteration.sweep.next? with
      | none =>
          rw [resume_at_end ended next]
          exact ⟨regular.kept, regular.yielded_eq, regular.inside⟩
      | some area =>
          rw [resume_of_next ended next]
          refine ⟨regular.kept, ?_, (List.getElem?_eq_some_iff.mp next).1⟩
          rw [regular.yielded_eq]
          exact (Sweep.visited_of_next next).symm

/-- Requests add to the registry behind everything that has been yielded. -/
theorem isRegular_request
    (request : AreaRequest) :
    (iteration.perform memory (.request request)).IsRegular memory := by
  have grown :
      iteration.state.registry.areas <+:
        (iteration.state.answer memory request).2.registry.areas := by
    rw [RequestState.areas_answer memory regular.kept.inStep]
    exact Registry.addAll_prefix
  refine
    ⟨RequestState.isKept_answer regular.kept request, ?_,
      regular.inside.trans grown.length_le⟩
  exact regular.yielded_eq.trans
    (Sweep.visited_of_grown grown regular.inside).symm

/-- Steps in any order keep an iteration regular. -/
theorem isRegular_performAll
    (steps : List Step) :
    (iteration.performAll memory steps).IsRegular memory := by
  induction steps generalizing iteration with
  | nil =>
      exact regular
  | cons step rest inductionHypothesis =>
      cases step with
      | resume =>
          exact inductionHypothesis regular.isRegular_resume
      | request request =>
          exact inductionHypothesis (regular.isRegular_request request)

theorem isRegular_pass
    (body : Body) :
    (iteration.pass memory body).IsRegular memory := by
  obtain ⟨steps, isPerformed⟩ := exists_steps_of_pass memory body iteration
  rw [isPerformed]
  exact regular.isRegular_performAll steps

/-- Passes of the loop keep an iteration regular. -/
theorem isRegular_passes
    (body : Body)
    (count : Nat) :
    ((pass memory body)^[count] iteration).IsRegular memory := by
  induction count with
  | zero =>
      exact regular
  | succ count inductionHypothesis =>
      rw [Function.iterate_succ_apply']
      exact inductionHypothesis.isRegular_pass body

end IsRegular

/-! ## Loops -/

namespace IsRegular

variable (regular : iteration.IsRegular memory)
  (running : iteration.ended = false)

include regular running

/-- A pass does what a sweep does with a visit, or finds nothing left. -/
theorem pass_cases
    (body : Body) :
    (∃ area,
      iteration.sweep.next? = some area ∧
        (iteration.pass memory body).ended = false ∧
        (iteration.pass memory body).yielded =
          iteration.yielded ++ [area] ∧
        (iteration.pass memory body).sweep =
          iteration.sweep.advance
            (RequestState.granted memory
              (body (iteration.yielded ++ [area])))) ∨
      iteration.sweep.next? = none ∧
        iteration.pass memory body = { iteration with ended := true } := by
  cases next : iteration.sweep.next? with
  | none =>
      right
      rw [pass, resume_at_end running next]
      exact ⟨rfl, rfl⟩
  | some area =>
      left
      obtain ⟨_, areas⟩ :=
        RequestState.answerAll_spec regular.kept
          (body (iteration.yielded ++ [area]))
      rw [RequestState.requests_eq_granted] at areas
      refine ⟨area, rfl, ?_⟩
      rw [pass, resume_of_next running next]
      dsimp only
      rw [if_neg (by simp [running]), performAll_requests]
      exact ⟨running, rfl, congrArg (Sweep.mk · _) areas⟩

/-- Every pass goes one position further, until one finds nothing left. -/
theorem passes_cases
    (body : Body)
    (count : Nat) :
    ((pass memory body)^[count] iteration).ended = false ∧
        ((pass memory body)^[count] iteration).position =
          iteration.position + count ∨
      ((pass memory body)^[count] iteration).ended = true ∧
        ((pass memory body)^[count] iteration).sweep.next? = none := by
  -- A pass of a running loop takes the next position; what has ended stays so.
  induction count with
  | zero =>
      exact Or.inl ⟨running, rfl⟩
  | succ count inductionHypothesis =>
      rw [Function.iterate_succ_apply']
      rcases inductionHypothesis with ⟨stillRunning, place⟩ | ⟨ended, atEnd⟩
      · rcases (regular.isRegular_passes body count).pass_cases
            stillRunning body with
          ⟨area, _, later, _, advanced⟩ | ⟨atEnd, isLast⟩
        · left
          have further := congrArg Sweep.position advanced
          exact ⟨later, further.trans (congrArg (· + 1) place)⟩
        · right
          rw [isLast]
          exact ⟨rfl, atEnd⟩
      · right
        rw [pass_of_ended ended]
        exact ⟨ended, atEnd⟩

/-- A loop that has ended was given everything that is registered. -/
theorem yielded_eq_of_ended
    {count : Nat}
    (ended : ((pass memory body)^[count] iteration).ended = true) :
    ((pass memory body)^[count] iteration).yielded =
      ((pass memory body)^[count] iteration).registry := by
  rcases regular.passes_cases running body count with
    ⟨stillRunning, _⟩ | ⟨_, atEnd⟩
  · rw [stillRunning] at ended
    contradiction
  · exact (regular.isRegular_passes body count).yielded_eq_registry atEnd

/-- What a loop registers has been asked for in its body. -/
theorem forall_mem_registry_passes
    {allowed : Area → Prop}
    (before : ∀ area ∈ iteration.registry, allowed area)
    (asked :
      ∀ yielded,
        ∀ area ∈ RequestState.granted memory (body yielded),
          allowed area)
    (count : Nat) :
    ∀ area ∈ ((pass memory body)^[count] iteration).registry,
      allowed area := by
  induction count generalizing iteration with
  | zero =>
      exact before
  | succ count inductionHypothesis =>
      rw [Function.iterate_succ_apply]
      rcases regular.pass_cases running body with
        ⟨area, _, stillRunning, _, advanced⟩ | ⟨_, isLast⟩
      · apply inductionHypothesis (regular.isRegular_pass body) stillRunning
        intro candidate member
        change candidate ∈ (iteration.pass memory body).sweep.registry at member
        rw [advanced] at member
        rcases Registry.mem_addAll.mp member with known | requested
        · exact before candidate known
        · exact asked _ candidate requested
      · rw [isLast, Function.iterate_fixed (pass_of_ended rfl)]
        exact before

/-- A loop ends if there are not enough areas for it to go on. -/
theorem ended_of_bounded
    {limit : Nat}
    (bounded :
      ((pass memory body)^[limit + 1] iteration).registry.length ≤
        limit) :
    ((pass memory body)^[limit + 1] iteration).ended = true := by
  rcases regular.passes_cases running body (limit + 1) with
    ⟨_, place⟩ | ⟨ended, _⟩
  · have inside := (regular.isRegular_passes body (limit + 1)).inside
    omega
  · exact ended

end IsRegular

/-! ## Sweeps -/

/--
Whether visits to the areas that a loop comes to succeed, and request what its
body asks for.
-/
def IsBodyOf
    (memory : Memory)
    (visit : Area → Traced Unit)
    (body : Body)
    (iteration : Iteration) :
    Prop :=
  ∀ count area,
    let now := (pass memory body)^[count] iteration
    now.sweep.next? = some area →
    (visit area).outcome = .ok () ∧
      RequestState.granted memory (body (now.yielded ++ [area])) =
        Event.requests (visit area).events

variable {visit : Area → Traced Unit}

namespace IsBodyOf

variable (isBody : iteration.IsBodyOf memory visit body)

include isBody

theorem of_next
    (next : iteration.sweep.next? = some area) :
    (visit area).outcome = .ok () ∧
      RequestState.granted memory (body (iteration.yielded ++ [area])) =
        Event.requests (visit area).events :=
  isBody 0 area next

/-- A body that stands for a visit does so after a pass as well. -/
theorem isBodyOf_pass :
    (iteration.pass memory body).IsBodyOf memory visit body :=
  fun count => isBody (count + 1)

end IsBodyOf

/-- Passes of the loop visit the areas that they yield, one after the other. -/
theorem IsRegular.exists_visits
    (regular : iteration.IsRegular memory)
    (running : iteration.ended = false)
    (isBody : iteration.IsBodyOf memory visit body)
    (count : Nat) :
    ∃ areas,
      ((pass memory body)^[count] iteration).yielded =
          iteration.yielded ++ areas ∧
        Sweep.Visits visit iteration.sweep areas
          ((pass memory body)^[count] iteration).sweep := by
  induction count generalizing iteration with
  | zero =>
      exact ⟨[], (List.append_nil _).symm, .nil _⟩
  | succ count inductionHypothesis =>
      rw [Function.iterate_succ_apply]
      rcases regular.pass_cases running body with
        ⟨area, next, stillRunning, yielded, advanced⟩ | ⟨_, isLast⟩
      · obtain ⟨succeeds, requests⟩ := isBody.of_next next
        obtain ⟨areas, later, visits⟩ :=
          inductionHypothesis (regular.isRegular_pass body) stillRunning
            isBody.isBodyOf_pass
        rw [advanced, requests] at visits
        refine ⟨area :: areas, ?_, .cons next succeeds visits⟩
        rw [later, yielded, List.append_assoc]
        rfl
      · rw [isLast, Function.iterate_fixed (pass_of_ended rfl)]
        exact ⟨[], (List.append_nil _).symm, .nil _⟩

/-- A loop that ends is what a sweep does whose visits do the same. -/
theorem run_eq_of_ended
    (kept : RequestState.IsKept memory state.registry)
    (isBody : (start state).IsBodyOf memory visit body)
    {count limit : Nat}
    (ended : ((pass memory body)^[count] (start state)).ended = true)
    (enough :
      ((pass memory body)^[count] (start state)).registry.length ≤
        limit) :
    (Sweep.ofRegistry state.registry.areas).run visit limit =
      ⟨Sweep.eventsOf visit
          ((pass memory body)^[count] (start state)).yielded,
        .ok ((pass memory body)^[count] (start state)).sweep⟩ := by
  have regular := isRegular_start kept
  obtain ⟨areas, yielded, visits⟩ :=
    regular.exists_visits rfl isBody count
  rcases regular.passes_cases rfl body count with
    ⟨stillRunning, _⟩ | ⟨_, atEnd⟩
  · rw [stillRunning] at ended
    contradiction
  · rw [yielded]
    exact Sweep.Completes.run_eq (.finished visits atEnd) (Nat.zero_le _)
      (enough.trans (Nat.le_add_left _ _))

/-! ## Completeness -/

/--
Whatever is asked for between any two of them, an iteration yields the areas of
the registry in their order, each of them once, and ends when it has yielded all
that is registered.  A loop that has ended was given the whole registry; and it
does end, after at most one pass more than there are areas in a finite set, if
that set holds all that is ever registered.
-/
theorem isComplete
    (memory : Memory)
    (earlier : List AreaRequest) :
    let first := start (RequestState.empty.answerAll memory earlier)
    (∀ steps,
      let now := first.performAll memory steps
      now.yielded <+: now.registry ∧
        now.yielded.Nodup ∧
        (now.ended = false →
          now.resume.ended = true →
          now.resume.yielded = now.resume.registry)) ∧
      ∀ body : Body,
        (∀ count,
          ((pass memory body)^[count] first).ended = true →
          ((pass memory body)^[count] first).yielded =
            ((pass memory body)^[count] first).registry) ∧
        ∀ areas : Finset Area,
          (∀ count,
            ∀ area ∈ ((pass memory body)^[count] first).registry,
              area ∈ areas) →
          ((pass memory body)^[areas.card + 1] first).ended = true := by
  intro first
  obtain ⟨kept, _⟩ :=
    RequestState.answerAll_spec (RequestState.isKept_empty memory) earlier
  have regular : first.IsRegular memory := isRegular_start kept
  refine
    ⟨fun steps => ?_, fun body => ⟨fun count => ?_, fun areas finite => ?_⟩⟩
  · have regularNow := regular.isRegular_performAll steps
    exact ⟨regularNow.yielded_isPrefix, regularNow.nodup_yielded,
      regularNow.yielded_resume⟩
  · exact regular.yielded_eq_of_ended rfl
  · exact regular.ended_of_bounded rfl
      ((regular.isRegular_passes body _).length_le_card (finite _))

/-- A loop that asks in its first pass for something new, known and unmapped. -/
def curiousBody : Body
  | [_] => [.subList 0x1010 0xff, .subList 0x1000 0xff, .subList 0 0xff]
  | _ => [.subList 0x1000 0xff]

/-- A loop that keeps asking for what is known comes to an end. -/
theorem isComplete_curious :
    let memory : Memory := [⟨1, 0x1000, Array.replicate 0x20 0, some 0⟩]
    let first :=
      start (RequestState.empty.answerAll memory [.subList 0x1000 0xff])
    let last := (pass memory curiousBody)^[3] first
    last.ended = true ∧ last.yielded = last.registry := by
  intro memory first last
  let known : Area := ⟨.subList, 0x1000, 0x20, 0xff, 0, false⟩
  let new : Area := ⟨.subList, 0x1010, 0x10, 0xff, 0, false⟩
  obtain ⟨kept, areas⟩ :=
    RequestState.answerAll_spec (RequestState.isKept_empty memory)
      [.subList 0x1000 0xff]
  have registered : first.registry = _ := areas
  have before :
      ∀ area ∈ first.registry, area ∈ ({known, new} : Finset Area) := by
    rw [registered]
    decide
  have asked :
      ∀ yielded,
        ∀ area ∈ RequestState.granted memory (curiousBody yielded),
          area ∈ ({known, new} : Finset Area) := by
    intro yielded
    unfold curiousBody
    split <;> decide
  obtain ⟨_, loops⟩ := isComplete memory [.subList 0x1000 0xff]
  obtain ⟨complete, ends⟩ := loops curiousBody
  have ended : last.ended = true :=
    ends {known, new}
      ((isRegular_start kept).forall_mem_registry_passes rfl before asked)
  exact ⟨ended, complete 3 ended⟩

end Iteration

end VideoCore
