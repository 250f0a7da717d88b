import VideoCore.Area.Index
import VideoCore.Proofs.Area.Registry
import VideoCore.Proofs.Area.Request

namespace VideoCore

/-!
# Registries with an index

The list of a registry and its index stay in step, whatever is asked for in
whatever order (`RequestState.answerAll_isOrderly`).  The list is the one that
requests without an index lead to.
-/

namespace IndexedRegistry

/-- Whether the index holds the position of every area, and nothing else. -/
def IsInStep (registry : IndexedRegistry) : Prop :=
  ∀ (area : Area) (position : Nat),
    registry.index[area]? = some position ↔
      registry.areas[position]? = some area

theorem isInStep_empty : empty.IsInStep := by
  intro area position
  simp [empty]

/-- An added area stands behind the others, which stay where they are. -/
theorem getElem?_concat_eq_some
    {areas : List Area}
    {last area : Area}
    {position : Nat} :
    (areas ++ [last])[position]? = some area ↔
      areas[position]? = some area ∨
        position = areas.length ∧ last = area := by
  rcases Nat.lt_trichotomy position areas.length with
    inside | rfl | behind
  · rw [List.getElem?_append_left inside]
    constructor
    · exact Or.inl
    · rintro (held | ⟨rfl, _⟩)
      · exact held
      · exact absurd inside (Nat.lt_irrefl _)
  · simp
  · have before := List.getElem?_eq_none (Nat.le_of_lt behind)
    have after : (areas ++ [last])[position]? = none :=
      List.getElem?_eq_none (by rw [List.length_append]; exact behind)
    simp [before, after, Nat.ne_of_gt behind]

/-- What entering an area into a registry gives. -/
def enter
    (registry : IndexedRegistry)
    (area : Area) : Nat × IndexedRegistry :=
  match registry.index[area]? with
  | some position => (position, registry)
  | none =>
      (registry.areas.length,
        ⟨registry.areas ++ [area],
          registry.index.insert area registry.areas.length⟩)

/--
Whether an area has been entered at a position, where it may have been before.
-/
structure Enters
    (before : IndexedRegistry)
    (area : Area)
    (position : Nat)
    (after : IndexedRegistry) :
    Prop where
  held : after.areas[position]? = some area
  known : area ∈ before.areas → after = before
  new : area ∉ before.areas → after.areas = before.areas ++ [area]

variable {registry before after : IndexedRegistry} {area : Area}

namespace IsInStep

variable (inStep : registry.IsInStep)

include inStep

theorem mem_iff :
    area ∈ registry.areas ↔
      ∃ position, registry.index[area]? = some position := by
  rw [List.mem_iff_getElem?]
  exact exists_congr fun position => (inStep area position).symm

/-- Asking the index is asking the list. -/
theorem contains_iff :
    registry.contains area = true ↔ area ∈ registry.areas := by
  rw [contains, Std.HashMap.contains_eq_isSome_getElem?,
    Option.isSome_iff_exists]
  exact inStep.mem_iff.symm

/-- No area is at two positions, since the index has only one. -/
theorem nodup : registry.areas.Nodup := by
  rw [List.nodup_iff_getElem?_ne_getElem?]
  intro first second less inside same
  have isSecond := List.getElem?_eq_getElem inside
  have atFirst := (inStep _ first).mpr (same.trans isSecond)
  have atSecond := (inStep _ second).mpr isSecond
  rw [atFirst] at atSecond
  exact Nat.ne_of_lt less (Option.some.inj atSecond)

/-- The index holds what a search through the list would find. -/
theorem index_eq
    (area : Area) :
    registry.index[area]? = registry.areas.position? area := by
  rw [Registry.position?]
  cases found : registry.index[area]? with
  | none =>
      rw [eq_comm, List.findIdx?_eq_none_iff]
      intro candidate member
      rw [beq_eq_false_iff_ne]
      rintro rfl
      obtain ⟨position, held⟩ := inStep.mem_iff.mp member
      rw [found] at held
      contradiction
  | some position =>
      have held := (inStep area position).mp found
      obtain ⟨inside, isArea⟩ := List.getElem?_eq_some_iff.mp held
      rw [eq_comm, List.findIdx?_eq_some_iff_getElem]
      refine ⟨inside, beq_iff_eq.mpr isArea, fun earlier less same => ?_⟩
      have isEarlier :
          registry.areas[earlier]? = some area :=
        List.getElem?_eq_some_iff.mpr ⟨_, beq_iff_eq.mp same⟩
      rw [(inStep area earlier).mpr isEarlier] at found
      exact Nat.ne_of_lt less (Option.some.inj found)

/-- Entering an area gives the position that it has from then on. -/
theorem enters
    (area : Area) :
    registry.Enters area (registry.enter area).1
      (registry.enter area).2 := by
  rw [enter]
  cases found : registry.index[area]? with
  | some position =>
      have held := (inStep area position).mp found
      have known : area ∈ registry.areas := List.mem_of_getElem? held
      exact ⟨held, fun _ => rfl, fun new => absurd known new⟩
  | none =>
      refine ⟨List.getElem?_concat_length, fun known => ?_, fun _ => rfl⟩
      obtain ⟨position, isHeld⟩ := inStep.mem_iff.mp known
      rw [found] at isHeld
      contradiction

/-- A new area takes the first free position, in the list and in the index. -/
theorem isInStep_enter
    (area : Area) :
    (registry.enter area).2.IsInStep := by
  rw [enter]
  cases found : registry.index[area]? with
  | some position =>
      exact inStep
  | none =>
      intro candidate position
      dsimp only
      rw [Std.HashMap.getElem?_insert, getElem?_concat_eq_some]
      -- The new area has the new position only, all others their old one.
      by_cases same : area = candidate
      · subst same
        have unknown : registry.areas[position]? ≠ some area := by
          intro held
          rw [(inStep area position).mpr held] at found
          contradiction
        rw [if_pos (beq_self_eq_true area), Option.some.injEq]
        constructor
        · rintro rfl
          exact Or.inr ⟨rfl, rfl⟩
        · rintro (held | ⟨isLast, _⟩)
          · exact absurd held unknown
          · exact isLast.symm
      · rw [if_neg (by simpa using same), inStep candidate position]
        constructor
        · exact Or.inl
        · rintro (held | ⟨_, isArea⟩)
          · exact held
          · exact absurd isArea same

end IsInStep

/-- The list of areas changes as a registry without an index would. -/
theorem Enters.areas_eq
    {position : Nat}
    (enters : before.Enters area position after) :
    after.areas = before.areas.add area := by
  by_cases known : area ∈ before.areas
  · rw [enters.known known, Registry.add_of_mem known]
  · rw [enters.new known, Registry.add_of_not_mem known]

end IndexedRegistry

/-! ## Requests -/

namespace RequestState

/-- The answer to a request that comes down to an area or a refusal. -/
def settle (state : RequestState) :
    Except Fault Area → Except Fault Nat × RequestState
  | .ok area =>
      (.ok (state.registry.enter area).1,
        { state with registry := (state.registry.enter area).2 })
  | .error fault => (.error fault, state)

def listed
    (state : RequestState)
    (entries : List Entry) : RequestState :=
  { state with entries := state.entries ++ entries }

end RequestState

namespace Requesting

variable {memory : Memory} {state : RequestState}

variable {α β : Type}

theorem run_ok_bind
    (value : α)
    (next : α → Requesting β) :
    (((liftM (Except.ok value : Except Fault α) : Requesting α) >>=
        next).run).run state =
      ((next value).run).run state :=
  rfl

theorem run_error_bind
    (fault : Fault)
    (next : α → Requesting β) :
    (((liftM (Except.error fault : Except Fault α) : Requesting α) >>=
        next).run).run state =
      (.error fault, state) :=
  rfl

theorem run_list_bind
    (entry : Entry)
    (next : Unit → Requesting β) :
    ((list entry >>= next).run).run state =
      ((next ()).run).run (state.listed [entry]) :=
  rfl

theorem run_get_bind
    (next : RequestState → Requesting α) :
    (((get : Requesting RequestState) >>= next).run).run state =
      ((next state).run).run state :=
  rfl

theorem run_enter
    (area : Area) :
    ((enter area).run).run state = state.settle (.ok area) := by
  rw [enter, run_get_bind, RequestState.settle, IndexedRegistry.enter]
  dsimp only
  cases state.registry.index[area]? <;> rfl

/-- An area given in full is settled as the memory resolves it. -/
theorem run_addSized
    (number paddr size primMode attributes : Int)
    (extended : Bool) :
    ((addSized memory number paddr size primMode attributes
        extended).run).run state =
      state.settle
        (memory.numberedArea number paddr size primMode attributes
          extended) := by
  rw [addSized, Memory.numberedArea]
  cases AreaType.ofNumber number with
  | error fault =>
      rfl
  | ok type =>
      rw [Outcome.ok_bind, Memory.sizedArea]
      cases memory.regionEnd paddr with
      | error fault =>
          rfl
      | ok limit =>
          exact run_enter _

/-- An area up to the end of its buffer is settled as the memory resolves it. -/
theorem run_addToEnd
    (number paddr primMode attributes : Int)
    (extended : Bool) :
    ((addToEnd memory number paddr primMode attributes
        extended).run).run state =
      state.settle
        (memory.numberedAreaToEnd number paddr primMode attributes
          extended) := by
  rw [addToEnd, Memory.numberedAreaToEnd]
  cases memory.regionEnd paddr with
  | error fault =>
      rfl
  | ok limit =>
      exact run_addSized ..

end Requesting

namespace Memory

variable {memory : Memory}

theorem numberedAreaToEnd_number
    (type : AreaType)
    (paddr primMode : Int) :
    memory.numberedAreaToEnd type.number paddr primMode 0 false =
      memory.areaToEnd type paddr primMode := by
  rw [numberedAreaToEnd, areaToEnd]
  cases resolved : memory.regionEnd paddr with
  | error fault =>
      rfl
  | ok limit =>
      exact numberedArea_eq (AreaType.ofNumber_number type)
        (covers_of_regionEnd resolved) ..

theorem shaderRecordAt_eq
    (paddr attributes : Int)
    (extended : Bool) :
    memory.shaderRecordAt paddr attributes extended =
      (sizeOfShaderRecord attributes extended >>= fun size =>
        memory.numberedArea AreaType.shaderRecord.number paddr size
          unsetPrimMode attributes extended) := by
  rw [shaderRecordAt]
  cases sizeOfShaderRecord attributes extended with
  | error fault =>
      rfl
  | ok size =>
      rw [Outcome.ok_bind, Outcome.ok_bind, numberedArea,
        AreaType.ofNumber_number, Outcome.ok_bind, sizedArea]
      cases memory.regionEnd paddr <;> rfl

end Memory

namespace RequestState

variable {memory : Memory} {state : RequestState}

@[simp] theorem listed_nil : state.listed [] = state := by
  rw [listed, List.append_nil]

/--
What carrying out a request without an index lists and grants is what it does
with one.
-/
def follow
    (state : RequestState)
    (run : Traced Area) : Except Fault Nat × RequestState :=
  (state.listed (Event.entries run.events)).settle run.outcome

theorem follow_grant
    (area : Except Fault Area) :
    state.follow (AreaRequest.grant area) = state.settle area := by
  cases area <;> exact congrArg (settle · _) listed_nil

/-- With an index, a program is requested as it is without one. -/
theorem answer_program
    (type : TypeReference)
    (paddr : Int) :
    state.answer memory (.program type paddr) =
      state.follow ((AreaRequest.program type paddr).carryOut memory) := by
  rw [answer, AreaRequest.enter, Requesting.addProgram]
  cases resolved : memory.regionEnd paddr with
  | error fault =>
      obtain rfl := Memory.eq_unmapped_of_regionEnd resolved
      have missing :
          memory.view paddr none = .error (.unmapped paddr) :=
        Memory.view_of_not_covers
          (Memory.not_covers_of_regionEnd resolved) none
      rw [Requesting.run_error_bind]
      cases type with
      | named type =>
          rw [AreaRequest.carryOut, Shader.programAt_of_error type missing]
          exact congrArg (Prod.mk _) listed_nil.symm
      | numbered number =>
          rw [AreaRequest.carryOut,
            Shader.numberedProgramAt_of_error number missing]
          exact congrArg (Prod.mk _) listed_nil.symm
  | ok limit =>
      -- From here on the address is mapped: only the type can be refused,
      -- and a missing end needs its name.
      obtain ⟨code, shown, _⟩ := Memory.view_of_regionEnd resolved none
      have covered := Memory.covers_of_view shown
      rw [Requesting.run_ok_bind, ← Memory.view_none_eq resolved, shown,
        Requesting.run_ok_bind]
      dsimp only
      cases type with
      | named type =>
          have isArea :=
            Memory.numberedArea_eq (AreaType.ofNumber_number type) covered
              (Shader.extent code).size unsetPrimMode 0 false
          rw [AreaRequest.carryOut, Shader.programAt_eq type shown,
            Shader.extentEvents]
          cases found : (Shader.extent code).found with
          | true =>
              rw [if_neg (by decide), if_pos rfl]
              refine (Requesting.run_addSized ..).trans ?_
              rw [TypeReference.number, isArea]
              exact congrArg (settle · _) listed_nil.symm
          | false =>
              rw [if_pos (by decide), if_neg (by decide),
                TypeReference.name, Requesting.run_ok_bind,
                Requesting.run_list_bind]
              refine (Requesting.run_addSized ..).trans ?_
              rw [TypeReference.number, isArea]
              rfl
      | numbered number =>
          rw [AreaRequest.carryOut,
            Shader.numberedProgramAt_eq number shown, follow_grant]
          cases found : (Shader.extent code).found with
          | true =>
              rw [if_neg (by decide), if_pos rfl]
              exact Requesting.run_addSized ..
          | false =>
              rw [if_pos (by decide), if_neg (by decide),
                TypeReference.name, Requesting.run_error_bind]
              rfl

/--
With an index or without, requests list the same and come down to the same
areas.
-/
theorem answer_eq
    (state : RequestState)
    (request : AreaRequest) :
    state.answer memory request =
      state.follow (request.carryOut memory) := by
  cases request with
  | sized number paddr size primMode attributes extended =>
      rw [AreaRequest.carryOut, follow_grant]
      exact Requesting.run_addSized ..
  | toEnd number paddr primMode attributes extended =>
      rw [AreaRequest.carryOut, follow_grant]
      exact Requesting.run_addToEnd ..
  | subList paddr primMode =>
      rw [AreaRequest.carryOut, follow_grant, Memory.subListAt,
        ← Memory.numberedAreaToEnd_number]
      exact Requesting.run_addToEnd ..
  | compressedList paddr primMode =>
      rw [AreaRequest.carryOut, follow_grant, Memory.compressedListAt,
        ← Memory.numberedAreaToEnd_number]
      exact Requesting.run_addToEnd ..
  | shaderRecord paddr attributes extended =>
      rw [AreaRequest.carryOut, follow_grant, Memory.shaderRecordAt_eq,
        answer, AreaRequest.enter, Requesting.addShaderRecord]
      cases sizeOfShaderRecord attributes extended with
      | error fault =>
          rfl
      | ok size =>
          exact Requesting.run_addSized AreaType.shaderRecord.number paddr size
            unsetPrimMode attributes extended
  | program type paddr =>
      exact answer_program type paddr

/-! ## Any number of requests -/

/--
Whether a request has been answered as it should be: with the position of the
area that it asks for, or with what is wrong and no change at all.
-/
inductive IsAnswered
    (memory : Memory)
    (request : AreaRequest)
    (before after : IndexedRegistry) :
    Except Fault Nat → Prop where
  | granted
      {area : Area}
      {position : Nat}
      (asks : request.AsksFor memory area)
      (enters : before.Enters area position after) :
      IsAnswered memory request before after (.ok position)
  | refused
      {fault : Fault}
      (refusal : request.IsRefused memory fault)
      (asksForNothing : ∀ area, ¬request.AsksFor memory area)
      (unchanged : after = before) :
      IsAnswered memory request before after (.error fault)

/-- Every request is answered: it is refused, or its area is entered. -/
theorem isAnswered_answer
    (memory : Memory)
    (inStep : state.registry.IsInStep)
    (request : AreaRequest) :
    IsAnswered memory request state.registry
      (state.answer memory request).2.registry
      (state.answer memory request).1 := by
  rw [answer_eq, follow]
  rcases request.ends_carryOut memory with
    ⟨asks, outcome, _⟩ | ⟨refusal, outcome, _⟩
  · rw [outcome]
    exact .granted asks (inStep.enters _)
  · rw [outcome]
    exact .refused refusal (fun _ asks => asks.not_isRefused _ refusal) rfl

/-- Whether a registry that requests have led to is as it should be. -/
structure IsKept
    (memory : Memory)
    (registry : IndexedRegistry) : Prop where
  inStep : registry.IsInStep
  covered : ∀ area ∈ registry.areas, memory.Covers area.paddr

/-- A request adds to the list what carrying it out asks for. -/
theorem areas_answer
    (memory : Memory)
    (inStep : state.registry.IsInStep)
    (request : AreaRequest) :
    (state.answer memory request).2.registry.areas =
      state.registry.areas.addAll
        (Event.requests (request.carryOut memory).events) := by
  rw [answer_eq, follow]
  rcases request.ends_carryOut memory with
    ⟨asks, outcome, requests⟩ | ⟨refusal, outcome, requests⟩
  · rw [outcome, requests]
    exact (inStep.enters _).areas_eq
  · rw [outcome, requests]
    rfl

/-- A registry stays as it should be, whatever is asked of it. -/
theorem isKept_answer
    (kept : IsKept memory state.registry)
    (request : AreaRequest) :
    IsKept memory (state.answer memory request).2.registry := by
  constructor
  · rw [answer_eq, follow]
    cases (request.carryOut memory).outcome with
    | error fault =>
        exact kept.inStep
    | ok area =>
        exact kept.inStep.isInStep_enter area
  · rw [areas_answer memory kept.inStep]
    intro area member
    rcases Registry.mem_addAll.mp member with known | requested
    · exact kept.covered area known
    · rcases request.ends_carryOut memory with
        ⟨asks, _, requests⟩ | ⟨_, _, requests⟩
      · rw [requests, List.mem_singleton] at requested
        rw [requested, asks.paddr_eq]
        exact asks.covers
      · rw [requests] at requested
        contradiction

/--
Many requests keep a registry as it should be, and add what they ask for in
order.
-/
theorem answerAll_spec
    (kept : IsKept memory state.registry)
    (requests : List AreaRequest) :
    IsKept memory (state.answerAll memory requests).registry ∧
      (state.answerAll memory requests).registry.areas =
        state.registry.areas.addAll
          (Event.requests
            (requests.flatMap fun request =>
              (request.carryOut memory).events)) := by
  induction requests generalizing state with
  | nil =>
      exact ⟨kept, rfl⟩
  | cons request rest inductionHypothesis =>
      obtain ⟨keptLater, areasLater⟩ :=
        inductionHypothesis (isKept_answer kept request)
      refine ⟨keptLater, areasLater.trans ?_⟩
      rw [areas_answer memory kept.inStep, List.flatMap_cons,
        Event.requests_append, Registry.addAll_append]

theorem isKept_empty
    (memory : Memory) :
    IsKept memory empty.registry where
  inStep := IndexedRegistry.isInStep_empty
  covered := fun _ member => absurd member List.not_mem_nil

theorem answerAll_append
    (state : RequestState)
    (requests later : List AreaRequest) :
    state.answerAll memory (requests ++ later) =
      (state.answerAll memory requests).answerAll memory later :=
  List.foldl_append

/--
A request that has been granted is granted again, whatever is asked for in
between: with the same entry, and without a change of the registry.
-/
theorem answer_again
    (kept : IsKept memory state.registry)
    {request : AreaRequest}
    {area : Area}
    (grants : (request.carryOut memory).outcome = .ok area) :
    ∃ position,
      (state.answer memory request).1 = .ok position ∧
        (state.answer memory request).2.registry.areas[position]? =
          some area ∧
        ∀ later,
          let next := (state.answer memory request).2.answerAll memory later
          (next.answer memory request).1 = .ok position ∧
            (next.answer memory request).2.registry = next.registry := by
  have settles :
      ∀ current : RequestState,
        current.answer memory request =
          (current.listed
            (Event.entries (request.carryOut memory).events)).settle
              (.ok area) := by
    intro current
    rw [answer_eq, follow, grants]
  have entered := kept.inStep.enters area
  have isFirst :
      (state.answer memory request).1 =
        .ok (state.registry.enter area).1 := by
    rw [settles state]
    rfl
  have held :
      (state.answer memory request).2.registry.areas[
          (state.registry.enter area).1]? = some area := by
    rw [settles state]
    exact entered.held
  refine ⟨(state.registry.enter area).1, isFirst, held, ?_⟩
  intro later next
  obtain ⟨keptLater, areasLater⟩ :=
    answerAll_spec (isKept_answer kept request) later
  have heldLater :
      next.registry.areas[(state.registry.enter area).1]? = some area := by
    have grown :
        (state.answer memory request).2.registry.areas <+:
          next.registry.areas :=
      areasLater ▸ Registry.addAll_prefix
    obtain ⟨new, shape⟩ := grown
    obtain ⟨inside, _⟩ := List.getElem?_eq_some_iff.mp held
    rw [← shape, List.getElem?_append_left inside]
    exact held
  have unchanged :
      next.registry.enter area =
        ((state.registry.enter area).1, next.registry) := by
    rw [IndexedRegistry.enter, (keptLater.inStep _ _).mpr heldLater]
  have again :
      next.answer memory request =
        (.ok (next.registry.enter area).1,
          { next.listed
              (Event.entries (request.carryOut memory).events) with
            registry := (next.registry.enter area).2 }) :=
    settles next
  rw [again, unchanged]
  exact ⟨rfl, rfl⟩

/-- The areas that requests come down to, those that are refused left out. -/
def granted
    (memory : Memory)
    (requests : List AreaRequest) : List Area :=
  requests.filterMap fun request =>
    (request.carryOut memory).outcome.toOption

/-- What carrying out requests asks for are the areas that are granted. -/
theorem requests_eq_granted
    (memory : Memory)
    (requests : List AreaRequest) :
    Event.requests
        (requests.flatMap fun request => (request.carryOut memory).events) =
      granted memory requests := by
  rw [Event.requests_flatMap]
  induction requests with
  | nil =>
      rfl
  | cons request rest inductionHypothesis =>
      rw [granted, List.flatMap_cons, List.filterMap_cons,
        inductionHypothesis]
      rcases request.ends_carryOut memory with
        ⟨_, outcome, requests⟩ | ⟨_, outcome, requests⟩
      · rw [outcome, requests]
        rfl
      · rw [outcome, requests]
        rfl

/--
Requests of all kinds, in whatever order and whether they succeed or not, leave
a registry in order.  Its areas are those that were asked for, in the order of
their first successful request, each of them once; list and index agree on what
is registered; every area begins in captured memory.  Whatever is asked for
next is answered with the entry of exactly this area, which is added at most,
or refused without a change; and whatever is asked for later, the areas stay
where they are.
-/
theorem answerAll_isOrderly
    (memory : Memory)
    (requests : List AreaRequest) :
    let state := empty.answerAll memory requests
    state.registry.areas.Nodup ∧
      state.registry.areas = (granted memory requests).eraseDups ∧
      (∀ area : Area,
        (state.registry.contains area = true ↔
            area ∈ state.registry.areas) ∧
          state.registry.index[area]? =
            state.registry.areas.position? area) ∧
      (∀ area ∈ state.registry.areas, memory.Covers area.paddr) ∧
      (∀ request,
        IsAnswered memory request state.registry
          (state.answer memory request).2.registry
          (state.answer memory request).1) ∧
      ∀ later,
        state.registry.areas <+:
          (empty.answerAll memory (requests ++ later)).registry.areas := by
  intro state
  obtain ⟨kept, areas⟩ := answerAll_spec (isKept_empty memory) requests
  refine ⟨kept.inStep.nodup, ?_, ?_, kept.covered,
    isAnswered_answer memory kept.inStep, ?_⟩
  · rw [areas, requests_eq_granted]
    exact Registry.addAll_nil_eq _
  · intro area
    exact ⟨kept.inStep.contains_iff, kept.inStep.index_eq area⟩
  · intro later
    obtain ⟨_, laterAreas⟩ := answerAll_spec kept later
    rw [answerAll_append, laterAreas]
    exact Registry.addAll_prefix

end RequestState

end VideoCore
