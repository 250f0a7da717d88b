import VideoCore.Proofs.Dump.Run

namespace VideoCore.Dump

/-!
# The areas that a dump explores

The root lists refer to areas, and those to further ones.  The sweep of a dump
is a worklist for this graph: it ends with the areas that can be reached, each
of them once, whatever the order of the root lists is.
-/

variable {dump : Dump}

/-! ## The graph of references -/

/-- The areas that the walk over a list requests. -/
def listReferences
    (dump : Dump)
    (region : Walk.ListRegion) :
    List Area :=
  Event.requests (Walk.list dump.snapshot.buffers region).events

/-- The areas that the walk over an area requests. -/
def references
    (dump : Dump)
    (area : Area) :
    List Area :=
  Event.requests
    (Walk.area dump.snapshot.buffers dump.disassembler area).events

/--
Whether a set of areas contains everything that is requested from the root lists
and from itself.
-/
structure IsClosed
    (dump : Dump)
    (areas : Set Area) : Prop where
  roots :
    ∀ entry ∈ dump.roots,
      ∀ requested ∈ dump.listReferences entry.2,
        requested ∈ areas
  step :
    ∀ area ∈ areas,
      ∀ requested ∈ dump.references area,
        requested ∈ areas

/-- The areas that a chain of requests leads to. -/
inductive Reachable (dump : Dump) : Area → Prop where
  | root
      {entry : String × Walk.ListRegion}
      {requested : Area}
      (isRoot : entry ∈ dump.roots)
      (isRequested : requested ∈ dump.listReferences entry.2) :
      Reachable dump requested
  | step
      {area requested : Area}
      (reachable : Reachable dump area)
      (isRequested : requested ∈ dump.references area) :
      Reachable dump requested

namespace Reachable

variable {area : Area}

/-- Areas that can be reached are canonical. -/
theorem canonical
    (reachable : Reachable dump area) :
    Area.Canonical dump.snapshot.buffers area := by
  induction reachable with
  | root isRoot isRequested =>
      exact Event.Regular.canonical_of_mem_requests
        (Walk.list_safe (isFormat_of_mem_roots isRoot)).regular
        isRequested
  | step reachable isRequested inductionHypothesis =>
      exact Event.Regular.canonical_of_mem_requests
        (Walk.area_safe inductionHypothesis dump.disassembler).regular
        isRequested

/-- Closed sets contain all areas that can be reached. -/
theorem mem
    {areas : Set Area}
    (reachable : Reachable dump area)
    (closed : dump.IsClosed areas) :
    area ∈ areas := by
  induction reachable with
  | root isRoot isRequested =>
      exact closed.roots _ isRoot _ isRequested
  | step reachable isRequested inductionHypothesis =>
      exact closed.step _ inductionHypothesis _ isRequested

end Reachable

/-- The areas that can be reached are the least closed set. -/
theorem isLeast_reachable
    (dump : Dump) :
    IsLeast {areas : Set Area | dump.IsClosed areas}
      {area | dump.Reachable area} where
  left :=
    { roots := fun _ isRoot _ isRequested =>
        Reachable.root isRoot isRequested
      step := fun _ reachable _ isRequested =>
        Reachable.step reachable isRequested }
  right := fun _ closed _ reachable => reachable.mem closed

/-! ## Explorations -/

/-- Walk some lists, then the areas that are reached from them. -/
def explore
    (dump : Dump)
    (order : List (String × Walk.ListRegion)) :
    Traced Unit := do
  let lists := dump.walkRoots order
  lists
  dump.areas (Registry.addAll [] (Event.requests lists.events))

/--
Whether an exploration succeeds and ends with some registry, with one section
for each area.
-/
structure Explores
    (dump : Dump)
    (order : List (String × Walk.ListRegion))
    (registry : Registry) : Prop where
  succeeds : (dump.explore order).outcome = .ok ()
  events_eq :
    (dump.explore order).events =
      (dump.walkRoots order).events ++
        Sweep.eventsOf dump.visit registry
  registry_eq :
    Registry.addAll [] (Event.requests (dump.explore order).events) =
      registry
  unique : registry.Nodup
  mem_iff : ∀ area, area ∈ registry ↔ dump.Reachable area
  visited : ∀ area ∈ registry, (dump.visit area).outcome = .ok ()

variable {order : List (String × Walk.ListRegion)}

/-- Lists that are walked to their ends request what each of them requests. -/
theorem requests_walkRoots
    (succeeds : (dump.walkRoots order).outcome = .ok ()) :
    Event.requests (dump.walkRoots order).events =
      order.flatMap fun entry => dump.listReferences entry.2 := by
  induction order with
  | nil =>
      rfl
  | cons first rest inductionHypothesis =>
      obtain ⟨title, region⟩ := first
      have ownRequests :
          Event.requests (dump.rootList title region).events =
            dump.listReferences region := by
        rw [events_rootList]
        rfl
      rw [walkRoots] at succeeds ⊢
      cases ended : (dump.rootList title region).outcome with
      | error fault =>
          rw [Traced.bind_of_error ended] at succeeds
          contradiction
      | ok _ =>
          rw [Traced.bind_of_ok ended] at succeeds ⊢
          rw [Event.requests_append, ownRequests,
            inductionHypothesis succeeds, List.flatMap_cons]

/-- The areas that are known once some lists have been walked. -/
def rootRegistry
    (dump : Dump)
    (order : List (String × Walk.ListRegion)) : Registry :=
  Registry.addAll [] (Event.requests (dump.walkRoots order).events)

/-- What the root lists request is known before the sweep begins. -/
theorem mem_rootRegistry
    (sameRoots : order.Perm dump.roots)
    (walked : (dump.walkRoots order).outcome = .ok ())
    {area : Area} :
    area ∈ dump.rootRegistry order ↔
      ∃ entry ∈ dump.roots, area ∈ dump.listReferences entry.2 := by
  rw [rootRegistry, Registry.mem_addAll, requests_walkRoots walked,
    List.mem_flatMap]
  simp only [List.not_mem_nil, false_or, sameRoots.mem_iff]

/-- Areas that the root lists ask for are reachable. -/
theorem reachable_of_mem_rootRegistry
    (sameRoots : order.Perm dump.roots)
    (walked : (dump.walkRoots order).outcome = .ok ())
    {area : Area}
    (member : area ∈ dump.rootRegistry order) :
    dump.Reachable area := by
  obtain ⟨entry, isRoot, isRequested⟩ :=
    (mem_rootRegistry sameRoots walked).mp member
  exact .root isRoot isRequested

/-- What the root lists ask for is a valid registry. -/
theorem isValid_rootRegistry
    (sameRoots : order.Perm dump.roots)
    (walked : (dump.walkRoots order).outcome = .ok ()) :
    (dump.rootRegistry order).IsValid dump.snapshot.buffers where
  canonical := fun _ member =>
    (reachable_of_mem_rootRegistry sameRoots walked member).canonical
  unique := Registry.nodup_addAll List.nodup_nil

/-- Soundness: a sweep finds nothing but areas that can be reached. -/
theorem reachable_of_visits
    {registry : Registry}
    {visits : List Area}
    {final : Sweep}
    (sweeps :
      Sweep.Visits dump.visit (.ofRegistry registry) visits final)
    (start : ∀ area ∈ registry, dump.Reachable area) :
    ∀ area ∈ final.registry, dump.Reachable area := by
  apply sweeps.forall_mem_registry start
  intro area reachable requested isRequested
  rw [requests_visit reachable.canonical] at isRequested
  exact .step reachable isRequested

/--
Completeness: a sweep with nothing left has found all that its areas request.
-/
theorem closed_of_visits
    {registry : Registry}
    {visits : List Area}
    {final : Sweep}
    (sweeps :
      Sweep.Visits dump.visit (.ofRegistry registry) visits final)
    (isAll : visits = final.registry)
    (canonical :
      ∀ area ∈ final.registry,
        Area.Canonical dump.snapshot.buffers area) :
    ∀ area ∈ final.registry,
      ∀ requested ∈ dump.references area,
        requested ∈ final.registry := by
  intro area member requested isRequested
  rw [references, ← requests_visit (canonical area member)]
    at isRequested
  rw [sweeps.registry_eq, Registry.mem_addAll, Sweep.eventsOf,
    Event.requests_flatMap]
  exact Or.inr
    (List.mem_flatMap.mpr ⟨area, isAll ▸ member, isRequested⟩)

/--
An exploration is the walk over its lists and a sweep from what they request.
-/
theorem explore_of_ok
    (walked : (dump.walkRoots order).outcome = .ok ()) :
    dump.explore order =
      ⟨(dump.walkRoots order).events ++
          (dump.areas (dump.rootRegistry order)).events,
        (dump.areas (dump.rootRegistry order)).outcome⟩ := by
  rw [explore]
  exact Traced.bind_of_ok walked _

/--
A sweep that ends with nothing left explores all areas that can be reached.
-/
theorem explores_of_finished
    (sameRoots : order.Perm dump.roots)
    (walked : (dump.walkRoots order).outcome = .ok ())
    {visits : List Area}
    {final : Sweep}
    (sweeps :
      Sweep.Visits dump.visit (.ofRegistry (dump.rootRegistry order))
        visits final)
    (atEnd : final.next? = none)
    (swept :
      (dump.rootRegistry order).sweep dump.snapshot.buffers dump.visit =
        ⟨Sweep.eventsOf dump.visit visits, .ok final⟩) :
    dump.Explores order final.registry := by
  have sound : ∀ area ∈ final.registry, dump.Reachable area :=
    reachable_of_visits sweeps fun _ member =>
      reachable_of_mem_rootRegistry sameRoots walked member
  obtain rfl : visits = final.registry :=
    (visited_of_completes (.finished sweeps atEnd)).2 atEnd
  -- Nothing is left to visit, so the registry is closed under requests.
  have closed :
      dump.IsClosed {area | area ∈ final.registry} :=
    { roots := fun entry isRoot area isRequested =>
        sweeps.registry_prefix.subset
          ((mem_rootRegistry sameRoots walked).mpr
            ⟨entry, isRoot, isRequested⟩)
      step :=
        closed_of_visits sweeps rfl
          fun area member => (sound area member).canonical }
  have exploration :
      dump.explore order =
        ⟨(dump.walkRoots order).events ++
            Sweep.eventsOf dump.visit final.registry,
          .ok ()⟩ := by
    rw [explore_of_ok walked, areas_eq, swept]
    rfl
  exact
    { succeeds := by rw [exploration]
      events_eq := by rw [exploration]
      registry_eq := by
        rw [exploration, Event.requests_append, Registry.addAll_append]
        exact sweeps.registry_eq.symm
      unique :=
        sweeps.nodup_registry
          (isValid_rootRegistry sameRoots walked).unique
      mem_iff := fun area =>
        ⟨sound area, fun reachable => reachable.mem closed⟩
      visited := fun area member => sweeps.succeeds_of_mem member }

/--
An exploration succeeds unless the section of an area that can be reached fails.
-/
theorem explores_or_fails
    (sameRoots : order.Perm dump.roots)
    (walked : (dump.walkRoots order).outcome = .ok ()) :
    (∃ registry, dump.Explores order registry) ∨
      ∃ area fault,
        dump.Reachable area ∧
          (dump.visit area).outcome = .error fault ∧
          (dump.explore order).outcome = .error fault := by
  obtain ⟨visits, final, completes⟩ :=
    exists_completes (isValid_rootRegistry sameRoots walked)
  generalize swept :
    (dump.rootRegistry order).sweep dump.snapshot.buffers dump.visit =
      result
    at completes
  cases completes with
  | finished sweeps atEnd =>
      exact Or.inl
        ⟨final.registry,
          explores_of_finished sameRoots walked sweeps atEnd swept⟩
  | @failed area fault sweeps next fails =>
      have reachable : dump.Reachable area :=
        reachable_of_visits sweeps
          (fun _ member =>
            reachable_of_mem_rootRegistry sameRoots walked member)
          area (List.mem_of_getElem? next)
      refine Or.inr ⟨area, fault, reachable, fails, ?_⟩
      rw [explore_of_ok walked, areas_eq, swept]
      rfl

theorem walkRoots_of_explore
    (succeeds : (dump.explore order).outcome = .ok ()) :
    (dump.walkRoots order).outcome = .ok () := by
  cases walked : (dump.walkRoots order).outcome with
  | ok _ =>
      rfl
  | error fault =>
      rw [explore, Traced.bind_of_error walked] at succeeds
      contradiction

/-- An exploration that succeeds has explored all areas that can be reached. -/
theorem exists_explores
    (sameRoots : order.Perm dump.roots)
    (succeeds : (dump.explore order).outcome = .ok ()) :
    ∃ registry, dump.Explores order registry := by
  rcases explores_or_fails sameRoots (walkRoots_of_explore succeeds)
    with explores | ⟨area, fault, _, _, fails⟩
  · exact explores
  · rw [fails] at succeeds
    contradiction

namespace Explores

variable {registry : Registry}

/-- The root lists may be walked in another order. -/
theorem of_perm
    {other : List (String × Walk.ListRegion)}
    (explores : dump.Explores order registry)
    (sameRoots : order.Perm dump.roots)
    (otherOrder : other.Perm order) :
    ∃ otherRegistry, dump.Explores other otherRegistry := by
  have isFormat :
      ∀ entry ∈ order, IsFormat entry.2.primMode :=
    fun entry member => isFormat_of_mem_roots (sameRoots.subset member)
  have plain :
      ∀ entry ∈ order,
        ¬entry.2.MeetsExtended dump.snapshot.buffers := by
    rcases walkRoots_cases isFormat with ⟨_, plain⟩ | ⟨fails, _⟩
    · exact plain
    · rw [walkRoots_of_explore explores.succeeds] at fails
      contradiction
  have otherWalked : (dump.walkRoots other).outcome = .ok () := by
    rcases walkRoots_cases
        (fun entry member => isFormat entry (otherOrder.subset member))
      with ⟨walked, _⟩ | ⟨_, _, title, region, _, split, _, meets⟩
    · exact walked
    · have member : (title, region) ∈ other := by
        rw [split]
        simp
      exact absurd meets (plain _ (otherOrder.subset member))
  rcases explores_or_fails (otherOrder.trans sameRoots) otherWalked with
    found | ⟨area, fault, reachable, fails, _⟩
  · exact found
  · have succeeds :=
      explores.visited area ((explores.mem_iff area).mpr reachable)
    rw [fails] at succeeds
    contradiction

/--
The sections of an exploration request nothing that has not been explored.
-/
theorem subset_of_requests
    (explores : dump.Explores order registry)
    {areas : List Area}
    (known : areas ⊆ registry) :
    Event.requests (Sweep.eventsOf dump.visit areas) ⊆ registry := by
  intro requested isRequested
  rw [Sweep.eventsOf, Event.requests_flatMap] at isRequested
  obtain ⟨area, member, fromArea⟩ := List.mem_flatMap.mp isRequested
  have reachable : dump.Reachable area :=
    (explores.mem_iff area).mp (known member)
  rw [requests_visit reachable.canonical] at fromArea
  exact (explores.mem_iff requested).mpr (.step reachable fromArea)

/-- A second sweep gives the same sections again, and finds no further area. -/
theorem areas_again
    (explores : dump.Explores order registry) :
    dump.areas registry =
      ⟨Sweep.eventsOf dump.visit registry, .ok ()⟩ := by
  have reachable (area : Area) (member : area ∈ registry) :
      dump.Reachable area :=
    (explores.mem_iff area).mp member
  obtain ⟨visits, final, completes⟩ :=
    exists_completes
      ⟨fun area member => (reachable area member).canonical,
        explores.unique⟩
  -- Whatever the second sweep requests is registered already.
  have stays : final.registry = registry := by
    have visited : visits ⊆ registry := fun area member =>
      (explores.mem_iff area).mpr
        (reachable_of_visits completes.visits reachable area
          ((subset_of_visits completes.visits).2 member))
    rw [completes.visits.registry_eq]
    exact Registry.addAll_of_subset (explores.subset_of_requests visited)
  rw [areas_eq]
  generalize registry.sweep dump.snapshot.buffers dump.visit = result
    at completes
  cases completes with
  | finished sweeps atEnd =>
      obtain rfl : visits = final.registry :=
        (visited_of_completes (.finished sweeps atEnd)).2 atEnd
      rw [stays]
      rfl
  | @failed area fault sweeps next fails =>
      have succeeds :=
        explores.visited area (stays ▸ List.mem_of_getElem? next)
      rw [fails] at succeeds
      contradiction

/-- An exploration finds the least closed set of areas. -/
theorem isLeast
    (explores : dump.Explores order registry) :
    IsLeast {areas : Set Area | dump.IsClosed areas}
      {area | area ∈ registry} := by
  have same :
      {area | area ∈ registry} = {area | dump.Reachable area} :=
    Set.ext explores.mem_iff
  rw [same]
  exact isLeast_reachable dump

/-- Every explored area has a section of its own, under its title. -/
theorem section_of_mem
    (explores : dump.Explores order registry)
    {area : Area}
    (member : area ∈ registry) :
    (dump.visit area).outcome = .ok () ∧
      (∃ bytes, dump.IsSection area bytes) ∧
      Event.headings (dump.visit area).events = [area.title] := by
  have canonical := ((explores.mem_iff area).mp member).canonical
  exact ⟨explores.visited area member, exists_isSection canonical,
    headings_visit canonical⟩

/-- In any order of the root lists the same areas are explored. -/
theorem mem_iff_of_perm
    {other : List (String × Walk.ListRegion)}
    (explores : dump.Explores order registry)
    (sameRoots : order.Perm dump.roots)
    (otherOrder : other.Perm order) :
    (dump.explore other).outcome = .ok () ∧
      ∀ area,
        area ∈ Registry.addAll []
            (Event.requests (dump.explore other).events) ↔
          area ∈ registry := by
  obtain ⟨otherRegistry, otherExplores⟩ :=
    explores.of_perm sameRoots otherOrder
  refine ⟨otherExplores.succeeds, fun area => ?_⟩
  rw [otherExplores.registry_eq, otherExplores.mem_iff,
    explores.mem_iff]

end Explores

/-! ## Runs -/

theorem requests_summaryOf
    (dump : Dump)
    (parts : DumpParts) :
    Event.requests (dump.summaryOf parts) = [] := by
  unfold summaryOf
  split
  · rfl
  · rfl

/-- A run that includes the areas is an exploration after the summary. -/
theorem run_eq_explore
    {parts : DumpParts}
    (wantsAreas : parts.areas = true) :
    dump.run [] parts =
      ⟨dump.summaryOf parts ++ (dump.explore dump.roots).events,
        (dump.explore dump.roots).outcome⟩ := by
  have sameLists := dump.controlLists_eq
  cases ended : dump.controlLists.outcome with
  | error fault =>
      rw [run_of_error ended, explore, ← sameLists,
        Traced.bind_of_error ended]
  | ok _ =>
      have walked : (dump.walkRoots dump.roots).outcome = .ok () :=
        sameLists ▸ ended
      rw [run_of_ok ended, rest, if_pos wantsAreas, found,
        explore_of_ok walked, rootRegistry, ← sameLists,
        List.append_assoc]

end VideoCore.Dump
