import VideoCore.Proofs.Dump.Sections

namespace VideoCore.Dump

/-!
# Runs of a dump

A dump walks its one or two root lists, then sweeps over the areas.  Its events
request canonical areas only, so the sweep is never cut off by its limit.
-/

variable {dump : Dump}

/-! ## Root lists -/

/-- The binning list. -/
def binning (dump : Dump) : Walk.ListRegion :=
  dump.rootRegion "start_bin" "ct0ea" false

/-- The rendering list. -/
def rendering (dump : Dump) : Walk.ListRegion :=
  dump.rootRegion "start_render" "ct1ea" true

/--
The lists that are walked first, with their titles; an empty binning list is
none of them.
-/
def roots (dump : Dump) : List (String × Walk.ListRegion) :=
  (if dump.binning.start ≠ dump.binning.stop then
    [("Bin CL", dump.binning)]
  else
    []) ++ [("Render CL", dump.rendering)]

/-- Walk some lists under their titles, one after the other. -/
def walkRoots (dump : Dump) : List (String × Walk.ListRegion) → Traced Unit
  | [] => return ()
  | (title, region) :: rest => do
      dump.rootList title region
      dump.walkRoots rest

/-- The control lists are the root lists in their order. -/
theorem controlLists_eq
    (dump : Dump) :
    dump.controlLists = dump.walkRoots dump.roots := by
  have last (title : String) (region : Walk.ListRegion) :
      dump.walkRoots [(title, region)] = dump.rootList title region := by
    rw [walkRoots, walkRoots]
    cases ended : (dump.rootList title region).outcome with
    | ok _ =>
        rw [Traced.bind_of_ok ended, Traced.events_pure,
          Traced.outcome_pure, List.append_nil, ← ended]
    | error fault =>
        rw [Traced.bind_of_error ended, ← ended]
  unfold roots
  by_cases nonempty : dump.binning.start ≠ dump.binning.stop
  · rw [if_pos nonempty, List.singleton_append, walkRoots, last]
    exact if_pos nonempty
  · rw [if_neg nonempty, List.nil_append, last]
    exact if_neg nonempty

/-- All root lists begin without a format. -/
theorem isFormat_of_mem_roots
    {title : String}
    {region : Walk.ListRegion}
    (isRoot : (title, region) ∈ dump.roots) :
    IsFormat region.primMode := by
  unfold roots at isRoot
  rcases List.mem_append.mp isRoot with isBinning | isRendering
  · split at isBinning
    · cases List.mem_singleton.mp isBinning
      exact isFormat_unsetPrimMode
    · exact absurd isBinning List.not_mem_nil
  · cases List.mem_singleton.mp isRendering
    exact isFormat_unsetPrimMode

variable {title : String} {region : Walk.ListRegion}

/-- The section of a root list is its heading and its walk. -/
theorem events_rootList
    (dump : Dump)
    (title : String)
    (region : Walk.ListRegion) :
    (dump.rootList title region).events =
      .heading (title ++ " at 0x" ++ Hexadecimal.padded 8 region.start) ::
        (Walk.list dump.snapshot.buffers region).events := by
  rw [rootList, Traced.emit_bind]
  cases ended : (Walk.list dump.snapshot.buffers region).outcome with
  | ok cursor =>
      rw [Traced.bind_of_ok ended, Traced.events_pure, List.append_nil]
      rfl
  | error fault =>
      rw [Traced.bind_of_error ended]
      rfl

/-- A root list without extended references is walked to its end. -/
theorem rootList_of_plain
    (isFormat : IsFormat region.primMode)
    (plain : ¬region.MeetsExtended dump.snapshot.buffers) :
    (dump.rootList title region).outcome = .ok () := by
  obtain ⟨cursor, ended⟩ := (Walk.list_safe isFormat).succeeds plain
  rw [rootList, Traced.emit_bind, Traced.bind_of_ok ended,
    Traced.outcome_pure]

/-- An extended reference ends the walk over a root list. -/
theorem rootList_of_extended
    (isFormat : IsFormat region.primMode)
    (extended : region.MeetsExtended dump.snapshot.buffers) :
    (dump.rootList title region).outcome =
      .error .extendedShaderRecord := by
  rw [rootList, Traced.emit_bind,
    Traced.bind_of_error ((Walk.list_safe isFormat).refuses extended)]

theorem rootList_ofDump
    (isFormat : IsFormat region.primMode) :
    (dump.rootList title region).Emits (Event.OfDump dump) := by
  intro event member
  rw [events_rootList] at member
  rcases List.mem_cons.mp member with rfl | walked
  · exact .heading _
  · exact .walk ((Walk.list_safe isFormat).regular event walked)

variable {lists : List (String × Walk.ListRegion)}

theorem walkRoots_ofDump
    (areFormats : ∀ entry ∈ lists, IsFormat entry.2.primMode) :
    (dump.walkRoots lists).Emits (Event.OfDump dump) := by
  induction lists with
  | nil =>
      exact .ofPure ()
  | cons first rest inductionHypothesis =>
      obtain ⟨firstFormat, restFormats⟩ :=
        List.forall_mem_cons.mp areFormats
      exact (rootList_ofDump firstFormat).bind
        fun _ _ => inductionHypothesis restFormats

/--
Root lists are walked to their ends, or up to the first extended reference.
-/
theorem walkRoots_cases
    (areFormats : ∀ entry ∈ lists, IsFormat entry.2.primMode) :
    ((dump.walkRoots lists).outcome = .ok () ∧
        ∀ entry ∈ lists, ¬entry.2.MeetsExtended dump.snapshot.buffers) ∨
      (dump.walkRoots lists).outcome = .error .extendedShaderRecord ∧
        ∃ earlier title region later,
          lists = earlier ++ (title, region) :: later ∧
            (dump.walkRoots earlier).outcome = .ok () ∧
            region.MeetsExtended dump.snapshot.buffers := by
  induction lists with
  | nil =>
      exact Or.inl ⟨rfl, by simp⟩
  | cons first rest inductionHypothesis =>
      obtain ⟨title, region⟩ := first
      obtain ⟨firstFormat, restFormats⟩ :=
        List.forall_mem_cons.mp areFormats
      by_cases extended : region.MeetsExtended dump.snapshot.buffers
      · refine Or.inr ⟨?_, [], title, region, rest, rfl, rfl, extended⟩
        rw [walkRoots,
          Traced.bind_of_error (rootList_of_extended firstFormat extended)]
      · have walked : (dump.rootList title region).outcome = .ok () :=
          rootList_of_plain firstFormat extended
        have goesOn (others : List (String × Walk.ListRegion)) :
            (dump.walkRoots ((title, region) :: others)).outcome =
              (dump.walkRoots others).outcome := by
          rw [walkRoots, Traced.bind_of_ok walked]
        rcases inductionHypothesis restFormats with
          ⟨ended, plain⟩ |
            ⟨fails, earlier, laterTitle, laterRegion, later, split, before,
              meets⟩
        · exact Or.inl
            ⟨(goesOn rest).trans ended,
              List.forall_mem_cons.mpr ⟨extended, plain⟩⟩
        · exact Or.inr
            ⟨(goesOn rest).trans fails, (title, region) :: earlier,
              laterTitle, laterRegion, later, by rw [split]; rfl,
              (goesOn earlier).trans before, meets⟩

/-- The control lists have the events of a dump. -/
theorem controlLists_ofDump
    (dump : Dump) :
    dump.controlLists.Emits (Event.OfDump dump) := by
  rw [controlLists_eq]
  exact walkRoots_ofDump fun entry isRoot => isFormat_of_mem_roots isRoot

/-! ## Sweeps over the areas -/

variable {registry : Registry}

/-- Visits leave a valid registry valid. -/
theorem isValid_of_visits
    {sweep final : Sweep}
    {visited : List Area}
    (visits : Sweep.Visits dump.visit sweep visited final)
    (valid : sweep.registry.IsValid dump.snapshot.buffers) :
    final.registry.IsValid dump.snapshot.buffers where
  canonical :=
    visits.forall_mem_registry valid.canonical
      fun _ isCanonical _ member =>
        Event.canonical_of_mem_requests (visit_ofDump isCanonical) member
  unique := visits.nodup_registry valid.unique

/-- The limit of a sweep allows for all areas there can be. -/
theorem le_limit
    (registry : Registry)
    (memory : Memory) :
    268 * memory.addresses.card ≤ registry.limit memory := by
  have covered := memory.card_addresses_le_capacity
  calc
    268 * memory.addresses.card ≤ 268 * memory.capacity :=
      Nat.mul_le_mul_left 268 covered
    _ ≤ (268 + registry.length) * memory.capacity :=
      Nat.mul_le_mul_right _ (Nat.le_add_right ..)
    _ ≤ registry.limit memory := Nat.le_add_left ..

/-- A sweep over a valid registry ends by itself. -/
theorem exists_completes
    (valid : registry.IsValid dump.snapshot.buffers) :
    ∃ visited final,
      Sweep.Completes dump.visit (.ofRegistry registry) visited final
        (registry.sweep dump.snapshot.buffers dump.visit) := by
  apply Sweep.run_completes
  intro visited final visits
  have bound := (isValid_of_visits visits valid).length_le
  have room := le_limit registry dump.snapshot.buffers
  simp only [Sweep.ofRegistry]
  omega

/-- Any limit that allows for all areas gives the same sweep. -/
theorem sweep_eq_of_le
    {visited : List Area}
    {final : Sweep}
    {result : Traced Sweep}
    (valid : registry.IsValid dump.snapshot.buffers)
    (completes :
      Sweep.Completes dump.visit (.ofRegistry registry) visited final
        result)
    {limit : Nat}
    (enough :
      268 * (dump.snapshot.buffers.addresses).card ≤ limit) :
    (Sweep.ofRegistry registry).run dump.visit limit = result := by
  apply completes.run_eq (Nat.zero_le _)
  have bound := (isValid_of_visits completes.visits valid).length_le
  simp only [Sweep.ofRegistry]
  omega

/-- The areas are dumped by a sweep over them. -/
theorem areas_eq
    (dump : Dump)
    (registry : Registry) :
    dump.areas registry =
      ⟨(registry.sweep dump.snapshot.buffers dump.visit).events,
        (registry.sweep dump.snapshot.buffers dump.visit).outcome.map
          fun _ => ()⟩ := by
  rw [areas]
  cases ended :
      (registry.sweep dump.snapshot.buffers dump.visit).outcome with
  | ok final =>
      rw [Traced.bind_of_ok ended, Traced.events_pure,
        Traced.outcome_pure, List.append_nil]
      rfl
  | error fault =>
      rw [Traced.bind_of_error ended]
      rfl

/-- Visits of canonical areas report what a dump may report. -/
theorem eventsOf_ofDump
    {areas : List Area}
    (canonical :
      ∀ area ∈ areas, Area.Canonical dump.snapshot.buffers area) :
    ∀ event ∈ Sweep.eventsOf dump.visit areas, event.OfDump dump := by
  intro event member
  obtain ⟨area, visited, fromVisit⟩ := List.mem_flatMap.mp member
  exact visit_ofDump (canonical area visited) event fromVisit

/-- The areas that have been visited are among those that have been found. -/
theorem subset_of_visits
    {visited : List Area}
    {final : Sweep}
    (visits :
      Sweep.Visits dump.visit (.ofRegistry registry) visited final) :
    visited = final.visited ∧ visited ⊆ final.registry := by
  have same : final.visited = visited := by
    rw [visits.visited_eq]
    rfl
  exact ⟨same.symm, same ▸ (List.take_sublist ..).subset⟩

/--
A sweep visits the areas in the order of the registry, in the end all of them.
-/
theorem visited_of_completes
    {visited : List Area}
    {final : Sweep}
    {result : Traced Sweep}
    (completes :
      Sweep.Completes dump.visit (.ofRegistry registry) visited final
        result) :
    visited <+: final.registry ∧
      (final.next? = none → visited = final.registry) := by
  have visits := completes.visits
  have isVisited := (subset_of_visits visits).1
  refine ⟨isVisited ▸ List.take_prefix .., fun atEnd => ?_⟩
  rw [isVisited, Sweep.visited,
    List.take_of_length_le (Sweep.next?_eq_none_iff.mp atEnd)]

/-- A sweep over a valid registry reports what a dump may report. -/
theorem areas_ofDump
    (valid : registry.IsValid dump.snapshot.buffers) :
    (dump.areas registry).Emits (Event.OfDump dump) := by
  obtain ⟨visited, final, completes⟩ := exists_completes valid
  rw [areas_eq]
  generalize registry.sweep dump.snapshot.buffers dump.visit = result
    at completes
  cases completes with
  | finished visits atEnd =>
      have known := (isValid_of_visits visits valid).canonical
      exact eventsOf_ofDump fun area member =>
        known area ((subset_of_visits visits).2 member)
  | failed visits next fails =>
      have known := (isValid_of_visits visits valid).canonical
      intro event member
      rcases List.mem_append.mp member with early | last
      · exact eventsOf_ofDump
          (fun area member =>
            known area ((subset_of_visits visits).2 member))
          event early
      · exact visit_ofDump (known _ (List.mem_of_getElem? next)) event last

/-! ## Whole runs -/

/-- The areas that are known once the control lists have been walked. -/
def found
    (dump : Dump)
    (registry : Registry) : Registry :=
  registry.addAll (Event.requests dump.controlLists.events)

/-- The lines above all lists are what a dump may report. -/
theorem opening_ofDump
    (dump : Dump) :
    ∀ event ∈ dump.opening, event.OfDump dump := by
  intro event member
  unfold opening at member
  split at member
  · exact absurd member List.not_mem_nil
  · obtain rfl := List.mem_singleton.mp member
    exact .walk (.diagnostic _)

/-- What a dump begins with. -/
def summaryOf
    (dump : Dump)
    (parts : DumpParts) : List Event :=
  if parts.registers then dump.registerSummary else []

/-- What is left to do after the control lists. -/
def rest
    (dump : Dump)
    (registry : Registry)
    (parts : DumpParts) : Traced Unit :=
  if parts.areas then dump.areas (dump.found registry) else return ()

/-- A run with control lists that fail ends there. -/
theorem run_of_error
    {fault : Fault}
    (fails : dump.controlLists.outcome = .error fault)
    (registry : Registry)
    (parts : DumpParts) :
    dump.run registry parts =
      ⟨dump.summaryOf parts ++ dump.controlLists.events,
        .error fault⟩ := by
  rw [run]
  cases wanted : parts.registers with
  | false =>
      simp only [summaryOf, wanted, Bool.false_eq_true, if_false,
        List.nil_append, Traced.bind_of_error fails]
  | true =>
      simp only [summaryOf, wanted, if_true, Traced.emit_bind,
        Traced.bind_of_error fails]

/-- A run goes on after control lists that succeed. -/
theorem run_of_ok
    (succeeds : dump.controlLists.outcome = .ok ())
    (registry : Registry)
    (parts : DumpParts) :
    dump.run registry parts =
      ⟨dump.summaryOf parts ++ dump.controlLists.events ++
          (dump.rest registry parts).events,
        (dump.rest registry parts).outcome⟩ := by
  rw [run]
  cases wanted : parts.registers with
  | false =>
      simp only [summaryOf, wanted, Bool.false_eq_true, if_false,
        List.nil_append, Traced.bind_of_ok succeeds]
      rfl
  | true =>
      simp only [summaryOf, wanted, if_true, Traced.emit_bind,
        Traced.bind_of_ok succeeds, List.append_assoc]
      rfl

/-- The control lists leave a valid registry valid. -/
theorem isValid_found
    (valid : registry.IsValid dump.snapshot.buffers) :
    (dump.found registry).IsValid dump.snapshot.buffers :=
  valid.addAll fun _ requested =>
    Event.canonical_of_mem_requests dump.controlLists_ofDump requested

/-- A run has the events of a dump. -/
theorem run_ofDump
    (valid : registry.IsValid dump.snapshot.buffers)
    (parts : DumpParts) :
    (dump.run registry parts).Emits (Event.OfDump dump) := by
  have summary :
      ∀ event ∈ dump.summaryOf parts, event.OfDump dump := by
    intro event member
    unfold summaryOf at member
    split at member
    · exact .summary member
    · exact absurd member List.not_mem_nil
  have lists :
      ∀ event ∈ dump.summaryOf parts ++ dump.controlLists.events,
        event.OfDump dump := by
    intro event member
    rcases List.mem_append.mp member with early | late
    · exact summary event early
    · exact dump.controlLists_ofDump event late
  cases ended : dump.controlLists.outcome with
  | error fault =>
      rw [run_of_error ended]
      exact lists
  | ok _ =>
      rw [run_of_ok ended]
      intro event member
      rcases List.mem_append.mp member with early | late
      · exact lists event early
      · unfold rest at late
        split at late
        · exact areas_ofDump (isValid_found valid) event late
        · exact absurd late List.not_mem_nil

end VideoCore.Dump
