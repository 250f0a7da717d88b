import VideoCore.Proofs.Dump.Run

namespace VideoCore.Dump

/-!
# Faults of a dump

A dump performs walks over its root lists and over the lists among its areas.
It fails exactly if one of them meets a reference to an extended shader record,
and for no other reason.
-/

variable {dump : Dump} {parts : DumpParts}

/-- The lists whose walks a dump performs; a walk that fails is the last one. -/
inductive Performs
    (dump : Dump)
    (parts : DumpParts) :
    Walk.ListRegion → Prop where
  /-- A root list, after the root lists in front of it. -/
  | root
      {earlier later : List (String × Walk.ListRegion)}
      {title : String}
      {region : Walk.ListRegion}
      (split : dump.roots = earlier ++ (title, region) :: later)
      (walked : (dump.walkRoots earlier).outcome = .ok ()) :
      Performs dump parts region
  /-- A list area, after the root lists and the areas in front of it. -/
  | area
      {visited : List Area}
      {sweep : Sweep}
      {area : Area}
      {phase : Phase}
      (wantsAreas : parts.areas = true)
      (walked : dump.controlLists.outcome = .ok ())
      (visits :
        Sweep.Visits dump.visit (.ofRegistry (dump.found [])) visited
          sweep)
      (next : sweep.next? = some area)
      (isList : area.phase? = some phase) :
      Performs dump parts (Walk.listRegion area phase)

/-- A dump meets an extended reference if a walk that it performs does. -/
def MeetsExtended
    (dump : Dump)
    (parts : DumpParts) : Prop :=
  ∃ region,
    dump.Performs parts region ∧
      region.MeetsExtended dump.snapshot.buffers

/-- The section of a canonical area fails for extended references only. -/
theorem meetsExtended_of_fails
    {area : Area}
    {fault : Fault}
    (canonical : Area.Canonical dump.snapshot.buffers area)
    (fails : (dump.visit area).outcome = .error fault) :
    area.MeetsExtended dump.snapshot.buffers ∧
      fault = .extendedShaderRecord := by
  obtain ⟨bytes, isSection⟩ := exists_isSection canonical
  by_cases extended : area.MeetsExtended dump.snapshot.buffers
  · have refused := isSection.refuses extended
    rw [fails] at refused
    exact ⟨extended, Except.error.inj refused⟩
  · have succeeded := isSection.succeeds extended
    rw [fails] at succeeded
    contradiction

/--
The areas of a dump are all visited, or one of them meets an extended reference.
-/
theorem areas_cases
    {registry : Registry}
    (valid : registry.IsValid dump.snapshot.buffers) :
    (dump.areas registry).outcome = .ok () ∨
      (dump.areas registry).outcome = .error .extendedShaderRecord ∧
        ∃ visited sweep area,
          Sweep.Visits dump.visit (.ofRegistry registry) visited sweep ∧
            sweep.next? = some area ∧
            area.MeetsExtended dump.snapshot.buffers := by
  obtain ⟨visited, final, completes⟩ := exists_completes valid
  rw [areas_eq]
  generalize registry.sweep dump.snapshot.buffers dump.visit = result
    at completes
  cases completes with
  | finished visits atEnd =>
      exact Or.inl rfl
  | @failed area fault visits next fails =>
      have known :=
        (isValid_of_visits visits valid).canonical area
          (List.mem_of_getElem? next)
      obtain ⟨extended, rfl⟩ := meetsExtended_of_fails known fails
      exact Or.inr ⟨rfl, visited, final, area, visits, next, extended⟩

/--
The sweep of a dump fails if a list that it comes to meets an extended
reference.
-/
theorem areas_of_meetsExtended
    {registry : Registry}
    (valid : registry.IsValid dump.snapshot.buffers)
    {visited : List Area}
    {sweep : Sweep}
    {area : Area}
    (visits :
      Sweep.Visits dump.visit (.ofRegistry registry) visited sweep)
    (next : sweep.next? = some area)
    (extended : area.MeetsExtended dump.snapshot.buffers) :
    (dump.areas registry).outcome = .error .extendedShaderRecord := by
  have known :=
    (isValid_of_visits visits valid).canonical area
      (List.mem_of_getElem? next)
  obtain ⟨bytes, isSection⟩ := exists_isSection known
  have swept :
      registry.sweep dump.snapshot.buffers dump.visit =
        ⟨Sweep.eventsOf dump.visit visited ++ (dump.visit area).events,
          .error .extendedShaderRecord⟩ :=
    sweep_eq_of_le valid
      (.failed visits next (isSection.refuses extended)) (le_limit ..)
  rw [areas_eq, swept]
  rfl

/--
A run succeeds unless a walk that it performs meets an extended reference.
-/
theorem run_cases
    (dump : Dump)
    (parts : DumpParts) :
    (dump.run [] parts).outcome = .ok () ∧
        ¬dump.MeetsExtended parts ∨
      (dump.run [] parts).outcome = .error .extendedShaderRecord ∧
        dump.MeetsExtended parts := by
  have valid : (dump.found []).IsValid dump.snapshot.buffers :=
    isValid_found .nil
  have lists := dump.controlLists_eq
  rcases walkRoots_cases
      (fun entry isRoot => isFormat_of_mem_roots isRoot)
    with ⟨walked, plain⟩ |
      ⟨fails, earlier, title, region, later, split, walked, extended⟩
  · rw [← lists] at walked
    have rootIsPlain
        {earlier later : List (String × Walk.ListRegion)}
        {title : String}
        {region : Walk.ListRegion}
        (split : dump.roots = earlier ++ (title, region) :: later) :
        ¬region.MeetsExtended dump.snapshot.buffers :=
      plain (title, region) (by rw [split]; simp)
    rw [run_of_ok walked, rest]
    cases wanted : parts.areas with
    | false =>
        refine Or.inl ⟨rfl, ?_⟩
        rintro ⟨region, performs, extended⟩
        cases performs with
        | root split _ =>
            exact rootIsPlain split extended
        | area wantsAreas _ _ _ _ =>
            rw [wanted] at wantsAreas
            contradiction
    | true =>
        rcases areas_cases valid with
          succeeds | ⟨fails, visited, sweep, area, visits, next, extended⟩
        · -- A sweep ends in one way only: none of its walks meets a reference.
          refine Or.inl ⟨succeeds, ?_⟩
          rintro ⟨region, performs, extended⟩
          cases performs with
          | root split _ =>
              exact rootIsPlain split extended
          | area _ _ visits next isList =>
              have fails :=
                areas_of_meetsExtended valid visits next
                  (Area.meetsExtended_iff.mpr ⟨_, isList, extended⟩)
              rw [fails] at succeeds
              contradiction
        · obtain ⟨phase, isList, meets⟩ :=
            Area.meetsExtended_iff.mp extended
          exact Or.inr
            ⟨fails, _, .area wanted walked visits next isList, meets⟩
  · rw [← lists] at fails
    rw [run_of_error fails]
    exact Or.inr ⟨rfl, region, .root split walked, extended⟩

/--
A run fails exactly for an extended reference that one of its walks meets.
-/
theorem outcome_eq_error_iff
    {fault : Fault} :
    (dump.run [] parts).outcome = .error fault ↔
      fault = .extendedShaderRecord ∧ dump.MeetsExtended parts := by
  rcases dump.run_cases parts with
    ⟨succeeds, plain⟩ | ⟨fails, extended⟩
  · constructor
    · intro fails
      rw [succeeds] at fails
      contradiction
    · exact fun meets => absurd meets.2 plain
  · constructor
    · intro failsSo
      rw [fails] at failsSo
      exact ⟨(Except.error.inj failsSo).symm, extended⟩
    · rintro ⟨rfl, _⟩
      exact fails

end VideoCore.Dump
