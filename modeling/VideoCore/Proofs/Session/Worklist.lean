import VideoCore.Proofs.Dump.Worklist
import VideoCore.Proofs.Session.Registry

namespace VideoCore.Session

/-!
# Sessions that have explored a dump

After a run with its areas the registry of a session is the least set of areas
that is closed under requests, in the order of discovery.
-/

/--
A run with its areas, unless it fails, is a correct worklist.  It registers the
least set of areas that contains what the root lists request and what its
members request.  Every member is walked once, in the order of discovery, in a
section of its own.  Another sweep finds nothing more, and another order of the
root lists gives the same set.
-/
theorem registry_isLeast
    {dump : Dump}
    {parts : DumpParts}
    {explored : Session}
    (wantsAreas : parts.areas = true)
    (performed :
      (start dump).perform (.everything parts) = (explored, .ok ())) :
    IsLeast {areas : Set Area | dump.IsClosed areas}
        {area | area ∈ explored.registry} ∧
      explored.registry.Nodup ∧
      explored.registry =
        Registry.addAll []
          (Event.requests
            ((start dump).runOf (.everything parts)).events) ∧
      ((start dump).runOf (.everything parts)).events =
        dump.summaryOf parts ++ dump.controlLists.events ++
          Sweep.eventsOf dump.visit explored.registry ∧
      (∀ area ∈ explored.registry,
        (dump.visit area).outcome = .ok () ∧
          (∃ bytes, dump.IsSection area bytes) ∧
          Event.headings (dump.visit area).events = [area.title]) ∧
      (explored.perform .areas).1.registry = explored.registry ∧
      (explored.perform .areas).2 = .ok () ∧
      (∀ order : List (String × Walk.ListRegion),
        order.Perm dump.roots →
        (dump.explore order).outcome = .ok () ∧
          ∀ area,
            area ∈ Registry.addAll []
                (Event.requests (dump.explore order).events) ↔
              area ∈ explored.registry) := by
  have runIs := runOf_start dump parts
  rw [Dump.run_eq_explore wantsAreas] at runIs
  rw [perform, runIs, Prod.mk.injEq] at performed
  obtain ⟨rfl, succeeds⟩ := performed
  obtain ⟨registry, explores⟩ :=
    Dump.exists_explores (.refl dump.roots) succeeds
  -- The summary requests nothing, so the exploration alone fills the registry.
  have registered :
      Registry.addAll (start dump).registry
          (Event.requests
            (dump.summaryOf parts ++
              (dump.explore dump.roots).events)) =
        registry := by
    rw [registry_start, Event.requests_append, Dump.requests_summaryOf,
      List.nil_append]
    exact explores.registry_eq
  have again :
      ((start dump).after
          (dump.summaryOf parts ++
            (dump.explore dump.roots).events)).runOf .areas =
        ⟨Sweep.eventsOf dump.visit registry, .ok ()⟩ := by
    rw [← explores.areas_again, ← registered]
    rfl
  rw [perform, again, runIs]
  simp only [after, registered]
  refine ⟨explores.isLeast, explores.unique, ?_, ?_, ?_, ?_, trivial, ?_⟩
  · rw [← registry_start dump]
    exact registered.symm
  · rw [explores.events_eq, Dump.controlLists_eq, List.append_assoc]
  · exact fun area member => explores.section_of_mem member
  · exact Registry.addAll_of_subset
      (explores.subset_of_requests (List.Subset.refl registry))
  · exact fun order reordered =>
      explores.mem_iff_of_perm (.refl dump.roots) reordered

/-- A hang whose rendering list branches into itself. -/
def loopingHang : Dump where
  snapshot :=
    { version := 0
      state :=
        [("start_bin", .integer 0), ("ct0ea", .integer 0),
          ("start_render", .integer 0x1000), ("ct1ea", .integer 0x1006)]
      buffers := [⟨1, 0x1000, #[17, 0x00, 0x10, 0x00, 0x00, 0x00], some 0⟩]
      trailing := 0 }
  disassembler := Shader.disassemble
  hexdumps := true

/-- The exploration of a list that branches into itself ends with one area. -/
theorem registry_isLeast_of_loop :
    ((start loopingHang).perform (.everything ⟨true, true⟩)).2 = .ok () ∧
      ((start loopingHang).perform
        (.everything ⟨true, true⟩)).1.registry.length = 1 ∧
      IsLeast {areas : Set Area | loopingHang.IsClosed areas}
        {area |
          area ∈
            ((start loopingHang).perform
              (.everything ⟨true, true⟩)).1.registry} := by
  have succeeds :
      ((start loopingHang).perform (.everything ⟨true, true⟩)).2 =
        .ok () := by
    decide +kernel
  refine ⟨succeeds, by decide +kernel, ?_⟩
  exact (registry_isLeast rfl (Prod.ext rfl succeeds)).1

end VideoCore.Session
