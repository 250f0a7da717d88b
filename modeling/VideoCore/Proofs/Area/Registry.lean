import VideoCore.Area.Registry

namespace VideoCore.Registry

/-!
# Laws of the registry

Requesting areas extends the registry at its end, by those areas that it does
not have yet, each of them once.
-/

variable {registry : Registry} {area : Area} {areas : List Area}

theorem add_of_mem
    (known : area ∈ registry) :
    registry.add area = registry := by
  simp [add, known]

theorem add_of_not_mem
    (new : area ∉ registry) :
    registry.add area = registry ++ [area] := by
  simp [add, new]

theorem mem_add
    {candidate : Area} :
    candidate ∈ registry.add area ↔
      candidate ∈ registry ∨ candidate = area := by
  by_cases known : area ∈ registry
  · rw [add_of_mem known]
    constructor
    · exact Or.inl
    · rintro (member | rfl)
      · exact member
      · exact known
  · simp [add_of_not_mem known]

/-- The areas from before stay where they are. -/
theorem add_prefix : registry <+: registry.add area := by
  by_cases known : area ∈ registry
  · exact (add_of_mem known).symm ▸ List.prefix_rfl
  · rw [add_of_not_mem known]
    exact List.prefix_append _ _

theorem nodup_add
    (unique : registry.Nodup) :
    (registry.add area).Nodup := by
  by_cases known : area ∈ registry
  · rwa [add_of_mem known]
  · rw [add_of_not_mem known, List.nodup_append]
    refine ⟨unique, by simp, ?_⟩
    intro earlier member later isArea same
    rw [List.mem_singleton] at isArea
    subst isArea same
    exact known member

@[simp] theorem addAll_nil : registry.addAll [] = registry :=
  rfl

@[simp] theorem addAll_cons :
    registry.addAll (area :: areas) =
      (registry.add area).addAll areas :=
  rfl

@[simp] theorem addAll_append
    {later : List Area} :
    registry.addAll (areas ++ later) =
      (registry.addAll areas).addAll later :=
  List.foldl_append

/-- Exactly the requested areas are new. -/
theorem mem_addAll
    {candidate : Area} :
    candidate ∈ registry.addAll areas ↔
      candidate ∈ registry ∨ candidate ∈ areas := by
  induction areas generalizing registry with
  | nil =>
      simp
  | cons first rest inductionHypothesis =>
      rw [addAll_cons, inductionHypothesis, mem_add, List.mem_cons,
        or_assoc]

/-- What is registered stays, in its place. -/
theorem addAll_prefix : registry <+: registry.addAll areas := by
  induction areas generalizing registry with
  | nil =>
      exact List.prefix_rfl
  | cons first rest inductionHypothesis =>
      exact add_prefix.trans inductionHypothesis

/-- Adding areas does not make a registry hold one twice. -/
theorem nodup_addAll
    (unique : registry.Nodup) :
    (registry.addAll areas).Nodup := by
  induction areas generalizing registry with
  | nil =>
      exact unique
  | cons first rest inductionHypothesis =>
      exact inductionHypothesis (nodup_add unique)

/-- Requests for known areas change nothing. -/
theorem addAll_of_subset
    (known : areas ⊆ registry) :
    registry.addAll areas = registry := by
  induction areas with
  | nil =>
      rfl
  | cons first rest inductionHypothesis =>
      rw [addAll_cons, add_of_mem (known (by simp))]
      exact inductionHypothesis fun later member =>
        known (List.mem_cons_of_mem _ member)

/--
The areas among some that are not known, in the order of their first request.
-/
def unknown
    (registry : Registry)
    (areas : List Area) : List Area :=
  (areas.filter fun area => !registry.contains area).eraseDups

/-- The areas that are not known follow those that are. -/
theorem addAll_eq_append
    (registry : Registry)
    (areas : List Area) :
    registry.addAll areas = registry ++ registry.unknown areas := by
  induction areas generalizing registry with
  | nil =>
      simp [unknown]
  | cons first rest inductionHypothesis =>
      rw [addAll_cons, inductionHypothesis]
      by_cases known : first ∈ registry
      · simp [add_of_mem known, unknown, known]
      · have later :
            (rest.filter fun area => !(registry ++ [first]).contains area) =
              (rest.filter fun area => !registry.contains area).filter
                fun area => !area == first := by
          rw [List.filter_filter]
          congr 1
          funext area
          rw [List.contains_append, List.contains_cons, List.contains_nil,
            Bool.or_false, Bool.not_or, Bool.and_comm]
        simp only [add_of_not_mem known, unknown, List.filter_cons,
          List.contains_eq_mem, known, decide_false, Bool.not_false,
          if_true, List.eraseDups_cons, List.append_assoc,
          List.singleton_append]
        simp only [← List.contains_eq_mem, later]

/-- From the start, areas are registered in the order of their first request. -/
theorem addAll_nil_eq
    (areas : List Area) :
    addAll [] areas = areas.eraseDups := by
  have unregistered :
      (areas.filter fun area => !List.contains [] area) = areas :=
    List.filter_eq_self.mpr fun _ _ => rfl
  rw [addAll_eq_append, List.nil_append, unknown, unregistered]

end VideoCore.Registry
