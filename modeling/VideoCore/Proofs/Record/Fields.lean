import VideoCore.Record.Layout

namespace VideoCore

/-!
# Laws of named values

Setting a name changes its own value only, and a name that is new goes to the
end.
-/

namespace Fields

/-- The first field of a name is the one that is found. -/
theorem get?_cons
    (own name : String)
    (value : Value)
    (rest : Fields) :
    get? ((own, value) :: rest) name =
      if own = name then some value else rest.get? name := by
  rw [get?, List.lookup_cons]
  by_cases same : own = name
  · subst same
    simp
  · have different : (name == own) = false := by
      simpa using Ne.symm same
    simp [get?, same, different]

/-- Setting a name changes the value of this name only. -/
theorem get?_set
    (fields : Fields)
    (name other : String)
    (value : Value) :
    (fields.set name value).get? other =
      if name = other then some value else fields.get? other := by
  induction fields with
  | nil =>
      rw [set, get?_cons]
  | cons first rest inductionHypothesis =>
      obtain ⟨firstName, old⟩ := first
      by_cases isFirst : firstName = name
      · subst isFirst
        rw [set, if_pos rfl, get?_cons, get?_cons]
        by_cases same : firstName = other <;> simp [same]
      · rw [set, if_neg isFirst, get?_cons, get?_cons,
          inductionHypothesis]
        by_cases same : firstName = other
        · subst same
          simp [Ne.symm isFirst]
        · simp [same]

/-- Fields that are kept have the same values as before. -/
theorem get?_filter
    (fields : Fields)
    {kept : String → Bool}
    {name : String}
    (isKept : kept name = true) :
    get? (fields.filter fun (field, _) => kept field) name =
      fields.get? name := by
  induction fields with
  | nil =>
      rfl
  | cons first rest inductionHypothesis =>
      obtain ⟨firstName, value⟩ := first
      rw [List.filter_cons, get?_cons]
      by_cases firstKept : kept firstName = true
      · rw [if_pos firstKept, get?_cons, inductionHypothesis]
      · have different : firstName ≠ name := by
          rintro rfl
          exact firstKept isKept
        rw [if_neg firstKept, inductionHypothesis, if_neg different]

/-- Fields with different names are all found. -/
theorem get?_of_mem
    {fields : Fields}
    (distinct : (fields.map Prod.fst).Nodup)
    {field : String × Value}
    (member : field ∈ fields) :
    fields.get? field.1 = some field.2 := by
  induction fields with
  | nil =>
      contradiction
  | cons first rest inductionHypothesis =>
      rcases first with ⟨name, value⟩
      rw [List.map_cons, List.nodup_cons] at distinct
      rcases distinct with ⟨unique, restDistinct⟩
      rw [get?_cons]
      rcases List.mem_cons.mp member with rfl | inRest
      · rw [if_pos rfl]
      · have different : name ≠ field.1 := by
          intro same
          exact unique (List.mem_map.mpr ⟨field, inRest, same.symm⟩)
        rw [if_neg different]
        exact inductionHypothesis restDistinct inRest

theorem get?_eq_none
    {fields : Fields}
    {name : String}
    (unknown : name ∉ fields.map Prod.fst) :
    fields.get? name = none := by
  induction fields with
  | nil =>
      rfl
  | cons first rest inductionHypothesis =>
      rw [List.map_cons, List.mem_cons, not_or] at unknown
      rw [get?_cons, if_neg (Ne.symm unknown.1),
        inductionHypothesis unknown.2]

/-- Setting a name to the value that it has changes nothing. -/
theorem set_of_get?
    {fields : Fields}
    {name : String}
    {value : Value}
    (given : fields.get? name = some value) :
    fields.set name value = fields := by
  induction fields with
  | nil =>
      contradiction
  | cons first rest inductionHypothesis =>
      rcases first with ⟨firstName, firstValue⟩
      rw [get?_cons] at given
      rw [set]
      split at given
      · next same =>
          cases given
          rw [if_pos same, same]
      · next different =>
          rw [if_neg different, inductionHypothesis given]

/-- Setting a name that there is already keeps all names in their places. -/
theorem names_set_of_mem
    {fields : Fields}
    {name : String}
    (known : name ∈ fields.map Prod.fst)
    (value : Value) :
    (fields.set name value).map Prod.fst = fields.map Prod.fst := by
  induction fields with
  | nil =>
      contradiction
  | cons first rest inductionHypothesis =>
      rw [set]
      by_cases same : first.1 = name
      · rw [if_pos same, List.map_cons, List.map_cons, same]
      · have inRest : name ∈ rest.map Prod.fst :=
          (List.mem_cons.mp known).resolve_left (Ne.symm same)
        rw [if_neg same, List.map_cons, List.map_cons,
          inductionHypothesis inRest]

theorem set_append
    {before : Fields}
    {name : String}
    (unknown : name ∉ before.map Prod.fst)
    (rest : Fields)
    (value : Value) :
    (before ++ rest).set name value = before ++ rest.set name value := by
  induction before with
  | nil =>
      rfl
  | cons first others inductionHypothesis =>
      rcases first with ⟨firstName, old⟩
      rw [List.map_cons, List.mem_cons, not_or] at unknown
      rw [List.cons_append, set, if_neg (Ne.symm unknown.1),
        inductionHypothesis unknown.2, List.cons_append]

/-- A new field is added behind all others. -/
theorem set_of_not_mem
    {fields : Fields}
    {name : String}
    (unknown : name ∉ fields.map Prod.fst)
    (value : Value) :
    fields.set name value = fields ++ [(name, value)] := by
  have appended := set_append unknown [] value
  rwa [List.append_nil] at appended

/-! ## Setting several names -/

/-- Fields that are all set anew are replaced. -/
theorem update_append
    {before : Fields}
    {news : Fields}
    (distinct : (before.map Prod.fst ++ news.map Prod.fst).Nodup)
    {olds : Fields}
    (sameNames : olds.map Prod.fst = news.map Prod.fst) :
    (before ++ olds).update news = before ++ news := by
  -- Field by field, what has been set passes from the old fields to `before`.
  induction news generalizing before olds with
  | nil =>
      rw [List.map_nil, List.map_eq_nil_iff] at sameNames
      rw [sameNames]
      rfl
  | cons new rest inductionHypothesis =>
      rcases new with ⟨name, value⟩
      cases olds with
      | nil =>
          contradiction
      | cons old others =>
          rcases old with ⟨oldName, oldValue⟩
          rw [List.map_cons, List.map_cons, List.cons.injEq] at sameNames
          obtain ⟨rfl, othersNames⟩ := sameNames
          have unknown : oldName ∉ before.map Prod.fst := by
            intro member
            exact (List.nodup_append.mp distinct).2.2 oldName member oldName
              List.mem_cons_self rfl
          have replaced :
              (before ++ (oldName, oldValue) :: others).set oldName
                  value =
                (before ++ [(oldName, value)]) ++ others := by
            rw [set_append unknown, set, if_pos rfl, List.append_assoc,
              List.singleton_append]
          have stillDistinct :
              ((before ++ [(oldName, value)]).map Prod.fst ++
                rest.map Prod.fst).Nodup := by
            simpa using distinct
          rw [update, List.foldl_cons]
          dsimp only
          rw [replaced]
          exact (inductionHypothesis stillDistinct othersNames).trans
            (List.append_assoc ..)

/-- Setting all fields anew leaves nothing of the old values. -/
theorem update_of_names
    {olds news : Fields}
    (distinct : (news.map Prod.fst).Nodup)
    (sameNames : olds.map Prod.fst = news.map Prod.fst) :
    olds.update news = news := by
  have fromStart : (([] : Fields).map Prod.fst ++ news.map Prod.fst).Nodup :=
    distinct
  exact update_append fromStart sameNames

/-- After an update, new values come before old ones. -/
theorem get?_update
    {news : Fields}
    (distinct : (news.map Prod.fst).Nodup)
    (fields : Fields)
    (name : String) :
    (fields.update news).get? name =
      (news.get? name).or (fields.get? name) := by
  induction news generalizing fields with
  | nil =>
      rfl
  | cons new rest inductionHypothesis =>
      rcases new with ⟨newName, value⟩
      rw [List.map_cons, List.nodup_cons] at distinct
      rcases distinct with ⟨unique, restDistinct⟩
      rw [update, List.foldl_cons]
      refine (inductionHypothesis restDistinct _).trans ?_
      rw [get?_set, get?_cons]
      by_cases same : newName = name
      · rw [if_pos same, if_pos same, ← same, get?_eq_none unique]
        rfl
      · rw [if_neg same, if_neg same]

end Fields

/-- A part changes the value of its own name only. -/
theorem Part.get?_record
    {part : Part}
    {name : String}
    (other : part.name? ≠ some name)
    (fields : Fields)
    (value? : Option Value) :
    (part.record fields value?).get? name = fields.get? name := by
  cases named : part.name? with
  | none =>
      simp only [record, named]
  | some ownName =>
      have different : ownName ≠ name := fun same =>
        other (same ▸ named)
      cases value? with
      | none =>
          simp only [record, named]
      | some value =>
          simp only [record, named, Fields.get?_set, different, if_false]

end VideoCore
