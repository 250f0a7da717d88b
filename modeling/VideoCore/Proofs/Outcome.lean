import VideoCore.Fault

namespace VideoCore.Outcome

/-!
# Laws of outcomes

What a computation that may fail does, in terms of its steps.
-/

variable {α β : Type}

@[simp] theorem ok_bind
    (value : α)
    (next : α → Except Fault β) :
    (Except.ok value >>= next) = next value :=
  rfl

@[simp] theorem error_bind
    (fault : Fault)
    (next : α → Except Fault β) :
    ((Except.error fault : Except Fault α) >>= next) = .error fault :=
  rfl

/-- A computation that succeeds has succeeded in its first step. -/
theorem exists_of_bind_eq_ok
    {first : Except Fault α}
    {next : α → Except Fault β}
    {result : β}
    (succeeds : (first >>= next) = .ok result) :
    ∃ value, first = .ok value ∧ next value = .ok result := by
  cases first with
  | error fault =>
      contradiction
  | ok value =>
      exact ⟨value, rfl, succeeds⟩

/-- A computation that fails has failed in its first step or after it. -/
theorem of_bind_eq_error
    {first : Except Fault α}
    {next : α → Except Fault β}
    {fault : Fault}
    (fails : (first >>= next) = .error fault) :
    first = .error fault ∨
      ∃ value, first = .ok value ∧ next value = .error fault := by
  cases first with
  | error other =>
      cases fails
      exact .inl rfl
  | ok value =>
      exact .inr ⟨value, rfl, fails⟩

/-- What becomes of a result makes no difference to a fault. -/
theorem eq_error_of_map
    {outcome : Except Fault α}
    {result : α → β}
    {fault : Fault}
    (fails : outcome.map result = .error fault) :
    outcome = .error fault := by
  cases outcome with
  | ok value =>
      contradiction
  | error other =>
      cases fails
      rfl

/-- A check that succeeds for every item succeeds for all of them. -/
theorem forM_eq_ok
    {items : List α}
    {check : α → Except Fault Unit}
    (succeeds : ∀ item ∈ items, check item = .ok ()) :
    items.forM check = .ok () := by
  induction items with
  | nil =>
      rfl
  | cons first rest inductionHypothesis =>
      rw [List.forM_eq_forM, List.forM_cons, succeeds first (by simp)]
      exact inductionHypothesis fun item member =>
        succeeds item (List.mem_cons_of_mem _ member)

/-- A check that succeeds for all items succeeds for each of them. -/
theorem eq_ok_of_forM
    {items : List α}
    {check : α → Except Fault Unit}
    (succeeds : items.forM check = .ok ())
    {item : α}
    (member : item ∈ items) :
    check item = .ok () := by
  induction items with
  | nil =>
      exact absurd member List.not_mem_nil
  | cons first rest inductionHypothesis =>
      rw [List.forM_eq_forM, List.forM_cons] at succeeds
      obtain ⟨_, firstSucceeds, restSucceeds⟩ := exists_of_bind_eq_ok succeeds
      rcases List.mem_cons.mp member with rfl | later
      · exact firstSucceeds
      · exact inductionHypothesis restSucceeds later

/-- Items each of which has a good result have a list of good results. -/
theorem exists_mapM_eq_ok
    {items : List α}
    {step : α → Except Fault β}
    {good : β → Prop}
    (succeeds :
      ∀ item ∈ items, ∃ result, step item = .ok result ∧ good result) :
    ∃ results,
      items.mapM step = .ok results ∧
        ∀ result ∈ results, good result := by
  induction items with
  | nil =>
      exact ⟨[], rfl, by simp⟩
  | cons first rest inductionHypothesis =>
      obtain ⟨result, done, isGood⟩ := succeeds first (by simp)
      obtain ⟨results, restDone, areGood⟩ :=
        inductionHypothesis fun item member =>
          succeeds item (List.mem_cons_of_mem _ member)
      refine ⟨result :: results, ?_,
        List.forall_mem_cons.mpr ⟨isGood, areGood⟩⟩
      rw [List.mapM_cons, done, restDone]
      rfl

/-- A list of results has the result of the first item in front. -/
theorem exists_of_mapM_cons_eq_ok
    {first : α}
    {rest : List α}
    {step : α → Except Fault β}
    {results : List β}
    (succeeds : (first :: rest).mapM step = .ok results) :
    ∃ result others,
      results = result :: others ∧
        step first = .ok result ∧
        rest.mapM step = .ok others := by
  rw [List.mapM_cons] at succeeds
  obtain ⟨result, done, succeeds⟩ := exists_of_bind_eq_ok succeeds
  obtain ⟨others, othersDone, same⟩ := exists_of_bind_eq_ok succeeds
  cases same
  exact ⟨result, others, rfl, done, othersDone⟩

/-- Every result is that of an item. -/
theorem exists_of_mem_mapM
    {items : List α}
    {step : α → Except Fault β}
    {results : List β}
    (succeeds : items.mapM step = .ok results)
    {result : β}
    (member : result ∈ results) :
    ∃ item ∈ items, step item = .ok result := by
  induction items generalizing results with
  | nil =>
      cases succeeds
      exact absurd member List.not_mem_nil
  | cons first rest inductionHypothesis =>
      obtain ⟨found, others, rfl, done, othersDone⟩ :=
        exists_of_mapM_cons_eq_ok succeeds
      rcases List.mem_cons.mp member with rfl | inOthers
      · exact ⟨first, by simp, done⟩
      · obtain ⟨item, itemMember, itemDone⟩ :=
          inductionHypothesis othersDone inOthers
        exact ⟨item, List.mem_cons_of_mem _ itemMember, itemDone⟩

/-- Results keep the order of their items. -/
theorem pairwise_of_mapM
    {items : List α}
    {step : α → Except Fault β}
    {results : List β}
    {before : α → α → Prop}
    {after : β → β → Prop}
    (succeeds : items.mapM step = .ok results)
    (ordered : items.Pairwise before)
    (keeps :
      ∀ first second firstResult secondResult,
        before first second →
        step first = .ok firstResult →
        step second = .ok secondResult →
        after firstResult secondResult) :
    results.Pairwise after := by
  induction items generalizing results with
  | nil =>
      cases succeeds
      exact List.Pairwise.nil
  | cons first rest inductionHypothesis =>
      obtain ⟨result, others, rfl, done, othersDone⟩ :=
        exists_of_mapM_cons_eq_ok succeeds
      obtain ⟨head, tail⟩ := List.pairwise_cons.mp ordered
      refine
        List.pairwise_cons.mpr
          ⟨?_, inductionHypothesis othersDone tail⟩
      intro other member
      obtain ⟨item, itemMember, itemDone⟩ :=
        exists_of_mem_mapM othersDone member
      exact keeps first item result other (head item itemMember) done
        itemDone

end VideoCore.Outcome
