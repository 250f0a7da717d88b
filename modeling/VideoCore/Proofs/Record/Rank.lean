import VideoCore.Record.Basic

namespace VideoCore

/-!
# Fields by rank

Sorting fields by rank keeps all of them (`Fields.sortByRank_perm`), puts them
in order (`Fields.pairwise_sortByRank`), and changes nothing if they are in
order already (`Fields.sortByRank_of_pairwise`).  The items of a record are its
fields by rank.
-/

namespace Fields

variable {rank : String → Nat} {fields : Fields}

theorem insertByRank_perm
    (rank : String → Nat)
    (field : String × Value)
    (fields : Fields) :
    (insertByRank rank field fields).Perm (field :: fields) := by
  induction fields with
  | nil =>
      exact .refl _
  | cons first rest inductionHypothesis =>
      rw [insertByRank]
      split
      · exact .refl _
      · exact (inductionHypothesis.cons first).trans (.swap field first rest)

/-- Sorting changes the order only. -/
theorem sortByRank_perm
    (rank : String → Nat)
    (fields : Fields) :
    (fields.sortByRank rank).Perm fields := by
  induction fields with
  | nil =>
      exact .refl _
  | cons first rest inductionHypothesis =>
      rw [sortByRank]
      exact (insertByRank_perm rank first _).trans
        (inductionHypothesis.cons first)

theorem pairwise_insertByRank
    (field : String × Value)
    (ordered :
      fields.Pairwise fun first second =>
        rank first.1 ≤ rank second.1) :
    (insertByRank rank field fields).Pairwise fun first second =>
      rank first.1 ≤ rank second.1 := by
  induction fields with
  | nil =>
      exact List.pairwise_singleton _ _
  | cons first rest inductionHypothesis =>
      obtain ⟨head, tail⟩ := List.pairwise_cons.mp ordered
      rw [insertByRank]
      split
      · next before =>
          refine List.pairwise_cons.mpr ⟨?_, ordered⟩
          intro other member
          rcases List.mem_cons.mp member with rfl | inRest
          · exact before
          · exact Nat.le_trans before (head other inRest)
      · next behind =>
          refine
            List.pairwise_cons.mpr ⟨?_, inductionHypothesis tail⟩
          intro other member
          have inserted := (insertByRank_perm rank field rest).mem_iff.mp member
          rcases List.mem_cons.mp inserted with rfl | inRest
          · exact Nat.le_of_not_le behind
          · exact head other inRest

/-- Sorted fields are in the order of their ranks. -/
theorem pairwise_sortByRank
    (rank : String → Nat)
    (fields : Fields) :
    (fields.sortByRank rank).Pairwise fun first second =>
      rank first.1 ≤ rank second.1 := by
  induction fields with
  | nil =>
      exact .nil
  | cons first rest inductionHypothesis =>
      exact pairwise_insertByRank first inductionHypothesis

/-- Fields that are in order keep their places. -/
theorem sortByRank_of_pairwise
    (ordered :
      fields.Pairwise fun first second =>
        rank first.1 ≤ rank second.1) :
    fields.sortByRank rank = fields := by
  induction fields with
  | nil =>
      rfl
  | cons first rest inductionHypothesis =>
      obtain ⟨head, tail⟩ := List.pairwise_cons.mp ordered
      rw [sortByRank, inductionHypothesis tail]
      cases rest with
      | nil =>
          rfl
      | cons second others =>
          rw [insertByRank, if_pos (head second List.mem_cons_self)]

end Fields

namespace Record

variable {record : Record}

/-- Every item is that of a field. -/
theorem exists_field_of_mem_items
    {item : Option Nat × String × Value}
    (member : item ∈ record.items) :
    ∃ field ∈ record.fields,
      item =
        (record.type.layout.offsets.lookup field.1, field.1, field.2) := by
  obtain ⟨field, sorted, rfl⟩ := List.mem_map.mp member
  exact ⟨field, (Fields.sortByRank_perm _ _).mem_iff.mp sorted, rfl⟩

/-- Every field has an item. -/
theorem mem_items
    {field : String × Value}
    (member : field ∈ record.fields) :
    (record.type.layout.offsets.lookup field.1, field.1, field.2) ∈
      record.items :=
  List.mem_map.mpr
    ⟨field, (Fields.sortByRank_perm _ _).mem_iff.mpr member, rfl⟩

/-- The names of the items are those of the fields. -/
theorem names_of_items
    (record : Record) :
    (record.items.map fun item => item.2.1).Perm
      (record.fields.map Prod.fst) := by
  rw [items, List.map_map]
  exact (Fields.sortByRank_perm _ _).map Prod.fst

/-- Items stand in the order of their offsets. -/
theorem pairwise_items
    (record : Record) :
    record.items.Pairwise fun first second =>
      ∀ low high,
        first.1 = some low → second.1 = some high → low ≤ high := by
  refine List.pairwise_map.mpr ?_
  refine
    (Fields.pairwise_sortByRank record.type.rank record.fields).imp ?_
  intro first second ordered low high lowIs highIs
  dsimp only at lowIs highIs
  rwa [RecordType.rank, lowIs, RecordType.rank, highIs] at ordered

/-- Fields that are in order are the items. -/
theorem items_of_pairwise
    (ordered :
      record.fields.Pairwise fun first second =>
        record.type.rank first.1 ≤ record.type.rank second.1) :
    record.items =
      record.fields.map fun (name, value) =>
        (record.type.layout.offsets.lookup name, name, value) := by
  rw [items, Fields.sortByRank_of_pairwise ordered]

end Record

end VideoCore
