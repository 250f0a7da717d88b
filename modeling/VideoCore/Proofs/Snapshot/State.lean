import VideoCore.Proofs.Outcome
import VideoCore.Proofs.Record.Fields
import VideoCore.Proofs.Record.Layout
import VideoCore.Snapshot.Container

namespace VideoCore

/-!
# The state of an accepted snapshot

A container that is accepted has a head that has been read.  Every register in
it is an integer.
-/

/-- Whether a part is an integer shown in hexadecimal. -/
def Part.isWord : Part → Bool
  | .field _ (.word _) _ => true
  | _ => false

/-- A part that is an integer is read as one. -/
theorem Part.exists_read_of_isWord
    {part : Part}
    (isWord : part.isWord = true)
    {fields : Fields}
    {bytes rest : Bytes}
    {value? : Option Value}
    (reads : part.read fields bytes = .ok (value?, rest)) :
    ∃ number, value? = some (.integer number) := by
  unfold Part.isWord at isWord
  split at isWord
  · simp only [Part.read, Encoding.read] at reads
    obtain ⟨⟨value, left⟩, stored, gives⟩ :=
      Outcome.exists_of_bind_eq_ok reads
    obtain ⟨⟨taken, other⟩, _, valueIs⟩ :=
      Outcome.exists_of_bind_eq_ok stored
    cases valueIs
    cases gives
    exact ⟨_, rfl⟩
  · contradiction

/-- A name that stands for an integer throughout a layout is read as one. -/
theorem Layout.exists_integer_of_readFrom
    {name : String}
    {layout : Layout}
    {fields final : Fields}
    {bytes rest : Bytes}
    (reads : layout.readFrom fields bytes = .ok (final, rest))
    (words :
      ∀ part ∈ layout, part.name? = some name → part.isWord = true)
    (known :
      (∃ number, fields.get? name = some (.integer number)) ∨
        name ∈ layout.names) :
    ∃ number, final.get? name = some (.integer number) := by
  -- From part to part the name has its integer already or is still to come.
  induction layout generalizing fields bytes with
  | nil =>
      cases reads
      rcases known with before | named
      · exact before
      · exact absurd named List.not_mem_nil
  | cons part others inductionHypothesis =>
      obtain ⟨ownWord, otherWords⟩ := List.forall_mem_cons.mp words
      obtain ⟨⟨value?, left⟩, own, later⟩ :=
        Outcome.exists_of_bind_eq_ok reads
      apply inductionHypothesis later otherWords
      by_cases named : part.name? = some name
      · obtain ⟨number, rfl⟩ :=
          Part.exists_read_of_isWord (ownWord named) own
        refine Or.inl ⟨number, ?_⟩
        simp only [Part.record, named, Fields.get?_set, if_true]
      · rcases known with ⟨number, before⟩ | inLayout
        · exact Or.inl
            ⟨number, (Part.get?_record named fields value?).trans before⟩
        · right
          rw [names, List.mem_filterMap] at inLayout ⊢
          obtain ⟨found, member, isFound⟩ := inLayout
          rcases List.mem_cons.mp member with rfl | inOthers
          · exact absurd isFound named
          · exact ⟨found, inOthers, isFound⟩

namespace Snapshot

/-- A container that is accepted has a head. -/
theorem exists_readRecord_of_decode
    {input : Bytes}
    {snapshot : Snapshot}
    (accepted : decode input = .ok snapshot) :
    ∃ rest,
      readRecord hangState .header 4 (input.drop 4) =
        .ok (snapshot.state, rest) := by
  unfold decode at accepted
  split at accepted
  · contradiction
  · dsimp only at accepted
    split at accepted
    · contradiction
    · obtain ⟨⟨state, rest⟩, head, accepted⟩ :=
        Outcome.exists_of_bind_eq_ok accepted
      obtain ⟨⟨entries, _⟩, _, accepted⟩ :=
        Outcome.exists_of_bind_eq_ok accepted
      obtain ⟨⟨buffers, _⟩, _, accepted⟩ :=
        Outcome.exists_of_bind_eq_ok accepted
      cases accepted
      exact ⟨rest, head⟩

/-- The registers of an accepted snapshot are integers. -/
theorem exists_integer_of_decode
    {input : Bytes}
    {snapshot : Snapshot}
    (accepted : decode input = .ok snapshot)
    {name : String}
    (isRegister : name ∈ stateWords) :
    ∃ number, snapshot.state.get name = .integer number := by
  have shape :
      ∀ register ∈ stateWords,
        isKept register = true ∧
          register ∈ hangState.layout.names ∧
          ∀ part ∈ hangState.layout,
            part.name? = some register → part.isWord = true := by
    decide +kernel
  obtain ⟨kept, named, words⟩ := shape name isRegister
  obtain ⟨rest, head⟩ := exists_readRecord_of_decode accepted
  unfold readRecord at head
  dsimp only at head
  split at head
  · contradiction
  · obtain ⟨record, reads, same⟩ := Outcome.exists_of_bind_eq_ok head
    have stateIs : record.fields = snapshot.state :=
      congrArg Prod.fst (Except.ok.inj same)
    obtain ⟨fields, left, fieldsRead, rfl⟩ :=
      RecordType.read_eq_ok_iff.mp reads
    obtain ⟨number, found⟩ :=
      Layout.exists_integer_of_readFrom fieldsRead words (Or.inr named)
    refine ⟨number, ?_⟩
    rw [← stateIs, Fields.get, Fields.get?_filter fields kept, found]
    rfl

end Snapshot

end VideoCore
