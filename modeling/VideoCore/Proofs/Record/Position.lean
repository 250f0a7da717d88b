import VideoCore.Proofs.Record.Placement
import VideoCore.Proofs.Record.Storage

namespace VideoCore

/-!
# Positions of parts

A part of a layout stands behind the bytes of all parts before it.  This is the
offset that the layout gives its name (`Layout.Places.lookup_eq`), and every
byte of a layout is one of a part (`Layout.exists_places_of_lt`).

What a record is read as or written as can therefore be told part by part, at
the positions of the parts (`Layout.Yields.isReadAs`,
`Layout.isWrittenAs_of_write`).
-/

namespace Layout

/-- Whether a part of a layout stands at an offset from the beginning. -/
inductive Places : Layout → Part → Nat → Prop where
  | here (part : Part) (rest : Layout) :
      Places (part :: rest) part 0
  | later
      {first part : Part}
      {rest : Layout}
      {size offset : Nat}
      (sizeIs : first.size? = some size)
      (places : Places rest part offset) :
      Places (first :: rest) part (size + offset)

variable {layout rest : Layout} {first part other : Part} {name : String}
  {size own offset index : Nat}

/-- If all names are distinct, every name is that of one part only. -/
theorem eq_of_name?
    (distinct : layout.names.Nodup)
    (member : part ∈ layout)
    (named : part.name? = some name)
    (otherMember : other ∈ layout)
    (otherNamed : other.name? = some name) :
    part = other := by
  induction layout with
  | nil =>
      contradiction
  | cons first rest inductionHypothesis =>
      obtain ⟨restDistinct, apart⟩ := nodup_names_cons distinct
      rcases List.mem_cons.mp member with rfl | inRest
      · rcases List.mem_cons.mp otherMember with rfl | otherInRest
        · rfl
        · exact absurd named (apart name (mem_names otherInRest otherNamed))
      · rcases List.mem_cons.mp otherMember with rfl | otherInRest
        · exact absurd otherNamed (apart name (mem_names inRest named))
        · exact inductionHypothesis restDistinct inRest otherInRest

theorem Places.mem
    (places : Places layout part offset) :
    part ∈ layout := by
  induction places with
  | here part rest =>
      exact List.mem_cons_self
  | later sizeIs places inductionHypothesis =>
      exact List.mem_cons_of_mem _ inductionHypothesis

/-- A named part stands at the offset of its name. -/
theorem Places.lookup_eq
    (places : Places layout part offset)
    (distinct : layout.names.Nodup)
    (named : part.name? = some name)
    (start : Nat) :
    (layout.offsetsFrom start).lookup name = some (start + offset) := by
  induction places generalizing start with
  | here part rest =>
      have unknown : name ∉ names rest := fun member =>
        (nodup_names_cons distinct).2 name member named
      rw [lookup_offsetsFrom_of_named named unknown, Nat.add_zero]
  | later sizeIs places inductionHypothesis =>
      obtain ⟨restDistinct, apart⟩ := nodup_names_cons distinct
      have other := apart name (mem_names places.mem named)
      rw [lookup_offsetsFrom_of_other other, sizeIs, Option.bind_some,
        inductionHypothesis restDistinct named, Nat.add_assoc]

/-- In a layout of fixed size, every part has a place. -/
theorem exists_places
    (sizeIs : layout.size? = some size)
    (member : part ∈ layout) :
    ∃ offset, Places layout part offset := by
  induction layout generalizing size with
  | nil =>
      contradiction
  | cons first rest inductionHypothesis =>
      obtain ⟨own, others, ownIs, othersAre, _⟩ := exists_sizes sizeIs
      rcases List.mem_cons.mp member with rfl | inRest
      · exact ⟨0, .here _ _⟩
      · obtain ⟨offset, places⟩ := inductionHypothesis othersAre inRest
        exact ⟨_, .later ownIs places⟩

/-- A part ends where its layout does, or before. -/
theorem Places.end_le
    (places : Places layout part offset)
    (sizeIs : layout.size? = some size)
    (ownIs : part.size? = some own) :
    offset + own ≤ size := by
  induction places generalizing size with
  | here part rest =>
      obtain ⟨first, others, firstIs, _, rfl⟩ := exists_sizes sizeIs
      rw [firstIs, Option.some.injEq] at ownIs
      omega
  | later firstIs places inductionHypothesis =>
      obtain ⟨first, others, sameFirst, othersAre, rfl⟩ :=
        exists_sizes sizeIs
      rw [firstIs, Option.some.injEq] at sameFirst
      have inRest := inductionHypothesis othersAre ownIs
      omega

/-- Every byte of a layout is one of a part. -/
theorem exists_places_of_lt
    (sizeIs : layout.size? = some size)
    (inside : index < size) :
    ∃ part offset own,
      Places layout part offset ∧
        part.size? = some own ∧
        offset ≤ index ∧ index < offset + own := by
  induction layout generalizing size index with
  | nil =>
      cases sizeIs
      contradiction
  | cons first rest inductionHypothesis =>
      obtain ⟨own, others, ownIs, othersAre, rfl⟩ := exists_sizes sizeIs
      by_cases isFirst : index < own
      · exact ⟨first, 0, own, .here _ _, ownIs, Nat.zero_le _, by omega⟩
      · obtain ⟨part, offset, partSize, places, partIs, lower, upper⟩ :=
          inductionHypothesis othersAre
            (show index - own < others by omega)
        exact ⟨part, own + offset, partSize, .later ownIs places, partIs,
          by omega, by omega⟩

end Layout

/-! ## Reading at the positions of parts -/

/--
Whether some fields are what a part is read as when it begins a byte string.
-/
def Part.IsReadAs
    (fields : Fields)
    (part : Part)
    (bytes : Bytes) : Prop :=
  match part with
  | .constant name value =>
      bytes.take 1 = [value] ∧
        fields.get? name = some (.integer value.toNat)
  | .field name encoding _ =>
      fields.get? name = some (encoding.value bytes)
  | .content .. | .computed .. | .padding .. => True

namespace Layout

variable {layout : Layout} {part : Part} {bytes : Bytes} {offset : Nat}

/-- At the position of a part is what it is read as. -/
theorem Yields.isReadAs
    {before final : Fields}
    (yields : Yields before layout bytes final)
    (distinct : layout.names.Nodup)
    (places : Places layout part offset) :
    part.IsReadAs final (bytes.drop offset) := by
  induction places generalizing before bytes with
  | here part rest =>
      obtain ⟨_, apart⟩ := nodup_names_cons distinct
      rw [List.drop_zero]
      cases yields with
      | @constant _ _ name value _ _ begins later =>
          have unknown : name ∉ names rest := fun member =>
            apart name member rfl
          exact ⟨begins, by
            rw [later.get?_of_not_mem unknown, Fields.get?_set,
              if_pos rfl]⟩
      | @field _ _ name encoding _ _ _ plain fits later =>
          have unknown : name ∉ names rest := fun member =>
            apart name member rfl
          rw [Part.IsReadAs, later.get?_of_not_mem unknown,
            Fields.get?_set, if_pos rfl]
      | computed gives shown later =>
          trivial
  | later sizeIs places inductionHypothesis =>
      obtain ⟨restDistinct, _⟩ := nodup_names_cons distinct
      obtain ⟨size, next, sameSize, later, _⟩ := yields.exists_rest
      rw [sizeIs, Option.some.injEq] at sameSize
      subst sameSize
      have isReadAs := inductionHypothesis later restDistinct
      rwa [List.drop_drop] at isReadAs

end Layout

/-! ## Writing at the positions of parts -/

/--
Whether a byte string begins with what a part is written as from some fields.
-/
def Part.IsWrittenAs
    (fields : Fields)
    (part : Part)
    (bytes : Bytes) : Prop :=
  match part with
  | .constant _ value => bytes.take 1 = [value]
  | .field name encoding _ =>
      ∀ value,
        fields.get? name = some value →
        value ≠ .absent →
        encoding.write value = .ok (bytes.take encoding.size)
  | .content .. | .computed .. | .padding .. => True

/-- A part is written only from the field of its name. -/
theorem Part.IsWrittenAs.congr
    {part : Part}
    {fields other : Fields}
    {bytes : Bytes}
    (isWrittenAs : part.IsWrittenAs fields bytes)
    (same :
      ∀ name,
        part.name? = some name → other.get? name = fields.get? name) :
    part.IsWrittenAs other bytes := by
  cases part with
  | constant | content | computed | padding =>
      exact isWrittenAs
  | field name encoding fallback =>
      intro value given
      rw [same name rfl] at given
      exact isWrittenAs value given

/-- A part stands at the start of what it writes. -/
theorem Part.isWrittenAs_of_write
    {part : Part}
    {fields : Fields}
    {bytes : Bytes}
    {value? : Option Value}
    (writes : part.write fields = .ok (bytes, value?))
    (later : Bytes) :
    part.IsWrittenAs fields (bytes ++ later) := by
  cases part with
  | constant name value =>
      rw [eq_of_write_constant writes]
      rfl
  | field name encoding fallback =>
      intro value given present
      rw [Part.write_of_given given present] at writes
      obtain ⟨own, ownWrites, same⟩ := Outcome.exists_of_bind_eq_ok writes
      cases same
      rw [List.take_left' (Encoding.stores_of_write ownWrites).length_eq,
        ownWrites]
  | content | computed | padding =>
      trivial

namespace Layout

variable {layout : Layout} {part : Part} {bytes : Bytes} {offset : Nat}

/-- At the position of a part is what it is written as. -/
theorem isWrittenAs_of_write
    {fields : Fields}
    (writes : layout.write fields = .ok bytes)
    (distinct : layout.names.Nodup)
    (places : Places layout part offset) :
    part.IsWrittenAs fields (bytes.drop offset) := by
  induction places generalizing fields bytes with
  | here part rest =>
      obtain ⟨⟨own, value?⟩, first, writes⟩ :=
        Outcome.exists_of_bind_eq_ok writes
      obtain ⟨others, _, same⟩ := Outcome.exists_of_bind_eq_ok writes
      cases same
      exact Part.isWrittenAs_of_write first others
  | later sizeIs places inductionHypothesis =>
      obtain ⟨restDistinct, apart⟩ := nodup_names_cons distinct
      obtain ⟨⟨own, value?⟩, first, writes⟩ :=
        Outcome.exists_of_bind_eq_ok writes
      obtain ⟨others, restWrites, same⟩ :=
        Outcome.exists_of_bind_eq_ok writes
      cases same
      have isWrittenAs := inductionHypothesis restWrites restDistinct
      rw [← List.drop_drop,
        List.drop_left' (Part.length_of_write first sizeIs)]
      refine isWrittenAs.congr fun name named => ?_
      exact (Part.get?_record (apart name (mem_names places.mem named))
        fields value?).symm

end Layout

end VideoCore
