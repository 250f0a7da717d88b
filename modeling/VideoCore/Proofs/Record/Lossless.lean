import VideoCore.Proofs.Packet.Reading
import VideoCore.Proofs.Record.Position
import VideoCore.Proofs.Record.Range

namespace VideoCore

/-!
# Layouts that lose nothing

Most layouts consist of constants and of fields that are stored exactly; a few
also compute lengths in pixels from such fields.  Values in range can always be
written (`Layout.IsLossless.exists_write`), and bytes can be read if the
constants are in their places (`Layout.IsLossless.exists_yields`).  What is
computed agrees with the other fields (`Layout.IsLossless.exists_computed`).
-/

/-- Whether short numbers are held under some names. -/
def Fields.HoldNumbers
    (fields : Fields)
    (names : List String) : Prop :=
  ∀ name ∈ names,
    ∃ value, fields.get? name = some value ∧ value.IsNumeric

theorem Fields.holdNumbers_nil
    (fields : Fields) :
    fields.HoldNumbers [] := by
  intro name member
  contradiction

/-- Setting another field leaves the numbers that are held. -/
theorem Fields.HoldNumbers.set
    {fields : Fields}
    {names : List String}
    (hold : fields.HoldNumbers names)
    {own : String}
    (other : own ∉ names)
    (value : Value) :
    (fields.set own value).HoldNumbers names := by
  intro name member
  have different : own ≠ name := fun same => other (same ▸ member)
  rw [Fields.get?_set, if_neg different]
  exact hold name member

namespace Layout

/--
Whether a layout loses nothing, given the names of the short numbers before it:
it consists of constants, of fields that are stored exactly, and of lengths in
pixels that are computed from short numbers.
-/
inductive IsLossless : List String → Layout → Prop where
  | nil (numbers : List String) :
      IsLossless numbers []
  | constant
      {numbers : List String}
      {rest : Layout}
      (name : String)
      (value : UInt8)
      (later : IsLossless numbers rest) :
      IsLossless numbers (.constant name value :: rest)
  | field
      {numbers more : List String}
      {encoding : Encoding}
      {rest : Layout}
      (name : String)
      (fallback : Option Value)
      (lossless : encoding.isLossless = true)
      (known :
        ∀ number ∈ more,
          number ∈ numbers ∨
            number = name ∧ encoding.isNumeric = true)
      (later : IsLossless more rest) :
      IsLossless numbers (.field name encoding fallback :: rest)
  | pixels
      {numbers : List String}
      {source : String}
      {rest : Layout}
      (name : String)
      (isNumber : source ∈ numbers)
      (later : IsLossless numbers rest) :
      IsLossless numbers (.pixels name source :: rest)

/-- Whether none of some names is one of a layout. -/
def Avoids
    (layout : Layout)
    (names : List String) : Prop :=
  ∀ name ∈ names, name ∉ layout.names

variable {layout rest : Layout} {numbers more : List String}
  {before final fields : Fields} {bytes left : Bytes} {name : String}
  {encoding : Encoding} {size : Nat}

theorem avoids_nil
    (layout : Layout) :
    layout.Avoids [] := by
  intro name member
  contradiction

/-- What a layout avoids, its later parts avoid as well. -/
theorem Avoids.tail
    {part : Part}
    (avoids : Avoids (part :: rest) numbers) :
    Avoids rest numbers := by
  intro number member inRest
  apply avoids number member
  rw [names_cons]
  exact List.mem_append_right _ inRest

/-- The name of a part is none of those that the layout avoids. -/
theorem Avoids.not_mem
    {part : Part}
    (avoids : Avoids (part :: rest) numbers)
    (named : part.name? = some name) :
    name ∉ numbers := fun member =>
  avoids name member (mem_names List.mem_cons_self named)

/-- The numbers behind a field are those before it, and the field itself. -/
theorem Avoids.add
    {part : Part}
    (avoids : Avoids (part :: rest) numbers)
    (distinct : (names (part :: rest)).Nodup)
    (named : part.name? = some name)
    {isNew : Prop}
    (known : ∀ number ∈ more, number ∈ numbers ∨ number = name ∧ isNew) :
    Avoids rest more := by
  intro number member inRest
  rcases known number member with inNumbers | ⟨rfl, _⟩
  · exact avoids.tail number inNumbers inRest
  · exact (nodup_names_cons distinct).2 number inRest named

end Layout

/-- A field that holds a number joins the names that are held. -/
theorem Fields.HoldNumbers.add
    {fields : Fields}
    {numbers more : List String}
    (hold : fields.HoldNumbers numbers)
    {name : String}
    {value : Value}
    {isNew : Prop}
    (known : ∀ number ∈ more, number ∈ numbers ∨ number = name ∧ isNew)
    (given : fields.get? name = some value)
    (numeric : isNew → value.IsNumeric) :
    fields.HoldNumbers more := by
  intro number member
  rcases known number member with inNumbers | ⟨rfl, new⟩
  · exact hold number inNumbers
  · exact ⟨value, given, numeric new⟩

/-- A length in pixels is written as nothing, and computed from its source. -/
theorem Part.write_pixels
    {fields : Fields}
    {source : String}
    {bits : UInt64}
    (number : (fields.get? source).bind Value.realBits? = some bits)
    (name : String) :
    (Part.pixels name source).write fields =
      .ok ([], some (.real (sixteenths bits))) := by
  simp only [pixels, write, number, Outcome.ok_bind]

/-- Whether some fields give a part what it is written from. -/
def Part.IsGiven (fields : Fields) : Part → Prop
  | .constant name value =>
      fields.get? name = some (.integer value.toNat)
  | .field name encoding _ =>
      ∃ value, fields.get? name = some value ∧ encoding.InRange value
  | .content .. | .computed .. | .padding .. => True

/-- A part is written only from the field of its name. -/
theorem Part.IsGiven.congr
    {part : Part}
    {fields other : Fields}
    (given : part.IsGiven fields)
    (same :
      ∀ name,
        part.name? = some name → other.get? name = fields.get? name) :
    part.IsGiven other := by
  cases part with
  | constant name value | field name encoding fallback =>
      rw [IsGiven, same name rfl]
      exact given
  | content | computed | padding =>
      trivial

namespace Layout

variable {layout rest : Layout} {numbers more : List String}
  {before final fields : Fields} {bytes left : Bytes} {name : String}
  {encoding : Encoding} {size : Nat}

/-! ## Reading -/

/-- What is read from the bytes of a lossless layout is what it yields. -/
theorem IsLossless.yields_of_readFrom
    (lossless : IsLossless numbers layout)
    (reads : layout.readFrom before bytes = .ok (final, left))
    (sizeIs : layout.size? = some size)
    (fits : size ≤ bytes.length) :
    Yields before layout bytes final := by
  induction lossless generalizing before bytes size with
  | nil numbers =>
      cases reads
      exact .nil _ _
  | constant name value later inductionHypothesis =>
      obtain ⟨own, others, ownIs, othersAre, rfl⟩ := exists_sizes sizeIs
      cases ownIs
      obtain ⟨⟨value?, rest⟩, first, reads⟩ :=
        Outcome.exists_of_bind_eq_ok reads
      have present : 1 ≤ bytes.length := by omega
      simp only [Part.read, takeBytes_of_le present,
        Outcome.ok_bind] at first
      split at first
      · next begins =>
          cases first
          refine .constant begins
            (inductionHypothesis reads othersAre ?_)
          rw [List.length_drop]
          omega
      · contradiction
  | @field numbers more encoding rest name fallback lossless known later
      inductionHypothesis =>
      obtain ⟨own, others, ownIs, othersAre, rfl⟩ := exists_sizes sizeIs
      cases ownIs
      have plain := Encoding.isPlain_of_isLossless lossless
      have ownFits : encoding.size ≤ bytes.length := by omega
      rw [readFrom, Part.read, Encoding.read_eq plain ownFits,
        Outcome.ok_bind, Outcome.ok_bind] at reads
      refine .field plain ownFits
        (inductionHypothesis reads othersAre ?_)
      rw [List.length_drop]
      omega
  | @pixels numbers source rest name isNumber later inductionHypothesis =>
      obtain ⟨own, others, ownIs, othersAre, rfl⟩ := exists_sizes sizeIs
      cases ownIs
      rw [Nat.zero_add] at fits
      obtain ⟨⟨value?, rest⟩, first, reads⟩ :=
        Outcome.exists_of_bind_eq_ok reads
      obtain ⟨value, gives, same⟩ := Outcome.exists_of_bind_eq_ok first
      cases same
      have shown : value.IsShown := by
        dsimp only at gives
        split at gives <;> cases gives
        exact ⟨_, by rw [Value.display]⟩
      exact .computed gives shown (inductionHypothesis reads othersAre fits)

/-- Bytes with the constants in their places can be read. -/
theorem IsLossless.exists_yields
    (lossless : IsLossless numbers layout)
    (distinct : layout.names.Nodup)
    (avoids : layout.Avoids numbers)
    (hold : before.HoldNumbers numbers)
    (sizeIs : layout.size? = some size)
    (fits : size ≤ bytes.length)
    (begins :
      ∀ name value offset,
        Places layout (.constant name value) offset →
        (bytes.drop offset).take 1 = [value]) :
    ∃ final, Yields before layout bytes final := by
  induction lossless generalizing before bytes size with
  | nil numbers =>
      exact ⟨_, .nil _ _⟩
  | @constant numbers rest name value later inductionHypothesis =>
      obtain ⟨own, others, ownIs, othersAre, rfl⟩ := exists_sizes sizeIs
      cases ownIs
      obtain ⟨final, yields⟩ :=
        inductionHypothesis (nodup_names_cons distinct).1 avoids.tail
          (hold.set (avoids.not_mem rfl) (.integer value.toNat)) othersAre
          (show others ≤ (bytes.drop 1).length by
            rw [List.length_drop]
            omega)
          (fun other byte offset places => by
            rw [List.drop_drop]
            exact begins other byte _ (.later rfl places))
      have here := begins name value 0 (.here _ _)
      rw [List.drop_zero] at here
      exact ⟨final, .constant here yields⟩
  | @field numbers more encoding rest name fallback lossless known later
      inductionHypothesis =>
      obtain ⟨own, others, ownIs, othersAre, rfl⟩ := exists_sizes sizeIs
      cases ownIs
      have holdMore :=
        (hold.set (avoids.not_mem rfl) (encoding.value bytes)).add known
          (by rw [Fields.get?_set, if_pos rfl])
          (fun numeric => Encoding.isNumeric_value numeric bytes)
      obtain ⟨final, yields⟩ :=
        inductionHypothesis (nodup_names_cons distinct).1
          (avoids.add distinct rfl known) holdMore othersAre
          (show others ≤ (bytes.drop encoding.size).length by
            rw [List.length_drop]
            omega)
          (fun other byte offset places => by
            rw [List.drop_drop]
            exact begins other byte _ (.later rfl places))
      exact ⟨final,
        .field (Encoding.isPlain_of_isLossless lossless) (by omega)
          yields⟩
  | @pixels numbers source rest name isNumber later inductionHypothesis =>
      obtain ⟨own, others, ownIs, othersAre, rfl⟩ := exists_sizes sizeIs
      cases ownIs
      obtain ⟨value, given, bits, bitsAre⟩ := hold source isNumber
      have number : (before.get? source).bind Value.realBits? = some bits := by
        rw [given, Option.bind_some, bitsAre]
      obtain ⟨final, yields⟩ :=
        inductionHypothesis (nodup_names_cons distinct).1 avoids.tail
          (hold.set (avoids.not_mem rfl) (.real (sixteenths bits)))
          othersAre (show others ≤ bytes.length by omega)
          (fun other byte offset places => by
            have here := begins other byte _ (.later rfl places)
            rwa [Nat.zero_add] at here)
      exact ⟨final, yields.pixels bits number⟩

/-- What is computed from fields before it agrees with them in the end. -/
theorem IsLossless.exists_computed
    (lossless : IsLossless numbers layout)
    (distinct : layout.names.Nodup)
    (avoids : layout.Avoids numbers)
    (yields : Yields before layout bytes final)
    {rule : Fields → Except Fault Value}
    (member : .computed name rule ∈ layout) :
    ∃ value, rule final = .ok value ∧ final.get? name = some value := by
  induction lossless generalizing before bytes with
  | nil numbers =>
      contradiction
  | constant own value later inductionHypothesis =>
      cases yields with
      | constant begins yields =>
          refine
            inductionHypothesis (nodup_names_cons distinct).1 avoids.tail
              yields ?_
          simpa using member
  | field own fallback lossless known later inductionHypothesis =>
      cases yields with
      | field plain fits yields =>
          refine
            inductionHypothesis (nodup_names_cons distinct).1
              (avoids.add distinct rfl known) yields ?_
          simpa using member
  | @pixels numbers source rest own isNumber later inductionHypothesis =>
      obtain ⟨restDistinct, apart⟩ := nodup_names_cons distinct
      have sourceIs := yields.get?_of_not_mem (avoids source isNumber)
      cases yields with
      | @computed _ _ _ _ value _ _ gives shown yields =>
          rcases List.mem_cons.mp member with same | inRest
          · cases same
            have unknown : name ∉ names rest := fun member =>
              apart name member rfl
            refine ⟨value, ?_, ?_⟩
            · dsimp only at gives ⊢
              rw [sourceIs, gives]
            · rw [yields.get?_of_not_mem unknown, Fields.get?_set,
                if_pos rfl]
          · exact inductionHypothesis restDistinct avoids.tail yields inRest

/-! ## Writing -/

/-- Fields that are in range can be written. -/
theorem IsLossless.exists_write
    (lossless : IsLossless numbers layout)
    (distinct : layout.names.Nodup)
    (avoids : layout.Avoids numbers)
    (hold : fields.HoldNumbers numbers)
    (given : ∀ part ∈ layout, part.IsGiven fields) :
    ∃ bytes, layout.write fields = .ok bytes := by
  induction lossless generalizing fields with
  | nil numbers =>
      exact ⟨[], rfl⟩
  | @constant numbers rest name value later inductionHypothesis =>
      obtain ⟨ownGiven, restGiven⟩ := List.forall_mem_cons.mp given
      have unchanged :
          (Part.constant name value).record fields
              (some (.integer value.toNat)) =
            fields :=
        Fields.set_of_get? ownGiven
      obtain ⟨others, writes⟩ :=
        inductionHypothesis (nodup_names_cons distinct).1 avoids.tail hold
          restGiven
      have own :
          (Part.constant name value).write fields =
            .ok ([value], some (.integer value.toNat)) := by
        rw [Part.IsGiven] at ownGiven
        simp [Part.write, ownGiven, Value.isNumber, Value.integer?]
      rw [write, own, Outcome.ok_bind]
      dsimp only
      rw [unchanged, writes]
      exact ⟨_, rfl⟩
  | @field numbers more encoding rest name fallback lossless known later
      inductionHypothesis =>
      obtain ⟨⟨value, ownGiven, inRange⟩, restGiven⟩ :=
        List.forall_mem_cons.mp given
      have unchanged :
          (Part.field name encoding fallback).record fields (some value) =
            fields :=
        Fields.set_of_get? ownGiven
      have holdMore :=
        hold.add known ownGiven fun numeric =>
          Encoding.isNumeric_of_inRange numeric inRange
      obtain ⟨others, writes⟩ :=
        inductionHypothesis (nodup_names_cons distinct).1
          (avoids.add distinct rfl known) holdMore restGiven
      obtain ⟨own, ownWrites⟩ :=
        Encoding.exists_write (Encoding.isPlain_of_isLossless lossless)
          inRange
      rw [write,
        Part.write_of_given ownGiven (Encoding.ne_absent_of_inRange inRange),
        ownWrites, Outcome.ok_bind, Outcome.ok_bind]
      dsimp only
      rw [unchanged, writes]
      exact ⟨_, rfl⟩
  | @pixels numbers source rest name isNumber later inductionHypothesis =>
      obtain ⟨restDistinct, apart⟩ := nodup_names_cons distinct
      obtain ⟨_, restGiven⟩ := List.forall_mem_cons.mp given
      obtain ⟨value, ownGiven, bits, bitsAre⟩ := hold source isNumber
      have number : (fields.get? source).bind Value.realBits? = some bits := by
        rw [ownGiven, Option.bind_some, bitsAre]
      -- Only the length in pixels changes, and nothing else is written from it.
      have stillGiven :
          ∀ part ∈ rest,
            part.IsGiven (fields.set name (.real (sixteenths bits))) :=
        fun part member =>
          (restGiven part member).congr fun other named => by
            rw [Fields.get?_set, if_neg]
            rintro rfl
            exact apart name (mem_names member named) rfl
      obtain ⟨others, writes⟩ :=
        inductionHypothesis restDistinct avoids.tail
          (hold.set (avoids.not_mem rfl) _) stillGiven
      rw [write, Part.write_pixels number, Outcome.ok_bind]
      dsimp only [Part.record, Part.pixels, Part.name?]
      rw [writes]
      exact ⟨_, rfl⟩

end Layout

end VideoCore
