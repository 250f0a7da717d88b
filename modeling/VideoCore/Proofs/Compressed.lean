import VideoCore.Compressed
import VideoCore.Proofs.Record.Layout

namespace VideoCore

/-!
# Reading compressed index data

Every form of compressed index data can be read once its bytes are there, since
its leading byte selects it.  The indices that it lists are short numbers, so
that they can always be written.
-/

/-- Whether the plain text of a value can be written. -/
def Value.IsPlain (value : Value) : Prop :=
  ∃ text, value.plain = .ok text

namespace Value

/-- A short number has a plain text, shown in either way. -/
theorem isPlain_of_lt
    {number : Int}
    (short : number.natAbs < 2 ^ 64) :
    IsPlain (.integer number) ∧ IsPlain (.decimal number) := by
  constructor <;>
  · rw [IsPlain, plain, literal, decimalText_of_lt short]
    · exact ⟨_, rfl⟩
    all_goals simp

end Value

/-- Indices that can be written have a line. -/
theorem Entry.isPrinted_indices
    {addr : Int}
    {name : String}
    {indices : List Value}
    (plain : ∀ index ∈ indices, index.IsPlain) :
    IsPrinted ⟨some addr, name, .tuple indices, .compressed⟩ := by
  have each :
      ∀ index ∈ indices, ∃ text, index.plain = .ok text ∧ True := by
    intro index member
    obtain ⟨text, textIs⟩ := plain index member
    exact ⟨text, textIs, trivial⟩
  obtain ⟨texts, textsAre, _⟩ := Outcome.exists_mapM_eq_ok each
  rw [IsPrinted, Entry.line, addressText, Outcome.ok_bind, lineBody]
  simp only [compressedText, plainTexts, textsAre, Outcome.ok_bind]
  exact ⟨_, rfl⟩

/-- A number in the header of a form can be written. -/
theorem IndexForm.isPlain_headerField
    {type : RegisterClass}
    (total : type.isTotal = true)
    {name : String}
    (member : name ∈ type.fieldNames)
    (value : Int)
    (others : Fields) :
    Value.IsPlain
      (.integer
        (headerField (("header", .register ⟨type, value⟩) :: others)
          name)) := by
  obtain ⟨shape, found, shapeTotal⟩ :=
    RegisterClass.shape?_of_isTotal total member
  obtain ⟨reading, readingIs, isShort⟩ :=
    FieldShape.read_of_isTotal shapeTotal value
  have readsAs : Register.read ⟨type, value⟩ name = .ok reading := by
    simp only [Register.read, found, Outcome.ok_bind, readingIs]
  apply And.left
  apply Value.isPlain_of_lt
  simp only [headerField, Fields.get, Fields.get?, List.lookup_cons,
    beq_self_eq_true, Option.getD_some, readsAs]
  cases reading with
  | number number =>
      exact isShort number rfl
  | member type index name =>
      simp

namespace IndexForm

theorem size?_eq
    (form : IndexForm) :
    form.record.layout.size? = some form.size := by
  cases form <;> decide +kernel

/-- The byte that a form begins with, if there is only one. -/
def ownByte? : IndexForm → Option UInt8
  | .escape => some 128
  | .absolute => some 129
  | .branch => some 130
  | _ => none

/-- A form with a byte of its own is selected by no other byte. -/
theorem eq_of_ownByte?
    {byte own : UInt8}
    (isOwn : (ofCode byte.toNat).ownByte? = some own) :
    byte = own := by
  rw [← UInt8.toNat_inj]
  unfold ofCode at isOwn
  split at isOwn
  · next code =>
      cases isOwn
      exact Int.ofNat.inj code
  · split at isOwn
    · next code =>
        cases isOwn
        exact Int.ofNat.inj code
    · split at isOwn
      · next code =>
          cases isOwn
          exact Int.ofNat.inj code
      · split at isOwn
        · contradiction
        · split at isOwn <;> contradiction

variable {form : IndexForm} {byte : UInt8} {bytes : Bytes}

/-- The bytes of a form can be read by its layout. -/
theorem exists_yields
    (selected : ofCode byte.toNat = form)
    (begins : bytes.take 1 = [byte])
    (fits : form.size ≤ bytes.length) :
    ∃ final, Layout.Yields [] form.record.layout bytes final := by
  have sizeIs := form.size?_eq
  have own :
      ∀ {value : UInt8},
        form.ownByte? = some value → bytes.take 1 = [value] := by
    intro value isOwn
    have byteIsOwn : (ofCode byte.toNat).ownByte? = some value := by
      rw [selected, isOwn]
    rw [begins, eq_of_ownByte? byteIsOwn]
  cases form with
  | escape | absolute | branch =>
      exact Layout.exists_yields_of_constant (by decide +kernel) sizeIs
        (own rfl) fits
  | absoluteRelative | threeRelative | oneRelative =>
      exact Layout.exists_yields_of_isPlain (by decide +kernel) sizeIs fits []

/-- A form whose bytes are there can be read. -/
theorem exists_read
    (selected : ofCode byte.toNat = form)
    (begins : bytes.take 1 = [byte])
    (fits : form.size ≤ bytes.length)
    (addr : Int) :
    ∃ final record,
      Layout.Yields [] form.record.layout bytes final ∧
        form.record.read bytes (some addr) = .ok record ∧
        record.fields = final.filter (fun (name, _) => isKept name) := by
  obtain ⟨final, yields⟩ := exists_yields selected begins fits
  exact ⟨final, _, yields,
    (RecordType.read_of_yields yields form.size?_eq addr).1, rfl⟩

/-- The registers at the head of forms can always be read. -/
theorem isTotal_header :
    RegisterClass.absoluteRelativeHeader.isTotal = true ∧
      RegisterClass.threeRelativeHeader.isTotal = true ∧
      RegisterClass.oneRelativeHeader.isTotal = true := by
  decide +kernel

/-- A header that is the only field of a form is kept as it is read. -/
theorem filter_of_header
    {held : RegisterClass}
    {final : Fields}
    (yields : Layout.Yields [] [.register "header" held] bytes final) :
    (final.filter fun (name, _) => isKept name) =
      [("header", (Encoding.register held).value bytes)] := by
  have kept : isKept "header" = true := by decide +kernel
  cases yields with
  | field plain fits last =>
      cases last
      simp only [Fields.set, List.filter, kept]

/-- The entry of a form other than a branch has a line. -/
theorem isPrinted_indices
    (noBranch : form ≠ .branch)
    {final : Fields}
    (yields : Layout.Yields [] form.record.layout bytes final)
    (addr : Int) :
    Entry.IsPrinted
      ⟨some addr, form.name,
        form.indices (final.filter fun (name, _) => isKept name),
        .compressed⟩ := by
  have keptCode : isKept "code" = true := by decide +kernel
  have keptIndex : isKept "index" = true := by decide +kernel
  have keptHeader : isKept "header" = true := by decide +kernel
  have countIsPlain :
      ∀ bytes, (Encoding.value (.count 2) bytes).IsPlain := fun bytes =>
    (Value.isPlain_of_lt
      (by simpa using Bytes.toWord_take_lt_of_le (by decide) bytes)).2
  obtain ⟨absoluteTotal, threeTotal, oneTotal⟩ := isTotal_header
  cases form with
  | escape =>
      exact ⟨_, rfl⟩
  | branch =>
      contradiction
  | absolute =>
      apply Entry.isPrinted_indices
      rw [yields.eq_of_field (by decide)]
      simp only [List.filter, keptCode, keptIndex, Fields.get,
        Fields.get?, List.lookup_cons]
      exact Encoding.forall_mem_elements countIsPlain _ _ _
  | absoluteRelative =>
      cases yields with
      | field headerPlain headerFits later =>
          cases later with
          | field indexPlain indexFits last =>
              cases last
              apply Entry.isPrinted_indices
              simp only [Fields.set, String.reduceEq, if_false,
                List.filter, keptHeader, keptIndex]
              simp only [List.forall_mem_cons]
              exact ⟨countIsPlain _,
                isPlain_headerField absoluteTotal
                  (by decide +kernel) _ _,
                isPlain_headerField absoluteTotal
                  (by decide +kernel) _ _,
                by simp⟩
  | threeRelative =>
      apply Entry.isPrinted_indices
      rw [filter_of_header yields]
      simp only [List.forall_mem_cons]
      exact ⟨isPlain_headerField threeTotal (by decide +kernel) _ _,
        isPlain_headerField threeTotal (by decide +kernel) _ _,
        isPlain_headerField threeTotal (by decide +kernel) _ _,
        by simp⟩
  | oneRelative =>
      apply Entry.isPrinted_indices
      rw [filter_of_header yields]
      simp only [List.forall_mem_cons]
      exact ⟨isPlain_headerField oneTotal (by decide +kernel) _ _, by simp⟩

end IndexForm

end VideoCore
