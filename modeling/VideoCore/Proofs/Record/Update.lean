import VideoCore.Proofs.Record.Lossless

namespace VideoCore

/-!
# Setting fields of records

If fields of a record that has been read are set to values in range, then the
record can be written.  Its bytes are those that were read, with the bytes of
the fields that were set replaced (`RecordType.IsUpdated.replaces`), and reading
them gives the values that were set (`RecordType.IsUpdated.sets`).
-/

namespace Bytes

/-- Strings that have a stretch in common have every byte of it in common. -/
theorem getElem?_eq_of_stretch
    {first second : Bytes}
    {offset size index : Nat}
    (same :
      (first.drop offset).take size = (second.drop offset).take size)
    (lower : offset ≤ index)
    (upper : index < offset + size) :
    first[index]? = second[index]? := by
  have distance : offset + (index - offset) = index := by omega
  have alike := congrArg (fun bytes => bytes[index - offset]?) same
  simpa only [List.getElem?_take_of_lt (show index - offset < size by omega),
    List.getElem?_drop, distance] using alike

end Bytes

theorem Fields.exists_of_mem_names
    {fields : Fields}
    {name : String}
    (member : name ∈ fields.map Prod.fst) :
    ∃ value, (name, value) ∈ fields := by
  obtain ⟨⟨_, value⟩, isField, rfl⟩ := List.mem_map.mp member
  exact ⟨value, isField⟩

/-- What is read from the bytes of a value is what the value settles to. -/
theorem Encoding.value_of_write
    {encoding : Encoding}
    {value : Value}
    {bytes : Bytes}
    (writes : encoding.write value = .ok (bytes.take encoding.size)) :
    encoding.value bytes = encoding.settle value := by
  have stored := (stores_of_write writes).value_eq (bytes.drop encoding.size)
  rwa [List.take_append_drop] at stored

/-- Whether a part is a constant, or a field that is stored exactly. -/
def Part.isStored : Part → Bool
  | .constant .. => true
  | .field _ encoding _ => encoding.isLossless
  | .content .. | .computed .. | .padding .. => false

namespace Layout

/-- Whether some values are in the range of distinct fields of a layout. -/
structure Assigns
    (layout : Layout)
    (news : Fields) : Prop where
  distinct : (news.map Prod.fst).Nodup
  inRange :
    ∀ name value,
      (name, value) ∈ news →
      ∃ encoding fallback,
        Part.field name encoding fallback ∈ layout ∧
          encoding.InRange value

/-- A layout of constants and exact fields loses nothing. -/
theorem isLossless_of_isStored
    {layout : Layout}
    (stored : layout.all Part.isStored = true) :
    IsLossless [] layout := by
  induction layout with
  | nil =>
      exact .nil []
  | cons part rest inductionHypothesis =>
      rw [List.all_cons, Bool.and_eq_true] at stored
      obtain ⟨ownStored, restStored⟩ := stored
      have later := inductionHypothesis restStored
      cases part with
      | constant name value =>
          exact .constant name value later
      | field name encoding fallback =>
          exact .field name fallback ownStored (by simp) later
      | content | computed | padding =>
          contradiction

/--
The parts of a layout that loses nothing are stored, or lengths in pixels.
-/
theorem IsLossless.isStored_or_pixels
    {numbers : List String}
    {layout : Layout}
    (lossless : IsLossless numbers layout)
    {part : Part}
    (member : part ∈ layout) :
    part.isStored = true ∨ ∃ name source, part = .pixels name source := by
  induction lossless with
  | nil numbers =>
      contradiction
  | constant name value later inductionHypothesis =>
      rcases List.mem_cons.mp member with rfl | inRest
      · exact .inl rfl
      · exact inductionHypothesis inRest
  | field name fallback lossless known later inductionHypothesis =>
      rcases List.mem_cons.mp member with rfl | inRest
      · exact .inl lossless
      · exact inductionHypothesis inRest
  | pixels name isNumber later inductionHypothesis =>
      rcases List.mem_cons.mp member with rfl | inRest
      · exact .inr ⟨_, _, rfl⟩
      · exact inductionHypothesis inRest

end Layout

/-! ## Records that lose nothing -/

namespace RecordType

/-- Whether the records of a type lose nothing and keep all their fields. -/
structure IsLossless (type : RecordType) : Prop where
  lossless : type.layout.IsLossless []
  distinct : type.layout.names.Nodup
  kept : ∀ name ∈ type.layout.names, isKept name = true
  sized : type.layout.size? = some type.fixedSize

/-- Whether no floating-point field holds an undefined value. -/
def IsDefined
    (type : RecordType)
    (fields : Fields) : Prop :=
  ∀ name fallback value,
    Part.field name .single fallback ∈ type.layout →
    fields.get? name = some value →
    value.isDefined = true

/--
Whether some bytes are others in which the bytes of the fields that are set have
been replaced, each at its offset, and nothing else.
-/
structure Replaces
    (type : RecordType)
    (news : Fields)
    (bytes written : Bytes) : Prop where
  length_eq : written.length = bytes.length
  assigned :
    ∀ name value,
      (name, value) ∈ news →
      ∃ encoding fallback offset,
        Part.field name encoding fallback ∈ type.layout ∧
          type.offset name = .ok offset ∧
          encoding.write value =
            .ok ((written.drop offset).take encoding.size)
  others :
    ∀ index,
      (∀ name encoding fallback offset,
        name ∈ news.map Prod.fst →
        Part.field name encoding fallback ∈ type.layout →
        type.offset name = .ok offset →
        index < offset ∨ offset + encoding.size ≤ index) →
      written[index]? = bytes[index]?

/--
Whether some fields are others in which some values have been set, and what is
computed has been computed anew.
-/
structure Sets
    (type : RecordType)
    (news before after : Fields) : Prop where
  names_eq : after.map Prod.fst = before.map Prod.fst
  assigned :
    ∀ name value,
      (name, value) ∈ news →
      ∃ held, after.get? name = some held ∧ value.Same held
  others :
    ∀ name,
      name ∉ news.map Prod.fst →
      (∀ rule, Part.computed name rule ∉ type.layout) →
      after.get? name = before.get? name
  computed :
    ∀ name rule,
      Part.computed name rule ∈ type.layout →
      ∃ value, rule after = .ok value ∧ after.get? name = some value

variable {type : RecordType} {bytes written : Bytes}
  {fields news final : Fields} {addr? : Option Int} {record : Record}
  {part : Part} {offset : Nat}

namespace IsLossless

variable (isLossless : type.IsLossless)

include isLossless

/-- Every field of a lossless record has a lossless encoding. -/
theorem encoding_isLossless
    {name : String}
    {encoding : Encoding}
    {fallback : Option Value}
    (member : Part.field name encoding fallback ∈ type.layout) :
    encoding.isLossless = true := by
  rcases isLossless.lossless.isStored_or_pixels member with
    stored | ⟨other, source, same⟩
  · exact stored
  · contradiction

theorem names_of_yields
    (yields : Layout.Yields [] type.layout bytes final) :
    final.map Prod.fst = type.layout.names := by
  obtain ⟨left, reads⟩ := yields.readFrom_eq
  exact Layout.names_of_read reads isLossless.distinct

/-- A record that has been read is what its layout yields. -/
theorem yields_of_read
    (reads : type.read bytes addr? = .ok record)
    (fits : type.fixedSize ≤ bytes.length) :
    Layout.Yields [] type.layout bytes record.fields := by
  obtain ⟨fields, left, fieldsRead, rfl⟩ := read_eq_ok_iff.mp reads
  have yields :=
    isLossless.lossless.yields_of_readFrom fieldsRead isLossless.sized fits
  dsimp only
  rwa [filter_isKept isLossless.kept (isLossless.names_of_yields yields)]

/-- What a layout yields is read as a record. -/
theorem read_eq
    (yields : Layout.Yields [] type.layout bytes final)
    (addr? : Option Int) :
    type.read bytes addr? = .ok ⟨type, addr?, final⟩ := by
  obtain ⟨left, reads⟩ := yields.readFrom_eq
  refine read_eq_ok_iff.mpr ⟨final, left, reads, ?_⟩
  rw [filter_isKept isLossless.kept (isLossless.names_of_yields yields)]

/-- The offset of a name is the place of its part. -/
theorem offset_eq
    (places : type.layout.Places part offset)
    {name : String}
    (named : part.name? = some name) :
    type.offset name = .ok offset := by
  rw [RecordType.offset, Layout.offsets,
    places.lookup_eq isLossless.distinct named, Nat.zero_add]
  rfl

end IsLossless

/-! ## Records with some fields set anew -/

/--
Whether some fields are read from bytes and some of them are set to values in
range.
-/
structure IsUpdated
    (type : RecordType)
    (bytes : Bytes)
    (fields news : Fields) : Prop where
  isLossless : type.IsLossless
  yields : Layout.Yields [] type.layout bytes fields
  sized : bytes.length = type.fixedSize
  defined : type.IsDefined fields
  assigns : type.layout.Assigns news

namespace IsUpdated

variable (isUpdated : type.IsUpdated bytes fields news)

include isUpdated

/-- A field that is set holds its new value, in the range of its encoding. -/
theorem get?_of_mem
    {name : String}
    {value : Value}
    (isNew : (name, value) ∈ news) :
    (fields.update news).get? name = some value := by
  have given := Fields.get?_of_mem isUpdated.assigns.distinct isNew
  rw [Fields.get?_update isUpdated.assigns.distinct, given,
    Option.some_or]

theorem get?_of_not_mem
    {name : String}
    (old : name ∉ news.map Prod.fst) :
    (fields.update news).get? name = fields.get? name := by
  rw [Fields.get?_update isUpdated.assigns.distinct,
    Fields.get?_eq_none old, Option.none_or]

/-- New values are in the range of their fields. -/
theorem inRange_of_mem
    {name : String}
    {encoding : Encoding}
    {fallback : Option Value}
    (isField : .field name encoding fallback ∈ type.layout)
    {value : Value}
    (isNew : (name, value) ∈ news) :
    encoding.InRange value := by
  obtain ⟨other, _, isOther, inRange⟩ :=
    isUpdated.assigns.inRange name value isNew
  have same :=
    Layout.eq_of_name? isUpdated.isLossless.distinct isField rfl isOther
      rfl
  cases same
  exact inRange

/-- Only fields are set. -/
theorem not_mem_of_isField
    (isPart : part ∈ type.layout)
    {name : String}
    (named : part.name? = some name)
    (noField : part.field? = none) :
    name ∉ news.map Prod.fst := by
  intro member
  obtain ⟨value, isNew⟩ := Fields.exists_of_mem_names member
  obtain ⟨encoding, fallback, isField, _⟩ :=
    isUpdated.assigns.inRange name value isNew
  have same :=
    Layout.eq_of_name? isUpdated.isLossless.distinct isPart named isField
      rfl
  rw [same] at noField
  contradiction

/-- No field holds an undefined floating-point number. -/
theorem isDefined_value
    {name : String}
    {encoding : Encoding}
    {fallback : Option Value}
    (places : type.layout.Places (.field name encoding fallback) offset) :
    (encoding.value (bytes.drop offset)).isDefined = true := by
  have given := isUpdated.yields.isReadAs isUpdated.isLossless.distinct places
  cases encoding with
  | single =>
      exact isUpdated.defined name fallback _ places.mem given
  | word | count | signedWord | register | array =>
      rfl

/-- All fields are in range. -/
theorem isGiven
    (places : type.layout.Places part offset) :
    part.IsGiven (fields.update news) := by
  have isReadAs :=
    isUpdated.yields.isReadAs isUpdated.isLossless.distinct places
  cases part with
  | constant name value =>
      have old := isUpdated.not_mem_of_isField places.mem rfl rfl
      rw [Part.IsGiven, isUpdated.get?_of_not_mem old]
      exact isReadAs.2
  | field name encoding fallback =>
      by_cases isNew : name ∈ news.map Prod.fst
      · obtain ⟨value, isNew⟩ := Fields.exists_of_mem_names isNew
        have inRange := isUpdated.inRange_of_mem places.mem isNew
        exact ⟨value, isUpdated.get?_of_mem isNew, inRange⟩
      · refine ⟨_, (isUpdated.get?_of_not_mem isNew).trans isReadAs, ?_⟩
        exact Encoding.inRange_value
          (isUpdated.isLossless.encoding_isLossless places.mem)
          (isUpdated.isDefined_value places)
  | content | computed | padding =>
      trivial

/-- The updated fields can be written. -/
theorem exists_write :
    ∃ written, type.layout.write (fields.update news) = .ok written := by
  have isLossless := isUpdated.isLossless
  refine
    isLossless.lossless.exists_write isLossless.distinct
      (Layout.avoids_nil _) (Fields.holdNumbers_nil _) ?_
  intro part member
  obtain ⟨offset, places⟩ :=
    Layout.exists_places isLossless.sized member
  exact isUpdated.isGiven places

variable (writes : type.layout.write (fields.update news) = .ok written)

include writes

theorem length_written :
    written.length = type.fixedSize :=
  Layout.length_of_write writes isUpdated.isLossless.sized

/-- A field that is not set has the same bytes as before. -/
theorem write_value
    {name : String}
    {encoding : Encoding}
    {fallback : Option Value}
    (places : type.layout.Places (.field name encoding fallback) offset)
    (old : name ∉ news.map Prod.fst) :
    encoding.write (encoding.value (bytes.drop offset)) =
        .ok ((bytes.drop offset).take encoding.size) ∧
      encoding.write (encoding.value (bytes.drop offset)) =
        .ok ((written.drop offset).take encoding.size) := by
  have isLossless := isUpdated.isLossless
  have end_le := places.end_le isLossless.sized rfl
  have fits : encoding.size ≤ (bytes.drop offset).length := by
    rw [List.length_drop, isUpdated.sized]
    omega
  have given := isUpdated.yields.isReadAs isLossless.distinct places
  rw [Part.IsReadAs, ← isUpdated.get?_of_not_mem old] at given
  have isWrittenAs :=
    Layout.isWrittenAs_of_write writes isLossless.distinct places
  exact ⟨Encoding.write_value_of_isLossless
    (isLossless.encoding_isLossless places.mem)
    (isUpdated.isDefined_value places) fits,
    isWrittenAs _ given (encoding.value_ne_absent _)⟩

/-- A field that is set has the bytes of its new value. -/
theorem write_new
    {name : String}
    {encoding : Encoding}
    {fallback : Option Value}
    (places : type.layout.Places (.field name encoding fallback) offset)
    {value : Value}
    (isNew : (name, value) ∈ news) :
    encoding.write value =
      .ok ((written.drop offset).take encoding.size) := by
  have inRange := isUpdated.inRange_of_mem places.mem isNew
  have isWrittenAs :=
    Layout.isWrittenAs_of_write writes isUpdated.isLossless.distinct places
  exact isWrittenAs value (isUpdated.get?_of_mem isNew)
    (Encoding.ne_absent_of_inRange inRange)

/-- A part that is not set has the same bytes as before. -/
theorem same_stretch
    (places : type.layout.Places part offset)
    {size : Nat}
    (sizeIs : part.size? = some size)
    (old : ∀ name ∈ part.name?, name ∉ news.map Prod.fst) :
    (written.drop offset).take size = (bytes.drop offset).take size := by
  have isLossless := isUpdated.isLossless
  rcases isLossless.lossless.isStored_or_pixels places.mem with
    stored | ⟨name, source, rfl⟩
  · cases part with
    | constant name value =>
        cases sizeIs
        have isReadAs :=
          isUpdated.yields.isReadAs isLossless.distinct places
        have isWrittenAs :=
          Layout.isWrittenAs_of_write writes isLossless.distinct places
        exact isWrittenAs.trans isReadAs.1.symm
    | field name encoding fallback =>
        cases sizeIs
        obtain ⟨before, after⟩ :=
          isUpdated.write_value writes places (old name rfl)
        rw [before] at after
        exact (Except.ok.inj after).symm
    | content | computed | padding =>
        contradiction
  · cases sizeIs
    rw [List.take_zero, List.take_zero]

/-- Nothing but the bytes of the fields that are set is replaced. -/
theorem replaces :
    type.Replaces news bytes written := by
  have isLossless := isUpdated.isLossless
  have lengths : written.length = bytes.length :=
    (isUpdated.length_written writes).trans isUpdated.sized.symm
  refine ⟨lengths, ?_, ?_⟩
  · intro name value isNew
    obtain ⟨encoding, fallback, isField, _⟩ :=
      isUpdated.assigns.inRange name value isNew
    obtain ⟨offset, places⟩ :=
      Layout.exists_places isLossless.sized isField
    exact ⟨encoding, fallback, offset, isField,
      isLossless.offset_eq places rfl,
      isUpdated.write_new writes places isNew⟩
  · intro index outside
    by_cases inside : index < type.fixedSize
    · obtain ⟨part, offset, size, places, sizeIs, lower, upper⟩ :=
        Layout.exists_places_of_lt isLossless.sized inside
      refine
        Bytes.getElem?_eq_of_stretch
          (isUpdated.same_stretch writes places sizeIs ?_) lower upper
      -- A part with a byte outside of all fields that are set is not set.
      intro name named member
      obtain ⟨value, isNew⟩ := Fields.exists_of_mem_names member
      obtain ⟨encoding, fallback, isField, _⟩ :=
        isUpdated.assigns.inRange name value isNew
      have same :=
        Layout.eq_of_name? isLossless.distinct places.mem named isField rfl
      subst same
      cases sizeIs
      have apart :=
        outside name encoding fallback offset member isField
          (isLossless.offset_eq places rfl)
      omega
    · have sized := isUpdated.sized
      rw [List.getElem?_eq_none (by omega),
        List.getElem?_eq_none (by omega)]

/-- Bytes that are written can be read. -/
theorem exists_yields :
    ∃ final, Layout.Yields [] type.layout written final := by
  have isLossless := isUpdated.isLossless
  have fits := isUpdated.length_written writes
  refine
    isLossless.lossless.exists_yields isLossless.distinct
      (Layout.avoids_nil _) (Fields.holdNumbers_nil _)
      isLossless.sized (Nat.le_of_eq fits.symm) ?_
  intro name value offset places
  exact Layout.isWrittenAs_of_write writes isLossless.distinct places

/-- What is read from bytes that are written is what has been set. -/
theorem sets
    (yields : Layout.Yields [] type.layout written final) :
    type.Sets news fields final := by
  have isLossless := isUpdated.isLossless
  have namesAre := isLossless.names_of_yields isUpdated.yields
  have finalNamesAre := isLossless.names_of_yields yields
  refine ⟨finalNamesAre.trans namesAre.symm, ?_, ?_, ?_⟩
  · intro name value isNew
    obtain ⟨encoding, fallback, isField, inRange⟩ :=
      isUpdated.assigns.inRange name value isNew
    obtain ⟨offset, places⟩ :=
      Layout.exists_places isLossless.sized isField
    refine
      ⟨_, yields.isReadAs isLossless.distinct places, ?_⟩
    rw [Encoding.value_of_write (isUpdated.write_new writes places isNew)]
    exact Encoding.same_settle inRange
  · intro name old notComputed
    by_cases member : name ∈ type.layout.names
    · obtain ⟨part, isPart, named⟩ := List.mem_filterMap.mp member
      obtain ⟨offset, places⟩ :=
        Layout.exists_places isLossless.sized isPart
      have before := isUpdated.yields.isReadAs isLossless.distinct places
      have after := yields.isReadAs isLossless.distinct places
      rcases isLossless.lossless.isStored_or_pixels isPart with
        stored | ⟨own, source, rfl⟩
      · cases part with
        | constant own value =>
            cases named
            rw [after.2, before.2]
        | field own encoding fallback =>
            cases named
            obtain ⟨oldBytes, sameBytes⟩ :=
              isUpdated.write_value writes places old
            rw [after, before, Encoding.value_of_write sameBytes,
              ← Encoding.value_of_write oldBytes]
        | content | computed | padding =>
            contradiction
      · cases named
        exact absurd isPart (notComputed _)
    · rw [Fields.get?_eq_none (finalNamesAre ▸ member),
        Fields.get?_eq_none (namesAre ▸ member)]
  · intro name rule member
    exact isLossless.lossless.exists_computed isLossless.distinct
      (Layout.avoids_nil _) yields member

end IsUpdated

end RecordType

end VideoCore
