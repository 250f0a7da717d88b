import VideoCore.Proofs.Record.Writing

namespace VideoCore

/-!
# Records that are stored field by field

Some records consist of stored fields only: no constants, nothing computed,
nothing whose length depends on a value.  What such a record holds is a function
of its bytes (`Layout.values`), and `Layout.Stores` says which bytes belong to
which fields.

Unsigned words and arrays of them are exact: writing what has been read gives
the same bytes again.  A record of exact fields therefore loses nothing.
-/

/-- The bytes of a string store the number that it stores. -/
theorem Bytes.ofWord_toWord
    (bytes : Bytes) :
    ofWord bytes.length bytes.toWord = bytes := by
  induction bytes with
  | nil =>
      rfl
  | cons byte rest inductionHypothesis =>
      have small := byte.toNat_lt
      have low : UInt8.ofNat (byte.toNat + 256 * toWord rest) = byte := by
        rw [← UInt8.toNat_inj, UInt8.toNat_ofNat']
        omega
      have high : (byte.toNat + 256 * toWord rest) / 256 = toWord rest := by
        omega
      rw [List.length_cons, toWord, ofWord, low, high,
        inductionHypothesis]

theorem Value.integer_ne_absent
    (number : Int) :
    Value.integer number ≠ .absent := by
  intro same
  contradiction

/-- Whether a value is a non-negative integer below a bound. -/
def Value.IsBelow
    (bound : Int)
    (value : Value) : Prop :=
  ∃ number, value.integer? = some number ∧ 0 ≤ number ∧ number < bound

namespace Encoding

/-- Whether values have only one stored form, and bytes only one value. -/
def isExact : Encoding → Bool
  | .word _ => true
  | .count _ => true
  | .array _ element => element.isExact
  | _ => false

theorem write_word
    (size : Nat)
    (number : Int) :
    (word size).write (.integer number) = writeWord size number :=
  rfl

theorem write_count
    (size : Nat)
    (number : Int) :
    (count size).write (.integer number) = writeWord size number :=
  rfl

/-- Bytes are written back from their number. -/
theorem writeWord_toWord
    {size : Nat}
    {bytes : Bytes}
    (fits : size ≤ bytes.length) :
    writeWord size (Bytes.toWord (bytes.take size)) =
      .ok (bytes.take size) := by
  have length : (bytes.take size).length = size :=
    List.length_take_of_le fits
  have small := Int.ofNat_lt.mpr (Bytes.toWord_take_lt size bytes)
  rw [Int.natCast_pow] at small
  have same := Bytes.ofWord_toWord (bytes.take size)
  rw [length] at same
  rw [writeWord, if_pos ⟨Int.natCast_nonneg _, small⟩, Int.toNat_natCast,
    same]

/-- Elements that are written as they were read are written together. -/
theorem writeMany_elements
    {element : Encoding}
    (each :
      ∀ bytes : Bytes,
        element.size ≤ bytes.length →
        element.write (element.value bytes) =
          .ok (bytes.take element.size))
    {length : Nat}
    {bytes : Bytes}
    (fits : length * element.size ≤ bytes.length) :
    writeMany element.write
        (elements element.value element.size length bytes) =
      .ok (bytes.take (length * element.size)) := by
  induction length generalizing bytes with
  | zero =>
      simp [elements, writeMany]
  | succ length inductionHypothesis =>
      rw [Nat.succ_mul] at fits ⊢
      have restFits :
          length * element.size ≤ (bytes.drop element.size).length := by
        rw [List.length_drop]
        omega
      rw [elements, writeMany, each bytes (by omega), Outcome.ok_bind,
        inductionHypothesis restFits, Outcome.ok_bind, Nat.add_comm,
        List.take_add]

theorem length_elements
    (valueOf : Bytes → Value)
    (size length : Nat)
    (bytes : Bytes) :
    (elements valueOf size length bytes).length = length := by
  induction length generalizing bytes with
  | zero =>
      rfl
  | succ length inductionHypothesis =>
      rw [elements, List.length_cons, inductionHypothesis]

/-- Writing what an exact field holds gives its bytes again. -/
theorem write_value
    {encoding : Encoding}
    (exact : encoding.isExact = true)
    {bytes : Bytes}
    (fits : encoding.size ≤ bytes.length) :
    encoding.write (encoding.value bytes) =
      .ok (bytes.take encoding.size) := by
  induction encoding generalizing bytes with
  | word size | count size =>
      exact writeWord_toWord fits
  | array length element inductionHypothesis =>
      have count := length_elements element.value element.size length bytes
      rw [value, write, Value.items?]
      dsimp only
      rw [if_pos count]
      exact writeMany_elements
        (fun bytes fits => inductionHypothesis exact fits) fits
  | signedWord | single | register =>
      contradiction

theorem value_ne_absent
    (encoding : Encoding)
    (bytes : Bytes) :
    encoding.value bytes ≠ .absent := by
  cases encoding <;> simp [value]

/-- How an integer is shown does not matter for its bytes. -/
theorem write_decimal
    (encoding : Encoding)
    (number : Int) :
    encoding.write (.decimal number) =
      encoding.write (.integer number) := by
  cases encoding <;> rfl

/-- A number below the weight of a word can be written to it. -/
theorem exists_write_word
    {size : Nat}
    {bound : Int}
    (boundIs : bound = 256 ^ size)
    {value : Value}
    (small : value.IsBelow bound) :
    value ≠ .absent ∧
      ∃ own, (Encoding.word size).write value = .ok own := by
  rcases small with ⟨number, isNumber, lower, upper⟩
  constructor
  · rintro rfl
    contradiction
  · rw [write, isNumber, Option.elim_some, writeWord,
      if_pos ⟨lower, boundIs ▸ upper⟩]
    exact ⟨_, rfl⟩

/-- Elements that can be written make an array that can be written. -/
theorem exists_writeMany
    {element : Encoding}
    {items : List Value}
    (each : ∀ item ∈ items, ∃ own, element.write item = .ok own) :
    ∃ bytes, writeMany element.write items = .ok bytes := by
  induction items with
  | nil =>
      exact ⟨[], rfl⟩
  | cons first rest inductionHypothesis =>
      obtain ⟨⟨own, ownWrites⟩, restEach⟩ := List.forall_mem_cons.mp each
      obtain ⟨others, restWrites⟩ := inductionHypothesis restEach
      rw [writeMany, ownWrites, Outcome.ok_bind, restWrites]
      exact ⟨_, rfl⟩

end Encoding

/-- The name and the encoding of a part that is a stored field. -/
def Part.field? : Part → Option (String × Encoding)
  | .field name encoding _ => some (name, encoding)
  | _ => none

/-- Whether a part is a stored field that loses nothing. -/
def Part.isExact : Part → Bool
  | .field _ encoding _ => encoding.isExact
  | _ => false

/-- A field that is given is written from its value. -/
theorem Part.write_of_given
    {fields : Fields}
    {name : String}
    {value : Value}
    (given : fields.get? name = some value)
    (present : value ≠ .absent)
    {encoding : Encoding}
    (fallback : Option Value) :
    Part.write fields (.field name encoding fallback) =
      (encoding.write value >>= fun bytes => .ok (bytes, some value)) := by
  unfold Part.write
  dsimp only
  rw [given]
  cases value with
  | absent =>
      exact absurd rfl present
  | truth | integer | decimal | real | text | bytes | list | tuple
  | register =>
      rfl

namespace Layout

/-- The fields that a byte string begins with. -/
def values : Layout → Bytes → Fields
  | [], _ => []
  | .field name encoding _ :: rest, bytes =>
      (name, encoding.value bytes) :: values rest (bytes.drop encoding.size)
  | _ :: rest, bytes => values rest bytes

/-- Whether bytes are those of some fields, one after the other. -/
inductive Stores (fields : Fields) : Layout → Bytes → Prop where
  | nil : Stores fields [] []
  | field
      {name : String}
      {encoding : Encoding}
      {fallback : Option Value}
      {value : Value}
      {rest : Layout}
      {own others : Bytes}
      (given : fields.get? name = some value)
      (present : value ≠ .absent)
      (writes : encoding.write value = .ok own)
      (later : Stores fields rest others) :
      Stores fields (.field name encoding fallback :: rest) (own ++ others)

variable {layout : Layout} {fields : Fields} {bytes : Bytes} {size : Nat}

/-- Fields that a byte string stores are written as that string. -/
theorem Stores.write_eq
    (stores : Stores fields layout bytes) :
    layout.write fields = .ok bytes := by
  induction stores with
  | nil =>
      rfl
  | @field name encoding fallback value rest own others given present
      writes later inductionHypothesis =>
      have unchanged :
          (Part.field name encoding fallback).record fields (some value) =
            fields :=
        Fields.set_of_get? given
      rw [write, Part.write_of_given given present, writes,
        Outcome.ok_bind, Outcome.ok_bind]
      dsimp only
      rw [unchanged, inductionHypothesis, Outcome.ok_bind]

/-- What is read from the bytes of some fields is what these settle to. -/
theorem Stores.values_eq
    (stores : Stores fields layout bytes)
    (later : Bytes) :
    layout.values (bytes ++ later) =
      (layout.filterMap Part.field?).map fun (name, encoding) =>
        (name, encoding.settle (fields.get name)) := by
  induction stores with
  | nil =>
      rfl
  | @field name encoding fallback value rest own others given present
      writes stores inductionHypothesis =>
      have own := Encoding.stores_of_write writes
      have held : fields.get name = value := by
        rw [Fields.get, given, Option.getD_some]
      rw [values, List.append_assoc, own.value_eq,
        List.drop_left' own.length_eq, inductionHypothesis,
        List.filterMap_cons, Part.field?, List.map_cons]
      dsimp only
      rw [held]

/--
Fields that have their names' values are stored in the bytes that these were
read from.
-/
theorem stores_of_values
    (exact : layout.all Part.isExact = true)
    (sizeIs : layout.size? = some size)
    (fits : size ≤ bytes.length)
    (given :
      ∀ field ∈ layout.values bytes,
        fields.get? field.1 = some field.2) :
    Stores fields layout (bytes.take size) := by
  induction layout generalizing bytes size with
  | nil =>
      cases sizeIs
      exact .nil
  | cons part rest inductionHypothesis =>
      rw [List.all_cons, Bool.and_eq_true] at exact
      rcases exact with ⟨ownExact, restExact⟩
      cases part with
      | field name encoding fallback =>
          obtain ⟨own, restSize, ownIs, others, rfl⟩ := exists_sizes sizeIs
          cases ownIs
          rw [values] at given
          have rewritten :=
            Encoding.write_value ownExact
              (show encoding.size ≤ bytes.length by omega)
          rw [List.take_add]
          refine
            .field (given _ List.mem_cons_self)
              (encoding.value_ne_absent bytes) rewritten ?_
          refine inductionHypothesis restExact others ?_ ?_
          · rw [List.length_drop]
            omega
          · intro field member
            exact given field (List.mem_cons_of_mem _ member)
      | constant | content | computed | padding =>
          contradiction

/-- Storing depends on the values of the fields only. -/
theorem Stores.congr
    (stores : Stores fields layout bytes)
    {other : Fields}
    (same :
      ∀ name value,
        fields.get? name = some value →
        value ≠ .absent →
        ∃ replacement,
          other.get? name = some replacement ∧
            replacement ≠ .absent ∧
            ∀ encoding : Encoding,
              encoding.write replacement = encoding.write value) :
    Stores other layout bytes := by
  induction stores with
  | nil =>
      exact .nil
  | field given present writes later inductionHypothesis =>
      obtain ⟨replacement, givenToo, presentToo, alike⟩ :=
        same _ _ given present
      exact .field givenToo presentToo ((alike _).trans writes)
        inductionHypothesis

/-- Fields each of which can be written can be stored together. -/
theorem exists_stores
    (each :
      ∀ part ∈ layout,
        ∃ name encoding fallback value own,
          part = .field name encoding fallback ∧
            fields.get? name = some value ∧
            value ≠ .absent ∧
            encoding.write value = .ok own) :
    ∃ bytes, Stores fields layout bytes := by
  induction layout with
  | nil =>
      exact ⟨[], .nil⟩
  | cons part rest inductionHypothesis =>
      obtain ⟨ownEach, restEach⟩ := List.forall_mem_cons.mp each
      obtain ⟨name, encoding, fallback, value, own, rfl, given, present,
        writes⟩ := ownEach
      obtain ⟨others, later⟩ := inductionHypothesis restEach
      exact ⟨own ++ others, .field given present writes later⟩

theorem names_values
    (fieldsOnly : layout.all Part.isPlain = true)
    (bytes : Bytes) :
    (layout.values bytes).map Prod.fst = layout.names := by
  induction layout generalizing bytes with
  | nil =>
      rfl
  | cons part rest inductionHypothesis =>
      rw [List.all_cons, Bool.and_eq_true] at fieldsOnly
      cases part with
      | field name encoding fallback =>
          rw [values, List.map_cons, inductionHypothesis fieldsOnly.2,
            names_cons]
          rfl
      | constant | content | computed | padding =>
          exact absurd fieldsOnly.1 Bool.false_ne_true

/-- Plain fields are read into their values, whatever the bytes are. -/
theorem readFrom_eq
    (before : Fields)
    (plain : layout.all Part.isPlain = true)
    (distinct : (before.map Prod.fst ++ layout.names).Nodup)
    (sizeIs : layout.size? = some size)
    (fits : size ≤ bytes.length) :
    layout.readFrom before bytes =
      .ok (before ++ layout.values bytes, bytes.drop size) := by
  induction layout generalizing before bytes size with
  | nil =>
      cases sizeIs
      simp [readFrom, values]
  | cons part rest inductionHypothesis =>
      rw [List.all_cons, Bool.and_eq_true] at plain
      rcases plain with ⟨ownPlain, restPlain⟩
      cases part with
      | field name encoding fallback =>
          obtain ⟨own, restSize, ownIs, others, rfl⟩ := exists_sizes sizeIs
          cases ownIs
          have ownFits : encoding.size ≤ bytes.length := by omega
          have restFits :
              restSize ≤ (bytes.drop encoding.size).length := by
            rw [List.length_drop]
            omega
          rw [names_cons] at distinct
          have unknown : name ∉ before.map Prod.fst := by
            intro member
            exact (List.nodup_append.mp distinct).2.2 name member name
              (by simp [Part.name?]) rfl
          -- Every name is new, so that its value goes to the end.
          have recorded :
              (Part.field name encoding fallback).record before
                  (some (encoding.value bytes)) =
                before ++ [(name, encoding.value bytes)] :=
            Fields.set_of_not_mem unknown _
          have stillDistinct :
              ((before ++ [(name, encoding.value bytes)]).map
                Prod.fst ++ names rest).Nodup := by
            simpa [Part.name?] using distinct
          rw [readFrom, Part.read, Encoding.read_eq ownPlain ownFits,
            Outcome.ok_bind, Outcome.ok_bind]
          dsimp only
          rw [recorded,
            inductionHypothesis _ restPlain stillDistinct others
              restFits,
            values, List.append_assoc, List.singleton_append,
            List.drop_drop]
      | constant | content | computed | padding =>
          contradiction

end Layout

namespace RecordType

/-- Whether records of a type keep what their bytes say, field by field. -/
structure IsRegular (type : RecordType) : Prop where
  plain : type.layout.all Part.isPlain = true
  distinct : type.layout.names.Nodup
  kept : ∀ name ∈ type.layout.names, isKept name = true
  sized : type.layout.size? = some type.fixedSize

/--
A record that keeps all its fields is read as soon as its bytes are there.
-/
theorem IsRegular.read_eq
    {type : RecordType}
    (regular : type.IsRegular)
    {bytes : Bytes}
    (fits : type.fixedSize ≤ bytes.length)
    (addr : Option Int) :
    type.read bytes addr = .ok ⟨type, addr, type.layout.values bytes⟩ := by
  have keepsAll :=
    filter_isKept regular.kept (Layout.names_values regular.plain bytes)
  have reads :=
    Layout.readFrom_eq [] regular.plain regular.distinct regular.sized
      fits
  rw [List.nil_append] at reads
  refine read_eq_ok_iff.mpr ⟨_, _, reads, ?_⟩
  rw [keepsAll]

end RecordType

end VideoCore
