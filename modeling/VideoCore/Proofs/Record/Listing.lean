import VideoCore.Proofs.Memory.Reading
import VideoCore.Proofs.Record.Placement
import VideoCore.Proofs.Record.Storage

namespace VideoCore

/-!
# Listings of captured records

A record that consists of unsigned fields is listed field by field: the entries
tile the bytes of the record, each with the number that is stored at its address
(`RecordType.exists_tile`).
-/

/--
Whether some entries list fields, given by title and encoding, from one address
to another one: each where the one before it ends, with the number that is
stored there.
-/
inductive Entry.Tile
    (memory : Memory)
    (anchor : Int) :
    Int → List (String × Encoding) → List Entry → Int → Prop where
  | nil (addr : Int) :
      Tile memory anchor addr [] [] addr
  | field
      {addr high : Int}
      {title : String}
      {encoding : Encoding}
      {stored : Bytes}
      {value : Value}
      {fields : List (String × Encoding)}
      {entries : List Entry}
      (captured :
        memory.Captures anchor addr (addr + encoding.size) stored)
      (shape : value = encoding.value stored)
      (number : value.toInteger = .ok stored.toWord)
      (later :
        Tile memory anchor (addr + encoding.size) fields entries high) :
      Tile memory anchor addr ((title, encoding) :: fields)
        (⟨some addr, title, value, .field⟩ :: entries) high

variable {memory : Memory} {anchor addr low middle high : Int}
  {bytes : Bytes}

/--
Fields that tile two stretches of memory, one behind the other, tile both.
-/
theorem Entry.Tile.append
    {fields others : List (String × Encoding)}
    {entries otherEntries : List Entry}
    (front : Tile memory anchor low fields entries middle)
    (back : Tile memory anchor middle others otherEntries high) :
    Tile memory anchor low (fields ++ others) (entries ++ otherEntries)
      high := by
  induction front with
  | nil addr =>
      exact back
  | field captured shape number later inductionHypothesis =>
      exact .field captured shape number (inductionHypothesis back)

namespace Encoding

/-- Whether a field holds the number that its bytes store. -/
def isUnsigned : Encoding → Bool
  | .word _ => true
  | .count _ => true
  | .register _ => true
  | _ => false

variable {encoding : Encoding}

/-- Only the bytes of a field matter for its value. -/
theorem value_take
    (unsigned : encoding.isUnsigned = true)
    (bytes : Bytes) :
    encoding.value (bytes.take encoding.size) = encoding.value bytes := by
  cases encoding with
  | word count | count count =>
      simp only [value, size, List.take_take, Nat.min_self]
  | register type =>
      simp only [value, List.take_take, Nat.min_self]
  | signedWord | single | array =>
      contradiction

/-- An unsigned field holds the number that its bytes are. -/
theorem toInteger_value
    (unsigned : encoding.isUnsigned = true)
    (bytes : Bytes) :
    (encoding.value bytes).toInteger =
      .ok (Bytes.toWord (bytes.take encoding.size)) := by
  cases encoding with
  | word | count | register =>
      rfl
  | signedWord | single | array =>
      contradiction

end Encoding

/--
Whether a part is a field that is always readable and holds its stored number.
-/
def Part.isUnsigned : Part → Bool
  | .field _ encoding _ => encoding.isPlain && encoding.isUnsigned
  | _ => false

theorem Part.isPlain_of_isUnsigned
    {part : Part}
    (unsigned : part.isUnsigned = true) :
    part.isPlain = true := by
  cases part with
  | field name encoding fallback =>
      exact (Bool.and_eq_true_iff.mp unsigned).1
  | constant | content | computed | padding =>
      contradiction

namespace Layout

variable {layout : Layout} {size : Nat}

theorem isPlain_of_isUnsigned
    (unsigned : layout.all Part.isUnsigned = true) :
    layout.all Part.isPlain = true :=
  List.all_eq_true.mpr fun part member =>
    Part.isPlain_of_isUnsigned (List.all_eq_true.mp unsigned part member)

/-- The stored fields of a layout under the titles of their entries. -/
def fieldsUnder
    (layout : Layout)
    (title : String → String) :
    List (String × Encoding) :=
  (layout.filterMap Part.field?).map fun (name, encoding) =>
    (title name, encoding)

/-- The items of fields whose first one has the given offset. -/
def itemsFrom
    (start : Nat)
    (layout : Layout)
    (fields : Fields) : List (Option Nat × String × Value) :=
  fields.map fun (name, value) =>
    ((layout.offsetsFrom start).lookup name, name, value)

/--
The first field of a layout is its first item, the others stand behind it.
-/
theorem itemsFrom_field
    {name : String}
    {rest : Layout}
    (unknown : name ∉ rest.names)
    {fields : Fields}
    (named : fields.map Prod.fst = rest.names)
    (encoding : Encoding)
    (fallback : Option Value)
    (start : Nat)
    (value : Value) :
    itemsFrom start (.field name encoding fallback :: rest)
        ((name, value) :: fields) =
      (some start, name, value) ::
        itemsFrom (start + encoding.size) rest fields := by
  have own : (Part.field name encoding fallback).name? = some name := rfl
  rw [itemsFrom, List.map_cons]
  refine List.cons_eq_cons.mpr ⟨?_, List.map_congr_left ?_⟩
  · dsimp only
    rw [lookup_offsetsFrom_of_named own unknown]
  · intro field member
    have inRest : field.1 ∈ names rest := by
      rw [← named]
      exact List.mem_map_of_mem member
    have other :
        (Part.field name encoding fallback).name? ≠ some field.1 := by
      rintro ⟨⟩
      exact unknown inRest
    dsimp only
    rw [lookup_offsetsFrom_of_other other]
    rfl

/--
The entries of unsigned fields tile the bytes that the fields are read from.
-/
theorem exists_tile
    (unsigned : layout.all Part.isUnsigned = true)
    (distinct : layout.names.Nodup)
    (sizeIs : layout.size? = some size)
    {record : Record}
    {head : Int}
    (located : record.addr = some head)
    (title : String → String)
    {start : Nat}
    (placed : addr = head + start)
    (captured : memory.Captures anchor addr (addr + size) bytes) :
    ∃ entries,
      (itemsFrom start layout (layout.values bytes)).mapM
          (fun (offset?, name, value) =>
            record.entry title offset? name value) =
          .ok entries ∧
        Entry.Tile memory anchor addr (layout.fieldsUnder title) entries
          (addr + size) := by
  induction layout generalizing addr start size bytes with
  | nil =>
      cases sizeIs
      refine ⟨[], rfl, ?_⟩
      rw [Int.natCast_zero, Int.add_zero]
      exact .nil _
  | cons part rest inductionHypothesis =>
      rw [List.all_cons, Bool.and_eq_true] at unsigned
      obtain ⟨ownUnsigned, restUnsigned⟩ := unsigned
      cases part with
      | field name encoding fallback =>
          obtain ⟨ownPlain, ownUnsigned⟩ :=
            Bool.and_eq_true_iff.mp ownUnsigned
          obtain ⟨own, restSize, ownIs, others, rfl⟩ := exists_sizes sizeIs
          cases ownIs
          obtain ⟨restDistinct, apart⟩ := nodup_names_cons distinct
          have unknown : name ∉ names rest := fun member =>
            apart name member rfl
          have namesAre :
              (values rest (bytes.drop encoding.size)).map Prod.fst =
                names rest :=
            names_values (isPlain_of_isUnsigned restUnsigned) _
          rw [Int.natCast_add, ← Int.add_assoc] at captured ⊢
          have nextPlaced :
              addr + encoding.size =
                head + ((start + encoding.size : Nat) : Int) := by
            omega
          have ownFits :
              addr + encoding.size ≤ addr + encoding.size + restSize := by
            omega
          obtain ⟨entries, listed, tile⟩ :=
            inductionHypothesis restUnsigned restDistinct others nextPlaced
              (captured.drop encoding.size)
          refine
            ⟨⟨some addr, title name, encoding.value bytes, .field⟩ ::
                entries, ?_,
              .field (captured.take ownFits)
                (Encoding.value_take ownUnsigned bytes).symm
                (Encoding.toInteger_value ownUnsigned bytes) tile⟩
          rw [values, itemsFrom_field unknown namesAre, List.mapM_cons,
            listed]
          simp only [Record.entry, located, placed, Outcome.ok_bind]
          rfl
      | constant | content | computed | padding =>
          contradiction

/-- A field holds the value of the bytes at its offset. -/
theorem get?_values
    (plain : layout.all Part.isPlain = true)
    (distinct : layout.names.Nodup)
    {name : String}
    {encoding : Encoding}
    (isField : (layout.filterMap Part.field?).lookup name = some encoding)
    {start offset : Nat}
    (placed : (layout.offsetsFrom start).lookup name = some offset)
    (bytes : Bytes) :
    (layout.values bytes).get? name =
      some (encoding.value (bytes.drop (offset - start))) := by
  induction layout generalizing start bytes with
  | nil =>
      contradiction
  | cons part rest inductionHypothesis =>
      rw [List.all_cons, Bool.and_eq_true] at plain
      cases part with
      | field own ownEncoding fallback =>
          obtain ⟨restDistinct, apart⟩ := nodup_names_cons distinct
          rw [List.filterMap_cons, Part.field?] at isField
          simp only [List.lookup_cons] at isField
          rw [values, Fields.get?_cons]
          by_cases same : own = name
          · subst same
            have ownName :
                (Part.field own ownEncoding fallback).name? = some own :=
              rfl
            have unknown : own ∉ names rest := fun member =>
              apart own member ownName
            rw [lookup_offsetsFrom_of_named ownName unknown] at placed
            rw [beq_self_eq_true] at isField
            cases placed
            cases isField
            rw [if_pos rfl, Nat.sub_self, List.drop_zero]
          · have different : (name == own) = false := by
              simpa using Ne.symm same
            have other :
                (Part.field own ownEncoding fallback).name? ≠
                  some name := by
              rintro ⟨⟩
              exact same rfl
            rw [lookup_offsetsFrom_of_other other, Part.size?,
              Option.bind_some] at placed
            rw [different] at isField
            rw [if_neg same]
            have lower := (offset_bounds placed).1
            have distance :
                ownEncoding.size + (offset - (start + ownEncoding.size)) =
                  offset - start := by
              omega
            rw [inductionHypothesis plain.2 restDistinct isField placed,
              List.drop_drop, distance]
      | constant | content | computed | padding =>
          exact absurd plain.1 Bool.false_ne_true

end Layout

namespace RecordType

variable {type : RecordType}

/--
Whether the records of a type consist of unsigned fields, all of them kept.
-/
structure IsUnsigned (type : RecordType) : Prop extends IsRegular type where
  unsigned : type.layout.all Part.isUnsigned = true

/-- The entries of a captured record tile its bytes. -/
theorem IsUnsigned.exists_tile
    (isUnsigned : type.IsUnsigned)
    (captured :
      memory.Captures anchor addr (addr + type.fixedSize) bytes)
    (title : String → String) :
    ∃ entries,
      Record.entries ⟨type, some addr, type.layout.values bytes⟩ title [] =
          .ok entries ∧
        Entry.Tile memory anchor addr (type.layout.fieldsUnder title)
          entries (addr + type.fixedSize) := by
  obtain ⟨entries, listed, tile⟩ :=
    Layout.exists_tile isUnsigned.unsigned isUnsigned.distinct
      isUnsigned.sized
      (show Record.addr ⟨type, some addr, type.layout.values bytes⟩ =
        some addr from rfl)
      title (Int.add_zero addr).symm captured
  refine ⟨entries, ?_, tile⟩
  have allListed :
      ∀ items : List (Option Nat × String × Value),
        items.filter
            (fun (_, name, _) => !([] : List String).contains name) =
          items :=
    fun items => List.filter_eq_self.mpr fun _ _ => rfl
  have namesAre :=
    Layout.names_values
      (Layout.isPlain_of_isUnsigned isUnsigned.unsigned) bytes
  have listedAre : type.listedNames = type.layout.names :=
    List.filter_eq_self.mpr isUnsigned.kept
  rw [Record.entries, allListed,
    items_of_names (listedAre ▸ isUnsigned.distinct)
      (isRanked_of_size? isUnsigned.sized)
      (namesAre.trans listedAre.symm)]
  exact listed

end RecordType

end VideoCore
