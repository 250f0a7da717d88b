import Mathlib.Data.List.Basic
import VideoCore.Proofs.Record.Encoding
import VideoCore.Proofs.Record.Rank
import VideoCore.Report.Entry

namespace VideoCore

/-!
# Reading records

A record is read part by part.  `Layout.Yields` says which fields that gives
when every part is there.  All of them can be listed, at the place that the
layout gives them.
-/

namespace Fields

/-- Whether a property holds of every name and value. -/
def All
    (allowed : String → Value → Prop)
    (fields : Fields) : Prop :=
  ∀ field ∈ fields, allowed field.1 field.2

/-- Setting an allowed value keeps all values allowed. -/
theorem All.set
    {allowed : String → Value → Prop}
    {fields : Fields}
    (all : fields.All allowed)
    {name : String}
    {value : Value}
    (allowedValue : allowed name value) :
    (fields.set name value).All allowed := by
  induction fields with
  | nil =>
      simpa [All, Fields.set] using allowedValue
  | cons first rest inductionHypothesis =>
      obtain ⟨firstAllowed, restAllowed⟩ := List.forall_mem_cons.mp all
      rw [Fields.set]
      split
      · exact List.forall_mem_cons.mpr ⟨allowedValue, restAllowed⟩
      · exact List.forall_mem_cons.mpr
          ⟨firstAllowed, inductionHypothesis restAllowed⟩

end Fields

/-- Whether a part is a field whose bytes are always readable. -/
def Part.isPlain : Part → Bool
  | .field _ encoding _ => encoding.isPlain
  | _ => false

namespace Layout

/-- The names of the parts. -/
def names (layout : Layout) : List String :=
  layout.filterMap Part.name?

theorem names_cons
    (part : Part)
    (rest : Layout) :
    names (part :: rest) = part.name?.toList ++ names rest := by
  cases named : part.name? <;> simp [names, named]

theorem mem_names
    {layout : Layout}
    {part : Part}
    (member : part ∈ layout)
    {name : String}
    (named : part.name? = some name) :
    name ∈ layout.names :=
  List.mem_filterMap.mpr ⟨part, member, named⟩

/--
If all names of some sort are distinct, those behind a part are other names.
-/
theorem nodup_filter_names_cons
    {part : Part}
    {rest : Layout}
    {kept : String → Bool}
    (distinct : ((names (part :: rest)).filter kept).Nodup) :
    ((names rest).filter kept).Nodup ∧
      ∀ name ∈ names rest, kept name = true → part.name? ≠ some name := by
  rw [names_cons, List.filter_append] at distinct
  obtain ⟨_, restDistinct, apart⟩ := List.nodup_append.mp distinct
  refine ⟨restDistinct, fun name member isKept named => ?_⟩
  have own : name ∈ part.name?.toList.filter kept := by
    simp [named, isKept]
  exact apart name own name (List.mem_filter.mpr ⟨member, isKept⟩) rfl

/-- If all names are distinct, those behind a part are other names. -/
theorem nodup_names_cons
    {part : Part}
    {rest : Layout}
    (distinct : (names (part :: rest)).Nodup) :
    (names rest).Nodup ∧ ∀ name ∈ names rest, part.name? ≠ some name := by
  rw [← List.filter_true (names (part :: rest))] at distinct
  obtain ⟨restDistinct, apart⟩ := nodup_filter_names_cons distinct
  rw [List.filter_true] at restDistinct
  exact ⟨restDistinct, fun name member => apart name member rfl⟩

/-- A layout of fixed size consists of parts of fixed sizes. -/
theorem exists_sizes
    {part : Part}
    {rest : Layout}
    {size : Nat}
    (sizeIs : Layout.size? (part :: rest) = some size) :
    ∃ own others,
      part.size? = some own ∧
        Layout.size? rest = some others ∧ size = own + others := by
  cases ownIs : part.size? with
  | none =>
      simp [size?, ownIs] at sizeIs
  | some own =>
      cases othersAre : Layout.size? rest with
      | none =>
          simp [size?, ownIs, othersAre] at sizeIs
      | some others =>
          simp only [size?, ownIs, othersAre, Option.some.injEq] at sizeIs
          exact ⟨own, others, rfl, rfl, sizeIs.symm⟩

/-- Reading a byte string part by part, from some fields to more of them. -/
inductive Yields : Fields → Layout → Bytes → Fields → Prop where
  | nil (fields : Fields) (bytes : Bytes) :
      Yields fields [] bytes fields
  | constant
      {fields final : Fields}
      {name : String}
      {value : UInt8}
      {rest : Layout}
      {bytes : Bytes}
      (begins : bytes.take 1 = [value])
      (later :
        Yields (fields.set name (.integer value.toNat)) rest
          (bytes.drop 1) final) :
      Yields fields (.constant name value :: rest) bytes final
  | field
      {fields final : Fields}
      {name : String}
      {encoding : Encoding}
      {fallback : Option Value}
      {rest : Layout}
      {bytes : Bytes}
      (plain : encoding.isPlain = true)
      (fits : encoding.size ≤ bytes.length)
      (later :
        Yields (fields.set name (encoding.value bytes)) rest
          (bytes.drop encoding.size) final) :
      Yields fields (.field name encoding fallback :: rest) bytes final
  | computed
      {fields final : Fields}
      {name : String}
      {rule : Fields → Except Fault Value}
      {value : Value}
      {rest : Layout}
      {bytes : Bytes}
      (gives : rule fields = .ok value)
      (shown : value.IsShown)
      (later : Yields (fields.set name value) rest bytes final) :
      Yields fields (.computed name rule :: rest) bytes final

/-- A layout is read as it yields. -/
theorem Yields.readFrom_eq
    {fields final : Fields}
    {layout : Layout}
    {bytes : Bytes}
    (yields : Yields fields layout bytes final) :
    ∃ rest, layout.readFrom fields bytes = .ok (final, rest) := by
  induction yields with
  | nil fields bytes =>
      exact ⟨bytes, rfl⟩
  | @constant fields final name value rest bytes begins later
      inductionHypothesis =>
      have present : 1 ≤ bytes.length := by
        have length := congrArg List.length begins
        rw [List.length_take, List.length_singleton] at length
        omega
      simpa only [readFrom, Part.read, takeBytes_of_le present,
        Outcome.ok_bind, begins, if_true, Part.record, Part.name?] using
        inductionHypothesis
  | field plain fits later inductionHypothesis =>
      simpa only [readFrom, Part.read, Encoding.read_eq plain fits,
        Outcome.ok_bind, Part.record, Part.name?] using
        inductionHypothesis
  | computed gives shown later inductionHypothesis =>
      simpa only [readFrom, Part.read, gives, Outcome.ok_bind,
        Part.record, Part.name?] using inductionHypothesis

/-- Every field that a layout yields has one of its names and can be shown. -/
theorem Yields.all
    {known : List String}
    {fields final : Fields}
    {layout : Layout}
    {bytes : Bytes}
    (yields : Yields fields layout bytes final)
    (named : layout.names ⊆ known)
    (before :
      fields.All fun name value => name ∈ known ∧ value.IsShown) :
    final.All fun name value => name ∈ known ∧ value.IsShown := by
  induction yields with
  | nil fields bytes =>
      exact before
  | constant begins later inductionHypothesis =>
      obtain ⟨here, others⟩ := List.cons_subset.mp named
      exact inductionHypothesis others
        (before.set ⟨here, _, by rw [Value.display]⟩)
  | @field fields final name encoding fallback rest bytes plain fits later
      inductionHypothesis =>
      obtain ⟨here, others⟩ := List.cons_subset.mp named
      exact inductionHypothesis others
        (before.set ⟨here, encoding.isShown_value plain bytes⟩)
  | computed gives shown later inductionHypothesis =>
      obtain ⟨here, others⟩ := List.cons_subset.mp named
      exact inductionHypothesis others (before.set ⟨here, shown⟩)

/-- A leading byte and one field yield two values. -/
theorem Yields.eq_of_field
    {first second : String}
    {value : UInt8}
    {encoding : Encoding}
    {fallback : Option Value}
    {bytes : Bytes}
    {final : Fields}
    (distinct : first ≠ second)
    (yields :
      Yields [] [.constant first value, .field second encoding fallback]
        bytes final) :
    final =
      [(first, .integer value.toNat),
        (second, encoding.value (bytes.drop 1))] := by
  cases yields with
  | constant begins later =>
      cases later with
      | field plain fits last =>
          cases last
          simp [Fields.set, distinct]

/--
A layout of plain fields yields something from every byte string of its size.
-/
theorem exists_yields_of_isPlain
    {layout : Layout}
    (plain : layout.all Part.isPlain = true)
    {size : Nat}
    (sizeIs : layout.size? = some size)
    {bytes : Bytes}
    (fits : size ≤ bytes.length)
    (fields : Fields) :
    ∃ final, Yields fields layout bytes final := by
  induction layout generalizing fields bytes size with
  | nil =>
      exact ⟨fields, .nil fields bytes⟩
  | cons part rest inductionHypothesis =>
      rw [List.all_cons, Bool.and_eq_true] at plain
      cases part with
      | field name encoding fallback =>
          obtain ⟨own, restSize, ownIs, others, rfl⟩ := exists_sizes sizeIs
          cases ownIs
          have restFits :
              restSize ≤ (bytes.drop encoding.size).length := by
            rw [List.length_drop]
            omega
          obtain ⟨final, later⟩ :=
            inductionHypothesis plain.2 others restFits
              (fields.set name (encoding.value bytes))
          exact ⟨final, .field plain.1 (by omega) later⟩
      | constant | content | computed | padding =>
          simp [Part.isPlain] at plain

/-- A leading byte that is there can be read in front of plain fields. -/
theorem exists_yields_of_constant
    {name : String}
    {value : UInt8}
    {parts : Layout}
    (plain : parts.all Part.isPlain = true)
    {size : Nat}
    (sizeIs : Layout.size? (.constant name value :: parts) = some size)
    {bytes : Bytes}
    (begins : bytes.take 1 = [value])
    (fits : size ≤ bytes.length) :
    ∃ final, Yields [] (.constant name value :: parts) bytes final := by
  obtain ⟨own, restSize, ownIs, others, rfl⟩ := exists_sizes sizeIs
  cases ownIs
  have restFits : restSize ≤ (bytes.drop 1).length := by
    rw [List.length_drop]
    omega
  obtain ⟨final, later⟩ :=
    exists_yields_of_isPlain plain others restFits
      (Fields.set [] name (.integer value.toNat))
  exact ⟨final, .constant begins later⟩

/-! ### Offsets -/

section Offsets

variable {layout : Layout} {name : String}

/--
A name has the offset that the rest of the layout gives it, or else its own.
-/
theorem lookup_offsetsFrom_cons
    (part : Part)
    (rest : Layout)
    (start : Nat)
    (name : String) :
    (offsetsFrom start (part :: rest)).lookup name =
      (part.size?.bind fun size =>
        (rest.offsetsFrom (start + size)).lookup name).or
        (if part.name? = some name then some start else none) := by
  have own :
      (part.name?.toList.map fun name => (name, start)).lookup name =
        if part.name? = some name then some start else none := by
    cases part.name? with
    | none =>
        rfl
    | some ownName =>
        simp only [Option.toList_some, List.map_cons, List.map_nil,
          List.lookup_cons, List.lookup_nil, Option.some.injEq]
        by_cases same : ownName = name
        · simp [same]
        · have different : (name == ownName) = false := by
            simpa using Ne.symm same
          simp [same, different]
  rw [offsetsFrom]
  cases part.size? with
  | none =>
      rw [Option.bind_none, Option.none_or]
      exact own
  | some size =>
      dsimp only
      rw [List.lookup_append, own, Option.bind_some]

/-- A name with an offset is that of a part. -/
theorem mem_names_of_offset
    {start offset : Nat}
    (found : (layout.offsetsFrom start).lookup name = some offset) :
    name ∈ layout.names := by
  induction layout generalizing start with
  | nil =>
      contradiction
  | cons part rest inductionHypothesis =>
      rw [lookup_offsetsFrom_cons, Option.or_eq_some_iff] at found
      rw [names_cons, List.mem_append]
      rcases found with inRest | ⟨_, own⟩
      · obtain ⟨_, _, later⟩ := Option.bind_eq_some_iff.mp inRest
        exact .inr (inductionHypothesis later)
      · split at own
        · next named =>
            exact .inl (by simp [named])
        · contradiction

/-- The offset of a name that only the first part has. -/
theorem lookup_offsetsFrom_of_named
    {part : Part}
    {rest : Layout}
    (named : part.name? = some name)
    (unknown : name ∉ rest.names)
    (start : Nat) :
    (offsetsFrom start (part :: rest)).lookup name = some start := by
  have notLater :
      (part.size?.bind fun size =>
        (rest.offsetsFrom (start + size)).lookup name) = none := by
    rw [Option.bind_eq_none_iff]
    intro size _
    refine Option.eq_none_iff_forall_ne_some.mpr fun offset found => ?_
    exact unknown (mem_names_of_offset found)
  rw [lookup_offsetsFrom_cons, notLater, if_pos named]
  rfl

/--
A part has no influence on the offsets of other names but through its size.
-/
theorem lookup_offsetsFrom_of_other
    {part : Part}
    (other : part.name? ≠ some name)
    (rest : Layout)
    (start : Nat) :
    (offsetsFrom start (part :: rest)).lookup name =
      part.size?.bind fun size =>
        (rest.offsetsFrom (start + size)).lookup name := by
  rw [lookup_offsetsFrom_cons, if_neg other, Option.or_none]

/-- Every name of a layout of fixed size has an offset. -/
theorem exists_offset
    {size : Nat}
    (sizeIs : layout.size? = some size)
    (member : name ∈ layout.names)
    (start : Nat) :
    ∃ offset, (layout.offsetsFrom start).lookup name = some offset := by
  induction layout generalizing size start with
  | nil =>
      contradiction
  | cons part rest inductionHypothesis =>
      obtain ⟨own, restSize, ownIs, others, rfl⟩ := exists_sizes sizeIs
      by_cases inRest : name ∈ names rest
      · obtain ⟨offset, found⟩ :=
          inductionHypothesis others inRest (start + own)
        refine ⟨offset, ?_⟩
        rw [lookup_offsetsFrom_cons, ownIs, Option.bind_some, found]
        rfl
      · rw [names_cons, List.mem_append] at member
        have named : part.name? = some name :=
          Option.mem_toList.mp (member.resolve_right inRest)
        exact ⟨start, lookup_offsetsFrom_of_named named inRest start⟩

end Offsets

end Layout

/-! ## Records with their entries -/

/-- Whether the line of an entry can be written. -/
def Entry.IsPrinted (entry : Entry) : Prop :=
  ∃ text, entry.line = .ok text

/-- A field is printed if its value can be shown. -/
theorem Entry.isPrinted_field
    {addr : Int}
    {name : String}
    {value : Value}
    (shown : value.IsShown) :
    IsPrinted ⟨some addr, name, value, .field⟩ := by
  obtain ⟨text, textIs⟩ := shown
  rw [IsPrinted, Entry.line, addressText, Outcome.ok_bind, lineBody,
    textIs]
  exact ⟨_, rfl⟩

/--
Whether a record is at some address and all its fields can be listed there.
-/
structure Record.IsListable (record : Record) : Prop where
  located : ∃ addr, record.addr = some addr
  placed :
    record.fields.All fun name _ =>
      ∃ offset, record.type.layout.offsets.lookup name = some offset
  shown : record.fields.All fun _ value => value.IsShown

/-- A record that is listable has entries, all of which have lines. -/
theorem Record.IsListable.exists_entries
    {record : Record}
    (listable : record.IsListable)
    (title : String → String)
    (hidden : List String) :
    ∃ entries,
      record.entries title hidden = .ok entries ∧
        ∀ entry ∈ entries, entry.IsPrinted := by
  obtain ⟨addr, located⟩ := listable.located
  apply Outcome.exists_mapM_eq_ok
  intro item member
  obtain ⟨field, fieldMember, rfl⟩ :=
    exists_field_of_mem_items (List.mem_filter.mp member).1
  obtain ⟨offset, found⟩ := listable.placed field fieldMember
  simp only [entry, located, found]
  exact ⟨_, rfl,
    Entry.isPrinted_field (listable.shown field fieldMember)⟩

/-- A record is read if its layout is, and keeps what is not hidden. -/
theorem RecordType.read_eq_ok_iff
    {type : RecordType}
    {bytes : Bytes}
    {addr? : Option Int}
    {record : Record} :
    type.read bytes addr? = .ok record ↔
      ∃ final left,
        type.layout.read bytes = .ok (final, left) ∧
          record =
            ⟨type, addr?, final.filter fun (name, _) => isKept name⟩ := by
  unfold RecordType.read
  cases type.layout.read bytes with
  | ok result =>
      obtain ⟨fields, rest⟩ := result
      constructor
      · intro reads
        cases reads
        exact ⟨fields, rest, rfl, rfl⟩
      · rintro ⟨final, left, same, rfl⟩
        cases same
        rfl
  | error fault =>
      constructor
      · intro reads
        dsimp only at reads
        split at reads <;> contradiction
      · rintro ⟨_, _, same, _⟩
        contradiction

/-- If all names of a type are kept, so are all fields with these names. -/
theorem RecordType.filter_isKept
    {type : RecordType}
    (kept : ∀ name ∈ type.layout.names, isKept name = true)
    {fields : Fields}
    (named : fields.map Prod.fst = type.layout.names) :
    fields.filter (fun (name, _) => isKept name) = fields := by
  refine List.filter_eq_self.mpr fun field member => ?_
  refine kept field.1 ?_
  rw [← named]
  exact List.mem_map_of_mem member

/-- A record whose layout yields something is read, and can be listed. -/
theorem RecordType.read_of_yields
    {type : RecordType}
    {bytes : Bytes}
    {final : Fields}
    {size : Nat}
    (yields : Layout.Yields [] type.layout bytes final)
    (sizeIs : type.layout.size? = some size)
    (addr : Int) :
    type.read bytes (some addr) =
        .ok ⟨type, some addr, final.filter fun (name, _) => isKept name⟩ ∧
      Record.IsListable
        ⟨type, some addr, final.filter fun (name, _) => isKept name⟩ := by
  obtain ⟨rest, readsAs⟩ := yields.readFrom_eq
  have all :=
    yields.all (List.Subset.refl _)
      (fun field member => absurd member List.not_mem_nil)
  constructor
  · exact read_eq_ok_iff.mpr ⟨final, rest, readsAs, rfl⟩
  · exact
      { located := ⟨addr, rfl⟩
        placed := fun field member =>
          Layout.exists_offset sizeIs
            (all field (List.mem_filter.mp member).1).1 0
        shown := fun field member =>
          (all field (List.mem_filter.mp member).1).2 }

end VideoCore
