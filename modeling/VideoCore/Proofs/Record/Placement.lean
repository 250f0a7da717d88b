import VideoCore.Proofs.Record.Fields
import VideoCore.Proofs.Record.Layout

namespace VideoCore

/-!
# Places of fields

The fields of a record that has been read stand in the order of the layout.
Their entries therefore never go back in memory, and none of them lies outside
the record (`Record.entries_areFieldsWithin`).
-/

/-- A part yields a value just if it has a name. -/
theorem Part.isSome_of_read
    {part : Part}
    {fields : Fields}
    {bytes rest : Bytes}
    {value? : Option Value}
    (reads : part.read fields bytes = .ok (value?, rest)) :
    value?.isSome = part.name?.isSome := by
  cases part with
  | padding size =>
      obtain ⟨_, _, done⟩ := Outcome.exists_of_bind_eq_ok reads
      cases done
      rfl
  | field name encoding fallback | computed name rule =>
      obtain ⟨_, _, done⟩ := Outcome.exists_of_bind_eq_ok reads
      cases done
      rfl
  | constant name value =>
      obtain ⟨_, _, done⟩ := Outcome.exists_of_bind_eq_ok reads
      dsimp only at done
      split at done <;> cases done
      rfl
  | content name lengthField =>
      obtain ⟨length, _, reads⟩ := Outcome.exists_of_bind_eq_ok reads
      dsimp only at reads
      split at reads
      · contradiction
      · obtain ⟨_, _, done⟩ := Outcome.exists_of_bind_eq_ok reads
        cases done
        rfl

/--
A part that is read adds its name, if it has one that is new.  Whether names
that do not count are new does not matter.
-/
theorem Part.filter_names_record
    {part : Part}
    {fields : Fields}
    {value? : Option Value}
    (given : value?.isSome = part.name?.isSome)
    {kept : String → Bool}
    (unknown :
      ∀ name ∈ part.name?, kept name = true → name ∉ fields.map Prod.fst) :
    ((part.record fields value?).map Prod.fst).filter kept =
      (fields.map Prod.fst).filter kept ++ part.name?.toList.filter kept := by
  cases named : part.name? with
  | none =>
      simp [record, named]
  | some name =>
      rw [named, Option.isSome_some, Option.isSome_iff_exists] at given
      obtain ⟨value, rfl⟩ := given
      simp only [record, named]
      by_cases known : name ∈ fields.map Prod.fst
      · have notKept : ¬kept name = true := fun isKept =>
          unknown name named isKept known
        rw [Fields.names_set_of_mem known]
        simp [notKept]
      · rw [Fields.set_of_not_mem known, List.map_append,
          List.filter_append]
        rfl

namespace Layout

variable {layout : Layout}

/--
A layout is read into fields with its names, in order.  Names that do not count
may be those of several parts.
-/
theorem filter_names_of_readFrom
    {fields final : Fields}
    {bytes left : Bytes}
    (reads : layout.readFrom fields bytes = .ok (final, left))
    {kept : String → Bool}
    (distinct :
      ((fields.map Prod.fst).filter kept ++
        layout.names.filter kept).Nodup) :
    (final.map Prod.fst).filter kept =
      (fields.map Prod.fst).filter kept ++ layout.names.filter kept := by
  induction layout generalizing fields bytes with
  | nil =>
      cases reads
      exact (List.append_nil _).symm
  | cons part rest inductionHypothesis =>
      obtain ⟨⟨value?, others⟩, own, later⟩ :=
        Outcome.exists_of_bind_eq_ok reads
      rw [names_cons, List.filter_append, ← List.append_assoc]
        at distinct ⊢
      have unknown :
          ∀ name ∈ part.name?,
            kept name = true → name ∉ fields.map Prod.fst := by
        intro name named isKept member
        have apart := (List.nodup_append.mp distinct).1
        exact (List.nodup_append.mp apart).2.2 name
          (List.mem_filter.mpr ⟨member, isKept⟩) name
          (List.mem_filter.mpr
            ⟨Option.mem_toList.mpr named, isKept⟩)
          rfl
      rw [← Part.filter_names_record (Part.isSome_of_read own) unknown]
        at distinct ⊢
      exact inductionHypothesis later distinct

/--
A layout with distinct names is read into fields with these names, in order.
-/
theorem names_of_read
    {final : Fields}
    {bytes left : Bytes}
    (reads : layout.read bytes = .ok (final, left))
    (distinct : layout.names.Nodup) :
    final.map Prod.fst = layout.names := by
  rw [← List.filter_true layout.names] at distinct
  have readNames := filter_names_of_readFrom reads distinct
  simpa only [List.filter_true, List.map_nil, List.nil_append] using
    readNames

/-- Offsets begin where the layout does, and none lies behind its end. -/
theorem offset_bounds
    {start offset : Nat}
    {name : String}
    (found : (layout.offsetsFrom start).lookup name = some offset) :
    start ≤ offset ∧
      ∀ size, layout.size? = some size → offset ≤ start + size := by
  induction layout generalizing start with
  | nil =>
      contradiction
  | cons part rest inductionHypothesis =>
      rw [lookup_offsetsFrom_cons, Option.or_eq_some_iff] at found
      rcases found with inRest | ⟨_, here⟩
      · obtain ⟨own, ownIs, later⟩ := Option.bind_eq_some_iff.mp inRest
        obtain ⟨lower, upper⟩ := inductionHypothesis later
        refine ⟨by omega, fun size sizeIs => ?_⟩
        obtain ⟨_, restSize, sameOwn, others, rfl⟩ := exists_sizes sizeIs
        rw [ownIs, Option.some.injEq] at sameOwn
        have restUpper := upper restSize others
        omega
      · split at here
        · cases here
          exact ⟨Nat.le_refl _, fun size _ => Nat.le_add_right ..⟩
        · contradiction

/--
Of distinct names, one in front of another one with an offset has an offset as
well, and no larger one.
-/
theorem pairwise_offsets
    {kept : String → Bool}
    (distinct : (layout.names.filter kept).Nodup)
    (start : Nat) :
    (layout.names.filter kept).Pairwise fun first second =>
      ∀ high,
        (layout.offsetsFrom start).lookup second = some high →
        ∃ low,
          (layout.offsetsFrom start).lookup first = some low ∧
            low ≤ high := by
  induction layout generalizing start with
  | nil =>
      exact List.Pairwise.nil
  | cons part rest inductionHypothesis =>
      obtain ⟨restDistinct, apart⟩ := nodup_filter_names_cons distinct
      have other :
          ∀ name ∈ (names rest).filter kept,
            (offsetsFrom start (part :: rest)).lookup name =
              part.size?.bind fun size =>
                (offsetsFrom (start + size) rest).lookup name := by
        intro name member
        obtain ⟨inRest, isKept⟩ := List.mem_filter.mp member
        exact lookup_offsetsFrom_of_other (apart name inRest isKept) rest start
      rw [names_cons, List.filter_append]
      refine List.pairwise_append.mpr ⟨?_, ?_, ?_⟩
      · cases part.name? with
        | none =>
            exact List.Pairwise.nil
        | some name =>
            exact (List.pairwise_singleton _ name).filter kept
      · cases sizeIs : part.size? with
        | none =>
            refine List.pairwise_of_forall_mem_list ?_
            intro first _ second member high found
            rw [other second member, sizeIs] at found
            contradiction
        | some size =>
            refine
              (inductionHypothesis restDistinct (start + size)).imp_of_mem
                ?_
            intro first second firstMember secondMember ordered
            rw [other first firstMember, other second secondMember, sizeIs]
            exact ordered
      · intro first firstMember second secondMember high highIs
        rw [other second secondMember] at highIs
        obtain ⟨size, _, found⟩ := Option.bind_eq_some_iff.mp highIs
        have lower := (offset_bounds found).1
        obtain ⟨ownName, isKept⟩ := List.mem_filter.mp firstMember
        have named : part.name? = some first :=
          Option.mem_toList.mp ownName
        have unknown : first ∉ names rest := fun member =>
          apart first member isKept named
        exact ⟨start, lookup_offsetsFrom_of_named named unknown start,
          by omega⟩

end Layout

/-! ## Ranks of fields -/

namespace RecordType

/-- The names that a listing shows, in the order of the layout. -/
def listedNames (type : RecordType) : List String :=
  type.layout.names.filter isKept

/--
Whether no field with an offset stands behind one without an offset in a
listing. An offset may be no larger than the rank of fields without one.
-/
def IsRanked (type : RecordType) : Prop :=
  ∀ first ∈ type.listedNames,
    ∀ second ∈ type.listedNames,
      ∀ offset,
        type.layout.offsets.lookup first = some offset →
        type.layout.offsets.lookup second = none →
        offset ≤ lastRank

variable {type : RecordType}

/-- In a type of fixed size every field has an offset. -/
theorem isRanked_of_size?
    {size : Nat}
    (sizeIs : type.layout.size? = some size) :
    type.IsRanked := by
  intro first _ second member _ _ unplaced
  obtain ⟨offset, placed⟩ :=
    Layout.exists_offset sizeIs (List.mem_filter.mp member).1 0
  rw [Layout.offsets, placed] at unplaced
  contradiction

/-- Ranks follow the order of the layout. -/
theorem pairwise_rank
    (distinct : type.listedNames.Nodup)
    (ranked : type.IsRanked) :
    type.listedNames.Pairwise fun first second =>
      type.rank first ≤ type.rank second := by
  refine (Layout.pairwise_offsets distinct 0).imp_of_mem ?_
  intro first second firstMember secondMember ordered
  cases secondIs : type.layout.offsets.lookup second with
  | some high =>
      obtain ⟨low, firstIs, notAfter⟩ := ordered high secondIs
      rw [rank, rank, secondIs, Layout.offsets, firstIs]
      exact notAfter
  | none =>
      rw [rank, rank, secondIs]
      cases firstIs : type.layout.offsets.lookup first with
      | some low =>
          exact ranked first firstMember second secondMember low firstIs
            secondIs
      | none =>
          exact Nat.le_refl _

/-- Fields with the listed names are items in this order. -/
theorem items_of_names
    (distinct : type.listedNames.Nodup)
    (ranked : type.IsRanked)
    {fields : Fields}
    (named : fields.map Prod.fst = type.listedNames)
    (addr? : Option Int) :
    Record.items ⟨type, addr?, fields⟩ =
      fields.map fun (name, value) =>
        (type.layout.offsets.lookup name, name, value) := by
  have ordered := pairwise_rank distinct ranked
  rw [← named, List.pairwise_map] at ordered
  exact Record.items_of_pairwise ordered

end RecordType

/-! ## Entries of records -/

/--
Whether a first entry has an address, and a second one the same or a later one.
-/
def Entry.Precedes (first second : Entry) : Prop :=
  ∃ low high,
    first.addr = some low ∧ second.addr = some high ∧ low ≤ high

/--
Whether some entries are those of fields, in order, between two addresses.
-/
structure Entry.AreFieldsWithin
    (low high : Int)
    (entries : List Entry) : Prop where
  areFields : ∀ entry ∈ entries, entry.kind = .field
  inside :
    ∀ entry ∈ entries,
      ∃ addr, entry.addr = some addr ∧ low ≤ addr ∧ addr ≤ high
  ordered : entries.Pairwise Entry.Precedes

/-- A record knows its type and the address it was read at. -/
theorem RecordType.type_and_addr_of_read
    {type : RecordType}
    {bytes : Bytes}
    {addr? : Option Int}
    {record : Record}
    (reads : type.read bytes addr? = .ok record) :
    record.type = type ∧ record.addr = addr? := by
  obtain ⟨_, _, _, rfl⟩ := read_eq_ok_iff.mp reads
  exact ⟨rfl, rfl⟩

/-- A field with an offset has an entry there; the others have none. -/
theorem Record.eq_of_entry
    {record : Record}
    {addr : Int}
    {title : String → String}
    {offset? : Option Nat}
    {name : String}
    {value : Value}
    {entry : Entry}
    (located : record.addr = some addr)
    (made : record.entry title offset? name value = .ok entry) :
    ∃ offset : Nat,
      offset? = some offset ∧
        entry = ⟨some (addr + offset), title name, value, .field⟩ := by
  simp only [Record.entry, located] at made
  cases offset? <;> cases made
  exact ⟨_, rfl, rfl⟩

/--
The entries of a record that has been read are those of its fields, in the order
in which they are stored, within the record.
-/
theorem RecordType.entries_areFieldsWithin
    {type : RecordType}
    {bytes : Bytes}
    {addr : Int}
    {record : Record}
    {size : Nat}
    {title : String → String}
    {hidden : List String}
    {entries : List Entry}
    (reads : type.read bytes (some addr) = .ok record)
    (sizeIs : type.layout.size? = some size)
    (listed : record.entries title hidden = .ok entries) :
    Entry.AreFieldsWithin addr (addr + size) entries := by
  obtain ⟨typeIs, addrIs⟩ := type_and_addr_of_read reads
  refine ⟨?_, ?_, ?_⟩
  · intro entry member
    obtain ⟨item, _, made⟩ := Outcome.exists_of_mem_mapM listed member
    obtain ⟨offset, _, rfl⟩ := Record.eq_of_entry addrIs made
    rfl
  · intro entry member
    obtain ⟨item, itemMember, made⟩ :=
      Outcome.exists_of_mem_mapM listed member
    obtain ⟨offset, offsetIs, rfl⟩ := Record.eq_of_entry addrIs made
    obtain ⟨field, _, rfl⟩ :=
      Record.exists_field_of_mem_items (List.mem_filter.mp itemMember).1
    rw [typeIs] at offsetIs
    have upper := (Layout.offset_bounds offsetIs).2 size sizeIs
    exact ⟨_, rfl, by omega, by omega⟩
  · refine
      Outcome.pairwise_of_mapM listed
        (record.pairwise_items.filter _) ?_
    intro first second firstEntry secondEntry ordered firstMade secondMade
    obtain ⟨low, lowIs, rfl⟩ := Record.eq_of_entry addrIs firstMade
    obtain ⟨high, highIs, rfl⟩ := Record.eq_of_entry addrIs secondMade
    have notAfter := ordered low high lowIs highIs
    exact ⟨_, _, rfl, rfl, by omega⟩

end VideoCore
