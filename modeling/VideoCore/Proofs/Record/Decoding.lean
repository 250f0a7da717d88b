import VideoCore.Proofs.Record.Position

namespace VideoCore

/-!
# Decoding fields at their offsets

Three things say where the fields of a record are: the order in which they are
read, the offsets that the layout gives their names, and the places at which a
listing shows them.  They agree (`RecordType.ListsAsRead`).

A part behind parts of fixed sizes is read from the bytes at the total of these
sizes, for each of them takes as many bytes off the front as it has
(`Layout.leaves_of_readFrom`); this total is its offset
(`Layout.lookup_of_size?`). Behind a part without a fixed size no name has an
offset.  In a listing, fields without one have the rank of an offset of four
gigabytes, so that they stand last unless another field is behind even that; and
a name is listed once, even if several parts have it
(`RecordType.listing_disagrees`).
-/

/-! ## Bytes that reading leaves -/

/-- Whether `size` bytes were there and have been taken off the front. -/
structure Bytes.Leaves
    (size : Nat)
    (bytes rest : Bytes) : Prop where
  fits : size ≤ bytes.length
  rest_eq : rest = bytes.drop size

/-- Reading twice leaves what the second reading leaves. -/
theorem Bytes.Leaves.trans
    {first second : Nat}
    {bytes middle rest : Bytes}
    (leaves : Leaves first bytes middle)
    (later : Leaves second middle rest) :
    Leaves (first + second) bytes rest := by
  have fits := later.fits
  rw [leaves.rest_eq, List.length_drop] at fits
  have ownFits := leaves.fits
  exact ⟨by omega, by rw [later.rest_eq, leaves.rest_eq, List.drop_drop]⟩

theorem leaves_of_takeBytes
    {size : Nat}
    {bytes stored rest : Bytes}
    (takes : takeBytes size bytes = .ok (stored, rest)) :
    Bytes.Leaves size bytes rest := by
  unfold takeBytes at takes
  split at takes
  · next fits =>
      cases takes
      exact ⟨fits, rfl⟩
  · contradiction

namespace Encoding

/-- Elements leave what is behind the last one. -/
theorem leaves_of_readMany
    {readOne : Bytes → Except Fault (Value × Bytes)}
    {size : Nat}
    (each :
      ∀ bytes value rest,
        readOne bytes = .ok (value, rest) → Bytes.Leaves size bytes rest)
    {length : Nat}
    {bytes rest : Bytes}
    {values : List Value}
    (reads : readMany readOne length bytes = .ok (values, rest)) :
    Bytes.Leaves (length * size) bytes rest := by
  induction length generalizing bytes values with
  | zero =>
      cases reads
      exact ⟨by simp, by simp⟩
  | succ length inductionHypothesis =>
      obtain ⟨⟨value, middle⟩, first, reads⟩ :=
        Outcome.exists_of_bind_eq_ok reads
      obtain ⟨⟨others, left⟩, later, same⟩ :=
        Outcome.exists_of_bind_eq_ok reads
      cases same
      have leaves :=
        (each bytes value middle first).trans (inductionHypothesis later)
      rwa [Nat.succ_mul, Nat.add_comm]

/-- Reading an encoding leaves what is behind its size. -/
theorem leaves_of_read
    {encoding : Encoding}
    {bytes rest : Bytes}
    {value : Value}
    (reads : encoding.read bytes = .ok (value, rest)) :
    Bytes.Leaves encoding.size bytes rest := by
  induction encoding generalizing bytes value rest with
  | word | count | signedWord | single =>
      obtain ⟨_, takes, same⟩ := Outcome.exists_of_bind_eq_ok reads
      cases same
      exact leaves_of_takeBytes takes
  | register type =>
      obtain ⟨size, sizeIs, reads⟩ := Outcome.exists_of_bind_eq_ok reads
      obtain ⟨_, takes, reads⟩ := Outcome.exists_of_bind_eq_ok reads
      obtain ⟨_, _, same⟩ := Outcome.exists_of_bind_eq_ok reads
      cases same
      rw [Encoding.size, sizeIs]
      exact leaves_of_takeBytes takes
  | array length element inductionHypothesis =>
      obtain ⟨⟨values, left⟩, elements, same⟩ :=
        Outcome.exists_of_bind_eq_ok reads
      cases same
      exact leaves_of_readMany (fun _ _ _ => inductionHypothesis) elements

end Encoding

/-- A part of a fixed size takes as many bytes off the front. -/
theorem Part.leaves_of_read
    {part : Part}
    {fields : Fields}
    {bytes rest : Bytes}
    {value? : Option Value}
    {size : Nat}
    (sizeIs : part.size? = some size)
    (reads : part.read fields bytes = .ok (value?, rest)) :
    Bytes.Leaves size bytes rest := by
  cases part with
  | constant name value =>
      cases sizeIs
      obtain ⟨_, takes, reads⟩ := Outcome.exists_of_bind_eq_ok reads
      dsimp only at reads
      split at reads <;> cases reads
      exact leaves_of_takeBytes takes
  | field name encoding fallback =>
      cases sizeIs
      obtain ⟨_, own, same⟩ := Outcome.exists_of_bind_eq_ok reads
      cases same
      exact Encoding.leaves_of_read own
  | content name lengthField =>
      contradiction
  | computed name rule =>
      cases sizeIs
      obtain ⟨_, _, same⟩ := Outcome.exists_of_bind_eq_ok reads
      cases same
      exact ⟨Nat.zero_le _, rfl⟩
  | padding size =>
      cases sizeIs
      obtain ⟨_, takes, same⟩ := Outcome.exists_of_bind_eq_ok reads
      cases same
      exact leaves_of_takeBytes takes

namespace Layout

variable {layout before after : Layout} {part : Part} {name : String}

/-- A layout of fixed size takes as many bytes off the front. -/
theorem leaves_of_readFrom
    {fields final : Fields}
    {bytes rest : Bytes}
    {size : Nat}
    (sizeIs : layout.size? = some size)
    (reads : layout.readFrom fields bytes = .ok (final, rest)) :
    Bytes.Leaves size bytes rest := by
  induction layout generalizing fields bytes size with
  | nil =>
      cases sizeIs
      cases reads
      exact ⟨Nat.zero_le _, rfl⟩
  | cons part others inductionHypothesis =>
      obtain ⟨own, otherSize, ownIs, othersAre, rfl⟩ := exists_sizes sizeIs
      obtain ⟨⟨value?, middle⟩, first, later⟩ :=
        Outcome.exists_of_bind_eq_ok reads
      exact (Part.leaves_of_read ownIs first).trans
        (inductionHypothesis othersAre later)

/-- Parts are read where those before them have left off. -/
theorem readFrom_append
    (before after : Layout)
    (fields : Fields)
    (bytes : Bytes) :
    (before ++ after).readFrom fields bytes =
      (do
        let (earlier, middle) ← before.readFrom fields bytes
        after.readFrom earlier middle) := by
  induction before generalizing fields bytes with
  | nil =>
      rfl
  | cons part rest inductionHypothesis =>
      rw [List.cons_append, readFrom, readFrom]
      cases part.read fields bytes with
      | error fault =>
          rfl
      | ok result =>
          rw [Outcome.ok_bind, Outcome.ok_bind]
          exact inductionHypothesis _ _

/-- Names that a layout does not have keep their values. -/
theorem get?_of_readFrom
    {fields final : Fields}
    {bytes rest : Bytes}
    (unknown : name ∉ layout.names)
    (reads : layout.readFrom fields bytes = .ok (final, rest)) :
    final.get? name = fields.get? name := by
  induction layout generalizing fields bytes with
  | nil =>
      cases reads
      rfl
  | cons part others inductionHypothesis =>
      obtain ⟨⟨value?, middle⟩, _, later⟩ :=
        Outcome.exists_of_bind_eq_ok reads
      rw [names_cons, List.mem_append, not_or] at unknown
      have other : part.name? ≠ some name := fun named =>
        unknown.1 (by simp [named])
      rw [inductionHypothesis unknown.2 later, Part.get?_record other]

/--
A named part is read from what those before it leave, and its value is kept
unless a later part has the same name.
-/
theorem exists_decoded
    {final : Fields}
    {bytes left : Bytes}
    (named : part.name? = some name)
    (unknown : name ∉ after.names)
    (reads : (before ++ part :: after).read bytes = .ok (final, left)) :
    ∃ earlier middle value rest,
      before.read bytes = .ok (earlier, middle) ∧
        part.read earlier middle = .ok (some value, rest) ∧
        final.get? name = some value := by
  rw [read, readFrom_append] at reads
  obtain ⟨⟨earlier, middle⟩, front, reads⟩ :=
    Outcome.exists_of_bind_eq_ok reads
  obtain ⟨⟨value?, rest⟩, own, later⟩ :=
    Outcome.exists_of_bind_eq_ok reads
  have given := Part.isSome_of_read own
  rw [named, Option.isSome_some, Option.isSome_iff_exists] at given
  obtain ⟨value, rfl⟩ := given
  refine ⟨earlier, middle, value, rest, front, own, ?_⟩
  rw [get?_of_readFrom unknown later]
  simp only [Part.record, named, Fields.get?_set, if_true]

/-! ## Offsets of names -/

/-- A part has an offset if the size of all before it is known. -/
private theorem lookup_offsetsFrom_append
    (named : part.name? = some name)
    (unknownBefore : name ∉ before.names)
    (unknownAfter : name ∉ after.names)
    (start : Nat) :
    (offsetsFrom start (before ++ part :: after)).lookup name =
      before.size?.map fun size => start + size := by
  induction before generalizing start with
  | nil =>
      exact lookup_offsetsFrom_of_named named unknownAfter start
  | cons first rest inductionHypothesis =>
      rw [names_cons, List.mem_append, not_or] at unknownBefore
      have other : first.name? ≠ some name := fun same =>
        unknownBefore.1 (Option.mem_toList.mpr same)
      rw [List.cons_append, lookup_offsetsFrom_of_other other]
      cases firstIs : first.size? with
      | none =>
          simp [size?, firstIs]
      | some own =>
          rw [Option.bind_some, inductionHypothesis unknownBefore.2, size?,
            firstIs]
          cases size? rest with
          | none =>
              rfl
          | some others =>
              simp [Nat.add_assoc]

/--
The offset of a name that one part has is the size of what is before this part,
if that is fixed.
-/
theorem lookup_of_size?
    (named : part.name? = some name)
    (unknownBefore : name ∉ before.names)
    (unknownAfter : name ∉ after.names) :
    (offsets (before ++ part :: after)).lookup name = before.size? := by
  rw [offsets,
    lookup_offsetsFrom_append named unknownBefore unknownAfter]
  cases before.size? <;> simp

/-- A name is that of a part of the layout. -/
theorem exists_split
    (member : name ∈ layout.names) :
    ∃ before part after,
      layout = before ++ part :: after ∧ part.name? = some name := by
  obtain ⟨part, inLayout, named⟩ := List.mem_filterMap.mp member
  obtain ⟨before, after, split⟩ := List.append_of_mem inLayout
  exact ⟨before, part, after, split, named⟩

/--
If the names of some sort are distinct, one of them is that of one part only.
-/
theorem not_mem_names_of_nodup
    {kept : String → Bool}
    (distinct : ((before ++ part :: after).names.filter kept).Nodup)
    (named : part.name? = some name)
    (isKept : kept name = true) :
    name ∉ before.names ∧ name ∉ after.names := by
  have shape :
      (before ++ part :: after).names.filter kept =
        before.names.filter kept ++ name :: after.names.filter kept := by
    rw [names, List.filterMap_append, List.filterMap_cons, named,
      List.filter_append, List.filter_cons, if_pos isKept]
    rfl
  rw [shape, List.nodup_append] at distinct
  obtain ⟨_, behind, apart⟩ := distinct
  constructor
  · intro member
    exact apart name (List.mem_filter.mpr ⟨member, isKept⟩) name
      List.mem_cons_self rfl
  · intro member
    exact (List.nodup_cons.mp behind).1
      (List.mem_filter.mpr ⟨member, isKept⟩)

end Layout

/-! ## Listings of records -/

namespace RecordType

/--
How a named part was decoded, and where it is listed: at the size of what is
before it, or nowhere in particular if that is not fixed.
-/
structure Locates
    (type : RecordType)
    (bytes : Bytes)
    (addr : Int)
    (record : Record)
    (before : Layout)
    (part : Part)
    (name : String) : Prop where
  offset_eq :
    type.offset name = before.size?.elim (.error .missingField) .ok
  address_eq :
    record.addressOf name =
      before.size?.elim (.error .missingField) fun offset =>
        .ok (addr + offset)
  /-- The part is decoded in the context of the fields before it. -/
  decoded : ∃ earlier middle value rest,
    before.read bytes = .ok (earlier, middle) ∧
      (∀ offset, before.size? = some offset → middle = bytes.drop offset) ∧
      part.read earlier middle = .ok (some value, rest) ∧
      (isKept name = true → (before.size?, name, value) ∈ record.items)

/-- How the listing of a record agrees with how the record was read. -/
structure ListsAsRead
    (type : RecordType)
    (bytes : Bytes)
    (addr : Int)
    (record : Record) : Prop where
  once : (record.items.map fun item => item.2.1).Nodup
  complete : ∀ name,
    (name ∈ record.items.map fun item => item.2.1) ↔
      name ∈ type.layout.names ∧ isKept name = true
  /--
  A hidden name may be that of several parts, which then share one offset.
  -/
  located : ∀ (before after : Layout) (part : Part) (name : String),
    type.layout = before ++ part :: after →
    part.name? = some name →
    (isKept name = false → name ∉ before.names ∧ name ∉ after.names) →
    type.Locates bytes addr record before part name
  inOrder :
    type.IsRanked →
    (record.items.map fun item => item.2.1) = type.listedNames
  unplacedLast :
    type.IsRanked →
    record.items.Pairwise fun first second =>
      first.1 = none → second.1 = none
  placed : ∀ size,
    type.layout.size? = some size →
    ∀ item ∈ record.items, ∃ offset, item.1 = some offset

variable {type : RecordType} {bytes : Bytes} {addr : Int} {record : Record}

/-- A type is ranked if a record of it fits four gigabytes. -/
theorem isRanked_of_read
    (distinct : type.listedNames.Nodup)
    (reads : type.read bytes (some addr) = .ok record)
    (short : bytes.length ≤ lastRank) :
    type.IsRanked := by
  obtain ⟨final, left, layoutReads, _⟩ := read_eq_ok_iff.mp reads
  intro first member _ _ offset placed _
  obtain ⟨inLayout, isKept⟩ := List.mem_filter.mp member
  obtain ⟨before, part, after, split, named⟩ :=
    Layout.exists_split inLayout
  rw [listedNames, split] at distinct
  rw [split] at layoutReads placed
  obtain ⟨unknownBefore, unknownAfter⟩ :=
    Layout.not_mem_names_of_nodup distinct named isKept
  rw [Layout.lookup_of_size? named unknownBefore unknownAfter] at placed
  obtain ⟨earlier, middle, _, _, front, _⟩ :=
    Layout.exists_decoded named unknownAfter layoutReads
  exact Nat.le_trans (Layout.leaves_of_readFrom placed front).fits short

/--
The fields that are kept have the listed names, in the order of the layout.
-/
theorem names_of_kept
    (distinct : type.listedNames.Nodup)
    {final : Fields}
    {left : Bytes}
    (reads : type.layout.read bytes = .ok (final, left)) :
    (final.filter fun (name, _) => isKept name).map Prod.fst =
      type.listedNames := by
  have names := Layout.filter_names_of_readFrom reads distinct
  rw [List.filter_map] at names
  exact names

/--
A named part of a record that was read is decoded and listed at its offset.
-/
theorem locates_of_read
    {final : Fields}
    {left : Bytes}
    (reads : type.layout.read bytes = .ok (final, left))
    {before after : Layout}
    {part : Part}
    {name : String}
    (split : type.layout = before ++ part :: after)
    (named : part.name? = some name)
    (unknownBefore : name ∉ before.names)
    (unknownAfter : name ∉ after.names) :
    type.Locates bytes addr
      ⟨type, some addr, final.filter fun (name, _) => isKept name⟩
      before part name := by
  rw [split] at reads
  obtain ⟨earlier, middle, value, rest, front, own, valueIs⟩ :=
    Layout.exists_decoded named unknownAfter reads
  have offset : type.layout.offsets.lookup name = before.size? :=
    split ▸ Layout.lookup_of_size? named unknownBefore unknownAfter
  refine
    ⟨by rw [RecordType.offset, offset], ?_,
      earlier, middle, value, rest, front, ?_, own, ?_⟩
  · rw [Record.addressOf, RecordType.offset, offset]
    cases before.size? <;> rfl
  · intro size sizeIs
    exact (Layout.leaves_of_readFrom sizeIs front).rest_eq
  · intro kept
    obtain ⟨_, _, isSplit, _⟩ := List.lookup_eq_some_iff.mp valueIs
    have isField :
        (name, value) ∈ final.filter fun (name, _) => isKept name :=
      List.mem_filter.mpr ⟨by simp [isSplit], kept⟩
    exact offset ▸
      Record.mem_items
        (show (name, value) ∈ (Record.mk type (some addr) _).fields from
          isField)

/--
In the order of the layout, no field with an offset is behind one without.
-/
theorem pairwise_unplaced
    (distinct : type.listedNames.Nodup)
    {fields : Fields}
    (named : fields.map Prod.fst = type.listedNames) :
    fields.Pairwise fun first second =>
      type.layout.offsets.lookup first.1 = none →
      type.layout.offsets.lookup second.1 = none := by
  have ordered := Layout.pairwise_offsets distinct 0
  rw [← listedNames, ← named, List.pairwise_map] at ordered
  refine ordered.imp ?_
  intro first second placedBefore unplaced
  cases secondIs : type.layout.offsets.lookup second.1 with
  | none =>
      rfl
  | some high =>
      obtain ⟨low, firstIs, _⟩ := placedBefore high secondIs
      exact absurd (unplaced.symm.trans firstIs) (by simp)

/--
What a listing shows of a record agrees with how the record was read, whatever
its layout is, if no two listed fields have the same name.  It follows the order
of the layout unless a field without an offset is listed with one that is more
than four gigabytes away.
-/
theorem listing_agrees
    (distinct : type.listedNames.Nodup)
    (reads : type.read bytes (some addr) = .ok record) :
    type.ListsAsRead bytes addr record := by
  obtain ⟨final, left, layoutReads, rfl⟩ := read_eq_ok_iff.mp reads
  have named := names_of_kept distinct layoutReads
  have listed := Record.names_of_items
    ⟨type, some addr, final.filter fun (name, _) => isKept name⟩
  rw [named] at listed
  constructor
  case once =>
    exact listed.nodup_iff.mpr distinct
  case complete =>
    intro name
    rw [listed.mem_iff, listedNames, List.mem_filter]
  case located =>
    intro before after part name split ownName hiddenApart
    have apart : name ∉ before.names ∧ name ∉ after.names := by
      cases kept : isKept name with
      | false =>
          exact hiddenApart kept
      | true =>
          rw [listedNames, split] at distinct
          exact Layout.not_mem_names_of_nodup distinct ownName kept
    exact locates_of_read layoutReads split ownName apart.1 apart.2
  case inOrder =>
    intro ranked
    rw [items_of_names distinct ranked named, List.map_map, ← named]
    rfl
  case unplacedLast =>
    intro ranked
    rw [items_of_names distinct ranked named]
    exact List.pairwise_map.mpr (pairwise_unplaced distinct named)
  case placed =>
    intro size sizeIs item member
    obtain ⟨field, isField, rfl⟩ := Record.exists_field_of_mem_items member
    have isListed : field.1 ∈ type.listedNames :=
      named ▸ List.mem_map_of_mem isField
    exact Layout.exists_offset sizeIs (List.mem_filter.mp isListed).1 0

/--
A record with bytes without a meaning, a hidden field, a run of bytes as long as
a field says, a field behind it and a computed one.
-/
def runExample : RecordType :=
  ⟨"RunExample",
    [.field "first" (.word 2) none,
      .padding 2,
      .field "_hidden" (.word 1) none,
      .field "count" (.word 1) none,
      .content "run" "count",
      .field "last" (.word 1) none,
      .computed "again" fun fields => .ok (fields.get "count")]⟩

/-- Nine bytes with a hidden field, and a run of two bytes. -/
theorem listing_agrees_of_run :
    ∃ record,
      runExample.read [1, 0, 0, 0, 9, 2, 7, 8, 5] (some 0x1000) =
          .ok record ∧
        runExample.ListsAsRead [1, 0, 0, 0, 9, 2, 7, 8, 5] 0x1000
          record ∧
        (record.items.map fun item => item.2.1) =
          runExample.listedNames := by
  have isRead :
      (runExample.read [1, 0, 0, 0, 9, 2, 7, 8, 5] (some 0x1000)).isOk =
        true := by
    decide +kernel
  have distinct : runExample.listedNames.Nodup := by
    decide +kernel
  cases reads :
      runExample.read [1, 0, 0, 0, 9, 2, 7, 8, 5] (some 0x1000) with
  | error fault =>
      rw [reads] at isRead
      contradiction
  | ok record =>
      have agrees := listing_agrees distinct reads
      have ranked := isRanked_of_read distinct reads (by decide)
      exact ⟨record, rfl, agrees, agrees.inOrder ranked⟩

/--
A record with a byte far behind its beginning, a run of as many bytes as this
one says, and a field behind the run.
-/
def distantExample (distance : Nat) : RecordType :=
  ⟨"DistantExample",
    [.padding distance,
      .field "count" (.word 1) none,
      .content "run" "count",
      .field "last" (.word 1) none]⟩

/-- A record with two fields of one name. -/
def sharedExample : RecordType :=
  ⟨"SharedExample",
    [.field "twice" (.word 1) none,
      .field "once" (.word 1) none,
      .field "twice" (.word 1) none]⟩

section Distant

variable (distance : Nat) (addr? : Option Int)

theorem kept_distant :
    ∀ name ∈ (distantExample distance).layout.names,
      isKept name = true := by
  have kept : ∀ name ∈ ["count", "run", "last"], isKept name = true := by
    decide +kernel
  exact kept

/-- The far byte is zero, so that the run is empty. -/
theorem read_distant :
    (distantExample distance).read
        (List.replicate distance 0 ++ [0, 5]) addr? =
      .ok
        ⟨distantExample distance, addr?,
          [("count", .integer 0), ("run", .bytes []),
            ("last", .integer 5)]⟩ := by
  have padding :
      takeBytes distance (List.replicate distance 0 ++ [0, 5]) =
        .ok (List.replicate distance 0, [0, 5]) := by
    have length : (List.replicate distance (0 : UInt8)).length = distance :=
      List.length_replicate
    rw [takeBytes, if_pos (by simp), List.take_left' length,
      List.drop_left' length]
  have behind :
      Layout.readFrom []
          [.field "count" (.word 1) none, .content "run" "count",
            .field "last" (.word 1) none]
          [0, 5] =
        .ok
          ([("count", .integer 0), ("run", .bytes []),
            ("last", .integer 5)], []) :=
    rfl
  have reads :
      (distantExample distance).layout.read
          (List.replicate distance 0 ++ [0, 5]) =
        .ok
          ([("count", .integer 0), ("run", .bytes []),
            ("last", .integer 5)], []) := by
    rw [Layout.read, distantExample, Layout.readFrom, Part.read, padding]
    exact behind
  refine read_eq_ok_iff.mpr ⟨_, _, reads, ?_⟩
  rw [filter_isKept (kept_distant distance) rfl]

/--
Fields more than four gigabytes away stand behind those without an offset.
-/
theorem names_of_items_distant
    (far : lastRank < distance) :
    ((Record.items
        ⟨distantExample distance, addr?,
          [("count", .integer 0), ("run", .bytes []),
            ("last", .integer 5)]⟩).map fun item => item.2.1) =
      ["last", "count", "run"] := by
  have count :
      (distantExample distance).layout.offsets.lookup "count" =
        some (0 + distance) :=
    rfl
  have run :
      (distantExample distance).layout.offsets.lookup "run" =
        some (0 + distance + 1) :=
    rfl
  have last :
      (distantExample distance).layout.offsets.lookup "last" = none :=
    rfl
  have runBehind : ¬0 + distance + 1 ≤ lastRank := by omega
  have countBehind : ¬0 + distance ≤ lastRank := by omega
  simp only [Record.items, Fields.sortByRank, Fields.insertByRank, rank,
    count, run, last, Option.getD_some, Option.getD_none,
    if_neg runBehind, if_neg countBehind, Nat.le_succ, if_true,
    List.map_cons, List.map_nil]

end Distant

theorem kept_shared :
    ∀ name ∈ sharedExample.layout.names, isKept name = true := by
  decide +kernel

/-- Of two fields with one name, the last one is kept. -/
theorem read_shared :
    sharedExample.read [1, 2, 3] (some 0x1000) =
      .ok
        ⟨sharedExample, some 0x1000,
          [("twice", .integer 3), ("once", .integer 2)]⟩ := by
  have reads :
      sharedExample.layout.read [1, 2, 3] =
        .ok ([("twice", .integer 3), ("once", .integer 2)], []) :=
    rfl
  refine read_eq_ok_iff.mpr ⟨_, _, reads, ?_⟩
  have once := kept_shared "once" (by decide)
  have twice := kept_shared "twice" (by decide)
  simp only [List.filter_cons, once, twice, if_true, List.filter_nil]

/--
A listing does not follow the layout if a field is more than four gigabytes away
and another one has no offset, and it does not show a field whose name a later
one has.
-/
theorem listing_disagrees :
    (∃ record,
      (distantExample (2 ^ 32 + 1)).read
          (List.replicate (2 ^ 32 + 1) 0 ++ [0, 5]) (some 0x1000) =
          .ok record ∧
        (distantExample (2 ^ 32 + 1)).listedNames =
          ["count", "run", "last"] ∧
        (record.items.map fun item => item.2.1) =
          ["last", "count", "run"]) ∧
      ∃ record,
        sharedExample.read [1, 2, 3] (some 0x1000) = .ok record ∧
          sharedExample.listedNames = ["twice", "once", "twice"] ∧
          (record.items.map fun item => item.2.1) = ["once", "twice"] := by
  have far : lastRank < 2 ^ 32 + 1 := Nat.lt_succ_self _
  refine
    ⟨⟨_, read_distant (2 ^ 32 + 1) (some 0x1000),
        List.filter_eq_self.mpr (kept_distant (2 ^ 32 + 1)),
        names_of_items_distant (2 ^ 32 + 1) (some 0x1000) far⟩,
      _, read_shared, List.filter_eq_self.mpr kept_shared, rfl⟩

end RecordType

end VideoCore
