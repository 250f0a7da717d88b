import VideoCore.Compressed
import VideoCore.Proofs.Record.Placement

namespace VideoCore

/-!
# Listings of regions

The entries of a walk are those of packets, each with its fields, and of forms,
up to a last packet that is refused or to an error (`Listing`).  Such entries
account for the bytes of a region: the items lie side by side, with the fields
of each packet inside it, and the addresses never go back (`Listing.isTiling`).
-/

namespace Entry

/-- Whether an entry is for a packet or a form. -/
def isItem (entry : Entry) : Bool :=
  entry.kind == .packet || entry.kind == .compressed

/--
The number of bytes of the item that an entry is for, given the first of them.
-/
def sizeWith?
    (entry : Entry)
    (first : UInt8) : Option Nat :=
  match entry.kind with
  | .packet => (PacketType.find? first.toNat).map PacketType.size
  | .compressed => some (IndexForm.ofCode first.toNat).size
  | _ => none

/--
Whether an entry is for an item that takes the bytes from `low` up to `high`.
-/
def Spans
    (byteAt? : Int → Option UInt8)
    (entry : Entry)
    (low high : Int) : Prop :=
  ∃ first size,
    entry.addr = some low ∧
      byteAt? low = some first ∧
      entry.sizeWith? first = some size ∧
      high = low + size

/-- Whether an entry says why the packet before it is not passed. -/
structure IsRefusal (entry : Entry) : Prop where
  isError : entry.kind = .error
  named : entry.name = overflow ∨ entry.name = unresolved

/-- Whether items fill the bytes from an address up to another one, in order. -/
inductive Tiles (byteAt? : Int → Option UInt8) :
    Int → List Entry → Int → Prop where
  | nil (addr : Int) :
      Tiles byteAt? addr [] addr
  | cons
      {low middle high : Int}
      {entry : Entry}
      {rest : List Entry}
      (spans : entry.Spans byteAt? low middle)
      (later : Tiles byteAt? middle rest high) :
      Tiles byteAt? low (entry :: rest) high

/--
Whether a packet is the last item of a listing, and is refused at its end.
-/
def IsRefused
    (packet : Entry)
    (entries : List Entry) : Prop :=
  ∃ before fields error,
    entries = before ++ packet :: (fields ++ [error]) ∧
      packet.kind = .packet ∧
      (∀ field ∈ fields, field.kind = .field) ∧
      error.IsRefusal

/-- Whether every field in a listing follows a packet and lies within it. -/
def FieldsAreOwned
    (byteAt? : Int → Option UInt8)
    (entries : List Entry) : Prop :=
  ∀ before field after,
    entries = before ++ field :: after →
    field.kind = .field →
    ∃ earlier packet between low high addr,
      before = earlier ++ packet :: between ∧
        packet.kind = .packet ∧
        (∀ other ∈ between, other.kind = .field) ∧
        packet.Spans byteAt? low high ∧
        field.addr = some addr ∧ low ≤ addr ∧ addr ≤ high

/--
Whether the items of a listing lie side by side from `start` up to the address
that is reached, none of them behind `limit`.  Only a packet that is refused may
be left over.
-/
def ItemsTile
    (byteAt? : Int → Option UInt8)
    (start limit reached : Int)
    (entries : List Entry) : Prop :=
  ∃ consumed leftover,
    entries.filter isItem = consumed ++ leftover ∧
      Tiles byteAt? start consumed reached ∧
      (∀ entry ∈ consumed,
        ∃ low high,
          entry.Spans byteAt? low high ∧ start ≤ low ∧ high ≤ limit) ∧
      (leftover = [] ∨
        ∃ packet high,
          leftover = [packet] ∧
            packet.Spans byteAt? reached high ∧
            packet.IsRefused entries)

/-- Whether a listing accounts for the bytes of a region, item by item. -/
structure IsTiling
    (byteAt? : Int → Option UInt8)
    (start limit reached : Int)
    (entries : List Entry) : Prop where
  items : ItemsTile byteAt? start limit reached entries
  fields : FieldsAreOwned byteAt? entries
  ordered :
    (entries.filter fun entry => entry.kind ≠ .error).Pairwise Precedes

/-! ## Listings -/

/-- Whether a packet is listed with its fields, all of them within it. -/
structure IsPacketListing
    (byteAt? : Int → Option UInt8)
    (low high : Int)
    (packet : Entry)
    (fields : List Entry) : Prop where
  isPacket : packet.kind = .packet
  spans : packet.Spans byteAt? low high
  within : AreFieldsWithin low high fields

/--
The entries of a walk from an address on, and the address that it reaches.
-/
inductive Listing
    (byteAt? : Int → Option UInt8)
    (limit : Int) :
    Int → List Entry → Int → Prop where
  /-- Nothing but errors is left. -/
  | ends
      {addr : Int}
      {errors : List Entry}
      (areErrors : ∀ entry ∈ errors, entry.kind = .error) :
      Listing byteAt? limit addr errors addr
  /-- A packet is refused. -/
  | refused
      {addr high : Int}
      {packet error : Entry}
      {fields : List Entry}
      (listed : IsPacketListing byteAt? addr high packet fields)
      (refusal : error.IsRefusal) :
      Listing byteAt? limit addr (packet :: (fields ++ [error])) addr
  | packet
      {addr next reached : Int}
      {packet : Entry}
      {fields rest : List Entry}
      (listed : IsPacketListing byteAt? addr next packet fields)
      (inside : next ≤ limit)
      (later : Listing byteAt? limit next rest reached) :
      Listing byteAt? limit addr (packet :: (fields ++ rest)) reached
  | form
      {addr next reached : Int}
      {entry : Entry}
      {rest : List Entry}
      (isForm : entry.kind = .compressed)
      (spans : entry.Spans byteAt? addr next)
      (inside : next ≤ limit)
      (later : Listing byteAt? limit next rest reached) :
      Listing byteAt? limit addr (entry :: rest) reached

variable {byteAt? : Int → Option UInt8} {limit low high addr reached : Int}
  {packet entry : Entry} {fields rest entries : List Entry}

theorem Spans.le
    (spans : entry.Spans byteAt? low high) :
    low ≤ high := by
  obtain ⟨_, size, _, _, _, rfl⟩ := spans
  omega

/-- A packet is the only item among its own entries. -/
theorem IsPacketListing.filter_isItem
    (listed : IsPacketListing byteAt? low high packet fields)
    (rest : List Entry) :
    (packet :: (fields ++ rest)).filter isItem =
      packet :: rest.filter isItem := by
  have noItems : fields.filter isItem = [] := by
    rw [List.filter_eq_nil_iff]
    intro field member
    simp [isItem, listed.within.areFields field member]
  rw [List.filter_cons_of_pos (by simp [isItem, listed.isPacket]),
    List.filter_append, noItems, List.nil_append]

/-- Whether an entry, unless it is an error, has an address from `low` on. -/
def IsFrom
    (low : Int)
    (entry : Entry) : Prop :=
  entry.kind ≠ .error →
  ∃ place, entry.addr = some place ∧ low ≤ place

/-- Whether two entries are in order, unless one of them is an error. -/
def InOrder (first second : Entry) : Prop :=
  first.kind ≠ .error → second.kind ≠ .error → first.Precedes second

theorem IsFrom.mono
    (isFrom : entry.IsFrom high)
    (lower : low ≤ high) :
    entry.IsFrom low := by
  intro notError
  obtain ⟨place, placeIs, upper⟩ := isFrom notError
  exact ⟨place, placeIs, Int.le_trans lower upper⟩

namespace IsPacketListing

/-- A packet, its fields and all behind them begin where the packet does. -/
theorem areFrom
    (listed : IsPacketListing byteAt? low high packet fields)
    (later : ∀ entry ∈ rest, entry.IsFrom high) :
    ∀ entry ∈ packet :: (fields ++ rest), entry.IsFrom low := by
  intro entry member
  rcases List.mem_cons.mp member with rfl | member
  · obtain ⟨_, _, addrIs, _⟩ := listed.spans
    exact fun _ => ⟨low, addrIs, Int.le_refl _⟩
  · rcases List.mem_append.mp member with own | other
    · obtain ⟨place, placeIs, lower, _⟩ := listed.within.inside entry own
      exact fun _ => ⟨place, placeIs, lower⟩
    · exact (later entry other).mono listed.spans.le

/-- A packet stands before its fields, and these before all that comes later. -/
theorem ordered
    (listed : IsPacketListing byteAt? low high packet fields)
    (restOrdered : rest.Pairwise InOrder)
    (later : ∀ entry ∈ rest, entry.IsFrom high) :
    (packet :: (fields ++ rest)).Pairwise InOrder := by
  have fieldsFirst :
      ∀ field ∈ fields, ∀ other ∈ rest, field.InOrder other := by
    intro field member other otherMember _ notError
    obtain ⟨place, placeIs, _, upper⟩ := listed.within.inside field member
    obtain ⟨otherPlace, otherIs, lower⟩ :=
      later other otherMember notError
    exact ⟨place, otherPlace, placeIs, otherIs, Int.le_trans upper lower⟩
  have fieldsOrdered : fields.Pairwise InOrder :=
    listed.within.ordered.imp fun precedes _ _ => precedes
  refine
    List.pairwise_cons.mpr
      ⟨?_, List.pairwise_append.mpr
        ⟨fieldsOrdered, restOrdered, fieldsFirst⟩⟩
  intro other member _ notError
  obtain ⟨_, _, addrIs, _⟩ := listed.spans
  obtain ⟨place, placeIs, lower⟩ :=
    listed.areFrom later other (List.mem_cons_of_mem _ member) notError
  exact ⟨low, place, addrIs, placeIs, lower⟩

end IsPacketListing

namespace FieldsAreOwned

theorem of_not_field
    (others : ∀ entry ∈ entries, entry.kind ≠ .field) :
    FieldsAreOwned byteAt? entries := by
  rintro before field after rfl isField
  exact absurd isField (others field (by simp))

theorem cons
    (owned : FieldsAreOwned byteAt? rest)
    (other : entry.kind ≠ .field) :
    FieldsAreOwned byteAt? (entry :: rest) := by
  intro before field after split isField
  cases before with
  | nil =>
      cases split
      exact absurd isField other
  | cons head before =>
      cases split
      obtain ⟨earlier, packet, between, low, high, addr, rfl, found⟩ :=
        owned before field after rfl isField
      exact ⟨_ :: earlier, packet, between, low, high, addr, rfl, found⟩

/-- Entries behind a packet with its own fields come after all of these. -/
theorem behindPacket
    (listed : IsPacketListing byteAt? low high packet fields)
    (owned : FieldsAreOwned byteAt? rest) :
    FieldsAreOwned byteAt? (packet :: (fields ++ rest)) := by
  intro before field after split isField
  cases before with
  | nil =>
      cases split
      rw [listed.isPacket] at isField
      contradiction
  | cons head before =>
      rw [List.cons_append, List.cons.injEq] at split
      obtain ⟨rfl, split⟩ := split
      -- The field stands behind the packet's own fields, or is one of them.
      rcases List.append_eq_append_iff.mp split with
        ⟨between, rfl, restIs⟩ | ⟨own, fieldsAre, ownIs⟩
      · obtain ⟨earlier, owner, others, low, high, addr, rfl, found⟩ :=
          owned between field after restIs isField
        exact ⟨packet :: (fields ++ earlier), owner, others, low, high, addr,
          by simp, found⟩
      · cases own with
        | nil =>
            obtain ⟨earlier, _, _, _, _, _, nothing, _⟩ :=
              owned [] field after ownIs.symm isField
            exact absurd nothing (by simp)
        | cons first others =>
            cases ownIs
            have member : field ∈ fields := by simp [fieldsAre]
            obtain ⟨addr, addrIs, lower, upper⟩ :=
              listed.within.inside field member
            refine
              ⟨[], packet, before, low, high, addr, rfl, listed.isPacket,
                ?_, listed.spans, addrIs, lower, upper⟩
            intro other otherMember
            exact listed.within.areFields other
              (by simp [fieldsAre, otherMember])

end FieldsAreOwned

/-- An item in front of others that lie side by side is one more of them. -/
theorem ItemsTile.prepend
    {next : Int}
    (group : List Entry)
    (tile : ItemsTile byteAt? next limit reached rest)
    (spans : entry.Spans byteAt? addr next)
    (inside : next ≤ limit)
    (itemsAre :
      (group ++ rest).filter isItem = entry :: rest.filter isItem) :
    ItemsTile byteAt? addr limit reached (group ++ rest) := by
  obtain ⟨consumed, leftover, shape, tiles, within, ending⟩ := tile
  refine
    ⟨entry :: consumed, leftover, by rw [itemsAre, shape]; rfl,
      .cons spans tiles,
      List.forall_mem_cons.mpr
        ⟨⟨addr, next, spans, Int.le_refl _, inside⟩, ?_⟩,
      ending.imp_right ?_⟩
  · intro other member
    obtain ⟨low, high, otherSpans, lower, upper⟩ := within other member
    exact ⟨low, high, otherSpans, Int.le_trans spans.le lower, upper⟩
  · rintro ⟨packet, high, leftIs, packetSpans, before, fields, error,
      rfl, isRefused⟩
    exact ⟨packet, high, leftIs, packetSpans, group ++ before, fields, error,
      (List.append_assoc ..).symm, isRefused⟩

namespace Listing

/-- The items of a listing tile what it reaches. -/
theorem itemsTile
    (listing : Listing byteAt? limit addr entries reached) :
    ItemsTile byteAt? addr limit reached entries := by
  induction listing with
  | @ends addr errors areErrors =>
      have noItems : errors.filter isItem = [] := by
        rw [List.filter_eq_nil_iff]
        intro entry member
        simp [isItem, areErrors entry member]
      exact ⟨[], [], noItems, .nil addr, by simp, .inl rfl⟩
  | @refused addr high packet error fields listed refusal =>
      refine
        ⟨[], [packet], ?_, .nil addr, by simp,
          .inr ⟨packet, high, rfl, listed.spans, [], fields, error, rfl,
            listed.isPacket, listed.within.areFields, refusal⟩⟩
      rw [listed.filter_isItem]
      simp [isItem, refusal.isError]
  | packet listed inside later inductionHypothesis =>
      exact inductionHypothesis.prepend (_ :: _) listed.spans inside
        (listed.filter_isItem _)
  | @form addr next reached entry rest isForm spans inside later
      inductionHypothesis =>
      exact inductionHypothesis.prepend [entry] spans inside
        (List.filter_cons_of_pos (by simp [isItem, isForm]))

/-- The entries of a listing but errors have addresses from where it begins. -/
theorem areFrom
    (listing : Listing byteAt? limit addr entries reached) :
    ∀ entry ∈ entries, entry.IsFrom addr := by
  induction listing with
  | ends areErrors =>
      exact fun entry member notError =>
        absurd (areErrors entry member) notError
  | refused listed refusal =>
      refine listed.areFrom ?_
      simp [IsFrom, refusal.isError]
  | packet listed inside later inductionHypothesis =>
      exact listed.areFrom inductionHypothesis
  | form isForm spans inside later inductionHypothesis =>
      have lower := spans.le
      obtain ⟨_, _, addrIs, _⟩ := spans
      refine
        List.forall_mem_cons.mpr
          ⟨fun _ => ⟨_, addrIs, Int.le_refl _⟩, ?_⟩
      exact fun entry member =>
        (inductionHypothesis entry member).mono lower

/-- The entries of a listing are in the order of their addresses. -/
theorem ordered
    (listing : Listing byteAt? limit addr entries reached) :
    entries.Pairwise InOrder := by
  induction listing with
  | @ends addr errors areErrors =>
      refine List.pairwise_of_forall_mem_list ?_
      exact fun first member _ _ notError =>
        absurd (areErrors first member) notError
  | refused listed refusal =>
      refine listed.ordered (List.pairwise_singleton ..) ?_
      simp [IsFrom, refusal.isError]
  | packet listed inside later inductionHypothesis =>
      exact listed.ordered inductionHypothesis later.areFrom
  | form isForm spans inside later inductionHypothesis =>
      have lower := spans.le
      obtain ⟨_, _, addrIs, _⟩ := spans
      refine List.pairwise_cons.mpr ⟨?_, inductionHypothesis⟩
      intro other member _ notError
      obtain ⟨place, placeIs, upper⟩ :=
        later.areFrom other member notError
      exact ⟨_, place, addrIs, placeIs, Int.le_trans lower upper⟩

/-- Every field of a listing belongs to a packet in front of it. -/
theorem fieldsAreOwned
    (listing : Listing byteAt? limit addr entries reached) :
    FieldsAreOwned byteAt? entries := by
  induction listing with
  | ends areErrors =>
      exact .of_not_field fun entry member => by
        simp [areErrors entry member]
  | refused listed refusal =>
      exact .behindPacket listed
        (.of_not_field (by simp [refusal.isError]))
  | packet listed inside later inductionHypothesis =>
      exact .behindPacket listed inductionHypothesis
  | form isForm spans inside later inductionHypothesis =>
      exact inductionHypothesis.cons (by simp [isForm])

theorem isTiling
    (listing : Listing byteAt? limit addr entries reached) :
    IsTiling byteAt? addr limit reached entries where
  items := listing.itemsTile
  fields := listing.fieldsAreOwned
  ordered := by
    simp only [List.pairwise_filter, decide_eq_true_eq]
    exact listing.ordered

end Listing

end Entry

end VideoCore
