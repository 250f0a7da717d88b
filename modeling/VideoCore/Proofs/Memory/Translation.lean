import Mathlib.Logic.Equiv.Defs
import VideoCore.Proofs.Memory.Rearrangement
import VideoCore.Proofs.Outcome

namespace VideoCore.Memory

/-!
# Translation of addresses

A place in a buffer has one address, but an address may have places in several
buffers.  It resolves to the first of them, so that translating an address into
a place and back gives the address again, while a place may come back as an
earlier one (`locate_translates`).
-/

/-- Whether a place is inside a buffer. -/
def Holds
    (memory : Memory)
    (location : Location) : Prop :=
  ∃ (index : Nat) (buffer : Buffer),
    memory[index]? = some buffer ∧
      location.buffer = index ∧
      0 ≤ location.offset ∧
      location.offset < buffer.size

/-- Whether a place is that of an address in a buffer that covers it. -/
def IsPlaceOf
    (memory : Memory)
    (location : Location)
    (addr : Int) : Prop :=
  ∃ (index : Nat) (buffer : Buffer),
    memory[index]? = some buffer ∧
      buffer.contains addr = true ∧
      location = ⟨index, addr - buffer.paddr⟩

/-- Whether no buffer before that of a place covers an address. -/
def IsFirst
    (memory : Memory)
    (location : Location)
    (addr : Int) : Prop :=
  ∀ other ∈ memory.take location.buffer.toNat, other.contains addr = false

/-- The addresses that some buffer covers. -/
abbrev CoveredAddress (memory : Memory) : Type :=
  { addr // memory.Covers addr }

/-- The places inside the buffers. -/
abbrev HeldPlace (memory : Memory) : Type :=
  { location // memory.Holds location }

/--
Whether translation into places and translation into addresses are the inverse
of each other, on the covered addresses and the places inside the buffers.
-/
def IsInvertible (memory : Memory) : Prop :=
  ∃ places : memory.CoveredAddress ≃ memory.HeldPlace,
    (∀ addr : memory.CoveredAddress,
      memory.locate addr.val = .ok (places addr).val) ∧
      ∀ location : memory.HeldPlace,
        memory.addressOf location.val = .ok (places.symm location).val

variable {memory : Memory} {location other : Location}
  {addr otherAddr : Int} {index start : Nat} {buffer : Buffer}

/-! ## The first buffer of an address -/

/-- The search finds the first buffer that covers an address, with its index. -/
theorem findFrom_eq_some_iff :
    memory.findFrom addr start = some (index, buffer) ↔
      ∃ place,
        index = start + place ∧
          memory[place]? = some buffer ∧
          buffer.contains addr = true ∧
          ∀ earlier ∈ memory.take place, earlier.contains addr = false := by
  induction memory generalizing start with
  | nil =>
      simp [findFrom]
  | cons head rest inductionHypothesis =>
      cases covers : head.contains addr with
      | true =>
          rw [findFrom, if_pos covers, Option.some.injEq, Prod.mk.injEq]
          constructor
          · rintro ⟨rfl, rfl⟩
            exact ⟨0, rfl, rfl, covers, by simp⟩
          · rintro ⟨place, rfl, stored, _, uncovered⟩
            cases place with
            | zero =>
                exact ⟨rfl, Option.some.inj stored⟩
            | succ place =>
                have first := uncovered head (by simp)
                rw [covers] at first
                contradiction
      | false =>
          rw [findFrom, if_neg (by simp [covers]), inductionHypothesis]
          constructor
          · rintro ⟨place, rfl, stored, contains, uncovered⟩
            refine ⟨place + 1, by omega, stored, contains, ?_⟩
            rw [List.take_succ_cons]
            exact List.forall_mem_cons.mpr ⟨covers, uncovered⟩
          · rintro ⟨place, rfl, stored, contains, uncovered⟩
            cases place with
            | zero =>
                cases stored
                rw [covers] at contains
                contradiction
            | succ place =>
                rw [List.take_succ_cons] at uncovered
                exact ⟨place, by omega, stored, contains,
                  (List.forall_mem_cons.mp uncovered).2⟩

/-- What is found for an address is the first buffer that contains it. -/
theorem find_eq_ok_iff :
    memory.find addr = .ok (index, buffer) ↔
      memory[index]? = some buffer ∧
        buffer.contains addr = true ∧
        ∀ earlier ∈ memory.take index, earlier.contains addr = false := by
  have found_iff :
      memory.find addr = .ok (index, buffer) ↔
        memory.findFrom addr 0 = some (index, buffer) := by
    rw [find]
    cases memory.findFrom addr 0 <;> simp
  rw [found_iff, findFrom_eq_some_iff]
  simp

/-! ## Places and addresses -/

/-- An address resolves to its first place. -/
theorem locate_eq_ok_iff :
    memory.locate addr = .ok location ↔
      memory.IsPlaceOf location addr ∧ memory.IsFirst location addr := by
  constructor
  · intro located
    obtain ⟨⟨index, buffer⟩, found, locationIs⟩ :=
      Outcome.exists_of_bind_eq_ok located
    cases locationIs
    obtain ⟨stored, contains, first⟩ := find_eq_ok_iff.mp found
    exact ⟨⟨index, buffer, stored, contains, rfl⟩, first⟩
  · rintro ⟨⟨index, buffer, stored, contains, rfl⟩, first⟩
    rw [locate, find_eq_ok_iff.mpr ⟨stored, contains, first⟩]
    rfl

/-- A place has the address whose place it is. -/
theorem addressOf_eq_ok_iff :
    memory.addressOf location = .ok addr ↔
      memory.IsPlaceOf location addr := by
  constructor
  · intro translated
    obtain ⟨position, offset⟩ := location
    unfold addressOf at translated
    split at translated
    · contradiction
    · next nonnegative =>
        split at translated
        · contradiction
        · next buffer stored =>
            split at translated
            · next inside =>
                cases translated
                refine
                  ⟨position.toNat, buffer, stored,
                    Buffer.contains_iff.mpr ⟨by omega, by omega⟩, ?_⟩
                rw [Location.mk.injEq]
                dsimp only at nonnegative ⊢
                omega
            · contradiction
  · rintro ⟨index, buffer, stored, contains, rfl⟩
    have inside := Buffer.contains_iff.mp contains
    unfold addressOf
    rw [if_neg (by dsimp only; omega), Int.toNat_natCast, stored]
    have back : buffer.paddr + (addr - buffer.paddr) = addr := by omega
    dsimp only
    rw [if_pos (by omega), back]

namespace IsPlaceOf

theorem holds
    (isPlace : memory.IsPlaceOf location addr) :
    memory.Holds location := by
  obtain ⟨index, buffer, stored, contains, rfl⟩ := isPlace
  have inside := Buffer.contains_iff.mp contains
  exact ⟨index, buffer, stored, rfl, by dsimp only; omega,
    by dsimp only; omega⟩

theorem covers
    (isPlace : memory.IsPlaceOf location addr) :
    memory.Covers addr := by
  obtain ⟨index, buffer, stored, contains, rfl⟩ := isPlace
  exact ⟨buffer, List.mem_of_getElem? stored, contains⟩

/-- A place has one address only. -/
theorem addr_eq
    (isPlace : memory.IsPlaceOf location addr)
    (isOtherPlace : memory.IsPlaceOf location otherAddr) :
    addr = otherAddr :=
  Except.ok.inj
    ((addressOf_eq_ok_iff.mpr isPlace).symm.trans
      (addressOf_eq_ok_iff.mpr isOtherPlace))

/-- The buffer of a place covers the address. -/
theorem exists_buffer
    (isPlace : memory.IsPlaceOf location addr) :
    ∃ buffer,
      memory[location.buffer.toNat]? = some buffer ∧
        buffer.contains addr = true := by
  obtain ⟨index, buffer, stored, contains, rfl⟩ := isPlace
  exact ⟨buffer, by rwa [Int.toNat_natCast], contains⟩

theorem buffer_nonneg
    (isPlace : memory.IsPlaceOf location addr) :
    0 ≤ location.buffer := by
  obtain ⟨index, _, _, _, rfl⟩ := isPlace
  exact Int.natCast_nonneg index

end IsPlaceOf

/-- Every place inside a buffer has an address. -/
theorem Holds.exists_isPlaceOf
    (holds : memory.Holds location) :
    ∃ addr, memory.IsPlaceOf location addr := by
  obtain ⟨index, buffer, stored, bufferIs, lower, upper⟩ := holds
  obtain ⟨position, offset⟩ := location
  dsimp only at bufferIs lower upper
  subst bufferIs
  have back : offset = buffer.paddr + offset - buffer.paddr := by omega
  exact ⟨buffer.paddr + offset, index, buffer, stored,
    Buffer.contains_iff.mpr ⟨by omega, by omega⟩, congrArg _ back⟩

/-- Every covered address has a first place. -/
theorem Covers.exists_locate
    (covered : memory.Covers addr) :
    ∃ location, memory.locate addr = .ok location := by
  obtain ⟨index, buffer, _, found, _⟩ := find_of_covers covered
  exact ⟨_, by rw [locate, found]; rfl⟩

/-- The first place of an address is in no later buffer than any other place. -/
theorem IsFirst.buffer_le
    (isFirst : memory.IsFirst location addr)
    (isPlace : memory.IsPlaceOf other addr) :
    location.buffer ≤ other.buffer := by
  by_contra later
  obtain ⟨buffer, stored, contains⟩ := isPlace.exists_buffer
  have nonnegative := isPlace.buffer_nonneg
  have before :
      (memory.take location.buffer.toNat)[other.buffer.toNat]? =
        some buffer := by
    rw [List.getElem?_take_of_lt (by omega), stored]
  rw [isFirst buffer (List.mem_of_getElem? before)] at contains
  contradiction

/-- Where no address is covered twice, every place is the first one. -/
theorem IsDisjoint.isFirst
    (disjoint : memory.IsDisjoint)
    (isPlace : memory.IsPlaceOf location addr) :
    memory.IsFirst location addr := by
  intro earlier member
  obtain ⟨buffer, stored, contains⟩ := isPlace.exists_buffer
  have behind : (memory.drop location.buffer.toNat)[0]? = some buffer := by
    rw [List.getElem?_drop, Nat.add_zero, stored]
  rw [IsDisjoint,
    ← List.take_append_drop location.buffer.toNat memory] at disjoint
  have apart :=
    (List.pairwise_append.mp disjoint).2.2 earlier member buffer
      (List.mem_of_getElem? behind)
  rw [← Bool.not_eq_true]
  exact fun covers => apart addr ⟨covers, contains⟩

/-- Where no address is covered twice, translation can be undone both ways. -/
theorem IsDisjoint.isInvertible
    (disjoint : memory.IsDisjoint) :
    memory.IsInvertible := by
  have hasPlace :
      ∀ addr : memory.CoveredAddress,
        ∃ location : memory.HeldPlace,
          memory.locate addr.val = .ok location.val := by
    rintro ⟨addr, covered⟩
    obtain ⟨location, located⟩ := covered.exists_locate
    exact ⟨⟨location, (locate_eq_ok_iff.mp located).1.holds⟩, located⟩
  choose place isPlace using hasPlace
  have injective : Function.Injective place := by
    intro first second same
    have firstPlace := (locate_eq_ok_iff.mp (isPlace first)).1
    rw [same] at firstPlace
    exact Subtype.ext
      (firstPlace.addr_eq (locate_eq_ok_iff.mp (isPlace second)).1)
  have surjective : Function.Surjective place := by
    rintro ⟨location, holds⟩
    obtain ⟨addr, isPlaceOf⟩ := holds.exists_isPlaceOf
    have located :=
      locate_eq_ok_iff.mpr ⟨isPlaceOf, disjoint.isFirst isPlaceOf⟩
    refine ⟨⟨addr, isPlaceOf.covers⟩, Subtype.ext ?_⟩
    exact Except.ok.inj ((isPlace _).symm.trans located)
  let places := Equiv.ofBijective place ⟨injective, surjective⟩
  refine ⟨places, isPlace, fun location => ?_⟩
  have located := isPlace (places.symm location)
  have backAgain : place (places.symm location) = location :=
    places.apply_symm_apply location
  rw [backAgain] at located
  exact addressOf_eq_ok_iff.mpr (locate_eq_ok_iff.mp located).1

/--
Addresses and places are translated into each other.  An address resolves if a
buffer covers it, and then to its place in the first such buffer, whose address
it is; its region ends behind it.  A place has an address if it is inside a
buffer, the one whose place it is; that address resolves to a place in the same
buffer or an earlier one, and to the same place exactly if no earlier buffer
covers it.  Where no address
is covered twice, the two translations are the inverse of each other.
-/
theorem locate_translates
    (memory : Memory) :
    (∀ addr,
      ((∃ location, memory.locate addr = .ok location) ↔
          memory.Covers addr) ∧
        ((∃ limit, memory.regionEnd addr = .ok limit) ↔
          memory.Covers addr) ∧
        (∀ limit, memory.regionEnd addr = .ok limit → addr < limit) ∧
        ∀ location,
          memory.locate addr = .ok location →
          memory.IsPlaceOf location addr ∧
            memory.IsFirst location addr ∧
            memory.Holds location ∧
            memory.addressOf location = .ok addr) ∧
      (∀ location,
        ((∃ addr, memory.addressOf location = .ok addr) ↔
            memory.Holds location) ∧
          ∀ addr,
            memory.addressOf location = .ok addr →
            memory.IsPlaceOf location addr ∧
              ∃ first,
                memory.locate addr = .ok first ∧
                  first.buffer ≤ location.buffer ∧
                  (first = location ↔ memory.IsFirst location addr)) ∧
      (memory.IsDisjoint → memory.IsInvertible) := by
  refine ⟨fun addr => ⟨?_, ?_, fun _ => lt_of_regionEnd, ?_⟩,
    fun location => ⟨?_, ?_⟩, IsDisjoint.isInvertible⟩
  · constructor
    · rintro ⟨location, located⟩
      exact (locate_eq_ok_iff.mp located).1.covers
    · exact Covers.exists_locate
  · constructor
    · rintro ⟨limit, resolved⟩
      exact covers_of_regionEnd resolved
    · intro covered
      obtain ⟨limit, resolved, _⟩ := regionEnd_of_covers covered
      exact ⟨limit, resolved⟩
  · intro location located
    obtain ⟨isPlace, isFirst⟩ := locate_eq_ok_iff.mp located
    exact ⟨isPlace, isFirst, isPlace.holds, addressOf_eq_ok_iff.mpr isPlace⟩
  · constructor
    · rintro ⟨addr, translated⟩
      exact (addressOf_eq_ok_iff.mp translated).holds
    · intro holds
      obtain ⟨addr, isPlace⟩ := holds.exists_isPlaceOf
      exact ⟨addr, addressOf_eq_ok_iff.mpr isPlace⟩
  · intro addr translated
    have isPlace := addressOf_eq_ok_iff.mp translated
    obtain ⟨first, located⟩ := isPlace.covers.exists_locate
    obtain ⟨isFirstPlace, isFirst⟩ := locate_eq_ok_iff.mp located
    refine ⟨isPlace, first, located, isFirst.buffer_le isPlace, ?_⟩
    constructor
    · rintro rfl
      exact isFirst
    · intro alsoFirst
      have alsoLocated := locate_eq_ok_iff.mpr ⟨isPlace, alsoFirst⟩
      exact Except.ok.inj (located.symm.trans alsoLocated)

/-- A buffer above the first four gigabytes. -/
def highBuffer : Buffer :=
  ⟨1, 0x100000000, #[1, 2], some 0⟩

/-- The same buffer, with one without bytes at its last address. -/
def highMemory : Memory :=
  [highBuffer, ⟨2, 0x100000001, #[], some 1⟩]

/-- The same buffer, with another one that covers its last address, too. -/
def overlappingMemory : Memory :=
  [highBuffer, ⟨3, 0x100000001, #[3], some 1⟩]

/-- A place in the second buffer comes back as one in the first. -/
theorem locate_translates_overlapping :
    highMemory.IsInvertible ∧
      overlappingMemory.addressOf ⟨1, 0⟩ = .ok 0x100000001 ∧
      ∃ first,
        overlappingMemory.locate 0x100000001 = .ok first ∧
          first.buffer ≤ 1 ∧ first ≠ ⟨1, 0⟩ := by
  have disjoint : highMemory.IsDisjoint :=
    List.pairwise_pair.mpr (Buffer.isApart_of_size_eq_zero rfl)
  have translated :
      overlappingMemory.addressOf ⟨1, 0⟩ = .ok 0x100000001 := by
    decide
  have notFirst : ¬overlappingMemory.IsFirst ⟨1, 0⟩ 0x100000001 := by
    intro isFirst
    have uncovered := isFirst highBuffer (by decide)
    contradiction
  obtain ⟨_, _, invertible⟩ := locate_translates highMemory
  obtain ⟨_, places, _⟩ := locate_translates overlappingMemory
  obtain ⟨_, first, located, earlier, same_iff⟩ :=
    (places ⟨1, 0⟩).2 _ translated
  exact ⟨invertible disjoint, translated, first, located, earlier,
    mt same_iff.mp notFirst⟩

end VideoCore.Memory
