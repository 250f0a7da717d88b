import Mathlib.Data.List.Pairwise
import VideoCore.Proofs.Memory.Contents

namespace VideoCore

/-!
# Rearranged memory

An address resolves to the first buffer that covers it.  If no two buffers cover
the same address, the first one is the only one: the order of the buffers makes
no difference, and neither do buffers without bytes
(`SameBuffers.of_isRearranged`).
-/

/-- Whether two buffers have no address in common. -/
def Buffer.IsApart (buffer other : Buffer) : Prop :=
  ∀ addr, ¬(buffer.contains addr = true ∧ other.contains addr = true)

/-- Whether no address is covered by two of the buffers. -/
def Memory.IsDisjoint (memory : Memory) : Prop :=
  memory.Pairwise Buffer.IsApart

/-- The buffers without their indices, which follow from where they stand. -/
def Memory.unnumbered (memory : Memory) : Memory :=
  memory.map fun buffer => { buffer with index := none }

/--
Whether another memory consists of the same buffers in any order, with buffers
without bytes put in anywhere, and whatever indices they then have.
-/
def Memory.IsRearranged (memory other : Memory) : Prop :=
  ∃ blanks : List Buffer,
    (∀ buffer ∈ blanks, buffer.size = 0) ∧
      other.unnumbered.Perm (memory ++ blanks).unnumbered

/--
Whether every address resolves to the same buffer, wherever that stands and
whatever index it has.
-/
def Memory.SameBuffers (memory other : Memory) : Prop :=
  ∀ addr,
    (memory.unnumbered.find addr).map Prod.snd =
      (other.unnumbered.find addr).map Prod.snd

namespace Buffer

variable {buffer other : Buffer} {addr : Int}

instance : Std.Symm IsApart where
  symm _ _ apart addr both := apart addr both.symm

/-- Buffers without bytes cover nothing. -/
theorem contains_of_size_eq_zero
    (blank : buffer.size = 0) :
    buffer.contains addr = false := by
  rw [contains, stop, blank]
  simp only [Bool.and_eq_false_iff, decide_eq_false_iff_not]
  omega

theorem isApart_of_size_eq_zero
    (blank : other.size = 0) :
    buffer.IsApart other := by
  rintro addr ⟨_, covers⟩
  rw [contains_of_size_eq_zero blank] at covers
  contradiction

end Buffer

namespace Memory

variable {memory other : Memory} {buffer : Buffer} {addr : Int}

theorem unnumbered_append
    (first second : Memory) :
    unnumbered (first ++ second) = first.unnumbered ++ second.unnumbered :=
  List.map_append

namespace IsDisjoint

/-- The indices of buffers say nothing about the addresses that they cover. -/
theorem unnumbered
    (disjoint : memory.IsDisjoint) :
    memory.unnumbered.IsDisjoint :=
  List.pairwise_map.mpr disjoint

/-- Only one buffer covers an address. -/
theorem eq_of_contains
    (disjoint : memory.IsDisjoint)
    {first second : Buffer}
    (firstMember : first ∈ memory)
    (secondMember : second ∈ memory)
    (firstCovers : first.contains addr = true)
    (secondCovers : second.contains addr = true) :
    first = second := by
  by_contra different
  exact disjoint.forall firstMember secondMember different addr
    ⟨firstCovers, secondCovers⟩

/-- The first buffer that covers an address is the one that covers it. -/
theorem find?_eq_some_iff
    (disjoint : memory.IsDisjoint) :
    memory.find? (fun buffer => buffer.contains addr) = some buffer ↔
      buffer ∈ memory ∧ buffer.contains addr = true := by
  have covers_of_found {first : Buffer}
      (found :
        memory.find? (fun buffer => buffer.contains addr) = some first) :
      first.contains addr = true :=
    by simpa using List.find?_some found
  constructor
  · intro found
    exact ⟨List.mem_of_find?_eq_some found, covers_of_found found⟩
  · rintro ⟨member, covers⟩
    cases found : memory.find? fun buffer => buffer.contains addr with
    | none =>
        rw [List.find?_eq_none] at found
        exact absurd covers (found buffer member)
    | some first =>
        rw [disjoint.eq_of_contains (List.mem_of_find?_eq_some found)
          member (covers_of_found found) covers]

/-- Rearranged memory covers no address twice either. -/
theorem of_isRearranged
    (disjoint : memory.IsDisjoint)
    (rearranged : memory.IsRearranged other) :
    other.unnumbered.IsDisjoint := by
  obtain ⟨blanks, areBlank, permuted⟩ := rearranged
  have apartFromBlank :
      ∀ buffer : Buffer, ∀ blank ∈ blanks, buffer.IsApart blank :=
    fun _ blank member => Buffer.isApart_of_size_eq_zero (areBlank blank member)
  have whole : IsDisjoint (memory ++ blanks) :=
    List.pairwise_append.mpr
      ⟨disjoint,
        List.pairwise_of_forall_mem_list
          fun buffer _ blank member => apartFromBlank buffer blank member,
        fun buffer _ blank member => apartFromBlank buffer blank member⟩
  exact (permuted.pairwise_iff (Std.Symm.symm _ _)).mpr whole.unnumbered

end IsDisjoint

/-! ## What is seen of the buffers -/

/-- The buffer that is found is the first one that contains the address. -/
theorem map_snd_find
    (memory : Memory)
    (addr : Int) :
    (memory.find addr).map Prod.snd =
      (memory.find? fun buffer => buffer.contains addr).elim
        (.error (.unmapped addr)) .ok := by
  rw [← map_snd_findFrom memory addr 0, find]
  cases memory.findFrom addr 0 <;> rfl

/-- An address resolves to the same place with and without the indices. -/
theorem find_unnumbered
    (memory : Memory)
    (addr : Int) :
    memory.unnumbered.find addr =
      (memory.find addr).map fun (place, buffer) =>
        (place, { buffer with index := none }) := by
  have fromAny (start : Nat) :
      memory.unnumbered.findFrom addr start =
        (memory.findFrom addr start).map fun (place, buffer) =>
          (place, { buffer with index := none }) := by
    induction memory generalizing start with
    | nil =>
        rfl
    | cons buffer rest inductionHypothesis =>
        have covers :
            Buffer.contains { buffer with index := none } addr =
              buffer.contains addr :=
          rfl
        rw [unnumbered, List.map_cons, findFrom, findFrom, covers]
        split
        · rfl
        · exact inductionHypothesis (start + 1)
  rw [find, find, fromAny]
  cases memory.findFrom addr 0 <;> rfl

/-- The end of a region is that of the buffer, whatever index this has. -/
theorem regionEnd_eq_map
    (memory : Memory)
    (addr : Int) :
    memory.regionEnd addr =
      ((memory.unnumbered.find addr).map Prod.snd).map Buffer.stop := by
  rw [regionEnd, find_unnumbered]
  cases memory.find addr <;> rfl

/--
What is seen from an address on is in the buffer, whatever index this has.
-/
theorem view_eq_map
    (memory : Memory)
    (addr : Int)
    (stop : Option Int) :
    memory.view addr stop =
      ((memory.unnumbered.find addr).map Prod.snd).map fun buffer =>
        (buffer.window.drop (addr - buffer.paddr).toNat).take
          (min (stop.getD buffer.stop) buffer.stop - addr).toNat := by
  rw [view, find_unnumbered]
  cases memory.find addr <;> rfl

theorem capacity_unnumbered
    (memory : Memory) :
    memory.unnumbered.capacity = memory.capacity := by
  induction memory with
  | nil =>
      rfl
  | cons buffer rest inductionHypothesis =>
      rw [unnumbered, List.map_cons, capacity, capacity,
        ← inductionHypothesis]
      rfl

theorem capacity_append
    (first second : Memory) :
    capacity (first ++ second) = first.capacity + second.capacity := by
  induction first with
  | nil =>
      rw [List.nil_append, capacity, Nat.zero_add]
  | cons buffer rest inductionHypothesis =>
      rw [List.cons_append, capacity, inductionHypothesis, capacity,
        Nat.add_assoc]

/--
The order of the buffers makes no difference to the number of captured bytes.
-/
theorem capacity_of_perm
    (permuted : other.Perm memory) :
    other.capacity = memory.capacity := by
  induction permuted with
  | nil =>
      rfl
  | cons buffer later inductionHypothesis =>
      rw [capacity, capacity, inductionHypothesis]
  | swap first second rest =>
      simp only [capacity]
      omega
  | trans earlier later firstEqual secondEqual =>
      exact firstEqual.trans secondEqual

theorem capacity_of_size_eq_zero
    (areBlank : ∀ buffer ∈ memory, buffer.size = 0) :
    memory.capacity = 0 := by
  induction memory with
  | nil =>
      rfl
  | cons buffer rest inductionHypothesis =>
      obtain ⟨isBlank, others⟩ := List.forall_mem_cons.mp areBlank
      rw [capacity, isBlank, inductionHypothesis others]

/-- Rearranged memory has as many captured bytes. -/
theorem capacity_of_isRearranged
    (rearranged : memory.IsRearranged other) :
    other.capacity = memory.capacity := by
  obtain ⟨blanks, areBlank, permuted⟩ := rearranged
  rw [← capacity_unnumbered other, capacity_of_perm permuted,
    capacity_unnumbered, capacity_append,
    capacity_of_size_eq_zero areBlank, Nat.add_zero]

namespace SameBuffers

/--
Where no address is covered twice, rearranging the buffers changes nothing.
-/
theorem of_isRearranged
    (disjoint : memory.IsDisjoint)
    (rearranged : memory.IsRearranged other) :
    memory.SameBuffers other := by
  intro addr
  have otherDisjoint := disjoint.of_isRearranged rearranged
  obtain ⟨blanks, areBlank, permuted⟩ := rearranged
  rw [map_snd_find, map_snd_find]
  congr 1
  ext buffer
  rw [disjoint.unnumbered.find?_eq_some_iff,
    otherDisjoint.find?_eq_some_iff, permuted.mem_iff, unnumbered_append,
    List.mem_append]
  constructor
  · rintro ⟨member, covers⟩
    exact ⟨.inl member, covers⟩
  · rintro ⟨member | isBlank, covers⟩
    · exact ⟨member, covers⟩
    · obtain ⟨blank, member, rfl⟩ := List.mem_map.mp isBlank
      have noBytes :
          Buffer.size { blank with index := none } = 0 :=
        areBlank blank member
      rw [Buffer.contains_of_size_eq_zero noBytes] at covers
      contradiction

/-- Rearranged buffers have the same regions. -/
theorem sameRegions
    (same : memory.SameBuffers other) :
    memory.SameRegions other := by
  intro addr
  rw [regionEnd_eq_map, same addr, ← regionEnd_eq_map]

/-- Rearranged buffers show the same bytes. -/
theorem view_eq
    (same : memory.SameBuffers other)
    (addr : Int)
    (stop : Option Int) :
    memory.view addr stop = other.view addr stop := by
  rw [view_eq_map, same addr, ← view_eq_map]

/-- The same bytes are read from rearranged buffers. -/
theorem read_eq
    (same : memory.SameBuffers other)
    (addr size : Int) :
    memory.read addr size = other.read addr size := by
  rw [read, same.view_eq, ← read]

end SameBuffers

end Memory

end VideoCore
