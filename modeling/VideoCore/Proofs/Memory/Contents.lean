import VideoCore.Proofs.Memory.Resolution

namespace VideoCore

/-!
# Contents of a region

The bytes that are seen from an address on are those of the buffer that the
address resolves to, one by one (`getElem?_view`).  Where addresses resolve
depends on the extents of the buffers only, not on what is stored in them.
-/

/-- Where a buffer lies in physical memory. -/
def Buffer.extent (buffer : Buffer) : Int × Nat :=
  (buffer.paddr, buffer.size)

namespace Memory

/-- The byte at an address, in the buffer that `anchor` resolves to. -/
def byteAt?
    (memory : Memory)
    (anchor addr : Int) : Option UInt8 :=
  match memory.find anchor with
  | .error _ => none
  | .ok (_, buffer) =>
      if buffer.paddr ≤ addr then
        buffer.bytes[(addr - buffer.paddr).toNat]?
      else
        none

/-- Whether addresses have the same regions in two memories. -/
def SameRegions (memory other : Memory) : Prop :=
  ∀ addr, memory.regionEnd addr = other.regionEnd addr

variable {memory other : Memory} {addr : Int} {index : Nat}
  {buffer : Buffer}

theorem bounds_of_find
    (found : memory.find addr = .ok (index, buffer)) :
    buffer.paddr ≤ addr ∧ addr < buffer.stop := by
  by_cases covered : memory.Covers addr
  · obtain ⟨otherIndex, other, _, otherFound, bounds⟩ :=
      find_of_covers covered
    rw [found] at otherFound
    cases otherFound
    exact bounds
  · rw [find_of_not_covers covered] at found
    contradiction

/-- The region of an address ends with the buffer that is found for it. -/
theorem regionEnd_of_find
    (found : memory.find addr = .ok (index, buffer)) :
    memory.regionEnd addr = .ok buffer.stop := by
  rw [regionEnd, found]
  rfl

/-- The region of an address ends with the first buffer that covers it. -/
theorem regionEnd_eq
    (memory : Memory)
    (addr : Int) :
    memory.regionEnd addr =
      ((memory.find? fun buffer => buffer.contains addr).map
        Buffer.stop).elim (.error (.unmapped addr)) .ok := by
  rw [← map_snd_findFrom memory addr 0, regionEnd, find]
  cases memory.findFrom addr 0 <;> rfl

/-- A view shows the bytes of the buffer from the address on. -/
theorem view_of_find
    (found : memory.find addr = .ok (index, buffer))
    (stop : Int) :
    ∃ window,
      memory.view addr (some stop) = .ok window ∧
        window.toBytes =
          (buffer.bytes.drop (addr - buffer.paddr).toNat).take
            (min stop buffer.stop - addr).toNat := by
  refine ⟨_, by rw [view, found]; rfl, ?_⟩
  rw [Window.toBytes_take, Window.toBytes_drop, Option.getD_some,
    Buffer.window, Window.ofArray, Window.toBytes, Array.extract_size]
  rfl

/-- Every byte of a view is the byte at its address. -/
theorem getElem?_view
    {window : Window}
    {stop : Int}
    (shown : memory.view addr (some stop) = .ok window)
    (index : Nat) :
    window.toBytes[index]? =
      if addr + index < stop then
        memory.byteAt? addr (addr + index)
      else
        none := by
  obtain ⟨place, buffer, _, found, lower, _⟩ :=
    find_of_covers (covers_of_view shown)
  obtain ⟨other, otherShown, bytes⟩ := view_of_find found stop
  obtain rfl : window = other :=
    Except.ok.inj (shown.symm.trans otherShown)
  have position :
      (addr + index - buffer.paddr).toNat =
        (addr - buffer.paddr).toNat + index := by
    omega
  have size : buffer.bytes.length = buffer.size := rfl
  have stopIs : buffer.stop = buffer.paddr + buffer.size := rfl
  simp only [bytes, byteAt?, found,
    if_pos (show buffer.paddr ≤ addr + index by omega), position]
  rw [List.getElem?_take, List.getElem?_drop]
  by_cases inside : addr + index < stop
  · rw [if_pos inside]
    by_cases stored : addr + index < buffer.stop
    · rw [if_pos (by omega)]
    · rw [if_neg (by omega), List.getElem?_eq_none (by omega)]
  · rw [if_neg inside, if_neg (by omega)]

namespace SameRegions

theorem refl
    (memory : Memory) :
    memory.SameRegions memory :=
  fun _ => rfl

/-- Buffers with the same extents, in the same order, have the same regions. -/
theorem of_extents
    (extents : memory.map Buffer.extent = other.map Buffer.extent) :
    memory.SameRegions other := by
  intro addr
  rw [regionEnd_eq, regionEnd_eq]
  congr 1
  induction memory generalizing other with
  | nil =>
      rw [List.map_nil, eq_comm, List.map_eq_nil_iff] at extents
      rw [extents]
  | cons first rest inductionHypothesis =>
      cases other with
      | nil =>
          contradiction
      | cons otherFirst otherRest =>
          rw [List.map_cons, List.map_cons, List.cons.injEq] at extents
          have paddr : first.paddr = otherFirst.paddr :=
            congrArg Prod.fst extents.1
          have size : first.size = otherFirst.size :=
            congrArg Prod.snd extents.1
          have stop : first.stop = otherFirst.stop := by
            rw [Buffer.stop, Buffer.stop, paddr, size]
          have contains :
              first.contains addr = otherFirst.contains addr := by
            rw [Buffer.contains, Buffer.contains, paddr, stop]
          rw [List.find?_cons, List.find?_cons, contains]
          split
          · exact congrArg some stop
          · exact inductionHypothesis extents.2

end SameRegions

end Memory

end VideoCore
