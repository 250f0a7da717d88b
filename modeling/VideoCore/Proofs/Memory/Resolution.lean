import Mathlib.Data.Finset.Card
import VideoCore.Memory.Basic

namespace VideoCore

/-!
# Resolution of addresses

An address resolves if a buffer covers it, and then to the first such buffer.
Everything else that memory is asked for depends on that buffer only: where the
region of the address ends, which bytes it shows, and whether a number of bytes
can be read.
-/

namespace Window

@[simp] theorem size_take
    (window : Window)
    (count : Nat) :
    (window.take count).size = min count window.size := by
  rw [← length_toBytes, toBytes_take, List.length_take,
    length_toBytes]

@[simp] theorem size_drop
    (window : Window)
    (count : Nat) :
    (window.drop count).size = window.size - count := by
  rw [← length_toBytes, toBytes_drop, List.length_drop,
    length_toBytes]

end Window

namespace Buffer

/-- A buffer contains the addresses from its own up to its end. -/
theorem contains_iff
    {buffer : Buffer}
    {addr : Int} :
    buffer.contains addr = true ↔
      buffer.paddr ≤ addr ∧ addr < buffer.paddr + buffer.size := by
  rw [contains, Bool.and_eq_true, decide_eq_true_eq, decide_eq_true_eq,
    stop]

/-- The addresses of a buffer, in order. -/
def addresses (buffer : Buffer) : List Int :=
  (List.range buffer.size).map fun (index : Nat) => buffer.paddr + index

theorem mem_addresses
    {buffer : Buffer}
    {addr : Int} :
    addr ∈ buffer.addresses ↔ buffer.contains addr = true := by
  rw [contains_iff]
  simp only [addresses, List.mem_map, List.mem_range]
  constructor
  · rintro ⟨index, inside, rfl⟩
    omega
  · rintro ⟨lower, upper⟩
    exact ⟨(addr - buffer.paddr).toNat, by omega, by omega⟩

end Buffer

namespace Memory

/-- Whether some buffer covers an address. -/
def Covers
    (memory : Memory)
    (addr : Int) : Prop :=
  ∃ buffer ∈ memory, buffer.contains addr = true

/-- The covered addresses. -/
def addresses (memory : Memory) : Finset Int :=
  (memory.flatMap Buffer.addresses).toFinset

/-- The addresses of a memory are those that it covers. -/
theorem mem_addresses
    {memory : Memory}
    {addr : Int} :
    addr ∈ memory.addresses ↔ memory.Covers addr := by
  simp [addresses, Covers, Buffer.mem_addresses]

/-- Every captured byte has an address in its buffer. -/
theorem length_flatMap_addresses
    (memory : Memory) :
    (memory.flatMap Buffer.addresses).length = memory.capacity := by
  induction memory with
  | nil =>
      rfl
  | cons buffer rest inductionHypothesis =>
      rw [List.flatMap_cons, List.length_append, inductionHypothesis,
        capacity, Buffer.addresses, List.length_map, List.length_range]

/-- There are at most as many covered addresses as captured bytes. -/
theorem card_addresses_le_capacity
    (memory : Memory) :
    memory.addresses.card ≤ memory.capacity :=
  calc
    memory.addresses.card ≤ (memory.flatMap Buffer.addresses).length :=
      List.toFinset_card_le _
    _ = memory.capacity := length_flatMap_addresses memory

/-! ## The buffer of an address -/

/-- The search for a buffer finds the first one that covers the address. -/
theorem map_snd_findFrom
    (memory : Memory)
    (addr : Int)
    (index : Nat) :
    (memory.findFrom addr index).map Prod.snd =
      memory.find? fun buffer => buffer.contains addr := by
  induction memory generalizing index with
  | nil =>
      rfl
  | cons buffer rest inductionHypothesis =>
      cases covers : buffer.contains addr with
      | true =>
          simp [findFrom, covers]
      | false =>
          simpa [findFrom, covers] using inductionHypothesis (index + 1)

/-- An address in no buffer is the fault of every look-up. -/
theorem find_of_not_covers
    {memory : Memory}
    {addr : Int}
    (uncovered : ¬memory.Covers addr) :
    memory.find addr = .error (.unmapped addr) := by
  have missing :
      (memory.findFrom addr 0).map Prod.snd = none := by
    rw [map_snd_findFrom, List.find?_eq_none]
    intro buffer member covers
    exact uncovered ⟨buffer, member, covers⟩
  simp only [Option.map_eq_none_iff] at missing
  simp [find, missing]

/-- A covered address is found in a buffer that covers it. -/
theorem find_of_covers
    {memory : Memory}
    {addr : Int}
    (covered : memory.Covers addr) :
    ∃ index, ∃ buffer ∈ memory,
      memory.find addr = .ok (index, buffer) ∧
        buffer.paddr ≤ addr ∧ addr < buffer.stop := by
  obtain ⟨candidate, candidateMember, candidateCovers⟩ := covered
  cases found : memory.findFrom addr 0 with
  | none =>
      have missing := map_snd_findFrom memory addr 0
      rw [found, Option.map_none, eq_comm,
        List.find?_eq_none] at missing
      exact absurd candidateCovers (missing candidate candidateMember)
  | some place =>
      obtain ⟨index, buffer⟩ := place
      have first := map_snd_findFrom memory addr 0
      rw [found, Option.map_some, eq_comm] at first
      have covers := List.find?_some first
      exact ⟨index, buffer, List.mem_of_find?_eq_some first,
        by simp [find, found], Buffer.contains_iff.mp covers⟩

/-! ## The region of an address -/

theorem regionEnd_of_not_covers
    {memory : Memory}
    {addr : Int}
    (uncovered : ¬memory.Covers addr) :
    memory.regionEnd addr = .error (.unmapped addr) := by
  rw [regionEnd, find_of_not_covers uncovered]
  rfl

/-- A covered address lies before the end of its region. -/
theorem regionEnd_of_covers
    {memory : Memory}
    {addr : Int}
    (covered : memory.Covers addr) :
    ∃ limit,
      memory.regionEnd addr = .ok limit ∧ addr < limit := by
  obtain ⟨index, buffer, _, found, _, below⟩ := find_of_covers covered
  refine ⟨buffer.stop, ?_, below⟩
  rw [regionEnd, found]
  rfl

theorem covers_of_regionEnd
    {memory : Memory}
    {addr limit : Int}
    (resolved : memory.regionEnd addr = .ok limit) :
    memory.Covers addr := by
  by_contra uncovered
  rw [regionEnd_of_not_covers uncovered] at resolved
  contradiction

theorem lt_of_regionEnd
    {memory : Memory}
    {addr limit : Int}
    (resolved : memory.regionEnd addr = .ok limit) :
    addr < limit := by
  obtain ⟨found, foundEnd, below⟩ :=
    regionEnd_of_covers (covers_of_regionEnd resolved)
  rw [foundEnd] at resolved
  injection resolved with same
  exact same ▸ below

/-- A region is the rest of the buffer that the address is found in. -/
theorem find_of_regionEnd
    {memory : Memory}
    {addr limit : Int}
    (resolved : memory.regionEnd addr = .ok limit) :
    ∃ index buffer,
      memory.find addr = .ok (index, buffer) ∧
        buffer.paddr ≤ addr ∧ addr < limit ∧ buffer.stop = limit := by
  obtain ⟨index, buffer, _, found, start, below⟩ :=
    find_of_covers (covers_of_regionEnd resolved)
  rw [regionEnd, found] at resolved
  injection resolved with sameLimit
  exact ⟨index, buffer, found, start, sameLimit ▸ below, sameLimit⟩

/-- The only fault of a region is an address in no buffer. -/
theorem eq_unmapped_of_regionEnd
    {memory : Memory}
    {addr : Int}
    {fault : Fault}
    (fails : memory.regionEnd addr = .error fault) :
    fault = .unmapped addr := by
  by_cases covered : memory.Covers addr
  · obtain ⟨limit, resolved, _⟩ := regionEnd_of_covers covered
    rw [resolved] at fails
    contradiction
  · rw [regionEnd_of_not_covers covered] at fails
    injection fails with same
    exact same.symm

/-- Only an address that no buffer covers has no region. -/
theorem not_covers_of_regionEnd
    {memory : Memory}
    {addr : Int}
    {fault : Fault}
    (fails : memory.regionEnd addr = .error fault) :
    ¬memory.Covers addr := by
  intro covered
  obtain ⟨limit, resolved, _⟩ := regionEnd_of_covers covered
  rw [fails] at resolved
  contradiction

/-! ## Bytes from an address on -/

theorem view_of_not_covers
    {memory : Memory}
    {addr : Int}
    (uncovered : ¬memory.Covers addr)
    (stop : Option Int) :
    memory.view addr stop = .error (.unmapped addr) := by
  rw [view, find_of_not_covers uncovered]
  rfl

/-- Only covered addresses show anything. -/
theorem covers_of_view
    {memory : Memory}
    {addr : Int}
    {stop : Option Int}
    {window : Window}
    (shown : memory.view addr stop = .ok window) :
    memory.Covers addr := by
  by_contra uncovered
  rw [view_of_not_covers uncovered] at shown
  contradiction

/-- A view shows all bytes up to its end or that of the region. -/
theorem view_of_regionEnd
    {memory : Memory}
    {addr limit : Int}
    (resolved : memory.regionEnd addr = .ok limit)
    (stop : Option Int) :
    ∃ window,
      memory.view addr stop = .ok window ∧
        window.size = (min (stop.getD limit) limit - addr).toNat := by
  obtain ⟨index, buffer, found, start, below, rfl⟩ :=
    find_of_regionEnd resolved
  refine ⟨_, by rw [view, found]; rfl, ?_⟩
  have whole : buffer.window.size = buffer.size := by
    simp [Buffer.window, Window.ofArray, Window.size, Buffer.size]
  have stopShape : buffer.stop = buffer.paddr + buffer.size := rfl
  rw [Window.size_take, Window.size_drop, whole]
  omega

/-- No end at all is as good as the end of the region. -/
theorem view_none_eq
    {memory : Memory}
    {addr limit : Int}
    (resolved : memory.regionEnd addr = .ok limit) :
    memory.view addr none = memory.view addr (some limit) := by
  obtain ⟨index, buffer, found, _, _, rfl⟩ := find_of_regionEnd resolved
  rw [view, view, found]
  rfl

/-- Bytes that lie in the region of an address can be read. -/
theorem read_of_fits
    {memory : Memory}
    {addr limit : Int}
    {size : Nat}
    (resolved : memory.regionEnd addr = .ok limit)
    (fits : addr + size ≤ limit) :
    ∃ bytes,
      memory.read addr size = .ok bytes ∧ bytes.length = size := by
  obtain ⟨window, shown, shownSize⟩ :=
    view_of_regionEnd resolved (some (addr + size))
  have exactSize : window.size = size := by
    rw [shownSize, Option.getD_some]
    omega
  refine ⟨window.toBytes, ?_, by simpa using exactSize⟩
  rw [read, shown]
  simp [bind, Except.bind, exactSize]

/-- Bytes past the region of an address are missing from its end on. -/
theorem read_of_not_fits
    {memory : Memory}
    {addr limit size : Int}
    (resolved : memory.regionEnd addr = .ok limit)
    (outside : limit < addr + size) :
    memory.read addr size = .error (.unmapped limit) := by
  obtain ⟨window, shown, shownSize⟩ :=
    view_of_regionEnd resolved (some (addr + size))
  have below := lt_of_regionEnd resolved
  have shortSize : (window.size : Int) = limit - addr := by
    rw [shownSize, Option.getD_some]
    omega
  have different : (window.size : Int) ≠ size := by
    omega
  rw [read, shown]
  simp only [bind, Except.bind, different, ↓reduceIte,
    Except.error.injEq, Fault.unmapped.injEq]
  omega

/-- The only fault of a view is an address in no buffer. -/
theorem eq_unmapped_of_view
    {memory : Memory}
    {addr : Int}
    {stop : Option Int}
    {fault : Fault}
    (fails : memory.view addr stop = .error fault) :
    fault = .unmapped addr := by
  by_cases covered : memory.Covers addr
  · obtain ⟨limit, resolved, _⟩ := regionEnd_of_covers covered
    obtain ⟨window, shown, _⟩ := view_of_regionEnd resolved stop
    rw [shown] at fails
    contradiction
  · rw [view_of_not_covers covered] at fails
    injection fails with same
    exact same.symm

/-- Only at an address that no buffer covers is there nothing to view. -/
theorem not_covers_of_view
    {memory : Memory}
    {addr : Int}
    {fault : Fault}
    (fails : memory.view addr none = .error fault) :
    ¬memory.Covers addr := by
  intro covered
  obtain ⟨limit, resolved, _⟩ := regionEnd_of_covers covered
  obtain ⟨window, shown, _⟩ := view_of_regionEnd resolved none
  rw [fails] at shown
  contradiction

end Memory

end VideoCore
