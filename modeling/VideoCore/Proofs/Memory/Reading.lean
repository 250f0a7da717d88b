import VideoCore.Proofs.Memory.Contents
import VideoCore.Proofs.Outcome

namespace VideoCore.Memory

/-!
# Bounded reads

Reading never leaves the buffer that an address resolves to: what is shown or
read are the bytes of that buffer, each at its address, up to the end that is
asked for or the end of the buffer (`read_isBounded`).
-/

/--
Whether some bytes are those from an address up to another one, all of them in
the buffer that `anchor` resolves to.
-/
structure Captures
    (memory : Memory)
    (anchor low high : Int)
    (bytes : Bytes) : Prop where
  length_eq : bytes.length = (high - low).toNat
  bytes_eq :
    ∀ index < bytes.length,
      bytes[index]? = memory.byteAt? anchor (low + index)

variable {memory : Memory} {anchor addr low middle high limit : Int}
  {bytes others : Bytes}

namespace Captures

/-- There is only one byte at an address. -/
theorem unique
    (captures : memory.Captures anchor low high bytes)
    (othersCapture : memory.Captures anchor low high others) :
    bytes = others := by
  have lengths : bytes.length = others.length :=
    captures.length_eq.trans othersCapture.length_eq.symm
  apply List.ext_getElem?
  intro index
  by_cases inside : index < bytes.length
  · rw [captures.bytes_eq index inside,
      othersCapture.bytes_eq index (lengths ▸ inside)]
  · rw [List.getElem?_eq_none (by omega),
      List.getElem?_eq_none (by omega)]

/--
The first of some captured bytes are captured in their part of the stretch.
-/
theorem take
    (captures : memory.Captures anchor low high bytes)
    {size : Nat}
    (fits : low + size ≤ high) :
    memory.Captures anchor low (low + size) (bytes.take size) := by
  have whole := captures.length_eq
  have length : (bytes.take size).length = size := by
    rw [List.length_take]
    omega
  refine ⟨by omega, fun index inside => ?_⟩
  rw [length] at inside
  rw [List.getElem?_take_of_lt inside]
  exact captures.bytes_eq index (by omega)

/--
The bytes behind the first of some captured bytes are captured in the rest of
it.
-/
theorem drop
    (captures : memory.Captures anchor low high bytes)
    (size : Nat) :
    memory.Captures anchor (low + size) high (bytes.drop size) := by
  have whole := captures.length_eq
  refine ⟨by rw [List.length_drop]; omega, fun index inside => ?_⟩
  rw [List.length_drop] at inside
  have address : low + ((size + index : Nat) : Int) = low + size + index := by
    omega
  rw [List.getElem?_drop, captures.bytes_eq _ (by omega), address]

/-- Bytes up to an address and bytes from there on are captured together. -/
theorem append
    (front : memory.Captures anchor low middle bytes)
    (back : memory.Captures anchor middle high others)
    (lower : low ≤ middle)
    (upper : middle ≤ high) :
    memory.Captures anchor low high (bytes ++ others) := by
  have frontLength := front.length_eq
  have backLength := back.length_eq
  refine ⟨by rw [List.length_append]; omega, ?_⟩
  intro index inside
  rw [List.length_append] at inside
  by_cases early : index < bytes.length
  · rw [List.getElem?_append_left early, front.bytes_eq index early]
  · have address :
        middle + ((index - bytes.length : Nat) : Int) = low + index := by
      omega
    rw [List.getElem?_append_right (by omega),
      back.bytes_eq (index - bytes.length) (by omega), address]

end Captures

/-- A view captures the bytes up to its end or that of the region. -/
theorem exists_view
    (resolved : memory.regionEnd addr = .ok limit)
    (stop : Option Int) :
    ∃ window,
      memory.view addr stop = .ok window ∧
        memory.Captures addr addr (min (stop.getD limit) limit)
          window.toBytes := by
  have hasStop :
      memory.view addr stop = memory.view addr (some (stop.getD limit)) := by
    cases stop with
    | none =>
        exact view_none_eq resolved
    | some stop =>
        rfl
  obtain ⟨window, shown, size⟩ :=
    view_of_regionEnd resolved (some (stop.getD limit))
  rw [Option.getD_some] at size
  refine
    ⟨window, hasStop.trans shown, by rw [Window.length_toBytes, size], ?_⟩
  intro index inside
  rw [Window.length_toBytes, size] at inside
  rw [getElem?_view shown, if_pos (by omega)]

/-- Nothing can be read outside of all buffers. -/
theorem read_of_not_covers
    (uncovered : ¬memory.Covers addr)
    (size : Int) :
    memory.read addr size = .error (.unmapped addr) := by
  rw [read, view_of_not_covers uncovered]
  rfl

/-- Reading succeeds inside the region, and captures what was asked for. -/
theorem read_eq_ok_iff
    (resolved : memory.regionEnd addr = .ok limit)
    {size : Int} :
    memory.read addr size = .ok bytes ↔
      0 ≤ size ∧
        addr + size ≤ limit ∧
        memory.Captures addr addr (addr + size) bytes := by
  have below := lt_of_regionEnd resolved
  obtain ⟨window, shown, captures⟩ :=
    exists_view resolved (some (addr + size))
  have length := captures.length_eq
  rw [Window.length_toBytes, Option.getD_some] at length
  rw [Option.getD_some] at captures
  rw [read, shown, Outcome.ok_bind]
  constructor
  · intro isRead
    split at isRead
    · next exactSize =>
        cases isRead
        have fits : addr + size ≤ limit := by omega
        rw [Int.min_eq_left fits] at captures
        exact ⟨by omega, fits, captures⟩
    · contradiction
  · rintro ⟨nonnegative, fits, captured⟩
    rw [Int.min_eq_left fits] at captures length
    rw [if_pos (by omega), captures.unique captured]

/-- A negative number of bytes is missing from the address itself on. -/
theorem read_of_neg
    (resolved : memory.regionEnd addr = .ok limit)
    {size : Int}
    (negative : size < 0) :
    memory.read addr size = .error (.unmapped addr) := by
  obtain ⟨window, shown, captures⟩ :=
    exists_view resolved (some (addr + size))
  have length := captures.length_eq
  rw [Window.length_toBytes, Option.getD_some] at length
  have empty : window.size = 0 := by omega
  have different : ((0 : Nat) : Int) ≠ size := by omega
  rw [read, shown, Outcome.ok_bind, empty, if_neg different]
  simp

section InParts

variable {front back : Nat} {first rest : Bytes}
  (resolved : memory.regionEnd addr = .ok limit)
  (sameBuffer : memory.find (addr + front) = memory.find addr)

include resolved sameBuffer

/-- A later address of the same buffer has the same end. -/
theorem regionEnd_of_sameBuffer :
    memory.regionEnd (addr + front) = .ok limit := by
  rw [← resolved, regionEnd, regionEnd, sameBuffer]

/-- Two parts that are read in the same buffer are there to be read at once. -/
theorem read_add
    (firstRead : memory.read addr front = .ok first)
    (restRead : memory.read (addr + front) back = .ok rest) :
    memory.read addr (front + back) = .ok (first ++ rest) := by
  have laterResolved := regionEnd_of_sameBuffer resolved sameBuffer
  have sameBytes :
      memory.byteAt? (addr + front) = memory.byteAt? addr := by
    funext other
    rw [byteAt?, byteAt?, sameBuffer]
  obtain ⟨_, _, firstCaptured⟩ := (read_eq_ok_iff resolved).mp firstRead
  obtain ⟨_, fits, restCaptured⟩ :=
    (read_eq_ok_iff laterResolved).mp restRead
  have restHere :
      memory.Captures addr (addr + front) (addr + front + back) rest :=
    ⟨restCaptured.length_eq, sameBytes ▸ restCaptured.bytes_eq⟩
  rw [read_eq_ok_iff resolved, ← Int.add_assoc]
  exact ⟨by omega, fits, firstCaptured.append restHere (by omega) (by omega)⟩

/-- Bytes of a buffer are read in two parts as they are read at once. -/
theorem read_add_iff :
    memory.read addr (front + back) = .ok bytes ↔
      ∃ first rest,
        memory.read addr front = .ok first ∧
          memory.read (addr + front) back = .ok rest ∧
          bytes = first ++ rest := by
  constructor
  · intro wholeRead
    obtain ⟨_, fits, _⟩ := (read_eq_ok_iff resolved).mp wholeRead
    obtain ⟨first, firstRead, _⟩ :=
      @read_of_fits memory addr limit front resolved (by omega)
    obtain ⟨rest, restRead, _⟩ :=
      @read_of_fits memory (addr + front) limit back
        (regionEnd_of_sameBuffer resolved sameBuffer) (by omega)
    have bothRead := read_add resolved sameBuffer firstRead restRead
    exact ⟨first, rest, firstRead, restRead,
      Except.ok.inj (wholeRead.symm.trans bothRead)⟩
  · rintro ⟨first, rest, firstRead, restRead, rfl⟩
    exact read_add resolved sameBuffer firstRead restRead

end InParts

/--
What is shown or read from an address on are the bytes of the buffer that the
address resolves to, each at its own address.  A view shows them up to the end
that is asked for, but not past the end of the buffer.  A number of bytes is
read if it is not negative and that many are left in the buffer; else the fault
names the first address that is missing.  Bytes that are read in two parts of
one buffer are those that are read at once.
-/
theorem read_isBounded
    (memory : Memory)
    (addr : Int) :
    (¬memory.Covers addr →
      (∀ stop, memory.view addr stop = .error (.unmapped addr)) ∧
        ∀ size, memory.read addr size = .error (.unmapped addr)) ∧
      ∀ limit,
        memory.regionEnd addr = .ok limit →
        (∀ stop,
          ∃ window,
            memory.view addr stop = .ok window ∧
              memory.Captures addr addr (min (stop.getD limit) limit)
                window.toBytes) ∧
          (∀ size,
            ((∃ bytes, memory.read addr size = .ok bytes) ↔
                0 ≤ size ∧ size ≤ limit - addr) ∧
              (∀ bytes,
                memory.read addr size = .ok bytes →
                memory.Captures addr addr (addr + size) bytes) ∧
              (limit - addr < size →
                memory.read addr size = .error (.unmapped limit)) ∧
              (size < 0 →
                memory.read addr size = .error (.unmapped addr))) ∧
          ∀ (front back : Nat) (bytes : Bytes),
            memory.find (addr + front) = memory.find addr →
            (memory.read addr (front + back) = .ok bytes ↔
              ∃ first rest,
                memory.read addr front = .ok first ∧
                  memory.read (addr + front) back = .ok rest ∧
                  bytes = first ++ rest) := by
  constructor
  · intro uncovered
    exact ⟨view_of_not_covers uncovered, read_of_not_covers uncovered⟩
  · intro limit resolved
    refine
      ⟨exists_view resolved, fun size => ⟨?_, ?_, ?_, read_of_neg resolved⟩,
        fun _ _ _ => read_add_iff resolved⟩
    · constructor
      · rintro ⟨bytes, isRead⟩
        obtain ⟨nonnegative, fits, _⟩ := (read_eq_ok_iff resolved).mp isRead
        exact ⟨nonnegative, by omega⟩
      · rintro ⟨nonnegative, fits⟩
        obtain ⟨count, rfl⟩ := Int.eq_ofNat_of_zero_le nonnegative
        obtain ⟨bytes, isRead, _⟩ :=
          @read_of_fits memory addr limit count resolved (by omega)
        exact ⟨bytes, isRead⟩
    · intro bytes isRead
      exact ((read_eq_ok_iff resolved).mp isRead).2.2
    · intro tooMany
      exact read_of_not_fits resolved (by omega)

/-- Two buffers, the second one right behind the first. -/
def adjacentMemory : Memory :=
  [⟨1, 0x1000, #[10, 11, 12], some 0⟩, ⟨2, 0x1003, #[13, 14], some 1⟩]

/-- The bytes of a buffer are not read on into the next one. -/
theorem read_isBounded_adjacent :
    adjacentMemory.Covers 0x1003 ∧
      adjacentMemory.read 0x1001 3 = .error (.unmapped 0x1003) ∧
      adjacentMemory.read 0x1001 (-1) = .error (.unmapped 0x1001) ∧
      adjacentMemory.read 0x1000 (1 + 2) = .ok [10, 11, 12] := by
  have captured : adjacentMemory.regionEnd 0x1001 = .ok 0x1003 := by decide
  have fromStart : adjacentMemory.regionEnd 0x1000 = .ok 0x1003 := by
    decide
  obtain ⟨_, inside⟩ := read_isBounded adjacentMemory 0x1001
  obtain ⟨_, bounded, _⟩ := inside _ captured
  obtain ⟨_, whole⟩ := read_isBounded adjacentMemory 0x1000
  obtain ⟨_, _, inParts⟩ := whole _ fromStart
  refine
    ⟨⟨⟨2, 0x1003, #[13, 14], some 1⟩, by decide, by decide⟩,
      (bounded 3).2.2.1 (by decide), (bounded (-1)).2.2.2 (by decide), ?_⟩
  have sameBuffer :
      adjacentMemory.find (0x1000 + (1 : Nat)) =
        adjacentMemory.find 0x1000 := by
    decide
  exact (inParts 1 2 _ sameBuffer).mpr
    ⟨[10], [11, 12], by decide, by decide, rfl⟩

end VideoCore.Memory
