import VideoCore.Proofs.Area.Registry
import VideoCore.Proofs.Walk.Agreement
import VideoCore.Session

namespace VideoCore

/-!
# Walks are local

A walk over a list reads nothing but the bytes of its region.  What else is
stored, what is registered already and whether the list belongs to rendering
make no difference to what it lists, requests and leaves behind.
-/

/--
Whether the bytes from `start` up to `stop` are the same in two memories, in the
buffers that `start` resolves to.
-/
def Memory.SameBytes
    (memory other : Memory)
    (start stop : Int) : Prop :=
  ∀ addr,
    start ≤ addr →
    addr < stop →
    memory.byteAt? start addr = other.byteAt? start addr

namespace Walk

variable {memory other : Memory} {region : ListRegion} {limit : Int}

/-- Walks over regions with the same bytes begin at cursors that agree. -/
theorem ListRegion.exists_agrees
    (same : memory.SameRegions other)
    (resolved : memory.regionEnd region.start = .ok limit)
    (bytes :
      memory.SameBytes other region.start (min region.stop limit))
    (isRender : Bool) :
    ∃ first second,
      region.cursor? memory = .ok first ∧
        cursor? { region with isRender := isRender } other = .ok second ∧
        first.Agrees second := by
  have otherResolved := (same region.start).symm.trans resolved
  obtain ⟨first, starts, isStart, _⟩ := list_of_regionEnd resolved
  obtain ⟨second, otherStarts, otherIsStart, _⟩ :=
    @list_of_regionEnd other { region with isRender := isRender } limit
      otherResolved
  have state_eq : first.state = second.state := by
    simp only [Cursor.state, isStart.addr_eq, isStart.stop_eq,
      isStart.primMode_eq, otherIsStart.addr_eq, otherIsStart.stop_eq,
      otherIsStart.primMode_eq]
  refine ⟨first, second, starts, otherStarts, ?_⟩
  refine
    .of_shows isStart.within otherIsStart.within state_eq
      (isStart.shows resolved starts)
      (otherIsStart.shows otherResolved otherStarts) ?_
  rw [isStart.addr_eq, isStart.stop_eq]
  exact bytes

/-- Walks over regions with the same bytes have the same result. -/
theorem list_sameResult
    (same : memory.SameRegions other)
    (bytes :
      ∀ limit,
        memory.regionEnd region.start = .ok limit →
        memory.SameBytes other region.start (min region.stop limit))
    (isRender : Bool) :
    SameResult (list memory region)
      (list other { region with isRender := isRender }) := by
  cases resolved : memory.regionEnd region.start with
  | ok limit =>
      obtain ⟨first, second, starts, otherStarts, agrees⟩ :=
        ListRegion.exists_agrees same resolved (bytes limit resolved)
          isRender
      exact (sameResult_conclude starts).trans
        ((conclude_agrees (run_agrees same agrees region.phase)).trans
          (sameResult_conclude otherStarts).symm)
  | error fault =>
      have otherFails := (same region.start).symm.trans resolved
      simp only [list, resolved, otherFails]
      exact ⟨rfl, rfl, rfl⟩

end Walk

namespace Session

/-- The captured memory of a session. -/
def memory (session : Session) : Memory :=
  session.dump.snapshot.buffers

/--
A walk over a list depends on the bytes of its region only.  In two sessions
with buffers of the same extents, in which the list has the same bytes, it is
listed alike, requests the same and ends in the same way.  Neither registry
makes a difference: each one is extended by the areas that it did not have yet,
in the order of their first request.
-/
theorem list_isLocal
    {first second : Session}
    {region : Walk.ListRegion}
    (extents :
      first.memory.map Buffer.extent = second.memory.map Buffer.extent)
    (bytes :
      ∀ limit,
        first.memory.regionEnd region.start = .ok limit →
        first.memory.SameBytes second.memory region.start
          (min region.stop limit))
    (isRender : Bool) :
    let walk := Walk.list first.memory region
    let other :=
      Walk.list second.memory { region with isRender := isRender }
    Walk.SameResult walk other ∧
      (first.after walk.events).registry =
        first.registry ++
          first.registry.unknown (Event.requests walk.events) ∧
      (second.after other.events).registry =
        second.registry ++
          second.registry.unknown (Event.requests walk.events) := by
  intro walk other
  have results : Walk.SameResult walk other :=
    Walk.list_sameResult (.of_extents extents) bytes isRender
  refine ⟨results, Registry.addAll_eq_append _ _, ?_⟩
  rw [results.requests_eq]
  exact Registry.addAll_eq_append _ _

/--
A session whose memory holds a packet, a branch back to it, and a byte behind
the list.
-/
def branching
    (handle : Int)
    (last : UInt8)
    (known : Registry) : Session where
  dump :=
    { snapshot :=
        { version := 1
          state := []
          buffers :=
            [⟨handle, 0x1000, #[1, 16, 0x00, 0x10, 0, 0, last], some 0⟩]
          trailing := 0 }
      disassembler := Shader.disassemble
      hexdumps := false }
  registry := known
  recording := .empty

/-- The packets before the last byte. -/
def branchingList : Walk.ListRegion :=
  ⟨0x1000, 0x1006, false, unsetPrimMode, .packets⟩

/--
The branch leads to the same area, whatever is registered and stored elsewhere.
-/
theorem list_isLocal_branching :
    let first := branching 1 0xaa []
    let second := branching 2 0x55 [⟨.subList, 0x1000, 7, 0xff, 0, false⟩]
    let walk := Walk.list first.memory branchingList
    let other :=
      Walk.list second.memory { branchingList with isRender := true }
    first.memory ≠ second.memory ∧
      Event.entries walk.events = Event.entries other.events ∧
      (second.after other.events).registry =
        second.registry ++
          second.registry.unknown (Event.requests walk.events) := by
  intro first second walk other
  have extents :
      first.memory.map Buffer.extent = second.memory.map Buffer.extent := by
    decide
  have bytes :
      ∀ limit,
        first.memory.regionEnd branchingList.start = .ok limit →
        first.memory.SameBytes second.memory branchingList.start
          (min branchingList.stop limit) := by
    intro limit _ addr lower upper
    have place : ∃ index : Nat, index < 6 ∧ addr = 0x1000 + index := by
      simp only [branchingList] at lower upper
      exact ⟨(addr - 0x1000).toNat, by omega, by omega⟩
    obtain ⟨index, small, rfl⟩ := place
    clear lower upper
    revert index
    decide +kernel
  have isLocal := list_isLocal extents bytes true
  exact ⟨by decide, isLocal.1.entries_eq, isLocal.2.2⟩

end Session

end VideoCore
