import VideoCore.Fault
import VideoCore.Memory.Buffer

namespace VideoCore

/-!
# Captured memory

Captured memory is a list of buffers, which may overlap.  An address resolves
to the first buffer that covers it; no bytes past the end of that buffer are
ever handed out.
-/

/-- The captured buffers, in the order of the snapshot. -/
abbrev Memory := List Buffer

namespace Memory

/-- The first buffer, counted from `index`, that covers an address. -/
def findFrom
    (addr : Int)
    (index : Nat) :
    Memory → Option (Nat × Buffer)
  | [] => none
  | buffer :: rest =>
      if buffer.contains addr then
        some (index, buffer)
      else
        findFrom addr (index + 1) rest

/-- The first buffer that covers an address, with its index. -/
def find
    (memory : Memory)
    (addr : Int) : Except Fault (Nat × Buffer) :=
  match memory.findFrom addr 0 with
  | some found => .ok found
  | none => .error (.unmapped addr)

/-- The place that an address resolves to. -/
def locate
    (memory : Memory)
    (addr : Int) : Except Fault Location := do
  let (index, buffer) ← memory.find addr
  .ok ⟨index, addr - buffer.paddr⟩

/-- The address of a place. -/
def addressOf
    (memory : Memory)
    (location : Location) : Except Fault Int :=
  if location.buffer < 0 then
    .error (.noSuchLocation location)
  else
    match memory[location.buffer.toNat]? with
    | none => .error (.noSuchLocation location)
    | some buffer =>
        if 0 ≤ location.offset ∧ location.offset < buffer.size then
          .ok (buffer.paddr + location.offset)
        else
          .error (.noSuchLocation location)

/-- The end of the buffer that an address resolves to. -/
def regionEnd
    (memory : Memory)
    (addr : Int) : Except Fault Int := do
  let (_, buffer) ← memory.find addr
  .ok buffer.stop

/--
The bytes from an address up to an end, or up to the end of the buffer if that
comes first.
-/
def view
    (memory : Memory)
    (addr : Int)
    (stop : Option Int) : Except Fault Window := do
  let (_, buffer) ← memory.find addr
  let limit := min (stop.getD buffer.stop) buffer.stop
  .ok
    ((buffer.window.drop (addr - buffer.paddr).toNat).take
      (limit - addr).toNat)

/-- Exactly `size` bytes; too few are a fault at the end of the buffer. -/
def read
    (memory : Memory)
    (addr size : Int) : Except Fault Bytes := do
  let window ← memory.view addr (some (addr + size))
  if (window.size : Int) = size then
    .ok window.toBytes
  else
    .error (.unmapped (addr + window.size))

/-- The lines that list the buffers, counted from `index`. -/
def listingFrom (index : Nat) : Memory → List String
  | [] => []
  | buffer :: rest =>
      (buffer.rangeText ++ " (BO " ++ toString index ++ ", handle " ++
        toString buffer.handle ++ ")") :: listingFrom (index + 1) rest

/-- A listing of the buffers. -/
def describe (memory : Memory) : String :=
  "\n".intercalate ("BOs:" :: memory.listingFrom 0)

/--
The number of captured bytes, an upper bound on the number of covered addresses.
-/
def capacity : Memory → Nat
  | [] => 0
  | buffer :: rest => buffer.size + capacity rest

end Memory

end VideoCore
