import VideoCore.Proofs.Area.Canonical
import VideoCore.Proofs.Compressed
import VideoCore.Proofs.Report.Traced
import VideoCore.Report.Printer

namespace VideoCore

/-!
# Regular events

A walk over a list or an area produces entries that have lines, messages, and
requests for canonical areas.  Headings, empty lines, registers and dumps of
memory come from the dump around the walks.
-/

namespace Entry

variable {addr : Int} {name : String}

theorem isPrinted_packet
    (opcode : Int) :
    IsPrinted ⟨some addr, name, .integer opcode, .packet⟩ :=
  ⟨_, rfl⟩

theorem isPrinted_target
    (target : Int) :
    IsPrinted ⟨some addr, name, .integer target, .compressed⟩ :=
  ⟨_, rfl⟩

theorem isPrinted_instruction
    (text : String) :
    IsPrinted ⟨some addr, name, .text text, .instruction⟩ :=
  ⟨_, rfl⟩

theorem isPrinted_unknownPacket
    (opcode : UInt8) :
    IsPrinted ⟨some addr, unknownPacket, .integer opcode.toNat, .error⟩ := by
  have short : (opcode.toNat : Int).natAbs < 2 ^ 64 := by
    have small := opcode.toNat_lt
    omega
  obtain ⟨text, textIs⟩ := (Value.isPlain_of_lt short).1
  rw [IsPrinted, line, addressText, Outcome.ok_bind, lineBody]
  simp only [errorText, if_true, textIs, Outcome.ok_bind,
    Value.hexadecimal, Value.integer?]
  exact ⟨_, rfl⟩

/-- Any other entry for an error has a line if its value can be shown. -/
theorem isPrinted_error
    {value : Value}
    (other : name ≠ unknownPacket)
    (shown : value.IsShown) :
    IsPrinted ⟨some addr, name, value, .error⟩ := by
  obtain ⟨text, textIs⟩ := shown
  rw [IsPrinted, line, addressText, Outcome.ok_bind, lineBody]
  by_cases isOverflow : name = overflow
  · subst isOverflow
    exact ⟨_, rfl⟩
  · cases value <;>
      simp only [errorText, other, isOverflow, if_false, textIs,
        Outcome.ok_bind] <;>
      exact ⟨_, rfl⟩

end Entry

/-- The events that a walk can produce. -/
inductive Event.Regular (memory : Memory) : Event → Prop where
  | entry
      {found : Entry}
      (printed : found.IsPrinted) :
      Regular memory (.entry found)
  | diagnostic
      (message : String) :
      Regular memory (.diagnostic message)
  | request
      {area : Area}
      (canonical : Area.Canonical memory area) :
      Regular memory (.request area)

namespace Event.Regular

variable {memory : Memory} {event : Event}

/-- A regular event can be printed. -/
theorem exists_ofEvent
    (regular : Regular memory event) :
    ∃ text, Printed.ofEvent event = .ok text := by
  cases regular with
  | entry printed =>
      obtain ⟨text, textIs⟩ := printed
      rw [Printed.ofEvent, textIs]
      exact ⟨_, rfl⟩
  | diagnostic message =>
      exact ⟨_, rfl⟩
  | request canonical =>
      exact ⟨_, rfl⟩

/-- Regular events are no headings. -/
theorem headings_eq_nil
    {events : List Event}
    (regular : ∀ event ∈ events, Regular memory event) :
    Event.headings events = [] := by
  rw [Event.headings, List.filterMap_eq_nil_iff]
  intro event member
  cases regular event member <;> rfl

/-- What regular events request is canonical. -/
theorem canonical_of_mem_requests
    {events : List Event}
    (regular : ∀ event ∈ events, Regular memory event)
    {area : Area}
    (requested : area ∈ Event.requests events) :
    Area.Canonical memory area := by
  cases regular _ (Event.mem_requests.mp requested) with
  | request canonical =>
      exact canonical

/-- The report of an unresolved reference is regular. -/
theorem unresolved
    (addr : Int)
    (fault : Fault) :
    ∀ event ∈ memory.unresolved addr fault, Regular memory event := by
  have shown : fault.address.IsShown := by
    unfold Fault.address
    split <;> exact ⟨_, by rw [Value.display]⟩
  intro event member
  simp only [Memory.unresolved, List.mem_cons, List.not_mem_nil,
    or_false] at member
  rcases member with rfl | rfl | rfl
  · exact .entry (Entry.isPrinted_error (by decide) shown)
  · exact .diagnostic _
  · exact .diagnostic _

end Event.Regular

end VideoCore
