import VideoCore.Area.Basic
import VideoCore.Memory.Window
import VideoCore.Report.Entry

namespace VideoCore

/-!
# Events of a decoding run

A decoding run is known by the events it produces, in order, and by how it
ends.  Requests for areas are events, too: a run does not look at what is
registered already.
-/

/-- Something that happens during a decoding run. -/
inductive Event
  /-- An entry of the listing. -/
  | entry (entry : Entry)
  /-- A heading. -/
  | heading (title : String)
  /-- An empty line. -/
  | separator
  /-- A message for the user beside the listing. -/
  | diagnostic (message : String)
  /-- A register of the summary. -/
  | register (name : String) (value : Value)
  /-- A dump of memory, and where its first byte is, if that is known. -/
  | hexdump (addr : Option Int) (data : Window)
  /-- A reference to an area. -/
  | request (area : Area)

/-- The events of a run and its result. -/
structure Traced (α : Type) where
  events : List Event
  outcome : Except Fault α

namespace Traced

variable {α β : Type}

/-- A run without events that returns a value. -/
def pure (value : α) : Traced α :=
  ⟨[], .ok value⟩

/-- A run that goes on with the value of another one, unless that one fails. -/
def bind
    (run : Traced α)
    (next : α → Traced β) : Traced β :=
  match run.outcome with
  | .ok value =>
      let rest := next value
      ⟨run.events ++ rest.events, rest.outcome⟩
  | .error fault => ⟨run.events, .error fault⟩

instance : Monad Traced where
  pure := pure
  bind := bind

/-- A run that only produces events. -/
def emit (events : List Event) : Traced Unit :=
  ⟨events, .ok ()⟩

/-- A run without events. -/
def ofExcept (outcome : Except Fault α) : Traced α :=
  ⟨[], outcome⟩

end Traced

namespace Event

/-- The entries among some events. -/
def entries (events : List Event) : List Entry :=
  events.filterMap fun
    | .entry found => some found
    | _ => none

/-- The headings among some events. -/
def headings (events : List Event) : List String :=
  events.filterMap fun
    | .heading title => some title
    | _ => none

/-- The messages beside the listing among some events. -/
def diagnostics (events : List Event) : List String :=
  events.filterMap fun
    | .diagnostic message => some message
    | _ => none

/-- The registers of the summary among some events. -/
def registers (events : List Event) : List (String × Value) :=
  events.filterMap fun
    | .register name value => some (name, value)
    | _ => none

/-- The dumps of memory among some events. -/
def hexdumps (events : List Event) : List (Option Int × Bytes) :=
  events.filterMap fun
    | .hexdump addr data => some (addr, data.toBytes)
    | _ => none

/-- The requested areas among some events. -/
def requests (events : List Event) : List Area :=
  events.filterMap fun
    | .request area => some area
    | _ => none

end Event

end VideoCore
