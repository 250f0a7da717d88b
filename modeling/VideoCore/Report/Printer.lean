import VideoCore.Hexdump
import VideoCore.Report.Event

namespace VideoCore

/-!
# Printed reports

The events of a run as two texts: the listing, and the messages beside it.
-/

/-- The text of a listing and of the messages beside it. -/
structure Printed where
  listing : String
  messages : String
deriving DecidableEq

namespace Printed

/-- No text. -/
def empty : Printed :=
  ⟨"", ""⟩

/-- Two texts, one after the other. -/
def append (first second : Printed) : Printed :=
  ⟨first.listing ++ second.listing, first.messages ++ second.messages⟩

/-- A line of the listing. -/
def line (text : String) : Printed :=
  ⟨text ++ "\n", ""⟩

/-- A line beside the listing. -/
def message (text : String) : Printed :=
  ⟨"", text ++ "\n"⟩

/-- The name of a register in the summary, filled to its column. -/
def registerLabel (name : String) : String :=
  Hexdump.fillRight 16 (name ++ ":")

/-- The line of a register: its value, or the ends of a range. -/
def registerLine
    (name : String)
    (value : Value) : Except Fault String :=
  match value with
  | .tuple [start, stop] => do
      let first ← start.hexadecimal 8
      let last ← stop.hexadecimal 8
      .ok (registerLabel name ++ "0x" ++ first ++ " to 0x" ++ last)
  | .tuple _ => .error .badValue
  | _ => do
      let digits ← value.hexadecimal 8
      .ok (registerLabel name ++ "0x" ++ digits)

/-- The lines of a dump of memory; bytes at an unknown address have none. -/
def hexdumpText
    (addr : Option Int)
    (data : Window) : Except Fault String :=
  match addr with
  | some addr =>
      .ok (String.join
        ((Hexdump.lines (Hexdump.standardStyle addr) data).map (· ++ "\n")))
  | none => if data.size = 0 then .ok "" else .error .wrongKind

/-- The text of an event; requests have none. -/
def ofEvent : Event → Except Fault Printed
  | .entry found => do
      let text ← found.line
      .ok (line text)
  | .heading title => .ok (line title)
  | .separator => .ok (line "")
  | .diagnostic text => .ok (message text)
  | .register name value => do
      let text ← registerLine name value
      .ok (line text)
  | .hexdump addr data => do
      let text ← hexdumpText addr data
      .ok ⟨text, ""⟩
  | .request _ => .ok empty

/--
The text of some events after the text so far, up to the first that has none.
-/
def ofEventsAfter (printed : Printed) : List Event → Printed × Option Fault
  | [] => (printed, none)
  | event :: rest =>
      match ofEvent event with
      | .ok text => ofEventsAfter (printed.append text) rest
      | .error fault => (printed, some fault)

/--
The text of some events, and the fault of the first one that cannot be written.
-/
def ofEvents (events : List Event) : Printed × Option Fault :=
  ofEventsAfter empty events

end Printed

end VideoCore
