import VideoCore.Record.Fields
import VideoCore.Report.Event

namespace VideoCore

/-!
# Recorded reports

The events of a run by kind, for use by a program.  A register that is given
again keeps its place and takes the new value.
-/

/-- What a run reported, by kind. -/
structure Recording where
  entries : List Entry
  headings : List String
  diagnostics : List String
  registers : Fields
  hexdumps : List (Option Int × Bytes)

namespace Recording

/-- Nothing reported yet. -/
def empty : Recording :=
  ⟨[], [], [], [], []⟩

/-- Record some events, in their order. -/
def addAll
    (recording : Recording)
    (events : List Event) : Recording where
  entries := recording.entries ++ Event.entries events
  headings := recording.headings ++ Event.headings events
  diagnostics := recording.diagnostics ++ Event.diagnostics events
  registers := recording.registers.update (Event.registers events)
  hexdumps := recording.hexdumps ++ Event.hexdumps events

/-- Whether an entry has the kind that is asked for, if one is. -/
def hasKind
    (kind : Option EntryKind)
    (entry : Entry) : Bool :=
  match kind with
  | none => true
  | some wanted => entry.kind == wanted

/-- The names of the entries, of one kind or of all. -/
def names
    (recording : Recording)
    (kind : Option EntryKind) : List String :=
  (recording.entries.filter (hasKind kind)).map Entry.name

/-- The entries with a name, of one kind or of all. -/
def find
    (recording : Recording)
    (name : String)
    (kind : Option EntryKind) : List Entry :=
  recording.entries.filter fun entry => entry.name == name && hasKind kind entry

end Recording

end VideoCore
