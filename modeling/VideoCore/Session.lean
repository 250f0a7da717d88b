import VideoCore.Dump
import VideoCore.Report.Recording

namespace VideoCore

/-!
# Sessions

A session is a dump in progress.  Whatever is done in it adds to the areas and
to the report, also if it fails in the end.
-/

/-- A dump, with the areas and the report so far. -/
structure Session where
  dump : Dump
  registry : Registry
  recording : Recording

/-- A part of a dump that can be asked for on its own. -/
inductive SessionCommand
  | registerSummary
  | controlLists
  | areas
  | everything (parts : DumpParts)

namespace Session

/-- The session after some events. -/
def after
    (session : Session)
    (events : List Event) : Session where
  dump := session.dump
  registry := session.registry.addAll (Event.requests events)
  recording := session.recording.addAll events

/-- A session before anything has happened. -/
def blank (dump : Dump) : Session :=
  ⟨dump, [], Recording.empty⟩

/-- A session in which nothing has been asked for yet. -/
def start (dump : Dump) : Session :=
  (blank dump).after dump.opening

/-- The run that a command leads to. -/
def runOf (session : Session) : SessionCommand → Traced Unit
  | .registerSummary => Traced.emit session.dump.registerSummary
  | .controlLists => session.dump.controlLists
  | .areas => session.dump.areas session.registry
  | .everything parts => session.dump.run session.registry parts

/-- Carry out a command. -/
def perform
    (session : Session)
    (command : SessionCommand) : Session × Except Fault Unit :=
  let run := session.runOf command
  (session.after run.events, run.outcome)

end Session

end VideoCore
