import VideoCore.CommandLine.Arguments
import VideoCore.Report.Printer

namespace VideoCore

/-!
# Runs of the program

A run reads the snapshot that the user names and prints the dump.  A file that
cannot be read, or that is no snapshot, is reported and ends the run.
-/

/--
What a run printed, and how it ended: with a status for the shell, or with a
fault.
-/
structure Finished where
  printed : Printed
  outcome : Except Fault Nat

namespace Invocation

/-- The dump of a snapshot. -/
def dumpOf
    (invocation : Invocation)
    (snapshot : Snapshot) : Dump where
  snapshot := snapshot
  disassembler := Shader.disassemble
  hexdumps := invocation.hexdumps

/-- Print the dump of a snapshot. -/
def print
    (invocation : Invocation)
    (snapshot : Snapshot) : Finished :=
  let dump := invocation.dumpOf snapshot
  let run := dump.run [] invocation.parts
  let (printed, failure?) := Printed.ofEvents (dump.opening ++ run.events)
  ⟨printed, failure?.elim (run.outcome.map fun _ => 0) .error⟩

/-- Tell the user why there is nothing to dump. -/
def refuse
    (invocation : Invocation)
    (reason : String) : Finished :=
  ⟨.message (invocation.path ++ ": " ++ reason), .ok 1⟩

/-- Dump the bytes of a file, or tell the user why they are no snapshot. -/
def printFile
    (invocation : Invocation)
    (bytes : Bytes) : Finished :=
  match Snapshot.decode bytes with
  | .ok snapshot => invocation.print snapshot
  | .error fault =>
      match fault.message? with
      | some reason => invocation.refuse reason
      | none => ⟨.empty, .error fault⟩

/--
Carry out an invocation with what its path leads to, if it is a path at all.
-/
def finish
    (invocation : Invocation)
    (contents : Except FileFault Bytes) : Finished :=
  if FilePath.isUsable invocation.path then
    match contents with
    | .error fault => invocation.refuse (fault.message invocation.path)
    | .ok bytes => invocation.printFile bytes
  else
    ⟨.empty, .error .badValue⟩

end Invocation

end VideoCore
