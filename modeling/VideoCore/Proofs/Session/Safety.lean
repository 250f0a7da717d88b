import VideoCore.CommandLine.Run
import VideoCore.Proofs.Dump.Printing
import VideoCore.Proofs.Dump.Safety
import VideoCore.Proofs.Session.Registry

namespace VideoCore

/-!
# Reports of accepted snapshots

The dump of an accepted snapshot can always be reported, whatever the bytes of
the snapshot are.  The only fault there is comes from references to extended
shader records.
-/

/-- Every instruction has a signal with a name. -/
theorem Shader.exists_signalName
    (instruction : Int) :
    ∃ name ∈ Enumeration.signal.members,
      signalName instruction = name.toLower := by
  have inside :
      (signal instruction).toNat < Enumeration.signal.members.length := by
    have size : Enumeration.signal.members.length = 16 := rfl
    simp only [signal, BitSpan.read_eq_emod, size]
    omega
  refine ⟨_, List.getElem_mem inside, ?_⟩
  rw [signalName, List.getElem?_eq_getElem inside, Option.getD_some]

namespace Invocation

variable {input : Bytes} {snapshot : Snapshot}

/-- The dump of an accepted snapshot is printed to its end. -/
theorem ofEvents_eq_none
    (accepted : Snapshot.decode input = .ok snapshot)
    (invocation : Invocation) :
    (Printed.ofEvents
      ((invocation.dumpOf snapshot).opening ++
        ((invocation.dumpOf snapshot).run []
          invocation.parts).events)).2 = none := by
  have hasRegisters : (invocation.dumpOf snapshot).HasRegisters :=
    fun name isRegister =>
      Snapshot.exists_integer_of_decode accepted isRegister
  apply Printed.ofEventsAfter_eq_none
  intro event member
  apply Dump.exists_ofEvent_of_ofDump hasRegisters
  rcases List.mem_append.mp member with early | late
  · exact Dump.opening_ofDump _ event early
  · exact Dump.run_ofDump .nil _ event late

/-- Printing the dump of an accepted snapshot ends as the dump does. -/
theorem print_outcome
    (accepted : Snapshot.decode input = .ok snapshot)
    (invocation : Invocation) :
    (invocation.print snapshot).outcome =
      ((invocation.dumpOf snapshot).run []
        invocation.parts).outcome.map fun _ => 0 := by
  simp only [print]
  rw [ofEvents_eq_none accepted invocation]
  rfl

/--
A dump of an accepted snapshot, printed or recorded, with whatever parts are
wanted, fails exactly if a walk that it performs meets a reference to an
extended shader record, and for no other reason.  The default disassembler knows
the signals of all instructions.
-/
theorem reports_fail_iff
    (accepted : Snapshot.decode input = .ok snapshot)
    (invocation : Invocation) :
    (∀ fault,
      (invocation.print snapshot).outcome = .error fault ↔
        fault = .extendedShaderRecord ∧
          (invocation.dumpOf snapshot).MeetsExtended
            invocation.parts) ∧
      (∀ fault,
        ((Session.start (invocation.dumpOf snapshot)).perform
            (.everything invocation.parts)).2 = .error fault ↔
          fault = .extendedShaderRecord ∧
            (invocation.dumpOf snapshot).MeetsExtended
              invocation.parts) ∧
      (∀ instruction,
        ∃ name ∈ Enumeration.signal.members,
          Shader.signalName instruction = name.toLower) := by
  refine ⟨fun fault => ?_, fun fault => ?_, Shader.exists_signalName⟩
  · rw [print_outcome accepted, ← Dump.outcome_eq_error_iff]
    cases ((invocation.dumpOf snapshot).run [] invocation.parts).outcome
      with
    | ok _ =>
        simp [Except.map]
    | error other =>
        simp [Except.map]
  · rw [← Dump.outcome_eq_error_iff, Session.perform,
      Session.runOf_start]

/--
A container whose rendering list is one reference to an extended shader record.
-/
def extendedReference : Bytes :=
  let state : Fields :=
    [("start_render", .integer 0x1000), ("ct1ea", .integer 0x1005)]
  let buffers : Memory := [⟨1, 0x1000, #[64, 8, 0, 0, 0], some 0⟩]
  (Snapshot.encode state buffers).toOption.getD []

/-- Printing a reference to an extended shader record fails: a walk meets it. -/
theorem reports_fail_of_extendedReference :
    ∃ snapshot,
      Snapshot.decode extendedReference = .ok snapshot ∧
        (print ⟨"hang", ⟨true, true⟩, true⟩ snapshot).outcome =
          .error .extendedShaderRecord ∧
        Dump.MeetsExtended
          (dumpOf ⟨"hang", ⟨true, true⟩, true⟩ snapshot)
          ⟨true, true⟩ := by
  have fails :
      ((Snapshot.decode extendedReference).map fun snapshot =>
          (print ⟨"hang", ⟨true, true⟩, true⟩ snapshot).outcome) =
        .ok (.error .extendedShaderRecord) := by
    decide +kernel
  cases accepted : Snapshot.decode extendedReference with
  | error fault =>
      rw [accepted] at fails
      contradiction
  | ok snapshot =>
      rw [accepted] at fails
      have printFails := Except.ok.inj fails
      exact ⟨snapshot, rfl, printFails,
        (((reports_fail_iff accepted
          ⟨"hang", ⟨true, true⟩, true⟩).1 _).mp printFails).2⟩

end Invocation

end VideoCore
