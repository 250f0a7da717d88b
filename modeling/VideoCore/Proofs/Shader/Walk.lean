import VideoCore.Proofs.Report.Safe
import VideoCore.Shader.Walk

namespace VideoCore

/-!
# Walks over shader records and programs

A record can be listed with all its attributes once its bytes are captured.
The programs that it names are areas of their own, as far as they extend; those
that are not captured are reported one by one.
-/

namespace Memory

variable {memory : Memory}

/-- Bytes can be read, all of them, unless some of them are in no buffer. -/
theorem read_cases
    (memory : Memory)
    (addr size : Int) :
    (∃ bytes : Bytes,
      memory.read addr size = .ok bytes ∧ (bytes.length : Int) = size) ∨
      ∃ missing, memory.read addr size = .error (.unmapped missing) := by
  cases shown : memory.view addr (some (addr + size)) with
  | error fault =>
      have isUnmapped := eq_unmapped_of_view shown
      refine Or.inr ⟨addr, ?_⟩
      rw [read, shown, isUnmapped]
      rfl
  | ok window =>
      by_cases whole : (window.size : Int) = size
      · refine Or.inl ⟨window.toBytes, ?_, by simpa using whole⟩
        simp only [read, shown, Outcome.ok_bind, whole, if_true]
      · refine Or.inr ⟨addr + window.size, ?_⟩
        simp only [read, shown, Outcome.ok_bind, whole, if_false]

/-- Bytes are missing for an address in no buffer only. -/
theorem view_cases
    (memory : Memory)
    (addr : Int)
    (stop : Option Int) :
    (∃ window, memory.view addr stop = .ok window) ∨
      ∃ missing, memory.view addr stop = .error (.unmapped missing) := by
  cases shown : memory.view addr stop with
  | error fault =>
      exact Or.inr ⟨addr, congrArg _ (eq_unmapped_of_view shown)⟩
  | ok window =>
      exact Or.inl ⟨window, rfl⟩

end Memory

namespace Shader

variable {memory : Memory}

/-- The program at an address is a canonical area, if it is captured at all. -/
theorem programAt_careful
    {type : AreaType}
    (isCode : type.isCode = true)
    (paddr : Int) :
    (programAt memory type paddr).Careful memory := by
  unfold programAt
  refine .bind (.ofExcept (memory.view_cases paddr none)) ?_
  intro code shown
  have covered := Memory.covers_of_view shown
  obtain ⟨limit, resolved, _⟩ := Memory.regionEnd_of_covers covered
  have areaIs :
      memory.sizedArea type paddr (extent code).size =
        .ok ⟨type, paddr, (extent code).size, unsetPrimMode, 0,
          false⟩ := by
    rw [Memory.sizedArea, resolved]
    rfl
  have request :
      (do
        let area ← Traced.ofExcept
          (memory.sizedArea type paddr (extent code).size)
        Traced.emit [.request area]
        return area : Traced Area).Careful memory := by
    rw [areaIs, Traced.ofExcept_ok_bind]
    refine .emit_bind ?_ (.ofPure _)
    intro event member
    obtain rfl := List.mem_singleton.mp member
    exact .request (.program isCode shown)
  dsimp only
  split
  · refine .emit_bind ?_ request
    intro event member
    obtain rfl := List.mem_singleton.mp member
    exact .entry (Entry.isPrinted_error (by decide)
      ⟨type.name, by rw [Value.display]⟩)
  · exact request

/--
A record of plain fields whose bytes are there is listed, and is the result.
-/
theorem listRecord_careful
    (memory : Memory)
    {type : RecordType}
    (plain : type.layout.all Part.isPlain = true)
    (sizeIs : type.layout.size? = some type.fixedSize)
    {bytes : Bytes}
    (fits : type.fixedSize ≤ bytes.length)
    (addr : Int)
    (title : String → String) :
    (listRecord type bytes addr title).Careful memory ∧
      ∀ record,
        (listRecord type bytes addr title).outcome = .ok record →
        record.type = type ∧ record.addr = some addr := by
  obtain ⟨final, yields⟩ :=
    Layout.exists_yields_of_isPlain plain sizeIs fits []
  obtain ⟨readsAs, listable⟩ :=
    RecordType.read_of_yields yields sizeIs addr
  obtain ⟨entries, entriesAre, printed⟩ :=
    listable.exists_entries title []
  rw [listRecord, readsAs, Traced.ofExcept_ok_bind, entriesAre,
    Traced.ofExcept_ok_bind]
  constructor
  · refine .emit_bind ?_ (.ofPure _)
    intro event member
    obtain ⟨entry, entryMember, rfl⟩ := List.mem_map.mp member
    exact .entry (printed entry entryMember)
  · intro record isRecord
    cases isRecord
    exact ⟨rfl, rfl⟩

/-- Attributes whose bytes are there are listed with care. -/
theorem listAttributes_careful
    {count : Nat}
    {bytes : Bytes}
    (fits : count * attributeType.fixedSize ≤ bytes.length)
    (addr : Int)
    (index : Nat) :
    (listAttributes bytes addr index count).Careful memory := by
  induction count generalizing bytes addr index with
  | zero =>
      exact .ofPure []
  | succ count inductionHypothesis =>
      rw [Nat.succ_mul] at fits
      have firstFits :
          attributeType.fixedSize ≤
            (bytes.take attributeType.fixedSize).length := by
        rw [List.length_take]
        omega
      have restFits :
          count * attributeType.fixedSize ≤
            (bytes.drop attributeType.fixedSize).length := by
        rw [List.length_drop]
        omega
      refine .bind
        (listRecord_careful memory (by decide) (by decide) firstFits
          addr _).1 ?_
      intro first _
      refine .bind (inductionHypothesis restFits _ _) ?_
      intro others _
      exact .ofPure _

/-- The program of a stage is looked up, or reported if it is not captured. -/
theorem lookUpStage_careful
    {record : Record}
    (isRecord : record.type = recordType)
    {addr : Int}
    (located : record.addr = some addr)
    {stage : String}
    {type : AreaType}
    (isStage : (stage, type) ∈ stages) :
    (lookUpStage memory record stage type).Careful memory := by
  have known :
      ∀ entry ∈ stages,
        entry.2.isCode = true ∧
          (recordType.offset (codeField entry.1)).isOk = true := by
    decide
  obtain ⟨isCode, hasOffset⟩ := known _ isStage
  cases offsetIs : recordType.offset (codeField stage) with
  | error fault =>
      rw [offsetIs] at hasOffset
      contradiction
  | ok offset =>
      have place :
          record.addressOf (codeField stage) = .ok (addr + offset) := by
        simp only [Record.addressOf, isRecord, offsetIs,
          Outcome.ok_bind, located]
      rw [lookUpStage, place, Traced.ofExcept_ok_bind]
      refine (Traced.Careful.reportingUncaptured ?_ _ _).careful
      exact .bind (programAt_careful isCode _) fun _ _ => .ofPure _

/-- The programs of a record are looked up with care. -/
theorem lookUpStages_careful
    {record : Record}
    (isRecord : record.type = recordType)
    {addr : Int}
    (located : record.addr = some addr)
    {wanted : List (String × AreaType)}
    (areStages : wanted ⊆ stages) :
    (lookUpStages memory record wanted).Careful memory := by
  induction wanted with
  | nil =>
      exact .ofPure ()
  | cons first rest inductionHypothesis =>
      obtain ⟨isStage, restAreStages⟩ := List.cons_subset.mp areStages
      exact .bind (lookUpStage_careful isRecord located isStage)
        fun _ _ => inductionHypothesis restAreStages

/-- A canonical shader record is listed as far as it is captured. -/
theorem walkRecord_careful
    {area : Area}
    (sizeIs :
      area.size =
        shaderRecordSize + area.attributes * shaderAttributeSize)
    (counted : 0 ≤ area.attributes) :
    (walkRecord memory area).Careful memory := by
  rcases memory.read_cases area.paddr area.size with
    ⟨bytes, readsAs, length⟩ | ⟨missing, fails⟩
  · have headSize : recordType.fixedSize = 36 := by decide
    have attributeSize : attributeType.fixedSize = 8 := by decide
    have headFits :
        recordType.fixedSize ≤ (bytes.take recordType.fixedSize).length := by
      rw [List.length_take]
      simp only [shaderRecordSize, shaderAttributeSize] at *
      omega
    have attributesFit :
        area.attributes.toNat * attributeType.fixedSize ≤
          (bytes.drop recordType.fixedSize).length := by
      rw [List.length_drop, attributeSize]
      simp only [shaderRecordSize, shaderAttributeSize] at *
      omega
    obtain ⟨head, isRecord⟩ :=
      listRecord_careful memory (by decide +kernel) (by decide) headFits
        area.paddr id
    rw [walkRecord, readsAs, Traced.ofExcept_ok_bind]
    refine .bind head ?_
    intro record listed
    obtain ⟨typeIs, located⟩ := isRecord record listed
    refine .bind (listAttributes_careful attributesFit _ _) ?_
    intro attributes _
    refine .bind
      (lookUpStages_careful typeIs located (List.Subset.refl _)) ?_
    intro _ _
    exact .ofPure _
  · rw [walkRecord, fails, Traced.ofExcept_error_bind]
    exact ⟨.ofOutcome _, Or.inr ⟨missing, rfl⟩⟩

/-- The instructions of a program are listed as far as it is captured. -/
theorem walkProgram_careful
    (text : Disassembler)
    (area : Area) :
    (walkProgram memory text area).Careful memory := by
  have regular :
      ∀ (words : List Nat) (addr : Int),
        ∀ event ∈ instructionEvents text area.type addr words,
          event.Regular memory := by
    intro words
    induction words with
    | nil =>
        simp [instructionEvents]
    | cons word rest inductionHypothesis =>
        intro addr
        exact List.forall_mem_cons.mpr
          ⟨.entry (Entry.isPrinted_instruction _),
            inductionHypothesis _⟩
  refine .bind (.ofExcept ?_) ?_
  · rcases memory.read_cases area.paddr area.size with
      ⟨bytes, readsAs, _⟩ | missing
    · exact Or.inl ⟨bytes, readsAs⟩
    · exact Or.inr missing
  · intro code _
    exact ⟨regular _ _, Or.inl ⟨(), rfl⟩⟩

end Shader

end VideoCore
