import VideoCore.Proofs.Memory.Rearrangement
import VideoCore.Proofs.Report.Matching
import VideoCore.Proofs.Walk.Agreement

namespace VideoCore

/-!
# Walks over the same buffers

Where every address resolves to the same buffer, walks over lists, shader
records and programs report the same (`Walk.area_matches`).
-/

variable {memory other : Memory}

namespace Walk

/-- Only the regions of addresses matter for an item. -/
theorem item_eq_of_sameRegions
    (same : memory.SameRegions other)
    (phase : Phase)
    (cursor : Cursor) :
    item memory phase cursor = item other phase cursor := by
  simp only [item, packet, knownPacket, carryOut, same.apply_eq, form,
    knownForm, followBranch, Memory.compressedListAt, same.areaToEnd_eq]

/-- Only the regions of addresses matter for a run from a cursor on. -/
theorem run_eq_of_sameRegions
    (same : memory.SameRegions other)
    (phase : Phase)
    (cursor : Cursor) :
    run memory phase cursor = run other phase cursor := by
  have runs := runs_run memory phase cursor
  generalize run memory phase cursor = progress at runs
  induction runs with
  | @last phase cursor ends =>
      rw [item_eq_of_sameRegions same] at ends ⊢
      exact (runWhile_of_ends ends).symm
  | @goesOn phase next cursor progress follows isWanted later
      inductionHypothesis =>
      rw [item_eq_of_sameRegions same] at follows inductionHypothesis ⊢
      rw [inductionHypothesis]
      exact (runWhile_of_follows follows isWanted).symm

/-- A list is walked alike in rearranged buffers. -/
theorem list_matches
    (same : memory.SameBuffers other)
    (region : ListRegion) :
    (list memory region).Matches memory other (list other region) := by
  have regions := same.sameRegions
  rw [list, list, ← regions region.start]
  split
  · next fault _ =>
      exact ⟨Memory.unresolved_matches region.start fault, rfl⟩
  · simp only [listWithin, ← same.view_eq]
    refine .bind (.refl _) fun _ => .bind (.refl _) fun window => ?_
    rw [conclude, conclude, ← run_eq_of_sameRegions regions]
    exact .reportingUncaptured (.refl _) _ _

end Walk

namespace Shader

theorem programAt_eq_of_sameBuffers
    (same : memory.SameBuffers other)
    (type : AreaType)
    (paddr : Int) :
    programAt memory type paddr = programAt other type paddr := by
  simp only [programAt, same.view_eq, Memory.sizedArea,
    same.sameRegions _]

/-- The programs of a record are looked up alike in rearranged buffers. -/
theorem lookUpStages_matches
    (same : memory.SameBuffers other)
    (record : Record)
    (stages : List (String × AreaType)) :
    (lookUpStages memory record stages).Matches memory other
      (lookUpStages other record stages) := by
  induction stages with
  | nil =>
      exact .refl _
  | cons first rest inductionHypothesis =>
      obtain ⟨stage, type⟩ := first
      refine .bind (.bind (.refl _) fun place => ?_)
        fun _ => inductionHypothesis
      rw [programAt_eq_of_sameBuffers same]
      exact .reportingUncaptured (.refl _) _ _

/-- A shader record is walked alike in rearranged buffers. -/
theorem walkRecord_matches
    (same : memory.SameBuffers other)
    (area : Area) :
    (walkRecord memory area).Matches memory other
      (walkRecord other area) := by
  simp only [walkRecord, ← same.read_eq]
  exact .bind (.refl _) fun bytes =>
    .bind (.refl _) fun record =>
      .bind (.refl _) fun attributes =>
        .bind (lookUpStages_matches same record stages) fun _ =>
          .refl _

/-- A program is walked alike in rearranged buffers. -/
theorem walkProgram_eq_of_sameBuffers
    (same : memory.SameBuffers other)
    (text : Disassembler)
    (area : Area) :
    walkProgram memory text area = walkProgram other text area := by
  rw [walkProgram, same.read_eq, ← walkProgram]

end Shader

/-- The walks over an area report the same. -/
theorem Walk.area_matches
    (same : memory.SameBuffers other)
    (text : Shader.Disassembler)
    (area : Area) :
    (Walk.area memory text area).Matches memory other
      (Walk.area other text area) := by
  have record :
      (Traced.reportingUncaptured memory area.paddr none
        (do
          let _ ← Shader.walkRecord memory area
          return none) : Traced (Option Cursor)).Matches memory other
        (Traced.reportingUncaptured other area.paddr none
          (do
            let _ ← Shader.walkRecord other area
            return none)) :=
    .reportingUncaptured
      (.bind (Shader.walkRecord_matches same area) fun _ => .refl _) _ _
  have program :
      (Traced.reportingUncaptured memory area.paddr none
        (do
          Shader.walkProgram memory text area
          return none) : Traced (Option Cursor)).Matches memory other
        (Traced.reportingUncaptured other area.paddr none
          (do
            Shader.walkProgram other text area
            return none)) := by
    rw [Shader.walkProgram_eq_of_sameBuffers same]
    exact .reportingUncaptured (.refl _) _ _
  unfold Walk.area
  cases area.type with
  | subList | compressedList =>
      exact list_matches same _
  | shaderRecord =>
      exact record
  | coordinateShader | vertexShader | fragmentShader =>
      exact program

end VideoCore
