import VideoCore.Proofs.Memory.Contents
import VideoCore.Proofs.Shader.Walk
import VideoCore.Proofs.Walk.Run
import VideoCore.Walk.Area

namespace VideoCore

/-!
# What walks can do

A walk over a list or a canonical area is safe: it produces regular events, and
fails exactly if it meets a reference to an extended shader record.
-/

namespace Walk

variable {memory : Memory}

/-- The cursor that a walk over a list begins with, if its start is captured. -/
def ListRegion.cursor?
    (region : ListRegion)
    (memory : Memory) : Except Fault Cursor := do
  let limit ← memory.regionEnd region.start
  let stop := min region.stop limit
  let window ← memory.view region.start (some stop)
  .ok (Cursor.atStart region.start stop window region.isRender
    region.primMode)

/--
Whether a walk over a list meets a reference to an extended shader record.
-/
def ListRegion.MeetsExtended
    (region : ListRegion)
    (memory : Memory) : Prop :=
  ∃ cursor,
    region.cursor? memory = .ok cursor ∧
      Walk.MeetsExtended memory region.phase cursor

/-- A run that has led to something is safe once its references are reported. -/
theorem conclude_safe
    {phase : Phase}
    {cursor : Cursor}
    {progress : Progress}
    (leads : Leads memory phase cursor progress) :
    (conclude memory progress).Safe memory
      (Walk.MeetsExtended memory phase cursor) := by
  cases leads with
  | @ended events next ending plain regular =>
      exact
        { regular := regular
          succeeds := fun _ => ⟨some next, rfl⟩
          refuses := fun extended => absurd extended plain }
  | @unmapped events next addr plain regular =>
      have careful :
          Traced.Careful memory
            (⟨events, .error (.unmapped addr)⟩ :
              Traced (Option Cursor)) :=
        ⟨regular, Or.inr ⟨addr, rfl⟩⟩
      have safe := careful.reportingUncaptured next.addr (some next)
      exact
        { regular := safe.regular
          succeeds := fun _ => safe.succeeds not_false
          refuses := fun extended => absurd extended plain }
  | @extended events next extended regular =>
      exact
        { regular := regular
          succeeds := fun plain => absurd extended plain
          refuses := fun _ => rfl }

/--
Whether a cursor stands at the start of a list in a buffer that ends at `limit`.
-/
structure ListRegion.IsStart
    (region : ListRegion)
    (limit : Int)
    (cursor : Cursor) : Prop where
  within : cursor.Within
  addr_eq : cursor.addr = region.start
  stop_eq : cursor.stop = min region.stop limit
  primMode_eq : cursor.primMode = region.primMode

/--
A list whose start resolves is walked from there to the end of its region.
-/
theorem list_of_regionEnd
    {region : ListRegion}
    {limit : Int}
    (resolved : memory.regionEnd region.start = .ok limit) :
    ∃ cursor,
      region.cursor? memory = .ok cursor ∧
        region.IsStart limit cursor ∧
        list memory region =
          (do
            Traced.emit (clampEvents region limit)
            conclude memory (run memory region.phase cursor)) := by
  obtain ⟨window, shown, size⟩ :=
    Memory.view_of_regionEnd resolved (some (min region.stop limit))
  rw [Option.getD_some, Int.min_eq_left (Int.min_le_right _ _)] at size
  refine
    ⟨_, ?_, ⟨Cursor.within_atStart size region.isRender, rfl, rfl, rfl⟩,
      ?_⟩
  · simp only [ListRegion.cursor?, resolved, Outcome.ok_bind, shown]
  · rw [list, resolved]
    simp only [listWithin, shown, Traced.ofExcept_ok_bind]

/--
A walk over a captured list reports its clamped end and then what is found.
-/
theorem list_of_cursor?
    {region : ListRegion}
    {cursor : Cursor}
    (starts : region.cursor? memory = .ok cursor) :
    ∃ limit,
      memory.regionEnd region.start = .ok limit ∧
        region.IsStart limit cursor ∧
        (list memory region).events =
          clampEvents region limit ++
            (conclude memory (run memory region.phase cursor)).events ∧
        (list memory region).outcome =
          (conclude memory (run memory region.phase cursor)).outcome := by
  obtain ⟨limit, resolved, _⟩ := Outcome.exists_of_bind_eq_ok starts
  obtain ⟨other, otherStarts, isStart, listIs⟩ :=
    list_of_regionEnd resolved
  obtain rfl : cursor = other :=
    Except.ok.inj (starts.symm.trans otherStarts)
  rw [listIs, Traced.emit_bind]
  exact ⟨limit, resolved, isStart, rfl, rfl⟩

/-- A list whose start is in no buffer is not walked. -/
theorem list_of_not_covers
    {region : ListRegion}
    (uncovered : ¬memory.Covers region.start) :
    list memory region =
      ⟨memory.unresolved region.start (.unmapped region.start),
        .ok none⟩ := by
  rw [list, Memory.regionEnd_of_not_covers uncovered]

/-- At the start of a list, the bytes of the buffer it begins in are seen. -/
theorem ListRegion.IsStart.shows
    {region : ListRegion}
    {limit : Int}
    {cursor : Cursor}
    (isStart : region.IsStart limit cursor)
    (resolved : memory.regionEnd region.start = .ok limit)
    (starts : region.cursor? memory = .ok cursor) :
    cursor.Shows (memory.byteAt? region.start) := by
  intro index
  rw [isStart.addr_eq, isStart.stop_eq]
  rw [cursor?, resolved, Outcome.ok_bind] at starts
  obtain ⟨window, shown, cursorIs⟩ :=
    Outcome.exists_of_bind_eq_ok starts
  cases cursorIs
  rw [Cursor.rest_atStart, Memory.getElem?_view shown]

/-- Messages about the end of a list are no entries and request nothing. -/
theorem entries_clampEvents
    (region : ListRegion)
    (limit : Int) :
    Event.entries (clampEvents region limit) = [] ∧
      Event.requests (clampEvents region limit) = [] := by
  unfold clampEvents
  split <;> exact ⟨rfl, rfl⟩

/-- A walk over a list is safe. -/
theorem list_safe
    {region : ListRegion}
    (isFormat : IsFormat region.primMode) :
    (list memory region).Safe memory (region.MeetsExtended memory) := by
  by_cases covered : memory.Covers region.start
  · obtain ⟨limit, resolved, _⟩ := Memory.regionEnd_of_covers covered
    obtain ⟨cursor, cursorIs, isStart, listIs⟩ :=
      list_of_regionEnd resolved
    have meets :
        region.MeetsExtended memory ↔
          Walk.MeetsExtended memory region.phase cursor := by
      constructor
      · rintro ⟨other, otherIs, meets⟩
        obtain rfl : cursor = other :=
          Except.ok.inj (cursorIs.symm.trans otherIs)
        exact meets
      · exact fun meets => ⟨cursor, cursorIs, meets⟩
    have safe :=
      conclude_safe
        ((runs_run memory region.phase cursor).leads isStart.within
          (isStart.primMode_eq ▸ isFormat))
    rw [listIs, Traced.emit_bind, meets]
    refine ⟨?_, safe.succeeds, safe.refuses⟩
    intro event member
    rcases List.mem_append.mp member with clamped | walked
    · unfold clampEvents at clamped
      split at clamped
      · obtain rfl := List.mem_singleton.mp clamped
        exact .diagnostic _
      · exact absurd clamped List.not_mem_nil
    · exact safe.regular event walked
  · have missing := Memory.regionEnd_of_not_covers covered
    rw [list, missing]
    refine ⟨Event.Regular.unresolved _ _, fun _ => ⟨none, rfl⟩, ?_⟩
    rintro ⟨cursor, cursorIs, _⟩
    rw [ListRegion.cursor?, missing] at cursorIs
    contradiction

/--
A list that ends with its buffer is walked as a whole, without a message about
its end.
-/
theorem list_eq_conclude
    (region : ListRegion)
    (resolved : memory.regionEnd region.start = .ok region.stop) :
    ∃ cursor,
      region.cursor? memory = .ok cursor ∧
        region.IsStart region.stop cursor ∧
        list memory region =
          conclude memory (run memory region.phase cursor) := by
  obtain ⟨cursor, cursorIs, isStart, listIs⟩ :=
    list_of_regionEnd resolved
  refine ⟨cursor, cursorIs, isStart, ?_⟩
  rw [listIs, clampEvents, if_neg (Int.lt_irrefl _), Traced.emit_bind]
  rfl

/-- The run that a conclusion is about comes first. -/
theorem prefix_conclude
    (memory : Memory)
    (progress : Progress) :
    progress.events <+: (conclude memory progress).events := by
  unfold conclude Traced.reportingUncaptured
  split
  · exact List.prefix_rfl
  · split
    · exact List.prefix_append _ _
    · exact List.prefix_rfl

/--
What stands at the start of compressed data is decoded, if its format is the
right one.
-/
theorem form_events
    {cursor : Cursor}
    (within : cursor.Within)
    (left : cursor.addr < cursor.stop) :
    ∃ found rest,
      (form memory cursor).events = .entry found :: rest ∧
        found.name ≠ Entry.unsupportedMode := by
  obtain ⟨code, peeked⟩ := within.exists_peek left
  simp only [form, peeked]
  generalize selected : IndexForm.ofCode code.toNat = kind
  by_cases fits : cursor.fits kind.size = true
  · obtain ⟨final, record, _, readsAs, _⟩ :=
      exists_formRecord within peeked selected fits
    have named : kind.name ≠ Entry.unsupportedMode := by
      cases kind <;> decide
    simp only [fits, if_true, knownForm, readsAs]
    cases kind with
    | branch =>
        unfold followBranch
        dsimp only
        split <;> exact ⟨_, _, rfl, named⟩
    | escape | absolute | absoluteRelative | threeRelative
    | oneRelative =>
        exact ⟨_, _, rfl, named⟩
  · simp only [fits]
    have named : Entry.overflow ≠ Entry.unsupportedMode := by decide
    exact ⟨_, _, rfl, named⟩

/-- The events of a run begin with those of its first item. -/
theorem prefix_run
    (memory : Memory)
    (phase : Phase)
    (cursor : Cursor) :
    (item memory phase cursor).events <+:
      (run memory phase cursor).events := by
  have runs := runs_run memory phase cursor
  generalize run memory phase cursor = progress at runs
  cases runs with
  | last ends =>
      exact List.prefix_rfl
  | goesOn follows isWanted later =>
      exact List.prefix_append _ _

end Walk

/-- The phase that the walk over a list area begins with. -/
def Area.phase? (area : Area) : Option Phase :=
  match area.type with
  | .subList => some .packets
  | .compressedList => some .forms
  | _ => none

/--
Whether a walk over an area meets a reference to an extended shader record.
-/
def Area.MeetsExtended
    (area : Area)
    (memory : Memory) : Prop :=
  match area.type with
  | .subList => (Walk.listRegion area .packets).MeetsExtended memory
  | .compressedList => (Walk.listRegion area .forms).MeetsExtended memory
  | _ => False

/-- Extended references are met by the walks over lists only. -/
theorem Area.meetsExtended_iff
    {area : Area}
    {memory : Memory} :
    area.MeetsExtended memory ↔
      ∃ phase,
        area.phase? = some phase ∧
          (Walk.listRegion area phase).MeetsExtended memory := by
  unfold MeetsExtended phase?
  cases area.type <;> simp

/-- A walk over a canonical area is safe. -/
theorem Walk.area_safe
    {memory : Memory}
    {area : Area}
    (canonical : Area.Canonical memory area)
    (text : Shader.Disassembler) :
    (Walk.area memory text area).Safe memory
      (area.MeetsExtended memory) := by
  cases canonical with
  | subList resolved lower upper =>
      exact list_safe ⟨lower, upper⟩
  | compressedList resolved aligned lower upper =>
      exact list_safe isFormat_trianglesPrimMode
  | shaderRecord resolved aligned lower upper =>
      refine Traced.Careful.reportingUncaptured ?_ _ _
      exact .bind (Shader.walkRecord_careful rfl (by dsimp only; omega))
        fun _ _ => .ofPure _
  | @program type paddr code isCode shown =>
      cases type with
      | coordinateShader | vertexShader | fragmentShader =>
          refine Traced.Careful.reportingUncaptured ?_ _ _
          exact .bind (Shader.walkProgram_careful text _)
            fun _ _ => .ofPure _
      | shaderRecord | subList | compressedList =>
          contradiction

end VideoCore
