import VideoCore.Proofs.Area.Index
import VideoCore.Proofs.Memory.Reading
import VideoCore.Proofs.Shader.Extent
import VideoCore.Walk.Area

namespace VideoCore.Shader

/-!
# Areas of programs

The extent of a program is found in all that is captured from its address on,
and its instructions are listed from exactly the bytes of its area.  Both see
the same bytes, wherever the program starts and wherever it is cut off, so that
the area of a program can always be walked (`programAt_isWalkable`).
-/

/--
The entries of the instructions that some bytes hold, the first byte at an
address.
-/
def instructionListing
    (text : Disassembler)
    (type : AreaType)
    (paddr : Int)
    (bytes : Bytes) :
    List Event :=
  (List.range (bytes.length / 8)).map fun index : Nat =>
    .entry
      ⟨some (paddr + 8 * index), type.name,
        .text (text (storedWord bytes index) (paddr + 8 * index)),
        .instruction⟩

/--
Whether an area holds a program: whole instructions, an end among the last three
only.
-/
structure HoldsProgram
    (memory : Memory)
    (area : Area)
    (bytes : Bytes) : Prop where
  captured : memory.Captures area.paddr area.paddr area.stop bytes
  size_eq : area.size = bytes.length
  whole : 8 ∣ bytes.length
  endsLate : ∀ index, EndsAt bytes index → bytes.length / 8 ≤ index + 3

variable {memory : Memory} {area : Area} {bytes : Bytes} {paddr : Int}

/-! ## Instructions by index -/

/-- Behind an instruction, all indices are one less. -/
theorem storedWord_drop
    (bytes : Bytes)
    (index : Nat) :
    storedWord (bytes.drop 8) index = storedWord bytes (index + 1) := by
  have place : 8 + 8 * index = 8 * (index + 1) := by omega
  rw [storedWord, storedWord, List.drop_drop, place]

/-- The instructions are the words, as many as there are. -/
theorem instructions_eq
    (bytes : Bytes) :
    instructions bytes =
      (List.range (bytes.length / 8)).map (storedWord bytes) := by
  generalize countIs : bytes.length / 8 = count
  induction count generalizing bytes with
  | zero =>
      by_cases isEmpty : bytes = []
      · rw [instructions, Bytes.chunks, if_pos (.inr isEmpty)]
        rfl
      · have isShort : ¬(bytes.take 8).length = 8 := by
          rw [List.length_take]
          omega
        have noMore : bytes.drop 8 = [] := List.drop_eq_nil_of_le (by omega)
        rw [instructions, instructionSize, Bytes.chunks,
          if_neg (by simp [isEmpty]), noMore, Bytes.chunks,
          if_pos (.inr rfl), List.filterMap_cons, if_neg isShort]
        rfl
  | succ count inductionHypothesis =>
      have isFull : (bytes.take 8).length = 8 := by
        rw [List.length_take]
        omega
      have nonempty : bytes ≠ [] := by
        rintro rfl
        contradiction
      have others :=
        inductionHypothesis (bytes.drop 8)
          (by rw [List.length_drop]; omega)
      rw [instructions, instructionSize] at others ⊢
      rw [Bytes.chunks, if_neg (by simp [nonempty]), List.filterMap_cons,
        if_pos isFull, others, List.range_succ_eq_map, List.map_cons,
        List.map_map]
      refine List.cons_eq_cons.mpr ⟨rfl, ?_⟩
      exact List.map_congr_left fun index _ => storedWord_drop bytes index

/-- Instructions are reported in order, eight bytes apart. -/
theorem instructionEvents_map_range
    (text : Disassembler)
    (type : AreaType)
    (paddr : Int)
    (word : Nat → Nat)
    (count : Nat) :
    instructionEvents text type paddr ((List.range count).map word) =
      (List.range count).map fun index =>
        .entry
          ⟨some (paddr + 8 * index), type.name,
            .text (text (word index) (paddr + 8 * index)),
            .instruction⟩ := by
  induction count generalizing paddr word with
  | zero =>
      rfl
  | succ count inductionHypothesis =>
      have later :
          ∀ index : Nat,
            paddr + instructionSize + 8 * index =
              paddr + 8 * (index + 1 : Nat) := by
        intro index
        rw [instructionSize]
        omega
      rw [List.range_succ_eq_map, List.map_cons, List.map_map,
        instructionEvents, inductionHypothesis, List.map_cons, List.map_map]
      congr 1
      · simp
      · refine List.map_congr_left fun index _ => ?_
        rw [later]
        rfl

/-- What an area holds is listed word by word. -/
theorem walkProgram_of_read
    (isRead : memory.read area.paddr area.size = .ok bytes)
    (text : Disassembler) :
    walkProgram memory text area =
      ⟨instructionListing text area.type area.paddr bytes, .ok ()⟩ := by
  rw [walkProgram, isRead, Traced.ofExcept_ok_bind, instructions_eq,
    instructionEvents_map_range, Traced.emit, instructionListing]

/-- An area of code is walked as a program. -/
theorem area_of_isCode
    (isCode : area.type.isCode = true)
    {text : Disassembler}
    {events : List Event}
    (walks : walkProgram memory text area = ⟨events, .ok ()⟩) :
    Walk.area memory text area = ⟨events, .ok none⟩ := by
  have walksOn :
      (do
        walkProgram memory text area
        return none : Traced (Option Cursor)) =
        ⟨events, .ok none⟩ := by
    rw [walks, Traced.bind_of_ok rfl, Traced.events_pure, List.append_nil]
    rfl
  rw [Walk.area]
  cases typeIs : area.type with
  | shaderRecord | subList | compressedList =>
      rw [typeIs] at isCode
      contradiction
  | coordinateShader | vertexShader | fragmentShader =>
      dsimp only
      rw [walksOn]
      exact Traced.reportingUncaptured_of_ok rfl

/-! ## Areas of programs -/

/-- The bytes that a program extends to. -/
def extentBytes (code : Window) : Bytes :=
  code.toBytes.take (extent code).size

theorem length_extentBytes
    (code : Window) :
    (extentBytes code).length = (extent code).size := by
  rw [extentBytes, List.length_take, Window.length_toBytes]
  exact Nat.min_eq_left (extent_size code).2

/-- Behind an end in a program there are no more than two instructions. -/
theorem le_of_endsAt_extentBytes
    {code : Window}
    {index : Nat}
    (ends : EndsAt (extentBytes code) index) :
    (extentBytes code).length / 8 ≤ index + 3 := by
  obtain ⟨_, endsToo⟩ :=
    (endsAt_of_prefixed (List.take_prefix _ code.toBytes)).mp ends
  rcases exists_isFirstEnd_or_endless code.toBytes with
    ⟨first, isFirst⟩ | endless
  · have notBefore : first ≤ index := isFirst.2 endsToo
    rw [length_extentBytes, extent_of_isFirstEnd isFirst]
    dsimp only
    omega
  · exact absurd endsToo (endless index)

/-- An end that is found belongs to the program. -/
theorem exists_endsAt_extentBytes
    {code : Window}
    (found : (extent code).found = true) :
    ∃ index, EndsAt (extentBytes code) index := by
  rcases exists_isFirstEnd_or_endless code.toBytes with
    ⟨first, isFirst⟩ | endless
  · have inside := isFirst.1.1
    rw [Window.length_toBytes] at inside
    refine
      ⟨first,
        (endsAt_of_prefixed (List.take_prefix _ code.toBytes)).mpr
          ⟨?_, isFirst.1⟩⟩
    rw [← extentBytes, length_extentBytes, extent_of_isFirstEnd isFirst]
    dsimp only
    omega
  · rw [extent_of_endless endless] at found
    contradiction

/-- The bytes that a program extends to are there to be read. -/
theorem read_extentBytes
    {code : Window}
    (shown : memory.view paddr none = .ok code) :
    memory.read paddr (extent code).size = .ok (extentBytes code) := by
  obtain ⟨limit, resolved, below⟩ :=
    Memory.regionEnd_of_covers (Memory.covers_of_view shown)
  obtain ⟨window, shownToo, captures⟩ := Memory.exists_view resolved none
  obtain rfl : code = window := Except.ok.inj (shown.symm.trans shownToo)
  rw [Option.getD_none, Int.min_self] at captures
  have length := captures.length_eq
  rw [Window.length_toBytes] at length
  have fits : paddr + (extent code).size ≤ limit := by
    have := (extent_size code).2
    omega
  exact (Memory.read_eq_ok_iff resolved).mpr
    ⟨by omega, fits, captures.take fits⟩

/-- What is found at a captured address is a program, all of it captured. -/
theorem holdsProgram_extentBytes
    {code : Window}
    (shown : memory.view area.paddr none = .ok code)
    (sizeIs : area.size = (extent code).size) :
    HoldsProgram memory area (extentBytes code) := by
  obtain ⟨limit, resolved, _⟩ :=
    Memory.regionEnd_of_covers (Memory.covers_of_view shown)
  obtain ⟨_, _, captures⟩ :=
    (Memory.read_eq_ok_iff resolved).mp (read_extentBytes shown)
  refine ⟨?_, ?_, ?_, fun _ => le_of_endsAt_extentBytes⟩
  · rw [Area.stop, sizeIs]
    exact captures
  · rw [length_extentBytes, sizeIs]
  · rw [length_extentBytes]
    exact (extent_size code).1

/--
The program at a captured address, whatever the address is and whatever is
stored there, becomes an area that can be walked: its bytes are captured and are
whole instructions, which are listed in order, each at its address.  Only the
last three of them can signal an end.  One of them does, unless a missing end is
reported; in this case there is no end in all that is captured from the address
on.  Whatever else is asked for before, in between or afterwards, the same
request is answered with the same area.
-/
theorem programAt_isWalkable
    (memory : Memory)
    (text : Disassembler)
    {type : AreaType}
    (isCode : type.isCode = true)
    {paddr : Int}
    (covered : memory.Covers paddr) :
    ∃ (area : Area) (bytes : Bytes) (reported : List Event),
      programAt memory type paddr =
          ⟨reported ++ [.request area], .ok area⟩ ∧
        area.type = type ∧
        area.paddr = paddr ∧
        HoldsProgram memory area bytes ∧
        walkProgram memory text area =
          ⟨instructionListing text type paddr bytes, .ok ()⟩ ∧
        Walk.area memory text area =
          ⟨instructionListing text type paddr bytes, .ok none⟩ ∧
        (reported = [] ∧ (∃ index, EndsAt bytes index) ∨
          reported = [missingEndEvent type paddr] ∧
            ∀ code,
              memory.view paddr none = .ok code →
              ∀ index, ¬EndsAt code.toBytes index) ∧
        ∀ before : List AreaRequest,
          let request := AreaRequest.program (.named type) paddr
          let state := RequestState.empty.answerAll memory before
          let first := state.answer memory request
          ∃ position,
            first.1 = .ok position ∧
              first.2.registry.areas[position]? = some area ∧
              ∀ later,
                let next := first.2.answerAll memory later
                (next.answer memory request).1 = .ok position ∧
                  (next.answer memory request).2.registry =
                    next.registry := by
  obtain ⟨limit, resolved, _⟩ := Memory.regionEnd_of_covers covered
  obtain ⟨code, shown, _⟩ := Memory.exists_view resolved none
  let area : Area :=
    ⟨type, paddr, (extent code).size, unsetPrimMode, 0, false⟩
  have walks :
      walkProgram memory text area =
        ⟨instructionListing text type paddr (extentBytes code),
          .ok ()⟩ :=
    @walkProgram_of_read memory area _ (read_extentBytes shown) text
  refine
    ⟨area, extentBytes code, extentEvents type paddr code,
      programAt_eq type shown, rfl, rfl,
      @holdsProgram_extentBytes memory area code shown rfl, walks,
      @area_of_isCode memory area isCode text _ walks, ?_, ?_⟩
  · rw [extentEvents]
    cases found : (extent code).found with
    | true =>
        exact .inl ⟨rfl, exists_endsAt_extentBytes found⟩
    | false =>
        refine .inr ⟨rfl, fun other shownToo index ends => ?_⟩
        obtain rfl := Except.ok.inj (shown.symm.trans shownToo)
        rw [(found_extent_iff code).mpr ⟨index, ends⟩] at found
        contradiction
  · intro before
    obtain ⟨kept, _⟩ :=
      RequestState.answerAll_spec (RequestState.isKept_empty memory) before
    refine RequestState.answer_again kept ?_
    rw [AreaRequest.carryOut, programAt_eq type shown]

/--
Three bytes, and behind them a program that is cut off in its delay slots.
-/
def unalignedBuffer : Buffer :=
  ⟨1, 0x1000,
    #[7, 7, 7, 1, 0, 0, 0, 0, 0, 0, 0x10, 2, 0, 0, 0, 0, 0, 0, 0x30,
      9, 9, 9], some 0⟩

/--
The area takes two instructions, the second of which is the end, and can be
walked.
-/
theorem programAt_isWalkable_unaligned :
    Memory.Covers [unalignedBuffer] 0x1003 ∧
      AreaType.vertexShader.isCode = true ∧
      ∃ area,
        programAt [unalignedBuffer] .vertexShader 0x1003 =
            ⟨[.request area], .ok area⟩ ∧
          area.size = 16 ∧
          (walkProgram [unalignedBuffer] disassemble area).outcome =
            .ok () := by
  have covered : Memory.Covers [unalignedBuffer] 0x1003 :=
    ⟨unalignedBuffer, List.mem_singleton_self _, by decide⟩
  have isCode : AreaType.vertexShader.isCode = true := rfl
  have shown :
      Memory.view [unalignedBuffer] 0x1003 none =
        .ok ((unalignedBuffer.window.drop 3).take 19) :=
    rfl
  have stored :
      ((unalignedBuffer.window.drop 3).take 19).toBytes =
        [1, 0, 0, 0, 0, 0, 0, 0x10, 2, 0, 0, 0, 0, 0, 0, 0x30, 9, 9, 9] := by
    decide
  have isFirst :
      IsFirstEnd
        [1, 0, 0, 0, 0, 0, 0, 0x10, 2, 0, 0, 0, 0, 0, 0, 0x30, 9, 9, 9]
        1 := by
    refine ⟨by decide +kernel, fun index ends => ?_⟩
    by_contra early
    obtain rfl : index = 0 := by omega
    exact absurd ends (by decide +kernel)
  have extentIs := extent_of_isFirstEnd (stored ▸ isFirst)
  have isArea := programAt_eq .vertexShader shown
  rw [extentEvents, extentIs] at isArea
  obtain ⟨area, _, _, found, _, _, _, walks, _⟩ :=
    programAt_isWalkable [unalignedBuffer] disassemble isCode covered
  have areaIs :=
    Except.ok.inj (congrArg Traced.outcome (isArea.symm.trans found))
  refine ⟨covered, isCode, area, ?_, by rw [← areaIs]; rfl, by rw [walks]⟩
  rw [isArea, areaIs]
  rfl

end VideoCore.Shader
