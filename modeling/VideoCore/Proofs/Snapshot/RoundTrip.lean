import VideoCore.Proofs.Snapshot.Writing

namespace VideoCore

/-!
# Reading what has been written

A container that is written from a state and some buffers is read as this state
and these buffers, each at its position (`Snapshot.decode_write`).  The count of
the buffers is a four-byte word, which is the only reason why writing can fail
when the state and every buffer fit (`Snapshot.write_countless`).
-/

/-! ## What can be written -/

/--
Whether fields are values for the registers of a state, as far as they are
given.  The count of the buffers may be anything, since it is replaced.
-/
structure Fields.IsState (given : Fields) : Prop where
  distinct : (given.map Prod.fst).Nodup
  free : given.get? Snapshot.occupiedName = none
  pointer :
    ∀ value, given.get? "bo" = some value → value.IsBelow (2 ^ 64)
  words :
    ∀ name ∈ stateWords,
      ∀ value, given.get? name = some value → value.IsBelow (2 ^ 32)
  padding :
    ∀ value,
      given.get? "pad" = some value →
      ∃ words,
        value = .list words ∧
          words.length = 16 ∧
          ∀ word ∈ words, word.IsBelow (2 ^ 32)

/-- Whether the numbers of a buffer fit the table. -/
structure Buffer.IsStorable (buffer : Buffer) : Prop where
  handle : 0 ≤ buffer.handle ∧ buffer.handle < 2 ^ 32
  paddr : 0 ≤ buffer.paddr ∧ buffer.paddr < 2 ^ 32
  size : buffer.size < 2 ^ 32

namespace Fields

/-- The words of the padding, zero if none are given. -/
def paddingWords (given : Fields) : List Int :=
  match given.get? "pad" with
  | some (.list words) => words.map fun word => word.integer?.getD 0
  | _ => List.replicate 16 0

/--
The state with the values that are given, the others zero, for a number of
buffers.
-/
def completed
    (given : Fields)
    (count : Nat) : Fields :=
  [("bo", .integer (given.integer "bo")), ("bo_count", .decimal count)] ++
    stateWords.map (fun name => (name, .integer (given.integer name))) ++
    [("pad", .list (given.paddingWords.map .integer))]

end Fields

/-! ## The state -/

/-- As long as nothing is given, all fields are zero. -/
theorem get?_initialState
    {name : String}
    (named : name ∈ hangState.layout.names) :
    initialState.get? name =
      some (if name = "pad" then statePadding else .integer 0) := by
  rw [initialState]
  generalize hangState.layout = layout at named
  induction layout with
  | nil =>
      contradiction
  | cons part rest inductionHypothesis =>
      rw [Layout.names_cons, List.mem_append] at named
      cases own : part.name? with
      | none =>
          rw [own] at named
          rw [List.filterMap_cons, own]
          exact inductionHypothesis (named.resolve_left List.not_mem_nil)
      | some ownName =>
          rw [own] at named
          rw [List.filterMap_cons, own]
          dsimp only [Option.map_some]
          rw [Fields.get?_cons]
          by_cases same : ownName = name
          · rw [if_pos same, same]
          · rw [if_neg same]
            refine inductionHypothesis (named.resolve_left ?_)
            intro isOwn
            exact same (Option.mem_some_iff.mp (Option.mem_toList.mp isOwn))

namespace Snapshot

/-- The fields that the head of a container is written from. -/
def headFields
    (given : Fields)
    (count : Nat) : Fields :=
  (initialState.update given).set "bo_count" (.integer count)

variable {given : Fields} {count : Nat}

/-- In the header stands what is given, or else zero. -/
theorem get?_headFields
    (isState : given.IsState)
    {name : String}
    (named : name ∈ hangState.layout.names)
    (other : name ≠ "bo_count") :
    (headFields given count).get? name =
      some ((given.get? name).getD
        (if name = "pad" then statePadding else .integer 0)) := by
  rw [headFields, Fields.get?_set, if_neg (Ne.symm other),
    Fields.get?_update isState.distinct, get?_initialState named]
  cases given.get? name <;> rfl

theorem get?_headFields_count :
    (headFields given count).get? "bo_count" = some (.integer count) := by
  rw [headFields, Fields.get?_set, if_pos rfl]

/--
The registers apart from the count and the padding are words under names of
their own.
-/
theorem stateWords_named :
    ∀ name ∈ "bo" :: stateWords,
      name ∈ hangState.layout.names ∧
        name ≠ "bo_count" ∧ name ≠ "pad" := by
  decide

/-- The words of the header are given, or else zero. -/
theorem get?_headFields_word
    (isState : given.IsState)
    {name : String}
    (isWord : name ∈ "bo" :: stateWords) :
    (headFields given count).get? name =
      some ((given.get? name).getD (.integer 0)) := by
  obtain ⟨named, notCount, notPadding⟩ := stateWords_named name isWord
  rw [get?_headFields isState named notCount, if_neg notPadding]

theorem get?_headFields_padding
    (isState : given.IsState) :
    (headFields given count).get? "pad" =
      some ((given.get? "pad").getD statePadding) := by
  rw [get?_headFields isState (by decide) (by decide), if_pos rfl]

/-! ## The header -/

theorem fields_hangState :
    hangState.layout.filterMap Part.field? =
      [("bo", .word 8), ("bo_count", .count 4)] ++
        stateWords.map (fun name => (name, .word 4)) ++
        [("pad", .array 16 (.word 4))] :=
  rfl

/-- The parts of the header, the words among them in one row. -/
theorem parts_hangState :
    hangState.layout =
      [.field "bo" (.word 8) (some (.integer 0)),
          .field "bo_count" (.count 4) none] ++
        stateWords.map (fun name => .field name (.word 4) none) ++
        [.field "pad" (.array 16 (.word 4)) (some statePadding)] :=
  rfl

/-- A word can be written if what is given for it is in range. -/
theorem exists_write_given
    (size : Nat)
    {bound : Int}
    (boundIs : bound = 256 ^ size)
    {value? : Option Value}
    (inRange : ∀ value, value? = some value → value.IsBelow bound) :
    value?.getD (.integer 0) ≠ .absent ∧
      ∃ own,
        (Encoding.word size).write (value?.getD (.integer 0)) =
          .ok own := by
  refine Encoding.exists_write_word boundIs ?_
  cases value? with
  | none =>
      have positive : 0 < bound := boundIs ▸ Int.pow_pos (by decide)
      exact ⟨0, rfl, Int.le_refl 0, positive⟩
  | some value =>
      exact inRange value rfl

/-- The padding consists of sixteen words, whether it is given or not. -/
theorem exists_padding
    (isState : given.IsState) :
    ∃ words,
      (given.get? "pad").getD statePadding = .list words ∧
        words.length = 16 ∧
        (∀ word ∈ words, word.IsBelow (2 ^ 32)) ∧
        words.map (fun word => word.integer?.getD 0) =
          given.paddingWords := by
  cases isGiven : given.get? "pad" with
  | none =>
      refine ⟨List.replicate 16 (.integer 0), rfl, rfl, ?_, ?_⟩
      · intro word member
        obtain rfl := List.eq_of_mem_replicate member
        exact ⟨0, rfl, by decide⟩
      · rw [Fields.paddingWords, isGiven]
        rfl
  | some value =>
      obtain ⟨words, rfl, length, small⟩ :=
        isState.padding value isGiven
      refine ⟨words, rfl, length, small, ?_⟩
      rw [Fields.paddingWords, isGiven]

/-- A number of buffers that fits its four bytes is written to them. -/
theorem write_count_of_lt
    (small : count < 2 ^ 32) :
    (Encoding.count 4).write (.integer count) =
      .ok (Bytes.ofWord 4 count) := by
  have fits : (count : Int) < 256 ^ 4 := by omega
  rw [Encoding.write_count, writeWord,
    if_pos ⟨Int.natCast_nonneg count, fits⟩, Int.toNat_natCast]

/-- Every state can be stored, together with a count that fits. -/
theorem exists_stores_headFields
    (isState : given.IsState)
    (small : count < 2 ^ 32) :
    ∃ header,
      Layout.Stores (headFields given count) hangState.layout header := by
  apply Layout.exists_stores
  rw [parts_hangState]
  simp only [List.forall_mem_append, List.forall_mem_cons,
    List.forall_mem_map, List.not_mem_nil, false_implies, implies_true,
    and_true]
  refine ⟨⟨⟨?pointer, ?count⟩, ?words⟩, ?padding⟩
  case pointer =>
    obtain ⟨present, own, writes⟩ :=
      exists_write_given 8 (by decide) isState.pointer
    exact ⟨_, _, _, _, own, rfl,
      get?_headFields_word isState List.mem_cons_self, present, writes⟩
  case count =>
    exact ⟨_, _, _, _, _, rfl, get?_headFields_count,
      Value.integer_ne_absent _, write_count_of_lt small⟩
  case words =>
    intro name isWord
    obtain ⟨present, own, writes⟩ :=
      exists_write_given 4 (by decide) (isState.words name isWord)
    exact ⟨_, _, _, _, own, rfl,
      get?_headFields_word isState (List.mem_cons_of_mem _ isWord),
      present, writes⟩
  case padding =>
    obtain ⟨words, paddingIs, length, small, _⟩ :=
      exists_padding isState
    have each :
        ∀ word ∈ words, ∃ own, (Encoding.word 4).write word = .ok own :=
      fun word member =>
        (Encoding.exists_write_word (by decide) (small word member)).2
    obtain ⟨own, writes⟩ := Encoding.exists_writeMany each
    refine
      ⟨_, _, _, _, own, rfl, get?_headFields_padding isState, ?_, ?_⟩
    · rw [paddingIs]
      intro same
      contradiction
    · rw [paddingIs, Encoding.write, Value.items?]
      dsimp only
      rw [if_pos length, writes]

/-- The state that is stored is the state that was given, completed. -/
theorem settle_headFields
    (isState : given.IsState) :
    ((hangState.layout.filterMap Part.field?).map fun (name, encoding) =>
        (name, encoding.settle ((headFields given count).get name))) =
      given.completed count := by
  have word
      {name : String}
      (isWord : name ∈ "bo" :: stateWords)
      (size : Nat) :
      (Encoding.word size).settle ((headFields given count).get name) =
        .integer (given.integer name) := by
    rw [Fields.get, get?_headFields_word isState isWord, Fields.integer]
    cases given.get? name <;> rfl
  obtain ⟨words, paddingIs, _, _, sameWords⟩ := exists_padding isState
  have padding :
      (Encoding.array 16 (.word 4)).settle
          ((headFields given count).get "pad") =
        .list (given.paddingWords.map .integer) := by
    rw [Fields.get, get?_headFields_padding isState, Option.getD_some,
      paddingIs, ← sameWords, List.map_map]
    rfl
  have counted :
      (Encoding.count 4).settle ((headFields given count).get "bo_count") =
        .decimal count := by
    rw [Fields.get, get?_headFields_count]
    rfl
  have others :
      (stateWords.map (fun name => (name, Encoding.word 4))).map
          (fun (name, encoding) =>
            (name,
              encoding.settle ((headFields given count).get name))) =
        stateWords.map
          (fun name => (name, .integer (given.integer name))) := by
    rw [List.map_map]
    refine List.map_congr_left fun name isWord => ?_
    exact Prod.ext rfl (word (List.mem_cons_of_mem _ isWord) 4)
  rw [fields_hangState, List.map_append, List.map_append, others]
  simp only [List.map_cons, List.map_nil, padding, counted,
    word List.mem_cons_self]
  rfl

/-! ## The table -/

/-- The record that announces a buffer. -/
def recordOf (buffer : Buffer) : Bytes :=
  Bytes.ofWord 4 buffer.handle.toNat ++
    (Bytes.ofWord 4 buffer.paddr.toNat ++
      (Bytes.ofWord 4 buffer.size ++ [0, 0, 0, 0]))

theorem length_recordOf
    (buffer : Buffer) :
    (recordOf buffer).length = bufferRecord.fixedSize := by
  simp only [recordOf, List.length_append, Bytes.length_ofWord]
  rfl

/-- The writer leaves the padding of an entry empty. -/
theorem cleared_recordOf
    (buffer : Buffer) :
    cleared (recordOf buffer) = recordOf buffer := by
  have regrouped :
      recordOf buffer =
        (Bytes.ofWord 4 buffer.handle.toNat ++
          Bytes.ofWord 4 buffer.paddr.toNat ++
            Bytes.ofWord 4 buffer.size) ++ [0, 0, 0, 0] := by
    simp only [recordOf, List.append_assoc]
  rw [cleared, regrouped,
    List.take_left' (by simp only [List.length_append, Bytes.length_ofWord])]

/-- The entry of a storable buffer announces it. -/
theorem announces_recordOf
    {buffer : Buffer}
    (storable : buffer.IsStorable) :
    (BufferEntry.ofRecord (recordOf buffer)).Announces buffer := by
  rcases storable with
    ⟨⟨handleLower, handleUpper⟩, ⟨paddrLower, paddrUpper⟩, sizeUpper⟩
  have handle :=
    Bytes.toWord_take_ofWord
      (show buffer.handle.toNat < 256 ^ 4 by omega)
      (Bytes.ofWord 4 buffer.paddr.toNat ++
        (Bytes.ofWord 4 buffer.size ++ [0, 0, 0, 0]))
  have paddr :=
    Bytes.toWord_take_ofWord
      (show buffer.paddr.toNat < 256 ^ 4 by omega)
      (Bytes.ofWord 4 buffer.size ++ [0, 0, 0, 0])
  have size :=
    Bytes.toWord_take_ofWord
      (show buffer.size < 256 ^ 4 by omega) [0, 0, 0, 0]
  have behindHandle :
      (recordOf buffer).drop 4 =
        Bytes.ofWord 4 buffer.paddr.toNat ++
          (Bytes.ofWord 4 buffer.size ++ [0, 0, 0, 0]) :=
    List.drop_left' (Bytes.length_ofWord ..)
  have behindPaddr :
      (recordOf buffer).drop 8 =
        Bytes.ofWord 4 buffer.size ++ [0, 0, 0, 0] := by
    rw [show (8 : Nat) = 4 + 4 from rfl, ← List.drop_drop, behindHandle,
      List.drop_left' (Bytes.length_ofWord ..)]
  rw [BufferEntry.ofRecord_eq, behindHandle, behindPaddr, paddr, size,
    recordOf, handle]
  exact ⟨(Int.toNat_of_nonneg handleLower).symm,
    (Int.toNat_of_nonneg paddrLower).symm, rfl⟩

theorem announces_map_recordOf
    {buffers : Memory}
    (storable : ∀ buffer ∈ buffers, buffer.IsStorable) :
    List.Forall₂ BufferEntry.Announces
      ((buffers.map recordOf).map BufferEntry.ofRecord) buffers := by
  rw [List.map_map, List.forall₂_map_left_iff, List.forall₂_same]
  exact fun buffer member => announces_recordOf (storable buffer member)

/-! ## Buffers with their positions -/

/-- Numbering buffers again from the same index changes nothing. -/
theorem numberedFrom_numberedFrom
    (buffers : Memory)
    (index : Nat) :
    (buffers.numberedFrom index).numberedFrom index =
      buffers.numberedFrom index := by
  simp only [Memory.numberedFrom, List.mapIdx_mapIdx]
  rfl

/-- The index of a buffer is not announced. -/
theorem announces_numberedFrom
    {entries : List BufferEntry}
    {buffers : Memory}
    (announced : List.Forall₂ BufferEntry.Announces entries buffers)
    (index : Nat) :
    List.Forall₂ BufferEntry.Announces entries
      (buffers.numberedFrom index) := by
  induction announced generalizing index with
  | nil =>
      exact .nil
  | cons own _ inductionHypothesis =>
      rw [Memory.numberedFrom_cons]
      exact .cons ⟨own.handle_eq, own.paddr_eq, own.size_eq⟩
        (inductionHypothesis (index + 1))

/-- The index of a buffer is not written. -/
theorem writeContents_numberedFrom
    (buffers : Memory)
    (index : Nat) :
    writeContents (buffers.numberedFrom index) = writeContents buffers := by
  induction buffers generalizing index with
  | nil =>
      rfl
  | cons buffer rest inductionHypothesis =>
      rw [Memory.numberedFrom_cons, writeContents_cons,
        writeContents_cons, inductionHypothesis]
      rfl

/-! ## Containers that are written -/

/-- What has been written is read again, with the positions of the buffers. -/
theorem decode_encode
    (isState : given.IsState)
    {buffers : Memory}
    (storable : ∀ buffer ∈ buffers, buffer.IsStorable)
    (small : buffers.length < 2 ^ 32) :
    ∃ input,
      encode given buffers = .ok input ∧
        decode input =
          .ok
            ⟨snapshotVersion, given.completed buffers.length,
              buffers.numberedFrom 0, 0⟩ := by
  obtain ⟨header, stores⟩ := exists_stores_headFields isState small
  have whole : header.length = hangState.fixedSize :=
    Layout.length_of_write stores.write_eq
      RecordType.isRegular_hangState.sized
  have holds :
      hangState.layout.values header =
        given.completed buffers.length := by
    have read := stores.values_eq []
    rwa [List.append_nil, settle_headFields isState] at read
  have recordsWhole : AreWhole (buffers.map recordOf) :=
    List.forall_mem_map.mpr fun buffer _ => length_recordOf buffer
  have announced := announces_map_recordOf storable
  have counted :
      ((hangState.layout.values header).integer "bo_count").toNat =
        (buffers.map recordOf).length := by
    rw [holds, List.length_map]
    rfl
  let container : Container :=
    ⟨header, buffers.map recordOf, buffers.numberedFrom 0, whole,
      recordsWhole, counted, announces_numberedFrom announced 0,
      numberedFrom_numberedFrom buffers 0⟩
  have unchanged :
      (buffers.map recordOf).map cleared = buffers.map recordOf := by
    rw [List.map_map]
    exact List.map_congr_left fun buffer _ => cleared_recordOf buffer
  have written :
      encode given buffers = .ok container.bytes := by
    rw [encode_eq isState.free stores recordsWhole announced, unchanged]
    simp only [Container.bytes, Container.body, container,
      writeContents_numberedFrom, List.append_assoc]
  refine ⟨container.bytes, written, ?_⟩
  have read := container.decode_eq []
  rw [List.append_nil] at read
  rw [read, Container.snapshot, Container.state, holds]
  rfl

/-- The number of buffers is the only one that need not fit. -/
theorem encode_of_many
    (isState : given.IsState)
    {buffers : Memory}
    (many : 2 ^ 32 ≤ buffers.length) :
    encode given buffers = .error .misfit := by
  -- The address in front of the count is written, the count itself is not.
  obtain ⟨present, own, pointer⟩ :=
    exists_write_given 8 (by decide) isState.pointer
  have pointerGiven :
      (headFields given buffers.length).get? "bo" =
        some ((given.get? "bo").getD (.integer 0)) :=
    get?_headFields_word isState List.mem_cons_self
  have unchanged :
      (Part.field "bo" (.word 8) (some (.integer 0))).record
          (headFields given buffers.length)
          (some ((given.get? "bo").getD (.integer 0))) =
        headFields given buffers.length :=
    Fields.set_of_get? pointerGiven
  have counted :
      (Encoding.count 4).write (.integer buffers.length) =
        .error .misfit := by
    have large : ¬(buffers.length : Int) < 256 ^ 4 := by omega
    rw [Encoding.write_count, writeWord,
      if_neg (fun inRange => large inRange.2)]
    rfl
  have refused :
      hangState.layout.write (headFields given buffers.length) =
        .error .misfit := by
    rw [parts_hangState, List.append_assoc, List.cons_append, Layout.write,
      Part.write_of_given pointerGiven present, pointer,
      Outcome.ok_bind, Outcome.ok_bind]
    dsimp only
    rw [unchanged, List.cons_append, Layout.write,
      Part.write_of_given get?_headFields_count
        (Value.integer_ne_absent _),
      counted]
    rfl
  rw [headFields] at refused
  simp only [encode, isState.free, Option.isSome_none,
    Bool.false_eq_true, if_false, refused]
  rfl

/--
A container that is written from a state, in either form, and from fewer buffers
than a word of four bytes can count, is read as the values that were given and
zero for all others, with the same buffers in the same order and nothing behind
them.  Every buffer then has its position as its index, whatever its index was.
-/
theorem decode_write
    {source : StateSource}
    (isState : source.fields.IsState)
    {buffers : Memory}
    (storable : ∀ buffer ∈ buffers, buffer.IsStorable)
    (few : buffers.length < 2 ^ 32) :
    ∃ input,
      write source buffers = .ok input ∧
        decode input =
          .ok
            { version := 0
              state := source.fields.completed buffers.length
              buffers :=
                buffers.mapIdx fun position buffer =>
                  { buffer with index := some position }
              trailing := 0 } := by
  obtain ⟨input, written, read⟩ := decode_encode isState storable few
  simp only [Memory.numberedFrom, Nat.zero_add] at read
  exact ⟨input, written, read⟩

/-- As many empty buffers as a word of four bytes cannot count. -/
def countless : Memory :=
  List.replicate (2 ^ 32) ⟨0, 0, #[], none⟩

/--
Buffers that fit the table one by one cannot be written if there are too many of
them, since their count does not fit the header.
-/
theorem write_countless :
    (StateSource.values []).fields.IsState ∧
      (∀ buffer ∈ countless, buffer.IsStorable) ∧
      write (.values []) countless = .error .misfit := by
  have isState : Fields.IsState [] :=
    { distinct := .nil
      free := rfl
      pointer := fun _ isGiven => nomatch isGiven
      words := fun _ _ _ isGiven => nomatch isGiven
      padding := fun _ isGiven => nomatch isGiven }
  have many : 2 ^ 32 ≤ countless.length :=
    Nat.le_of_eq List.length_replicate.symm
  refine ⟨isState, ?_, encode_of_many isState many⟩
  intro buffer member
  obtain rfl := List.eq_of_mem_replicate member
  exact ⟨by decide, by decide, by decide⟩

/-- A state with one register, and a count that is replaced. -/
def partialState : Fields :=
  [("bo_count", .integer (-1)), ("ct0ca", .integer 0x1000)]

theorem isState_partialState : partialState.IsState where
  distinct := by decide
  free := rfl
  pointer := by
    intro value isGiven
    cases isGiven
  words := by
    intro name isWord value isGiven
    rw [partialState, Fields.get?_cons, Fields.get?_cons] at isGiven
    split at isGiven
    · next isCount =>
        exact absurd (isCount ▸ isWord) (by decide)
    · split at isGiven
      · cases isGiven
        exact ⟨0x1000, rfl, by decide⟩
      · cases isGiven
  padding := by
    intro value isGiven
    cases isGiven

/-- Two buffers, the second of which is empty and comes from elsewhere. -/
def unequalBuffers : Memory :=
  [⟨7, 0x1000, #[0xaa, 0xbb], none⟩, ⟨8, 0x2000, #[], some 5⟩]

theorem isStorable_unequalBuffers :
    ∀ buffer ∈ unequalBuffers, buffer.IsStorable := by
  rw [unequalBuffers, List.forall_mem_cons, List.forall_mem_singleton]
  exact ⟨⟨by decide, by decide, by decide⟩,
    ⟨by decide, by decide, by decide⟩⟩

/-- A record of the same state, with a value under a hidden name. -/
def partialRecord : StateSource :=
  .record (("_io", .absent) :: partialState)

theorem fields_partialRecord : partialRecord.fields = partialState := by
  have hidden : isKept "_io" = false := by decide +kernel
  have kept : isKept "bo_count" = true ∧ isKept "ct0ca" = true := by
    decide +kernel
  rw [partialRecord, StateSource.fields, partialState]
  simp [hidden, kept]

/-- The same two buffers as they are read from a container. -/
def numberedBuffers : Memory :=
  [⟨7, 0x1000, #[0xaa, 0xbb], some 0⟩, ⟨8, 0x2000, #[], some 1⟩]

/--
One register, and two buffers that do not come with their positions as indices.
-/
theorem decode_write_partial :
    (∃ input,
        write (.values partialState) unequalBuffers = .ok input ∧
          decode input =
            .ok ⟨0, partialState.completed 2, numberedBuffers, 0⟩) ∧
      (∃ input,
        write partialRecord unequalBuffers = .ok input ∧
          decode input =
            .ok
              ⟨0, partialRecord.fields.completed 2, numberedBuffers,
                0⟩) ∧
      (partialState.completed 2).get "bo_count" = .decimal 2 ∧
      (partialState.completed 2).get "ct0ca" = .integer 0x1000 ∧
      (partialState.completed 2).get "errstat" = .integer 0 := by
  have values : (StateSource.values partialState).fields.IsState :=
    isState_partialState
  have record : partialRecord.fields.IsState :=
    fields_partialRecord.symm ▸ isState_partialState
  exact ⟨decode_write values isStorable_unequalBuffers (by decide),
    decode_write record isStorable_unequalBuffers (by decide),
    rfl, rfl, rfl⟩

end Snapshot

end VideoCore
