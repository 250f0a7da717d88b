import Mathlib.Data.List.Forall2
import VideoCore.Proofs.Record.Storage
import VideoCore.Snapshot.Container

namespace VideoCore

/-!
# What a container consists of

An accepted byte string is a container and bytes after it, and the container
alone determines what is read (`Snapshot.decode_cases`, `Container.decode_eq`).
Every reader of a part of it takes the bytes of this part off the front,
whatever follows, and refuses all of their proper beginnings
(`Snapshot.Delimits`).
-/

/-! ## Records that keep all their fields -/

namespace RecordType

theorem isRegular_hangState : hangState.IsRegular where
  plain := by decide
  distinct := by decide
  kept := by decide +kernel
  sized := by decide

theorem isRegular_bufferRecord : bufferRecord.IsRegular where
  plain := by decide
  distinct := by decide
  kept := by decide +kernel
  sized := by decide

end RecordType

def BufferEntry.ofFields (fields : Fields) : BufferEntry where
  handle := (fields.integer "handle").toNat
  paddr := (fields.integer "paddr").toNat
  size := (fields.integer "size").toNat

/-- What a record of the table says about its buffer. -/
def BufferEntry.ofRecord (record : Bytes) : BufferEntry :=
  ofFields (bufferRecord.layout.values record)

/-- Whether an entry of the table announces a buffer. -/
structure BufferEntry.Announces
    (entry : BufferEntry)
    (buffer : Buffer) :
    Prop where
  handle_eq : buffer.handle = entry.handle
  paddr_eq : buffer.paddr = entry.paddr
  size_eq : buffer.size = entry.size

/--
Buffers in the order of a container, the first of which has the given index.
-/
def Memory.numberedFrom
    (index : Nat)
    (memory : Memory) : Memory :=
  memory.mapIdx fun position buffer =>
    { buffer with index := some (index + position) }

theorem Memory.numberedFrom_cons
    (index : Nat)
    (buffer : Buffer)
    (rest : Memory) :
    numberedFrom index (buffer :: rest) =
      { buffer with index := some index } ::
        numberedFrom (index + 1) rest := by
  simp only [numberedFrom, List.mapIdx_cons, Nat.add_zero, Nat.add_assoc,
    Nat.add_comm 1]

namespace Snapshot

/-! ## Readers that know where their part ends -/

/-- Whether the bytes were refused because something is missing. -/
def IsMalformed
    {α : Type}
    (outcome : Except Fault α) : Prop :=
  ∃ defect, outcome = .error (.malformedSnapshot defect)

/-- A reader of a part of a container. -/
abbrev Reader (α : Type) := Bytes → Except Fault (α × Bytes)

/--
Whether a reader reads some bytes as a value, whatever follows, and refuses any
less.
-/
structure Delimits
    {α : Type}
    (reader : Reader α)
    (taken : Bytes)
    (value : α) :
    Prop where
  accepts : ∀ later, reader (taken ++ later) = .ok (value, later)
  refuses :
    ∀ count < taken.length, IsMalformed (reader (taken.take count))

theorem isMalformed_bind
    {α β : Type}
    {first : Except Fault α}
    (malformed : IsMalformed first)
    (next : α → Except Fault β) :
    IsMalformed (first >>= next) := by
  rcases malformed with ⟨defect, rfl⟩
  exact ⟨defect, rfl⟩

namespace Delimits

variable {α β : Type} {reader : Reader α} {taken : Bytes} {value : α}

protected theorem pure
    (value : α) :
    Delimits (fun input => .ok (value, input)) [] value where
  accepts := fun _ => rfl
  refuses := fun _ less => absurd less (Nat.not_lt_zero _)

/-- Parts that are delimited one by one are delimited together. -/
theorem bind
    (first : Delimits reader taken value)
    (next : α → Reader β)
    {others : Bytes}
    {result : β}
    (second : Delimits (next value) others result) :
    Delimits
      (fun input => reader input >>= fun (value, rest) => next value rest)
      (taken ++ others) result where
  accepts := by
    intro later
    rw [List.append_assoc, first.accepts, Outcome.ok_bind]
    exact second.accepts later
  refuses := by
    intro count less
    rw [List.length_append] at less
    -- Either the first part is cut short already or the second one is.
    by_cases inFirst : count < taken.length
    · rw [List.take_append_of_le_length (by omega)]
      exact isMalformed_bind (first.refuses count inFirst) _
    · rw [List.take_append, List.take_of_length_le (by omega),
        first.accepts, Outcome.ok_bind]
      exact second.refuses (count - taken.length) (by omega)

/-- What is made of a value does not matter for its bytes. -/
theorem map
    (delimits : Delimits reader taken value)
    (change : α → β) :
    Delimits
      (fun input =>
        reader input >>= fun (value, rest) => .ok (change value, rest))
      taken (change value) := by
  have made :=
    delimits.bind (fun value input => .ok (change value, input))
      (.pure (change value))
  rwa [List.append_nil] at made

end Delimits

/-! ## Records -/

section Records

variable {type : RecordType} {input : Bytes}

/-- A record is read from as many bytes as it has. -/
theorem delimits_readRecord
    (regular : type.IsRegular)
    (record : ContainerRecord)
    (offset : Nat)
    {taken : Bytes}
    (whole : taken.length = type.fixedSize) :
    Delimits (readRecord type record offset) taken
      (type.layout.values taken) where
  accepts := by
    intro later
    have stored : (taken ++ later).take type.fixedSize = taken :=
      List.take_left' whole
    have others : (taken ++ later).drop type.fixedSize = later :=
      List.drop_left' whole
    rw [readRecord, stored, others, if_neg (by omega),
      regular.read_eq (by omega), Outcome.ok_bind]
  refuses := by
    intro count less
    rw [readRecord, if_pos (by simp only [List.length_take]; omega)]
    exact ⟨_, rfl⟩

/-- A record is malformed unless its bytes are there. -/
theorem readRecord_cases
    (type : RecordType)
    (record : ContainerRecord)
    (offset : Nat)
    (input : Bytes) :
    IsMalformed (readRecord type record offset input) ∨
      ∃ taken later,
        input = taken ++ later ∧ taken.length = type.fixedSize := by
  by_cases fits : type.fixedSize ≤ input.length
  · right
    exact ⟨input.take type.fixedSize, input.drop type.fixedSize,
      (List.take_append_drop ..).symm, List.length_take_of_le fits⟩
  · left
    rw [readRecord, if_pos (by simp only [List.length_take]; omega)]
    exact ⟨_, rfl⟩

end Records

/-! ## The table of buffers -/

/-- Whether every record has the size of an entry of the table. -/
def AreWhole (records : List Bytes) : Prop :=
  ∀ record ∈ records, record.length = bufferRecord.fixedSize

/-- The buffer table is read entry by entry. -/
theorem delimits_readTable
    {records : List Bytes}
    (whole : AreWhole records)
    (index offset : Nat) :
    Delimits (readTable records.length index offset) records.flatten
      (records.map BufferEntry.ofRecord) := by
  induction records generalizing index offset with
  | nil =>
      exact .pure []
  | cons record rest inductionHypothesis =>
      obtain ⟨ownWhole, restWhole⟩ := List.forall_mem_cons.mp whole
      have first :=
        delimits_readRecord RecordType.isRegular_bufferRecord
          (.buffer index) offset ownWhole
      have later :=
        inductionHypothesis restWhole (index + 1)
          (offset + bufferRecord.fixedSize)
      exact first.bind
        (fun fields input =>
          readTable rest.length (index + 1)
              (offset + bufferRecord.fixedSize) input >>=
            fun read =>
              .ok (BufferEntry.ofFields fields :: read.1, read.2))
        (later.map (BufferEntry.ofRecord record :: ·))

/-- The buffer table is malformed unless all its entries are there. -/
theorem readTable_cases
    (count index offset : Nat)
    (input : Bytes) :
    IsMalformed (readTable count index offset input) ∨
      ∃ records later,
        input = records.flatten ++ later ∧
          records.length = count ∧
          AreWhole records := by
  induction count generalizing index offset input with
  | zero =>
      refine Or.inr ⟨[], input, rfl, rfl, fun record member => ?_⟩
      exact absurd member List.not_mem_nil
  | succ count inductionHypothesis =>
      rcases readRecord_cases bufferRecord (.buffer index) offset input with
        malformed | ⟨record, others, rfl, whole⟩
      · exact Or.inl (isMalformed_bind malformed _)
      · rcases inductionHypothesis (index + 1)
            (offset + bufferRecord.fixedSize) others with
          malformed | ⟨records, later, rfl, length, restWhole⟩
        · left
          rw [readTable,
            (delimits_readRecord RecordType.isRegular_bufferRecord
              (.buffer index) offset whole).accepts,
            Outcome.ok_bind]
          exact isMalformed_bind malformed _
        · right
          refine
            ⟨record :: records, later, ?_, ?_,
              List.forall_mem_cons.mpr ⟨whole, restWhole⟩⟩
          · rw [List.flatten_cons, List.append_assoc]
          · rw [List.length_cons, length]

/-! ## Contents -/

/-- The contents of a buffer are read in front of those of the others. -/
theorem readContents_cons
    (index : Nat)
    (entry : BufferEntry)
    (entries : List BufferEntry)
    (input : Bytes) :
    readContents index (entry :: entries) input =
      if entry.size ≤ input.length then
        readContents (index + 1) entries (input.drop entry.size) >>=
          fun (buffers, rest) =>
            .ok
              (⟨entry.handle, entry.paddr,
                (input.take entry.size).toArray, some index⟩ :: buffers,
                rest)
      else
        .error (.malformedSnapshot
          (.truncatedContents index entry.handle entry.size
            input.length)) := by
  have gathered :
      input.gather entry.size #[] =
        ((input.take entry.size).toArray, input.drop entry.size) := by
    simp [Bytes.gather_eq]
  rw [readContents, gathered]
  dsimp only
  rw [List.size_toArray, List.length_take]
  by_cases fits : entry.size ≤ input.length
  · rw [if_neg (by omega), if_pos fits]
  · rw [if_pos (by omega), if_neg fits,
      Nat.min_eq_right (by omega)]

theorem writeContents_cons
    (buffer : Buffer)
    (buffers : Memory) :
    writeContents (buffer :: buffers) =
      buffer.bytes ++ writeContents buffers := by
  simp [writeContents, Buffer.bytes]

/-- The contents of the announced buffers are read one after the other. -/
theorem delimits_readContents
    {entries : List BufferEntry}
    {buffers : Memory}
    (announced : List.Forall₂ BufferEntry.Announces entries buffers)
    {index : Nat}
    (numbered : buffers.numberedFrom index = buffers) :
    Delimits (readContents index entries) (writeContents buffers)
      buffers := by
  induction announced generalizing index with
  | nil =>
      exact .pure []
  | @cons entry buffer entries buffers own _ inductionHypothesis =>
      rw [Memory.numberedFrom_cons, List.cons.injEq] at numbered
      have later := inductionHypothesis numbered.2
      have length : buffer.bytes.length = entry.size := own.size_eq
      rw [writeContents_cons]
      constructor
      · intro rest
        have same :
            (⟨entry.handle, entry.paddr, buffer.bytes.toArray,
                some index⟩ : Buffer) =
              buffer := by
          rw [← own.handle_eq, ← own.paddr_eq]
          exact numbered.1
        rw [readContents_cons, List.append_assoc,
          if_pos (by rw [List.length_append]; omega),
          List.take_left' length, List.drop_left' length,
          later.accepts, Outcome.ok_bind]
        dsimp only
        rw [same]
      · intro count less
        rw [List.length_append] at less
        rw [readContents_cons]
        by_cases inOwn : count < entry.size
        · rw [if_neg (by simp only [List.length_take]; omega)]
          exact ⟨_, rfl⟩
        · rw [List.take_append, List.take_of_length_le (by omega),
            if_pos (by rw [List.length_append]; omega),
            List.drop_left' length]
          exact isMalformed_bind
            (later.refuses (count - buffer.bytes.length) (by omega)) _

/-- The contents are malformed unless all announced bytes are there. -/
theorem readContents_cases
    (entries : List BufferEntry)
    (index : Nat)
    (input : Bytes) :
    IsMalformed (readContents index entries input) ∨
      ∃ buffers later,
        input = writeContents buffers ++ later ∧
          List.Forall₂ BufferEntry.Announces entries buffers ∧
          buffers.numberedFrom index = buffers := by
  induction entries generalizing index input with
  | nil =>
      exact Or.inr ⟨[], input, rfl, .nil, rfl⟩
  | cons entry entries inductionHypothesis =>
      rw [readContents_cons]
      by_cases fits : entry.size ≤ input.length
      · rw [if_pos fits]
        rcases inductionHypothesis (index + 1)
            (input.drop entry.size) with
          malformed | ⟨buffers, later, split, announced, numbered⟩
        · exact Or.inl (isMalformed_bind malformed _)
        · right
          refine
            ⟨⟨entry.handle, entry.paddr, (input.take entry.size).toArray,
                some index⟩ :: buffers, later, ?_,
              .cons ⟨rfl, rfl, ?_⟩ announced, ?_⟩
          · rw [writeContents_cons, List.append_assoc, ← split]
            exact (List.take_append_drop entry.size input).symm
          · exact List.length_take_of_le fits
          · rw [Memory.numberedFrom_cons, numbered]
      · rw [if_neg fits]
        exact Or.inl ⟨_, rfl⟩

end Snapshot

/-! ## Containers -/

/-- The parts of a container, which fit together. -/
structure Container where
  header : Bytes
  /-- The records of the table, each of them as it is stored. -/
  records : List Bytes
  buffers : Memory
  header_whole : header.length = hangState.fixedSize
  records_whole : Snapshot.AreWhole records
  counted :
    ((hangState.layout.values header).integer "bo_count").toNat =
      records.length
  announced :
    List.Forall₂ BufferEntry.Announces
      (records.map BufferEntry.ofRecord) buffers
  /-- Every buffer has its position as its index. -/
  numbered : buffers.numberedFrom 0 = buffers

namespace Container

variable (container : Container)

/-- The state that the header holds. -/
def state : Fields :=
  hangState.layout.values container.header

/-- Everything after the version. -/
def body : Bytes :=
  container.header ++
    (container.records.flatten ++
      Snapshot.writeContents container.buffers)

def bytes : Bytes :=
  Bytes.ofWord 4 snapshotVersion ++ container.body

end Container

namespace Snapshot

/-- Read everything after the version. -/
def readBody : Reader (Fields × Memory) := fun input => do
  let (state, rest) ← readRecord hangState .header 4 input
  let (entries, rest) ←
    readTable (state.integer "bo_count").toNat 0
      (4 + hangState.fixedSize) rest
  let (buffers, rest) ← readContents 0 entries rest
  .ok ((state, buffers), rest)

/-- All behind the version is read as the container says. -/
theorem delimits_readBody
    (container : Container) :
    Delimits readBody container.body
      (container.state, container.buffers) := by
  have table :=
    delimits_readTable container.records_whole 0
      (4 + hangState.fixedSize)
  have contents :=
    delimits_readContents container.announced container.numbered
  rw [← container.counted] at table
  have behindTable :=
    table.bind
      (fun entries input =>
        readContents 0 entries input >>= fun (buffers, rest) =>
          .ok ((container.state, buffers), rest))
      (contents.map (container.state, ·))
  exact (delimits_readRecord RecordType.isRegular_hangState .header 4
    container.header_whole).bind
    (fun state input =>
      readTable (state.integer "bo_count").toNat 0
          (4 + hangState.fixedSize) input >>=
        fun (entries, rest) =>
          readContents 0 entries rest >>= fun (buffers, rest) =>
            .ok ((state, buffers), rest))
    behindTable

/--
What follows the version is malformed, or a container with bytes behind it.
-/
theorem readBody_cases
    (input : Bytes) :
    IsMalformed (readBody input) ∨
      ∃ (container : Container) (later : Bytes),
        input = container.body ++ later := by
  rcases readRecord_cases hangState .header 4 input with
    malformed | ⟨header, rest, rfl, headerWhole⟩
  · exact Or.inl (isMalformed_bind malformed _)
  have head :=
    delimits_readRecord RecordType.isRegular_hangState .header 4
      headerWhole
  rcases readTable_cases
      ((hangState.layout.values header).integer "bo_count").toNat 0
      (4 + hangState.fixedSize) rest with
    malformed | ⟨records, rest, rfl, length, recordsWhole⟩
  · left
    rw [readBody, head.accepts, Outcome.ok_bind]
    exact isMalformed_bind malformed _
  have table :=
    delimits_readTable recordsWhole 0 (4 + hangState.fixedSize)
  rw [length] at table
  rcases readContents_cases (records.map BufferEntry.ofRecord) 0 rest with
    malformed | ⟨buffers, later, rfl, announced, numbered⟩
  · left
    rw [readBody, head.accepts, Outcome.ok_bind]
    dsimp only
    rw [table.accepts, Outcome.ok_bind]
    exact isMalformed_bind malformed _
  · right
    refine
      ⟨⟨header, records, buffers, headerWhole, recordsWhole, length.symm,
        announced, numbered⟩, later, ?_⟩
    simp only [Container.body, List.append_assoc]

/-- A container is read as its version says and then as its body says. -/
theorem decode_eq_readBody
    {input : Bytes}
    (isVersion : input.take 4 = Bytes.ofWord 4 snapshotVersion) :
    decode input =
      readBody (input.drop 4) >>= fun ((state, buffers), rest) =>
        .ok ⟨snapshotVersion, state, buffers, rest.length⟩ := by
  have length : (Bytes.ofWord 4 snapshotVersion).length = 4 := rfl
  have word : Bytes.toWord (Bytes.ofWord 4 snapshotVersion) =
    snapshotVersion := by decide
  rw [decode, isVersion, if_neg (by omega)]
  dsimp only
  rw [word, if_neg (fun different => different rfl), readBody]
  cases readRecord hangState .header 4 (input.drop 4) with
  | error fault =>
      rfl
  | ok head =>
      rcases head with ⟨state, rest⟩
      simp only [Outcome.ok_bind]
      cases readTable (state.integer "bo_count").toNat 0
          (4 + hangState.fixedSize) rest with
      | error fault =>
          rfl
      | ok table =>
          rcases table with ⟨entries, rest⟩
          simp only [Outcome.ok_bind]
          cases readContents 0 entries rest <;> rfl

end Snapshot

end VideoCore
