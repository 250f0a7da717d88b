import VideoCore.Proofs.Snapshot.Container

namespace VideoCore

/-!
# Which byte strings are snapshots

A byte string is accepted exactly if it begins with a container.  How much
follows the container is all that depends on the bytes behind it, and a
container that is cut short anywhere is refused
(`Snapshot.decode_isAllOrNothing`).
-/

namespace Snapshot

variable {input : Bytes}

/-- Whether a byte string is marked with a version, and not with zero. -/
def IsForeign (input : Bytes) : Prop :=
  4 ≤ input.length ∧ input.take 4 ≠ [0, 0, 0, 0]

theorem decode_of_short
    (short : input.length < 4) :
    IsMalformed (decode input) := by
  rw [decode, if_pos (by simp only [List.length_take]; omega)]
  exact ⟨_, rfl⟩

/-- An input of another version is refused for it. -/
theorem decode_of_foreign
    (foreign : IsForeign input) :
    decode input =
      .error (.wrongVersion (Bytes.toWord (input.take 4))) := by
  rcases foreign with ⟨fits, notZero⟩
  have different : Bytes.toWord (input.take 4) ≠ snapshotVersion := by
    intro isZero
    have stored := Bytes.ofWord_toWord (input.take 4)
    rw [List.length_take_of_le fits, isZero] at stored
    exact notZero stored.symm
  rw [decode, if_neg (by simp only [List.length_take]; omega)]
  dsimp only
  rw [if_pos different]

/--
A byte string is of another version, or else it is malformed or a container and
what follows it.
-/
theorem decode_cases
    (input : Bytes) :
    (IsForeign input ∧
        ∃ version, decode input = .error (.wrongVersion version)) ∨
      (¬IsForeign input ∧
        (IsMalformed (decode input) ∨
          ∃ (container : Container) (later : Bytes),
            input = container.bytes ++ later)) := by
  by_cases foreign : IsForeign input
  · exact Or.inl ⟨foreign, _, decode_of_foreign foreign⟩
  refine Or.inr ⟨foreign, ?_⟩
  by_cases short : input.length < 4
  · exact Or.inl (decode_of_short short)
  have isVersion : input.take 4 = Bytes.ofWord 4 snapshotVersion := by
    by_contra notZero
    exact foreign ⟨by omega, notZero⟩
  rw [decode_eq_readBody isVersion]
  rcases readBody_cases (input.drop 4) with
    malformed | ⟨container, later, split⟩
  · exact Or.inl (isMalformed_bind malformed _)
  · right
    refine ⟨container, later, ?_⟩
    rw [Container.bytes, List.append_assoc, ← split, ← isVersion,
      List.take_append_drop]

end Snapshot

namespace Container

variable (container : Container)

/-- What is read from a container and the bytes after it. -/
def snapshot (trailing : Nat) : Snapshot where
  version := snapshotVersion
  state := container.state
  buffers := container.buffers
  trailing := trailing

theorem length_version :
    (Bytes.ofWord 4 snapshotVersion).length = 4 :=
  Bytes.length_ofWord 4 snapshotVersion

/-- A container is read whatever follows it. -/
theorem decode_eq
    (later : Bytes) :
    Snapshot.decode (container.bytes ++ later) =
      .ok (container.snapshot later.length) := by
  have begins :
      (container.bytes ++ later).take 4 =
        Bytes.ofWord 4 snapshotVersion := by
    rw [bytes, List.append_assoc, List.take_left' length_version]
  rw [Snapshot.decode_eq_readBody begins, bytes, List.append_assoc,
    List.drop_left' length_version,
    (Snapshot.delimits_readBody container).accepts]
  rfl

/-- A container that is cut short is malformed. -/
theorem isMalformed_of_take
    {count : Nat}
    (less : count < container.bytes.length) :
    Snapshot.IsMalformed
      (Snapshot.decode (container.bytes.take count)) := by
  have version := length_version
  rw [bytes, List.length_append] at less
  by_cases inVersion : count < 4
  · exact Snapshot.decode_of_short (by rw [List.length_take]; omega)
  · have shape :
        container.bytes.take count =
          Bytes.ofWord 4 snapshotVersion ++
            container.body.take (count - 4) := by
      rw [bytes, List.take_append, List.take_of_length_le (by omega),
        version]
    rw [shape,
      Snapshot.decode_eq_readBody (List.take_left' length_version),
      List.drop_left' length_version]
    exact Snapshot.isMalformed_bind
      ((Snapshot.delimits_readBody container).refuses (count - 4)
        (by omega)) _

end Container

namespace Snapshot

/-- An accepted byte string begins with the container that is read. -/
theorem exists_container_of_decode
    {input : Bytes}
    {snapshot : Snapshot}
    (accepted : decode input = .ok snapshot) :
    ∃ (container : Container) (later : Bytes),
      input = container.bytes ++ later ∧
        snapshot = container.snapshot later.length := by
  rcases decode_cases input with
    ⟨_, version, refused⟩ |
      ⟨_, ⟨defect, refused⟩ | ⟨container, later, rfl⟩⟩
  · rw [refused] at accepted
    contradiction
  · rw [refused] at accepted
    contradiction
  · rw [container.decode_eq] at accepted
    exact ⟨container, later, rfl, (Except.ok.inj accepted).symm⟩

/--
There are no partial snapshots.  A byte string is accepted, is of another
version or is malformed; it is of another version exactly if it begins with
four bytes that are not all zero.  If it is accepted, then it is malformed when
it is cut short anywhere before its trailing bytes, and bytes that are appended
to it only count as trailing bytes.
-/
theorem decode_isAllOrNothing
    (input : Bytes) :
    ((∃ snapshot, decode input = .ok snapshot) ∨
        (∃ version, decode input = .error (.wrongVersion version)) ∨
        ∃ defect, decode input = .error (.malformedSnapshot defect)) ∧
      ((∃ version, decode input = .error (.wrongVersion version)) ↔
        4 ≤ input.length ∧ input.take 4 ≠ [0, 0, 0, 0]) ∧
      ∀ snapshot,
        decode input = .ok snapshot →
        (∀ count,
          count + snapshot.trailing < input.length →
          ∃ defect,
            decode (input.take count) =
              .error (.malformedSnapshot defect)) ∧
        ∀ extra : Bytes,
          decode (input ++ extra) =
            .ok
              { snapshot with
                trailing := snapshot.trailing + extra.length } := by
  refine ⟨?_, ?_, ?_⟩
  · rcases decode_cases input with
      ⟨_, wrong⟩ | ⟨_, malformed | ⟨container, later, rfl⟩⟩
    · exact Or.inr (Or.inl wrong)
    · exact Or.inr (Or.inr malformed)
    · exact Or.inl ⟨_, container.decode_eq later⟩
  · constructor
    · rintro ⟨version, refused⟩
      rcases decode_cases input with
        ⟨foreign, _⟩ |
          ⟨_, ⟨defect, malformed⟩ | ⟨container, later, rfl⟩⟩
      · exact foreign
      · rw [malformed] at refused
        cases refused
      · rw [container.decode_eq] at refused
        cases refused
    · intro foreign
      exact ⟨_, decode_of_foreign foreign⟩
  · intro snapshot accepted
    obtain ⟨container, later, rfl, rfl⟩ :=
      exists_container_of_decode accepted
    constructor
    · intro count less
      rw [List.length_append] at less
      have inContainer : count < container.bytes.length := by
        simp only [Container.snapshot] at less
        omega
      rw [List.take_append_of_le_length (by omega)]
      exact container.isMalformed_of_take inContainer
    · intro extra
      rw [List.append_assoc, container.decode_eq, List.length_append]
      rfl

end Snapshot

end VideoCore
