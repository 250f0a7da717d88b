import VideoCore.Proofs.SignExtension
import VideoCore.Register.Printer

namespace VideoCore

/-!
# Registers that can always be read

A register class is total if all its fields can be read from every integer: the
bits are there, an enumeration has a member for every pattern of its bits, and
a number in two's complement has a sign bit.  Every value makes a register of
such a class, and every such register has a text.
-/

/--
The largest width of a field for which there is room without further thought.
-/
def ordinaryWidth : Nat :=
  64

/-- There is room for the bits of an ordinary field. -/
theorem requireRoom_of_le
    {width : Nat}
    (ordinary : width ≤ ordinaryWidth) :
    requireRoom 1 width = .ok () := by
  rw [requireRoom_eq_ok_iff]
  simp only [mostBits, ordinaryWidth] at *
  omega

/-- The bits of a span are a number below the weight of the bit behind them. -/
theorem BitSpan.read_bounds
    (span : BitSpan)
    (value : Int) :
    0 ≤ span.read value ∧ span.read value < 2 ^ span.width := by
  rw [read_eq_emod]
  have positive : (0 : Int) < 2 ^ span.width :=
    Int.pow_pos (by decide)
  exact ⟨Int.emod_nonneg _ (Int.ne_of_gt positive),
    Int.emod_lt_of_pos _ positive⟩

/-- Whether a number that has been read takes at most eight bytes. -/
def FieldReading.IsShort (reading : FieldReading) : Prop :=
  ∀ value, reading = .number value → value.natAbs < 2 ^ 64

namespace FieldKind

/-- Whether all numbers of `width` bits can be understood. -/
def isTotal (width : Nat) : FieldKind → Bool
  | .unsigned => true
  | .signed bits => 0 < bits && bits ≤ ordinaryWidth
  | .enumeration type => 2 ^ width ≤ type.members.length

/-- Bits of a total kind can be understood. -/
theorem interpret_of_isTotal
    {kind : FieldKind}
    {width : Nat}
    (total : kind.isTotal width = true)
    (ordinary : width ≤ ordinaryWidth)
    {raw : Int}
    (lower : 0 ≤ raw)
    (upper : raw < 2 ^ width) :
    ∃ reading, kind.interpret raw = .ok reading ∧ reading.IsShort := by
  cases kind with
  | unsigned =>
      refine ⟨.number raw, rfl, ?_⟩
      rintro _ ⟨rfl⟩
      have power : ((2 ^ width : Nat) : Int) = 2 ^ width := by simp
      have room : 2 ^ width ≤ 2 ^ 64 :=
        Nat.pow_le_pow_right (by decide) ordinary
      omega
  | signed bits =>
      simp only [isTotal, Bool.and_eq_true, decide_eq_true_eq] at total
      have room : requireRoom 1 bits.toNat = .ok () :=
        requireRoom_of_le (by omega)
      refine ⟨.number (signExtend bits.toNat raw),
        by rw [interpret, signExtend?_of_room total.1 room]; rfl, ?_⟩
      rintro _ ⟨rfl⟩
      have ordinaryWeight : 2 ^ bits.toNat ≤ 2 ^ 64 :=
        Nat.pow_le_pow_right (by decide)
          (by simp only [ordinaryWidth] at total; omega)
      exact
        Nat.lt_of_lt_of_le (natAbs_signExtend_lt (by omega) raw) ordinaryWeight
  | enumeration type =>
      simp only [isTotal, decide_eq_true_eq] at total
      have below : raw.toNat < 2 ^ width := by
        have power : ((2 ^ width : Nat) : Int) = 2 ^ width := by simp
        omega
      have inside : raw.toNat < type.members.length := by omega
      exact ⟨.member type raw.toNat type.members[raw.toNat],
        by simp [interpret, inside],
        fun value isNumber => by contradiction⟩

end FieldKind

namespace FieldShape

/-- Whether the field can be read from every integer. -/
def isTotal (shape : FieldShape) : Bool :=
  0 ≤ shape.low && 0 ≤ shape.width &&
    shape.width ≤ ordinaryWidth &&
    shape.kind.isTotal shape.width.toNat

/-- A total field can be read, as a member or as a short number. -/
theorem read_of_isTotal
    {shape : FieldShape}
    (total : shape.isTotal = true)
    (value : Int) :
    ∃ reading, shape.read value = .ok reading ∧ reading.IsShort := by
  simp only [isTotal, Bool.and_eq_true, decide_eq_true_eq] at total
  obtain ⟨⟨⟨low, width⟩, ordinary⟩, kind⟩ := total
  let span : BitSpan := ⟨shape.low.toNat, shape.width.toNat⟩
  have room : requireRoom 1 shape.width.toNat = .ok () :=
    requireRoom_of_le (by omega)
  have spanShape : shape.readSpan? = .ok span := by
    simp [readSpan?, span?, low, width, room, span]
  obtain ⟨reading, understood, isShort⟩ :=
    FieldKind.interpret_of_isTotal kind
      (show span.width ≤ ordinaryWidth by simp only [span]; omega)
      (span.read_bounds value).1 (span.read_bounds value).2
  exact ⟨reading, by simp [read, spanShape, understood], isShort⟩

end FieldShape

namespace RegisterClass

/-- Whether every field can be read from every integer. -/
def isTotal (type : RegisterClass) : Bool :=
  type.fieldNames.all fun name =>
    (type.shape? name).toOption.any FieldShape.isTotal

/-- Whether all fields satisfy a condition. -/
def allFields
    (type : RegisterClass)
    (condition : FieldShape → Bool) : Bool :=
  type.fieldNames.all fun name =>
    (type.shape? name).toOption.any condition

/-- What holds of all fields of a class holds of the shape of each. -/
theorem shape?_of_allFields
    {type : RegisterClass}
    {condition : FieldShape → Bool}
    (all : type.allFields condition = true)
    {name : String}
    (member : name ∈ type.fieldNames) :
    ∃ shape, type.shape? name = .ok shape ∧ condition shape = true := by
  have checked := List.all_eq_true.mp all name member
  cases found : type.shape? name with
  | error fault =>
      simp [found, Except.toOption] at checked
  | ok shape =>
      exact ⟨shape, rfl,
        by simpa [found, Except.toOption] using checked⟩

theorem shape?_of_isTotal
    {type : RegisterClass}
    (total : type.isTotal = true)
    {name : String}
    (member : name ∈ type.fieldNames) :
    ∃ shape, type.shape? name = .ok shape ∧ shape.isTotal = true :=
  shape?_of_allFields total member

end RegisterClass

namespace Register

/-- Every integer makes a register of a total class. -/
theorem ofValue_of_isTotal
    {type : RegisterClass}
    (total : type.isTotal = true)
    (value : Int) :
    ofValue type value = .ok ⟨type, value⟩ := by
  have valid : (⟨type, value⟩ : Register).validate = .ok () := by
    apply Outcome.forM_eq_ok
    intro name member
    obtain ⟨shape, found, shapeTotal⟩ :=
      RegisterClass.shape?_of_isTotal total member
    obtain ⟨reading, readingIs, _⟩ :=
      FieldShape.read_of_isTotal shapeTotal value
    simp [read, found, readingIs]
  simp [ofValue, valid]

/-- A register of a total class has a text for all its fields, in both forms. -/
theorem exists_fieldsText
    {type : RegisterClass}
    (total : type.isTotal = true)
    (form : Form)
    (value : Int) :
    ∃ text, fieldsText form ⟨type, value⟩ = .ok text := by
  have each :
      ∀ name ∈ type.fieldNames,
        ∃ text,
          fieldText form ⟨type, value⟩ name = .ok text ∧ True := by
    intro name member
    obtain ⟨shape, found, shapeTotal⟩ :=
      RegisterClass.shape?_of_isTotal total member
    obtain ⟨reading, readingIs, _⟩ :=
      FieldShape.read_of_isTotal shapeTotal value
    rw [fieldText, found, Outcome.ok_bind, readingIs]
    exact ⟨_, rfl, trivial⟩
  obtain ⟨texts, textsAre, _⟩ := Outcome.exists_mapM_eq_ok each
  rw [fieldsText, textsAre]
  exact ⟨_, rfl⟩

/-- Registers of a total class can be described, whatever they hold. -/
theorem exists_describe
    {type : RegisterClass}
    (total : type.isTotal = true)
    (value : Int) :
    ∃ text, describe ⟨type, value⟩ = .ok text := by
  obtain ⟨fields, fieldsAre⟩ := exists_fieldsText total .described value
  rw [describe, fieldsAre]
  exact ⟨_, rfl⟩

end Register

end VideoCore
