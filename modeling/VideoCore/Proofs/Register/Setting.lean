import VideoCore.Proofs.SignExtension
import VideoCore.Register.Catalogue
import VideoCore.Register.Noted.Basic

namespace VideoCore

/-!
# Setting fields of registers

A field of a register is a name that counts as one and has bits (`HasField`).
Setting it replaces these bits of the whole value, whatever the value is, and
nothing else (`set_eq`).  It is refused only if the numbers that stand for the
bits have no room.  So the fields of a register obey the laws of spans:
`FieldLaws` for one field and `IsIndependent` for two without a common bit.
-/

/-! ## Room for bits -/

/-- The faults of numbers that there is no room for. -/
def Fault.IsWantOfRoom (fault : Fault) : Prop :=
  fault = .overflow ∨ fault = .exhausted

/-- Room is refused only for numbers of more than the most bits. -/
theorem requireRoom_cases
    (bits zeros : Nat) :
    requireRoom bits zeros = .ok () ∨
      ∃ fault,
        requireRoom bits zeros = .error fault ∧
          fault.IsWantOfRoom ∧ mostBits < bits + zeros := by
  unfold requireRoom
  split
  · exact .inl rfl
  · split
    · next tooMany =>
        refine .inr ⟨.overflow, rfl, .inl rfl, ?_⟩
        simp only [mostDigits, digitsOf, digitBits, mostBits] at *
        omega
    · split
      · next noMemory => exact .inr ⟨.exhausted, rfl, .inr rfl, noMemory⟩
      · exact .inl rfl

namespace FieldShape

variable {shape : FieldShape} {span : BitSpan}

theorem width_of_span?
    (spanIs : shape.span? = .ok span) :
    shape.width.toNat = span.width := by
  unfold span? at spanIs
  split at spanIs
  · cases spanIs; rfl
  · contradiction

/-- Bits can be written to, unless they have no room. -/
theorem writeSpan?_cases
    (spanIs : shape.span? = .ok span) :
    shape.writeSpan? = .ok span ∨
      ∃ fault,
        shape.writeSpan? = .error fault ∧
          fault.IsWantOfRoom ∧ mostBits ≤ span.low + span.width := by
  rw [writeSpan?, width_of_span? spanIs, spanIs]
  rcases requireRoom_cases 1 span.width with
    room | ⟨fault, refused, isWant, wide⟩
  · rcases requireRoom_cases span.width span.low with
      place | ⟨fault, refused, isWant, far⟩
    · exact .inl (by simp [room, place])
    · exact .inr ⟨fault, by simp [room, refused], isWant, by omega⟩
  · exact .inr ⟨fault, by simp [refused], isWant, by omega⟩

/-- Bits that can be written to are the bits of the field, and can be read. -/
theorem readSpan?_of_writeSpan?
    {found : BitSpan}
    (spanIs : shape.span? = .ok span)
    (writable : shape.writeSpan? = .ok found) :
    found = span ∧ shape.readSpan? = .ok span := by
  rw [writeSpan?, width_of_span? spanIs] at writable
  obtain ⟨_, room, later⟩ := Outcome.exists_of_bind_eq_ok writable
  rw [spanIs, Outcome.ok_bind] at later
  obtain ⟨_, _, same⟩ := Outcome.exists_of_bind_eq_ok later
  cases same
  exact ⟨rfl, by simp [readSpan?, spanIs, room]⟩

/-- Bits that can be read have room. -/
theorem requireRoom_of_readSpan?
    (readable : shape.readSpan? = .ok span) :
    requireRoom 1 span.width = .ok () := by
  obtain ⟨found, _, later⟩ := Outcome.exists_of_bind_eq_ok readable
  obtain ⟨_, room, same⟩ := Outcome.exists_of_bind_eq_ok later
  cases same
  exact room

/-- Fields that are read from the same bits are read alike. -/
theorem read_congr
    {first second : Int}
    (spanIs : shape.span? = .ok span)
    (same : span.read first = span.read second) :
    shape.read first = shape.read second := by
  rw [read, read, readSpan?, spanIs, Outcome.ok_bind]
  cases requireRoom 1 span.width with
  | error fault => rfl
  | ok => simp [same]

/-- Bits that cannot be read are no missing attribute. -/
theorem read_ne_noAttribute
    (shape : FieldShape)
    (value : Int) :
    shape.read value ≠ .error .noAttribute := by
  have roomFault (bits zeros : Nat) :
      requireRoom bits zeros ≠ .error .noAttribute := by
    rcases requireRoom_cases bits zeros with room | ⟨fault, refused, isWant, _⟩
    · simp [room]
    · rcases isWant with rfl | rfl <;> simp [refused]
  intro fails
  rcases Outcome.of_bind_eq_error fails with noSpan | ⟨span, _, notUnderstood⟩
  · rcases Outcome.of_bind_eq_error noSpan with crossed | ⟨span, _, noRoom⟩
    · unfold span? at crossed
      split at crossed <;> contradiction
    · rcases Outcome.of_bind_eq_error noRoom with noRoom | ⟨_, _, done⟩
      · exact roomFault _ _ noRoom
      · contradiction
  · cases isKind : shape.kind with
    | unsigned =>
        rw [isKind] at notUnderstood
        contradiction
    | signed bits =>
        rw [isKind] at notUnderstood
        have noSign := Outcome.eq_error_of_map notUnderstood
        unfold signExtend? at noSign
        split at noSign
        · rcases Outcome.of_bind_eq_error noSign with noRoom | ⟨_, _, done⟩
          · exact roomFault _ _ noRoom
          · contradiction
        · contradiction
    | enumeration type =>
        rw [isKind, FieldKind.interpret] at notUnderstood
        split at notUnderstood <;> contradiction

end FieldShape

namespace NotedRegister

/-! ## Fields -/

/-- A name that counts as a field of a register, with its bits. -/
structure HasField
    (noted : NotedRegister)
    (name : String)
    (shape : FieldShape)
    (span : BitSpan) : Prop where
  isVisible : isHidden name = false
  counts : noted.isField name = .ok true
  shape_eq : noted.shape? name = .ok shape
  span_eq : shape.span? = .ok span

/-- The register with another whole value. -/
def holding
    (noted : NotedRegister)
    (value : Int) : NotedRegister :=
  { noted with whole := .integer value }

variable {noted : NotedRegister} {name : String}
variable {shape : FieldShape} {span : BitSpan}

/-- The whole value does not tell what the fields are. -/
theorem HasField.of_holding
    (field : noted.HasField name shape span)
    (value : Int) :
    (noted.holding value).HasField name shape span :=
  ⟨field.isVisible, field.counts, field.shape_eq, field.span_eq⟩

/-- No field has the name that the whole value is kept under. -/
theorem HasField.name_ne
    (field : noted.HasField name shape span) :
    name ≠ ClassEntry.hiddenValueName := by
  rintro rfl
  have isHidden : isHidden ClassEntry.hiddenValueName = true := by
    decide +kernel
  rw [field.isVisible] at isHidden
  contradiction

/-- What a class gives bits to is a field of its registers. -/
theorem hasField_of_shape?
    {type : RegisterClass}
    (kindIsOwn : type.definition? ClassEntry.kindName = none)
    (shapeIs : type.shape? name = .ok shape)
    (spanIs : shape.span? = .ok span)
    (whole : Value) :
    (NotedRegister.mk type whole []).HasField name shape span := by
  have isVisible : isHidden name = false := by
    cases visible : isHidden name with
    | false => rfl
    | true => simp [RegisterClass.shape?, visible] at shapeIs
  have defined : type.definition? name = some (some shape) := by
    rw [RegisterClass.shape?, isVisible] at shapeIs
    split at shapeIs
    · contradiction
    · split at shapeIs
      · next definition => cases shapeIs; exact definition
      · contradiction
  have isField : type.hasField name = true := by
    obtain ⟨table, isTable, gives⟩ := List.exists_of_findSome?_eq_some defined
    obtain ⟨before, after, split, _⟩ := List.lookup_eq_some_iff.mp gives
    have member : (name, some shape) ∈ table := by simp [split]
    simp only [RegisterClass.hasField, isVisible, Bool.not_false, Bool.true_and,
      List.any_eq_true]
    exact ⟨table, isTable, List.any_eq_true.mpr ⟨_, member, by simp⟩⟩
  refine ⟨isVisible, ?_, ?_, spanIs⟩
  · simp [NotedRegister.isField, Fields.get?, isField]
  · simp [NotedRegister.shape?, standIn?, kindIsOwn, shapeIs]

theorem register_eq
    {value : Int}
    (holds : noted.whole = .integer value) :
    noted.register = .ok ⟨noted.type, value⟩ := by
  rw [register, holds]
  rfl

/-- Setting a field writes to its bits, if they have room. -/
theorem set_eq
    {value : Int}
    (holds : noted.whole = .integer value)
    (field : noted.HasField name shape span)
    (raw : Int) :
    noted.set name (.integer raw) =
      shape.writeSpan?.map fun span =>
        noted.holding (span.write raw value) := by
  have rawIs : shape.rawOf (.integer raw) = .ok raw := by
    cases shape <;> rfl
  rw [set, if_neg field.name_ne, field.isVisible, if_neg (by decide), setField,
    field.shape_eq, Outcome.ok_bind]
  cases shape.writeSpan? with
  | error fault => rfl
  | ok found =>
      rw [Outcome.ok_bind, register_eq holds, Outcome.ok_bind, rawIs]
      rfl

/-- Reading a field understands its bits. -/
theorem get_eq
    {value : Int}
    (holds : noted.whole = .integer value)
    (field : noted.HasField name shape span) :
    noted.get name = (shape.read value).map .reading := by
  have found : noted.getOpen name = (shape.read value).map .reading := by
    rw [getOpen, field.counts, Outcome.ok_bind, if_pos rfl, getField,
      field.shape_eq, Outcome.ok_bind, register_eq holds, Outcome.ok_bind]
  rw [get, field.isVisible, if_neg (by decide), found]
  cases reading : shape.read value with
  | ok => rfl
  | error fault =>
      cases fault
      case noAttribute => exact (shape.read_ne_noAttribute value reading).elim
      all_goals rfl

/-! ## Laws -/

/-- Setting a name to a number leaves this value in the register. -/
def Sets
    (noted : NotedRegister)
    (name : String)
    (raw after : Int) : Prop :=
  noted.set name (.integer raw) = .ok (noted.holding after)

/-- What setting a field of a register does, and what is read from it then. -/
structure FieldLaws
    (noted : NotedRegister)
    (value : Int)
    (name : String)
    (shape : FieldShape)
    (span : BitSpan) : Prop where
  /-- Only bits too far away to be stored are refused. -/
  possible : ∀ raw,
    (∃ after, noted.Sets name raw after) ∨
      ∃ fault,
        noted.set name (.integer raw) = .error fault ∧
          fault.IsWantOfRoom ∧ mostBits ≤ span.low + span.width
  inside : ∀ raw after,
    noted.Sets name raw after →
    span.read after = raw % 2 ^ span.width
  outside : ∀ raw after,
    noted.Sets name raw after →
    ∀ index, ¬span.Covers index → after.testBit index = value.testBit index
  /-- The field is read from these bits alone. -/
  understood : ∀ raw after,
    noted.Sets name raw after →
    (noted.holding after).get name =
      (shape.kind.interpret (raw % 2 ^ span.width)).map .reading
  lastCounts : ∀ first second,
    (do
      let changed ← noted.set name (.integer first)
      changed.set name (.integer second)) = noted.set name (.integer second)
  ownBits : ∀ after,
    noted.Sets name (span.read value) after → after = value
  /--
  A field in two's complement that has all its bits is read as it was set.
  -/
  signed : ∀ half : Nat,
    shape.kind = .signed (half + 1 : Nat) →
    span.width = half + 1 →
    ∀ number after,
      -(2 ^ half) ≤ number →
      number < 2 ^ half →
      noted.Sets name number after →
      (noted.holding after).get name = .ok (.reading (.number number))

/-- Setting one of two fields has nothing to do with the other one. -/
structure IsIndependent
    (noted : NotedRegister)
    (first second : String) : Prop where
  frame : ∀ raw after,
    noted.Sets first raw after →
    (noted.holding after).get second = noted.get second
  commute : ∀ firstRaw secondRaw result,
    (do
      let changed ← noted.set first (.integer firstRaw)
      changed.set second (.integer secondRaw)) = .ok result ↔
    (do
      let changed ← noted.set second (.integer secondRaw)
      changed.set first (.integer firstRaw)) = .ok result

section Laws

variable {value : Int}

/-- What a field is set to is written to its bits, which have room then. -/
theorem HasField.eq_write_of_sets
    (field : noted.HasField name shape span)
    (holds : noted.whole = .integer value)
    {raw after : Int}
    (sets : noted.Sets name raw after) :
    after = span.write raw value ∧ shape.readSpan? = .ok span := by
  rw [Sets, set_eq holds field] at sets
  cases writable : shape.writeSpan? with
  | error fault =>
      rw [writable] at sets
      contradiction
  | ok found =>
      obtain ⟨rfl, readable⟩ :=
        FieldShape.readSpan?_of_writeSpan? field.span_eq writable
      rw [writable] at sets
      cases sets
      exact ⟨rfl, readable⟩

/-- Setting a field writes to its bits, or has the same fault for any number. -/
theorem HasField.set_cases
    (field : noted.HasField name shape span) :
    (∀ value raw, (noted.holding value).set name (.integer raw) =
      .ok (noted.holding (span.write raw value))) ∨
    ∃ fault,
      fault.IsWantOfRoom ∧
        mostBits ≤ span.low + span.width ∧
        ∀ value raw,
          (noted.holding value).set name (.integer raw) = .error fault := by
  rcases FieldShape.writeSpan?_cases field.span_eq with
    writable | ⟨fault, refused, isWant, far⟩
  · refine .inl fun value raw => ?_
    rw [set_eq rfl (field.of_holding value), writable]
    rfl
  · refine .inr ⟨fault, isWant, far, fun value raw => ?_⟩
    rw [set_eq rfl (field.of_holding value), refused]
    rfl

theorem eq_holding
    (holds : noted.whole = .integer value) :
    noted = noted.holding value := by
  rw [holding, ← holds]

/-- A set field is read from the bits it was set to. -/
theorem HasField.get_of_sets
    (field : noted.HasField name shape span)
    (holds : noted.whole = .integer value)
    {raw after : Int}
    (sets : noted.Sets name raw after) :
    (noted.holding after).get name =
      (shape.kind.interpret (raw % 2 ^ span.width)).map .reading := by
  obtain ⟨rfl, readable⟩ := field.eq_write_of_sets holds sets
  rw [get_eq rfl (field.of_holding _), FieldShape.read, readable,
    Outcome.ok_bind, BitSpan.read_write]

/-- The remainder of a short number is read as that number. -/
theorem signExtend_emod_of_short
    {half : Nat}
    {number : Int}
    (lower : -(2 ^ half) ≤ number)
    (upper : number < 2 ^ half) :
    signExtend (half + 1) (number % 2 ^ (half + 1)) = number :=
  (signExtend_eq_iff (Nat.succ_pos half)).mpr
    ⟨⟨lower, upper⟩, (Int.mod_modEq number _).symm⟩

/-- A field of a register that holds a number follows the laws of fields. -/
theorem HasField.fieldLaws
    (field : noted.HasField name shape span)
    (holds : noted.whole = .integer value) :
    noted.FieldLaws value name shape span where
  possible raw := by
    rcases field.set_cases with done | ⟨fault, isWant, far, refused⟩
    · have sets := done value raw
      rw [← eq_holding holds] at sets
      exact .inl ⟨_, sets⟩
    · have fails := refused value raw
      rw [← eq_holding holds] at fails
      exact .inr ⟨fault, fails, isWant, far⟩
  inside raw after sets := by
    rw [(field.eq_write_of_sets holds sets).1, BitSpan.read_write]
  outside raw after sets index notCovered := by
    rw [(field.eq_write_of_sets holds sets).1, BitSpan.testBit_write,
      if_neg notCovered]
  understood raw after sets := field.get_of_sets holds sets
  lastCounts first second := by
    rw [eq_holding holds]
    rcases field.set_cases with done | ⟨fault, _, _, refused⟩
    · rw [done, Outcome.ok_bind, done, done, BitSpan.write_write]
    · rw [refused, refused, Outcome.error_bind]
  ownBits after sets := by
    rw [(field.eq_write_of_sets holds sets).1, BitSpan.write_read]
  signed half isSigned isWhole number after lower upper sets := by
    obtain ⟨_, readable⟩ := field.eq_write_of_sets holds sets
    have room := FieldShape.requireRoom_of_readSpan? readable
    have positive : (0 : Int) < (half + 1 : Nat) := by omega
    rw [isWhole] at room
    rw [field.get_of_sets holds sets, isSigned, FieldKind.interpret,
      signExtend?_of_room positive room, Int.toNat_natCast, isWhole,
      signExtend_emod_of_short lower upper]
    rfl

/-- Fields without a common bit are independent. -/
theorem HasField.isIndependent
    (field : noted.HasField name shape span)
    (holds : noted.whole = .integer value)
    {otherName : String}
    {otherShape : FieldShape}
    {otherSpan : BitSpan}
    (otherField : noted.HasField otherName otherShape otherSpan)
    (disjoint : span.IsDisjoint otherSpan) :
    noted.IsIndependent name otherName where
  frame raw after sets := by
    obtain ⟨rfl, _⟩ := field.eq_write_of_sets holds sets
    rw [get_eq rfl (otherField.of_holding _), get_eq holds otherField,
      FieldShape.read_congr otherField.span_eq
        (BitSpan.read_write_of_isDisjoint raw value disjoint)]
  commute raw otherRaw result := by
    rw [eq_holding holds]
    rcases field.set_cases with done | ⟨fault, _, _, refused⟩ <;>
      rcases otherField.set_cases with
        otherDone | ⟨otherFault, _, _, otherRefused⟩
    · rw [done, otherDone, Outcome.ok_bind, Outcome.ok_bind, done, otherDone,
        BitSpan.write_comm_of_isDisjoint raw value disjoint]
    · simp [done, otherRefused]
    · simp [refused, otherDone]
    · simp [refused, otherRefused]

/--
The laws of fields, for every register that holds a number: what setting one of
them does to its own bits, and that it leaves all others alone.
-/
theorem fields_areLawful
    (holds : noted.whole = .integer value)
    (field : noted.HasField name shape span) :
    noted.FieldLaws value name shape span ∧
      ∀ otherName otherShape otherSpan,
        noted.HasField otherName otherShape otherSpan →
        span.IsDisjoint otherSpan →
        noted.IsIndependent name otherName :=
  ⟨field.fieldLaws holds, fun _ _ _ otherField disjoint =>
    field.isIndependent holds otherField disjoint⟩

/--
Two fields of four bits in two's complement, in a value far outside their class.
-/
theorem fields_areLawful_of_deltas :
    (NotedRegister.mk .absoluteRelativeHeader (.integer (-77777))
        []).FieldLaws (-77777) "DELTA2" (.signedBits 11 8) ⟨8, 4⟩ ∧
      (NotedRegister.mk .absoluteRelativeHeader (.integer (-77777))
        []).IsIndependent "DELTA2" "DELTA1" := by
  have kindIsOwn :
      RegisterClass.absoluteRelativeHeader.definition? ClassEntry.kindName =
        none := by
    decide +kernel
  have shapeIs :
      RegisterClass.absoluteRelativeHeader.shape? "DELTA2" =
        .ok (.signedBits 11 8) := by
    decide +kernel
  have otherShapeIs :
      RegisterClass.absoluteRelativeHeader.shape? "DELTA1" =
        .ok (.signedBits 7 4) := by
    decide +kernel
  have spanIs : (FieldShape.signedBits 11 8).span? = .ok ⟨8, 4⟩ := rfl
  have otherSpanIs : (FieldShape.signedBits 7 4).span? = .ok ⟨4, 4⟩ := rfl
  have field := hasField_of_shape? kindIsOwn shapeIs spanIs (.integer (-77777))
  have otherField :=
    hasField_of_shape? kindIsOwn otherShapeIs otherSpanIs (.integer (-77777))
  have disjoint : BitSpan.IsDisjoint ⟨8, 4⟩ ⟨4, 4⟩ := by
    rintro index ⟨⟨low, _⟩, ⟨_, high⟩⟩
    simp only at low high
    omega
  obtain ⟨laws, others⟩ := fields_areLawful rfl field
  exact ⟨laws, others _ _ _ otherField disjoint⟩

end Laws

end NotedRegister

end VideoCore
