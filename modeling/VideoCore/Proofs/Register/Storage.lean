import VideoCore.Proofs.Record.Storage
import VideoCore.Proofs.Register.Reading
import VideoCore.Proofs.Register.Setting

namespace VideoCore

/-!
# Storing registers

Nothing checks the whole value of a register until it is stored.  A class whose
fields keep to the bits that its registers are stored in needs no check: setting
fields never leads out of these bits (`NotedRegister.set_isShort`, and for
several fields `NotedRegister.setAll_isShort`).  So registers that were parsed
can be stored whatever they are set to, and are parsed again from their bytes
(`RegisterClass.KeepsWidth`).
-/

/-! ## Classes that keep to some bits -/

namespace FieldKind

/-- Whether a type with members has one for every number of `width` bits. -/
def covers (width : Nat) : FieldKind → Bool
  | .enumeration type => 2 ^ width ≤ type.members.length
  | _ => true

/--
Whether a number in two's complement has a sign and room for all its bits.
-/
def hasSign : FieldKind → Bool
  | .signed bits => 0 < bits && bits < mostBits
  | _ => true

end FieldKind

namespace FieldShape

/--
Whether a field lies in the lowest bits, and a type of it covers its own ones.
-/
def isWithin
    (bits : Nat)
    (shape : FieldShape) : Bool :=
  0 ≤ shape.low && 0 ≤ shape.width && shape.low + shape.width ≤ bits &&
    shape.kind.covers shape.width.toNat

end FieldShape

namespace RegisterClass

/--
Whether a class says nothing but which fields there are and how wide they are
stored.
-/
def isPlain (type : RegisterClass) : Bool :=
  type.tables.all fun table =>
    table.all fun (name, _) => !isHidden name || name == widthName

/--
A plain class of registers of `size` bytes whose fields lie in these bytes.
-/
structure IsWithin
    (type : RegisterClass)
    (size : Nat) : Prop where
  plain : type.isPlain = true
  size_eq : type.byteSize? = .ok size
  fields : type.allFields (·.isWithin (8 * size)) = true

/-- Whether all numbers in two's complement have a sign. -/
def hasSigns (type : RegisterClass) : Bool :=
  type.allFields (·.kind.hasSign)

variable {type : RegisterClass} {size : Nat} {name : String}

/-- A plain class says nothing about hidden names but its width. -/
theorem definition?_of_isPlain
    (plain : type.isPlain = true)
    (hidden : isHidden name = true)
    (isOther : name ≠ widthName) :
    type.definition? name = none := by
  rw [definition?, List.findSome?_eq_none_iff]
  intro table isTable
  rw [List.lookup_eq_none_iff]
  intro entry isEntry
  have tableChecked := List.all_eq_true.mp plain table isTable
  have checked := List.all_eq_true.mp tableChecked entry isEntry
  rw [bne_iff_ne]
  rintro rfl
  simp [hidden, isOther] at checked

/--
A plain class has kept what registers need to be made, stored and compared.
-/
theorem require_of_isPlain
    (plain : type.isPlain = true)
    {working : Working}
    (needed : working ∈ [.making, .number, .equality]) :
    type.require working = .ok () := by
  have areHidden :
      ∀ working ∈ [Working.making, .number, .equality],
        ∀ name ∈ working.names, isHidden name = true ∧ name ≠ widthName := by
    decide +kernel
  have lost : ¬working.names.any type.states = true := by
    intro lost
    obtain ⟨name, member, states⟩ := List.any_eq_true.mp lost
    obtain ⟨hidden, isOther⟩ := areHidden working needed name member
    simp [RegisterClass.states,
      definition?_of_isPlain plain hidden isOther] at states
  rw [require, if_neg lost]

theorem kind_of_isPlain
    (plain : type.isPlain = true) :
    type.definition? ClassEntry.kindName = none :=
  definition?_of_isPlain plain (by decide +kernel) (by decide)

/-- Registers are stored in at most eight bytes. -/
theorem size_le_eight
    (sizeIs : type.byteSize? = .ok size) :
    size ≤ 8 := by
  unfold byteSize? at sizeIs
  split at sizeIs
  · contradiction
  · next width definition =>
      split at sizeIs
      · next isWidth =>
          cases sizeIs
          simp only [List.mem_cons, List.not_mem_nil, or_false] at isWidth
          omega
      · contradiction
  · contradiction

/-- There is room for all bits of a class within its bytes. -/
theorem IsWithin.bits_le
    (within : type.IsWithin size) :
    8 * size ≤ ordinaryWidth := by
  have short := size_le_eight within.size_eq
  simp only [ordinaryWidth]
  omega

end RegisterClass

/-! ## Reading fields that keep to some bits -/

namespace FieldShape

variable {shape : FieldShape} {bits : Nat}

/-- A field within some bits has a span that ends before them. -/
theorem exists_span_of_isWithin
    (within : shape.isWithin bits = true) :
    ∃ span,
      shape.span? = .ok span ∧
        span.low + span.width ≤ bits ∧
        shape.kind.covers span.width = true := by
  simp only [isWithin, Bool.and_eq_true, decide_eq_true_eq] at within
  obtain ⟨⟨⟨low, width⟩, high⟩, covered⟩ := within
  exact
    ⟨⟨shape.low.toNat, shape.width.toNat⟩, by rw [span?, if_pos ⟨low, width⟩],
    by simp only; omega, covered⟩

/-- There is room for the bits that registers are stored in. -/
theorem readSpan?_of_isWithin
    (short : bits ≤ ordinaryWidth)
    {span : BitSpan}
    (spanIs : shape.span? = .ok span)
    (inside : span.low + span.width ≤ bits) :
    shape.readSpan? = .ok span := by
  rw [readSpan?, spanIs, Outcome.ok_bind, requireRoom_of_le (by omega),
    Outcome.ok_bind]

end FieldShape

namespace FieldKind

variable {kind : FieldKind} {width : Nat}

/-- An enumeration that covers some bits understands all their values. -/
private theorem exists_interpret_enumeration
    {type : Enumeration}
    (covered : (enumeration type).covers width = true)
    {raw : Int}
    (upper : raw < 2 ^ width) :
    ∃ reading, (enumeration type).interpret raw = .ok reading := by
  simp only [covers, decide_eq_true_eq] at covered
  have power : ((2 ^ width : Nat) : Int) = 2 ^ width := Int.natCast_pow 2 width
  have inside : raw.toNat < type.members.length := by
    have positive := Nat.two_pow_pos width
    omega
  exact ⟨_, by rw [interpret, List.getElem?_eq_getElem inside]⟩

/--
Whether bits can be understood depends on their kind only, if that covers them.
-/
theorem exists_interpret_congr
    (covered : kind.covers width = true)
    {raw other : Int}
    (upper : other < 2 ^ width)
    (understood : ∃ reading, kind.interpret raw = .ok reading) :
    ∃ reading, kind.interpret other = .ok reading := by
  cases kind with
  | unsigned => exact ⟨.number other, rfl⟩
  | signed bits =>
      obtain ⟨reading, understood⟩ := understood
      cases extended : signExtend? bits raw with
      | ok number =>
          obtain ⟨positive, fits, _⟩ := signExtend?_eq_ok_iff.mp extended
          have otherExtended : signExtend? bits other = .ok _ :=
            signExtend?_eq_ok_iff.mpr ⟨positive, fits, rfl⟩
          exact ⟨_, by rw [interpret, otherExtended]; rfl⟩
      | error fault =>
          rw [interpret, extended] at understood
          contradiction
  | enumeration type => exact exists_interpret_enumeration covered upper

/--
Bits of a kind that covers them and has a sign, if it needs one, can be
understood.
-/
theorem exists_interpret
    (covered : kind.covers width = true)
    (hasSign : kind.hasSign = true)
    {raw : Int}
    (upper : raw < 2 ^ width) :
    ∃ reading, kind.interpret raw = .ok reading := by
  cases kind with
  | unsigned => exact ⟨.number raw, rfl⟩
  | signed bits =>
      simp only [FieldKind.hasSign, Bool.and_eq_true,
        decide_eq_true_eq] at hasSign
      have extended : signExtend? bits raw = .ok _ :=
        signExtend?_eq_ok_iff.mpr ⟨hasSign.1, by omega, rfl⟩
      exact ⟨_, by rw [interpret, extended]; rfl⟩
  | enumeration type => exact exists_interpret_enumeration covered upper

end FieldKind

namespace NotedRegister

variable {noted : NotedRegister} {type : RegisterClass} {size : Nat}
variable {name : String}

/-! ## Parsing -/

/-- Every field of a class within its bytes is a field of its registers. -/
theorem exists_hasField
    (within : type.IsWithin size)
    (member : name ∈ type.fieldNames)
    (whole : Value) :
    ∃ shape span,
      (NotedRegister.mk type whole []).HasField name shape span ∧
        span.low + span.width ≤ 8 * size ∧
        shape.kind.covers span.width = true := by
  obtain ⟨shape, shapeIs, isWithin⟩ :=
    RegisterClass.shape?_of_allFields within.fields member
  obtain ⟨span, spanIs, inside, covered⟩ :=
    FieldShape.exists_span_of_isWithin isWithin
  have kindIsOwn := RegisterClass.kind_of_isPlain within.plain
  exact ⟨shape, span, hasField_of_shape? kindIsOwn shapeIs spanIs whole, inside,
    covered⟩

/-- A field within some bits is read by understanding its bits. -/
theorem HasField.get_of_isWithin
    {shape : FieldShape}
    {span : BitSpan}
    {value : Int}
    (field :
      (NotedRegister.mk type (.integer value) []).HasField name shape span)
    (short : span.low + span.width ≤ ordinaryWidth) :
    (NotedRegister.mk type (.integer value) []).get name =
      (shape.kind.interpret (span.read value)).map .reading := by
  have readable :=
    FieldShape.readSpan?_of_isWithin (Nat.le_refl ordinaryWidth) field.span_eq
      short
  rw [get_eq rfl field, FieldShape.read, readable, Outcome.ok_bind]

/-- A number makes a register if all its fields can be understood. -/
theorem ofValue_of_understood
    (plain : type.isPlain = true)
    {value : Int}
    (understood : ∀ name ∈ type.fieldNames,
      ∃ found,
        (NotedRegister.mk type (.integer value) []).get name = .ok found) :
    ofValue type (.integer value) = .ok ⟨type, .integer value, []⟩ := by
  have valid :
      (type.fieldNames.forM fun name => do
        let _ ← (NotedRegister.mk type (.integer value) []).get name
        Except.ok ()) = .ok () := by
    apply Outcome.forM_eq_ok
    intro name member
    obtain ⟨found, isFound⟩ := understood name member
    rw [isFound, Outcome.ok_bind]
  have canBeMade :=
    RegisterClass.require_of_isPlain plain (by simp : Working.making ∈ _)
  simp only [ofValue, canBeMade, Outcome.ok_bind, valid]

/--
Bytes are parsed if there are enough, and the number they store makes a
register.
-/
theorem ofBytes_eq
    (sizeIs : type.byteSize? = .ok size)
    {bytes : Bytes}
    (length : bytes.length = size) :
    ofBytes type bytes = ofValue type (.integer bytes.toWord) := by
  rw [ofBytes, sizeIs, Outcome.ok_bind, takeBytes, if_pos (by omega),
    Outcome.ok_bind, List.take_of_length_le (by omega)]

/--
A register that was parsed holds the number that its bytes store, and no notes.
-/
theorem eq_of_ofBytes
    (sizeIs : type.byteSize? = .ok size)
    {bytes : Bytes}
    (length : bytes.length = size)
    (parses : ofBytes type bytes = .ok noted) :
    noted = ⟨type, .integer bytes.toWord, []⟩ := by
  rw [ofBytes_eq sizeIs length] at parses
  obtain ⟨_, _, later⟩ := Outcome.exists_of_bind_eq_ok parses
  obtain ⟨_, _, same⟩ := Outcome.exists_of_bind_eq_ok later
  cases same
  rfl

/-- If one number makes a register, all numbers do. -/
theorem ofValue_congr
    (within : type.IsWithin size)
    {value : Int}
    (makes : ofValue type (.integer value) = .ok noted)
    (other : Int) :
    ofValue type (.integer other) = .ok ⟨type, .integer other, []⟩ := by
  have ordinary := within.bits_le
  obtain ⟨_, _, later⟩ := Outcome.exists_of_bind_eq_ok makes
  obtain ⟨_, valid, _⟩ := Outcome.exists_of_bind_eq_ok later
  apply ofValue_of_understood within.plain
  intro name member
  obtain ⟨shape, span, field, inside, covered⟩ :=
    exists_hasField within member (.integer value)
  have otherField := field.of_holding other
  obtain ⟨found, isFound, _⟩ := Outcome.exists_of_bind_eq_ok
    (Outcome.eq_ok_of_forM valid member)
  rw [field.get_of_isWithin (by omega)] at isFound
  have understood :
      ∃ reading, shape.kind.interpret (span.read value) = .ok reading := by
    cases interpreted : shape.kind.interpret (span.read value) with
    | ok reading => exact ⟨reading, rfl⟩
    | error fault =>
        rw [interpreted] at isFound
        contradiction
  obtain ⟨reading, isReading⟩ :=
    FieldKind.exists_interpret_congr covered (span.read_bounds other).2
      understood
  refine ⟨.reading reading, ?_⟩
  rw [otherField.get_of_isWithin (by omega), isReading]
  rfl

/-- Every number makes a register of a class whose fields have signs. -/
theorem ofValue_of_hasSigns
    (within : type.IsWithin size)
    (hasSigns : type.hasSigns = true)
    (value : Int) :
    ofValue type (.integer value) = .ok ⟨type, .integer value, []⟩ := by
  have ordinary := within.bits_le
  apply ofValue_of_understood within.plain
  intro name member
  obtain ⟨shape, span, field, inside, covered⟩ :=
    exists_hasField within member (.integer value)
  obtain ⟨signedShape, shapeIs, hasSign⟩ :=
    RegisterClass.shape?_of_allFields hasSigns member
  have sameShape : signedShape = shape := by
    have found := field.shape_eq
    simp only [NotedRegister.shape?, standIn?,
      RegisterClass.kind_of_isPlain within.plain, Option.map_none,
      shapeIs] at found
    exact Except.ok.inj found
  obtain ⟨reading, isReading⟩ :=
    FieldKind.exists_interpret covered (sameShape ▸ hasSign)
      (span.read_bounds value).2
  refine ⟨.reading reading, ?_⟩
  rw [field.get_of_isWithin (by omega), isReading]
  rfl

/-! ## Setting and storing -/

/-- Whether a number needs no more than some bits. -/
def IsShort
    (bits : Nat)
    (value : Int) : Prop :=
  0 ≤ value ∧ value < 2 ^ bits

/-- A number needs no more than some bits if nothing is left above them. -/
theorem isShort_iff
    (bits : Nat)
    (value : Int) :
    IsShort bits value ↔ value / 2 ^ bits = 0 := by
  have positive : (0 : Int) < 2 ^ bits := Int.pow_pos (by decide)
  rw [IsShort]
  constructor
  · rintro ⟨lower, upper⟩
    exact Int.ediv_eq_zero_of_lt lower upper
  · intro nothing
    have parts := Int.emod_add_mul_ediv value (2 ^ bits)
    have lower := Int.emod_nonneg value (Int.ne_of_gt positive)
    have upper := Int.emod_lt_of_pos value positive
    rw [nothing, Int.mul_zero] at parts
    omega

/-- Setting a field within some bits leads to a number of no more bits. -/
theorem set_isShort
    {shape : FieldShape}
    {span : BitSpan}
    {bits : Nat}
    {value : Int}
    (field :
      (NotedRegister.mk type (.integer value) []).HasField name shape span)
    (inside : span.low + span.width ≤ bits)
    (ordinary : bits ≤ ordinaryWidth)
    (short : IsShort bits value)
    (raw : Int) :
    ∃ after,
      (NotedRegister.mk type (.integer value) []).Sets name raw after ∧
        IsShort bits after := by
  rcases field.set_cases with done | ⟨_, _, far, _⟩
  · refine ⟨span.write raw value, done value raw, ?_⟩
    rw [isShort_iff, BitSpan.write_ediv_of_le raw value inside, ← isShort_iff]
    exact short
  · simp only [ordinaryWidth, mostBits] at *
    omega

/-- Names with the numbers that they are set to. -/
def settingsOf (settings : List (String × Int)) : Fields :=
  settings.map fun (name, raw) => (name, .integer raw)

/--
Setting any fields to any numbers, one after the other, keeps a number to its
bits.
-/
theorem setAll_isShort
    (within : type.IsWithin size)
    (settings : List (String × Int))
    (areFields : ∀ setting ∈ settings, setting.1 ∈ type.fieldNames)
    {value : Int}
    (short : IsShort (8 * size) value) :
    ∃ after,
      (NotedRegister.mk type (.integer value) []).setAll (settingsOf settings) =
        .ok ⟨type, .integer after, []⟩ ∧
      IsShort (8 * size) after := by
  have ordinary := within.bits_le
  induction settings generalizing value with
  | nil => exact ⟨value, rfl, short⟩
  | cons setting rest inductionHypothesis =>
      obtain ⟨name, raw⟩ := setting
      obtain ⟨shape, span, field, inside, _⟩ :=
        exists_hasField within (areFields (name, raw) (by simp))
          (.integer value)
      obtain ⟨next, sets, nextShort⟩ :=
        set_isShort field inside ordinary short raw
      have restAreFields := (List.forall_mem_cons.mp areFields).2
      obtain ⟨after, restSets, afterShort⟩ :=
        inductionHypothesis restAreFields nextShort
      refine ⟨after, ?_, afterShort⟩
      rw [settingsOf, List.map_cons, setAll, sets, Outcome.ok_bind]
      exact restSets

/-- A register is stored as its number. -/
theorem toBytes_eq
    (within : noted.type.IsWithin size)
    {value : Int}
    (holds : noted.whole = .integer value) :
    noted.toBytes = writeWord size value := by
  rw [toBytes, within.size_eq, Outcome.ok_bind, number,
    RegisterClass.require_of_isPlain within.plain
      (by simp : Working.number ∈ _),
    Outcome.ok_bind, register_eq holds]
  rfl

theorem weight_eq
    (size : Nat) :
    (2 : Int) ^ (8 * size) = 256 ^ size := by
  rw [Int.pow_mul]
  rfl

/-- A short number is stored in bytes that say which number it is. -/
theorem exists_toBytes
    (within : type.IsWithin size)
    {value : Int}
    (short : IsShort (8 * size) value) :
    ∃ built : Bytes,
      (NotedRegister.mk type (.integer value) []).toBytes = .ok built ∧
        built.length = size ∧ (built.toWord : Int) = value := by
  obtain ⟨number, rfl⟩ := Int.eq_ofNat_of_zero_le short.1
  have upper : (number : Int) < 256 ^ size := weight_eq size ▸ short.2
  have upperNat : number < 256 ^ size :=
    Int.ofNat_lt.mp (by rw [Int.natCast_pow]; exact upper)
  refine ⟨Bytes.ofWord size number, ?_, Bytes.length_ofWord size number, ?_⟩
  · rw [toBytes_eq within rfl, writeWord, if_pos ⟨short.1, upper⟩,
      Int.toNat_natCast]
  · rw [Bytes.toWord_ofWord, Nat.mod_eq_of_lt upperNat]

/-- A register of a plain class is equal to itself. -/
theorem equal_self
    (plain : type.isPlain = true)
    (value : Int) :
    equal (some ⟨type, .integer value, []⟩) (some ⟨type, .integer value, []⟩) =
      .ok true := by
  have canBeCompared :=
    RegisterClass.require_of_isPlain plain (by simp : Working.equality ∈ _)
  have same :
      (NotedRegister.mk type (.integer value) []).same
        ⟨type, .integer value, []⟩ = true := by
    simp [NotedRegister.same, Value.integer?, Value.isNumber]
  simp only [equal, canBeCompared, Outcome.ok_bind, same, ite_self]

end NotedRegister

namespace RegisterClass

/-- What registers of a class keep to and how they are stored. -/
structure KeepsWidth
    (type : RegisterClass)
    (size : Nat) : Prop where
  /--
  Every encoding is that of a register, unless a number has no sign bit to be
  read.
  -/
  parses : type.hasSigns = true →
    ∀ bytes : Bytes,
      bytes.length = size →
      ∃ noted, NotedRegister.ofBytes type bytes = .ok noted
  /--
  A register that was parsed and set in any way is stored in its bytes, from
  which an equal one is parsed.
  -/
  stores : ∀ (bytes : Bytes) noted,
    bytes.length = size →
    NotedRegister.ofBytes type bytes = .ok noted →
    ∀ settings : List (String × Int),
      (∀ setting ∈ settings, setting.1 ∈ type.fieldNames) →
      ∃ value built parsed,
        noted.setAll (NotedRegister.settingsOf settings) =
            .ok (noted.holding value) ∧
          0 ≤ value ∧ value < 2 ^ (8 * size) ∧
          (noted.holding value).toBytes = .ok built ∧ built.length = size ∧
          NotedRegister.ofBytes type built = .ok parsed ∧
          NotedRegister.equal (some (noted.holding value)) (some parsed) =
            .ok true
  /-- Any other number is refused. -/
  refuses : ∀ (noted : NotedRegister) (value : Int),
    noted.type = type →
    noted.whole = .integer value →
    ¬(0 ≤ value ∧ value < 2 ^ (8 * size)) →
    noted.toBytes = .error (misfitOf size)

variable {type : RegisterClass} {size : Nat}

/-- Registers of a class within its bytes keep to them. -/
theorem IsWithin.keepsWidth
    (within : type.IsWithin size) :
    type.KeepsWidth size where
  parses hasSigns bytes length := by
    rw [NotedRegister.ofBytes_eq within.size_eq length]
    exact ⟨_, NotedRegister.ofValue_of_hasSigns within hasSigns bytes.toWord⟩
  stores bytes noted length parsed settings areFields := by
    obtain rfl := NotedRegister.eq_of_ofBytes within.size_eq length parsed
    have startsShort : NotedRegister.IsShort (8 * size) bytes.toWord := by
      have upper := Int.ofNat_lt.mpr (Bytes.toWord_lt bytes)
      rw [Int.natCast_pow, length] at upper
      exact ⟨Int.natCast_nonneg _, NotedRegister.weight_eq size ▸ upper⟩
    obtain ⟨value, sets, short⟩ :=
      NotedRegister.setAll_isShort within settings areFields startsShort
    obtain ⟨built, builds, builtLength, stored⟩ :=
      NotedRegister.exists_toBytes within short
    have parsedAgain :
        NotedRegister.ofBytes type built = .ok ⟨type, .integer value, []⟩ := by
      rw [NotedRegister.ofBytes_eq within.size_eq builtLength, stored]
      rw [NotedRegister.ofBytes_eq within.size_eq length] at parsed
      exact NotedRegister.ofValue_congr within parsed value
    exact ⟨value, built, _, sets, short.1, short.2, builds, builtLength,
      parsedAgain, NotedRegister.equal_self within.plain value⟩
  refuses noted value typeIs holds isOutside := by
    subst typeIs
    rw [NotedRegister.toBytes_eq within holds, writeWord,
      if_neg (NotedRegister.weight_eq size ▸ isOutside)]

/--
The classes of the GPU keep to the bytes that their registers are stored in.
-/
theorem isWithin_of_mem_all
    {known : RegisterClass}
    (member : known ∈ all)
    (sizeIs : known.byteSize? = .ok size) :
    known.IsWithin size ∧ known.hasSigns = true := by
  have checked :
      all.all (fun known =>
        known.byteSize?.toOption.all fun size =>
          known.isPlain && known.allFields (·.isWithin (8 * size)) &&
            known.hasSigns) = true := by
    decide +kernel
  have ownChecked := List.all_eq_true.mp checked known member
  simp only [sizeIs, Except.toOption, Option.all_some,
    Bool.and_eq_true] at ownChecked
  exact ⟨⟨ownChecked.1.1, sizeIs, ownChecked.1.2⟩, ownChecked.2⟩

/--
Registers of a class whose fields keep to its bytes never leave these bytes,
whatever the fields are set to; all classes of the GPU are of that kind.
-/
theorem registers_keepWidth
    (within : type.IsWithin size) :
    type.KeepsWidth size ∧
      ∀ known ∈ all, ∀ width,
        known.byteSize? = .ok width →
        known.IsWithin width ∧ known.hasSigns = true :=
  ⟨within.keepsWidth, fun _ member _ sizeIs =>
    isWithin_of_mem_all member sizeIs⟩

/--
Three bytes, with a member of an enumeration for all three bits of one field.
-/
theorem registers_keepWidth_triple :
    configurationBits.IsWithin 3 ∧ configurationBits.KeepsWidth 3 := by
  have within : configurationBits.IsWithin 3 :=
    ⟨by decide +kernel, by decide +kernel, by decide +kernel⟩
  exact ⟨within, (registers_keepWidth within).1⟩

end RegisterClass

end VideoCore
