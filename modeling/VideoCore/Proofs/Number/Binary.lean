import VideoCore.Number.Binary

namespace VideoCore

/-!
# Numbers in two formats

Every four-byte number has the same meaning in the eight-byte format, so that it
comes back when it is widened and narrowed again (`narrow?_widen`).  Undefined
values do not: they are made quiet.
-/

/-- Whether some bits mean a number, finite or infinite. -/
def FloatMeaning.isNumber : FloatMeaning → Bool
  | .undefined .. => false
  | _ => true

/-! ## Rounding -/

/-- A multiple is divided without rounding. -/
theorem roundQuotient_mul
    (quotient : Nat)
    {denominator : Nat}
    (positive : 0 < denominator) :
    roundQuotient (quotient * denominator) denominator = quotient := by
  rw [roundQuotient, Nat.mul_mod_left, Nat.mul_div_left quotient positive]
  exact if_pos positive

/-- A common factor does not matter for the rounding. -/
theorem roundQuotient_mul_right
    (numerator denominator : Nat)
    {factor : Nat}
    (positive : 0 < factor) :
    roundQuotient (numerator * factor) (denominator * factor) =
      roundQuotient numerator denominator := by
  have twice :
      2 * (numerator % denominator * factor) =
        2 * (numerator % denominator) * factor :=
    (Nat.mul_assoc ..).symm
  simp only [roundQuotient, Nat.mul_mod_mul_right,
    Nat.mul_div_mul_right _ _ positive, twice,
    Nat.mul_lt_mul_right positive]

/-- Scaling by a power of two moves the leading bit. -/
theorem log2_mul_two_pow
    {number : Nat}
    (nonzero : number ≠ 0)
    (places : Nat) :
    (number * 2 ^ places).log2 = number.log2 + places := by
  have positive := Nat.two_pow_pos places
  rw [Nat.log2_eq_iff (Nat.mul_ne_zero nonzero (by omega)), Nat.pow_add,
    Nat.add_right_comm, Nat.pow_add]
  exact ⟨Nat.mul_le_mul_right _ (Nat.log2_self_le nonzero),
    (Nat.mul_lt_mul_right positive).mpr Nat.lt_log2_self⟩

namespace FloatFormat

variable {format : FloatFormat} {negative : Bool} {mantissa : Nat}
  {exponent : Int}

/-- It is the number that is rounded, not the way in which it is written. -/
theorem roundMagnitude_shift
    (format : FloatFormat)
    (mantissa : Nat)
    (exponent : Int)
    (places : Nat) :
    format.roundMagnitude (mantissa * 2 ^ places) (exponent - places) =
      format.roundMagnitude mantissa exponent := by
  have positive := Nat.two_pow_pos places
  by_cases zero : mantissa = 0
  · rw [zero, Nat.zero_mul]
    rfl
  · have shifted : mantissa * 2 ^ places ≠ 0 :=
      Nat.mul_ne_zero zero (by omega)
    have lastPlace :
        exponent - places + ((mantissa.log2 + places : Nat) : Int) -
            format.fractionBits =
          exponent + mantissa.log2 - format.fractionBits := by
      omega
    simp only [roundMagnitude, if_neg zero, if_neg shifted,
      log2_mul_two_pow zero, lastPlace]
    generalize
      max format.leastExponent
        (exponent + mantissa.log2 - format.fractionBits) = target
    congr 1
    by_cases before : target ≤ exponent - places
    · have room :
          (exponent - target).toNat =
            places + (exponent - places - target).toNat := by
        omega
      rw [if_pos before, if_pos (by omega), room, Nat.pow_add,
        Nat.mul_assoc]
    · rw [if_neg before]
      by_cases between : target ≤ exponent
      · obtain ⟨behind, rfl⟩ :
            ∃ behind, places = (exponent - target).toNat + behind :=
          ⟨places - (exponent - target).toNat, by omega⟩
        have distance :
            (target - (exponent -
              (((exponent - target).toNat + behind : Nat) : Int))).toNat =
              behind := by
          omega
        rw [if_pos between, distance, Nat.pow_add, ← Nat.mul_assoc,
          roundQuotient_mul _ (Nat.two_pow_pos behind)]
      · have distance :
            (target - (exponent - places)).toNat =
              (target - exponent).toNat + places := by
          omega
        rw [if_neg between, distance, Nat.pow_add,
          roundQuotient_mul_right _ _ positive]

/--
Whether a number is written as the numbers of a format are: with the exponent of
its last place, and a mantissa that fills the fraction unless the exponent is
the least one.
-/
structure Holds
    (format : FloatFormat)
    (mantissa : Nat)
    (exponent : Int) : Prop where
  least : format.leastExponent ≤ exponent
  short : mantissa < 2 ^ (format.fractionBits + 1)
  full :
    format.leastExponent < exponent → 2 ^ format.fractionBits ≤ mantissa

/-- The biased exponent and the fraction of a number, in one number. -/
def magnitude
    (format : FloatFormat)
    (mantissa : Nat)
    (exponent : Int) : Nat :=
  (exponent - format.leastExponent).toNat * 2 ^ format.fractionBits +
    mantissa

/-- A number of the format is the one nearest to itself. -/
theorem Holds.roundMagnitude_eq
    (holds : format.Holds mantissa exponent) :
    format.roundMagnitude mantissa exponent =
      format.magnitude mantissa exponent := by
  have least := holds.least
  by_cases zero : mantissa = 0
  · have atLeast : exponent = format.leastExponent := by
      refine Int.le_antisymm (Int.not_lt.mp fun normal => ?_) least
      have full := holds.full normal
      have positive := Nat.two_pow_pos format.fractionBits
      omega
    rw [roundMagnitude, if_pos zero, magnitude, atLeast, zero, Int.sub_self]
    simp
  · have lastPlace : mantissa.log2 < format.fractionBits + 1 :=
      (Nat.log2_lt zero).mpr holds.short
    have target :
        max format.leastExponent
            (exponent + mantissa.log2 - format.fractionBits) =
          exponent := by
      by_cases normal : format.leastExponent < exponent
      · have fills : format.fractionBits ≤ mantissa.log2 :=
          (Nat.le_log2 zero).mpr (holds.full normal)
        omega
      · omega
    simp only [roundMagnitude, if_neg zero, target, Int.le_refl, if_true,
      Int.sub_self, Int.toNat_zero, Nat.pow_zero, Nat.mul_one, magnitude]

/-! ## Sign, exponent and fraction -/

/-- The sign stands above the exponent, and that one above the fraction. -/
theorem pack_eq
    (format : FloatFormat)
    (negative : Bool)
    (biased fraction : Nat) :
    format.pack negative biased fraction =
      (negative.toNat * 2 ^ format.exponentBits + biased) *
          2 ^ format.fractionBits +
        fraction := by
  cases negative with
  | false =>
      simp [pack]
  | true =>
      simp only [pack, if_true, Bool.toNat_true, Nat.one_mul, Nat.add_mul,
        Nat.pow_add, Nat.mul_comm]

/-- Bits are a sign, a biased exponent and a fraction. -/
theorem exists_pack
    (format : FloatFormat)
    {bits : Nat}
    (short : bits < 2 ^ (format.fractionBits + format.exponentBits + 1)) :
    ∃ negative biased fraction,
      biased < 2 ^ format.exponentBits ∧
        fraction < 2 ^ format.fractionBits ∧
        bits = format.pack negative biased fraction := by
  let upper := bits / 2 ^ format.fractionBits
  have isBit : upper / 2 ^ format.exponentBits < 2 := by
    rw [Nat.div_div_eq_div_mul, ← Nat.pow_add,
      Nat.div_lt_iff_lt_mul (Nat.two_pow_pos _), Nat.mul_comm,
      ← Nat.pow_succ]
    exact short
  have sign :
      (upper / 2 ^ format.exponentBits == 1).toNat =
        upper / 2 ^ format.exponentBits := by
    generalize upper / 2 ^ format.exponentBits = bit at isBit
    match bit, isBit with
    | 0, _ => rfl
    | 1, _ => rfl
  refine
    ⟨upper / 2 ^ format.exponentBits == 1,
      upper % 2 ^ format.exponentBits, bits % 2 ^ format.fractionBits,
      Nat.mod_lt _ (Nat.two_pow_pos _), Nat.mod_lt _ (Nat.two_pow_pos _),
      ?_⟩
  rw [pack_eq, sign, Nat.div_add_mod', Nat.div_add_mod']

/-- The parts of a number are found again. -/
theorem decode_pack
    (format : FloatFormat)
    (negative : Bool)
    {biased fraction : Nat}
    (inRange : biased < 2 ^ format.exponentBits)
    (short : fraction < 2 ^ format.fractionBits) :
    format.decode (format.pack negative biased fraction) =
      if biased = format.specialExponent then
        if fraction = 0 then
          .infinite negative
        else
          .undefined negative fraction format
      else if biased = 0 then
        .finite negative fraction format.leastExponent
      else
        .finite negative (2 ^ format.fractionBits + fraction)
          (format.leastExponent + biased - 1) := by
  have positive := Nat.two_pow_pos format.fractionBits
  have packed := format.pack_eq negative biased fraction
  have isFraction :
      format.pack negative biased fraction % 2 ^ format.fractionBits =
        fraction := by
    rw [packed, Nat.mul_comm, Nat.mul_add_mod, Nat.mod_eq_of_lt short]
  have isUpper :
      format.pack negative biased fraction / 2 ^ format.fractionBits =
        negative.toNat * 2 ^ format.exponentBits + biased := by
    rw [packed, Nat.mul_comm, Nat.mul_add_div positive,
      Nat.div_eq_of_lt short, Nat.add_zero]
  have isBiased :
      format.pack negative biased fraction / 2 ^ format.fractionBits %
          2 ^ format.exponentBits =
        biased := by
    rw [isUpper, Nat.mul_comm, Nat.mul_add_mod, Nat.mod_eq_of_lt inRange]
  have isSign :
      format.pack negative biased fraction /
          2 ^ (format.fractionBits + format.exponentBits) =
        negative.toNat := by
    rw [Nat.pow_add, ← Nat.div_div_eq_div_mul, isUpper, Nat.mul_comm,
      Nat.mul_add_div (Nat.two_pow_pos _), Nat.div_eq_of_lt inRange,
      Nat.add_zero]
  have signIs : (negative.toNat % 2 == 1) = negative := by
    cases negative <;> rfl
  simp only [decode, isFraction, isBiased, isSign, signIs]

theorem magnitude_subnormal
    (format : FloatFormat)
    (fraction : Nat) :
    format.magnitude fraction format.leastExponent = fraction := by
  simp [magnitude]

/--
Above the least exponent, the leading bit of the mantissa counts as one more.
-/
theorem magnitude_normal
    (format : FloatFormat)
    (steps fraction : Nat) :
    format.magnitude (2 ^ format.fractionBits + fraction)
        (format.leastExponent + steps) =
      (steps + 1) * 2 ^ format.fractionBits + fraction := by
  have distance :
      (format.leastExponent + steps - format.leastExponent).toNat =
        steps := by
    omega
  rw [magnitude, distance, Nat.add_mul, Nat.one_mul, Nat.add_assoc]

/-- A fraction that is carried into the exponent raises it. -/
theorem pack_normal
    (format : FloatFormat)
    (negative : Bool)
    (biased fraction : Nat) :
    format.pack negative 0
        (biased * 2 ^ format.fractionBits + fraction) =
      format.pack negative biased fraction := by
  rw [pack_eq, pack_eq, Nat.add_zero, Nat.add_mul, Nat.add_assoc]

/-- The sign is the last bit of a format. -/
theorem pack_lt
    (format : FloatFormat)
    (negative : Bool)
    {biased fraction : Nat}
    (small :
      biased * 2 ^ format.fractionBits + fraction <
        2 ^ (format.fractionBits + format.exponentBits)) :
    format.pack negative biased fraction <
      2 ^ (format.fractionBits + format.exponentBits + 1) := by
  rw [pack, Nat.pow_succ]
  split <;> omega

/--
A number has a magnitude below that of an infinite value if its exponent is in
range.
-/
theorem lt_special_iff
    {biased fraction : Nat}
    (short : fraction < 2 ^ format.fractionBits) :
    biased * 2 ^ format.fractionBits + fraction <
        format.specialExponent * 2 ^ format.fractionBits ↔
      biased < format.specialExponent := by
  constructor
  · intro fits
    exact Nat.lt_of_mul_lt_mul_right
      (Nat.lt_of_le_of_lt (Nat.le_add_right ..) fits)
  · intro below
    calc
      biased * 2 ^ format.fractionBits + fraction
          < (biased + 1) * 2 ^ format.fractionBits := by
        rw [Nat.add_mul, Nat.one_mul]
        omega
      _ ≤ format.specialExponent * 2 ^ format.fractionBits :=
        Nat.mul_le_mul_right _ below

/-- A number of the format is read from the bits of its magnitude. -/
theorem Holds.decode_eq
    (holds : format.Holds mantissa exponent)
    (fits :
      format.magnitude mantissa exponent <
        format.specialExponent * 2 ^ format.fractionBits)
    (negative : Bool) :
    format.decode
        (format.pack negative 0 (format.magnitude mantissa exponent)) =
      .finite negative mantissa exponent := by
  have least := holds.least
  have special : format.specialExponent < 2 ^ format.exponentBits := by
    have positive := Nat.two_pow_pos format.exponentBits
    rw [specialExponent]
    omega
  by_cases normal : 2 ^ format.fractionBits ≤ mantissa
  · obtain ⟨fraction, rfl⟩ := Nat.exists_eq_add_of_le normal
    obtain ⟨steps, rfl⟩ := Int.le.dest least
    have short : fraction < 2 ^ format.fractionBits := by
      have short := holds.short
      rw [Nat.pow_succ] at short
      omega
    rw [magnitude_normal, lt_special_iff short] at fits
    have back :
        format.leastExponent + ((steps + 1 : Nat) : Int) - 1 =
          format.leastExponent + steps := by
      omega
    rw [magnitude_normal, pack_normal,
      decode_pack _ _ (by omega) short, if_neg (by omega),
      if_neg (by omega), back]
  · have atLeast : exponent = format.leastExponent :=
      Int.le_antisymm
        (Int.not_lt.mp fun above => normal (holds.full above)) least
    subst atLeast
    have someSpecial : ¬0 = format.specialExponent := by
      intro isZero
      rw [← isZero, Nat.zero_mul] at fits
      contradiction
    rw [magnitude_subnormal, decode_pack _ _ (by omega) (by omega),
      if_neg someSpecial, if_pos rfl]

/-- A finite number is one of the format, and has the bits of its magnitude. -/
theorem holds_of_decode
    {bits : Nat}
    (short : bits < 2 ^ (format.fractionBits + format.exponentBits + 1))
    (isFinite :
      format.decode bits = .finite negative mantissa exponent) :
    format.Holds mantissa exponent ∧
      format.magnitude mantissa exponent <
          format.specialExponent * 2 ^ format.fractionBits ∧
        bits =
          format.pack negative 0 (format.magnitude mantissa exponent) := by
  obtain ⟨sign, biased, fraction, inRange, fits, rfl⟩ :=
    exists_pack format short
  rw [decode_pack _ _ inRange fits] at isFinite
  have double :
      2 ^ (format.fractionBits + 1) = 2 * 2 ^ format.fractionBits := by
    rw [Nat.pow_succ, Nat.mul_comm]
  split at isFinite
  · split at isFinite <;> contradiction
  · next notSpecial =>
      have below : biased < format.specialExponent := by
        rw [specialExponent] at notSpecial ⊢
        omega
      split at isFinite
      · next isZero =>
          subst isZero
          cases isFinite
          have small := (lt_special_iff fits).mpr below
          rw [Nat.zero_mul, Nat.zero_add] at small
          rw [magnitude_subnormal]
          exact ⟨⟨Int.le_refl _, by omega, fun above => by omega⟩, small, rfl⟩
      · next notZero =>
          obtain ⟨steps, rfl⟩ := Nat.exists_eq_succ_of_ne_zero notZero
          have back :
              format.leastExponent + ((steps + 1 : Nat) : Int) - 1 =
                format.leastExponent + steps := by
            omega
          rw [back] at isFinite
          cases isFinite
          rw [magnitude_normal, pack_normal, lt_special_iff fits]
          exact ⟨⟨by omega, by omega, fun _ => Nat.le_add_right ..⟩, below,
            rfl⟩

/-- A number has one encoding, however it is written. -/
theorem encode?_shift
    (format : FloatFormat)
    (negative : Bool)
    (mantissa : Nat)
    (exponent : Int)
    (places : Nat) :
    format.encode?
        (.finite negative (mantissa * 2 ^ places) (exponent - places)) =
      format.encode? (.finite negative mantissa exponent) := by
  rw [encode?, encode?, roundMagnitude_shift]

/-- A number that a format holds is encoded by its magnitude. -/
theorem Holds.encode?_eq
    (holds : format.Holds mantissa exponent)
    (fits :
      format.magnitude mantissa exponent <
        format.specialExponent * 2 ^ format.fractionBits)
    (negative : Bool) :
    format.encode? (.finite negative mantissa exponent) =
      some
        (format.pack negative 0 (format.magnitude mantissa exponent)) := by
  rw [encode?, holds.roundMagnitude_eq, if_pos fits]

theorem special_lt
    (format : FloatFormat) :
    format.specialExponent < 2 ^ format.exponentBits := by
  have positive := Nat.two_pow_pos format.exponentBits
  rw [specialExponent]
  omega

theorem decode_infinite
    (format : FloatFormat)
    (negative : Bool) :
    format.decode (format.pack negative format.specialExponent 0) =
      .infinite negative := by
  rw [decode_pack _ _ format.special_lt (Nat.two_pow_pos _), if_pos rfl,
    if_pos rfl]

/-- No other bits stand for infinity. -/
theorem eq_of_decode_infinite
    {bits : Nat}
    (short : bits < 2 ^ (format.fractionBits + format.exponentBits + 1))
    (isInfinite : format.decode bits = .infinite negative) :
    bits = format.pack negative format.specialExponent 0 := by
  obtain ⟨sign, biased, fraction, inRange, fits, rfl⟩ :=
    exists_pack format short
  rw [decode_pack _ _ inRange fits] at isInfinite
  split at isInfinite
  · next isSpecial =>
      split at isInfinite
      · next isZero =>
          cases isInfinite
          rw [isSpecial, isZero]
      · contradiction
  · split at isInfinite <;> contradiction

/-! ## Four bytes and eight bytes -/

/--
A number of the four-byte format is one of the eight-byte format, written with
more places.
-/
theorem Holds.exists_double
    (holds : single.Holds mantissa exponent)
    (fits :
      single.magnitude mantissa exponent <
        single.specialExponent * 2 ^ single.fractionBits) :
    ∃ places : Nat,
      double.Holds (mantissa * 2 ^ places) (exponent - places) ∧
        double.magnitude (mantissa * 2 ^ places) (exponent - places) <
          double.specialExponent * 2 ^ double.fractionBits := by
  have singleLeast : single.leastExponent = -149 := by decide
  have singleFraction : single.fractionBits = 23 := rfl
  have singleSpecial : single.specialExponent = 255 := rfl
  have doubleLeast : double.leastExponent = -1074 := by decide
  have doubleFraction : double.fractionBits = 52 := rfl
  have doubleSpecial : double.specialExponent = 2047 := rfl
  obtain ⟨least, short, full⟩ := holds
  rw [singleLeast] at least full
  rw [singleFraction] at short full
  rw [magnitude, singleLeast, singleFraction, singleSpecial] at fits
  -- The mantissa moves up until it fills the fraction; zero has the least
  -- exponent.
  obtain ⟨places, lower, upper, fills⟩ :
      ∃ places : Nat,
        -1074 ≤ exponent - places ∧
          mantissa * 2 ^ places < 2 ^ 53 ∧
          (-1074 < exponent - places →
            2 ^ 52 ≤ mantissa * 2 ^ places) := by
    by_cases zero : mantissa = 0
    · exact ⟨925, by omega, by omega, fun _ => by omega⟩
    · have lastPlace : mantissa.log2 < 24 := (Nat.log2_lt zero).mpr short
      have filled : (mantissa * 2 ^ (52 - mantissa.log2)).log2 = 52 := by
        rw [log2_mul_two_pow zero]
        omega
      have shifted : mantissa * 2 ^ (52 - mantissa.log2) ≠ 0 :=
        Nat.mul_ne_zero zero (Nat.pos_iff_ne_zero.mp (Nat.two_pow_pos _))
      obtain ⟨lower, upper⟩ := (Nat.log2_eq_iff shifted).mp filled
      exact ⟨52 - mantissa.log2, by omega, upper, fun _ => lower⟩
  refine ⟨places, ⟨?_, ?_, ?_⟩, ?_⟩
  · rw [doubleLeast]
    exact lower
  · exact upper
  · rw [doubleLeast]
    exact fills
  · generalize mantissa * 2 ^ places = wide at upper ⊢
    have steps : (exponent - places - -1074).toNat ≤ 1179 := by omega
    rw [magnitude, doubleLeast, doubleFraction, doubleSpecial]
    generalize (exponent - places - -1074).toNat = biased at steps ⊢
    clear fits full fills
    omega

/-- Whatever is encoded has the bits of its format. -/
theorem lt_of_encode?
    (wide : 0 < format.fractionBits)
    {meaning : FloatMeaning}
    {bits : Nat}
    (encoded : format.encode? meaning = some bits) :
    bits < 2 ^ (format.fractionBits + format.exponentBits + 1) := by
  have special := format.special_lt
  have below :
      ∀ fraction < 2 ^ format.fractionBits,
        format.specialExponent * 2 ^ format.fractionBits + fraction <
          2 ^ (format.fractionBits + format.exponentBits) := by
    intro fraction short
    calc
      format.specialExponent * 2 ^ format.fractionBits + fraction
          < (format.specialExponent + 1) * 2 ^ format.fractionBits := by
        rw [Nat.add_mul, Nat.one_mul]
        omega
      _ ≤ 2 ^ format.exponentBits * 2 ^ format.fractionBits :=
        Nat.mul_le_mul_right _ special
      _ = 2 ^ (format.fractionBits + format.exponentBits) := by
        rw [Nat.add_comm, Nat.pow_add]
  cases meaning with
  | infinite negative =>
      cases encoded
      exact format.pack_lt _ (below 0 (Nat.two_pow_pos _))
  | undefined negative fraction source =>
      cases encoded
      refine format.pack_lt _ (below _ ?_)
      have half :
          2 ^ format.fractionBits = 2 * 2 ^ (format.fractionBits - 1) := by
        rw [← Nat.pow_succ', Nat.succ_eq_add_one, Nat.sub_add_cancel wide]
      have kept :=
        Nat.mod_lt
          (fraction * 2 ^ format.fractionBits / 2 ^ source.fractionBits)
          (Nat.two_pow_pos (format.fractionBits - 1))
      omega
  | finite negative mantissa exponent =>
      rw [encode?] at encoded
      split at encoded
      · next small =>
          cases encoded
          have room := below 0 (Nat.two_pow_pos _)
          refine format.pack_lt _ ?_
          omega
      · contradiction

end FloatFormat

/-! ## Narrowing and widening -/

/-- A number that is narrowed has four bytes. -/
theorem narrow?_lt
    {bits : UInt64}
    {narrowed : Nat}
    (fits : narrow? bits = some narrowed) :
    narrowed < 256 ^ 4 :=
  FloatFormat.lt_of_encode? (by decide) fits

/-- A number that is widened has the bits of its meaning in the wide format. -/
theorem widen_toNat
    {bits wide : Nat}
    (isWide :
      FloatFormat.double.encode? (FloatFormat.single.decode bits) =
        some wide) :
    (widen bits).toNat = wide := by
  have fits : wide < 2 ^ 64 :=
    FloatFormat.lt_of_encode? (by decide) isWide
  rw [widen, isWide, Option.getD_some, UInt64.toNat_ofNat',
    Nat.mod_eq_of_lt fits]

/-- A four-byte number comes back when it is widened and narrowed again. -/
theorem narrow?_widen
    {bits : Nat}
    (short : bits < 256 ^ 4)
    (isNumber : (FloatFormat.single.decode bits).isNumber = true) :
    narrow? (widen bits) = some bits := by
  rw [narrow?]
  cases meaning : FloatFormat.single.decode bits with
  | undefined =>
      rw [meaning] at isNumber
      contradiction
  | infinite negative =>
      have isWide :
          FloatFormat.double.encode? (FloatFormat.single.decode bits) =
            some
              (FloatFormat.double.pack negative
                FloatFormat.double.specialExponent 0) := by
        rw [meaning]
        rfl
      rw [widen_toNat isWide, FloatFormat.decode_infinite,
        FloatFormat.encode?,
        FloatFormat.eq_of_decode_infinite short meaning]
  | finite negative mantissa exponent =>
      obtain ⟨holds, fits, bitsAre⟩ :=
        FloatFormat.holds_of_decode short meaning
      obtain ⟨places, wideHolds, wideFits⟩ := holds.exists_double fits
      have isWide :=
        (FloatFormat.double.encode?_shift negative mantissa exponent
          places).symm.trans (wideHolds.encode?_eq wideFits negative)
      rw [← meaning] at isWide
      rw [widen_toNat isWide, wideHolds.decode_eq wideFits,
        FloatFormat.encode?_shift, holds.encode?_eq fits, bitsAre]

/-- What is widened to a number is a number. -/
theorem isNumber_of_widen
    {bits : Nat}
    (isNumber :
      (FloatFormat.double.decode (widen bits).toNat).isNumber = true) :
    (FloatFormat.single.decode bits).isNumber = true := by
  cases meaning : FloatFormat.single.decode bits with
  | finite | infinite =>
      rfl
  | undefined negative fraction source =>
      have quiet :
          2 ^ FloatFormat.double.fractionBits =
            2 * 2 ^ (FloatFormat.double.fractionBits - 1) :=
        rfl
      have kept :=
        Nat.mod_lt
          (fraction * 2 ^ FloatFormat.double.fractionBits /
            2 ^ source.fractionBits)
          (Nat.two_pow_pos (FloatFormat.double.fractionBits - 1))
      have isWide :=
        widen_toNat (congrArg FloatFormat.double.encode? meaning)
      -- The fraction of an undefined value is quiet, so that it stays one.
      rw [isWide,
        FloatFormat.decode_pack _ _ FloatFormat.double.special_lt
          (by omega),
        if_pos rfl, if_neg (by omega)] at isNumber
      contradiction

/-- An integer of two bytes is no larger than an eight-byte number can be. -/
theorem exists_doubleOfInt?
    {value : Int}
    (short : value.natAbs < 2 ^ 16) :
    ∃ bits, doubleOfInt? value = some bits := by
  have small :
      FloatFormat.double.roundMagnitude value.natAbs 0 <
        FloatFormat.double.specialExponent *
          2 ^ FloatFormat.double.fractionBits := by
    unfold FloatFormat.roundMagnitude
    split
    · decide
    · next nonzero =>
        generalize value.natAbs = magnitude at short nonzero
        have lastPlace : magnitude.log2 < 16 :=
          (Nat.log2_lt nonzero).mpr short
        have least : FloatFormat.double.leastExponent = -1074 := by
          decide
        have fraction : FloatFormat.double.fractionBits = 52 := rfl
        have special : FloatFormat.double.specialExponent = 2047 := rfl
        -- Sixteen bits fit the fraction, so that nothing is rounded.
        have target :
            max (-1074 : Int) (0 + (magnitude.log2 : Int) - (52 : Nat)) =
              (magnitude.log2 : Int) - 52 := by
          omega
        have inRange : (magnitude.log2 : Int) - 52 ≤ 0 := by omega
        have biased :
            ((magnitude.log2 : Int) - 52 - -1074).toNat =
              magnitude.log2 + 1022 := by
          omega
        have shift :
            (0 - ((magnitude.log2 : Int) - 52)).toNat =
              52 - magnitude.log2 := by
          omega
        have mantissa : magnitude * 2 ^ (52 - magnitude.log2) < 2 ^ 53 :=
          calc
            magnitude * 2 ^ (52 - magnitude.log2)
                < 2 ^ (magnitude.log2 + 1) *
                    2 ^ (52 - magnitude.log2) :=
              Nat.mul_lt_mul_of_pos_right Nat.lt_log2_self
                (Nat.two_pow_pos _)
            _ = 2 ^ 53 := by
              rw [← Nat.pow_add]
              congr 1
              omega
        simp only [least, fraction, special, target, if_pos inRange,
          biased, shift]
        omega
  simp only [doubleOfInt?, FloatFormat.encode?, if_pos small,
    Option.map_some]
  exact ⟨_, rfl⟩

end VideoCore
