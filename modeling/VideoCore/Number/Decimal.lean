import VideoCore.Number.Binary

namespace VideoCore.Decimal

/-!
# Decimal text of floating-point numbers

Two forms: with a fixed number of decimal places, rounded from the exact value,
and with the fewest digits that read back as the same number.
-/

/-- The digits of a number, with zeros in front up to `width` digits. -/
def digitsPadded (width value : Nat) : List Char :=
  let digits := Nat.toDigits 10 value
  List.replicate (width - digits.length) '0' ++ digits

/-- The text of `value / 10 ^ places`, all places written. -/
def pointed (places value : Nat) : String :=
  let digits := digitsPadded (places + 1) value
  let split := digits.length - places
  String.ofList (digits.take split ++ '.' :: digits.drop split)

/--
The integer nearest to `mantissa * 2 ^ exponent * scale`; of two, the even one.
-/
def scaledMagnitude
    (mantissa : Nat)
    (exponent : Int)
    (scale : Nat) : Nat :=
  if 0 ≤ exponent then
    mantissa * 2 ^ exponent.toNat * scale
  else
    roundQuotient (mantissa * scale) (2 ^ (-exponent).toNat)

/-- The text with `places` decimal places. -/
def fixed
    (places : Nat)
    (bits : UInt64) : String :=
  match FloatFormat.double.decode bits.toNat with
  | .undefined .. => "nan"
  | .infinite negative => if negative then "-inf" else "inf"
  | .finite negative mantissa exponent =>
      (if negative then "-" else "") ++
        pointed places (scaledMagnitude mantissa exponent (10 ^ places))

/-- A positive rational number. -/
structure Ratio where
  numerator : Nat
  denominator : Nat

/--
The numbers that round to one floating-point number, and that number itself.
-/
structure RoundingInterval where
  center : Ratio
  lower : Ratio
  upper : Ratio
  /-- Whether the two ends round to the number, too. -/
  closed : Bool

/-- The ratio `value * 2 ^ exponent`. -/
def Ratio.scaled
    (value : Nat)
    (exponent : Int) : Ratio :=
  if 0 ≤ exponent then
    ⟨value * 2 ^ exponent.toNat, 1⟩
  else
    ⟨value, 2 ^ (-exponent).toNat⟩

/-- Whether the first ratio is below the second. -/
def Ratio.lt (left right : Ratio) : Bool :=
  left.numerator * right.denominator < right.numerator * left.denominator

/-- The interval around `mantissa * 2 ^ exponent`, for a positive mantissa. -/
def RoundingInterval.around
    (mantissa : Nat)
    (exponent : Int) : RoundingInterval :=
  let narrowBelow :=
    mantissa = 2 ^ FloatFormat.double.fractionBits ∧
      FloatFormat.double.leastExponent < exponent
  {
    center := .scaled (4 * mantissa) (exponent - 2)
    lower :=
      .scaled (4 * mantissa - if narrowBelow then 1 else 2) (exponent - 2)
    upper := .scaled (4 * mantissa + 2) (exponent - 2)
    closed := mantissa % 2 = 0
  }

/-- Whether a ratio rounds to the number that an interval belongs to. -/
def RoundingInterval.contains
    (interval : RoundingInterval)
    (ratio : Ratio) : Bool :=
  if interval.closed then
    !ratio.lt interval.lower && !interval.upper.lt ratio
  else
    interval.lower.lt ratio && ratio.lt interval.upper

/-- A multiple of a power of ten. -/
def Ratio.ofDecimal
    (digits : Nat)
    (power : Int) : Ratio :=
  if 0 ≤ power then
    ⟨digits * 10 ^ power.toNat, 1⟩
  else
    ⟨digits, 10 ^ (-power).toNat⟩

/-- The integer part of a ratio over a power of ten. -/
def Ratio.floorDecimal
    (ratio : Ratio)
    (power : Int) : Nat :=
  if 0 ≤ power then
    ratio.numerator / (ratio.denominator * 10 ^ power.toNat)
  else
    ratio.numerator * 10 ^ (-power).toNat / ratio.denominator

/--
The multiple of `10 ^ power` in the interval that is nearest to its centre.
-/
def RoundingInterval.nearest?
    (interval : RoundingInterval)
    (power : Int) : Option Nat :=
  let below := interval.center.floorDecimal power
  let middle := Ratio.ofDecimal (2 * below + 1) power
  let center : Ratio :=
    ⟨2 * interval.center.numerator, interval.center.denominator⟩
  let preferBelow :=
    center.lt middle || (!middle.lt center && below % 2 == 0)
  let candidates :=
    if preferBelow then [below, below + 1] else [below + 1, below]
  candidates.find? fun digits =>
    0 < digits && interval.contains (Ratio.ofDecimal digits power)

/--
Digits and power of ten of the shortest decimal in the interval: the first
power, going down from `power`, that has a multiple in it.
-/
def RoundingInterval.shortest
    (interval : RoundingInterval) : Nat → Int → Nat × Int
  | 0, power => (interval.center.floorDecimal power, power)
  | attempts + 1, power =>
      match interval.nearest? power with
      | some digits => (digits, power)
      | none => interval.shortest attempts (power - 1)

/--
The number of digits before the decimal point of a ratio, for a positive ratio.
-/
def Ratio.magnitude (ratio : Ratio) : Int :=
  if ratio.denominator ≤ ratio.numerator then
    (Nat.toDigits 10 (ratio.numerator / ratio.denominator)).length
  else
    1 - ((Nat.toDigits 10
      ((ratio.denominator - 1) / ratio.numerator)).length : Int)

/--
Digits and power of ten of the shortest decimal that reads back as `mantissa * 2
^ exponent`.
-/
def shortestDigits
    (mantissa : Nat)
    (exponent : Int) : List Char × Int :=
  let interval := RoundingInterval.around mantissa exponent
  let (digits, power) := interval.shortest 20 interval.center.magnitude
  (Nat.toDigits 10 digits, power)

/-- Where the decimal point may stand in a text without an exponent. -/
structure PointRange where
  least : Int
  greatest : Int

/--
Numbers from `0.0001` up to, but not including, `10 ^ 16` are written without an
exponent.
-/
def plainPoints : PointRange :=
  ⟨-3, 16⟩

/-- An exponent of at least two digits with its sign. -/
def exponentText (exponent : Int) : String :=
  (if exponent < 0 then "e-" else "e+") ++
    String.ofList (digitsPadded 2 exponent.natAbs)

/-- The text of `digits * 10 ^ power`. -/
def layOut
    (digits : List Char)
    (power : Int) : String :=
  let point := digits.length + power
  if plainPoints.least ≤ point ∧ point ≤ plainPoints.greatest then
    if point ≤ 0 then
      "0." ++ String.ofList (List.replicate (-point).toNat '0' ++ digits)
    else if digits.length ≤ point then
      String.ofList (digits ++ List.replicate power.toNat '0') ++ ".0"
    else
      String.ofList (digits.take point.toNat ++ '.' :: digits.drop point.toNat)
  else
    let leading := String.ofList (digits.take 1)
    let rest := digits.drop 1
    leading ++
      (if rest.isEmpty then "" else "." ++ String.ofList rest) ++
      exponentText (point - 1)

/-- The text with the fewest digits that reads back as the same number. -/
def shortest (bits : UInt64) : String :=
  match FloatFormat.double.decode bits.toNat with
  | .undefined .. => "nan"
  | .infinite negative => if negative then "-inf" else "inf"
  | .finite negative mantissa exponent =>
      let magnitude :=
        if mantissa = 0 then
          "0.0"
        else
          let (digits, power) := shortestDigits mantissa exponent
          layOut digits power
      (if negative then "-" else "") ++ magnitude

end VideoCore.Decimal
