import VideoCore.Bits

namespace VideoCore

/-!
# Binary floating point

A floating-point number is kept as the bits of its interchange format.  Its
meaning is `mantissa * 2 ^ exponent`; every change of format decodes the bits
and rounds the exact value once, to the nearest representable number and of
two to the one with an even mantissa.
-/

/-- The integer nearest to `numerator / denominator`; of two, the even one. -/
def roundQuotient (numerator denominator : Nat) : Nat :=
  let floor := numerator / denominator
  let twice := 2 * (numerator % denominator)
  if twice < denominator then
    floor
  else if denominator < twice then
    floor + 1
  else
    floor + floor % 2

/-- The sizes of an interchange format. -/
structure FloatFormat where
  exponentBits : Nat
  fractionBits : Nat
deriving DecidableEq

/-- What the bits of a floating-point number mean. -/
inductive FloatMeaning
  /-- The number `mantissa * 2 ^ exponent` with a sign. -/
  | finite (negative : Bool) (mantissa : Nat) (exponent : Int)
  | infinite (negative : Bool)
  /-- No number; the fraction bits of `format` are kept. -/
  | undefined (negative : Bool) (fraction : Nat) (format : FloatFormat)
deriving DecidableEq

namespace FloatFormat

/-- The four-byte format. -/
def single : FloatFormat :=
  ⟨8, 23⟩

/-- The eight-byte format. -/
def double : FloatFormat :=
  ⟨11, 52⟩

/-- The exponent of the last place of the smallest numbers. -/
def leastExponent (format : FloatFormat) : Int :=
  2 - 2 ^ (format.exponentBits - 1) - format.fractionBits

/-- The biased exponent that marks infinities and undefined values. -/
def specialExponent (format : FloatFormat) : Nat :=
  2 ^ format.exponentBits - 1

/-- Read the bits of a number. -/
def decode
    (format : FloatFormat)
    (bits : Nat) : FloatMeaning :=
  let fraction := bits % 2 ^ format.fractionBits
  let biased := bits / 2 ^ format.fractionBits % 2 ^ format.exponentBits
  let negative :=
    bits / 2 ^ (format.fractionBits + format.exponentBits) % 2 == 1
  if biased = format.specialExponent then
    if fraction = 0 then
      .infinite negative
    else
      .undefined negative fraction format
  else if biased = 0 then
    .finite negative fraction format.leastExponent
  else
    .finite negative (2 ^ format.fractionBits + fraction)
      (format.leastExponent + biased - 1)

/--
Put together sign, biased exponent and fraction; a fraction that carries raises
the exponent.
-/
def pack
    (format : FloatFormat)
    (negative : Bool)
    (biased fraction : Nat) : Nat :=
  (if negative then 2 ^ (format.fractionBits + format.exponentBits) else 0) +
    biased * 2 ^ format.fractionBits + fraction

/--
The biased exponent and fraction nearest to `mantissa * 2 ^ exponent`, in one
number.
-/
def roundMagnitude
    (format : FloatFormat)
    (mantissa : Nat)
    (exponent : Int) : Nat :=
  if mantissa = 0 then
    0
  else
    let target := max format.leastExponent
      (exponent + mantissa.log2 - format.fractionBits)
    let rounded :=
      if target ≤ exponent then
        mantissa * 2 ^ (exponent - target).toNat
      else
        roundQuotient mantissa (2 ^ (target - exponent).toNat)
    (target - format.leastExponent).toNat * 2 ^ format.fractionBits + rounded

/--
The bits nearest to a meaning; `none` if a finite number is too large for the
format.
-/
def encode? (format : FloatFormat) : FloatMeaning → Option Nat
  | .infinite negative =>
      some (format.pack negative format.specialExponent 0)
  | .undefined negative fraction source =>
      let quiet := 2 ^ (format.fractionBits - 1)
      let kept :=
        fraction * 2 ^ format.fractionBits / 2 ^ source.fractionBits % quiet
      some (format.pack negative format.specialExponent (quiet + kept))
  | .finite negative mantissa exponent =>
      let magnitude := format.roundMagnitude mantissa exponent
      if magnitude < format.specialExponent * 2 ^ format.fractionBits then
        some (format.pack negative 0 magnitude)
      else
        none

end FloatFormat

/-- The bits of the eight-byte number equal to a four-byte number. -/
def widen (bits : Nat) : UInt64 :=
  UInt64.ofNat
    ((FloatFormat.double.encode? (FloatFormat.single.decode bits)).getD 0)

/--
The bits of the four-byte number nearest to an eight-byte number, unless it is
too large.
-/
def narrow? (bits : UInt64) : Option Nat :=
  FloatFormat.single.encode? (FloatFormat.double.decode bits.toNat)

/--
The bits of the eight-byte number nearest to an integer, unless it is too large.
-/
def doubleOfInt? (value : Int) : Option UInt64 :=
  (FloatFormat.double.encode? (.finite (value < 0) value.natAbs 0)).map
    UInt64.ofNat

namespace FloatMeaning

/-- The same number divided by a power of two. -/
def scaleDown (places : Nat) : FloatMeaning → FloatMeaning
  | .finite negative mantissa exponent =>
      .finite negative mantissa (exponent - places)
  | special => special

/-- The integer part, towards zero; `none` if there is none. -/
def truncate? : FloatMeaning → Option Int
  | .finite negative mantissa exponent =>
      let magnitude :=
        if 0 ≤ exponent then
          mantissa * 2 ^ exponent.toNat
        else
          mantissa / 2 ^ (-exponent).toNat
      some (if negative then -(magnitude : Int) else magnitude)
  | _ => none

/-- Whether a number is exactly an integer. -/
def isExactly (value : Int) : FloatMeaning → Bool
  | .finite negative mantissa exponent =>
      let signed : Int := if negative then -mantissa else mantissa
      if 0 ≤ exponent then
        signed * 2 ^ exponent.toNat == value
      else
        signed == value * 2 ^ (-exponent).toNat
  | _ => false

end FloatMeaning

/-- The bits of a number of sixteenths, given the bits of its numerator. -/
def sixteenths (bits : UInt64) : UInt64 :=
  UInt64.ofNat ((FloatFormat.double.encode?
    ((FloatFormat.double.decode bits.toNat).scaleDown 4)).getD 0)

end VideoCore
