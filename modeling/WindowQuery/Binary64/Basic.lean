/-!
# Binary floating-point numbers

A `Binary64` is a sign and a *magnitude*: the sixty-three bits below the
sign, read as a natural number. Magnitudes are in the order of the numbers
they stand for, and adding one leads to the next number, across every
power of two up to infinity. So rounding a ratio needs no special cases:
the significand rounded to a whole number is added to the bits of its
binade, and a carry lands on the right number by itself.

All arithmetic here is exact arithmetic on ratios of natural numbers,
followed by one rounding to the nearest number, ties to the even one.
-/

namespace WindowQuery

/-- **A binary floating-point number of 64 bits.** -/
structure Binary64 where
  /-- Whether the sign bit is set. -/
  negative : Bool
  /-- The bits below the sign. -/
  magnitude : Nat
  /-- There are sixty-three of them. -/
  magnitude_lt : magnitude < Nat.pow 2 63
deriving DecidableEq

namespace Binary64

/-- The magnitude of infinity; those above it are not numbers. -/
def infinityMagnitude : Nat := 0x7FF * Nat.pow 2 52

/-- The number with a magnitude, infinity if that is too large. -/
def ofMagnitude (negative : Bool) (magnitude : Nat) : Binary64 :=
  ⟨negative, min magnitude infinityMagnitude,
    Nat.lt_of_le_of_lt (Nat.min_le_right ..) (by decide)⟩

/-- The number with the given bits. -/
def ofBits (bits : UInt64) : Binary64 :=
  ⟨Nat.pow 2 63 ≤ bits.toNat, bits.toNat % Nat.pow 2 63, Nat.mod_lt _ (by decide)⟩

/-- The bits of a number. -/
def bits (x : Binary64) : Nat := (if x.negative then Nat.pow 2 63 else 0) + x.magnitude

/-- The two zeros. -/
def zero (negative : Bool) : Binary64 := ofMagnitude negative 0

/-- The two infinities. -/
def infinity (negative : Bool) : Binary64 := ofMagnitude negative infinityMagnitude

/-- The number that stands for none. -/
def nan : Binary64 := ⟨false, 0xFFF * Nat.pow 2 51, by decide⟩

instance : Inhabited Binary64 := ⟨zero false⟩

/-- Whether it stands for no number. -/
def isNaN (x : Binary64) : Bool := infinityMagnitude < x.magnitude

/-- Whether it stands for a real number. -/
def isFinite (x : Binary64) : Bool := x.magnitude < infinityMagnitude

/-! ## What a magnitude stands for -/

/-- The whole number that the exponent scales. -/
def significand (magnitude : Nat) : Nat :=
  if magnitude < Nat.pow 2 52 then magnitude else Nat.pow 2 52 + magnitude % Nat.pow 2 52

/-- The power of two that scales it. -/
def exponent (magnitude : Nat) : Int :=
  if magnitude < Nat.pow 2 52 then -1074 else (magnitude / Nat.pow 2 52 : Nat) - 1075

/-- A whole number times a power of two, as a ratio. -/
def scaled (n : Nat) (e : Int) : Nat × Nat :=
  if 0 ≤ e then (n * Nat.pow 2 e.toNat, 1) else (n, Nat.pow 2 (-e).toNat)

/-- The absolute value of a finite number, as a ratio. -/
def ratio (x : Binary64) : Nat × Nat := scaled (significand x.magnitude) (exponent x.magnitude)

/-! ## Rounding -/

/-- A quotient rounded to the nearest whole number, a tie to the even one. -/
def roundQuotient (num den : Nat) : Nat :=
  let q := num / den
  let r := num % den
  if 2 * r < den then q else if den < 2 * r then q + 1 else q + q % 2

/-- The ratio over a power of two. -/
def overPower (num den : Nat) (e : Int) : Nat × Nat :=
  if 0 ≤ e then (num, den * Nat.pow 2 e.toNat) else (num * Nat.pow 2 (-e).toNat, den)

/-- The exponent at which the ratio has a significand of fifty-three bits, or
the least one if that is below it. -/
def exponentOf (num den : Nat) : Int :=
  let guess : Int := (Nat.log2 num : Int) - Nat.log2 den - 52
  let (n, d) := overPower num den guess
  max (-1074) (if n < d * Nat.pow 2 52 then guess - 1 else guess)

/-- **The magnitude nearest to a ratio.** -/
def nearest (num den : Nat) : Nat :=
  if num = 0 then 0
  else
    let e := exponentOf num den
    let (n, d) := overPower num den e
    min infinityMagnitude ((e + 1074).toNat * Nat.pow 2 52 + roundQuotient n d)

/-- The number nearest to a ratio. -/
def ofRatio (negative : Bool) (num den : Nat) : Binary64 :=
  ofMagnitude negative (nearest num den)

/-- The number nearest to a natural number. -/
def ofNat (n : Nat) : Binary64 := ofRatio false n 1

/-- The number nearest to a whole number. -/
def ofInt (n : Int) : Binary64 := ofRatio (n < 0) n.natAbs 1

/-! ## Arithmetic on finite numbers -/

/-- The sum of two numbers of the positive sign. -/
def add (x y : Binary64) : Binary64 :=
  let (a, b) := x.ratio
  let (c, d) := y.ratio
  ofRatio false (a * d + c * b) (b * d)

/-- The product. -/
def mul (x y : Binary64) : Binary64 :=
  let (a, b) := x.ratio
  let (c, d) := y.ratio
  ofRatio (x.negative != y.negative) (a * c) (b * d)

/-- The quotient by a number other than zero. -/
def div (x y : Binary64) : Binary64 :=
  let (a, b) := x.ratio
  let (c, d) := y.ratio
  ofRatio (x.negative != y.negative) (a * d) (b * c)

/-- The number with the other sign. -/
def neg (x : Binary64) : Binary64 := ⟨!x.negative, x.magnitude, x.magnitude_lt⟩

/-- The whole part of a finite number, the fraction cut off. -/
def truncate? (x : Binary64) : Option Int :=
  if x.isFinite then
    let (n, d) := x.ratio
    some (if x.negative then -((n / d : Nat) : Int) else (n / d : Nat))
  else none

end Binary64

end WindowQuery
