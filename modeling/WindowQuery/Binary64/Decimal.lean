import WindowQuery.Binary64.Basic

/-!
# Decimal forms of binary numbers

A decimal is a whole number times a power of ten. Every decimal has a
nearest binary number; in the other direction a binary number has a
*shortest* decimal, the one with the fewest digits among those whose
nearest binary number it is. Of several such decimals of the same length
the nearest is taken; two equally near ones are told apart by a rule that
belongs to the format that is written.
-/

namespace WindowQuery

namespace Binary64

/-- The number of decimal digits, one for zero. -/
def decimalLength (n : Nat) : Nat := (Nat.toDigits 10 n).length

/-- **The magnitude nearest to a decimal.** Far beyond the largest number it
is infinity and far below the least one zero, whatever the digits. -/
def magnitudeOfDecimal (digits : Nat) (exponent : Int) : Nat :=
  let point := exponent + decimalLength digits
  if digits = 0 ∨ point < -330 then 0
  else if 310 < point then infinityMagnitude
  else if 0 ≤ exponent then nearest (digits * Nat.pow 10 exponent.toNat) 1
  else nearest digits (Nat.pow 10 (-exponent).toNat)

/-- The number nearest to a decimal. -/
def ofDecimal (negative : Bool) (digits : Nat) (exponent : Int) : Binary64 :=
  ofMagnitude negative (magnitudeOfDecimal digits exponent)

/-- Which of two equally near decimals is taken. -/
inductive Tie where
  /-- The one farther from zero. -/
  | away
  /-- The one with an even last digit. -/
  | even
deriving DecidableEq

/-- The position of the decimal point of a positive ratio: the least power
of ten above it. -/
def pointOf (num den : Nat) : Int :=
  if den ≤ num then (decimalLength (num / den) : Nat)
  else 1 - (decimalLength ((num + den - 1) / num - 1) : Nat)

/-- The ratio over a power of ten. -/
def overTen (num den : Nat) (e : Int) : Nat × Nat :=
  if 0 ≤ e then (num, den * Nat.pow 10 e.toNat) else (num * Nat.pow 10 (-e).toNat, den)

/-- The decimal on the grid of an exponent that reads back as the number: one
of the two neighbours of its value there. -/
def onGrid? (tie : Tie) (magnitude : Nat) (e : Int) : Option Nat :=
  let (num, den) := scaled (significand magnitude) (exponent magnitude)
  let (n, d) := overTen num den e
  let low := n / d
  let rest := n % d
  let reads (digits : Nat) := magnitudeOfDecimal digits e == magnitude
  let upper := d < 2 * rest || (2 * rest == d && (tie == .away || low % 2 == 1))
  match reads low, reads (low + 1) with
  | true, true => some (if upper then low + 1 else low)
  | true, false => some low
  | false, true => some (low + 1)
  | false, false => none

/-- A written decimal: `0.d₁d₂…` times ten to the power of `point`. -/
structure Digits where
  /-- The digits, neither starting nor ending in a zero unless there is
  only one. -/
  digits : List Char
  /-- How many of them stand before the point. -/
  point : Int

/-- **The shortest decimal** of a finite magnitude. Seventeen digits always
suffice. -/
def shortest (tie : Tie) (magnitude : Nat) : Digits :=
  if magnitude = 0 then ⟨['0'], 1⟩
  else
    let (num, den) := scaled (significand magnitude) (exponent magnitude)
    let point := pointOf num den
    let found := (List.range 17).findSome? (fun n =>
      let e := point - ((n + 1 : Nat) : Int)
      (onGrid? tie magnitude e).map (fun digits => (digits, e)))
    match found with
    | some (value, e) =>
      let written := Nat.toDigits 10 value
      let kept := (written.reverse.dropWhile (· == '0')).reverse
      ⟨kept, e + written.length⟩
    | none => ⟨['0'], 1⟩

end Binary64

end WindowQuery
