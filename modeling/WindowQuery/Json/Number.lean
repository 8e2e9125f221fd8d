import WindowQuery.Json.Basic

/-!
# Numbers in documents

A number that is written without point and exponent and fits 64 bits is a
whole number. Any other is a binary floating-point number, and it is read
in two steps, each with a rounding of its own: the digits, as many as fit
64 bits, make a whole number, and that is multiplied or divided by a
power of ten. So a number with many digits may come out as a neighbour of
the one nearest to it.

Numbers are written with their shortest decimal, positionally from
0.00001 to below 10¹⁶ and with an exponent otherwise.
-/

namespace WindowQuery

namespace Json

/-- **How numbers are written**: an exponent from 10¹⁶ on and below 10⁻⁵, a
`.0` after whole numbers, a tie to the even digit. -/
def numberLayout : Binary64.Layout := ⟨fun e => -5 ≤ e && e < 16, true, .even⟩

/-- A number as it is spelled. -/
structure Literal where
  /-- Whether it begins with a minus sign. -/
  negative : Bool
  /-- The digits before the point. -/
  whole : List Char
  /-- The digits after the point. -/
  fraction : List Char
  /-- The exponent: whether it is negative, and its digits. -/
  exponent : Option (Bool × List Char)

namespace Literal

/-- Digits gathered into a whole number of 64 bits, with the power of ten
that it is still to be scaled by. -/
structure Gathered where
  /-- The number so far. -/
  significand : Nat
  /-- The power of ten. -/
  exponent : Int

/-- The number with one more digit, if that fits. -/
def Gathered.extend? (g : Gathered) (digit : Char) : Option Nat :=
  let n := g.significand * 10 + (digit.toNat - '0'.toNat)
  if n < UInt64.size then some n else none

/-- Gathers the digits before the point; from the first that does not fit on
they count only as places. -/
def gatherWhole (g : Gathered) : List Char → Gathered
  | [] => g
  | d :: rest =>
    match g.extend? d with
    | some n => gatherWhole ⟨n, g.exponent⟩ rest
    | none => ⟨g.significand, g.exponent + (rest.length + 1 : Nat)⟩

/-- Gathers the digits after the point, up to the first that does not fit. -/
def gatherFraction (g : Gathered) : List Char → Gathered
  | [] => g
  | d :: rest =>
    match g.extend? d with
    | some n => gatherFraction ⟨n, g.exponent - 1⟩ rest
    | none => g

/-- The largest power of ten that is a finite number. -/
def greatestPower : Nat := 308

/-- A power of ten. -/
def power (k : Nat) : Binary64 := .ofDecimal false 1 k

/-- Divides by a power of ten, in steps of the largest one. -/
def scaleDown (x : Binary64) (k : Nat) : Binary64 :=
  if x.magnitude = 0 then x
  else if k ≤ greatestPower then x.div (power k)
  else scaleDown (x.div (power greatestPower)) (k - greatestPower)
termination_by k
decreasing_by simp only [greatestPower] at *; omega

/-- A whole number times a power of ten; nothing if it is too large. -/
def scale? (significand : Nat) (exponent : Int) : Option Binary64 :=
  let x := Binary64.ofNat significand
  if exponent < 0 then some (scaleDown x exponent.natAbs)
  else if significand = 0 then some x
  else if greatestPower < exponent.toNat then none
  else
    let y := x.mul (power exponent.toNat)
    if y.isFinite then some y else none

/-- The largest exponent that is read as written. -/
def greatestExponent : Nat := Nat.pow 2 31 - 1

/-- The literal as a floating-point number without its sign. -/
def unsignedReal? (l : Literal) : Option Binary64 :=
  let g := gatherFraction (gatherWhole ⟨0, 0⟩ l.whole) l.fraction
  match l.exponent with
  | none => scale? g.significand g.exponent
  | some (negative, digits) =>
    let e := Numeral.value digits
    if greatestExponent < e then
      if negative || g.significand == 0 then some (.zero false) else none
    else scale? g.significand (if negative then g.exponent - e else g.exponent + e)

/-- The literal as a floating-point number. -/
def real (l : Literal) : Json :=
  match l.unsignedReal? with
  | some x => .real (if l.negative then x.neg else x)
  | none => .unreadable

/-- **What a literal stands for.** Minus zero is no whole number. -/
def toJson (l : Literal) : Json :=
  let n := Numeral.value l.whole
  if l.fraction.isEmpty && l.exponent.isNone then
    if l.negative then
      if 0 < n ∧ n ≤ Nat.pow 2 63 then .integer (-(n : Int)) else l.real
    else if n < UInt64.size then .integer n else l.real
  else l.real

end Literal

/-! ## Spelling -/

/-- The digits before the point: a lone zero, or a run that begins with
another digit. -/
def wholeDigits : List Char → List Char × List Char
  | '0' :: rest => (['0'], rest)
  | cs => (cs.takeWhile Char.isDigit, cs.dropWhile Char.isDigit)

/-- The fraction, if there is one; it has a digit. -/
def fractionPart? : List Char → Option (List Char × List Char)
  | '.' :: rest =>
    let digits := rest.takeWhile Char.isDigit
    if digits.isEmpty then none else some (digits, rest.dropWhile Char.isDigit)
  | cs => some ([], cs)

/-- The sign of an exponent. -/
def exponentSign : List Char → Bool × List Char
  | '-' :: rest => (true, rest)
  | '+' :: rest => (false, rest)
  | cs => (false, cs)

/-- The exponent, if there is one; it has a digit. -/
def exponentPart? : List Char → Option (Option (Bool × List Char) × List Char)
  | [] => some (none, [])
  | c :: rest =>
    if c = 'e' ∨ c = 'E' then
      let (negative, cs) := exponentSign rest
      let digits := cs.takeWhile Char.isDigit
      if digits.isEmpty then none
      else some (some (negative, digits), cs.dropWhile Char.isDigit)
    else some (none, c :: rest)

/-- The minus sign of a number. -/
def minusSign : List Char → Bool × List Char
  | '-' :: rest => (true, rest)
  | cs => (false, cs)

/-- **The number at the front of a text** and what follows it. -/
def literal? (cs : List Char) : Option (Literal × List Char) :=
  let (negative, unsigned) := minusSign cs
  let (whole, afterWhole) := wholeDigits unsigned
  if whole.isEmpty then none
  else
    (fractionPart? afterWhole).bind (fun (fraction, afterFraction) =>
      (exponentPart? afterFraction).map (fun (exponent, rest) =>
        (⟨negative, whole, fraction, exponent⟩, rest)))

/-! A number takes at least one character. -/

theorem length_wholeDigits_lt {cs : List Char} (h : (wholeDigits cs).1.isEmpty = false) :
    (wholeDigits cs).2.length < cs.length := by
  unfold wholeDigits at *
  split
  · simp
  · next hc =>
    have hne : cs.takeWhile Char.isDigit ≠ [] := by
      split at h
      · next r => exact absurd rfl (hc r)
      · simpa using h
    have hlen := congrArg List.length
      (List.takeWhile_append_dropWhile (p := Char.isDigit) (l := cs))
    have hpos := List.length_pos_iff.2 hne
    simp only [List.length_append] at hlen
    dsimp only
    omega

theorem length_fractionPart?_le {cs digits rest : List Char}
    (h : fractionPart? cs = some (digits, rest)) : rest.length ≤ cs.length := by
  unfold fractionPart? at h
  split at h
  · next r =>
    have := (List.dropWhile_suffix (l := r) Char.isDigit).length_le
    dsimp only at h
    split at h
    · simp at h
    · obtain ⟨-, rfl⟩ := Prod.mk.inj (Option.some.inj h)
      simp only [List.length_cons]
      omega
  · obtain ⟨-, rfl⟩ := Prod.mk.inj (Option.some.inj h)
    exact Nat.le_refl _

theorem length_exponentSign_le (cs : List Char) : (exponentSign cs).2.length ≤ cs.length := by
  unfold exponentSign
  split <;> simp

theorem length_exponentPart?_le {cs rest : List Char} {e : Option (Bool × List Char)}
    (h : exponentPart? cs = some (e, rest)) : rest.length ≤ cs.length := by
  unfold exponentPart? at h
  split at h
  · obtain ⟨-, rfl⟩ := Prod.mk.inj (Option.some.inj h)
    exact Nat.le_refl _
  · next c r =>
    split at h
    · have h1 := length_exponentSign_le r
      have h2 := (List.dropWhile_suffix (l := (exponentSign r).2) Char.isDigit).length_le
      dsimp only at h
      split at h
      · simp at h
      · obtain ⟨-, rfl⟩ := Prod.mk.inj (Option.some.inj h)
        simp only [List.length_cons]
        omega
    · obtain ⟨-, rfl⟩ := Prod.mk.inj (Option.some.inj h)
      exact Nat.le_refl _

theorem length_minusSign_le (cs : List Char) : (minusSign cs).2.length ≤ cs.length := by
  unfold minusSign
  split <;> simp

theorem length_lt_of_literal? {cs rest : List Char} {l : Literal}
    (h : literal? cs = some (l, rest)) : rest.length < cs.length := by
  unfold literal? at h
  dsimp only at h
  split at h
  · simp at h
  · next hw =>
    obtain ⟨⟨fraction, afterFraction⟩, hf, h⟩ := Option.bind_eq_some_iff.1 h
    obtain ⟨⟨exponent, r⟩, he, h⟩ := Option.map_eq_some_iff.1 h
    obtain ⟨-, rfl⟩ := Prod.mk.inj h
    have h0 := length_minusSign_le cs
    have h1 := length_wholeDigits_lt (Bool.not_eq_true _ ▸ hw)
    have h2 := length_fractionPart?_le hf
    have h3 := length_exponentPart?_le he
    dsimp only at h2 h3 ⊢
    omega

/-! ## Writing -/

/-- The text of a number; what is not finite is `null`. -/
def realText (x : Binary64) : List Char :=
  if x.isFinite then Binary64.finiteText numberLayout x else ['n', 'u', 'l', 'l']

/-- The text of a whole number. -/
def integerText (n : Int) : List Char := (Numeral.intText n).toList

end Json

end WindowQuery
