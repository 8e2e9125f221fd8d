import WindowQuery.Binary64.Decimal
import WindowQuery.Text.Numeral

/-!
# Texts of binary numbers

A *layout* says how the shortest decimal of a number is set: where
positional notation ends, whether a whole number keeps its `.0`, which of
two equally near decimals is taken. The plain layout is positional
throughout. Reading accepts positional and scientific notation and the
names of the infinities and of the value that is no number.
-/

namespace WindowQuery

namespace Binary64

/-- How a decimal is set. -/
structure Layout where
  /-- Whether a number with this decimal exponent is written without one. -/
  positional : Int → Bool
  /-- Whether a whole number in positional notation ends in `.0`. -/
  marksWhole : Bool
  /-- Which of two equally near decimals is taken. -/
  tie : Tie

/-- **The plain layout**: never an exponent, nothing after a whole number, a
tie away from zero. -/
def Layout.plain : Layout := ⟨fun _ => true, false, .away⟩

/-- The digits with the point in its place. -/
def positionalText (marksWhole : Bool) (d : Digits) : List Char :=
  if d.point ≤ 0 then '0' :: '.' :: List.replicate (-d.point).toNat '0' ++ d.digits
  else if d.digits.length ≤ d.point.toNat then
    d.digits ++ List.replicate (d.point.toNat - d.digits.length) '0'
      ++ (if marksWhole then ['.', '0'] else [])
  else d.digits.take d.point.toNat ++ '.' :: d.digits.drop d.point.toNat

/-- One digit before the point, the others after it, and the exponent with
its sign. -/
def exponentText (d : Digits) : List Char :=
  let e := d.point - 1
  let tail := d.digits.drop 1
  d.digits.take 1 ++ (if tail.isEmpty then [] else '.' :: tail)
    ++ 'e' :: (if e < 0 then '-' else '+') :: Numeral.digits e.natAbs

/-- The text of a finite number in a layout. -/
def finiteText (layout : Layout) (x : Binary64) : List Char :=
  let d := shortest layout.tie x.magnitude
  (if x.negative then ['-'] else [])
    ++ (if layout.positional (d.point - 1) then positionalText layout.marksWhole d
        else exponentText d)

/-- **The plain text of a number.** -/
def text (x : Binary64) : String :=
  if x.isNaN then "NaN"
  else if x.isFinite then String.ofList (finiteText .plain x)
  else if x.negative then "-inf" else "inf"

/-! ## Reading -/

/-- Reads the exponent of a decimal to the end of the text. -/
def readExponent? : List Char → Option Int
  | [] => some 0
  | c :: cs => if c = 'e' ∨ c = 'E' then Numeral.int? cs else none

/-- Reads a decimal to the end of the text: digits, a point with more digits,
an exponent; at least one digit before the exponent. -/
def readDecimal? (cs : List Char) : Option (Nat × Int) :=
  let whole := cs.takeWhile Char.isDigit
  let afterWhole := cs.dropWhile Char.isDigit
  let (fraction, rest) := match afterWhole with
    | '.' :: more => (more.takeWhile Char.isDigit, more.dropWhile Char.isDigit)
    | _ => ([], afterWhole)
  if whole.isEmpty && fraction.isEmpty then none
  else (readExponent? rest).map (fun e =>
    (Numeral.value (whole ++ fraction), e - (fraction.length : Nat)))

/-- Reads a number without its sign. -/
def readUnsigned? (negative : Bool) (cs : List Char) : Option Binary64 :=
  let name := String.ofList (cs.map Char.toLower)
  if name = "inf" ∨ name = "infinity" then some (infinity negative)
  else if name = "nan" then some nan
  else (readDecimal? cs).map (fun d => ofDecimal negative d.1 d.2)

/-- **Reads a number.** -/
def read? : List Char → Option Binary64
  | '-' :: cs => readUnsigned? true cs
  | '+' :: cs => readUnsigned? false cs
  | cs => readUnsigned? false cs

end Binary64

end WindowQuery
