import WindowQuery.Instant.Basic

/-!
# Texts of instants

An instant is written as date, `T`, time and `Z`. Years from 0 to 9999
have four digits, others a sign and at least four. A leap second is
second 60. The fraction of the second comes in two forms: all its digits
up to the last that is not zero, or three, six or nine digits, as few as
hold it.
-/

namespace WindowQuery

namespace Instant

/-- The text of a year. -/
def yearText (year : Int) : List Char :=
  if 0 ≤ year ∧ year ≤ 9999 then Numeral.padded 4 year.toNat
  else (if year < 0 then '-' else '+') :: Numeral.padded 4 year.natAbs

/-- Date and time to the second. -/
def baseText (r : Reading) : List Char :=
  yearText r.date.year ++ '-' :: Numeral.padded 2 r.date.month ++ '-' :: Numeral.padded 2 r.date.day
    ++ 'T' :: Numeral.padded 2 r.hour ++ ':' :: Numeral.padded 2 r.minute
    ++ ':' :: Numeral.padded 2 r.second

/-- A fraction of a second with no more digits than it needs. -/
def trimmedFraction (nanos : Nat) : List Char :=
  if nanos = 0 then []
  else '.' :: ((Numeral.padded 9 nanos).reverse.dropWhile (· == '0')).reverse

/-- A fraction of a second in whole groups of three digits. -/
def groupedFraction (nanos : Nat) : List Char :=
  if nanos = 0 then []
  else if nanos % 1000000 = 0 then '.' :: Numeral.padded 3 (nanos / 1000000)
  else if nanos % 1000 = 0 then '.' :: Numeral.padded 6 (nanos / 1000)
  else '.' :: Numeral.padded 9 nanos

/-- **The text of an instant** in SQL and in tables. -/
def chars (t : Instant) : List Char :=
  baseText t.reading ++ trimmedFraction t.reading.nanos ++ ['Z']

@[inherit_doc chars]
def text (t : Instant) : String := String.ofList t.chars

/-- **The text of an instant in documents.** -/
def documentChars (t : Instant) : List Char :=
  baseText t.reading ++ groupedFraction t.reading.nanos ++ ['Z']

@[inherit_doc documentChars]
def documentText (t : Instant) : String := String.ofList t.documentChars

end Instant

end WindowQuery
