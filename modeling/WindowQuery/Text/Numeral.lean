/-!
# Decimal numerals

Whole numbers written with the ASCII digits. A numeral has at least one
digit and may begin with zeros; a signed numeral may carry one sign of
either kind. Numerals that stand for 64-bit words are refused when the
number does not fit.
-/

namespace WindowQuery.Numeral

/-- The number that a run of digits stands for. -/
def value (digits : List Char) : Nat := Nat.ofDigitChars 10 digits 0

/-- The digits of a number, without leading zeros. -/
def digits (n : Nat) : List Char := Nat.toDigits 10 n

/-- **Reading undoes writing.** -/
@[simp] theorem value_digits (n : Nat) : value (digits n) = n :=
  Nat.ofDigitChars_ten_toDigits

/-- The digits of a number with zeros in front up to the given width. -/
def padded (width n : Nat) : List Char :=
  List.replicate (width - (digits n).length) '0' ++ digits n

/-- The value of a hexadecimal digit in either case. -/
def hexValue? (c : Char) : Option Nat :=
  if '0' ≤ c ∧ c ≤ '9' then some (c.toNat - '0'.toNat)
  else if 'a' ≤ c ∧ c ≤ 'f' then some (c.toNat - 'a'.toNat + 10)
  else if 'A' ≤ c ∧ c ≤ 'F' then some (c.toNat - 'A'.toNat + 10)
  else none

/-- The number that digits stand for in a base up to sixteen; what is no digit
is passed over. -/
def valueIn (base : Nat) (digits : List Char) : Nat :=
  (digits.filterMap hexValue?).foldl (fun n d => n * base + d) 0

/-- Reads a natural number. -/
def nat? (cs : List Char) : Option Nat :=
  if cs ≠ [] ∧ cs.all Char.isDigit then some (value cs) else none

/-- Reads a whole number with an optional sign. -/
def int? : List Char → Option Int
  | '-' :: cs => (nat? cs).map (fun n => -(n : Int))
  | '+' :: cs => (nat? cs).map Int.ofNat
  | cs => (nat? cs).map Int.ofNat

/-- The signed word that holds a whole number, if one does. -/
def word? (n : Int) : Option Int64 :=
  if Int64.minValue.toInt ≤ n ∧ n ≤ Int64.maxValue.toInt then some (Int64.ofInt n) else none

/-- Reads a signed 64-bit word. -/
def int64? (cs : List Char) : Option Int64 := (int? cs).bind word?

/-- Reads an unsigned 64-bit number; a plus sign is allowed, a minus sign is
not. -/
def nat64? (cs : List Char) : Option Nat :=
  let digits := match cs with
    | '+' :: rest => rest
    | _ => cs
  (nat? digits).filter (· < UInt64.size)

/-- The text of a whole number. -/
def intText (n : Int) : String :=
  match n with
  | .ofNat k => String.ofList (digits k)
  | .negSucc k => String.ofList ('-' :: digits (k + 1))

/-- The text of a natural number. -/
def natText (n : Nat) : String := String.ofList (digits n)

end WindowQuery.Numeral
