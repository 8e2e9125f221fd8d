import WindowQuery.Calendar
import WindowQuery.Json.Basic
import WindowQuery.Text.Reader

/-!
# Scalars of TOML

What a TOML document holds at its leaves: texts in four kinds of quotes,
numbers, truth values, dates and times. A value becomes a `Json` leaf; a
date or a time has none, and becomes an object without entries.
-/

namespace WindowQuery.Toml

open Text (Reader)
open Text.Reader

/-! ## Space -/

/-- Blanks within a line. -/
def isGap (c : Char) : Bool := c == ' ' || c == '\t'

/-- Whether a character may stand in a line at all. -/
def isLineChar (c : Char) : Bool := c == '\t' || (0x20 ≤ c.toNat && c != '\x7f')

/-- Skips blanks within a line. -/
def gap : Reader Unit := skipWhile isGap

/-- Takes the end of a line. -/
def newline : Reader Unit := char '\n' <|> string "\r\n"

/-- Takes a comment, up to the end of its line. -/
def comment : Reader Unit := do
  char '#'
  skipWhile isLineChar

/-- Takes what may stand after a statement in its line. -/
def lineEnd : Reader Unit := do
  gap
  let _ ← optional comment
  newline <|> atEnd

/-- Skips blanks, comments and ends of lines. -/
def spread : Reader Unit := do
  let _ ← many ((do let _ ← takeSome isGap) <|> (do let _ ← optional comment; newline))

/-! ## Texts -/

/-- Whether a character stands for itself between double quotes. -/
def isPlain (c : Char) : Bool := isLineChar c && c != '"' && c != '\\'

/-- Whether a character stands for itself between single quotes. -/
def isLiteral (c : Char) : Bool := isLineChar c && c != '\''

/-- Takes so many hexadecimal digits, which number a character. -/
def numbered (width : Nat) : Reader Char := fun cs =>
  let digits := cs.take width
  let n := Numeral.valueIn 16 digits
  if digits.length = width ∧ digits.all (fun c => (Numeral.hexValue? c).isSome)
      ∧ n.isValidChar then
    some (Char.ofNat n, cs.drop width)
  else none

/-- Takes what follows a backslash. -/
def afterBackslash : Reader Char := do
  match ← charWhere (fun _ => true) with
  | 'b' => return '\x08'
  | 'f' => return '\x0c'
  | 'n' => return '\n'
  | 'r' => return '\r'
  | 't' => return '\t'
  | '"' => return '"'
  | '\\' => return '\\'
  | 'u' => numbered 4
  | 'U' => numbered 8
  | _ => failure

/-- Takes an escape. -/
def escape : Reader (List Char) := do
  char '\\'
  return [← afterBackslash]

/-- Takes a backslash at the end of a line, with all blanks and ends of lines
after it. -/
def fold : Reader (List Char) := do
  char '\\'
  gap
  newline
  let _ ← many (newline <|> (do let _ ← takeSome isGap))
  return []

/-- Takes one or two quotes that end nothing. -/
def innerQuotes (quote : Char) : Reader (List Char) := fun cs =>
  let quotes := cs.takeWhile (· == quote)
  let rest := cs.dropWhile (· == quote)
  if (quotes.length = 1 ∨ quotes.length = 2) ∧ rest ≠ [] then some (quotes, rest) else none

/-- Takes the three quotes that end a text, with up to two before them that
belong to it. -/
def closingQuotes (quote : Char) : Reader (List Char) := fun cs =>
  let quotes := cs.takeWhile (· == quote)
  if quotes.length < 3 then none
  else
    let own := min (quotes.length - 3) 2
    some (List.replicate own quote, cs.drop (own + 3))

/-- Takes the end of a line within a text. -/
def innerNewline : Reader (List Char) := do
  newline
  return ['\n']

/-- Takes a text over lines, between three quotes each, from pieces. -/
def overLines (quote : Char) (piece : Reader (List Char)) : Reader String := do
  string (String.ofList [quote, quote, quote])
  let _ ← optional newline
  let pieces ← many (piece <|> innerNewline <|> innerQuotes quote)
  let own ← closingQuotes quote
  return String.ofList (pieces.flatten ++ own)

/-- Takes a text within a line, between quotes, from pieces. -/
def withinLine (quote : Char) (piece : Reader (List Char)) : Reader String := do
  char quote
  let pieces ← many piece
  char quote
  return String.ofList pieces.flatten

/-- A text in double quotes, within its line. -/
def quotedText : Reader String := withinLine '"' (takeSome isPlain <|> escape)

/-- A text in single quotes, within its line. -/
def literalText : Reader String := withinLine '\'' (takeSome isLiteral)

/-- **Takes a text** of any kind. -/
def text : Reader String :=
  overLines '"' (takeSome isPlain <|> fold <|> escape) <|> quotedText
    <|> overLines '\'' (takeSome isLiteral) <|> literalText

/-! ## Numbers -/

/-- Takes a sign; the plus sign is the default. -/
def sign : Reader Bool := do
  let c ← optional (charWhere (fun c => c == '+' || c == '-'))
  return c == some '-'

/-- Takes digits of a class, single underscores between them. -/
def digitsOf (p : Char → Bool) : Reader (List Char) := do
  let first ← charWhere p
  let more ← many (charWhere p <|> (do char '_'; charWhere p))
  return first :: more

/-- Takes the digits of a whole number; a zero stands alone. -/
def wholeDigits : Reader (List Char) :=
  (do char '0'; return ['0']) <|> digitsOf Char.isDigit

/-- The document of a whole number that fits 64 bits. -/
def ofWhole (n : Int) : Reader Json :=
  if (Numeral.word? n).isSome then pure (.integer n) else failure

/-- Takes a whole number in another base than ten. -/
def based (mark : String) (base : Nat) (p : Char → Bool) : Reader Json := do
  string mark
  ofWhole (Numeral.valueIn base (← digitsOf p))

/-- Takes a whole number. -/
def integer : Reader Json :=
  based "0x" 16 (fun c => (Numeral.hexValue? c).isSome)
    <|> based "0o" 8 (fun c => '0' ≤ c && c ≤ '7')
    <|> based "0b" 2 (fun c => c == '0' || c == '1')
    <|> do
      let negative ← sign
      let n := Numeral.value (← wholeDigits)
      ofWhole (if negative then -(n : Int) else n)

/-- Takes the exponent of a number. -/
def exponent : Reader Int := do
  let _ ← charWhere (fun c => c == 'e' || c == 'E')
  let negative ← sign
  let n := Numeral.value (← digitsOf Char.isDigit)
  return if negative then -(n : Int) else n

/-- Takes the fraction of a number. -/
def fraction : Reader (List Char) := do
  char '.'
  digitsOf Char.isDigit

/-- Takes a number with a fraction or an exponent; it is not beyond the
largest one. -/
def decimal : Reader Json := do
  let negative ← sign
  let whole ← wholeDigits
  let digits ← optional fraction
  let power ← if digits.isSome then (do return (← optional exponent).getD 0) else exponent
  let after := digits.getD []
  let x := Binary64.ofDecimal negative (Numeral.value (whole ++ after)) (power - after.length)
  if x = .infinity false then failure
  return .real x

/-- Takes the name of a number that is not finite. -/
def named : Reader Json := do
  let negative ← sign
  (do string "inf"; return .real (.infinity negative)) <|> (do string "nan"; return .real .nan)

/-- Takes a truth value. -/
def truth : Reader Json :=
  (do string "true"; return .bool true) <|> (do string "false"; return .bool false)

/-! ## Dates and times -/

/-- Takes a number of two digits up to a greatest one. -/
def upTo (greatest : Nat) : Reader Unit := do
  if greatest < (← fixed 2) then failure

/-- Takes a date. -/
def date : Reader Unit := do
  let year ← fixed 4
  char '-'
  let month ← fixed 2
  char '-'
  let day ← fixed 2
  if ¬ (Date.mk year month day).Valid then failure

/-- Takes a time of day. -/
def timeOfDay : Reader Unit := do
  upTo 23
  char ':'
  upTo 59
  char ':'
  upTo 60
  let _ ← optional (do char '.'; let _ ← takeSome Char.isDigit)

/-- Takes an offset from universal time. -/
def offset : Reader Unit :=
  (do let _ ← charWhere (fun c => c == 'Z' || c == 'z')) <|> do
    let _ ← charWhere (fun c => c == '+' || c == '-')
    upTo 23
    char ':'
    upTo 59

/-- Takes a date, a time of day, or both with or without an offset. -/
def moment : Reader Json := do
  timeOfDay <|> do
    date
    let _ ← optional (do
      let _ ← charWhere (fun c => c == 'T' || c == 't' || c == ' ')
      timeOfDay
      optional offset)
  return .object []

/-- **Takes a scalar.** -/
def scalar : Reader Json :=
  (do return .string (← text)) <|> truth <|> moment <|> decimal <|> named <|> integer

end WindowQuery.Toml
