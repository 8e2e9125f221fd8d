import WindowQuery.Instant.Text
import WindowQuery.Text.Reader

/-!
# Reading instants

Three notations are read. The *strict* one is RFC 3339: every field has
its full width, and the offset from universal time is given. The
*relaxed* one is for documents: fields may be shorter and stand apart,
the year may have a sign and more digits, the offset may lack its colon.
The *local* ones are those of stored tables, without an offset and in
universal time. A notation fits a text if its reader leaves nothing.
-/

namespace WindowQuery

namespace Instant

open Text (Reader)
open Text.Reader

/-! ## Fields -/

/-- Takes a number of one or two digits, after blanks. -/
def short : Reader Nat := do
  blanks
  return Numeral.value (← digits 1 2)

/-- Takes a year: four digits at most, or any number of them after a
sign. -/
def year : Reader Int := do
  blanks
  let cs ← get
  match cs with
  | '-' :: rest =>
    set rest
    return -(Numeral.value (← digits 1 rest.length) : Int)
  | '+' :: rest =>
    set rest
    return (Numeral.value (← digits 1 rest.length) : Int)
  | _ => return (Numeral.value (← digits 1 4) : Int)

/-- Takes the fraction of a second, if there is one: a point and digits, of
which the first nine count. -/
def fraction : Reader Nat := do
  match ← get with
  | '.' :: rest =>
    let run := rest.takeWhile Char.isDigit
    if run.isEmpty then failure
    set (rest.dropWhile Char.isDigit)
    let kept := run.take 9
    return Numeral.value kept * Nat.pow 10 (9 - kept.length)
  | _ => return 0

/-- Takes an offset from universal time, in seconds: `Z`, or a sign, two
digits of hours, what the notation puts between, two digits of minutes.
It is less than a day. -/
def offset (between : Reader Unit) : Reader Int := do
  let c ← charWhere (fun c => ['Z', 'z', '+', '-', '\u2212'].contains c)
  if c = 'Z' ∨ c = 'z' then return 0
  let hours ← fixed 2
  between
  let minutes ← fixed 2
  if 23 < hours ∨ 59 < minutes then failure
  let seconds : Int := hours * 3600 + minutes * 60
  return if c = '+' then seconds else -seconds

/-- Takes the separator of date and time. -/
def separator : Reader Unit := do
  let _ ← charWhere (fun c => c == 'T' || c == 't' || c == ' ')

/-! ## The strict notation -/

/-- Reads RFC 3339. -/
def strict : Reader (Reading × Int) := do
  let year ← fixed 4
  char '-'
  let month ← fixed 2
  char '-'
  let day ← fixed 2
  separator
  let hour ← fixed 2
  char ':'
  let minute ← fixed 2
  char ':'
  let second ← fixed 2
  let nanos ← fraction
  let ahead ← offset (char ':')
  return (⟨⟨year, month, day⟩, hour, minute, second, nanos⟩, ahead)

/-- **Reads an instant in the strict notation.** -/
def readStrict? (cs : List Char) : Option Instant :=
  (strict.run? cs).bind (fun (r, ahead) => ofReading? r ahead)

/-- The instant of a text in the strict notation or, failing that, of the
seconds from the epoch. -/
def readAbsolute? (cs : List Char) : Option Instant :=
  match readStrict? cs with
  | some t => some t
  | none => (Numeral.int64? cs).bind (fun seconds => ofEpoch? seconds.toInt)

/-! ## The relaxed notation -/

/-- A date with fields that may be short and stand apart. -/
def looseDate : Reader Date := do
  let year ← year
  blanks
  char '-'
  let month ← short
  blanks
  char '-'
  let day ← short
  return ⟨year, month, day⟩

/-- Takes the letters of `UTC` in either case. -/
def universal : Reader Int := do
  let _ ← charWhere (fun c => c == 'U' || c == 'u')
  let _ ← charWhere (fun c => c == 'T' || c == 't')
  let _ ← charWhere (fun c => c == 'C' || c == 'c')
  return 0

/-- Reads the notation of documents. -/
def relaxed : Reader (Reading × Int) := do
  let date ← looseDate
  separator
  let hour ← short
  blanks
  char ':'
  let minute ← short
  blanks
  char ':'
  let second ← short
  let nanos ← fraction
  blanks
  let ahead ← universal <|> offset (modify (fun cs =>
    cs.dropWhile (fun c => c == ':' || Text.isBlank c)))
  blanks
  return (⟨date, hour, minute, second, nanos⟩, ahead)

/-- **Reads an instant in the relaxed notation.** -/
def readRelaxed? (cs : List Char) : Option Instant :=
  (relaxed.run? cs).bind (fun (r, ahead) => ofReading? r ahead)

/-! ## The local notations -/

/-- A date as tables hold it. -/
def tableDate : Reader Date := do
  let year ← year
  char '-'
  let month ← short
  char '-'
  let day ← short
  return ⟨year, month, day⟩

/-- Date and time to the second and beyond, with what stands between date and
time. -/
def tableSeconds (between : Reader Unit) : Reader Reading := do
  let date ← tableDate
  between
  let hour ← short
  char ':'
  let minute ← short
  char ':'
  let second ← short
  let nanos ← fraction
  return ⟨date, hour, minute, second, nanos⟩

/-- Date and time to the minute. -/
def tableMinutes : Reader Reading := do
  let date ← tableDate
  blanks
  let hour ← short
  char ':'
  let minute ← short
  return ⟨date, hour, minute, 0, 0⟩

/-- A date alone stands for its beginning. -/
def tableDay : Reader Reading := do return ⟨← tableDate, 0, 0, 0, 0⟩

/-- **Reads an instant as tables hold it**: in the strict notation, or else
in the first of the local ones that fits; blanks around it are skipped. -/
def readStored? (cs : List Char) : Option Instant :=
  let cs := Text.trim cs
  let localForms := [tableSeconds blanks, tableSeconds (char 'T'), tableMinutes, tableDay]
  readStrict? cs <|> localForms.findSome? (fun form =>
    (form.run? cs).bind (fun r => ofReading? r 0))

end Instant

end WindowQuery
