import WindowQuery.Frame.Cell
import WindowQuery.Instant.Reader

/-!
# Conversion of cells

For each column type, what entry a cell converts to, if any. Texts and
bytes are read with the blanks around them skipped, bytes only if they
encode a text; a column of texts takes anything and takes bytes
leniently.
-/

namespace WindowQuery

namespace Cell

/-- The text of a cell that can be read: a text, or bytes that encode one. -/
def readable? : Cell → Option (List Char)
  | text s => some (Text.trim s.toList)
  | bytes b => (Text.decode? b).map (fun s => Text.trim s.toList)
  | _ => none

/-- The whole part of a number that fits 64 bits. -/
def wholePart? (x : Binary64) : Option Int64 := x.truncate?.bind Numeral.word?

/-- The instant of a cell; numbers are seconds from the epoch. -/
def toTime? : Cell → Option Instant
  | time t => some t
  | int n => Instant.ofEpoch? n.toInt
  | float x => (wholePart? x).bind (fun n => Instant.ofEpoch? n.toInt)
  | text s => Instant.readAbsolute? (Text.trim s.toList)
  | bytes b => (bytes b).readable?.bind Instant.readAbsolute?
  | bool _ => none
  | null => none

/-- The whole number of a cell. -/
def toInteger? : Cell → Option Int64
  | int n => some n
  | float x => wholePart? x
  | text s => Numeral.int64? (Text.trim s.toList)
  | bytes b => (bytes b).readable?.bind Numeral.int64?
  | bool b => some (if b then 1 else 0)
  | time _ => none
  | null => none

/-- The floating-point number of a cell. -/
def toFloat? : Cell → Option Binary64
  | float x => some x
  | int n => some (.ofInt n.toInt)
  | text s => Binary64.read? (Text.trim s.toList)
  | bytes b => (bytes b).readable?.bind Binary64.read?
  | bool b => some (.ofNat (if b then 1 else 0))
  | time _ => none
  | null => none

/-- The spellings of true. -/
def trueNames : List String := ["1", "t", "T", "TRUE", "true", "True"]

/-- The spellings of false. -/
def falseNames : List String := ["0", "f", "F", "FALSE", "false", "False"]

/-- The truth value of a text. -/
def truth? (s : String) : Option Bool :=
  if trueNames.contains s then some true
  else if falseNames.contains s then some false
  else none

/-- The truth value of a cell; a number has one if its text has. -/
def toBoolean? : Cell → Option Bool
  | bool b => some b
  | int n => truth? (Numeral.intText n.toInt)
  | float x => truth? x.text
  | text s => truth? (Text.trimmed s)
  | bytes b => (bytes b).readable?.bind (fun cs => truth? (String.ofList cs))
  | time _ => none
  | null => none

/-- The text of a cell. -/
def toText? : Cell → Option String
  | text s => some s
  | bytes b => some (Text.decodeLossy b)
  | int n => some (Numeral.intText n.toInt)
  | float x => some x.text
  | bool b => some (if b then "true" else "false")
  | time t => some t.text
  | null => none

/-- **The entry that a cell converts to.** -/
def convert? : (t : ColumnType) → Cell → Option t.Entry
  | .time, c => c.toTime?
  | .integer, c => c.toInteger?
  | .float, c => c.toFloat?
  | .string, c => c.toText?
  | .boolean, c => c.toBoolean?

end Cell

end WindowQuery
