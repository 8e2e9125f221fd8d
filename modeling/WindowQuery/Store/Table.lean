import WindowQuery.Frame.TypeName
import WindowQuery.Instant.Reader
import WindowQuery.Query.Backend

/-!
# Stored tables

A table holds cells of five kinds under columns with declared types. Texts
are bytes, which need not encode one; in a column that is declared to hold
times a text that reads as one is handed out as an instant. A row that
cannot be read ends the rows before it. The plainest type names are kept in
capitals.
-/

namespace WindowQuery

/-- **A cell as a table holds it.** -/
inductive StoredCell where
  /-- No value. -/
  | null
  /-- A whole number. -/
  | integer (n : Int64)
  /-- A floating-point number. -/
  | real (x : Binary64)
  /-- The bytes of a text. -/
  | text (bytes : ByteArray)
  /-- Bytes. -/
  | blob (bytes : ByteArray)
deriving DecidableEq

namespace StoredCell

/-- The cell of a text, in a column of times or not. -/
def cellOfText (temporal : Bool) (s : String) : Cell :=
  if temporal then (Instant.readStored? s.toList).elim (.text s) .time else .text s

/-- **A stored cell as it is handed out.** What is no number is no value. -/
def toCell (temporal : Bool) : StoredCell → Cell
  | null => .null
  | integer n => .int n
  | real x => if x.isNaN then .null else .float x
  | text bytes => cellOfText temporal (Text.decodeLossy bytes)
  | blob bytes => .bytes bytes

end StoredCell

/-- **A table.** -/
structure StoredTable where
  /-- The headers of its columns. -/
  headers : List Header
  /-- Its rows. -/
  rows : List (List StoredCell)
  /-- The row that cannot be read, if there is one. -/
  failsAt : Option Nat
deriving DecidableEq

namespace StoredTable

/-- The type names that a table keeps in capitals, however they are declared. -/
def plainTypeNames : List String := ["ANY", "BLOB", "INT", "INTEGER", "REAL", "TEXT"]

/-- A header as a table keeps it. -/
def keptHeader (h : Header) : Header :=
  let name := h.typeName.toUpper
  if plainTypeNames.contains name then ⟨h.name, name⟩ else h

/-- Whether the declared type of a column is one of times. -/
def isTemporal (h : Header) : Bool :=
  match TypeName.resolve ⟨"", h.typeName⟩ false with
  | .ok t => t == .known .time
  | .error _ => false

/-- A row as it is handed out. -/
def cells (t : StoredTable) (row : List StoredCell) : List Cell :=
  List.zipWith (fun h c => c.toCell (isTemporal h)) t.headers row

/-- The text of the error for a row that cannot be read. -/
def overflowText : String := "integer overflow"

/-- The rows as they are handed out. -/
def scans (t : StoredTable) : List Scan :=
  match t.failsAt with
  | none => t.rows.map (fun r => .ok (t.cells r))
  | some n =>
    if n < t.rows.length then
      (t.rows.take n).map (fun r => .ok (t.cells r)) ++ [.error overflowText]
    else t.rows.map (fun r => .ok (t.cells r))

/-- **All of a table.** -/
def resultSet (t : StoredTable) : ResultSet := ⟨t.headers.map keptHeader, t.scans⟩

end StoredTable

end WindowQuery
