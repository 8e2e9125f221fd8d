import WindowQuery.Frame.Document
import WindowQuery.Store.Table
import WindowQuery.Text.Hexadecimal

/-!
# Documents of tables

A table is kept in a file as a JSON document. Bytes, and texts too, are
written in hexadecimal, and a floating-point number by its bits, so that
every cell is read back as it was.
-/

namespace WindowQuery

namespace StoredCell

/-- Reads bytes. -/
def bytes? (j : Json) : Option ByteArray := j.string?.bind Hexadecimal.decode?

/-- The document of a cell. -/
def toJson : StoredCell → Json
  | null => .null
  | integer n => .integer n.toInt
  | real x => .object [("real", .integer x.bits)]
  | text bytes => .object [("text", .string (Hexadecimal.encode bytes))]
  | blob bytes => .object [("blob", .string (Hexadecimal.encode bytes))]

/-- Reads the document of a cell. -/
def ofJson? : Json → Option StoredCell
  | .null => some null
  | .integer n => (Numeral.word? n).map integer
  | .object [("real", value)] =>
    value.natural?.map (fun bits => real (.ofBits (UInt64.ofNat bits)))
  | .object [("text", value)] => (bytes? value).map text
  | .object [("blob", value)] => (bytes? value).map blob
  | _ => none

end StoredCell

namespace StoredTable

/-- **The document of a table.** -/
def toJson (t : StoredTable) : Json :=
  .object [("columns", .array (t.headers.map Header.toJson)),
    ("rows", .array (t.rows.map (fun row => .array (row.map StoredCell.toJson)))),
    ("failsAt", t.failsAt.elim .null (fun n => .integer n))]

/-- Reads the document of a table. -/
def ofJson? (j : Json) : Option StoredTable := do
  let r ← j.record? ["columns", "rows", "failsAt"] false
  return ⟨← r.required? "columns" (Json.items? Header.ofJson?),
    ← r.required? "rows" (Json.items? (Json.items? StoredCell.ofJson?)),
    ← r.optional? "failsAt" Json.natural?⟩

end StoredTable

end WindowQuery
