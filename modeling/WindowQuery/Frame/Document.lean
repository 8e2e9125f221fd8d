import WindowQuery.FillPolicy
import WindowQuery.Frame.Basic
import WindowQuery.Instant.Reader
import WindowQuery.Json.Record
import WindowQuery.ResultFormat
import WindowQuery.TimeWindow

/-!
# Documents of frames

The JSON form of a frame and of what it is made of. The entries of a
column stand beside their type, so that texts which are times are told
from texts; labels and the SQL that was run are left out where there are
none. Reading takes back what writing gives, except that a number which
is not finite is written as `null`.
-/

namespace WindowQuery

namespace Instant

/-- The document of an instant. -/
def toJson (t : Instant) : Json := .string t.documentText

/-- Reads the document of an instant. -/
def ofJson? (j : Json) : Option Instant := j.string?.bind (fun s => readRelaxed? s.toList)

end Instant

namespace TimeWindow

/-- **The document of a window.** -/
def toJson (w : TimeWindow) : Json := .object [("from", w.start.toJson), ("to", w.stop.toJson)]

/-- Reads the document of a window, of which either end may come first. -/
def ofJson? (j : Json) : Option TimeWindow := do
  let r ← j.record? ["from", "to"] false
  return ⟨← r.required? "from" Instant.ofJson?, ← r.required? "to" Instant.ofJson?⟩

end TimeWindow

/-! ## Choices -/

namespace ColumnType

/-- The type of a name in documents. -/
def ofTag? (tag : String) : Option ColumnType := all.find? (fun t => t.tag == tag)

end ColumnType

namespace SemanticType

/-- The document of a type. -/
def toJson (t : SemanticType) : Json := .string t.tag

/-- Reads the document of a type. -/
def ofJson? (j : Json) : Option SemanticType :=
  j.choice?.bind (fun name =>
    if name = unknown.tag then some unknown else (ColumnType.ofTag? name).map known)

end SemanticType

namespace FillPolicy

/-- All policies. -/
def all : List FillPolicy := [null, previous, zero]

/-- The name of a policy in documents. -/
def tag : FillPolicy → String
  | null => "null"
  | previous => "previous"
  | zero => "value_zero"

/-- The document of a policy. -/
def toJson (f : FillPolicy) : Json := .string f.tag

/-- Reads the document of a policy. -/
def ofJson? (j : Json) : Option FillPolicy :=
  j.choice?.bind (fun name => all.find? (fun f => f.tag == name))

end FillPolicy

namespace ResultFormat

/-- The document of a format. -/
def toJson (f : ResultFormat) : Json := .string f.display

/-- Reads the document of a format. -/
def ofJson? (j : Json) : Option ResultFormat := j.choice?.bind ofName?

end ResultFormat

namespace Header

/-- The document of a header. -/
def toJson (h : Header) : Json :=
  .object [("name", .string h.name), ("type_name", .string h.typeName)]

/-- Reads the document of a header. -/
def ofJson? (j : Json) : Option Header := do
  let r ← j.record? ["name", "type_name"] false
  return ⟨← r.required? "name" Json.string?, ← r.required? "type_name" Json.string?⟩

end Header

/-! ## Columns -/

namespace ColumnType

/-- The document of an entry. -/
def entryToJson : (t : ColumnType) → t.Entry → Json
  | time, x => Instant.toJson x
  | integer, x => .integer (Int64.toInt x)
  | float, x => if Binary64.isFinite x then .real x else .null
  | string, x => .string x
  | boolean, x => .bool x

/-- Reads the document of an entry. -/
def entryOfJson? : (t : ColumnType) → Json → Option t.Entry
  | time => Instant.ofJson?
  | integer => Json.word?
  | float => Json.number?
  | string => Json.string?
  | boolean => Json.bool?

end ColumnType

namespace Values

/-- **The document of typed entries.** -/
def toJson (v : Values) : Json :=
  .object [("type", .string v.type.tag),
    ("values", .array (v.entries.map (fun e => e.elim .null v.type.entryToJson)))]

/-- Reads the document of typed entries; a list gives both parts. -/
def ofJson? (j : Json) : Option Values := do
  let r ← j.record? ["type", "values"] false
  let type ← r.required? "type" (fun t => t.choice?.bind ColumnType.ofTag?)
  return ⟨type, ← r.required? "values" (Json.items? (Json.nullable? type.entryOfJson?))⟩

end Values

namespace Column

/-- **The document of a column.** -/
def toJson (c : Column) : Json :=
  let labels := if c.labels.isEmpty then [] else
    [("labels", Json.object (c.labels.entries.map (fun e => (e.1, .string e.2))))]
  .object ([("name", .string c.name)] ++ labels ++ [("values", c.values.toJson)])

/-- Reads the document of a column. -/
def ofJson? (j : Json) : Option Column := do
  let r ← j.record? ["name", "labels", "values"] false
  return ⟨← r.required? "name" Json.string?,
    ← r.withDefault? "labels" (Json.keyed? Json.string?) .empty,
    ← r.required? "values" Values.ofJson?⟩

end Column

/-! ## Frames -/

namespace Frame

/-- The document of what is known of a frame besides its columns. -/
def metaToJson (query : Option String) : Json :=
  .object (query.elim [] (fun sql => [("executedQueryString", .string sql)]))

/-- Reads the document of what is known of a frame besides its columns. -/
def metaOfJson? (j : Json) : Option (Option String) := do
  let r ← j.record? ["executedQueryString"] false
  r.optional? "executedQueryString" Json.string?

/-- **The document of a frame.** -/
def toJson (f : Frame) : Json :=
  .object [("name", .string f.name), ("columns", .array (f.columns.map Column.toJson)),
    ("meta", metaToJson f.query)]

/-- Reads the document of a frame. -/
def ofJson? (j : Json) : Option Frame := do
  let r ← j.record? ["name", "columns", "meta"] false
  return ⟨← r.required? "name" Json.string?,
    ← r.required? "columns" (Json.items? Column.ofJson?),
    ← r.withDefault? "meta" metaOfJson? none⟩

end Frame

end WindowQuery
