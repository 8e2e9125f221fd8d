import WindowQuery.Json.Printer
import WindowQuery.Json.Record
import WindowQuery.ResultFormat
import WindowQuery.Text.Quoted

/-!
# Query models

A model is a query as its author wrote it. It comes as part of a larger
document and is read only when the query is run, so that a model which
cannot be read fails its own query and no other. Every field may be left
out; each is a text.
-/

namespace WindowQuery

namespace Json

/-- **What a document is**, without its parts. -/
inductive Shape where
  /-- `null`. -/
  | null
  /-- A truth value. -/
  | bool (b : Bool)
  /-- A whole number. -/
  | integer (n : Int)
  /-- Another number. -/
  | real (x : Binary64)
  /-- A text. -/
  | string (s : String)
  /-- A list. -/
  | array
  /-- An object. -/
  | object
  /-- What can only be skipped. -/
  | unreadable
deriving DecidableEq

/-- What a document is. -/
def shape : Json → Shape
  | null => .null
  | bool b => .bool b
  | integer n => .integer n
  | real x => .real x
  | string s => .string s
  | array _ => .array
  | object _ => .object
  | unreadable => .unreadable

/-- What a document is, in words. -/
def Shape.describe : Shape → String
  | null => "null"
  | bool b => "boolean `" ++ (if b then "true" else "false") ++ "`"
  | integer n => "integer `" ++ Numeral.intText n ++ "`"
  | real x => "floating point `" ++ String.ofList (realText x) ++ "`"
  | string s => "string " ++ Text.quoted s
  | array => "sequence"
  | object => "map"
  | unreadable => "unreadable value"

end Json

/-- **Why a document is no model.** -/
inductive ModelError where
  /-- It is neither an object nor a list. -/
  | notARecord (found : Json.Shape)
  /-- A field is no text. -/
  | notAText (found : Json.Shape)
  /-- It is a list with too many items. -/
  | tooLong (length : Nat)
  /-- It has a field twice. -/
  | repeated (field : String)
deriving DecidableEq

/-- The error in words. -/
def ModelError.message : ModelError → String
  | notARecord found => "invalid type: " ++ found.describe ++ ", expected struct QueryModel"
  | notAText found => "invalid type: " ++ found.describe ++ ", expected a string"
  | tooLong length =>
    "invalid length " ++ Numeral.natText length ++ ", expected fewer elements in array"
  | repeated field => "duplicate field `" ++ field ++ "`"

/-- **A query as its author wrote it.** -/
structure QueryModel where
  /-- The name that the author gave it. -/
  refId : String
  /-- The SQL with its directives. -/
  rawSql : String
  /-- The format that it declares, as free text. -/
  format : String
deriving DecidableEq

namespace QueryModel

/-- The format of the result. -/
def resultFormat (m : QueryModel) : ResultFormat := .ofDeclared m.format

/-- The names of the fields, in order. -/
def fieldNames : List String := ["refId", "rawSql", "format"]

/-- The fields of a model with their names. -/
def fields (m : QueryModel) : List (String × Json) :=
  [("refId", .string m.refId), ("rawSql", .string m.rawSql), ("format", .string m.format)]

/-- The document of a model. -/
def toJson (m : QueryModel) : Json := .object m.fields

/-- The document of a model as a free-form part of a larger one, with its keys
in order. -/
def toFreeForm (m : QueryModel) : Json := .object (Keyed.ofList m.fields).entries

/-- A field, which is a text. -/
def readText (field : String × Json) : Except ModelError (String × String) :=
  match field.2 with
  | .string s => .ok (field.1, s)
  | other => .error (.notAText other.shape)

/-- The model with the given fields, empty where one is missing. -/
def ofFields (fields : List (String × String)) : QueryModel :=
  ⟨(fields.lookup "refId").getD "", (fields.lookup "rawSql").getD "",
    (fields.lookup "format").getD ""⟩

/-- **Reads a model**; of several faults the first is reported. -/
def read : Json → Except ModelError QueryModel
  | .object entries =>
    let known := entries.filter (fun e => fieldNames.contains e.1)
    match fieldNames.find? (fun name => 1 < (known.map Prod.fst).count name) with
    | some name => .error (.repeated name)
    | none => (known.mapM readText).map ofFields
  | .array items =>
    ((fieldNames.zip items).mapM readText).bind (fun fields =>
      if items.length ≤ fieldNames.length then .ok (ofFields fields)
      else .error (.tooLong items.length))
  | other => .error (.notARecord other.shape)

end QueryModel

end WindowQuery
