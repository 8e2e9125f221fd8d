import WindowQuery.Frame.Document
import WindowQuery.Query.Model

/-!
# Requests

A request is a list of queries, each under a reference and with a window
of its own. The models stay documents until their queries are run.
-/

namespace WindowQuery

/-- **A query of a request.** -/
structure DataQuery where
  /-- The reference under which its response stands. -/
  refId : String
  /-- The window it is run for. -/
  window : TimeWindow
  /-- The document of its model. -/
  model : Json

namespace DataQuery

/-- The query of a model, under the model's own reference. -/
def ofModel (m : QueryModel) (w : TimeWindow) : DataQuery :=
  ⟨m.refId, w, m.toFreeForm⟩

/-- The document of a query. -/
def toJson (q : DataQuery) : Json :=
  .object [("refId", .string q.refId), ("window", q.window.toJson), ("json", q.model)]

/-- Reads the document of a query with so many arrays and objects around it. -/
def ofJson? (level : Nat) (j : Json) : Option DataQuery := do
  let r ← j.record? ["refId", "window", "json"] false
  return ⟨← r.required? "refId" Json.string?, ← r.required? "window" TimeWindow.ofJson?,
    ← r.required? "json" (Json.freeForm? (level + 1))⟩

end DataQuery

/-- **A request.** -/
structure Request where
  /-- Its queries, in order. -/
  queries : List DataQuery

namespace Request

/-- The document of a request. -/
def toJson (r : Request) : Json := .object [("queries", .array (r.queries.map DataQuery.toJson))]

/-- Reads the document of a request. -/
def ofJson? (j : Json) : Option Request := do
  let r ← j.record? ["queries"] false
  return ⟨← r.required? "queries" (Json.items? (DataQuery.ofJson? 2))⟩

end Request

end WindowQuery
