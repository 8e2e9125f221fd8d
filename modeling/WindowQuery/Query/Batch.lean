import WindowQuery.Query.Request
import WindowQuery.Query.Run

/-!
# Batches

The queries of a request run one after another against one database. Each
has an outcome of its own, and a failure ends nothing but its query. The
outcomes stand under the references of their queries; of several queries
with one reference the last counts.
-/

namespace WindowQuery

/-- The outcome of a query. -/
abbrev Outcome := Except QueryError Frame

namespace Outcome

/-- Whether the query failed. -/
def isFailure : Outcome → Bool
  | .ok _ => false
  | .error _ => true

/-- **The document of an outcome.** -/
def toJson : Outcome → Json
  | .ok frame => .object [("frames", .array [frame.toJson])]
  | .error e => .object [("frames", .array []), ("error", .string e.message)]

end Outcome

/-- Runs a query of a request. -/
def runDataQuery {σ : Type} (db : Backend σ) (s : QuerySettings) (q : DataQuery) (state : σ) :
    Outcome × σ :=
  match QueryModel.read q.model with
  | .error e => (.error (.model e), state)
  | .ok m => runQuery db s m q.window state

/-- **The outcomes of a request** under the references of their queries. -/
structure Response where
  /-- The outcomes. -/
  outcomes : Keyed Outcome

namespace Response

/-- The response to no query. -/
def empty : Response := ⟨.empty⟩

/-- The number of failures. -/
def errorCount (r : Response) : Nat := (r.outcomes.values.filter Outcome.isFailure).length

/-- The document of a response. -/
def toJson (r : Response) : Json :=
  .object [("responses", .object (r.outcomes.entries.map (fun e => (e.1, Outcome.toJson e.2))))]

end Response

/-- The outcomes of queries, in order. -/
def runQueries {σ : Type} (db : Backend σ) (s : QuerySettings) :
    List DataQuery → σ → List (String × Outcome) × σ
  | [], state => ([], state)
  | q :: rest, state =>
    let (outcome, state') := runDataQuery db s q state
    let (outcomes, state'') := runQueries db s rest state'
    ((q.refId, outcome) :: outcomes, state'')

/-- **Runs a request.** -/
def runRequest {σ : Type} (db : Backend σ) (s : QuerySettings) (r : Request) (state : σ) :
    Response × σ :=
  let (outcomes, state') := runQueries db s r.queries state
  (⟨.ofList outcomes⟩, state')

end WindowQuery
