import WindowQuery.Directive.Expansion
import WindowQuery.Frame.Pivot
import WindowQuery.Query.Backend
import WindowQuery.Query.Error
import WindowQuery.Settings.Basic

/-!
# Running a query

A query is prepared, its SQL goes to the database, and the answer becomes
a frame. The database is asked once, and only if the directives of the
query can be expanded.
-/

namespace WindowQuery

/-- **A query that the database can be asked.** -/
structure PreparedQuery where
  /-- The shape in which the result is wanted. -/
  format : ResultFormat
  /-- The SQL and what its directives chose. -/
  expansion : Expansion
deriving DecidableEq

namespace PreparedQuery

/-- The format of a query; one that declares none has that of the settings. -/
def formatOf (s : QuerySettings) (m : QueryModel) : ResultFormat :=
  if Text.isBlankText m.format then s.format else m.resultFormat

/-- **Prepares a query** for a window. -/
def ofModel (s : QuerySettings) (m : QueryModel) (w : TimeWindow) :
    Except QueryError PreparedQuery :=
  ((expand m.rawSql w).map (fun e => ⟨formatOf s m, e⟩)).mapError .directive

/-- The frame of a result. -/
def frameOf (s : QuerySettings) (p : PreparedQuery) (r : ResultSet) : Except FrameError Frame :=
  (materialize r.headers r.rows p.expansion.timeGrouped (p.expansion.fill.getD default)).bind
    (fun columns => (Frame.mk s.frameName columns (some p.expansion.sql)).shape p.format)

/-- **The outcome of a query**, given the answer of the database. -/
def finish (s : QuerySettings) (p : PreparedQuery) (d : Delivery) : Except QueryError Frame :=
  if d.isLate s.timeoutSeconds then .error (.timeout s.timeoutSeconds)
  else
    match d.answer with
    | .error e => .error e
    | .ok r => (p.frameOf s r).mapError .frame

end PreparedQuery

/-- **Runs a query.** -/
def runQuery {σ : Type} (db : Backend σ) (s : QuerySettings) (m : QueryModel) (w : TimeWindow)
    (state : σ) : Except QueryError Frame × σ :=
  match PreparedQuery.ofModel s m w with
  | .error e => (.error e, state)
  | .ok p =>
    let (delivery, state') := db p.expansion.sql state
    (p.finish s delivery, state')

end WindowQuery
