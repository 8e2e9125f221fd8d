import WindowQuery.Proofs.Success
import WindowQuery.Query.Batch

/-!
# What a database is asked

Running a query hands a text to the database and makes the answer into a
frame; a database cannot tell afterwards what it was handed. `Backend.logged`
is the same database with a list of the texts beside its state. Since it
answers as before, what a run does with it is what the run does without it
(`runQuery_logged`), and the list says what was asked.

A query asks at most once, and what it asks depends on nothing but itself
(`QueryModel.asks?`): the text is the expansion of its own, and where there
is none the database is not asked. So running a query can do one of two
things (`runDataQuery_cases`). It fails before it asks, and the database
stays as it was; or it asks for its text, and all that follows is made of
the one answer.
-/

namespace WindowQuery

variable {σ : Type}

/-- **A database that writes down what it is asked** and answers as before. -/
def Backend.logged (db : Backend σ) : Backend (σ × List String) := fun sql state =>
  ((db sql state.1).1, (db sql state.1).2, state.2 ++ [sql])

/-! ## One query -/

/-- **The text that a query asks for**: its own, expanded, if it can be. -/
def QueryModel.asks? (m : QueryModel) (w : TimeWindow) : Option String :=
  (expand m.rawSql w).toOption.map Expansion.sql

theorem runQuery_of_expand_eq_error (db : Backend σ) (s : QuerySettings) {m : QueryModel}
    {w : TimeWindow} {e : DirectiveError} (h : expand m.rawSql w = .error e) (state : σ) :
    runQuery db s m w state = (.error (.directive e), state) := by
  unfold runQuery PreparedQuery.ofModel
  rw [h]
  rfl

theorem runQuery_of_expand_eq_ok (db : Backend σ) (s : QuerySettings) {m : QueryModel}
    {w : TimeWindow} {x : Expansion} (h : expand m.rawSql w = .ok x) (state : σ) :
    runQuery db s m w state =
      ((PreparedQuery.mk (PreparedQuery.formatOf s m) x).finish s (db x.sql state).1,
        (db x.sql state).2) := by
  unfold runQuery PreparedQuery.ofModel
  rw [h]
  rfl

/-- **Writing down changes nothing else**: a query has the same outcome, and the
text that it asks for is added to the list. -/
theorem runQuery_logged (db : Backend σ) (s : QuerySettings) (m : QueryModel) (w : TimeWindow)
    (state : σ) (seen : List String) :
    runQuery db.logged s m w (state, seen) =
      ((runQuery db s m w state).1, (runQuery db s m w state).2,
        seen ++ (m.asks? w).toList) := by
  cases hx : expand m.rawSql w with
  | error e =>
    have hasks : m.asks? w = none := by rw [QueryModel.asks?, hx]; rfl
    rw [runQuery_of_expand_eq_error _ _ hx, runQuery_of_expand_eq_error _ _ hx, hasks,
      Option.toList_none, List.append_nil]
  | ok x =>
    have hasks : m.asks? w = some x.sql := by rw [QueryModel.asks?, hx]; rfl
    rw [runQuery_of_expand_eq_ok _ _ hx, runQuery_of_expand_eq_ok _ _ hx, hasks]
    rfl

/-- What a query has gone through that has a frame: the answer was in time and a
result, the result had columns, and the columns had the shape. -/
theorem PreparedQuery.exists_of_finish_eq_ok {s : QuerySettings} {p : PreparedQuery}
    {d : Delivery} {f : Frame} (h : p.finish s d = .ok f) :
    ∃ r columns, d.isLate s.timeoutSeconds = false ∧ d.answer = .ok r ∧
      materialize r.headers r.rows p.expansion.timeGrouped (p.expansion.fill.getD .null) =
        .ok columns ∧
      (Frame.mk s.frameName columns (some p.expansion.sql)).shape p.format = .ok f := by
  unfold finish at h
  split at h
  · cases h
  · next hlate =>
    cases hr : d.answer with
    | error e => rw [hr] at h; cases h
    | ok r =>
      rw [hr] at h
      obtain ⟨columns, hcolumns, hshape⟩ := exists_of_bind_eq_ok (eq_ok_of_mapError_eq_ok h)
      exact ⟨r, columns, Bool.eq_false_iff.2 hlate, rfl, hcolumns, hshape⟩

/-! ## A query of a request -/

/-- **The text that a query of a request asks for**, if its model can be read. -/
def DataQuery.asks? (q : DataQuery) : Option String :=
  (QueryModel.read q.model).toOption.bind (fun m => m.asks? q.window)

/-- **The outcome of a query by itself**: it is run alone, and whatever it asks
has the given answer. -/
def DataQuery.outcome (q : DataQuery) (s : QuerySettings) (d : Delivery) : Outcome :=
  (runDataQuery (fun _ _ => (d, ())) s q ()).1

/-- **All that running a query can do.** Its model cannot be read or its text
cannot be expanded, and it fails without asking; or it asks for its expansion
and is finished on the answer. -/
theorem runDataQuery_cases (q : DataQuery) :
    (q.asks? = none ∧ ∃ e, ∀ (σ : Type) (db : Backend σ) (s : QuerySettings) (state : σ),
        runDataQuery db s q state = (.error e, state)) ∨
      ∃ m x, QueryModel.read q.model = .ok m ∧ expand m.rawSql q.window = .ok x ∧
        q.asks? = some x.sql ∧
        ∀ (σ : Type) (db : Backend σ) (s : QuerySettings) (state : σ),
          runDataQuery db s q state =
            ((PreparedQuery.mk (PreparedQuery.formatOf s m) x).finish s (db x.sql state).1,
              (db x.sql state).2) := by
  unfold DataQuery.asks? runDataQuery
  cases hm : QueryModel.read q.model with
  | error e => exact .inl ⟨rfl, _, fun σ db s state => rfl⟩
  | ok m =>
    cases hx : expand m.rawSql q.window with
    | error e =>
      refine .inl ⟨?_, _, fun σ db s state => runQuery_of_expand_eq_error db s hx state⟩
      simp only [Except.toOption, QueryModel.asks?, hx, Option.bind_some, Option.map_none]
    | ok x =>
      refine .inr ⟨m, x, rfl, hx, ?_, fun σ db s state => runQuery_of_expand_eq_ok db s hx state⟩
      simp only [Except.toOption, QueryModel.asks?, hx, Option.bind_some, Option.map_some]

/-- **A query that asks nothing** fails in one way, and leaves the database as it
was. -/
theorem runDataQuery_of_asks?_eq_none {q : DataQuery} (h : q.asks? = none) :
    ∃ e, (∀ s d, q.outcome s d = .error e) ∧
      ∀ (σ : Type) (db : Backend σ) (s : QuerySettings) (state : σ),
        runDataQuery db s q state = (.error e, state) := by
  rcases runDataQuery_cases q with ⟨-, e, hrun⟩ | ⟨m, x, -, -, hasks, -⟩
  · exact ⟨e, fun s d => congrArg Prod.fst (hrun Unit _ s ()), hrun⟩
  · rw [hasks] at h
    cases h

/-- **A query that asks for a text** has the outcome that the answer to it gives,
and leaves the database as that does. -/
theorem runDataQuery_of_asks?_eq_some {q : DataQuery} {sql : String} (h : q.asks? = some sql)
    (db : Backend σ) (s : QuerySettings) (state : σ) :
    runDataQuery db s q state = (q.outcome s (db sql state).1, (db sql state).2) := by
  rcases runDataQuery_cases q with ⟨hasks, -⟩ | ⟨m, x, -, -, hasks, hrun⟩
  · rw [hasks] at h
    cases h
  · obtain rfl : x.sql = sql := Option.some.inj (hasks.symm.trans h)
    rw [DataQuery.outcome, hrun, hrun]

/-- What a query has gone through that has a frame by itself: all of it is its
own. -/
theorem DataQuery.exists_of_outcome_eq_ok {q : DataQuery} {s : QuerySettings} {d : Delivery}
    {f : Frame} (h : q.outcome s d = .ok f) :
    ∃ m x r columns, QueryModel.read q.model = .ok m ∧ expand m.rawSql q.window = .ok x ∧
      d.answer = .ok r ∧
      materialize r.headers r.rows x.timeGrouped (x.fill.getD .null) = .ok columns ∧
      (Frame.mk s.frameName columns (some x.sql)).shape (PreparedQuery.formatOf s m) = .ok f := by
  unfold outcome at h
  rcases runDataQuery_cases q with ⟨-, e, hrun⟩ | ⟨m, x, hm, hx, -, hrun⟩
  · rw [hrun] at h
    cases h
  · rw [hrun] at h
    obtain ⟨r, columns, -, hr, hcolumns, hshape⟩ := PreparedQuery.exists_of_finish_eq_ok h
    exact ⟨m, x, r, columns, hm, hx, hr, hcolumns, hshape⟩

end WindowQuery
