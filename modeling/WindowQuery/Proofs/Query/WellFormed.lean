import WindowQuery.Proofs.Directive.Evaluation
import WindowQuery.Proofs.Frame.Permitted
import WindowQuery.Proofs.Frame.Reference
import WindowQuery.Proofs.Frame.Shape
import WindowQuery.Proofs.Query.Asked

/-!
# The frame of a query is well formed

A frame has passed through many hands when a query returns it: headers gave
its columns their types, rows filled them, and shaping may have taken them
apart. `WellFormed` is what a reader of the frame may rely on all the same,
and it is said of the query and of what the database was asked, not of any
of those steps.

`runQuery_wellFormed` has it for every database, whatever that answers. The
columns are aligned because materializing refuses rows of another width;
their types are permitted because a type is checked where it comes up; and
shaping keeps both (`KeepsColumns`). Nothing is said of the format or of
the kind of the frame, because nothing depends on them.
-/

namespace WindowQuery

/-- **A well-formed frame** of a query that has asked for some texts. -/
structure WellFormed (s : QuerySettings) (m : QueryModel) (w : TimeWindow) (asked : List String)
    (f : Frame) : Prop where
  /-- All columns have one entry for each row. -/
  aligned : f.Aligned
  /-- What names series is neither a number nor a time. -/
  metric : ∀ c ∈ f.columns, c.name = "metric" →
    c.values.type ≠ .time ∧ c.values.type ≠ .integer ∧ c.values.type ≠ .float
  /-- Where a use groups by time, the times are times. -/
  time : ∀ tokens, Directive.tokenize m.rawSql = .ok tokens →
    (∃ i ∈ Directive.uses tokens, i.name = "__timeGroup") →
      ∀ c ∈ f.columns, c.name = "time" → c.values.type = .time
  /-- The frame has the name that is set. -/
  name_eq : f.name = s.frameName
  /-- The SQL of the frame is what was asked: the text of the query, expanded. -/
  query_eq : ∃ x, expand m.rawSql w = .ok x ∧ asked = [x.sql] ∧ f.query = some x.sql

/-- **The texts that a database is asked for** while a query is run. -/
def asked {σ : Type} (db : Backend σ) (s : QuerySettings) (m : QueryModel) (w : TimeWindow)
    (state : σ) : List String :=
  (runQuery db.logged s m w (state, [])).2.2

/-- A query asks once if it can be expanded, and else not at all. -/
theorem asked_eq {σ : Type} (db : Backend σ) (s : QuerySettings) (m : QueryModel)
    (w : TimeWindow) (state : σ) : asked db s m w state = (m.asks? w).toList := by
  rw [asked, runQuery_logged, List.nil_append]

theorem TypeName.isBarred_eq_false_iff {t : ColumnType} :
    isBarred t = false ↔ t ≠ .time ∧ t ≠ .integer ∧ t ≠ .float := by
  cases t <;> decide

/-- **Every frame that a query returns is well formed**, whatever the database
answers: its columns are aligned, the types of its metric and its times are those
permitted, it has the name that is set, and its SQL is the one text that was
asked. A query that cannot be expanded fails with the error of that, and asks the
database nothing. -/
theorem runQuery_wellFormed {σ : Type} (db : Backend σ) (s : QuerySettings) (m : QueryModel)
    (w : TimeWindow) (state : σ) :
    (∀ f, (runQuery db s m w state).1 = .ok f →
      WellFormed s m w (asked db s m w state) f) ∧
    ∀ e, expand m.rawSql w = .error e →
      runQuery db s m w state = (.error (.directive e), state) ∧
        asked db s m w state = [] := by
  refine ⟨fun f hf => ?_, fun e he => ⟨runQuery_of_expand_eq_error db s he state, ?_⟩⟩
  · cases hx : expand m.rawSql w with
    | error e =>
      rw [runQuery_of_expand_eq_error db s hx] at hf
      cases hf
    | ok x =>
      rw [runQuery_of_expand_eq_ok db s hx] at hf
      obtain ⟨r, columns, -, -, hcolumns, hshape⟩ := PreparedQuery.exists_of_finish_eq_ok hf
      have hkeeps := Frame.keepsColumns_shape hshape
      -- shaping keeps the types of the columns, and these were permitted when the rows were read
      have hpermitted : ∀ c ∈ f.columns, Permitted x.timeGrouped c.name c.values.type := by
        intro c hc
        obtain ⟨d, hd, hname, htype⟩ := hkeeps.source c hc
        rw [hname, htype]
        exact permitted_of_materialize hcolumns hd
      refine ⟨hkeeps.aligned (.of_length (fun c hc => length_of_materialize hcolumns hc)),
        fun c hc hname => TypeName.isBarred_eq_false_iff.1 ((hpermitted c hc).metric hname),
        fun tokens htokens hgroups c hc hname => (hpermitted c hc).time hname ?_,
        hkeeps.name_eq, x, hx, ?_, hkeeps.query_eq⟩
      · rw [expand, htokens] at hx
        exact (Directive.timeGrouped_ofTokens hx).2 hgroups
      · rw [asked_eq, QueryModel.asks?, hx]
        rfl
  · rw [asked_eq, QueryModel.asks?, he]
    rfl

/-- A query for series, grouped by minutes. -/
def loads : QueryModel := ⟨"A", "select $__timeGroup(t,1m), metric, load from loads", "time series"⟩

/-- What a database may answer: the type of the series is not known beforehand,
and one row has no load. -/
def loadsAnswer : ResultSet :=
  ⟨[⟨"time", "BIGINT"⟩, ⟨"metric", ""⟩, ⟨"load", "INT"⟩],
    [.ok [.int 0, .null, .int 5], .ok [.int 0, .text "a", .null], .ok [.int 60, .text "a", .int 7]]⟩

/-- The frame of that, with one column for each series. -/
def loadsFrame : Frame :=
  ⟨"response", [.ofValues "time" ⟨.time, [some .epoch, some Pivot.firstMinute]⟩,
    ⟨"load", .ofList [("metric", "")], ⟨.integer, [some 5, none]⟩⟩,
    ⟨"load", .ofList [("metric", "a")], ⟨.integer, [none, some 7]⟩⟩],
    some ("select " ++ Directive.bucketSql "t" "60" ++ ", metric, load from loads")⟩

/-- A pivoted frame; and a query that asks nothing. -/
theorem runQuery_wellFormed_loads :
    (runQuery Script.backend .standard loads ⟨.epoch, .epoch⟩
        (.ofList [.immediate (.ok loadsAnswer)])).1 = .ok loadsFrame ∧
      WellFormed .standard loads ⟨.epoch, .epoch⟩
        (asked Script.backend .standard loads ⟨.epoch, .epoch⟩
          (.ofList [.immediate (.ok loadsAnswer)])) loadsFrame ∧
      asked Script.backend .standard ⟨"A", "select $__time()", ""⟩ ⟨.epoch, .epoch⟩
        (.ofList [.immediate (.ok loadsAnswer)]) = [] := by
  have hrun : (runQuery Script.backend .standard loads ⟨.epoch, .epoch⟩
      (.ofList [.immediate (.ok loadsAnswer)])).1 = .ok loadsFrame := by
    decide +kernel
  have hexpand : expand "select $__time()" ⟨.epoch, .epoch⟩ =
      .error (.missingArgument "__time" "time column") := by
    decide +kernel
  exact ⟨hrun, (runQuery_wellFormed _ _ _ _ _).1 loadsFrame hrun,
    ((runQuery_wellFormed _ _ ⟨"A", "select $__time()", ""⟩ _ _).2 _ hexpand).2⟩

end WindowQuery
