import WindowQuery.Proofs.Keyed
import WindowQuery.Query.Batch

/-!
# The outcomes that a response keeps

A request runs all of its queries, and each has an outcome of its own,
whatever becomes of the others. The response keeps these outcomes under
references, and a reference is what the author of the request chose: nothing
makes two queries have different ones. Where two have the same, the response
keeps the outcome of the later one, and neither its size nor its count of
failures tells that there was another.

`runRequest_keeps` says exactly what a response keeps, for every request and
every database. It has one outcome for each different reference, which is
the last one there; so it has as many as there are queries if and only if
no reference is repeated, and then it has them all.
-/

namespace WindowQuery

variable {σ : Type}

theorem runQueries_cons (db : Backend σ) (s : QuerySettings) (q : DataQuery)
    (rest : List DataQuery) (state : σ) :
    runQueries db s (q :: rest) state =
      ((q.refId, (runDataQuery db s q state).1) ::
          (runQueries db s rest (runDataQuery db s q state).2).1,
        (runQueries db s rest (runDataQuery db s q state).2).2) := rfl

/-- **Each query has an outcome**, in order, under its own reference. -/
theorem map_fst_runQueries (db : Backend σ) (s : QuerySettings) (queries : List DataQuery)
    (state : σ) :
    (runQueries db s queries state).1.map Prod.fst = queries.map DataQuery.refId := by
  induction queries generalizing state with
  | nil => rfl
  | cons q rest ih => rw [runQueries_cons, List.map_cons, List.map_cons, ih]

/-- **The outcome that counts for a reference**: the last one there. -/
def lastOutcome? (outcomes : List (String × Outcome)) (reference : String) : Option Outcome :=
  (outcomes.reverse.find? (fun e => e.1 == reference)).map Prod.snd

/-- **What a response keeps** of the outcomes of some queries. -/
structure Keeps (queries : List DataQuery) (outcomes : List (String × Outcome)) (r : Response) :
    Prop where
  /-- Each query has an outcome, in order. -/
  references_eq : outcomes.map Prod.fst = queries.map DataQuery.refId
  /-- The response has the last one for each reference, and no others. -/
  get?_eq : ∀ reference, r.outcomes.get? reference = lastOutcome? outcomes reference
  /-- It has as many as there are different references. -/
  length_eq : r.outcomes.entries.length = (queries.map DataQuery.refId).dedup.length
  /-- It counts the references for which the last outcome is a failure. -/
  errorCount_eq : r.errorCount = ((queries.map DataQuery.refId).dedup.filter (fun reference =>
    (lastOutcome? outcomes reference).any Outcome.isFailure)).length
  /-- It has as many as there are queries just if no reference is repeated. -/
  length_eq_iff : r.outcomes.entries.length = queries.length ↔
    (queries.map DataQuery.refId).Nodup
  /-- Then it has all of them, and counts all failures. -/
  complete : (queries.map DataQuery.refId).Nodup →
    (∀ e ∈ outcomes, r.outcomes.get? e.1 = some e.2) ∧
      r.errorCount = (outcomes.filter (fun e => e.2.isFailure)).length

/-- A list is as long as the list of its different elements just if none is
repeated. -/
theorem length_dedup_eq_iff {l : List String} : l.dedup.length = l.length ↔ l.Nodup :=
  ⟨fun h => List.dedup_eq_self.1 ((List.dedup_sublist l).eq_of_length h),
    fun h => by rw [List.dedup_eq_self.2 h]⟩

/-- **What the response to a request keeps**, for every database and every state
of it. Each query has an outcome, and the response has the last one for each
different reference; so it has as many outcomes as queries just if no reference is
repeated, and the failures it counts are those among the outcomes that it has. -/
theorem runRequest_keeps (db : Backend σ) (s : QuerySettings) (r : Request) (state : σ) :
    Keeps r.queries (runQueries db s r.queries state).1 (runRequest db s r state).1 := by
  have hreferences := map_fst_runQueries db s r.queries state
  show Keeps r.queries _ ⟨.ofList (runQueries db s r.queries state).1⟩
  generalize (runQueries db s r.queries state).1 = outcomes at hreferences
  -- the keys of the response are the references without repetitions, in another order
  have hkeys := Keyed.perm_keys_ofList outcomes
  rw [hreferences] at hkeys
  have hlength : (Keyed.ofList outcomes).entries.length
      = (r.queries.map DataQuery.refId).dedup.length := by
    rw [← hkeys.length_eq, Keyed.keys, List.length_map]
  refine ⟨hreferences, Keyed.get?_ofList outcomes, hlength, ?_, ?_, fun hnodup => ?_⟩
  · rw [Response.errorCount, Keyed.length_filter_values, (hkeys.filter _).length_eq]
    simp only [Keyed.get?_ofList, lastOutcome?]
  · rw [hlength, ← length_dedup_eq_iff, List.length_map]
  · rw [← hreferences] at hnodup
    have hperm := Keyed.perm_ofList hnodup
    refine ⟨fun e he => Keyed.mem_entries_iff.1 (hperm.mem_iff.2 he), ?_⟩
    rw [Response.errorCount, Keyed.values, List.filter_map, List.length_map,
      (hperm.filter _).length_eq]
    rfl

/-- Two queries for tables under references of their own, the first with a
directive that nobody knows. -/
def twoTables (first second : String) : Request :=
  ⟨[.ofModel ⟨first, "select $__nope(x)", "table"⟩ ⟨.epoch, .epoch⟩,
    .ofModel ⟨second, "select 1", "table"⟩ ⟨.epoch, .epoch⟩]⟩

/-- A database that has one row for the only query that gets to it. -/
def oneRow : Script :=
  .ofList [.immediate (.ok ⟨[⟨"value", "INTEGER"⟩], [.ok [.int 1]]⟩)]

/-- The frame of that row. -/
def oneRowFrame : Frame :=
  ⟨"response", [.ofValues "value" ⟨.integer, [some 1]⟩], some "select 1"⟩

/-- Two references: both outcomes are kept, and the failure is counted. -/
theorem runRequest_keeps_twoTables :
    (runQueries Script.backend .standard (twoTables "A" "B").queries oneRow).1 =
      [("A", .error (.directive (.unknown "__nope"))), ("B", .ok oneRowFrame)] ∧
    (runRequest Script.backend .standard (twoTables "A" "B") oneRow).1.outcomes.get? "A" =
      some (.error (.directive (.unknown "__nope"))) ∧
    (runRequest Script.backend .standard (twoTables "A" "B") oneRow).1.errorCount = 1 := by
  have hrun : (runQueries Script.backend .standard (twoTables "A" "B").queries oneRow).1 =
      [("A", .error (.directive (.unknown "__nope"))), ("B", .ok oneRowFrame)] := by
    decide +kernel
  obtain ⟨hall, hcount⟩ :=
    (runRequest_keeps Script.backend .standard (twoTables "A" "B") oneRow).complete (by decide)
  rw [hrun] at hall hcount
  exact ⟨hrun, hall _ List.mem_cons_self, hcount⟩

/-- **One reference twice**: both queries have an outcome, but the response keeps
only the later one, and does not count the failure of the earlier one. -/
theorem runRequest_drops_repeated :
    (twoTables "A" "A").queries.length = 2 ∧
    (runQueries Script.backend .standard (twoTables "A" "A").queries oneRow).1 =
      [("A", .error (.directive (.unknown "__nope"))), ("A", .ok oneRowFrame)] ∧
    (runRequest Script.backend .standard (twoTables "A" "A") oneRow).1.outcomes.entries =
      [("A", .ok oneRowFrame)] ∧
    (runRequest Script.backend .standard (twoTables "A" "A") oneRow).1.errorCount = 0 := by
  decide +kernel

end WindowQuery
