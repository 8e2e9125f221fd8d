import WindowQuery.Proofs.Query.Asked
import WindowQuery.Proofs.Query.Responses

/-!
# The queries of a request are apart

The queries of a request share two things: the database, which is asked by
one after another, and the response, which has one place for each reference.
A database that has a given answer to its n-th question (`Backend.numbered`)
makes the sharing visible. What a query does to the others is then only to
move their answers by one, if it asks, and to take the place of earlier ones
with its own reference.

`runRequest_apart` says this of every request and every sequence of answers.
The database is asked just for the texts of the queries that have one, in
order; the outcome under a reference is that of the last query there, run
alone on the answer to its own question (`RunsApart`). And a query can be
exchanged for any other, whatever becomes of that: as long as the others
have their answers, nothing changes under other references.
-/

namespace WindowQuery

/-- **A database with an answer to its n-th question**, whatever the question. -/
def Backend.numbered (answer : Nat → Delivery) : Backend Nat := fun _ n => (answer n, n + 1)

/-! ## Questions in order -/

/-- **The texts that some queries ask for**, in order. -/
def asks (queries : List DataQuery) : List String := queries.filterMap DataQuery.asks?

theorem asks_cons (q : DataQuery) (rest : List DataQuery) :
    asks (q :: rest) = q.asks?.toList ++ asks rest := by
  unfold asks
  rw [List.filterMap_cons]
  cases q.asks? <;> rfl

theorem asks_append (xs ys : List DataQuery) : asks (xs ++ ys) = asks xs ++ asks ys :=
  List.filterMap_append

section Runs

variable {answer answer' : Nat → Delivery} {s : QuerySettings}

/-- **One query** has the outcome of its own answer, and moves the questions on by
what it asks. -/
theorem runDataQuery_numbered (answer : Nat → Delivery) (s : QuerySettings) (q : DataQuery)
    (n : Nat) (seen : List String) :
    runDataQuery (Backend.numbered answer).logged s q (n, seen) =
      (q.outcome s (answer n), n + q.asks?.toList.length, seen ++ q.asks?.toList) := by
  cases hasks : q.asks? with
  | none =>
    obtain ⟨e, houtcome, hrun⟩ := runDataQuery_of_asks?_eq_none hasks
    rw [hrun, houtcome, Option.toList_none, List.append_nil]
    rfl
  | some sql =>
    rw [runDataQuery_of_asks?_eq_some hasks]
    rfl

/-- **Some queries** move the questions on by what they ask. -/
theorem state_runQueries (answer : Nat → Delivery) (s : QuerySettings)
    (queries : List DataQuery) (n : Nat) (seen : List String) :
    (runQueries (Backend.numbered answer).logged s queries (n, seen)).2 =
      (n + (asks queries).length, seen ++ asks queries) := by
  induction queries generalizing n seen with
  | nil => exact congrArg (Prod.mk n) (List.append_nil seen).symm
  | cons q rest ih =>
    rw [runQueries_cons, runDataQuery_numbered, asks_cons, ih, List.length_append, Nat.add_assoc,
      List.append_assoc]

theorem runQueries_append {σ : Type} (db : Backend σ) (s : QuerySettings)
    (xs ys : List DataQuery) (state : σ) :
    runQueries db s (xs ++ ys) state =
      ((runQueries db s xs state).1 ++ (runQueries db s ys (runQueries db s xs state).2).1,
        (runQueries db s ys (runQueries db s xs state).2).2) := by
  induction xs generalizing state with
  | nil => rfl
  | cons q xs ih => rw [List.cons_append, runQueries_cons, ih, runQueries_cons, List.cons_append]

/-- **A query among others** has the answer to its own question. -/
theorem runQueries_between (answer : Nat → Delivery) (s : QuerySettings)
    (before : List DataQuery) (q : DataQuery) (after : List DataQuery) (n : Nat)
    (seen : List String) :
    (runQueries (Backend.numbered answer).logged s (before ++ q :: after) (n, seen)).1 =
      (runQueries (Backend.numbered answer).logged s before (n, seen)).1 ++
        (q.refId, q.outcome s (answer (n + (asks before).length))) ::
          (runQueries (Backend.numbered answer).logged s after
            (n + (asks (before ++ [q])).length, seen ++ asks (before ++ [q]))).1 := by
  rw [runQueries_append, state_runQueries, runQueries_cons, runDataQuery_numbered, asks_append,
    asks_cons q [], show asks [] = [] from rfl, List.append_nil, List.length_append,
    Nat.add_assoc, List.append_assoc]

/-- **Outcomes depend on the answers alone**, and only on as many as there are
questions. -/
theorem runQueries_congr (queries : List DataQuery) (n n' : Nat)
    (h : ∀ i < (asks queries).length, answer' (n' + i) = answer (n + i))
    (seen seen' : List String) :
    (runQueries (Backend.numbered answer').logged s queries (n', seen')).1 =
      (runQueries (Backend.numbered answer).logged s queries (n, seen)).1 := by
  induction queries generalizing n n' seen seen' with
  | nil => rfl
  | cons q rest ih =>
    rw [asks_cons, List.length_append] at h
    rw [runQueries_cons, runQueries_cons]
    -- only a query that asks uses up an answer
    cases hasks : q.asks? with
    | none =>
      rw [hasks] at h
      obtain ⟨e, -, hrun⟩ := runDataQuery_of_asks?_eq_none hasks
      rw [hrun, hrun]
      refine congrArg (List.cons _) (ih n n' (fun i hi => h i ?_) seen seen')
      rwa [Option.toList_none, List.length_nil, Nat.zero_add]
    | some sql =>
      rw [hasks, Option.toList_some, List.length_singleton] at h
      have hfirst : answer' n' = answer n := h 0 (by omega)
      have hrest : ∀ i < (asks rest).length, answer' (n' + 1 + i) = answer (n + 1 + i) := by
        intro i hi
        rw [Nat.add_assoc, Nat.add_assoc]
        exact h (1 + i) (by omega)
      rw [runDataQuery_numbered, runDataQuery_numbered, hasks, hfirst]
      exact congrArg (List.cons _) (ih (n + 1) (n' + 1) hrest _ _)

end Runs

/-! ## The last one under a reference -/

/-- An outcome counts if no later one has its reference. -/
theorem lastOutcome?_append_cons_self {earlier later : List (String × Outcome)}
    {reference : String} (h : reference ∉ later.map Prod.fst) (o : Outcome) :
    lastOutcome? (earlier ++ (reference, o) :: later) reference = some o := by
  have hlater : later.reverse.find? (fun e => e.1 == reference) = none :=
    List.find?_eq_none.2 (fun e he hkey => h (by
      rw [← beq_iff_eq.1 hkey]
      exact List.mem_map_of_mem (List.mem_reverse.1 he)))
  rw [lastOutcome?, List.reverse_append, List.reverse_cons, List.append_assoc, List.find?_append,
    hlater, Option.none_or, List.singleton_append,
    List.find?_cons_of_pos (p := fun e : String × Outcome => e.1 == reference)
      (beq_self_eq_true reference)]
  rfl

theorem lastOutcome?_append_cons_of_ne {reference other : String} (h : reference ≠ other)
    (earlier later : List (String × Outcome)) (o : Outcome) :
    lastOutcome? (earlier ++ (other, o) :: later) reference =
      lastOutcome? (earlier ++ later) reference := by
  have hne : ¬(other == reference) = true := fun hkey => h (beq_iff_eq.1 hkey).symm
  rw [lastOutcome?, lastOutcome?, List.reverse_append, List.reverse_append, List.reverse_cons,
    List.append_assoc, List.singleton_append, List.find?_append, List.find?_append,
    List.find?_cons_of_neg (p := fun e : String × Outcome => e.1 == reference) hne]

/-! ## Whole requests -/

/-- **A request, run against numbered answers** from the first one on. -/
def runNumbered (s : QuerySettings) (answer : Nat → Delivery) (r : Request) :
    Response × Nat × List String :=
  runRequest (Backend.numbered answer).logged s r (0, [])

theorem get?_runNumbered (s : QuerySettings) (answer : Nat → Delivery)
    (queries : List DataQuery) (reference : String) :
    (runNumbered s answer ⟨queries⟩).1.outcomes.get? reference =
      lastOutcome? (runQueries (Backend.numbered answer).logged s queries (0, [])).1 reference :=
  Keyed.get?_ofList _ reference

/-- **What queries have done that run apart**, each with its own answer. -/
structure RunsApart (s : QuerySettings) (answer : Nat → Delivery) (queries : List DataQuery)
    (response : Response) (calls : Nat) (asked : List String) : Prop where
  /-- The database was asked for the texts of the queries that have one, in
  order. -/
  asked_eq : asked = asks queries
  /-- It has given one answer for each of them. -/
  calls_eq : calls = asked.length
  /-- The outcome under a reference is that of the last query there, alone with
  the answer to its question. -/
  last : ∀ before q after, queries = before ++ q :: after →
    (∀ later ∈ after, later.refId ≠ q.refId) →
      response.outcomes.get? q.refId = some (q.outcome s (answer (asks before).length))
  /-- There are no outcomes under other references. -/
  unused : ∀ reference, (∀ q ∈ queries, q.refId ≠ reference) →
    response.outcomes.get? reference = none
  /-- A query that asks nothing fails, whatever the answers are. -/
  unasked : ∀ q ∈ queries, q.asks? = none → ∃ e, ∀ d, q.outcome s d = .error e
  /-- A frame is made with what the directives of its own query chose. -/
  own : ∀ q ∈ queries, ∀ d f, q.outcome s d = .ok f → ∃ m x r columns,
    QueryModel.read q.model = .ok m ∧ expand m.rawSql q.window = .ok x ∧ d.answer = .ok r ∧
      materialize r.headers r.rows x.timeGrouped (x.fill.getD .null) = .ok columns ∧
      (Frame.mk s.frameName columns (some x.sql)).shape (PreparedQuery.formatOf s m) = .ok f
  /-- Written out, an outcome is one frame, or no frame and the error. -/
  document : ∀ reference o, response.outcomes.get? reference = some o →
    ∃ entries json, response.toJson = .object [("responses", .object entries)] ∧
      (reference, json) ∈ entries ∧
        ((∃ f, o = .ok f ∧ json = .object [("frames", .array [f.toJson])]) ∨
          ∃ e, o = .error e ∧
            json = .object [("frames", .array []), ("error", .string e.message)])

/-- A request runs its queries apart. -/
theorem runsApart_runNumbered (s : QuerySettings) (answer : Nat → Delivery) (r : Request) :
    RunsApart s answer r.queries (runNumbered s answer r).1 (runNumbered s answer r).2.1
      (runNumbered s answer r).2.2 := by
  obtain ⟨queries⟩ := r
  have hstate : (runNumbered s answer ⟨queries⟩).2 = ((asks queries).length, asks queries) := by
    refine (state_runQueries answer s queries 0 []).trans ?_
    rw [Nat.zero_add, List.nil_append]
  rw [hstate]
  refine
    { asked_eq := rfl
      calls_eq := rfl
      last := fun before q after hqueries hlast => ?_
      unused := fun reference hunused => ?_
      unasked := fun q _ hasks => ?_
      own := fun q _ d f => DataQuery.exists_of_outcome_eq_ok
      document := fun reference o ho => ?_ }
  · -- that no later query has the reference is what makes its outcome the one that is kept
    have hlater : q.refId ∉ after.map DataQuery.refId := by
      intro hmem
      obtain ⟨later, hin, href⟩ := List.mem_map.1 hmem
      exact hlast later hin href
    obtain rfl : queries = before ++ q :: after := hqueries
    rw [get?_runNumbered, runQueries_between, Nat.zero_add]
    exact lastOutcome?_append_cons_self (by rwa [map_fst_runQueries]) _
  · rw [get?_runNumbered, lastOutcome?, Option.map_eq_none_iff, List.find?_eq_none]
    intro e he hkey
    have hmem : e.1 ∈ queries.map DataQuery.refId := by
      rw [← map_fst_runQueries (Backend.numbered answer).logged s queries (0, [])]
      exact List.mem_map_of_mem (List.mem_reverse.1 he)
    obtain ⟨q, hq, href⟩ := List.mem_map.1 hmem
    exact hunused q hq (href.trans (beq_iff_eq.1 hkey))
  · obtain ⟨e, houtcome, -⟩ := runDataQuery_of_asks?_eq_none hasks
    exact ⟨e, houtcome s⟩
  · refine ⟨_, o.toJson, rfl,
      List.mem_map_of_mem (f := fun e : String × Outcome => (e.1, Outcome.toJson e.2))
        (Keyed.mem_entries_iff (e := (reference, o)).2 ho), ?_⟩
    cases o with
    | ok f => exact .inl ⟨f, rfl, rfl⟩
    | error e => exact .inr ⟨e, rfl, rfl⟩

/-- **The queries of a request run apart.** Each is run on its own answer. And one
of them may be exchanged for another, be it one that the database refuses or
whose answer makes no frame: while the others have the same answers to their
questions, only the references of these two can have another outcome. -/
theorem runRequest_apart (s : QuerySettings) (answer : Nat → Delivery) (r : Request) :
    RunsApart s answer r.queries (runNumbered s answer r).1 (runNumbered s answer r).2.1
      (runNumbered s answer r).2.2 ∧
    ∀ before q after, r.queries = before ++ q :: after → ∀ q' answer',
      (∀ n < (asks before).length, answer' n = answer n) →
      (∀ n < (asks after).length, answer' ((asks (before ++ [q'])).length + n) =
        answer ((asks (before ++ [q])).length + n)) →
      ∀ reference, reference ≠ q.refId → reference ≠ q'.refId →
        (runNumbered s answer' ⟨before ++ q' :: after⟩).1.outcomes.get? reference =
          (runNumbered s answer r).1.outcomes.get? reference := by
  refine ⟨runsApart_runNumbered s answer r, ?_⟩
  obtain ⟨queries⟩ := r
  intro before q after hqueries q' answer' hbefore hafter reference hq hq'
  obtain rfl : queries = before ++ q :: after := hqueries
  have hfront := runQueries_congr (s := s) before 0 0
    (fun i hi => by simpa only [Nat.zero_add] using hbefore i hi) [] []
  have hback := runQueries_congr (s := s) after (asks (before ++ [q])).length
    (asks (before ++ [q'])).length hafter (asks (before ++ [q])) (asks (before ++ [q']))
  simp only [get?_runNumbered, runQueries_between, lastOutcome?_append_cons_of_ne hq,
    lastOutcome?_append_cons_of_ne hq', Nat.zero_add, List.nil_append, hfront, hback]

/-- A query that groups by time and fills in zeros. -/
def groupedQuery : DataQuery :=
  .ofModel ⟨"A", "select $__timeGroup(t,1m,0), v from x", "table"⟩ ⟨.epoch, .epoch⟩

/-- A query with a directive that nobody knows. -/
def unknownQuery : DataQuery := .ofModel ⟨"B", "select $__nope", "table"⟩ ⟨.epoch, .epoch⟩

/-- A query without directives. -/
def plainQuery : DataQuery := .ofModel ⟨"C", "select time, v from y", "table"⟩ ⟨.epoch, .epoch⟩

/-- An answer whose only row has no value. -/
def missingValue : Delivery :=
  .immediate (.ok ⟨[⟨"time", "BIGINT"⟩, ⟨"v", "INT"⟩], [.ok [.int 5, .null]]⟩)

/-- The frame of that for the query without directives: a number is not a time,
and nothing is filled in. -/
def plainFrame : Frame :=
  ⟨"response", [.ofValues "time" ⟨.integer, [some 5]⟩, .ofValues "v" ⟨.integer, [none]⟩],
    some "select time, v from y"⟩

/-- The query without directives has the second answer, and keeps its outcome when
the database refuses the first query. -/
theorem runRequest_apart_plainQuery :
    (runNumbered .standard (fun _ => missingValue)
        ⟨[groupedQuery, unknownQuery, plainQuery]⟩).2.2 =
      ["select " ++ Directive.bucketSql "t" "60" ++ ", v from x", "select time, v from y"] ∧
    (runNumbered .standard (fun _ => missingValue)
        ⟨[groupedQuery, unknownQuery, plainQuery]⟩).1.outcomes.get? "C" =
      some (.ok plainFrame) ∧
    (runNumbered .standard
        (fun n => if n = 0 then .immediate (.error "no such table") else missingValue)
        ⟨[groupedQuery, unknownQuery, plainQuery]⟩).1.outcomes.get? "C" =
      some (.ok plainFrame) := by
  obtain ⟨hruns, hexchange⟩ := runRequest_apart .standard (fun _ => missingValue)
    ⟨[groupedQuery, unknownQuery, plainQuery]⟩
  have hplain : (runNumbered .standard (fun _ => missingValue)
      ⟨[groupedQuery, unknownQuery, plainQuery]⟩).1.outcomes.get? "C" = some (.ok plainFrame) := by
    have houtcome : plainQuery.outcome .standard missingValue = .ok plainFrame := by
      decide +kernel
    rw [← houtcome]
    exact hruns.last [groupedQuery, unknownQuery] plainQuery [] rfl (fun _ hlater => by
      cases hlater)
  have hone : (asks [groupedQuery]).length = 1 := by decide +kernel
  refine ⟨hruns.asked_eq.trans (by decide +kernel), hplain, ?_⟩
  rw [← hplain]
  refine hexchange [] groupedQuery [unknownQuery, plainQuery] rfl groupedQuery _
    (fun n hn => absurd hn (Nat.not_lt_zero n)) (fun n _ => ?_) "C" (by decide) (by decide)
  rw [List.nil_append, hone]
  exact if_neg (by omega)

end WindowQuery
