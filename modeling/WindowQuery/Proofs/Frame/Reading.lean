import WindowQuery.Proofs.Frame.Reference
import WindowQuery.Proofs.Frame.Refusal
import WindowQuery.Proofs.Frame.TypeName

/-!
# How far rows are read

Rows are read one after the other until something is wrong. Three things
can be: a scan brings no row, a row has the wrong width, or a column that
names series and has no type by its header gets a number or a time for its
first value. Before all that the headers can be wrong, and then nothing is
read. `Fault` says what is wrong with one scan, by the scans before it and
no others; a value that does not convert is no fault.

Which of these it is comes from different places: the headers are checked
at the start, the scan and the width by the row, the first value by the
column that gets it. The last one is the hard one, because whether a value
is the first is not in the row. `HasRead` says what a materializer knows
after some scans, and with it a column refuses a cell just if the scans
read so far hold no value for it (`HasRead.refusal?_iff`). So the reading ends
at the first scan with a fault (`HasRead.drain_outcome`), and all that comes
after that scan is left where it is.
-/

namespace WindowQuery

/-! ## Headers that are refused -/

/-- **A header that is refused**: it names series, and its type name stands for
numbers or times. -/
def Header.Refused (h : Header) (t : ColumnType) : Prop :=
  h.name = TypeName.metricName ∧ TypeName.typeOfBase (TypeName.base h.typeName) = .known t ∧
    TypeName.isBarred t = true

/-- **What is wrong with headers**: the first one that is refused. -/
inductive HeaderFault (headers : List Header) : FrameError → Prop where
  /-- All headers before it may stay. -/
  | declared (before after : List Header) (h : Header) (t : ColumnType) :
      headers = before ++ h :: after → (∀ h' ∈ before, ∀ t', ¬h'.Refused t') → h.Refused t →
      HeaderFault headers (.typeConflict TypeName.metricName (.declared h.typeName (.known t)))

/-- A header has no type just if it is refused. -/
theorem TypeName.resolve_eq_error_iff {h : Header} {timeGrouped : Bool} {e : FrameError} :
    resolve h timeGrouped = .error e ↔
      ∃ t, h.Refused t ∧ e = .typeConflict metricName (.declared h.typeName (.known t)) := by
  rw [resolve_eq]
  unfold Header.Refused
  split
  · next htime =>
    refine ⟨fun he => (by cases he), ?_⟩
    rintro ⟨t, ⟨hmetric, -⟩, -⟩
    exact absurd (htime.1.symm.trans hmetric) (by decide)
  · split
    · next t htype =>
      rw [htype]
      split
      · next hbarred =>
        constructor
        · intro he
          exact ⟨t, ⟨hbarred.1, rfl, hbarred.2⟩, (Except.error.inj he).symm⟩
        · rintro ⟨t', ⟨-, htype', -⟩, rfl⟩
          rw [SemanticType.known.inj htype']
      · next hfree =>
        refine ⟨fun he => (by cases he), ?_⟩
        rintro ⟨t', ⟨hmetric, htype', hbarred⟩, -⟩
        exact absurd ⟨hmetric, SemanticType.known.inj htype' ▸ hbarred⟩ hfree
    · next htype =>
      refine ⟨fun he => (by cases he), ?_⟩
      rintro ⟨t, ⟨-, htype', -⟩, -⟩
      rw [htype] at htype'
      cases htype'

theorem TypeName.exists_resolve_iff {h : Header} {timeGrouped : Bool} :
    (∃ declared, resolve h timeGrouped = .ok declared) ↔ ∀ t, ¬h.Refused t := by
  cases hresolve : resolve h timeGrouped with
  | error e =>
    obtain ⟨t, ht, -⟩ := resolve_eq_error_iff.1 hresolve
    exact iff_of_false (fun ⟨_, hok⟩ => by cases hok) (fun hnone => hnone t ht)
  | ok declared =>
    refine iff_of_true ⟨declared, rfl⟩ (fun t ht => ?_)
    have herror : resolve h timeGrouped
        = .error (.typeConflict metricName (.declared h.typeName (.known t))) :=
      resolve_eq_error_iff.2 ⟨t, ht, rfl⟩
    rw [hresolve] at herror
    cases herror

theorem Header.not_refused {h : Header} {timeGrouped : Bool} {declared : SemanticType}
    (hresolve : TypeName.resolve h timeGrouped = .ok declared) (t : ColumnType) : ¬h.Refused t :=
  TypeName.exists_resolve_iff.1 ⟨declared, hresolve⟩ t

/-- **Headers fail with their fault**, before any row: the error is that of the
first header that does not resolve, and there is none if all do. -/
theorem Materializer.start_eq_error_iff {headers : List Header} {timeGrouped : Bool}
    {fill : FillPolicy} {e : FrameError} :
    start headers timeGrouped fill = .error e ↔ HeaderFault headers e := by
  have hcolumn : ∀ h : Header, (∃ b, (TypeName.resolve h timeGrouped).map (fun t =>
      (h.name, Accumulator.ofType t)) = .ok b) ↔ ∀ t, ¬h.Refused t := fun h => by
    have htype : (∃ t, TypeName.resolve h timeGrouped = .ok t) ↔ ∀ t, ¬h.Refused t :=
      TypeName.exists_resolve_iff
    rw [← htype]
    constructor
    · rintro ⟨b, hb⟩
      obtain ⟨t, ht, -⟩ := exists_of_map_eq_ok hb
      exact ⟨t, ht⟩
    · rintro ⟨t, ht⟩
      exact ⟨_, by rw [ht]; rfl⟩
  rw [start, map_eq_error_iff, mapM_eq_error_iff]
  constructor
  · rintro ⟨before, h, after, hheaders, hbefore, hh⟩
    obtain ⟨t, ht, rfl⟩ := TypeName.resolve_eq_error_iff.1 (map_eq_error_iff.1 hh)
    exact .declared before after h t hheaders (fun h' hh' => (hcolumn h').1 (hbefore h' hh')) ht
  · rintro ⟨before, after, h, t, hheaders, hbefore, ht⟩
    exact ⟨before, h, after, hheaders, fun h' hh' => (hcolumn h').2 (hbefore h' hh'),
      map_eq_error_iff.2 (TypeName.resolve_eq_error_iff.2 ⟨t, ht, rfl⟩)⟩

/-! ## Scans with a fault -/

section

variable (headers : List Header) (timeGrouped : Bool)

/-- **A cell that is refused**, by the scans before its row: the first value of a
column that names series and has no type by its header, and a number or a
time. -/
structure RefusedAt (earlier : List Scan) (row : List Cell) (j : Nat) (t : ColumnType) :
    Prop where
  /-- The column names series, and its header leaves the type open. -/
  untyped : ∃ header, headers[j]? = some header ∧ header.name = TypeName.metricName ∧
    TypeName.resolve header timeGrouped = .ok .unknown
  /-- The cell holds a value. -/
  value : ∃ cell, row[j]? = some cell ∧ cell.naturalType = .known t
  /-- It is a number or a time. -/
  barred : TypeName.isBarred t = true
  /-- No cell of the column before it holds one. -/
  first : ∀ c ∈ cellsAt earlier j, c.isNull = true

/-- **What is wrong with a scan**, by the scans before it. The width of a row
counts before its cells, and of its cells the leftmost. -/
inductive Fault (earlier : List Scan) : Scan → FrameError → Prop where
  /-- It brings no row. -/
  | scan (text : String) : Fault earlier (.error text) (.rowScan earlier.length text)
  /-- The row is too short or too long. -/
  | width (row : List Cell) : row.length ≠ headers.length →
      Fault earlier (.ok row) (.rowWidth earlier.length headers.length row.length)
  /-- A cell of the row is refused. -/
  | cell (row : List Cell) (j : Nat) (t : ColumnType) : row.length = headers.length →
      RefusedAt headers timeGrouped earlier row j t →
      (∀ j' < j, ∀ t', ¬RefusedAt headers timeGrouped earlier row j' t') →
      Fault earlier (.ok row) (.typeConflict TypeName.metricName (.firstValue t))

/-- No scan of a cursor has a fault. -/
def Faultless (scans : List Scan) : Prop :=
  ∀ before scan after, scans = before ++ scan :: after →
    ∀ e, ¬Fault headers timeGrouped before scan e

/-- **The first scan with a fault.** -/
structure FirstFault (scans before : List Scan) (scan : Scan) (after : List Scan)
    (e : FrameError) : Prop where
  /-- It stands between two parts of the cursor. -/
  split : scans = before ++ scan :: after
  /-- It has the fault. -/
  fault : Fault headers timeGrouped before scan e
  /-- None before it has one. -/
  faultless : Faultless headers timeGrouped before

end

section

variable {headers : List Header} {timeGrouped : Bool}

theorem RefusedAt.type_unique {earlier : List Scan} {row : List Cell} {j : Nat}
    {t t' : ColumnType} (h : RefusedAt headers timeGrouped earlier row j t)
    (h' : RefusedAt headers timeGrouped earlier row j t') : t = t' := by
  obtain ⟨cell, hcell, ht⟩ := h.value
  obtain ⟨cell', hcell', ht'⟩ := h'.value
  obtain rfl := Option.some.inj (hcell.symm.trans hcell')
  exact SemanticType.known.inj (ht.symm.trans ht')

/-- **A scan has one fault.** -/
theorem Fault.unique {earlier : List Scan} {scan : Scan} {e e' : FrameError}
    (h : Fault headers timeGrouped earlier scan e)
    (h' : Fault headers timeGrouped earlier scan e') : e = e' := by
  cases h with
  | scan text =>
    cases h' with
    | scan _ => rfl
  | width row hwidth =>
    cases h' with
    | width _ _ => rfl
    | cell _ j t hwidth' _ _ => exact absurd hwidth' hwidth
  | cell row j t hwidth hrefused hleft =>
    cases h' with
    | width _ hwidth' => exact absurd hwidth hwidth'
    | cell _ j' t' _ hrefused' hleft' =>
      -- both are the leftmost
      have hj : j = j' := Nat.le_antisymm
        (Nat.not_lt.1 fun hlt => hleft j' hlt t' hrefused')
        (Nat.not_lt.1 fun hlt => hleft' j hlt t hrefused)
      subst hj
      rw [hrefused.type_unique hrefused']

theorem faultless_nil : Faultless headers timeGrouped [] := fun before scan after h => by
  cases before <;> cases h

/-- **One scan more** without a fault. -/
theorem Faultless.concat {scans : List Scan} (h : Faultless headers timeGrouped scans) {scan : Scan}
    (hscan : ∀ e, ¬Fault headers timeGrouped scans scan e) :
    Faultless headers timeGrouped (scans ++ [scan]) := by
  intro before s after heq
  rcases List.eq_nil_or_concat after with rfl | ⟨after', last, rfl⟩
  · obtain ⟨rfl, hlast⟩ := List.append_inj' heq rfl
    obtain rfl := List.singleton_inj.1 hlast
    exact hscan
  · rw [List.concat_eq_append, ← List.cons_append, ← List.append_assoc] at heq
    obtain ⟨rfl, -⟩ := List.append_inj' heq rfl
    exact h before s after' rfl

/-- **There is one first fault.** -/
theorem FirstFault.unique {scans before before' : List Scan} {scan scan' : Scan}
    {after after' : List Scan} {e e' : FrameError}
    (h : FirstFault headers timeGrouped scans before scan after e)
    (h' : FirstFault headers timeGrouped scans before' scan' after' e') :
    before = before' ∧ scan = scan' ∧ after = after' ∧ e = e' := by
  -- the one that comes later would have the other one before it
  have hearlier : ∀ {b b' : List Scan} {s s' : Scan} {a a' : List Scan} {d d' : FrameError},
      FirstFault headers timeGrouped scans b s a d →
      FirstFault headers timeGrouped scans b' s' a' d' →
      ∀ mid, b' = b ++ mid → s :: a = mid ++ s' :: a' → mid = [] := by
    intro b b' s s' a a' d d' hb hb' mid hmid hrest
    cases mid with
    | nil => rfl
    | cons m mid =>
      obtain ⟨rfl, -⟩ := List.cons.inj hrest
      exact absurd hb.fault (hb'.faultless b s mid hmid d)
  have hbefore : before = before' := by
    rcases List.append_eq_append_iff.1 (h.split.symm.trans h'.split) with
      ⟨mid, hmid, hrest⟩ | ⟨mid, hmid, hrest⟩
    · rw [hmid, hearlier h h' mid hmid hrest, List.append_nil]
    · rw [hmid, hearlier h' h mid hmid hrest, List.append_nil]
  subst hbefore
  obtain ⟨rfl, rfl⟩ := List.cons.inj (List.append_cancel_left (h.split.symm.trans h'.split))
  exact ⟨rfl, rfl, rfl, h.fault.unique h'.fault⟩

end

/-! ## What a materializer knows -/

/-- **When a column refuses a cell**: it has gathered no value, its header gives no
type, and its name bars the type of the cell. -/
theorem Gathered.refusal?_eq_some_iff {declared : SemanticType} {fill : FillPolicy}
    {cells : List Cell} {a : Accumulator} (h : Gathered declared fill cells a) {name : String}
    {cell : Cell} {e : FrameError} :
    a.refusal? name cell = some e ↔
      (declared = .unknown ∧ ∀ c ∈ cells, c.isNull = true) ∧ name = TypeName.metricName ∧
        ∃ t, cell.naturalType = .known t ∧ TypeName.isBarred t = true ∧
          e = .typeConflict TypeName.metricName (.firstValue t) := by
  -- a column with a type refuses nothing, and without one it has gathered no value
  cases h with
  | decided t htype hvalue =>
    refine iff_of_false (fun he => by cases he) ?_
    rintro ⟨⟨hdeclared, hnull⟩, -⟩
    obtain ⟨c, hc, hcvalue⟩ := hvalue hdeclared
    rw [hnull c hc] at hcvalue
    cases hcvalue
  | undecided hdeclared hnull =>
    rw [and_iff_right ⟨hdeclared, hnull⟩]
    cases hcell : cell.naturalType with
    | unknown =>
      simp only [Accumulator.refusal?, hcell]
      refine iff_of_false (fun he => by cases he) ?_
      rintro ⟨-, t, ht, -⟩
      cases ht
    | known t =>
      simp only [Accumulator.refusal?, hcell, Option.ite_none_right_eq_some, Option.some_inj]
      constructor
      · rintro ⟨⟨hname, hbarred⟩, rfl⟩
        exact ⟨hname, t, rfl, hbarred, rfl⟩
      · rintro ⟨hname, t', ht', hbarred, rfl⟩
        obtain rfl := SemanticType.known.inj ht'
        exact ⟨⟨hname, hbarred⟩, rfl⟩

namespace Materializer

/-- **What a materializer is after some scans.** -/
structure HasRead (headers : List Header) (timeGrouped : Bool) (scans : List Scan)
    (m : Materializer) : Prop where
  /-- It counts the rows. -/
  rows_eq : m.rows = scans.length
  /-- It has a column for each header. -/
  length_eq : m.columns.length = headers.length
  /-- A column has gathered its cells. -/
  column : ∀ (j : Nat) (header : Header), headers[j]? = some header →
    ∃ declared a, TypeName.resolve header timeGrouped = .ok declared ∧
      m.columns[j]? = some (header.name, a) ∧ Gathered declared m.fill (cellsAt scans j) a

variable {headers : List Header} {timeGrouped : Bool} {scans : List Scan} {m : Materializer}

theorem hasRead_start {fill : FillPolicy} (h : start headers timeGrouped fill = .ok m) :
    m.HasRead headers timeGrouped [] := by
  obtain ⟨hfill, hlength, hat⟩ := start_columns h
  obtain ⟨columns, -, hm⟩ := exists_of_map_eq_ok h
  refine ⟨by rw [← hm]; rfl, hlength, fun j header hj => ?_⟩
  obtain ⟨declared, hresolve, hcolumn⟩ := hat j header hj
  exact ⟨declared, _, hresolve, hcolumn, .ofType declared m.fill⟩

/-- **A column refuses the cell of a row** just if the scans read so far say so. -/
theorem HasRead.refusal?_iff (h : m.HasRead headers timeGrouped scans) {row : List Cell} {j : Nat}
    {name : String} {a : Accumulator} (ha : m.columns[j]? = some (name, a)) {cell : Cell}
    (hcell : row[j]? = some cell) {e : FrameError} :
    a.refusal? name cell = some e ↔ ∃ t, RefusedAt headers timeGrouped scans row j t ∧
      e = .typeConflict TypeName.metricName (.firstValue t) := by
  have hlt : j < headers.length := h.length_eq ▸ (List.getElem?_eq_some_iff.1 ha).1
  obtain ⟨declared, a', hresolve, ha', hgathered⟩ :=
    h.column j headers[j] (List.getElem?_eq_getElem hlt)
  obtain ⟨rfl, rfl⟩ := Prod.mk.inj (Option.some.inj (ha.symm.trans ha'))
  rw [hgathered.refusal?_eq_some_iff]
  constructor
  · rintro ⟨⟨rfl, hnull⟩, hname, t, ht, hbarred, rfl⟩
    exact ⟨t, ⟨⟨_, List.getElem?_eq_getElem hlt, hname, hresolve⟩, ⟨cell, hcell, ht⟩, hbarred,
      hnull⟩, rfl⟩
  · rintro ⟨t, ⟨⟨header, hheader, hname, hunknown⟩, ⟨cell', hcell', ht⟩, hbarred, hnull⟩, rfl⟩
    obtain rfl := Option.some.inj ((List.getElem?_eq_getElem hlt).symm.trans hheader)
    obtain rfl := Option.some.inj (hcell.symm.trans hcell')
    exact ⟨⟨Except.ok.inj (hresolve.symm.trans hunknown), hnull⟩, hname, t, ht, hbarred, rfl⟩

/-- No column left of the first refusal refuses its cell. -/
theorem refusal?_eq_none_of_lt {columns : List (String × Accumulator)} {row : List Cell} {j : Nat}
    (hj : ∀ place ∈ refusalAt? columns row, j < place) {name : String} {a : Accumulator}
    (ha : columns[j]? = some (name, a)) {cell : Cell} (hcell : row[j]? = some cell) :
    a.refusal? name cell = none := by
  have hzip : (columns.zip row)[j]? = some ((name, a), cell) :=
    List.getElem?_zip_eq_some.2 ⟨ha, hcell⟩
  rw [← Option.not_isSome_iff_eq_none]
  cases hat : refusalAt? columns row with
  | none =>
    have hnone := List.findIdx?_eq_none_iff.1 hat _ (List.mem_of_getElem? hzip)
    exact Bool.eq_false_iff.1 hnone
  | some place =>
    obtain ⟨hlt, -, hbefore⟩ := List.findIdx?_eq_some_iff_getElem.1 hat
    have hnot := hbefore j (hj place hat)
    rwa [(List.getElem?_eq_some_iff.1 hzip).2] at hnot

theorem HasRead.not_refusedAt (h : m.HasRead headers timeGrouped scans) {row : List Cell} {j : Nat}
    (hj : ∀ place ∈ refusalAt? m.columns row, j < place) (t : ColumnType) :
    ¬RefusedAt headers timeGrouped scans row j t := by
  intro hrefused
  obtain ⟨header, hheader, -, -⟩ := hrefused.untyped
  obtain ⟨cell, hcell, -⟩ := hrefused.value
  obtain ⟨declared, a, -, ha, -⟩ := h.column j header hheader
  have hsome := (h.refusal?_iff ha hcell).2 ⟨t, hrefused, rfl⟩
  rw [refusal?_eq_none_of_lt hj ha hcell] at hsome
  cases hsome

/-- **One scan**: it is read if nothing is wrong with it, and fails with its fault
if something is. -/
theorem HasRead.pushScan_outcome (h : m.HasRead headers timeGrouped scans) (scan : Scan) :
    (∃ m', m.pushScan scan = (m', none) ∧ m'.HasRead headers timeGrouped (scans ++ [scan]) ∧
        ∀ e, ¬Fault headers timeGrouped scans scan e) ∨
      ∃ m' e, m.pushScan scan = (m', some e) ∧ Fault headers timeGrouped scans scan e := by
  cases scan with
  | error text =>
    refine .inr ⟨m, .rowScan m.rows text, rfl, ?_⟩
    rw [h.rows_eq]
    exact .scan text
  | ok row =>
    rcases m.pushRow_cases row with ⟨hlen, hpush⟩ | ⟨hlen, columns, error, hreach, hpush⟩
    · refine .inr ⟨m, _, hpush, ?_⟩
      rw [h.rows_eq, h.length_eq]
      exact .width row (h.length_eq ▸ hlen)
    · have hwidth : row.length = headers.length := hlen.trans h.length_eq
      -- the width is right, so the row fails just if one of its cells is refused
      cases hat : refusalAt? m.columns row with
      | none =>
        have hfree : ∀ j, ∀ place ∈ refusalAt? m.columns row, j < place := fun j place hplace => by
          rw [hat] at hplace
          cases hplace
        obtain rfl := hreach.error_eq_none hat
        refine .inl ⟨_, hpush, ⟨?_, hreach.length_eq.trans h.length_eq, fun j header hj => ?_⟩,
          fun e hfault => ?_⟩
        · rw [List.length_append, List.length_singleton, ← h.rows_eq]
          rfl
        · obtain ⟨declared, a, hresolve, ha, hgathered⟩ := h.column j header hj
          obtain ⟨cell, a', hcell, htaken, -, ha'⟩ := hreach.taken j _ _ ha (hfree j)
          refine ⟨declared, a', hresolve, ha', ?_⟩
          rw [cellsAt_concat hcell]
          exact hgathered.push htaken
        · cases hfault with
          | width _ hne => exact hne hwidth
          | cell _ j t _ hrefused _ => exact h.not_refusedAt (hfree j) t hrefused
      | some place =>
        obtain ⟨name, a, cell, ha, hcell, herror, hsome⟩ := hreach.error_eq_some place hat
        obtain ⟨e, rfl⟩ := Option.isSome_iff_exists.1 hsome
        obtain ⟨t, hrefused, rfl⟩ := (h.refusal?_iff ha hcell).1 herror
        refine .inr ⟨_, _, hpush, .cell row place t hwidth hrefused fun j hj t' => ?_⟩
        refine h.not_refusedAt (fun place' hplace' => ?_) t'
        rwa [← Option.some.inj (hat.symm.trans hplace')]

/-! ## A whole run -/

/-- **Takes scans up to the first failure**, and hands back those that it has not
looked at. -/
def drain (m : Materializer) : List Scan → (Materializer × Option FrameError) × List Scan
  | [] => ((m, none), [])
  | scan :: rest =>
    match m.pushScan scan with
    | (m', none) => m'.drain rest
    | (m', some e) => ((m', some e), rest)

theorem fst_drain (m : Materializer) (scans : List Scan) : (m.drain scans).1 = m.consume scans := by
  induction scans generalizing m with
  | nil => rfl
  | cons scan rest ih =>
    cases hscan : m.pushScan scan with
    | mk m' failure =>
      cases failure with
      | none =>
        simp only [drain, consume, hscan]
        exact ih m'
      | some e => simp only [drain, consume, hscan]

/-- **All scans**: they are read if none has a fault, and otherwise those up to the
first that has one. -/
theorem HasRead.drain_outcome (h : m.HasRead headers timeGrouped scans)
    (hscans : Faultless headers timeGrouped scans) (rest : List Scan) :
    (∃ m', m.drain rest = ((m', none), []) ∧ Faultless headers timeGrouped (scans ++ rest)) ∨
      ∃ before scan after e m', FirstFault headers timeGrouped (scans ++ rest) before scan after e ∧
        m.drain rest = ((m', some e), after) := by
  induction rest generalizing scans m with
  | nil =>
    refine .inl ⟨m, rfl, ?_⟩
    rwa [List.append_nil]
  | cons scan rest ih =>
    rcases h.pushScan_outcome scan with ⟨m', hpush, hm', hfree⟩ | ⟨m', e, hpush, hfault⟩
    · have hdrain : m.drain (scan :: rest) = m'.drain rest := by rw [drain, hpush]
      have hrest := ih hm' (hscans.concat hfree)
      rwa [hdrain, List.append_cons]
    · exact .inr ⟨scans, scan, rest, e, m', ⟨rfl, hfault, hscans⟩, by rw [drain, hpush]⟩

end Materializer

/-! ## Whole tables -/

section

variable {headers : List Header} {scans : List Scan} {timeGrouped : Bool} {fill : FillPolicy}

theorem exists_headerFault_iff :
    (∃ e, HeaderFault headers e) ↔ ∃ h ∈ headers, ∃ t, h.Refused t := by
  constructor
  · rintro ⟨_, before, after, h, t, rfl, -, ht⟩
    exact ⟨h, List.mem_append_right before List.mem_cons_self, t, ht⟩
  · rintro ⟨h, hmem, t, ht⟩
    cases hstart : Materializer.start headers false .null with
    | error e => exact ⟨e, Materializer.start_eq_error_iff.1 hstart⟩
    | ok m =>
      obtain ⟨-, -, hat⟩ := Materializer.start_columns hstart
      obtain ⟨j, hj⟩ := List.mem_iff_getElem?.1 hmem
      obtain ⟨declared, hresolve, -⟩ := hat j h hj
      exact absurd ht (Header.not_refused hresolve t)

/-- **The three ways in which a table can end**: at its headers, after all scans, or
at the first scan with a fault. -/
theorem materialize_cases (headers : List Header) (scans : List Scan) (timeGrouped : Bool)
    (fill : FillPolicy) :
    (∃ e, HeaderFault headers e ∧ Materializer.start headers timeGrouped fill = .error e ∧
        materialize headers scans timeGrouped fill = .error e) ∨
      (∀ e, ¬HeaderFault headers e) ∧
        ∃ m, Materializer.start headers timeGrouped fill = .ok m ∧
          ((∃ m', Faultless headers timeGrouped scans ∧ m.drain scans = ((m', none), []) ∧
              materialize headers scans timeGrouped fill = .ok m'.finish) ∨
            ∃ before scan after e m', FirstFault headers timeGrouped scans before scan after e ∧
              m.drain scans = ((m', some e), after) ∧
              materialize headers scans timeGrouped fill = .error e) := by
  cases hstart : Materializer.start headers timeGrouped fill with
  | error e =>
    refine .inl ⟨e, Materializer.start_eq_error_iff.1 hstart, rfl, ?_⟩
    rw [materialize, hstart]
    rfl
  | ok m =>
    refine .inr ⟨fun e he => ?_, m, rfl, ?_⟩
    · rw [Materializer.start_eq_error_iff.2 he] at hstart
      cases hstart
    · -- handing back the rest does not change the run, so the outcome of the scans is that of the
      -- table
      have hrun : materialize headers scans timeGrouped fill =
          match (m.drain scans).1 with
          | (m', none) => .ok m'.finish
          | (_, some e) => .error e := by
        rw [materialize, hstart, Materializer.fst_drain]
        rfl
      have houtcome := (Materializer.hasRead_start hstart).drain_outcome faultless_nil scans
      rw [List.nil_append] at houtcome
      rcases houtcome with ⟨m', hdrain, hfree⟩ | ⟨before, scan, after, e, m', hfirst, hdrain⟩
      · exact .inl ⟨m', hfree, hdrain, by rw [hrun, hdrain]⟩
      · exact .inr ⟨before, scan, after, e, m', hfirst, hdrain, by rw [hrun, hdrain]⟩

theorem Faultless.not_firstFault (h : Faultless headers timeGrouped scans) {before : List Scan}
    {scan : Scan} {after : List Scan} {e : FrameError} :
    ¬FirstFault headers timeGrouped scans before scan after e := fun hfirst =>
  h before scan after hfirst.split e hfirst.fault

/-- **Which error a table has**: that of its headers if one of them is refused,
and else that of the first scan with a fault. What comes after that scan has no
part in it. -/
theorem materialize_eq_error_iff {e : FrameError} :
    materialize headers scans timeGrouped fill = .error e ↔
      HeaderFault headers e ∨ (∀ e', ¬HeaderFault headers e') ∧
        ∃ before scan after, FirstFault headers timeGrouped scans before scan after e := by
  rcases materialize_cases headers scans timeGrouped fill with
    ⟨e', hfault, hstart, herror⟩ | ⟨hheaders, m, hstart,
      ⟨m', hfree, hdrain, hok⟩ | ⟨before, scan, after, e', m', hfirst, hdrain, herror⟩⟩
  · rw [herror, or_iff_left (fun h => h.1 e' hfault)]
    constructor
    · intro he
      exact Except.error.inj he ▸ hfault
    · intro he
      have hstart' : Materializer.start headers timeGrouped fill = .error e :=
        Materializer.start_eq_error_iff.2 he
      rw [hstart] at hstart'
      rw [Except.error.inj hstart']
  · rw [hok, or_iff_right (hheaders e), and_iff_right hheaders]
    refine iff_of_false (fun he => by cases he) ?_
    rintro ⟨before, scan, after, hfirst⟩
    exact hfree.not_firstFault hfirst
  · rw [herror, or_iff_right (hheaders e), and_iff_right hheaders]
    constructor
    · intro he
      exact ⟨before, scan, after, Except.error.inj he ▸ hfirst⟩
    · rintro ⟨before', scan', after', hfirst'⟩
      -- there is only one first fault
      obtain ⟨-, -, -, rfl⟩ := hfirst.unique hfirst'
      rfl

/-- **When a table has columns.** -/
theorem exists_materialize_iff :
    (∃ columns, materialize headers scans timeGrouped fill = .ok columns) ↔
      (∀ e, ¬HeaderFault headers e) ∧ Faultless headers timeGrouped scans := by
  rcases materialize_cases headers scans timeGrouped fill with
    ⟨e, hfault, -, herror⟩ | ⟨hheaders, m, -,
      ⟨m', hfree, -, hok⟩ | ⟨before, scan, after, e, m', hfirst, -, herror⟩⟩
  · exact iff_of_false (fun ⟨_, hok⟩ => by rw [herror] at hok; cases hok) (fun h => h.1 e hfault)
  · exact iff_of_true ⟨_, hok⟩ ⟨hheaders, hfree⟩
  · exact iff_of_false (fun ⟨_, hok⟩ => by rw [herror] at hok; cases hok)
      (fun h => h.2.not_firstFault hfirst)

/-- **A table of one column** has it, if every row has one cell and none of them is
refused. -/
theorem exists_materialize_single {header : Header} {declared : SemanticType}
    (hresolve : TypeName.resolve header timeGrouped = .ok declared) (hrows : Rectangular 1 scans)
    (hfree : ∀ before row after, scans = before ++ .ok row :: after →
      ∀ t, ¬RefusedAt [header] timeGrouped before row 0 t) :
    ∃ columns, materialize [header] scans timeGrouped fill = .ok columns := by
  rw [exists_materialize_iff]
  constructor
  · intro e he
    obtain ⟨h, hmem, t, ht⟩ := exists_headerFault_iff.1 ⟨e, he⟩
    obtain rfl := List.mem_singleton.1 hmem
    exact Header.not_refused hresolve t ht
  · intro before scan after hscans e hfault
    obtain ⟨row, rfl, hwidth⟩ :=
      hrows scan (hscans ▸ List.mem_append_right before List.mem_cons_self)
    cases hfault with
    | width _ hne => exact hne hwidth
    | cell _ j t _ hrefused _ =>
      obtain ⟨h, hheader, -, -⟩ := hrefused.untyped
      obtain rfl : j = 0 := Nat.lt_one_iff.1 (List.getElem?_eq_some_iff.1 hheader).1
      exact hfree before row after hscans t hrefused

/-- Nothing after the first fault is looked at. -/
theorem FirstFault.drain_eq {before : List Scan} {scan : Scan} {after : List Scan} {e : FrameError}
    (h : FirstFault headers timeGrouped scans before scan after e) {m : Materializer}
    (hstart : Materializer.start headers timeGrouped fill = .ok m) :
    ∃ m', m.drain scans = ((m', some e), after) := by
  rcases materialize_cases headers scans timeGrouped fill with
    ⟨e', -, hstart', -⟩ | ⟨-, m₁, hstart',
      ⟨m', hfree, -, -⟩ | ⟨before', scan', after', e', m', hfirst, hdrain, -⟩⟩
  · rw [hstart] at hstart'
    cases hstart'
  · exact absurd h hfree.not_firstFault
  · obtain rfl := Except.ok.inj (hstart.symm.trans hstart')
    obtain ⟨-, -, rfl, rfl⟩ := h.unique hfirst
    exact ⟨m', hdrain⟩

end

/-- **What a table fails with, and how far it is read.** It fails at the start just
if a header is refused, with the first that is. Else it fails just if some
scan has a fault: one that brings no row, a row of the wrong width, or a row
that gives a number or a time to a column that names series, has no type by
its header and had no value so far. The error is that of the first such
scan, which has its place among the scans where it tells one, and all that
comes after it is left unread. Nothing else makes a table fail. -/
theorem materialize_outcome (headers : List Header) (scans : List Scan) (timeGrouped : Bool)
    (fill : FillPolicy) :
    ((∃ e, Materializer.start headers timeGrouped fill = .error e) ↔
      ∃ h ∈ headers, ∃ t, h.Refused t) ∧
    (∀ e, Materializer.start headers timeGrouped fill = .error e ↔ HeaderFault headers e) ∧
    ((∃ columns, materialize headers scans timeGrouped fill = .ok columns) ↔
      (∀ h ∈ headers, ∀ t, ¬h.Refused t) ∧ Faultless headers timeGrouped scans) ∧
    (∀ e, materialize headers scans timeGrouped fill = .error e ↔
      HeaderFault headers e ∨ (∀ h ∈ headers, ∀ t, ¬h.Refused t) ∧
        ∃ before scan after, FirstFault headers timeGrouped scans before scan after e) ∧
    ∀ m, Materializer.start headers timeGrouped fill = .ok m →
      (m.drain scans).1 = m.consume scans ∧
      ∀ before scan after e, FirstFault headers timeGrouped scans before scan after e →
        ∃ m', m.drain scans = ((m', some e), after) := by
  have hnone : (∀ e, ¬HeaderFault headers e) ↔ ∀ h ∈ headers, ∀ t, ¬h.Refused t := by
    rw [← not_exists, exists_headerFault_iff]
    simp only [not_exists, not_and]
  refine ⟨?_, fun e => Materializer.start_eq_error_iff, ?_, fun e => ?_, fun m hstart => ?_⟩
  · simp only [Materializer.start_eq_error_iff, exists_headerFault_iff]
  · rw [exists_materialize_iff, hnone]
  · rw [materialize_eq_error_iff, hnone]
  · exact ⟨m.fst_drain scans, fun before scan after e hfirst => hfirst.drain_eq hstart⟩

/-- A value that does not convert and two rows without a metric are read; the first
metric is a number, and the scan after it is left. -/
theorem materialize_outcome_lateNumber :
    Materializer.start [⟨"value", "INTEGER"⟩, ⟨"metric", ""⟩] false .null
      = .ok ⟨[("value", .decided .integer #[] none), ("metric", .undecided 0)], .null, 0⟩ ∧
    ∃ before scan after,
      FirstFault [⟨"value", "INTEGER"⟩, ⟨"metric", ""⟩] false
        [.ok [.text "x", .null], .ok [.int 1, .null], .ok [.int 2, .int 7], .error "lost"]
        before scan after (.typeConflict "metric" (.firstValue .integer)) ∧
      ∃ m', Materializer.drain
        ⟨[("value", .decided .integer #[] none), ("metric", .undecided 0)], .null, 0⟩
        [.ok [.text "x", .null], .ok [.int 1, .null], .ok [.int 2, .int 7], .error "lost"]
          = ((m', some (.typeConflict "metric" (.firstValue .integer))), after) := by
  have hstart : Materializer.start [⟨"value", "INTEGER"⟩, ⟨"metric", ""⟩] false .null
      = .ok ⟨[("value", .decided .integer #[] none), ("metric", .undecided 0)], .null, 0⟩ := rfl
  obtain ⟨-, hheaders, -, herror, hdrain⟩ := materialize_outcome
    [⟨"value", "INTEGER"⟩, ⟨"metric", ""⟩]
    [.ok [.text "x", .null], .ok [.int 1, .null], .ok [.int 2, .int 7], .error "lost"] false .null
  have hfails : materialize [⟨"value", "INTEGER"⟩, ⟨"metric", ""⟩]
      [.ok [.text "x", .null], .ok [.int 1, .null], .ok [.int 2, .int 7], .error "lost"] false .null
      = .error (.typeConflict "metric" (.firstValue .integer)) := by decide
  rcases (herror _).1 hfails with hheader | ⟨-, before, scan, after, hfirst⟩
  · have hstart' := (hheaders _).2 hheader
    rw [hstart] at hstart'
    cases hstart'
  · exact ⟨hstart, before, scan, after, hfirst, (hdrain _ hstart).2 _ _ _ _ hfirst⟩

end WindowQuery
