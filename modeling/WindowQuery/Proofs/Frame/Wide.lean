import Mathlib.Data.List.Pairwise
import WindowQuery.Proofs.Frame.Placement
import WindowQuery.Proofs.Frame.Roles
import WindowQuery.Proofs.Keyed
import WindowQuery.Proofs.Success

/-!
# The wide form of a long frame

The rows of a long frame are points: each has a time, and a tuple of
factors that names its series. The wide form is said here by points alone,
without slots and placements. At a time and a series it holds the entries
of the row that has both, and nothing where no row has
(`Frame.pivotEntry`); its times ascend, and its series stand in the order
in which the rows first name them.

`toWide_isWide` says that a pivot that succeeds is this form. It adds that
no two rows have both time and series, and that each row goes to exactly
one slot of exactly one series, so that nothing is lost or written twice.
-/

namespace WindowQuery

/-! ## Rows as points -/

/-- The times of a column, none if it holds something else. -/
def Column.times (c : Column) : List (Option Instant) :=
  match c.values with
  | ⟨.time, entries⟩ => entries
  | _ => []

namespace Frame

/-- The time of each row. -/
def times (f : Frame) : List (Option Instant) := f.timeColumn?.elim [] Column.times

/-- **The tuple of factors of a row**; a missing factor is none of the
texts. -/
def tupleAt (f : Frame) (r : Nat) : Pivot.Key := f.factorColumns.map (Pivot.factorAt r)

/-- The tuples of all rows, in order. -/
def tuples (f : Frame) : List Pivot.Key := (List.range f.times.length).map f.tupleAt

/-- Whether a row has a time and a tuple. -/
def IsPoint (f : Frame) (t : Instant) (k : Pivot.Key) (r : Nat) : Prop :=
  f.times[r]? = some (some t) ∧ f.tupleAt r = k

instance (f : Frame) (t : Instant) (k : Pivot.Key) (r : Nat) : Decidable (f.IsPoint t k r) :=
  inferInstanceAs (Decidable (_ ∧ _))

/-- **The row at a time and a tuple**, if there is one. -/
def rowOf? (f : Frame) (t : Instant) (k : Pivot.Key) : Option Nat :=
  (List.range f.times.length).find? (fun r => f.IsPoint t k r)

/-- **The entry of some values at a time and a tuple.** -/
def pivotEntry (f : Frame) (k : Pivot.Key) (source : Values) (t : Instant) :
    Option source.type.Entry :=
  (f.rowOf? t k).bind (fun r => source.entries[r]?.join)

/-- The entries of some values at a tuple, one for each time. -/
def pivotValues (f : Frame) (times : List Instant) (k : Pivot.Key) (source : Values) : Values :=
  ⟨source.type, times.map (f.pivotEntry k source)⟩

/-- **The label of a tuple under a name**: its value of the last factor column
that has the name, an empty text where that is missing. -/
def labelOf (f : Frame) (k : Pivot.Key) (name : String) : Option String :=
  ((f.factorColumns.zip k).reverse.find? (fun x => x.1.name == name)).map (fun x => x.2.getD "")

end Frame

/-- **The wide form of a frame**, with the given times and series. -/
structure IsWide (f : Frame) (times : List Instant) (series : List Pivot.Key) (g : Frame) :
    Prop where
  /-- Every row has a time. -/
  timed : ∀ r < f.times.length, ∃ t ∈ times, f.times[r]? = some (some t)
  /-- There are no other times. -/
  mem_times : ∀ t ∈ times, some t ∈ f.times
  /-- The times ascend, so none stands twice. -/
  ascending : times.Pairwise (· < ·)
  /-- The series are the tuples of the rows. -/
  mem_series : ∀ k, k ∈ series ↔ k ∈ f.tuples
  /-- They stand in the order of their first rows, so none stands twice. -/
  first_appearance : series.Pairwise (fun a b => f.tuples.idxOf a < f.tuples.idxOf b)
  /-- No two rows have both a time and a tuple. -/
  unique : ∀ t k r r', f.IsPoint t k r → f.IsPoint t k r' → r = r'
  /-- Each row goes to one slot of one series. -/
  placed : ∀ r < f.times.length, ∃! p : Nat × Nat,
    series[p.1]? = some (f.tupleAt r) ∧ ∃ t, times[p.2]? = some t ∧ f.times[r]? = some (some t)
  /-- The columns are the times, and for each series its value columns. -/
  columns : ∃ (timeColumn : Column) (labels : Pivot.Key → Keyed String),
    f.timeColumn? = some timeColumn ∧
      (∀ k ∈ series, ∀ name, (labels k).get? name = f.labelOf k name) ∧
      g.columns = .ofValues timeColumn.name ⟨.time, times.map some⟩ ::
        series.flatMap (fun k => f.valueColumns.map (fun v =>
          ⟨v.name, labels k, f.pivotValues times k v.values⟩))
  /-- All columns are as long as there are times. -/
  length_eq : ∀ c ∈ g.columns, c.values.length = times.length
  /-- The name stays. -/
  name_eq : g.name = f.name
  /-- The SQL stays. -/
  query_eq : g.query = f.query

namespace Pivot

/-! ## Entries into slots -/

/-- Copies entries into the slots of their placements, one after the other. -/
def scatter {α : Type} (source : List (Option α)) (xs : List (Option α)) (qs : List Placement) :
    List (Option α) :=
  qs.foldl (fun xs q => source[q.row]?.elim xs (fun e => xs.set q.slot e)) xs

/-- The values of a series are scattered entries. -/
theorem foldl_setFrom (source : Values) (xs : List (Option source.type.Entry))
    (qs : List Placement) :
    qs.foldl (fun (v : Values) q => v.setFrom q.slot source q.row) ⟨source.type, xs⟩
      = ⟨source.type, scatter source.entries xs qs⟩ := by
  induction qs generalizing xs with
  | nil => rfl
  | cons q qs ih =>
    have hstep : Values.setFrom ⟨source.type, xs⟩ q.slot source q.row
        = ⟨source.type, source.entries[q.row]?.elim xs (fun e => xs.set q.slot e)⟩ := by
      unfold Values.setFrom
      rw [dif_pos rfl]
      cases source.entries[q.row]? <;> rfl
    rw [List.foldl_cons, hstep, ih]
    rfl

section Scatter

variable {α : Type} {source xs : List (Option α)} {qs : List Placement}

@[simp] theorem length_scatter : (scatter source xs qs).length = xs.length := by
  unfold scatter
  induction qs generalizing xs with
  | nil => rfl
  | cons q qs ih =>
    rw [List.foldl_cons, ih]
    cases source[q.row]? with
    | none => rfl
    | some e => exact List.length_set

theorem getElem?_scatter_of_notMem {s : Nat} (h : ∀ q ∈ qs, q.slot ≠ s) :
    (scatter source xs qs)[s]? = xs[s]? := by
  unfold scatter
  induction qs generalizing xs with
  | nil => rfl
  | cons q qs ih =>
    rw [List.foldl_cons, ih (fun q' hq' => h q' (List.mem_cons_of_mem _ hq'))]
    cases source[q.row]? with
    | none => rfl
    | some e => exact List.getElem?_set_ne (h q List.mem_cons_self)

/-- **A slot holds the entry of its placement**, if no two have one slot. -/
theorem getElem?_scatter {s : Nat} (hs : xs[s]? = some none)
    (h : qs.Pairwise (fun a b => a.slot ≠ b.slot)) :
    (scatter source xs qs)[s]?
      = some ((qs.find? (fun q => q.slot == s)).bind (fun q => source[q.row]?.join)) := by
  induction qs generalizing xs with
  | nil => exact hs
  | cons q qs ih =>
    obtain ⟨hq, hqs⟩ := List.pairwise_cons.1 h
    show (scatter source (source[q.row]?.elim xs (fun e => xs.set q.slot e)) qs)[s]? = _
    by_cases hslot : q.slot = s
    · subst hslot
      rw [getElem?_scatter_of_notMem (fun q' hq' => (hq q' hq').symm)]
      simp only [List.find?_cons, beq_self_eq_true, Option.bind_some]
      cases source[q.row]? with
      | none => exact hs
      | some e => exact List.getElem?_set_self (List.getElem?_eq_some_iff.1 hs).1
    · rw [List.find?_cons_of_neg (by simpa using hslot)]
      refine ih ?_ hqs
      cases source[q.row]? with
      | none => exact hs
      | some e => exact (List.getElem?_set_ne hslot).trans hs

end Scatter

/-! ## A pivot that succeeds -/

theorem keyAt_infer (f : Frame) : keyAt f (Schema.infer f) = f.tupleAt := by
  funext r
  rw [keyAt, columnsAt_factors, Frame.tupleAt]

theorem times?_eq_ok {f : Frame} {timeColumn : Column} (h : f.timeColumn? = some timeColumn) :
    times? timeColumn = .ok f.times := by
  have hisTime : timeColumn.isTime = true := List.find?_some h
  rw [Frame.times, h]
  obtain ⟨name, labels, type, entries⟩ := timeColumn
  obtain rfl : type = .time := beq_iff_eq.1 hisTime
  rfl

/-- **A pivot by the columns that play the roles**: one pass over the times, and
one column for each series and value column. -/
theorem toWide_infer_eq {f : Frame} {timeColumn : Column} (h : f.timeColumn? = some timeColumn) :
    toWide f (Schema.infer f) = (placeRows f.tupleAt ⟨#[], #[]⟩ 0 f.times).map (fun p =>
      ⟨f.name, .ofValues timeColumn.name ⟨.time, p.times.toList.map some⟩ ::
        (distinctKeys (p.placements.toList.map (·.key))).flatMap (fun key =>
          f.valueColumns.map (seriesColumn f.factorColumns p key)), f.query⟩) := by
  unfold toWide
  rw [timeColumn?_eq, h]
  simp only [keyAt_infer, columnsAt_factors, columnsAt_values, times?_eq_ok h]
  rfl

/-- What a pivot that succeeds has found, and what it returns. -/
theorem toWide_infer {f g : Frame} (h : toWide f (Schema.infer f) = .ok g) :
    ∃ (timeColumn : Column) (rowTimes : List Instant) (p : Progress),
      f.timeColumn? = some timeColumn ∧ f.times = rowTimes.map some ∧
        Placed f.tupleAt rowTimes p ∧
        g = ⟨f.name, .ofValues timeColumn.name ⟨.time, p.times.toList.map some⟩ ::
          (distinctKeys (p.placements.toList.map (·.key))).flatMap (fun key =>
            f.valueColumns.map (seriesColumn f.factorColumns p key)), f.query⟩ := by
  cases htime : f.timeColumn? with
  | none =>
    unfold toWide at h
    rw [timeColumn?_eq, htime] at h
    cases h
  | some timeColumn =>
    rw [toWide_infer_eq htime] at h
    obtain ⟨p, hrows, rfl⟩ := exists_of_map_eq_ok h
    obtain ⟨rowTimes, hmap, hplaced⟩ := (Placed.start f.tupleAt).placeRows hrows
    exact ⟨timeColumn, rowTimes, p, rfl, hmap, hplaced, rfl⟩

section Points

variable {f : Frame} {rowTimes : List Instant} {p : Progress}

theorem isPoint_iff (hf : f.times = rowTimes.map some) {t : Instant} {k : Key} {r : Nat} :
    f.IsPoint t k r ↔ rowTimes[r]? = some t ∧ f.tupleAt r = k := by
  rw [Frame.IsPoint, hf, List.getElem?_map]
  simp

theorem Placed.isPoint (h : Placed f.tupleAt rowTimes p) (hf : f.times = rowTimes.map some)
    {q : Placement} (hq : q ∈ p.placements.toList) :
    ∃ t, p.times.toList[q.slot]? = some t ∧ f.IsPoint t q.key q.row := by
  obtain ⟨hkey, t, hrow, hslot⟩ := h.placed q hq
  exact ⟨t, hslot, (isPoint_iff hf).2 ⟨hrow, hkey.symm⟩⟩

/-- **No two rows have both a time and a tuple.** -/
theorem Placed.point_unique (h : Placed f.tupleAt rowTimes p) (hf : f.times = rowTimes.map some)
    {t : Instant} {k : Key} {r r' : Nat} (hr : f.IsPoint t k r) (hr' : f.IsPoint t k r') :
    r = r' := by
  obtain ⟨ht, hk⟩ := (isPoint_iff hf).1 hr
  obtain ⟨ht', hk'⟩ := (isPoint_iff hf).1 hr'
  obtain ⟨q, hq, rfl⟩ := h.exists_placement (List.getElem?_eq_some_iff.1 ht).1
  obtain ⟨q', hq', rfl⟩ := h.exists_placement (List.getElem?_eq_some_iff.1 ht').1
  obtain ⟨hkey, s, hrow, hslot⟩ := h.placed q hq
  obtain ⟨hkey', s', hrow', hslot'⟩ := h.placed q' hq'
  by_contra hne
  have hqq' : q ≠ q' := fun he => hne (congrArg Placement.row he)
  have hsymm : Std.Symm (fun a b : Placement => ¬(a.slot = b.slot ∧ a.key = b.key)) :=
    ⟨fun a b hab hba => hab ⟨hba.1.symm, hba.2.symm⟩⟩
  refine h.distinct.forall hq hq' hqq' ⟨slot_unique h.ascending (t := t) ?_ ?_, ?_⟩
  · rw [hslot, ← hrow, ht]
  · rw [hslot', ← hrow', ht']
  · rw [hkey, hkey', hk, hk']

theorem isPoint_of_rowOf? {t : Instant} {k : Key} {r : Nat} (h : f.rowOf? t k = some r) :
    f.IsPoint t k r :=
  of_decide_eq_true (List.find?_some (p := fun r => decide (f.IsPoint t k r)) h)

/-- The row at a point. -/
theorem Placed.rowOf?_eq_some (h : Placed f.tupleAt rowTimes p) (hf : f.times = rowTimes.map some)
    {t : Instant} {k : Key} {r : Nat} : f.rowOf? t k = some r ↔ f.IsPoint t k r := by
  constructor
  · exact isPoint_of_rowOf?
  · intro hr
    have hlt : r < f.times.length := (List.getElem?_eq_some_iff.1 hr.1).1
    cases hrow : f.rowOf? t k with
    | none =>
      have hnot := List.find?_eq_none.1 hrow r (List.mem_range.2 hlt)
      exact absurd (decide_eq_true hr) hnot
    | some r' =>
      exact congrArg some (h.point_unique hf (isPoint_of_rowOf? hrow) hr)

/-- **The placement of a series at a slot is the row at a point.** -/
theorem Placed.find?_slot (h : Placed f.tupleAt rowTimes p) (hf : f.times = rowTimes.map some)
    {k : Key} {s : Nat} {t : Instant} (hs : p.times.toList[s]? = some t) :
    ((p.placements.toList.filter (fun q => q.key == k)).find? (fun q => q.slot == s)).map
        Placement.row = f.rowOf? t k := by
  cases hfind : (p.placements.toList.filter (fun q => q.key == k)).find? (fun q => q.slot == s) with
  | some q =>
    obtain ⟨hq, hkey⟩ := List.mem_filter.1 (List.mem_of_find?_eq_some hfind)
    obtain rfl : q.slot = s :=
      beq_iff_eq.1 (List.find?_some (p := fun q : Placement => q.slot == s) hfind)
    obtain ⟨t', ht', hpoint⟩ := h.isPoint hf hq
    obtain rfl : t' = t := Option.some.inj (ht'.symm.trans hs)
    obtain rfl : q.key = k := beq_iff_eq.1 hkey
    exact ((h.rowOf?_eq_some hf).2 hpoint).symm
  | none =>
    cases hrow : f.rowOf? t k with
    | none => rfl
    | some r =>
      -- the row has a placement, and its slot can only be this one
      obtain ⟨ht, hk⟩ := (isPoint_iff hf).1 ((h.rowOf?_eq_some hf).1 hrow)
      obtain ⟨q, hq, rfl⟩ := h.exists_placement (List.getElem?_eq_some_iff.1 ht).1
      obtain ⟨hkey, t', hrow', hslot⟩ := h.placed q hq
      obtain rfl : t' = t := Option.some.inj (hrow'.symm.trans ht)
      have hmem : q ∈ p.placements.toList.filter (fun q => q.key == k) :=
        List.mem_filter.2 ⟨hq, beq_iff_eq.2 (hkey.trans hk)⟩
      have hne := List.find?_eq_none.1 hfind q hmem
      exact absurd (beq_iff_eq.2 (slot_unique h.ascending hslot hs)) hne

/-- **The values of a series column** are the entries at its points. -/
theorem Placed.seriesColumn_eq (h : Placed f.tupleAt rowTimes p)
    (hf : f.times = rowTimes.map some) (k : Key) (source : Column) :
    seriesColumn f.factorColumns p k source
      = ⟨source.name, labelsOf f.factorColumns k,
          f.pivotValues p.times.toList k source.values⟩ := by
  unfold seriesColumn
  refine congrArg (Column.mk _ _) ?_
  refine (foldl_setFrom source.values (List.replicate p.times.size none) _).trans ?_
  refine congrArg (Values.mk _) (List.ext_getElem? (fun s => ?_))
  -- one series has one row for each time, so no slot is written twice
  have hdistinct : (p.placements.toList.filter (fun q => q.key == k)).Pairwise
      (fun a b => a.slot ≠ b.slot) := by
    refine (h.distinct.filter _).imp_of_mem (fun {a b} ha hb hab hslot => hab ⟨hslot, ?_⟩)
    rw [beq_iff_eq.1 (List.mem_filter.1 ha).2, beq_iff_eq.1 (List.mem_filter.1 hb).2]
  cases hs : p.times.toList[s]? with
  | none =>
    have hlen : p.times.toList.length ≤ s := List.getElem?_eq_none_iff.1 hs
    rw [List.getElem?_map, hs, Option.map_none, List.getElem?_eq_none_iff, length_scatter,
      List.length_replicate]
    exact hlen
  | some t =>
    have hlt : s < p.times.size := (List.getElem?_eq_some_iff.1 hs).1
    rw [getElem?_scatter (List.getElem?_replicate_of_lt hlt) hdistinct, List.getElem?_map, hs,
      Option.map_some, Frame.pivotEntry, ← h.find?_slot hf hs, Option.bind_map]
    rfl

theorem Placed.keys_eq (h : Placed f.tupleAt rowTimes p) (hf : f.times = rowTimes.map some) :
    p.placements.toList.map (·.key) = f.tuples := by
  rw [Frame.tuples, hf, List.length_map, ← h.rows, List.map_map]
  exact List.map_congr_left (fun q hq => (h.placed q hq).1)

end Points

theorem get?_labelsOf (f : Frame) (k : Key) (name : String) :
    (labelsOf f.factorColumns k).get? name = f.labelOf k name := by
  rw [labelsOf, Keyed.get?_ofList, ← List.map_reverse, List.find?_map, Option.map_map]
  rfl

/-- **A pivot that succeeds is the wide form.** Its times are the different times
of the rows, in order, and its series the different tuples, as they first appear;
the entry of a series at a time is that of the one row that has both, and is
missing where no row does. The rows are those of the time column, which are all
rows where the columns have one length. -/
theorem toWide_isWide {f g : Frame} (h : toWide f (Schema.infer f) = .ok g) :
    ∃ times series, IsWide f times series g := by
  obtain ⟨timeColumn, rowTimes, p, htime, hf, hplaced, rfl⟩ := toWide_infer h
  have hcolumns : (distinctKeys (p.placements.toList.map (·.key))).flatMap (fun key =>
        f.valueColumns.map (seriesColumn f.factorColumns p key))
      = (distinctKeys f.tuples).flatMap (fun k => f.valueColumns.map (fun v =>
          ⟨v.name, labelsOf f.factorColumns k, f.pivotValues p.times.toList k v.values⟩)) := by
    rw [hplaced.keys_eq hf]
    exact List.flatMap_congr (fun k _ =>
      List.map_congr_left (fun v _ => hplaced.seriesColumn_eq hf k v))
  rw [hcolumns]
  refine ⟨p.times.toList, distinctKeys f.tuples, ?_⟩
  have htimed : ∀ r < f.times.length, ∃ t ∈ p.times.toList, f.times[r]? = some (some t) := by
    intro r hr
    rw [hf, List.length_map] at hr
    refine ⟨rowTimes[r], (hplaced.mem_times _).2 (List.getElem_mem hr), ?_⟩
    rw [hf, List.getElem?_map, List.getElem?_eq_getElem hr, Option.map_some]
  exact
    { timed := htimed
      mem_times := fun t ht => by
        rw [hf]
        exact List.mem_map_of_mem ((hplaced.mem_times t).1 ht)
      ascending := hplaced.ascending
      mem_series := fun k => mem_distinctKeys
      first_appearance := pairwise_distinctKeys f.tuples
      unique := fun t k r r' hr hr' => hplaced.point_unique hf hr hr'
      placed := fun r hr => by
        -- the place of a row is the slot of its time in the column of its tuple
        obtain ⟨t, ht, hrow⟩ := htimed r hr
        obtain ⟨s, hs⟩ := List.mem_iff_getElem?.1 ht
        have hk : f.tupleAt r ∈ distinctKeys f.tuples :=
          mem_distinctKeys.2 (List.mem_map_of_mem (List.mem_range.2 hr))
        obtain ⟨i, hi⟩ := List.mem_iff_getElem?.1 hk
        refine ⟨(i, s), ⟨hi, t, hs, hrow⟩, fun p' hp' => ?_⟩
        obtain ⟨hi', t', hs', hrow'⟩ := hp'
        obtain rfl : t = t' := Option.some.inj (Option.some.inj (hrow.symm.trans hrow'))
        have hlt : p'.1 < (distinctKeys f.tuples).length := (List.getElem?_eq_some_iff.1 hi').1
        exact Prod.ext ((List.getElem?_inj hlt (nodup_distinctKeys _)).1 (hi'.trans hi.symm))
          (slot_unique hplaced.ascending hs' hs)
      columns := ⟨timeColumn, labelsOf f.factorColumns, htime,
        fun k _ name => get?_labelsOf f k name, rfl⟩
      length_eq := fun c hc => by
        rcases List.mem_cons.1 hc with rfl | hc
        · exact List.length_map _
        · obtain ⟨k, -, hk⟩ := List.mem_flatMap.1 hc
          obtain ⟨v, -, rfl⟩ := List.mem_map.1 hk
          exact List.length_map _
      name_eq := rfl
      query_eq := rfl }

/-- One minute after the epoch. -/
def firstMinute : Instant := ⟨60, 0, by decide⟩

/-- Three rows of two series: both at one time, one of them without a factor,
and one of the two at a later time. -/
def threeRows : Frame :=
  ⟨"hosts", [.ofValues "time" ⟨.time, [some .epoch, some .epoch, some firstMinute]⟩,
    .ofValues "host" ⟨.string, [some "a", none, some "a"]⟩,
    .ofValues "up" ⟨.boolean, [some true, some true, some false]⟩], some "select"⟩

/-- Their wide form. -/
def threeRowsWide : Frame :=
  ⟨"hosts", [.ofValues "time" ⟨.time, [some .epoch, some firstMinute]⟩,
    ⟨"up", .ofList [("host", "a")], ⟨.boolean, [some true, some false]⟩⟩,
    ⟨"up", .ofList [("host", "")], ⟨.boolean, [some true, none]⟩⟩], some "select"⟩

/-- The three rows, pivoted. -/
theorem toWide_isWide_threeRows :
    toWide threeRows (Schema.infer threeRows) = .ok threeRowsWide ∧
      ∃ times series, IsWide threeRows times series threeRowsWide :=
  ⟨by decide +kernel, toWide_isWide (by decide +kernel)⟩

end Pivot

end WindowQuery
