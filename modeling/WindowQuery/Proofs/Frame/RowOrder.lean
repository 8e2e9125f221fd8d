import Mathlib.Data.List.Sort
import WindowQuery.Proofs.Frame.Idempotence

/-!
# The order of rows that share a time

A database that is asked for rows by their times is free to hand out rows of one
time in any order. The pivot numbers its series as it meets them, so from the
first row that stands elsewhere on its two runs have nothing in common: other
numbers, other placements, other rows already seen. They are therefore not
compared step by step. Either run is what the points of its frame say
(`Placed`), and moving rows of one time moves points: a row that has a time and a
tuple is found at another place, with the same entries (`rowOf?_atRows`).

So a pivot succeeds whichever way such rows stand, and what it returns is the
same up to the order of its series (`shape_atRows`). That order does depend on
the rows, as it is the order in which they first name the series.
-/

namespace WindowQuery

/-! ## Rows in another order -/

/-- The entries of some rows, in the given order. -/
def Values.atRows (v : Values) (order : List Nat) : Values :=
  ⟨v.type, order.map (fun r => v.entries[r]?.join)⟩

/-- A column with the given rows. -/
def Column.atRows (c : Column) (order : List Nat) : Column :=
  ⟨c.name, c.labels, c.values.atRows order⟩

theorem Values.join_atRows (v : Values) (order : List Nat) (i : Nat) :
    (v.atRows order).entries[i]?.join = order[i]?.bind (fun r => v.entries[r]?.join) := by
  show (order.map (fun r => v.entries[r]?.join))[i]?.join = _
  rw [List.getElem?_map]
  cases order[i]? <;> rfl

theorem Pivot.factorAt_atRows {order : List Nat} {i r : Nat} (h : order[i]? = some r) (c : Column) :
    factorAt i (c.atRows order) = factorAt r c := by
  have hentry := c.values.join_atRows order i
  rw [h, Option.bind_some] at hentry
  have hdisplay : (c.values.atRows order).displayAt i = c.values.displayAt r :=
    congrArg (fun e : Option c.values.type.Entry => e.elim "null" c.values.type.display) hentry
  obtain ⟨name, labels, type, entries⟩ := c
  cases type with
  | string => exact hentry
  | _ => exact congrArg some hdisplay

namespace Frame

/-- **A frame with its rows in the given order**, every row as a whole. -/
def atRows (f : Frame) (order : List Nat) : Frame :=
  ⟨f.name, f.columns.map (fun c => c.atRows order), f.query⟩

/-- **Whether an order moves rows that share their time**, and no others. -/
structure KeepsTimes (f : Frame) (order : List Nat) : Prop where
  /-- Every row stands in it once. -/
  perm : order.Perm (List.range f.rowCount)
  /-- In the place of a row stands one of the same time. -/
  time_eq : ∀ i r : Nat, order[i]? = some r → f.times[r]? = f.times[i]?

namespace KeepsTimes

variable {f : Frame} {order : List Nat} (h : f.KeepsTimes order)

include h

theorem length_eq : order.length = f.rowCount := h.perm.length_eq.trans List.length_range

theorem row_lt {i r : Nat} (hr : order[i]? = some r) : r < f.rowCount :=
  List.mem_range.1 (h.perm.mem_iff.1 (List.mem_of_getElem? hr))

theorem exists_place {r : Nat} (hr : r < f.rowCount) : ∃ i : Nat, order[i]? = some r :=
  List.mem_iff_getElem?.1 (h.perm.mem_iff.2 (List.mem_range.2 hr))

theorem place_unique {i j r : Nat} (hi : order[i]? = some r) (hj : order[j]? = some r) : i = j :=
  (List.getElem?_inj (List.getElem?_eq_some_iff.1 hi).1
    (h.perm.nodup_iff.2 List.nodup_range)).1 (hi.trans hj.symm)

theorem length_atRows {c : Column} (hc : c ∈ (f.atRows order).columns) :
    c.values.length = f.rowCount := by
  obtain ⟨d, -, rfl⟩ := List.mem_map.1 hc
  exact (List.length_map _).trans h.length_eq

theorem aligned_atRows : (f.atRows order).Aligned := .of_length (fun _ hc => h.length_atRows hc)

theorem rowCount_atRows : (f.atRows order).rowCount = f.rowCount := by
  cases hcolumns : f.columns with
  | nil =>
    rw [rowCount, rowCount, atRows, hcolumns]
    rfl
  | cons c cs =>
    have hhead : (f.atRows order).columns.head? = some (c.atRows order) := by
      rw [atRows, hcolumns]
      rfl
    rw [rowCount, hhead, Option.elim_some]
    exact h.length_atRows (List.mem_of_mem_head? hhead)

end KeepsTimes

/-! ## The roles of its columns -/

section

variable (f : Frame) (order : List Nat)

@[simp] theorem timeColumn?_atRows :
    (f.atRows order).timeColumn? = f.timeColumn?.map (fun c => c.atRows order) :=
  List.find?_map

@[simp] theorem factorColumns_atRows :
    (f.atRows order).factorColumns = f.factorColumns.map (fun c => c.atRows order) :=
  List.filter_map

@[simp] theorem valueColumns_atRows :
    (f.atRows order).valueColumns = f.valueColumns.map (fun c => c.atRows order) := by
  rw [valueColumns, atRows, List.eraseP_map, List.filter_map]
  rfl

/-- A frame is what it was, as its columns have their types. -/
theorem kind_atRows : (Schema.infer (f.atRows order)).kind = (Schema.infer f).kind := by
  rw [Pivot.kind_infer, Pivot.kind_infer, timeColumn?_atRows, factorColumns_atRows,
    valueColumns_atRows, Option.isNone_map, List.isEmpty_map, List.isEmpty_map]

end

/-! ## Its points -/

variable {f : Frame} {order : List Nat}

theorem tupleAt_atRows {i r : Nat} (h : order[i]? = some r) :
    (f.atRows order).tupleAt i = f.tupleAt r := by
  rw [tupleAt, factorColumns_atRows, List.map_map]
  exact List.map_congr_left (fun c _ => Pivot.factorAt_atRows h c)

section

variable {timeColumn : Column} (haligned : f.Aligned) (h : f.KeepsTimes order)
  (htime : f.timeColumn? = some timeColumn)

include haligned h htime

/-- **No time moves**, though rows do: each place gets a row with the time of the
row that was there. -/
theorem times_atRows : (f.atRows order).times = f.times := by
  have hlength : f.times.length = order.length :=
    (Pivot.length_times haligned htime).trans h.length_eq.symm
  have hmoved : (f.atRows order).times = order.map (fun r => f.times[r]?.join) := by
    have hisTime : timeColumn.isTime = true := List.find?_some htime
    rw [times, times, timeColumn?_atRows, htime]
    obtain ⟨name, labels, type, entries⟩ := timeColumn
    obtain rfl : type = .time := beq_iff_eq.1 hisTime
    rfl
  rw [hmoved]
  refine List.ext_getElem? (fun i => ?_)
  rw [List.getElem?_map]
  cases hi : order[i]? with
  | none =>
    rw [Option.map_none, List.getElem?_eq_none (hlength ▸ List.getElem?_eq_none_iff.1 hi)]
  | some r =>
    have hlt : i < f.times.length := hlength ▸ (List.getElem?_eq_some_iff.1 hi).1
    rw [Option.map_some, h.time_eq i r hi, List.getElem?_eq_getElem hlt, Option.join_some]

/-- **A point moves with its row.** -/
theorem isPoint_atRows {i r : Nat} (hr : order[i]? = some r) {t : Instant} {k : Pivot.Key} :
    (f.atRows order).IsPoint t k i ↔ f.IsPoint t k r := by
  rw [IsPoint, IsPoint, times_atRows haligned h htime, tupleAt_atRows hr, h.time_eq i r hr]

theorem mem_tuples_atRows (k : Pivot.Key) : k ∈ (f.atRows order).tuples ↔ k ∈ f.tuples := by
  rw [tuples, tuples, times_atRows haligned h htime, Pivot.length_times haligned htime,
    List.mem_map, List.mem_map]
  constructor
  · rintro ⟨i, hi, rfl⟩
    have hlt : i < order.length := h.length_eq.symm ▸ List.mem_range.1 hi
    have hr := List.getElem?_eq_getElem hlt
    exact ⟨order[i], List.mem_range.2 (h.row_lt hr), (tupleAt_atRows hr).symm⟩
  · rintro ⟨r, hr, rfl⟩
    obtain ⟨i, hi⟩ := h.exists_place (List.mem_range.1 hr)
    exact ⟨i, List.mem_range.2 (h.length_eq ▸ (List.getElem?_eq_some_iff.1 hi).1),
      tupleAt_atRows hi⟩

end

end Frame

namespace Pivot

/-! ## Rows in order -/

theorem Orderly.ne {keyOf : Nat → Key} {times : List (Option Instant)} {n : Nat}
    (h : Orderly keyOf times n) {r r' : Nat} (hr : r < n) (hr' : r' < n) (hne : r ≠ r')
    (htimes : times[r]? = times[r']?) : keyOf r ≠ keyOf r' := by
  rcases Nat.lt_or_gt_of_ne hne with hlt | hlt
  · exact h.distinct r r' hlt hr' htimes
  · exact (h.distinct r' r hlt hr htimes.symm).symm

/-- **Rows stay in order when their keys are handed round** among rows of one
time, each to one row. -/
theorem Orderly.moved {keyOf keyOf' : Nat → Key} {times : List (Option Instant)} {n : Nat}
    (h : Orderly keyOf times n) (comesFrom : Nat → Nat → Prop)
    (hrow : ∀ i < n, ∃ r < n, comesFrom i r)
    (hunique : ∀ i j r, comesFrom i r → comesFrom j r → i = j)
    (htime : ∀ i r, comesFrom i r → times[r]? = times[i]?)
    (hkey : ∀ i r, comesFrom i r → keyOf' i = keyOf r) : Orderly keyOf' times n where
  timed := h.timed
  sorted := h.sorted
  distinct := fun i j hij hj htimes => by
    obtain ⟨r, hr, hir⟩ := hrow i (Nat.lt_trans hij hj)
    obtain ⟨s, hs, hjs⟩ := hrow j hj
    have hne : r ≠ s := by
      rintro rfl
      exact Nat.ne_of_lt hij (hunique i j r hir hjs)
    rw [hkey i r hir, hkey j s hjs]
    exact h.ne hr hs hne (by rw [htime i r hir, htime j s hjs, htimes])

/-- **The rows of a frame are in order whichever way those of one time stand.**
The keys are handed round by the order of the rows, and back again by its
inverse. -/
theorem orderly_atRows {f : Frame} {order : List Nat} (h : f.KeepsTimes order) :
    Orderly (f.atRows order).tupleAt f.times f.rowCount
      ↔ Orderly f.tupleAt f.times f.rowCount := by
  constructor
  · intro ho
    exact ho.moved (fun r i => order[i]? = some r)
      (fun r hr => by
        obtain ⟨i, hi⟩ := h.exists_place hr
        exact ⟨i, h.length_eq ▸ (List.getElem?_eq_some_iff.1 hi).1, hi⟩)
      (fun r s i hr hs => Option.some.inj (hr.symm.trans hs))
      (fun r i hi => (h.time_eq i r hi).symm)
      (fun r i hi => (Frame.tupleAt_atRows hi).symm)
  · intro ho
    exact ho.moved (fun i r => order[i]? = some r)
      (fun i hi => by
        have hlt : i < order.length := h.length_eq ▸ hi
        have hr := List.getElem?_eq_getElem hlt
        exact ⟨order[i], h.row_lt hr, hr⟩)
      (fun i j r hi hj => h.place_unique hi hj)
      (fun i r hi => h.time_eq i r hi)
      (fun i r hi => Frame.tupleAt_atRows hi)

/-! ## Two pivots -/

/-- **The wide frame over some times**, its series in the given order. -/
def wideOver (f : Frame) (name : String) (times : List Instant) (series : List Key) : Frame :=
  ⟨f.name, .ofValues name ⟨.time, times.map some⟩ ::
    series.flatMap (fun k => f.valueColumns.map (seriesOver f times k)), f.query⟩

/-- A pivot that succeeds, and what it has found of the rows. -/
theorem exists_wideOver {f g : Frame} (h : toWide f (Schema.infer f) = .ok g) :
    ∃ (timeColumn : Column) (rowTimes : List Instant) (p : Progress),
      f.timeColumn? = some timeColumn ∧ f.times = rowTimes.map some ∧
        Placed f.tupleAt rowTimes p ∧
        g = wideOver f timeColumn.name p.times.toList (distinctKeys f.tuples) := by
  obtain ⟨timeColumn, rowTimes, p, htime, hf, hplaced, rfl⟩ := toWide_infer h
  refine ⟨timeColumn, rowTimes, p, htime, hf, hplaced, ?_⟩
  rw [hplaced.keys_eq hf, wideOver]
  refine congrArg (fun cs => Frame.mk f.name (_ :: cs) f.query) ?_
  exact List.flatMap_congr (fun k _ =>
    List.map_congr_left (fun v _ => hplaced.seriesColumn_eq hf k v))

/-- **Rows of the same times have the same distinct times.** -/
theorem Placed.times_unique {keyOf keyOf' : Nat → Key} {rowTimes : List Instant} {p p' : Progress}
    (h : Placed keyOf rowTimes p) (h' : Placed keyOf' rowTimes p') :
    p.times.toList = p'.times.toList := by
  have hantisymm : Std.Antisymm (fun a b : Instant => a < b) :=
    ⟨fun a b hab hba => absurd (Instant.lt_trans hab hba) (Instant.lt_irrefl a)⟩
  have hirrefl : Std.Irrefl (fun a b : Instant => a < b) := ⟨Instant.lt_irrefl⟩
  exact h.ascending.eq_of_mem_iff h'.ascending
    (fun t => (h.mem_times t).trans (h'.mem_times t).symm)

section

variable {f : Frame} {order : List Nat} {timeColumn : Column} {rowTimes : List Instant}
  {p p' : Progress} (haligned : f.Aligned) (h : f.KeepsTimes order)
  (htime : f.timeColumn? = some timeColumn) (hf : f.times = rowTimes.map some)
  (hplaced : Placed f.tupleAt rowTimes p)
  (hplaced' : Placed (f.atRows order).tupleAt rowTimes p')

include haligned h htime hf hplaced hplaced'

/-- **What stands at a time and a tuple is the row that stood there.** -/
theorem rowOf?_atRows (t : Instant) (k : Key) :
    ((f.atRows order).rowOf? t k).bind (fun i => order[i]?) = f.rowOf? t k := by
  have hf' : (f.atRows order).times = rowTimes.map some :=
    (Frame.times_atRows haligned h htime).trans hf
  cases hrow : f.rowOf? t k with
  | some r =>
    have hpoint := (hplaced.rowOf?_eq_some hf).1 hrow
    have hlt : r < f.rowCount :=
      length_times haligned htime ▸ (List.getElem?_eq_some_iff.1 hpoint.1).1
    obtain ⟨i, hi⟩ := h.exists_place hlt
    have hplace : (f.atRows order).rowOf? t k = some i :=
      (hplaced'.rowOf?_eq_some hf').2 ((Frame.isPoint_atRows haligned h htime hi).2 hpoint)
    rw [hplace, Option.bind_some, hi]
  | none =>
    cases hplace : (f.atRows order).rowOf? t k with
    | none => rfl
    | some i =>
      rw [Option.bind_some]
      cases hi : order[i]? with
      | none => rfl
      | some r =>
        -- the row would have been found before it was moved
        have hpoint := (hplaced'.rowOf?_eq_some hf').1 hplace
        rw [(hplaced.rowOf?_eq_some hf).2
          ((Frame.isPoint_atRows haligned h htime hi).1 hpoint)] at hrow
        cases hrow

/-- The column of a tuple and a value column has the same entries, and the same
labels. -/
theorem seriesOver_atRows (times : List Instant) (k : Key) (v : Column) :
    seriesOver (f.atRows order) times k (v.atRows order) = seriesOver f times k v := by
  have hlabels : labelsOf (f.atRows order).factorColumns k = labelsOf f.factorColumns k := by
    rw [labelsOf_eq, labelsOf_eq, Frame.factorColumns_atRows, List.map_map]
    rfl
  have hentry : (f.atRows order).pivotEntry k (v.values.atRows order)
      = f.pivotEntry k v.values := by
    funext t
    rw [Frame.pivotEntry, Frame.pivotEntry,
      ← rowOf?_atRows haligned h htime hf hplaced hplaced', Option.bind_assoc]
    exact congrArg _ (funext (v.values.join_atRows order))
  rw [seriesOver, hlabels]
  exact congrArg (fun e => Column.mk v.name _ ⟨v.values.type, times.map e⟩) hentry

/-- **Moving rows of one time keeps the wide frame** with a given order of its
series. -/
theorem wideOver_atRows (name : String) (times : List Instant) (series : List Key) :
    wideOver (f.atRows order) name times series = wideOver f name times series := by
  have hseries : ∀ k, (f.atRows order).valueColumns.map (seriesOver (f.atRows order) times k)
      = f.valueColumns.map (seriesOver f times k) := by
    intro k
    rw [Frame.valueColumns_atRows, List.map_map]
    exact List.map_congr_left (fun v _ => seriesOver_atRows haligned h htime hf hplaced hplaced'
      times k v)
  rw [wideOver, wideOver, funext hseries]
  rfl

end

/-- A long frame without rows has no columns left. -/
theorem shape_of_long_empty {f : Frame} (hrows : f.rowCount = 0)
    (hlong : (Schema.infer f).kind = .long) : f.shape .timeSeries = .ok f.emptied := by
  simp only [Frame.shape, hlong, if_pos hrows]

/-- **The order of rows that share a time does not matter.** Whether a long frame
has a wide form is the same whichever way such rows stand. If it has, the wide
forms have the same times, and for each tuple the same columns with the same
labels and entries; only the series may stand in another order. -/
theorem shape_atRows {f : Frame} {order : List Nat} (haligned : f.Aligned)
    (hlong : (Schema.infer f).kind = .long) (h : f.KeepsTimes order) :
    ((∃ g, f.shape .timeSeries = .ok g)
      ↔ ∃ g', (f.atRows order).shape .timeSeries = .ok g') ∧
    ∀ g g', f.shape .timeSeries = .ok g → (f.atRows order).shape .timeSeries = .ok g' →
      (f.rowCount = 0 ∧ g = f.emptied ∧ g' = f.emptied) ∨
        ∃ (name : String) (times : List Instant) (series series' : List Key),
          series.Nodup ∧ (∀ k, k ∈ series ↔ k ∈ f.tuples) ∧ series'.Perm series ∧
          g = wideOver f name times series ∧ g' = wideOver f name times series' := by
  have hlong' : (Schema.infer (f.atRows order)).kind = .long := (f.kind_atRows order).trans hlong
  have hcount : (f.atRows order).rowCount = f.rowCount := h.rowCount_atRows
  by_cases hrows : f.rowCount = 0
  · rw [shape_of_long_empty hrows hlong, shape_of_long_empty (hcount.trans hrows) hlong']
    refine ⟨⟨fun _ => ⟨_, rfl⟩, fun _ => ⟨_, rfl⟩⟩, fun g g' hg hg' => .inl ⟨hrows, ?_, ?_⟩⟩
    · exact (Except.ok.inj hg).symm
    · exact (Except.ok.inj hg').symm
  · have hrows' : (f.atRows order).rowCount ≠ 0 := hcount ▸ hrows
    obtain ⟨timeColumn, htime⟩ := exists_timeColumn_of_long hlong
    -- both pivots succeed just if the rows are in order, which does not depend on how they stand
    constructor
    · rw [(shape_of_long haligned hrows hlong).1,
        (shape_of_long h.aligned_atRows hrows' hlong').1, hcount,
        Frame.times_atRows haligned h htime, orderly_atRows h]
    · intro g g' hg hg'
      rw [shape_eq_of_long hrows hlong] at hg
      rw [shape_eq_of_long hrows' hlong'] at hg'
      obtain ⟨timeColumn, rowTimes, p, htime, hf, hplaced, rfl⟩ :=
        exists_wideOver (eq_ok_of_mapError_eq_ok hg)
      obtain ⟨timeColumn', rowTimes', p', htime', hf', hplaced', rfl⟩ :=
        exists_wideOver (eq_ok_of_mapError_eq_ok hg')
      -- the times of the rows are the same, and so is the name of their column
      rw [Frame.timeColumn?_atRows, htime, Option.map_some] at htime'
      obtain rfl := Option.some.inj htime'
      rw [Frame.times_atRows haligned h htime, hf] at hf'
      obtain rfl : rowTimes = rowTimes' := List.map_injective_iff.2 (Option.some_injective _) hf'
      rw [wideOver_atRows haligned h htime hf hplaced hplaced', hplaced'.times_unique hplaced]
      refine .inr ⟨timeColumn.name, p.times.toList, _, _, nodup_distinctKeys _,
        fun k => mem_distinctKeys, ?_, rfl, rfl⟩
      refine (List.perm_ext_iff_of_nodup (nodup_distinctKeys _) (nodup_distinctKeys _)).2
        (fun k => ?_)
      rw [mem_distinctKeys, mem_distinctKeys, Frame.mem_tuples_atRows haligned h htime]

/-- Two rows at each of two times, of three series. -/
def twoTimes : Frame :=
  ⟨"hosts", [.ofValues "time" ⟨.time, [some .epoch, some .epoch, some firstMinute,
      some firstMinute]⟩,
    .ofValues "host" ⟨.string, [some "a", none, some "b", some "a"]⟩,
    .ofValues "up" ⟨.boolean, [some true, some false, none, some true]⟩], some "select"⟩

/-- Their rows of each time the other way round. -/
def otherWayRound : List Nat := [1, 0, 3, 2]

/-- Their wide form. -/
def twoTimesWide : Frame :=
  ⟨"hosts", [.ofValues "time" ⟨.time, [some .epoch, some firstMinute]⟩,
    ⟨"up", .ofList [("host", "a")], ⟨.boolean, [some true, some true]⟩⟩,
    ⟨"up", .ofList [("host", "")], ⟨.boolean, [some false, none]⟩⟩,
    ⟨"up", .ofList [("host", "b")], ⟨.boolean, [none, none]⟩⟩], some "select"⟩

/-- The wide form of the moved rows. -/
def otherWayRoundWide : Frame :=
  ⟨"hosts", [.ofValues "time" ⟨.time, [some .epoch, some firstMinute]⟩,
    ⟨"up", .ofList [("host", "")], ⟨.boolean, [some false, none]⟩⟩,
    ⟨"up", .ofList [("host", "a")], ⟨.boolean, [some true, some true]⟩⟩,
    ⟨"up", .ofList [("host", "b")], ⟨.boolean, [none, none]⟩⟩], some "select"⟩

/-- The first two series have changed places, and nothing else has. -/
theorem shape_atRows_otherWayRound :
    twoTimes.Aligned ∧ (Schema.infer twoTimes).kind = .long ∧
      twoTimes.KeepsTimes otherWayRound ∧
      twoTimes.shape .timeSeries = .ok twoTimesWide ∧
      (twoTimes.atRows otherWayRound).shape .timeSeries = .ok otherWayRoundWide ∧
      ∃ (name : String) (times : List Instant) (series series' : List Key),
        series.Nodup ∧ (∀ k, k ∈ series ↔ k ∈ twoTimes.tuples) ∧ series'.Perm series ∧
        twoTimesWide = wideOver twoTimes name times series ∧
        otherWayRoundWide = wideOver twoTimes name times series' := by
  have haligned : twoTimes.Aligned := by
    unfold Frame.Aligned
    decide
  have hlong : (Schema.infer twoTimes).kind = .long := by decide
  have hkeeps : twoTimes.KeepsTimes otherWayRound := by
    have htimes : ∀ i < 4, ∀ r ∈ otherWayRound[i]?, twoTimes.times[r]? = twoTimes.times[i]? := by
      decide
    exact ⟨by decide, fun i r hr => htimes i (List.getElem?_eq_some_iff.1 hr).1 r hr⟩
  have hwide : twoTimes.shape .timeSeries = .ok twoTimesWide := by decide +kernel
  have hwide' : (twoTimes.atRows otherWayRound).shape .timeSeries = .ok otherWayRoundWide := by
    decide +kernel
  refine ⟨haligned, hlong, hkeeps, hwide, hwide', ?_⟩
  rcases (shape_atRows haligned hlong hkeeps).2 _ _ hwide hwide' with ⟨hnone, -⟩ | hsame
  · exact absurd hnone (by decide)
  · exact hsame

end Pivot

end WindowQuery
