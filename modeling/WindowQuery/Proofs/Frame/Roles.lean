import Mathlib.Data.List.Basic
import WindowQuery.Frame.Pivot

/-!
# The columns that play the roles

A schema names columns by their places. Here are the columns themselves,
said by their types alone: the first column of times, the columns of
texts, and all others but that first one. The schema that is inferred from
a frame names exactly these, in the order of the frame
(`columnsAt_factors`, `columnsAt_values`, `timeColumn?_eq`).
-/

namespace WindowQuery

/-- Whether a column holds times. -/
def Column.isTime (c : Column) : Bool := c.values.type == .time

/-- Whether a column holds texts. -/
def Column.isText (c : Column) : Bool := c.values.type == .string

theorem Column.not_isText_of_isTime {c : Column} (h : c.isTime = true) : c.isText = false := by
  unfold isTime isText at *
  rw [beq_iff_eq.1 h]
  rfl

namespace Frame

/-- **The time column**: the first column of times. -/
def timeColumn? (f : Frame) : Option Column := f.columns.find? Column.isTime

/-- **The factor columns**: those of texts. -/
def factorColumns (f : Frame) : List Column := f.columns.filter Column.isText

/-- **The value columns**: all but the time column and those of texts. -/
def valueColumns (f : Frame) : List Column :=
  (f.columns.eraseP Column.isTime).filter (fun c => !c.isText)

end Frame

namespace Pivot

theorem columnsAt_placesWhere (f : Frame) (p : Nat → Column → Bool) :
    columnsAt f (Schema.placesWhere f.columns p)
      = (f.columns.zipIdx.filter (fun x => p x.2 x.1)).map Prod.fst := by
  unfold columnsAt Schema.placesWhere
  rw [List.filterMap_map, ← List.filterMap_eq_map]
  refine List.filterMap_congr (fun x hx => ?_)
  exact List.mem_zipIdx_iff_getElem?.1 (List.mem_of_mem_filter hx)

/-- Places numbered from a start, so that an induction can move it. -/
theorem map_filter_zipIdx_false (p : Column → Bool) (cs : List Column) (start : Nat)
    {time : Option Nat} (h : ∀ i, time = some i → i < start) :
    ((cs.zipIdx start).filter (fun x => some x.2 != time && p x.1)).map Prod.fst
      = cs.filter p := by
  have hne : ∀ x ∈ cs.zipIdx start, (some x.2 != time && p x.1) = p x.1 := fun x hx => by
    have hle := List.le_snd_of_mem_zipIdx hx
    have : some x.2 ≠ time := fun he => Nat.not_lt.2 hle (h _ he.symm)
    rw [bne_iff_ne.2 this, Bool.true_and]
  rw [List.filter_congr hne,
    show (fun x : Column × Nat => p x.1) = p ∘ Prod.fst from rfl, ← List.filter_map]
  exact congrArg (List.filter p) (List.zipIdx_map_fst start cs)

/-- **Leaving out the place of the first column of times leaves that column
out.** -/
theorem map_filter_zipIdx (p : Column → Bool) (cs : List Column) (start : Nat) :
    ((cs.zipIdx start).filter (fun x =>
        some x.2 != (cs.findIdx? Column.isTime).map (· + start) && p x.1)).map Prod.fst
      = (cs.eraseP Column.isTime).filter p := by
  induction cs generalizing start with
  | nil => rfl
  | cons c cs ih =>
    rw [List.zipIdx_cons, List.findIdx?_cons, List.eraseP_cons]
    cases hc : c.isTime with
    | true =>
      simp only [if_true, Option.map_some, Nat.zero_add, cond_true]
      rw [List.filter_cons_of_neg (by simp)]
      exact map_filter_zipIdx_false p cs (start + 1) (fun i hi => by
        obtain rfl := Option.some.inj hi
        exact Nat.lt_succ_self _)
    | false =>
      simp only [Bool.false_eq_true, if_false, cond_false]
      have hshift : (Option.map (· + start) (Option.map (· + 1) (cs.findIdx? Column.isTime)))
          = (cs.findIdx? Column.isTime).map (· + (start + 1)) := by
        cases cs.findIdx? Column.isTime with
        | none => rfl
        | some i =>
          simp only [Option.map_some]
          exact congrArg some (by omega)
      have hfirst : (some start != (cs.findIdx? Column.isTime).map (· + (start + 1))) = true := by
        refine bne_iff_ne.2 (fun he => ?_)
        obtain ⟨i, -, hi⟩ := Option.map_eq_some_iff.1 he.symm
        omega
      rw [hshift, List.filter_cons, List.filter_cons, hfirst, Bool.true_and]
      cases p c with
      | true => simp only [if_true, List.map_cons, ih (start + 1)]
      | false => simp only [Bool.false_eq_true, if_false, ih (start + 1)]

theorem columnsAt_other (f : Frame) (p : Column → Bool) :
    columnsAt f (Schema.placesWhere f.columns (fun i c =>
        some i != f.columns.findIdx? Column.isTime && p c))
      = (f.columns.eraseP Column.isTime).filter p := by
  have h := map_filter_zipIdx p f.columns 0
  simp only [Nat.add_zero, Option.map_id'] at h
  rw [columnsAt_placesWhere, h]

theorem columnsAt_values (f : Frame) : columnsAt f (Schema.infer f).values = f.valueColumns :=
  columnsAt_other f (fun c => !c.isText)

theorem columnsAt_factors (f : Frame) :
    columnsAt f (Schema.infer f).factors = f.factorColumns := by
  refine (columnsAt_other f Column.isText).trans ?_
  -- the column that is left out holds times, so it is no factor
  unfold Frame.factorColumns
  induction f.columns with
  | nil => rfl
  | cons c cs ih =>
    rw [List.eraseP_cons]
    cases hc : c.isTime with
    | true => rw [cond_true, List.filter_cons_of_neg (by simp [c.not_isText_of_isTime hc])]
    | false => rw [cond_false, List.filter_cons, List.filter_cons, ih]

/-- The time column, by its place. -/
theorem timeColumn?_eq (f : Frame) :
    (Schema.infer f).time.bind (fun i => f.columns[i]?) = f.timeColumn? := by
  show (f.columns.findIdx? Column.isTime).bind _ = f.columns.find? Column.isTime
  induction f.columns with
  | nil => rfl
  | cons c cs ih =>
    rw [List.findIdx?_cons, List.find?_cons]
    cases hc : c.isTime with
    | true => rfl
    | false =>
      rw [← ih]
      simp only [Bool.false_eq_true, if_false, Option.bind_map]
      rfl

end Pivot

end WindowQuery
