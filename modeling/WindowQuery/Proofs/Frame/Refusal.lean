import Mathlib.Data.List.Count
import WindowQuery.Proofs.Frame.ColumnWise

/-!
# Rows that are refused

A row fails in one of two ways. If its width is wrong it is turned away
before any column is touched. If a column refuses its cell it is too late
for that: the row is taken from left to right, and the columns left of the
refusal have their cells by then. The number of rows stays, the other
columns stay, and from now on the columns on the left are ahead.

How far a column is ahead depends on nothing but the places of the
refusals so far. `Materializer.refusals` lists them for a run of calls,
whether these push single rows or consume many, and whether or not calls
before them failed; `Follows` is the invariant that one scan, one call and
a whole run keep. It gives `length_feedAll`: a column has one entry for
each row that was taken, and one more for each row that was refused to the
right of it.
-/

namespace WindowQuery

namespace Accumulator

/-! ## One cell -/

/-- The number of entries so far. -/
def length : Accumulator → Nat
  | undecided nulls => nulls
  | decided _ entries _ => entries.size

@[simp] theorem length_finish (a : Accumulator) : a.finish.length = a.length := by
  cases a with
  | undecided nulls => exact List.length_replicate
  | decided t entries last => exact Array.length_toList

theorem length_ofValues_finish (name : String) (a : Accumulator) :
    (Column.ofValues name a.finish).values.length = a.length := a.length_finish

/-- **Why a column refuses a cell**, if it does: it has no type yet, and its name
bars the type that the cell would decide. -/
def refusal? (name : String) : Accumulator → Cell → Option FrameError
  | decided .., _ => none
  | undecided _, cell =>
    match cell.naturalType with
    | .unknown => none
    | .known t =>
      if name = TypeName.metricName ∧ TypeName.isBarred t = true then
        some (.typeConflict TypeName.metricName (.firstValue t))
      else none

section

variable {a : Accumulator} {name : String} {cell : Cell}

theorem length_take (t : ColumnType) (entries : Array (Option t.Entry)) (last : Option t.Entry)
    (cell : Cell) (fill : FillPolicy) :
    (take t entries last cell fill).length = entries.size + 1 := by
  unfold take
  cases cell.convert? t with
  | some entry => exact Array.size_push _
  | none => exact Array.size_push _

/-- A refusal is the error of the push. -/
theorem push_eq_error {fill : FillPolicy} {e : FrameError} (h : a.refusal? name cell = some e) :
    a.push name cell fill = .error e := by
  cases a with
  | decided t entries last => cases h
  | undecided nulls =>
    cases hcell : cell.naturalType with
    | unknown =>
      simp only [refusal?, hcell] at h
      cases h
    | known t =>
      simp only [refusal?, hcell] at h
      obtain ⟨hbarred, he⟩ := Option.ite_none_right_eq_some.1 h
      obtain rfl := Option.some.inj he
      simp only [push, hcell, TypeName.checkFirstValue, if_pos hbarred]
      rfl

/-- **A cell that is not refused is one more entry.** -/
theorem exists_push (fill : FillPolicy) (h : a.refusal? name cell = none) :
    ∃ a', a.push name cell fill = .ok a' ∧ a'.length = a.length + 1 := by
  cases a with
  | decided t entries last => exact ⟨_, rfl, length_take t entries last cell fill⟩
  | undecided nulls =>
    cases hcell : cell.naturalType with
    | unknown => exact ⟨.undecided (nulls + 1), by simp only [push, hcell], rfl⟩
    | known t =>
      simp only [refusal?, hcell] at h
      have hfree : ¬(name = TypeName.metricName ∧ TypeName.isBarred t = true) := fun hbarred => by
        rw [if_pos hbarred] at h
        cases h
      refine ⟨take t (Array.replicate nulls none) none cell fill, ?_, ?_⟩
      · simp only [push, hcell, TypeName.checkFirstValue, if_neg hfree]
        rfl
      · rw [length_take, Array.size_replicate]
        rfl

end

end Accumulator

namespace Materializer

/-! ## One row -/

/-- **The place of the first cell of a row that is refused.** -/
def refusalAt? (columns : List (String × Accumulator)) (row : List Cell) : Option Nat :=
  (columns.zip row).findIdx? (fun x => (x.1.2.refusal? x.1.1 x.2).isSome)

/-- **What the cells of a row do to the columns**, up to the first one that is
refused. -/
structure Reaches (fill : FillPolicy) (columns : List (String × Accumulator)) (row : List Cell)
    (columns' : List (String × Accumulator)) (error : Option FrameError) : Prop where
  /-- No column is lost. -/
  length_eq : columns'.length = columns.length
  /-- A column left of the refusal has taken its cell. -/
  taken : ∀ (j : Nat) (name : String) (a : Accumulator), columns[j]? = some (name, a) →
    (∀ place ∈ refusalAt? columns row, j < place) →
      ∃ cell a', row[j]? = some cell ∧ a.push name cell fill = .ok a' ∧
        a'.length = a.length + 1 ∧ columns'[j]? = some (name, a')
  /-- The column of the refusal and those right of it are as they were. -/
  kept : ∀ place ∈ refusalAt? columns row, ∀ j, place ≤ j → columns'[j]? = columns[j]?
  /-- Where no cell is refused there is no error. -/
  error_eq_none : refusalAt? columns row = none → error = none
  /-- The error is that of the refusal. -/
  error_eq_some : ∀ place ∈ refusalAt? columns row, ∃ name a cell,
    columns[place]? = some (name, a) ∧ row[place]? = some cell ∧
      a.refusal? name cell = error ∧ error.isSome = true

theorem refusalAt?_cons {name : String} {a : Accumulator} {cell : Cell}
    (h : a.refusal? name cell = none) (columns : List (String × Accumulator))
    (row : List Cell) :
    refusalAt? ((name, a) :: columns) (cell :: row) = (refusalAt? columns row).map (· + 1) := by
  unfold refusalAt?
  rw [List.zip_cons_cons, List.findIdx?_cons]
  simp only [h, Option.isSome_none, Bool.false_eq_true, if_false]

theorem refusalAt?_cons_zero {name : String} {a : Accumulator} {cell : Cell} {e : FrameError}
    (h : a.refusal? name cell = some e) (columns : List (String × Accumulator))
    (row : List Cell) : refusalAt? ((name, a) :: columns) (cell :: row) = some 0 := by
  unfold refusalAt?
  rw [List.zip_cons_cons, List.findIdx?_cons]
  simp only [h, Option.isSome_some, if_true]

theorem lt_of_refusalAt? {columns : List (String × Accumulator)} {row : List Cell} {place : Nat}
    (h : refusalAt? columns row = some place) : place < columns.length := by
  have hlt := (List.findIdx?_eq_some_iff_getElem.1 h).1
  rw [List.length_zip] at hlt
  omega

/-- **A row reaches as far as its first refusal.** The columns to the left of it
have taken their cells and are one longer; that column and those to the right are
as they were. The induction is on the columns, and moves the place of the refusal
by one. -/
theorem reaches_pushCells (fill : FillPolicy) {columns : List (String × Accumulator)}
    {row : List Cell} (hlen : row.length = columns.length) :
    Reaches fill columns row (pushCells fill columns row).1 (pushCells fill columns row).2 := by
  induction columns generalizing row with
  | nil =>
    exact ⟨rfl, fun j name a hj => by simp at hj, fun _ _ _ _ => rfl, fun _ => rfl,
      fun place hplace => by cases hplace⟩
  | cons column columns ih =>
    obtain ⟨name₀, a₀⟩ := column
    cases row with
    | nil => simp at hlen
    | cons cell row =>
      -- the row ends at this cell, or its first refusal is the one of the rest, a place further on
      cases hcell : a₀.refusal? name₀ cell with
      | some e =>
        have hat := refusalAt?_cons_zero hcell columns row
        have hpush : pushCells fill ((name₀, a₀) :: columns) (cell :: row)
            = ((name₀, a₀) :: columns, some e) := by
          simp only [pushCells, Accumulator.push_eq_error hcell]
        rw [hpush]
        refine ⟨rfl, fun j name a _ hbefore => ?_, fun _ _ _ _ => rfl, fun hnone => ?_,
          fun place hplace => ?_⟩
        · exact absurd (hbefore 0 hat) (Nat.not_lt_zero j)
        · rw [hat] at hnone
          cases hnone
        · obtain rfl : 0 = place := Option.some.inj (hat.symm.trans hplace)
          exact ⟨name₀, a₀, cell, rfl, rfl, hcell, rfl⟩
      | none =>
        obtain ⟨a₁, hpush, hlength⟩ := Accumulator.exists_push fill hcell
        have hat := refusalAt?_cons hcell columns row
        have hpushCells : pushCells fill ((name₀, a₀) :: columns) (cell :: row)
            = ((name₀, a₁) :: (pushCells fill columns row).1, (pushCells fill columns row).2) := by
          simp only [pushCells, hpush]
        have hrest := ih (Nat.succ.inj hlen)
        rw [hpushCells]
        refine ⟨congrArg (· + 1) hrest.length_eq, fun j name a hj hbefore => ?_,
          fun place hplace j hle => ?_, fun hnone => ?_, fun place hplace => ?_⟩
        · cases j with
          | zero =>
            obtain ⟨rfl, rfl⟩ := Prod.mk.inj (Option.some.inj hj)
            exact ⟨cell, a₁, rfl, hpush, hlength, rfl⟩
          | succ j =>
            refine hrest.taken j name a hj (fun place hplace => ?_)
            refine Nat.lt_of_succ_lt_succ (hbefore (place + 1) ?_)
            rw [hat]
            exact congrArg (Option.map (· + 1)) hplace
        · rw [hat] at hplace
          obtain ⟨inner, hinner, rfl⟩ := Option.map_eq_some_iff.1 hplace
          cases j with
          | zero => exact absurd hle (Nat.not_succ_le_zero inner)
          | succ j => exact hrest.kept inner hinner j (Nat.le_of_succ_le_succ hle)
        · rw [hat] at hnone
          exact hrest.error_eq_none (Option.map_eq_none_iff.1 hnone)
        · rw [hat] at hplace
          obtain ⟨inner, hinner, rfl⟩ := Option.map_eq_some_iff.1 hplace
          exact hrest.error_eq_some inner hinner

/-- **The place where a scan is refused**, if it is a row as wide as there are
columns and one of them refuses its cell. -/
def refusedBy? (m : Materializer) : Scan → Option Nat
  | .error _ => none
  | .ok row => if row.length = m.columns.length then refusalAt? m.columns row else none

/-- **All that a row can do.** One of the wrong width is turned away, one with a
refusal goes up to it, and every other one is taken. -/
theorem pushRow_cases (m : Materializer) (row : List Cell) :
    (row.length ≠ m.columns.length ∧
        m.pushRow row = (m, some (.rowWidth m.rows m.columns.length row.length))) ∨
      (row.length = m.columns.length ∧ ∃ columns error,
        Reaches m.fill m.columns row columns error ∧
          m.pushRow row
            = (⟨columns, m.fill, if error.isSome then m.rows else m.rows + 1⟩, error)) := by
  unfold pushRow
  split
  · next hlen =>
    refine .inr ⟨hlen, _, _, reaches_pushCells m.fill hlen, ?_⟩
    split
    · next columns hcells => rw [hcells]; rfl
    · next columns e hcells => rw [hcells]; rfl
  · next hlen => exact .inl ⟨hlen, rfl⟩

/-- **What a row that fails leaves**, and with which error. -/
inductive FailsOn (m : Materializer) (row : List Cell) (m' : Materializer) : FrameError → Prop where
  /-- A row of the wrong width leaves everything as it was. -/
  | width : row.length ≠ m.columns.length → m' = m →
      FailsOn m row m' (.rowWidth m.rows m.columns.length row.length)
  /-- A row that is refused leaves the number of rows, and its cells in the
  columns left of the refusal; so it leaves all entries as they were just if
  its first cell is the one that is refused. -/
  | cell (place : Nat) (e : FrameError) : m.refusedBy? (.ok row) = some place →
      Reaches m.fill m.columns row m'.columns (some e) → m'.fill = m.fill → m'.rows = m.rows →
      (m'.finish = m.finish ↔ place = 0) → FailsOn m row m' e

theorem getElem?_finish (m : Materializer) (j : Nat) :
    m.finish[j]? = m.columns[j]?.map (fun x => .ofValues x.1 x.2.finish) :=
  List.getElem?_map

/-- Where the refusal is not at the first cell, the first column has one entry
more. -/
theorem Reaches.finish_eq_iff {m m' : Materializer} {row : List Cell} {error : Option FrameError}
    (h : Reaches m.fill m.columns row m'.columns error) {place : Nat}
    (hplace : refusalAt? m.columns row = some place) : m'.finish = m.finish ↔ place = 0 := by
  constructor
  · intro heq
    by_contra hne
    have hfirst : 0 < place := Nat.pos_of_ne_zero hne
    have hlt : 0 < m.columns.length := Nat.lt_trans hfirst (lt_of_refusalAt? hplace)
    obtain ⟨cell, a', -, -, hlength, hat⟩ := h.taken 0 m.columns[0].1 m.columns[0].2
      (List.getElem?_eq_getElem hlt) (fun p hp => Option.some.inj (hplace.symm.trans hp) ▸ hfirst)
    have hcolumn := congrArg (fun columns : List Column => columns[0]?) heq
    simp only [getElem?_finish, hat, List.getElem?_eq_getElem hlt, Option.map_some] at hcolumn
    have hvalues := congrArg (fun c : Column => c.values.length) (Option.some.inj hcolumn)
    simp only [Accumulator.length_ofValues_finish, hlength] at hvalues
    exact Nat.succ_ne_self _ hvalues
  · rintro rfl
    refine List.ext_getElem? (fun j => ?_)
    rw [getElem?_finish, getElem?_finish, h.kept 0 hplace j (Nat.zero_le j)]

/-- **A row that fails** does so in one of the two ways. -/
theorem failsOn_pushRow {m m' : Materializer} {row : List Cell} {e : FrameError}
    (h : m.pushRow row = (m', some e)) : FailsOn m row m' e := by
  rcases m.pushRow_cases row with ⟨hlen, hpush⟩ | ⟨hlen, columns, error, hreach, hpush⟩
  · obtain ⟨rfl, he⟩ := Prod.mk.inj (hpush.symm.trans h)
    obtain rfl := Option.some.inj he
    exact .width hlen rfl
  · obtain ⟨rfl, rfl⟩ := Prod.mk.inj (hpush.symm.trans h)
    cases hat : refusalAt? m.columns row with
    | none => cases hreach.error_eq_none hat
    | some place =>
      exact .cell place e (by rw [refusedBy?, if_pos hlen, hat]) hreach rfl rfl
        (hreach.finish_eq_iff hat)

/-! ## Entries and refusals -/

/-- **Whether the columns are where the rows and the refusals have left them.** -/
structure Follows (places : List Nat) (m : Materializer) : Prop where
  /-- A column has an entry for each row taken and for each row that was refused
  right of it. -/
  length_eq : ∀ (j : Nat) (name : String) (a : Accumulator), m.columns[j]? = some (name, a) →
    a.length = m.rows + places.countP (j < ·)
  /-- The refusals were at columns. -/
  inside : ∀ place ∈ places, place < m.columns.length

theorem follows_start {headers : List Header} {timeGrouped : Bool} {fill : FillPolicy}
    {m : Materializer} (h : start headers timeGrouped fill = .ok m) : m.Follows [] := by
  obtain ⟨columns, hcolumns, rfl⟩ := exists_of_map_eq_ok h
  obtain ⟨hlength, hat⟩ := getElem?_of_mapM hcolumns
  refine ⟨fun j name a hj => ?_, fun place hplace => by cases hplace⟩
  have hlt : j < headers.length := hlength ▸ (List.getElem?_eq_some_iff.1 hj).1
  obtain ⟨column, hcolumn, hj'⟩ := hat j headers[j] (List.getElem?_eq_getElem hlt)
  obtain ⟨declared, -, rfl⟩ := exists_of_map_eq_ok hcolumn
  obtain ⟨-, rfl⟩ := Prod.mk.inj (Option.some.inj (hj'.symm.trans hj))
  cases declared <;> rfl

/-- **A row adds an entry to each column left of its refusal**, and to no other. -/
theorem Reaches.length_column {fill : FillPolicy} {columns columns' : List (String × Accumulator)}
    {row : List Cell} {error : Option FrameError} (h : Reaches fill columns row columns' error)
    {j : Nat} {name : String} {a' : Accumulator} (hj : columns'[j]? = some (name, a')) :
    ∃ a, columns[j]? = some (name, a) ∧
      a'.length = a.length + if (refusalAt? columns row).all (j < ·) then 1 else 0 := by
  have hlt : j < columns.length := h.length_eq ▸ (List.getElem?_eq_some_iff.1 hj).1
  have hj₀ := List.getElem?_eq_getElem hlt
  by_cases hleft : ∀ place ∈ refusalAt? columns row, j < place
  · obtain ⟨cell, a₁, -, -, hlength, hj₁⟩ := h.taken j _ _ hj₀ hleft
    obtain ⟨rfl, rfl⟩ := Prod.mk.inj (Option.some.inj (hj₁.symm.trans hj))
    refine ⟨_, hj₀, ?_⟩
    rw [hlength, if_pos ((Option.all_eq_true _ _).2 (fun p hp => decide_eq_true (hleft p hp)))]
  · obtain ⟨place, hplace, hle⟩ : ∃ place ∈ refusalAt? columns row, place ≤ j := by
      simpa using hleft
    refine ⟨a', (h.kept place hplace j hle).symm.trans hj, ?_⟩
    rw [if_neg (fun hall => Nat.not_lt.2 hle (of_decide_eq_true
      ((Option.all_eq_true _ _).1 hall place hplace))), Nat.add_zero]

/-- **One scan** keeps the invariant, whether it fails or not. -/
theorem Follows.pushScan {places : List Nat} {m : Materializer} (h : m.Follows places)
    (scan : Scan) :
    (m.pushScan scan).1.Follows (places ++ (m.refusedBy? scan).toList) := by
  -- What touches no column adds no place either.
  have hsame : m.Follows (places ++ []) := by rwa [List.append_nil]
  cases scan with
  | error text => exact hsame
  | ok row =>
    rcases m.pushRow_cases row with ⟨hlen, hpush⟩ | ⟨hlen, columns, error, hreach, hpush⟩
    · rw [Materializer.pushScan, hpush, refusedBy?, if_neg hlen]
      exact hsame
    · rw [Materializer.pushScan, hpush, refusedBy?, if_pos hlen]
      refine ⟨fun j name a' hj => ?_, fun place hplace => ?_⟩
      · obtain ⟨a, hj₀, hlength⟩ := hreach.length_column hj
        rw [hlength, h.length_eq j name a hj₀]
        cases hat : refusalAt? m.columns row with
        | none =>
          obtain rfl := hreach.error_eq_none hat
          simp only [Option.all_none, if_true, Option.toList_none, List.append_nil,
            Option.isSome_none, Bool.false_eq_true, if_false]
          omega
        | some place =>
          obtain ⟨-, -, -, -, -, -, hsome⟩ := hreach.error_eq_some place hat
          rw [if_pos hsome, Option.toList_some, List.countP_append, List.countP_singleton,
            Option.all_some, Nat.add_assoc]
      · refine Nat.lt_of_lt_of_eq ?_ hreach.length_eq.symm
        rcases List.mem_append.1 hplace with hplace | hplace
        · exact h.inside place hplace
        · exact lt_of_refusalAt? (Option.mem_toList.1 hplace)

/-! ## Calls -/

/-- **One call.** -/
inductive Feed where
  /-- Hands over one row. -/
  | row (cells : List Cell)
  /-- Hands over what a database has brought, to be read up to the first failure. -/
  | cursor (scans : List Scan)

/-- What a call does. -/
def feed (m : Materializer) : Feed → Materializer × Option FrameError
  | .row cells => m.pushRow cells
  | .cursor scans => m.consume scans

/-- **Calls one after the other**, those after a failure too. -/
def feedAll (m : Materializer) (feeds : List Feed) : Materializer :=
  feeds.foldl (fun m f => (m.feed f).1) m

/-- The place of the refusal that ends the reading of some scans, if one does. -/
def cursorRefusal? (m : Materializer) : List Scan → Option Nat
  | [] => none
  | scan :: rest =>
    match m.pushScan scan with
    | (m', none) => m'.cursorRefusal? rest
    | (_, some _) => m.refusedBy? scan

/-- The place of the refusal in a call, if there is one. -/
def feedRefusal? (m : Materializer) : Feed → Option Nat
  | .row cells => m.refusedBy? (.ok cells)
  | .cursor scans => m.cursorRefusal? scans

/-- **The places at which a run of calls had rows refused.** -/
def refusals (m : Materializer) : List Feed → List Nat
  | [] => []
  | f :: rest => (m.feedRefusal? f).toList ++ (m.feed f).1.refusals rest

/-- A scan that is taken has no refusal. -/
theorem refusedBy?_eq_none {m m' : Materializer} {scan : Scan}
    (h : m.pushScan scan = (m', none)) : m.refusedBy? scan = none := by
  obtain ⟨row, rfl, hlen, -, -, -⟩ := pushScan_columns h
  rcases m.pushRow_cases row with ⟨hne, -⟩ | ⟨-, columns, error, hreach, hpush⟩
  · exact absurd hlen hne
  · rw [refusedBy?, if_pos hlen]
    cases hat : refusalAt? m.columns row with
    | none => rfl
    | some place =>
      obtain ⟨-, -, -, -, -, -, hsome⟩ := hreach.error_eq_some place hat
      obtain rfl : error = none := congrArg Prod.snd (hpush.symm.trans h)
      cases hsome

namespace Follows

variable {places : List Nat}

/-- **Reading up to the first failure** keeps the invariant. -/
theorem consume {m : Materializer} (h : m.Follows places) (scans : List Scan) :
    (m.consume scans).1.Follows (places ++ (m.cursorRefusal? scans).toList) := by
  induction scans generalizing m with
  | nil =>
    show m.Follows (places ++ [])
    rwa [List.append_nil]
  | cons scan rest ih =>
    have hnext := h.pushScan scan
    rw [Materializer.consume, cursorRefusal?]
    cases hscan : m.pushScan scan with
    | mk m' error =>
      rw [hscan] at hnext
      cases error with
      | some e => exact hnext
      | none =>
        rw [refusedBy?_eq_none hscan, Option.toList_none, List.append_nil] at hnext
        exact ih hnext

/-- **One call** keeps the invariant. -/
theorem feed {m : Materializer} (h : m.Follows places) (f : Feed) :
    (m.feed f).1.Follows (places ++ (m.feedRefusal? f).toList) := by
  cases f with
  | row cells => exact h.pushScan (.ok cells)
  | cursor scans => exact h.consume scans

/-- **A run of calls** keeps the invariant. -/
theorem feedAll {m : Materializer} (h : m.Follows places) (feeds : List Feed) :
    (m.feedAll feeds).Follows (places ++ m.refusals feeds) := by
  induction feeds generalizing m places with
  | nil => rwa [refusals, List.append_nil]
  | cons f rest ih =>
    have hrest := ih (h.feed f)
    rwa [List.append_assoc] at hrest

/-- The finished columns have one entry for each row just if no refusal has left
a column behind. -/
theorem length_finish_iff {m : Materializer} (h : m.Follows places) :
    (∀ column ∈ m.finish, column.values.length = m.rows) ↔ ∀ place ∈ places, place = 0 := by
  constructor
  · intro hlengths place hplace
    by_contra hne
    have hlt : 0 < m.columns.length := Nat.lt_of_le_of_lt (Nat.zero_le _) (h.inside place hplace)
    have hfirst := hlengths _ (List.mem_map_of_mem (List.getElem_mem hlt))
    have hahead : 0 < places.countP (0 < ·) :=
      List.countP_pos_iff.2 ⟨place, hplace, decide_eq_true (Nat.pos_of_ne_zero hne)⟩
    rw [Accumulator.length_ofValues_finish,
      h.length_eq 0 m.columns[0].1 m.columns[0].2 (List.getElem?_eq_getElem hlt)] at hfirst
    omega
  · intro hfirst column hcolumn
    obtain ⟨⟨name, a⟩, hmem, rfl⟩ := List.mem_map.1 hcolumn
    obtain ⟨j, hj⟩ := List.mem_iff_getElem?.1 hmem
    have hnone : places.countP (j < ·) = 0 :=
      List.countP_eq_zero.2 (fun place hplace => by simp [hfirst place hplace])
    rw [Accumulator.length_ofValues_finish, h.length_eq j name a hj, hnone, Nat.add_zero]

end Follows

/-- **How long the columns are**, after any calls. A column has one entry for
each row that was taken and one more for each row that was refused to the
right of it; so all columns have one entry for each row just if no row was
refused but at its first cell. A row that fails leaves the number of rows,
and leaves the entries unless it is refused at a later cell than the first. -/
theorem length_feedAll {headers : List Header} {timeGrouped : Bool} {fill : FillPolicy}
    {m₀ : Materializer} (h : start headers timeGrouped fill = .ok m₀) (feeds : List Feed) :
    (∀ j column, (m₀.feedAll feeds).finish[j]? = some column →
      column.values.length
        = (m₀.feedAll feeds).rows + (m₀.refusals feeds).countP (j < ·)) ∧
    ((∀ column ∈ (m₀.feedAll feeds).finish, column.values.length = (m₀.feedAll feeds).rows) ↔
      ∀ place ∈ m₀.refusals feeds, place = 0) ∧
    ∀ row m' e, (m₀.feedAll feeds).pushRow row = (m', some e) →
      FailsOn (m₀.feedAll feeds) row m' e := by
  have hfollows : (m₀.feedAll feeds).Follows (m₀.refusals feeds) :=
    (follows_start h).feedAll feeds
  refine ⟨fun j column hj => ?_, hfollows.length_finish_iff,
    fun row m' e hrow => failsOn_pushRow hrow⟩
  rw [getElem?_finish] at hj
  obtain ⟨⟨name, a⟩, hat, rfl⟩ := Option.map_eq_some_iff.1 hj
  rw [Accumulator.length_ofValues_finish, hfollows.length_eq j name a hat]

/-- The columns of a value, of a metric without a type, and of a note. -/
def untypedMetric : Materializer :=
  ⟨[("value", .decided .integer #[] none), ("metric", .undecided 0),
    ("note", .decided .string #[] none)], .null, 0⟩

/-- A row whose metric is a number; a row that is taken and a scan that brings
none; and a row that is too short. -/
def oneOfEach : List Feed :=
  [.row [.int 1, .int 2, .text "a"], .cursor [.ok [.int 3, .text "x", .null], .error "lost"],
    .row [.int 4]]

/-- One row was taken and one refused at the metric, so the value is one ahead. -/
theorem length_feedAll_oneOfEach :
    start [⟨"value", "INTEGER"⟩, ⟨"metric", ""⟩, ⟨"note", "TEXT"⟩] false .null
      = .ok untypedMetric ∧
    (untypedMetric.feedAll oneOfEach).rows = 1 ∧ untypedMetric.refusals oneOfEach = [1] ∧
    (untypedMetric.feedAll oneOfEach).finish.map (fun c => c.values.length) = [2, 1, 1] ∧
    ∀ j column, (untypedMetric.feedAll oneOfEach).finish[j]? = some column →
      column.values.length = (untypedMetric.feedAll oneOfEach).rows
        + (untypedMetric.refusals oneOfEach).countP (j < ·) :=
  have h : start [⟨"value", "INTEGER"⟩, ⟨"metric", ""⟩, ⟨"note", "TEXT"⟩] false .null
      = .ok untypedMetric := rfl
  ⟨h, rfl, by decide, by decide, (length_feedAll h oneOfEach).1⟩

/-- **A row that fails can leave an entry**: the value has been taken when the
metric is refused. -/
theorem pushRow_refused_ahead :
    start [⟨"value", "INTEGER"⟩, ⟨"metric", ""⟩, ⟨"note", "TEXT"⟩] false .null
      = .ok untypedMetric ∧
    (untypedMetric.pushRow [.int 1, .int 2, .text "a"]).2
      = some (.typeConflict "metric" (.firstValue .integer)) ∧
    (untypedMetric.pushRow [.int 1, .int 2, .text "a"]).1.rows = 0 ∧
    untypedMetric.finish
      = [.ofValues "value" ⟨.integer, []⟩, .ofValues "metric" ⟨.string, []⟩,
          .ofValues "note" ⟨.string, []⟩] ∧
    (untypedMetric.pushRow [.int 1, .int 2, .text "a"]).1.finish
      = [.ofValues "value" ⟨.integer, [some 1]⟩, .ofValues "metric" ⟨.string, []⟩,
          .ofValues "note" ⟨.string, []⟩] :=
  ⟨rfl, by decide, rfl, by decide, by decide⟩

end Materializer

end WindowQuery
