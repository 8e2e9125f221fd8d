import WindowQuery.Frame.Materialize
import WindowQuery.Proofs.Success

/-!
# Rows taken column by column

A materializer takes rows, and within a row it goes from the left to the
right. No accumulator ever looks at another one, so what a run leaves in a
column is what the cells of that column alone leave there:
`Materializer.consume_columns` says that a run that succeeds is, in each
column, `Accumulator.pushAll` over the cells of the column.

A run succeeds only on rows that are there and have one cell for each
column, so every column has as many cells as there are rows
(`length_cellsAt`).
-/

namespace WindowQuery

/-- **The cells of a column**: what stands at one place of each row. -/
def cellsAt (rows : List Scan) (j : Nat) : List Cell :=
  rows.filterMap (fun scan => scan.toOption.bind (fun row => row[j]?))

theorem cellsAt_cons {row : List Cell} {j : Nat} {cell : Cell} (h : row[j]? = some cell)
    (rows : List Scan) : cellsAt (.ok row :: rows) j = cell :: cellsAt rows j := by
  unfold cellsAt
  rw [List.filterMap_cons]
  simp only [Except.toOption, Option.bind_some, h]

theorem cellsAt_concat {row : List Cell} {j : Nat} {cell : Cell} (h : row[j]? = some cell)
    (rows : List Scan) : cellsAt (rows ++ [.ok row]) j = cellsAt rows j ++ [cell] := by
  unfold cellsAt
  rw [List.filterMap_append]
  simp only [List.filterMap_cons, List.filterMap_nil, Except.toOption, Option.bind_some, h]

/-- **Whether every scan is a row of the given width.** -/
def Rectangular (width : Nat) (rows : List Scan) : Prop :=
  ∀ scan ∈ rows, ∃ row, scan = .ok row ∧ row.length = width

/-- A column of a rectangular table has one cell for each row. -/
theorem length_cellsAt {width j : Nat} (hj : j < width) {rows : List Scan}
    (h : Rectangular width rows) : (cellsAt rows j).length = rows.length := by
  induction rows with
  | nil => rfl
  | cons scan rows ih =>
    obtain ⟨row, rfl, hrow⟩ := h scan List.mem_cons_self
    have hlt : j < row.length := hrow ▸ hj
    have hcell : row[j]? = some row[j] := List.getElem?_eq_getElem hlt
    rw [cellsAt_cons hcell, List.length_cons, List.length_cons,
      ih (fun s hs => h s (List.mem_cons_of_mem _ hs))]

/-- **The cell of a row** in such a column. -/
theorem getElem?_cellsAt {width j : Nat} (hj : j < width) {rows : List Scan}
    (h : Rectangular width rows) {i : Nat} {row : List Cell} (hi : rows[i]? = some (.ok row)) :
    (cellsAt rows j)[i]? = row[j]? := by
  induction rows generalizing i with
  | nil => cases hi
  | cons scan rows ih =>
    obtain ⟨first, rfl, hfirst⟩ := h scan List.mem_cons_self
    have hlt : j < first.length := hfirst ▸ hj
    rw [cellsAt_cons (List.getElem?_eq_getElem hlt)]
    cases i with
    | zero =>
      obtain rfl := Except.ok.inj (Option.some.inj hi)
      exact (List.getElem?_eq_getElem hlt).symm
    | succ i => exact ih (fun s hs => h s (List.mem_cons_of_mem _ hs)) hi

/-! ## One column by itself -/

/-- Takes cells one after the other, up to the first that is refused. -/
def Accumulator.pushAll (a : Accumulator) (name : String) (fill : FillPolicy)
    (cells : List Cell) : Except FrameError Accumulator :=
  cells.foldlM (fun a cell => a.push name cell fill) a

@[simp] theorem Accumulator.pushAll_cons (a : Accumulator) (name : String) (fill : FillPolicy)
    (cell : Cell) (cells : List Cell) :
    a.pushAll name fill (cell :: cells)
      = (a.push name cell fill).bind (fun a' => a'.pushAll name fill cells) := rfl

namespace Materializer

/-! ## One row -/

/-- **A row is taken cell by cell**: if none of its cells is refused, each
column has taken its own. -/
theorem pushCells_columns {fill : FillPolicy} {columns columns' : List (String × Accumulator)}
    {cells : List Cell} (hlen : cells.length = columns.length)
    (h : pushCells fill columns cells = (columns', none)) :
    columns'.length = columns.length ∧
      ∀ (j : Nat) (name : String) (a : Accumulator), columns[j]? = some (name, a) →
        ∃ cell a', cells[j]? = some cell ∧ a.push name cell fill = .ok a' ∧
          columns'[j]? = some (name, a') := by
  induction columns generalizing cells columns' with
  | nil =>
    have hcells : cells = [] := List.length_eq_zero_iff.1 hlen
    subst hcells
    obtain rfl : [] = columns' := congrArg Prod.fst h
    exact ⟨rfl, fun j name a hj => by simp at hj⟩
  | cons column columns ih =>
    obtain ⟨name₀, a₀⟩ := column
    cases cells with
    | nil => simp at hlen
    | cons cell cells =>
      -- a refusal would end the row, so here each cell was taken and the rest of the row as well
      cases hpush : a₀.push name₀ cell fill with
      | error e => simp [pushCells, hpush] at h
      | ok a₁ =>
        simp only [pushCells, hpush, Prod.mk.injEq] at h
        obtain ⟨hcolumns, hnone⟩ := h
        have hrest : pushCells fill columns cells
            = ((pushCells fill columns cells).1, none) := Prod.ext rfl hnone
        obtain ⟨hlength, hcell⟩ := ih (Nat.succ.inj hlen) hrest
        subst hcolumns
        refine ⟨by rw [List.length_cons, List.length_cons, hlength], fun j name a hj => ?_⟩
        cases j with
        | zero =>
          obtain ⟨rfl, rfl⟩ := Prod.mk.inj (Option.some.inj hj)
          exact ⟨cell, a₁, rfl, hpush, rfl⟩
        | succ j => exact hcell j name a hj

/-- What a row that is taken must be, and what it leaves in the columns. -/
theorem pushScan_columns {m m' : Materializer} {scan : Scan}
    (h : m.pushScan scan = (m', none)) :
    ∃ row, scan = .ok row ∧ row.length = m.columns.length ∧ m'.fill = m.fill ∧
      m'.rows = m.rows + 1 ∧ pushCells m.fill m.columns row = (m'.columns, none) := by
  cases scan with
  | error text => simp [pushScan] at h
  | ok row =>
    simp only [pushScan, pushRow] at h
    split at h
    · next hlen =>
      split at h
      · next columns hcells =>
        obtain rfl := congrArg Prod.fst h
        exact ⟨row, rfl, hlen, rfl, rfl, hcells⟩
      · exact absurd (congrArg Prod.snd h) (by simp)
    · exact absurd (congrArg Prod.snd h) (by simp)

/-! ## A whole run -/

/-- **A run is taken column by column.** If no row fails, the rows form a
table as wide as there are columns, and each column is what its own cells
have made of it. -/
theorem consume_columns {rows : List Scan} {m m' : Materializer}
    (h : m.consume rows = (m', none)) :
    Rectangular m.columns.length rows ∧ m'.columns.length = m.columns.length ∧
      ∀ (j : Nat) (name : String) (a : Accumulator), m.columns[j]? = some (name, a) →
        ∃ a', a.pushAll name m.fill (cellsAt rows j) = .ok a' ∧
          m'.columns[j]? = some (name, a') := by
  induction rows generalizing m with
  | nil =>
    obtain rfl : m = m' := congrArg Prod.fst h
    exact ⟨fun scan hscan => by simp at hscan, rfl, fun j name a hj => ⟨a, rfl, hj⟩⟩
  | cons scan rows ih =>
    rw [consume] at h
    split at h
    · next m₁ hscan =>
      -- a row that is taken leaves as many columns, so the next one has to be as wide
      obtain ⟨row, rfl, hwidth, hfill, -, hcells⟩ := pushScan_columns hscan
      obtain ⟨hlength, hcell⟩ := pushCells_columns hwidth hcells
      obtain ⟨hrect, hlength', hrun⟩ := ih h
      rw [hlength] at hrect hlength'
      refine ⟨fun s hs => ?_, hlength', fun j name a hj => ?_⟩
      · rcases List.mem_cons.1 hs with rfl | hs
        · exact ⟨row, rfl, hwidth⟩
        · exact hrect s hs
      · obtain ⟨cell, a₁, hat, hpush, hj₁⟩ := hcell j name a hj
        obtain ⟨a', hall, hj'⟩ := hrun j name a₁ hj₁
        refine ⟨a', ?_, hj'⟩
        rw [cellsAt_cons hat, Accumulator.pushAll_cons, hpush, ← hfill]
        exact hall
    · exact absurd (congrArg Prod.snd h) (by simp)

/-! ## Before the first row -/

/-- A traversal that succeeds has one result for each element, in order. -/
theorem getElem?_of_mapM {α β ε : Type} {f : α → Except ε β} {xs : List α} {ys : List β}
    (h : xs.mapM f = .ok ys) :
    ys.length = xs.length ∧
      ∀ (j : Nat) (x : α), xs[j]? = some x → ∃ y, f x = .ok y ∧ ys[j]? = some y := by
  induction xs generalizing ys with
  | nil =>
    obtain rfl := Except.ok.inj h
    exact ⟨rfl, fun j x hj => by simp at hj⟩
  | cons x xs ih =>
    rw [List.mapM_cons] at h
    obtain ⟨y, hx, h⟩ := exists_of_bind_eq_ok h
    obtain ⟨rest, hxs, h⟩ := exists_of_bind_eq_ok h
    obtain rfl := Except.ok.inj h
    obtain ⟨hlength, hat⟩ := ih hxs
    refine ⟨congrArg (· + 1) hlength, fun j z hj => ?_⟩
    cases j with
    | zero =>
      obtain rfl := Option.some.inj hj
      exact ⟨y, hx, rfl⟩
    | succ j => exact hat j z hj

/-- The columns before the first row are empty ones of the types that the
headers give. -/
theorem start_columns {headers : List Header} {timeGrouped : Bool} {fill : FillPolicy}
    {m : Materializer} (h : start headers timeGrouped fill = .ok m) :
    m.fill = fill ∧ m.columns.length = headers.length ∧
      ∀ (j : Nat) (header : Header), headers[j]? = some header →
        ∃ declared, TypeName.resolve header timeGrouped = .ok declared ∧
          m.columns[j]? = some (header.name, .ofType declared) := by
  obtain ⟨columns, hcolumns, rfl⟩ := exists_of_map_eq_ok h
  obtain ⟨hlength, hat⟩ := getElem?_of_mapM hcolumns
  refine ⟨rfl, hlength, fun j header hj => ?_⟩
  obtain ⟨column, hcolumn, hj'⟩ := hat j header hj
  obtain ⟨declared, hresolve, rfl⟩ := exists_of_map_eq_ok hcolumn
  exact ⟨declared, hresolve, hj'⟩

end Materializer

/-- What a result that succeeds has gone through. -/
theorem exists_of_materialize_eq_ok {headers : List Header} {rows : List Scan}
    {timeGrouped : Bool} {fill : FillPolicy} {columns : List Column}
    (h : materialize headers rows timeGrouped fill = .ok columns) :
    ∃ m m', Materializer.start headers timeGrouped fill = .ok m ∧ m.consume rows = (m', none) ∧
      columns = m'.finish := by
  obtain ⟨m, hstart, h⟩ := exists_of_bind_eq_ok h
  cases hrun : m.consume rows with
  | mk m' failure =>
    cases failure with
    | some e => rw [hrun] at h; cases h
    | none =>
      rw [hrun] at h
      exact ⟨m, m', hstart, hrun, (Except.ok.inj h).symm⟩

end WindowQuery
