import Mathlib.Data.List.TakeWhile
import WindowQuery.Proofs.Frame.ColumnWise

/-!
# What a column is, said entry by entry

A materializer gathers a column in one pass. It keeps a count of missing
values until a type is found, then an array of entries and the last value
seen. This module says what the column is without any of that: each entry
by itself, from the cells of the column up to it.

* The type is that of the header, or else that of the first cell that
  holds a value, or else text (`columnType`).
* An entry is what its cell converts to, or else what stands in for it
  (`ColumnType.standIn`), which looks only at earlier cells and among
  them only at cells that convert.
* Where the header gives no type, the missing cells before the first value
  stay missing under every policy (`leadIn`).

`materialize_reference` says that a materializer computes exactly these
columns. What a policy filled in is never looked at again, because
`ColumnType.latest?` reads cells and not entries; this is the invariant
that carries the proof (`Gathered`).
-/

namespace WindowQuery

namespace ColumnType

/-- The value of the latest of some cells that converts. -/
def latest? (t : ColumnType) (cells : List Cell) : Option t.Entry :=
  cells.reverse.findSome? (Cell.convert? t)

/-- **What stands in for a cell without a value**, after the cells before
it. -/
def standIn (t : ColumnType) (fill : FillPolicy) (earlier : List Cell) : Option t.Entry :=
  match fill, t with
  | .null, _ => none
  | .previous, .boolean => none
  | .previous, t => t.latest? earlier
  | .zero, .integer => some (0 : Int64)
  | .zero, .float => some (Binary64.zero false)
  | .zero, .string => some ""
  | .zero, .time => none
  | .zero, .boolean => none

end ColumnType

/-! ## The reference column -/

/-- **The type of a column**, by its header or by its first value. -/
def columnType (declared : SemanticType) (cells : List Cell) : ColumnType :=
  match declared with
  | .known t => t
  | .unknown =>
    match (cells.find? (fun c => !c.isNull)).map Cell.naturalType with
    | some (.known t) => t
    | _ => .string

/-- **The number of entries that no policy fills**: the missing cells before
the first value, where the header gives no type. -/
def leadIn (declared : SemanticType) (cells : List Cell) : Nat :=
  match declared with
  | .known _ => 0
  | .unknown => (cells.takeWhile Cell.isNull).length

/-- **One entry**, by the cells up to it. -/
def entryAt (t : ColumnType) (fill : FillPolicy) (lead : Nat) (cells : List Cell) (i : Nat) :
    Option t.Entry :=
  if i < lead then none
  else (cells[i]?.bind (Cell.convert? t)).or (t.standIn fill (cells.take i))

/-- All entries of a column. -/
def entriesOf (t : ColumnType) (fill : FillPolicy) (lead : Nat) (cells : List Cell) :
    List (Option t.Entry) :=
  (List.range cells.length).map (entryAt t fill lead cells)

/-- **The reference column** of some cells under a header. -/
def referenceValues (declared : SemanticType) (fill : FillPolicy) (cells : List Cell) : Values :=
  ⟨columnType declared cells,
    entriesOf (columnType declared cells) fill (leadIn declared cells) cells⟩

/-! ## Cells one at a time -/

theorem latest?_concat (t : ColumnType) (cells : List Cell) (cell : Cell) :
    t.latest? (cells ++ [cell]) = (cell.convert? t).or (t.latest? cells) := by
  unfold ColumnType.latest?
  rw [List.reverse_append, List.reverse_singleton, List.singleton_append, List.findSome?_cons]
  cases cell.convert? t <;> rfl

theorem convert?_of_isNull {cell : Cell} (h : cell.isNull = true) (t : ColumnType) :
    cell.convert? t = none := by
  cases cell with
  | null => cases t <;> rfl
  | _ => exact absurd h Bool.false_ne_true

theorem latest?_of_isNull (t : ColumnType) {cells : List Cell}
    (h : ∀ c ∈ cells, c.isNull = true) : t.latest? cells = none :=
  List.findSome?_eq_none_iff.2 (fun c hc => convert?_of_isNull (h c (List.mem_reverse.1 hc)) t)

/-- **The filler of a running column is the stand-in**, when the last value
is the latest among its cells. -/
theorem filler_latest? (t : ColumnType) (fill : FillPolicy) (cells : List Cell) :
    t.filler fill (t.latest? cells) = t.standIn fill cells := by
  cases fill <;> cases t <;> rfl

/-- Entries up to a cell do not look at it. -/
theorem entryAt_append {t : ColumnType} {fill : FillPolicy} {lead i : Nat} {cells : List Cell}
    (hi : i < cells.length) (more : List Cell) :
    entryAt t fill lead (cells ++ more) i = entryAt t fill lead cells i := by
  unfold entryAt
  rw [List.getElem?_append_left hi, List.take_append_of_le_length (Nat.le_of_lt hi)]

/-- **One more cell is one more entry**, and the others stay. -/
theorem entriesOf_concat (t : ColumnType) (fill : FillPolicy) {lead : Nat} {cells : List Cell}
    (hlead : lead ≤ cells.length) (cell : Cell) :
    entriesOf t fill lead (cells ++ [cell])
      = entriesOf t fill lead cells ++ [(cell.convert? t).or (t.standIn fill cells)] := by
  unfold entriesOf
  rw [List.length_append, List.length_singleton, List.range_succ, List.map_append,
    List.map_singleton]
  refine congrArg₂ (· ++ [·]) (List.map_congr_left (fun i hi => ?_)) ?_
  · exact entryAt_append (List.mem_range.1 hi) _
  · unfold entryAt
    rw [if_neg (Nat.not_lt.2 hlead), List.getElem?_concat_length, List.take_left]
    rfl

/-- Entries that no policy fills are missing. -/
theorem entriesOf_of_length_le (t : ColumnType) (fill : FillPolicy) {lead : Nat}
    {cells : List Cell} (hlead : cells.length ≤ lead) :
    entriesOf t fill lead cells = List.replicate cells.length none := by
  unfold entriesOf
  refine List.eq_replicate_iff.2 ⟨by rw [List.length_map, List.length_range], fun b hb => ?_⟩
  obtain ⟨i, hi, rfl⟩ := List.mem_map.1 hb
  exact if_pos (Nat.lt_of_lt_of_le (List.mem_range.1 hi) hlead)

/-! ## The first value -/

/-- **Only a missing cell has no type of its own.** -/
theorem naturalType_eq_unknown_iff {cell : Cell} :
    cell.naturalType = .unknown ↔ cell.isNull = true := by
  cases cell <;> simp [Cell.naturalType, Cell.isNull]

theorem not_isNull_of_naturalType {cell : Cell} {t : ColumnType}
    (h : cell.naturalType = .known t) : cell.isNull = false := by
  refine Bool.eq_false_iff.2 (fun hnull => ?_)
  rw [naturalType_eq_unknown_iff.2 hnull] at h
  cases h

theorem leadIn_le_length (declared : SemanticType) (cells : List Cell) :
    leadIn declared cells ≤ cells.length := by
  cases declared with
  | known t => exact Nat.zero_le _
  | unknown => exact (List.takeWhile_prefix _).length_le

theorem leadIn_of_isNull {cells : List Cell} (h : ∀ c ∈ cells, c.isNull = true) :
    leadIn .unknown cells = cells.length :=
  congrArg List.length (List.takeWhile_eq_self_iff.2 h)

/-- **The first value ends the lead-in and decides the type.** -/
theorem columnType_leadIn_concat {cells : List Cell} (h : ∀ c ∈ cells, c.isNull = true)
    {cell : Cell} {t : ColumnType} (hcell : cell.naturalType = .known t) :
    columnType .unknown (cells ++ [cell]) = t ∧
      leadIn .unknown (cells ++ [cell]) = cells.length := by
  have hvalue := not_isNull_of_naturalType hcell
  have hnone : cells.find? (fun c => !c.isNull) = none :=
    List.find?_eq_none.2 (fun c hc => by simp [h c hc])
  constructor
  · simp only [columnType, List.find?_append, hnone, Option.none_or, List.find?_cons, hvalue,
      Bool.not_false, Option.map_some, hcell]
  · simp only [leadIn, List.takeWhile_append_of_pos h, List.takeWhile_cons, hvalue,
      Bool.false_eq_true, if_false, List.append_nil]

/-- **After the first value neither changes**: more cells leave the type of a
column and its lead-in. A column with a type by its header has both from the
start. -/
theorem columnType_leadIn_append {declared : SemanticType} {cells : List Cell}
    (h : declared = .unknown → ∃ c ∈ cells, c.isNull = false) (more : List Cell) :
    columnType declared (cells ++ more) = columnType declared cells ∧
      leadIn declared (cells ++ more) = leadIn declared cells := by
  cases declared with
  | known t => exact ⟨rfl, rfl⟩
  | unknown =>
    obtain ⟨c, hc, hvalue⟩ := h rfl
    have hsome : (cells.find? (fun c => !c.isNull)).isSome = true :=
      List.find?_isSome.2 ⟨c, hc, by simp [hvalue]⟩
    constructor
    · obtain ⟨first, hfirst⟩ := Option.isSome_iff_exists.1 hsome
      simp only [columnType, List.find?_append, hfirst, Option.some_or]
    · have hshort : (cells.takeWhile Cell.isNull).length ≠ cells.length := fun he => by
        have hall := List.takeWhile_eq_self_iff.1
          ((List.takeWhile_prefix Cell.isNull).eq_of_length he) c hc
        rw [hvalue] at hall
        exact Bool.false_ne_true hall
      simp only [leadIn, List.takeWhile_append, hshort, if_false]

/-! ## The invariant of a running column -/

/-- **What a column has gathered from some cells**: a count as long as no cell
held a value, and after that the reference entries and the latest value
among the cells. -/
inductive Gathered (declared : SemanticType) (fill : FillPolicy) (cells : List Cell) :
    Accumulator → Prop where
  /-- No cell held a value, and the header gives no type. -/
  | undecided : declared = .unknown → (∀ c ∈ cells, c.isNull = true) →
      Gathered declared fill cells (.undecided cells.length)
  /-- The type is decided. -/
  | decided (t : ColumnType) : columnType declared cells = t →
      (declared = .unknown → ∃ c ∈ cells, c.isNull = false) →
      Gathered declared fill cells
        (.decided t (entriesOf t fill (leadIn declared cells) cells).toArray (t.latest? cells))

namespace Gathered

variable {declared : SemanticType} {fill : FillPolicy}

theorem ofType (declared : SemanticType) (fill : FillPolicy) :
    Gathered declared fill [] (.ofType declared) := by
  cases declared with
  | known t => exact .decided t rfl (fun h => by cases h)
  | unknown => exact .undecided rfl (fun c hc => by cases hc)

/-- Taking a cell into a column with a type gives the next entry and the
next latest value. -/
theorem take_eq (t : ColumnType) (fill : FillPolicy) {lead : Nat} {cells : List Cell}
    (hlead : lead ≤ cells.length) (cell : Cell) :
    Accumulator.take t (entriesOf t fill lead cells).toArray (t.latest? cells) cell fill
      = .decided t (entriesOf t fill lead (cells ++ [cell])).toArray
          (t.latest? (cells ++ [cell])) := by
  rw [entriesOf_concat t fill hlead, latest?_concat, ← List.push_toArray]
  unfold Accumulator.take
  cases cell.convert? t with
  | some entry => rfl
  | none => simp only [filler_latest?, Option.none_or]

/-- **One cell keeps the invariant.** It counts as one more missing entry, as the
first value, which fixes the type and ends the lead-in, or as an entry after it,
which is coerced or has a stand-in. -/
theorem push {cells : List Cell} {a a' : Accumulator} (h : Gathered declared fill cells a)
    {name : String} {cell : Cell} (hpush : a.push name cell fill = .ok a') :
    Gathered declared fill (cells ++ [cell]) a' := by
  cases h with
  | undecided hdeclared hnull =>
    subst hdeclared
    cases hcell : cell.naturalType with
    | unknown =>
      simp only [Accumulator.push, hcell] at hpush
      obtain rfl := Except.ok.inj hpush
      have hall : ∀ c ∈ cells ++ [cell], c.isNull = true := fun c hc => by
        rcases List.mem_append.1 hc with hc | hc
        · exact hnull c hc
        · exact List.mem_singleton.1 hc ▸ naturalType_eq_unknown_iff.1 hcell
      have hnext : Gathered .unknown fill (cells ++ [cell]) _ := .undecided rfl hall
      rwa [List.length_append, List.length_singleton] at hnext
    | known t =>
      simp only [Accumulator.push, hcell] at hpush
      cases hcheck : TypeName.checkFirstValue name t with
      | error e => rw [hcheck] at hpush; simp [Except.map] at hpush
      | ok u =>
        rw [hcheck] at hpush
        obtain rfl := Except.ok.inj hpush
        obtain ⟨htype, hlead⟩ := columnType_leadIn_concat hnull hcell
        -- so far the entries are missing ones, and there is no latest value
        have hentries : Array.replicate cells.length none
            = (entriesOf t fill cells.length cells).toArray := by
          rw [entriesOf_of_length_le t fill (Nat.le_refl _), List.toArray_replicate]
        rw [hentries, ← latest?_of_isNull t hnull, take_eq t fill (Nat.le_refl _)]
        have hnext : Gathered .unknown fill (cells ++ [cell]) _ := .decided t htype (fun _ =>
          ⟨cell, List.mem_append_right _ (List.mem_singleton_self cell),
            not_isNull_of_naturalType hcell⟩)
        rwa [hlead] at hnext
  | decided t htype hvalue =>
    simp only [Accumulator.push] at hpush
    obtain rfl := Except.ok.inj hpush
    obtain ⟨htype', hlead'⟩ := columnType_leadIn_append hvalue [cell]
    rw [take_eq t fill (leadIn_le_length declared cells)]
    have hnext : Gathered declared fill (cells ++ [cell]) _ :=
      .decided t (htype'.trans htype) (fun hd => by
        obtain ⟨c, hc, hnull⟩ := hvalue hd
        exact ⟨c, List.mem_append_left _ hc, hnull⟩)
    rwa [hlead'] at hnext

/-- **A run of cells keeps the invariant.** -/
theorem pushAll {more cells : List Cell} {a a' : Accumulator}
    (h : Gathered declared fill cells a) {name : String}
    (hpush : a.pushAll name fill more = .ok a') :
    Gathered declared fill (cells ++ more) a' := by
  induction more generalizing cells a with
  | nil =>
    obtain rfl := Except.ok.inj hpush
    rwa [List.append_nil]
  | cons cell more ih =>
    obtain ⟨a₁, hcell, hpush⟩ := exists_of_bind_eq_ok hpush
    have hrest := ih (h.push hcell) hpush
    rwa [List.append_assoc, List.singleton_append] at hrest

/-- **A finished column is the reference column** of its cells. -/
theorem finish {cells : List Cell} {a : Accumulator} (h : Gathered declared fill cells a) :
    a.finish = referenceValues declared fill cells := by
  cases h with
  | undecided hdeclared hnull =>
    subst hdeclared
    have htype : columnType .unknown cells = .string := by
      have hnone : cells.find? (fun c => !c.isNull) = none :=
        List.find?_eq_none.2 (fun c hc => by simp [hnull c hc])
      simp only [columnType, hnone, Option.map_none]
    rw [referenceValues, htype, leadIn_of_isNull hnull,
      entriesOf_of_length_le _ fill (Nat.le_refl _)]
    rfl
  | decided t htype hvalue =>
    subst htype
    rfl

end Gathered

/-! ## Whole tables -/

@[simp] theorem length_referenceValues (declared : SemanticType) (fill : FillPolicy)
    (cells : List Cell) : (referenceValues declared fill cells).length = cells.length := by
  show (entriesOf _ _ _ _).length = _
  rw [entriesOf, List.length_map, List.length_range]

/-- The columns of a result that succeeds, each by its header and its own
cells. -/
theorem materialize_column {headers : List Header} {rows : List Scan} {timeGrouped : Bool}
    {fill : FillPolicy} {columns : List Column}
    (h : materialize headers rows timeGrouped fill = .ok columns) :
    Rectangular headers.length rows ∧ columns.length = headers.length ∧
      ∀ (j : Nat) (header : Header), headers[j]? = some header →
        ∃ declared, TypeName.resolve header timeGrouped = .ok declared ∧
          columns[j]? = some (.ofValues header.name
            (referenceValues declared fill (cellsAt rows j))) := by
  obtain ⟨m, m', hstart, hrun, rfl⟩ := exists_of_materialize_eq_ok h
  obtain ⟨hfill, hlength, hat⟩ := Materializer.start_columns hstart
  obtain ⟨hrect, hlength', hcolumn⟩ := Materializer.consume_columns hrun
  rw [hlength] at hrect hlength'
  refine ⟨hrect, ?_, fun j header hj => ?_⟩
  · rw [Materializer.finish, List.length_map, hlength']
  · obtain ⟨declared, hresolve, hj₀⟩ := hat j header hj
    obtain ⟨a', hall, hj'⟩ := hcolumn j header.name _ hj₀
    rw [hfill] at hall
    have hgathered := (Gathered.ofType declared fill).pushAll hall
    rw [List.nil_append] at hgathered
    refine ⟨declared, hresolve, ?_⟩
    rw [Materializer.finish, List.getElem?_map, hj', ← hgathered.finish]
    rfl

/-- Every column of a result that succeeds has one entry for each row. -/
theorem length_of_materialize {headers : List Header} {rows : List Scan} {timeGrouped : Bool}
    {fill : FillPolicy} {columns : List Column}
    (h : materialize headers rows timeGrouped fill = .ok columns) {column : Column}
    (hcolumn : column ∈ columns) : column.values.length = rows.length := by
  obtain ⟨hrect, hlength, hat⟩ := materialize_column h
  obtain ⟨j, hj⟩ := List.mem_iff_getElem?.1 hcolumn
  have hlt : j < headers.length := hlength ▸ (List.getElem?_eq_some_iff.1 hj).1
  obtain ⟨declared, -, hvalues⟩ := hat j _ (List.getElem?_eq_getElem hlt)
  rw [Option.some.inj (hj.symm.trans hvalues), Column.ofValues, length_referenceValues,
    length_cellsAt hlt hrect]

/-- **A cell that converts is an entry** of its column, where the header gives the
type. -/
theorem materialize_entry {headers : List Header} {rows : List Scan} {timeGrouped : Bool}
    {fill : FillPolicy} {columns : List Column}
    (h : materialize headers rows timeGrouped fill = .ok columns) {j : Nat} {header : Header}
    (hj : headers[j]? = some header) {t : ColumnType}
    (hresolve : TypeName.resolve header timeGrouped = .ok (.known t)) {i : Nat} {row : List Cell}
    (hi : rows[i]? = some (.ok row)) {cell : Cell} (hcell : row[j]? = some cell) {x : t.Entry}
    (hx : cell.convert? t = some x) :
    ∃ entries, columns[j]? = some (.ofValues header.name ⟨t, entries⟩) ∧
      entries[i]? = some (some x) := by
  obtain ⟨hrect, -, hat⟩ := materialize_column h
  obtain ⟨declared, hdeclared, hcolumn⟩ := hat j header hj
  obtain rfl := Except.ok.inj (hresolve.symm.trans hdeclared)
  have hat : (cellsAt rows j)[i]? = some cell :=
    (getElem?_cellsAt (List.getElem?_eq_some_iff.1 hj).1 hrect hi).trans hcell
  refine ⟨_, hcolumn, ?_⟩
  show ((List.range (cellsAt rows j).length).map (entryAt t fill 0 (cellsAt rows j)))[i]? = _
  rw [List.getElem?_map, List.getElem?_range (List.getElem?_eq_some_iff.1 hat).1, Option.map_some,
    entryAt, if_neg (Nat.not_lt_zero i), hat, Option.bind_some, hx, Option.some_or]

/-- **By itself such a cell never fails.** -/
theorem materialize_single_cell {header : Header} {timeGrouped : Bool} {t : ColumnType}
    (hresolve : TypeName.resolve header timeGrouped = .ok (.known t)) {cell : Cell} {x : t.Entry}
    (hx : cell.convert? t = some x) (fill : FillPolicy) :
    materialize [header] [.ok [cell]] timeGrouped fill
      = .ok [.ofValues header.name ⟨t, [some x]⟩] := by
  have hstart : Materializer.start [header] timeGrouped fill
      = .ok ⟨[(header.name, .decided t #[] none)], fill, 0⟩ := by
    simp only [Materializer.start, List.mapM_cons, List.mapM_nil, hresolve]
    rfl
  have htake : Accumulator.take t #[] none cell fill = .decided t #[some x] (some x) := by
    rw [Accumulator.take, hx]
    rfl
  rw [materialize, hstart]
  show Except.ok [Column.ofValues header.name (Accumulator.take t #[] none cell fill).finish] = _
  rw [htake]
  rfl

/-- **A materializer computes the reference columns.** Where it succeeds, every
scan is a row with one cell for each header; there is one column for each
header, in order, with its name and one entry for each row; and its values
are the reference column of its own cells under its header. So two runs
with the same header and the same cells at two places have the same column
there, whatever else they read. -/
theorem materialize_reference {headers : List Header} {rows : List Scan} {timeGrouped : Bool}
    {fill : FillPolicy} {columns : List Column}
    (h : materialize headers rows timeGrouped fill = .ok columns) :
    Rectangular headers.length rows ∧ columns.length = headers.length ∧
      (∀ column ∈ columns, column.values.length = rows.length) ∧
      (∀ (j : Nat) (header : Header), headers[j]? = some header →
        ∃ declared, TypeName.resolve header timeGrouped = .ok declared ∧
          columns[j]? = some (.ofValues header.name
            (referenceValues declared fill (cellsAt rows j)))) ∧
      (∀ (headers' : List Header) (rows' : List Scan) (columns' : List Column),
        materialize headers' rows' timeGrouped fill = .ok columns' →
          ∀ j j' : Nat, headers'[j']? = headers[j]? → cellsAt rows' j' = cellsAt rows j →
            columns'[j']? = columns[j]?) := by
  obtain ⟨hrect, hlength, hat⟩ := materialize_column h
  refine ⟨hrect, hlength, fun column hcolumn => ?_, hat,
    fun headers' rows' columns' h' j j' hheader hcells => ?_⟩
  · obtain ⟨j, hj, rfl⟩ := List.mem_iff_getElem.1 hcolumn
    have hj' : j < headers.length := hlength ▸ hj
    obtain ⟨declared, -, hvalues⟩ := hat j _ (List.getElem?_eq_getElem hj')
    rw [List.getElem?_eq_getElem hj] at hvalues
    rw [Option.some.inj hvalues, Column.ofValues, length_referenceValues,
      length_cellsAt hj' hrect]
  · obtain ⟨-, hlength', hat'⟩ := materialize_column h'
    -- beyond the headers neither table has a column
    cases hj : headers[j]? with
    | none =>
      have hnone : columns[j]? = none := by
        rw [List.getElem?_eq_none_iff, hlength]
        exact List.getElem?_eq_none_iff.1 hj
      have hnone' : columns'[j']? = none := by
        rw [List.getElem?_eq_none_iff, hlength']
        exact List.getElem?_eq_none_iff.1 (hheader.trans hj)
      rw [hnone, hnone']
    | some header =>
      obtain ⟨declared, hresolve, hcolumn⟩ := hat j header hj
      obtain ⟨declared', hresolve', hcolumn'⟩ := hat' j' header (hheader.trans hj)
      obtain rfl := Except.ok.inj (hresolve.symm.trans hresolve')
      rw [hcolumn, hcolumn', hcells]

/-- The reference at a column without a type beside one of texts: under zeros
the cell before the first value stays missing, and those after it do not. -/
theorem materialize_reference_lead_in :
    materialize [⟨"v", ""⟩, ⟨"host", "TEXT"⟩]
        [.ok [.null, .text "a"], .ok [.int 5, .null], .ok [.text "x", .bool true],
          .ok [.null, .null]] false .zero
      = .ok [.ofValues "v" ⟨.integer, [none, some 5, some 0, some 0]⟩,
          .ofValues "host" ⟨.string, [some "a", some "", some "true", some ""]⟩] ∧
    ∃ declared, TypeName.resolve ⟨"v", ""⟩ false = .ok declared ∧
      [Column.ofValues "v" ⟨.integer, [none, some 5, some 0, some 0]⟩,
          .ofValues "host" ⟨.string, [some "a", some "", some "true", some ""]⟩][0]?
        = some (.ofValues "v" (referenceValues declared .zero
            (cellsAt [.ok [.null, .text "a"], .ok [.int 5, .null],
              .ok [.text "x", .bool true], .ok [.null, .null]] 0))) := by
  have h : materialize [⟨"v", ""⟩, ⟨"host", "TEXT"⟩]
        [.ok [.null, .text "a"], .ok [.int 5, .null], .ok [.text "x", .bool true],
          .ok [.null, .null]] false .zero
      = .ok [.ofValues "v" ⟨.integer, [none, some 5, some 0, some 0]⟩,
          .ofValues "host" ⟨.string, [some "a", some "", some "true", some ""]⟩] := by
    decide
  exact ⟨h, (materialize_reference h).2.2.2.1 0 ⟨"v", ""⟩ rfl⟩

end WindowQuery
