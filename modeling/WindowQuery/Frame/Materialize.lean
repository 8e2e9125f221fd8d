import WindowQuery.FillPolicy
import WindowQuery.Frame.Basic
import WindowQuery.Frame.Coercion
import WindowQuery.Frame.TypeName

/-!
# From rows to columns

Rows arrive one by one, and each column gathers its cells. A column whose
header gives no type waits for its first value and takes the type of that;
the missing values before it stay missing. A cell that is missing or does
not convert is filled as the policy says: with nothing, with the last
value before it, or with the zero of the type. Truth values are never
filled, and times have no zero.

A row that fails does so at its leftmost cell that is refused; the columns
left of that one have already taken theirs.
-/

namespace WindowQuery

namespace ColumnType

/-- The zero of a type, where it has one. -/
def zero? : (t : ColumnType) → Option t.Entry
  | time => none
  | integer => some (0 : Int64)
  | float => some (Binary64.zero false)
  | string => some ""
  | boolean => none

/-- **What stands for a missing value** after the given last one. -/
def filler (t : ColumnType) (fill : FillPolicy) (last : Option t.Entry) : Option t.Entry :=
  match fill with
  | .null => none
  | .previous => if t = .boolean then none else last
  | .zero => t.zero?

end ColumnType

/-- **A column that is gathering its cells.** -/
inductive Accumulator where
  /-- So many missing values, and no type yet. -/
  | undecided (nulls : Nat)
  /-- Entries of a type, and the last value among the cells. -/
  | decided (type : ColumnType) (entries : Array (Option type.Entry)) (last : Option type.Entry)

namespace Accumulator

/-- An empty column. -/
def ofType : SemanticType → Accumulator
  | .known t => decided t #[] none
  | .unknown => undecided 0

/-- Takes a cell into a column with a type. -/
def take (type : ColumnType) (entries : Array (Option type.Entry)) (last : Option type.Entry)
    (cell : Cell) (fill : FillPolicy) : Accumulator :=
  match cell.convert? type with
  | some entry => decided type (entries.push (some entry)) (some entry)
  | none => decided type (entries.push (type.filler fill last)) last

/-- **Takes a cell.** -/
def push (a : Accumulator) (name : String) (cell : Cell) (fill : FillPolicy) :
    Except FrameError Accumulator :=
  match a with
  | decided type entries last => .ok (take type entries last cell fill)
  | undecided nulls =>
    match cell.naturalType with
    | .unknown => .ok (undecided (nulls + 1))
    | .known type =>
      (TypeName.checkFirstValue name type).map (fun _ =>
        take type (Array.replicate nulls none) none cell fill)

/-- The entries; a column that never had a value is one of texts. -/
def finish : Accumulator → Values
  | undecided nulls => .nulls .string nulls
  | decided type entries _ => ⟨type, entries.toList⟩

end Accumulator

/-- What comes from a database in the place of a row: a row of cells, or the
text of an error. -/
abbrev Scan := Except String (List Cell)

/-- **Columns that are gathering rows.** -/
structure Materializer where
  /-- The names of the columns and what they have gathered. -/
  columns : List (String × Accumulator)
  /-- What stands for missing values. -/
  fill : FillPolicy
  /-- The number of rows taken. -/
  rows : Nat

namespace Materializer

/-- The columns of a result before its first row. -/
def start (headers : List Header) (timeGrouped : Bool) (fill : FillPolicy) :
    Except FrameError Materializer :=
  (headers.mapM (fun h => (TypeName.resolve h timeGrouped).map (fun t =>
    (h.name, Accumulator.ofType t)))).map (fun columns => ⟨columns, fill, 0⟩)

/-- The columns after the cells of a row, from left to right up to the first
that is refused, and the error if one is. -/
def pushCells (fill : FillPolicy) :
    List (String × Accumulator) → List Cell → List (String × Accumulator) × Option FrameError
  | (name, a) :: columns, cell :: cells =>
    match a.push name cell fill with
    | .ok a' =>
      let (columns', error) := pushCells fill columns cells
      ((name, a') :: columns', error)
    | .error e => ((name, a) :: columns, some e)
  | columns, _ => (columns, none)

/-- **Takes a row.** -/
def pushRow (m : Materializer) (row : List Cell) : Materializer × Option FrameError :=
  if row.length = m.columns.length then
    match pushCells m.fill m.columns row with
    | (columns, none) => (⟨columns, m.fill, m.rows + 1⟩, none)
    | (columns, some e) => (⟨columns, m.fill, m.rows⟩, some e)
  else (m, some (.rowWidth m.rows m.columns.length row.length))

/-- Takes what comes in the place of a row. -/
def pushScan (m : Materializer) : Scan → Materializer × Option FrameError
  | .ok row => m.pushRow row
  | .error text => (m, some (.rowScan m.rows text))

/-- **Takes rows up to the first failure.** -/
def consume (m : Materializer) : List Scan → Materializer × Option FrameError
  | [] => (m, none)
  | s :: rest =>
    match m.pushScan s with
    | (m', none) => m'.consume rest
    | (m', some e) => (m', some e)

/-- The columns in order. -/
def finish (m : Materializer) : List Column :=
  m.columns.map (fun (name, a) => .ofValues name a.finish)

end Materializer

/-- **The columns of a whole result.** -/
def materialize (headers : List Header) (rows : List Scan) (timeGrouped : Bool)
    (fill : FillPolicy) : Except FrameError (List Column) :=
  (Materializer.start headers timeGrouped fill).bind (fun m =>
    match m.consume rows with
    | (m', none) => .ok m'.finish
    | (_, some e) => .error e)

end WindowQuery
