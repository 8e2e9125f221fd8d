import WindowQuery.Frame.Error
import WindowQuery.Frame.Schema
import WindowQuery.ResultFormat

/-!
# From long to wide

A long frame has one row for each time and series. In the wide form there
is one row for each time, and one column for each series and value
column, labelled with the factors of its series; where a series has no
row at a time its columns have nothing.

The times must be there and ascend, and no series may have two rows at
one time. Of these the first row that breaks a rule is reported; within
a row a missing time counts before the order, and the order before a
repetition.
-/

namespace WindowQuery

namespace Pivot

/-- The factors of a row: what tells its series from others. -/
abbrev Key := List (Option String)

/-- The factor of a column in a row; a column of other entries than texts
gives their text. -/
def factorAt (row : Nat) (c : Column) : Option String :=
  match c.values with
  | ⟨.string, entries⟩ => entries[row]?.join
  | values => some (values.displayAt row)

/-- The columns at the given places. -/
def columnsAt (f : Frame) (places : List Nat) : List Column :=
  places.filterMap (fun i => f.columns[i]?)

/-- The key of a row. -/
def keyAt (f : Frame) (s : Schema) (row : Nat) : Key :=
  (columnsAt f s.factors).map (factorAt row)

/-- Where a row of the long frame goes. -/
structure Placement where
  /-- The row of the wide frame. -/
  slot : Nat
  /-- The series. -/
  key : Key
  /-- The row of the long frame. -/
  row : Nat
deriving DecidableEq

/-- The rows placed so far. -/
structure Progress where
  /-- The distinct times, in order. -/
  times : Array Instant
  /-- The placements, in order. -/
  placements : Array Placement

/-- **Places one row.** -/
def placeRow (keyOf : Nat → Key) (p : Progress) (row : Nat) (time : Option Instant) :
    Except ReshapeError Progress :=
  match time with
  | none => .error (.nullTime row)
  | some t =>
    if p.times.back?.any (fun last => decide (t < last)) then .error (.unsorted row)
    else
      let times := if p.times.back? = some t then p.times else p.times.push t
      let placement : Placement := ⟨times.size - 1, keyOf row, row⟩
      if p.placements.any (fun q => q.slot == placement.slot && q.key == placement.key) then
        .error (.duplicate placement.key row)
      else .ok ⟨times, p.placements.push placement⟩

/-- Places the rows from a number on. -/
def placeRows (keyOf : Nat → Key) (p : Progress) (row : Nat) :
    List (Option Instant) → Except ReshapeError Progress
  | [] => .ok p
  | time :: rest =>
    (placeRow keyOf p row time).bind (fun p' => placeRows keyOf p' (row + 1) rest)

/-- The keys in the order in which they first appear. -/
def distinctKeys (keys : List Key) : List Key :=
  keys.foldl (fun seen k => if seen.contains k then seen else seen ++ [k]) []

/-- The labels of a series. -/
def labelsOf (factors : List Column) (key : Key) : Keyed String :=
  Keyed.ofList ((factors.zip key).map (fun (c, value) => (c.name, value.getD "")))

/-- **The column of a series and a value column.** -/
def seriesColumn (factors : List Column) (p : Progress) (key : Key) (source : Column) : Column :=
  let own := p.placements.toList.filter (fun q => q.key == key)
  ⟨source.name, labelsOf factors key,
    own.foldl (fun v q => v.setFrom q.slot source.values q.row)
      (.nulls source.values.type p.times.size)⟩

/-- The times of a column. -/
def times? (c : Column) : Except ReshapeError (List (Option Instant)) :=
  match c.values with
  | ⟨.time, entries⟩ => .ok entries
  | values => .error (.notATime c.name values.type)

/-- **The wide form of a frame** with the given roles of columns. -/
def toWide (f : Frame) (s : Schema) : Except ReshapeError Frame :=
  match s.time.bind (fun i => f.columns[i]?) with
  | none => .error .noTimeColumn
  | some timeColumn =>
    (times? timeColumn).bind (fun times =>
      (placeRows (keyAt f s) ⟨#[], #[]⟩ 0 times).map (fun p =>
        let factors := columnsAt f s.factors
        let keys := distinctKeys (p.placements.toList.map (·.key))
        let series := keys.flatMap (fun key =>
          (columnsAt f s.values).map (seriesColumn factors p key))
        ⟨f.name,
          .ofValues timeColumn.name ⟨.time, p.times.toList.map some⟩ :: series, f.query⟩))

end Pivot

/-- **The frame in the shape that is wanted.** A long frame without rows has
no series, and so no columns. -/
def Frame.shape (f : Frame) (format : ResultFormat) : Except FrameError Frame :=
  match format with
  | .table => .ok f
  | .timeSeries =>
    let s := Schema.infer f
    match s.kind with
    | .long =>
      if f.rowCount = 0 then .ok f.emptied
      else (Pivot.toWide f s).mapError .reshape
    | _ => .ok f

end WindowQuery
