import WindowQuery.Frame.Basic

/-!
# Roles of columns

A frame is looked at as time series: its first time column gives the
times, its columns of texts are factors that tell series apart, and all
others hold values. Without times or without values it is no time series;
without factors it is wide, one column for each series already; with
factors it is long, the series one below the other.
-/

namespace WindowQuery

/-- What a frame is as time series. -/
inductive SeriesKind where
  /-- No time series. -/
  | not
  /-- One column for each series. -/
  | wide
  /-- The series one below the other. -/
  | long
deriving DecidableEq

/-- **The roles of columns**, by their places in the frame. -/
structure Schema where
  /-- The column of the times. -/
  time : Option Nat
  /-- The columns that tell series apart. -/
  factors : List Nat
  /-- The columns of values. -/
  values : List Nat
deriving DecidableEq

namespace Schema

/-- What a frame with these roles is. -/
def kind (s : Schema) : SeriesKind :=
  if s.time.isNone ∨ s.values.isEmpty then .not
  else if s.factors.isEmpty then .wide
  else .long

/-- The places of the columns that satisfy a condition. -/
def placesWhere (columns : List Column) (p : Nat → Column → Bool) : List Nat :=
  (columns.zipIdx.filter (fun (c, i) => p i c)).map Prod.snd

/-- **The roles of the columns of a frame.** -/
def infer (f : Frame) : Schema :=
  let time := f.columns.findIdx? (fun c => c.values.type == .time)
  let isFactor (c : Column) := c.values.type == .string
  ⟨time, placesWhere f.columns (fun i c => some i != time && isFactor c),
    placesWhere f.columns (fun i c => some i != time && !isFactor c)⟩

end Schema

end WindowQuery
