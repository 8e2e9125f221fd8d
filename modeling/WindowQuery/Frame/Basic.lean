import WindowQuery.Frame.Cell
import WindowQuery.Keyed

/-!
# Frames

A frame is a result: a name, columns in order, and the SQL that was run.
A column has a name, labels that tell it from other columns of the same
name, and typed entries any of which may be missing.
-/

namespace WindowQuery

/-- **Typed entries, any of which may be missing.** -/
structure Values where
  /-- The type of all entries. -/
  type : ColumnType
  /-- The entries. -/
  entries : List (Option type.Entry)

namespace Values

instance : DecidableEq Values := fun ⟨t, xs⟩ ⟨u, ys⟩ =>
  if h : t = u then
    by subst h; exact decidable_of_iff (xs = ys) ⟨fun h => by rw [h], fun h => by cases h; rfl⟩
  else isFalse (fun he => h (congrArg Values.type he))

/-- The number of entries. -/
def length (v : Values) : Nat := v.entries.length

/-- Whether an entry is missing; beyond the end all are. -/
def isNullAt (v : Values) (i : Nat) : Bool := (v.entries[i]?.join).isNone

/-- The text of an entry, `null` where it is missing. -/
def displayAt (v : Values) (i : Nat) : String :=
  v.entries[i]?.join.elim "null" v.type.display

/-- So many missing entries of a type. -/
def nulls (t : ColumnType) (length : Nat) : Values := ⟨t, List.replicate length none⟩

/-- **Copies an entry of other values of the same type.** If the types differ
or either place lies beyond the end, nothing changes. -/
def setFrom (v : Values) (i : Nat) (source : Values) (j : Nat) : Values :=
  if h : source.type = v.type then
    match source.entries[j]? with
    | some entry => ⟨v.type, v.entries.set i (h ▸ entry)⟩
    | none => v
  else v

end Values

/-- **A column.** -/
structure Column where
  /-- Its name. -/
  name : String
  /-- What tells it from other columns of its name. -/
  labels : Keyed String
  /-- Its entries. -/
  values : Values
deriving DecidableEq

/-- A column without labels. -/
def Column.ofValues (name : String) (values : Values) : Column := ⟨name, .empty, values⟩

/-- **A result.** -/
structure Frame where
  /-- Its name. -/
  name : String
  /-- Its columns, in order. -/
  columns : List Column
  /-- The SQL that was run. -/
  query : Option String
deriving DecidableEq

namespace Frame

/-- The number of rows, which is the length of the first column. -/
def rowCount (f : Frame) : Nat := f.columns.head?.elim 0 (·.values.length)

/-- The first column of a name. -/
def column? (f : Frame) (name : String) : Option Column :=
  f.columns.find? (fun c => c.name == name)

/-- The frame without its columns. -/
def emptied (f : Frame) : Frame := ⟨f.name, [], f.query⟩

end Frame

end WindowQuery
