import WindowQuery.Frame.Basic
import WindowQuery.Text.Utf8

/-!
# Tables of text

A frame is shown as a table: a line of headers, a line of dashes and a
line for each row. A column is as wide as the longest of its texts has
bytes, and a text is filled up with blanks by its characters. No text has
more characters than bytes, so every text fits into its column and all
lines are equally long.
-/

namespace WindowQuery

/-- **A table of texts.** -/
structure TextTable where
  /-- The headers of the columns. -/
  headers : List String
  /-- The rows, each with one text per column. -/
  rows : List (List String)
deriving DecidableEq

namespace TextTable

/-- How much room a text is given. -/
def room (text : String) : Nat := Text.byteLength text.toList

/-- The widths of the columns: the greatest room that a text of theirs needs. -/
def widths (t : TextTable) : List Nat :=
  t.rows.foldl (fun widths row => List.zipWith max widths (row.map room)) (t.headers.map room)

/-- A text with blanks after it, up to a width. -/
def padded (width : Nat) (text : String) : List Char :=
  text.toList ++ List.replicate (width - text.toList.length) ' '

/-- What stands between two columns. -/
def gap : List Char := [' ', ' ']

/-- **The line of a row.** -/
def line (widths : List Nat) (texts : List String) : List Char :=
  gap.intercalate (List.zipWith padded widths texts)

/-- The line of dashes. -/
def dashes (widths : List Nat) : List Char :=
  List.replicate (widths.foldl (· + ·) 0 + gap.length * (widths.length - 1)) '-'

/-- **The lines of a table.** -/
def lines (t : TextTable) : List (List Char) :=
  line t.widths t.headers :: dashes t.widths :: t.rows.map (line t.widths)

end TextTable

/-- The header of a column: its name, and its labels in braces if it has any. -/
def Column.header (c : Column) : String :=
  if c.labels.isEmpty then c.name
  else
    c.name ++ "\x7b" ++ ",".intercalate (c.labels.entries.map (fun l => l.1 ++ "=" ++ l.2))
      ++ "\x7d"

namespace Frame

/-- The texts of a row, one from each column. -/
def rowTexts (f : Frame) (row : Nat) : List String :=
  f.columns.map (fun c => c.values.displayAt row)

/-- **The table of a frame.** -/
def textTable (f : Frame) : TextTable :=
  ⟨f.columns.map Column.header, (List.range f.rowCount).map f.rowTexts⟩

/-- **A frame as text**, with the number of its rows below. -/
def shown (f : Frame) : String :=
  if f.columns.isEmpty then f.name ++ ": no data\n"
  else
    String.join (f.textTable.lines.map (fun l => String.ofList l ++ "\n")) ++ "\n"
      ++ Numeral.natText f.rowCount ++ " rows\n"

end Frame

end WindowQuery
