import WindowQuery.Text.Blank

/-!
# Result formats

A query declares whether its result is wanted as a table, rows as they
come, or as time series. What is declared is free text; what is not
recognized counts as time series.
-/

namespace WindowQuery

/-- **The shape in which a result is wanted.** -/
inductive ResultFormat where
  /-- Rows as they come. -/
  | table
  /-- One column for each series and value. -/
  | timeSeries
deriving DecidableEq

namespace ResultFormat

/-- The name of a format. -/
def display : ResultFormat → String
  | table => "table"
  | timeSeries => "time series"

/-- The format of a name; that of time series is spelled in two ways. -/
def ofName? (name : String) : Option ResultFormat :=
  if name = "table" then some table
  else if name = "time series" ∨ name = "time_series" then some timeSeries
  else none

/-- The format of a text; blanks around it are skipped. -/
def read? (text : String) : Option ResultFormat := ofName? (Text.trimmed text)

/-- **The format that a text declares.** -/
def ofDeclared (text : String) : ResultFormat := (read? text).getD timeSeries

end ResultFormat

end WindowQuery
