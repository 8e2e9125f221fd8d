/-!
# Fill policies

A fill policy says what a column holds where a value is missing: nothing,
the last value before it, or the zero of the column's type. A query
chooses one with the third argument of its grouping directive.
-/

namespace WindowQuery

/-- **What stands for a missing value.** -/
inductive FillPolicy where
  /-- Nothing. -/
  | null
  /-- The last value before it. -/
  | previous
  /-- The zero of the type. -/
  | zero
deriving DecidableEq

namespace FillPolicy

instance : Inhabited FillPolicy := ⟨null⟩

/-- The policy of an argument; only three spellings are known. -/
def ofArgument? (argument : String) : Option FillPolicy :=
  if argument = "previous" then some previous
  else if argument = "NULL" then some null
  else if argument = "0" then some zero
  else none

/-- The name of a policy in messages. -/
def display : FillPolicy → String
  | null => "null"
  | previous => "previous"
  | zero => "value(0)"

end FillPolicy

end WindowQuery
