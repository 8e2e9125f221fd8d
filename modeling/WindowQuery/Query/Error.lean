import WindowQuery.Directive.Error
import WindowQuery.Frame.Error
import WindowQuery.Query.Model

/-!
# Errors of queries

What can end a query. An error belongs to its query alone; the other
queries of a request run all the same.
-/

namespace WindowQuery

/-- **Why a query has no result.** -/
inductive QueryError where
  /-- Its directives cannot be expanded. -/
  | directive (error : DirectiveError)
  /-- The rows make no frame. -/
  | frame (error : FrameError)
  /-- Its model cannot be read. -/
  | model (error : ModelError)
  /-- The database refused it, for a reason in words of its own. -/
  | execution (text : String)
  /-- The database took longer than the given seconds. -/
  | timeout (seconds : Nat)
deriving DecidableEq

/-- What a database says in words only is why it refused the query. -/
instance : Coe String QueryError := ⟨.execution⟩

namespace QueryError

/-- A number of seconds in words. -/
def secondsText (n : Nat) : String := if n = 0 then "0ns" else Numeral.natText n ++ "s"

/-- The message for an error. -/
def message : QueryError → String
  | directive error => "Macro error: " ++ error.message
  | frame error => "Frame error: " ++ error.message
  | model error => "Invalid query model: " ++ error.message
  | execution text => "Execution error: " ++ text
  | timeout seconds => "Query timed out after " ++ secondsText seconds

end QueryError

end WindowQuery
