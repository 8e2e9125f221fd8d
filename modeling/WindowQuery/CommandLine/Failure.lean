import WindowQuery.Files
import WindowQuery.Query.Error
import WindowQuery.Store.Database
import WindowQuery.Text.Quoted

/-!
# Failures of commands

A failed command reports an error and below it what caused that, what
caused the cause, and so on. Several causes are numbered.
-/

namespace WindowQuery

/-- **An error and the chain of its causes.** -/
structure Failure where
  /-- The error. -/
  message : String
  /-- Its causes, each that of the one before. -/
  causes : List String
deriving DecidableEq

namespace Failure

/-- The beginning of a cause. -/
def label (index : Option Nat) : String :=
  index.elim "    " (fun i => String.ofList (List.replicate (5 - (Numeral.digits i).length) ' ')
    ++ Numeral.natText i ++ ": ")

/-- A cause with its further lines below its first. -/
def causeText (index : Option Nat) (cause : String) : String :=
  let indent := if index.isSome then "       " else "    "
  "\n" ++ label index ++ ("\n" ++ indent).intercalate (cause.splitOn "\n")

/-- The causes; one alone is not numbered. -/
def causesText : List String → String
  | [] => ""
  | [cause] => "\n\nCaused by:" ++ causeText none cause
  | causes => "\n\nCaused by:"
    ++ String.join (causes.zipIdx.map (fun (cause, i) => causeText (some i) cause))

/-- **The report of a failure.** -/
def report (f : Failure) : String :=
  "Error: " ++ f.message ++ causesText f.causes ++ "\n"

/-- An error that nothing caused. -/
def plain (message : String) : Failure := ⟨message, []⟩

/-- The failure of a query. -/
def ofQuery (e : QueryError) : Failure :=
  ⟨e.message, match e with
    | .directive error => [error.message]
    | .frame (.rowScan row text) =>
      [FrameError.message (.rowScan row text), FrameError.scanMessage text]
    | .frame error => [error.message]
    | .model error => [error.message]
    | .execution _ | .timeout _ => []⟩

/-- The failure of a database. -/
def ofStore (e : StoreError) : Failure := ofQuery (.execution e.message)

end Failure

end WindowQuery
