import WindowQuery.Frame.Materialize
import WindowQuery.Query.Error

/-!
# Databases

A database is known by what it answers. It is given one text of SQL after
another and may change its state between them, so a `Backend` is a
function of the text and the state. What it answers may come late.
-/

namespace WindowQuery

/-- **A result as the database gives it.** -/
structure ResultSet where
  /-- The headers of the columns. -/
  headers : List Header
  /-- The rows. The first that cannot be read ends them. -/
  rows : List Scan

/-- **An answer of a database.** -/
structure Delivery where
  /-- The result, or an error, which is that of the query. -/
  answer : Except QueryError ResultSet
  /-- After how many milliseconds it comes; without a number, at once. -/
  delay : Option Nat

/-- An answer that comes at once. -/
def Delivery.immediate (answer : Except QueryError ResultSet) : Delivery := ⟨answer, none⟩

/-- Whether an answer comes too late for a deadline. An answer at once is in
time for every deadline. -/
def Delivery.isLate (d : Delivery) (deadlineSeconds : Nat) : Bool :=
  d.delay.any (fun ms => deadlineSeconds * 1000 < ms)

/-- **A database**: what it answers to a text in a state, and the state after
that. -/
abbrev Backend (σ : Type) := String → σ → Delivery × σ

/-! ## Databases with a script -/

/-- The state of a database that gives prepared answers one after another. -/
structure Script where
  /-- The answers to come. -/
  pending : List Delivery
  /-- The texts that it was given. -/
  seen : List String

namespace Script

/-- A script at its start. -/
def ofList (answers : List Delivery) : Script := ⟨answers, []⟩

/-- **A database that gives prepared answers**; after the last one it fails. -/
def backend : Backend Script := fun sql s =>
  match s.pending with
  | [] => (.immediate (.error (.execution "no result")), ⟨[], s.seen ++ [sql]⟩)
  | d :: rest => (d, ⟨rest, s.seen ++ [sql]⟩)

end Script

end WindowQuery
