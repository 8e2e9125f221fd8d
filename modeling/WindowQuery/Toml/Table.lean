import WindowQuery.Json.Basic

/-!
# Tables of TOML

A table is written in pieces: under headers, by keys with dots, within
braces. What may still be added to a table depends on how it came about.
A table that has been written, by a header of its own or within braces,
may not be written again, and dotted keys may not reach into it. A table
that only dotted keys have named may be extended by dotted keys alone. A
table that a header has only passed through may be written by a header of
its own, once.
-/

namespace WindowQuery.Toml

/-- How a table came about. -/
inductive Origin where
  /-- By a header of its own. -/
  | written
  /-- By a header of a table below it. -/
  | passed
  /-- By a dotted key. -/
  | dotted
deriving DecidableEq

/-- **What a key stands for**, while its document is being read. -/
inductive Node where
  /-- A value, which is finished. -/
  | value (v : Json)
  /-- A table. -/
  | table (origin : Origin) (entries : List (String × Node))
  /-- Tables under one header, of which the last may still be added to. -/
  | tables (finished : List (List (String × Node))) (last : List (String × Node))

/-- The keys of a table with what they stand for. -/
abbrev Entries := List (String × Node)

/-! ## Documents of tables -/

mutual

/-- The document of a node. -/
def Node.toJson : Node → Json
  | .value v => v
  | .table _ entries => .object (entriesToJson entries)
  | .tables finished last => .array (tablesToJson finished ++ [.object (entriesToJson last)])

/-- The documents of entries. -/
def entriesToJson : List (String × Node) → List (String × Json)
  | [] => []
  | (key, node) :: rest => (key, node.toJson) :: entriesToJson rest

/-- The documents of tables. -/
def tablesToJson : List (List (String × Node)) → List Json
  | [] => []
  | entries :: rest => .object (entriesToJson entries) :: tablesToJson rest

end

namespace Entries

/-- Puts a node in the place of the one that a key stands for. -/
def replace (key : String) (node : Node) (t : Entries) : Entries :=
  t.map (fun e => if e.1 = key then (key, node) else e)

/-- **Changes the table under a path.** Tables that are not there come about as
`fresh` says; a dotted path does not lead through tables that are written.
The change is told how the table came about. -/
def within? (fresh : Origin) (change : Origin → Entries → Option Entries) :
    List String → Origin → Entries → Option Entries
  | [], origin, t => change origin t
  | key :: path, _, t =>
    match t.lookup key with
    | none =>
      (within? fresh change path fresh []).map (fun sub => t ++ [(key, .table fresh sub)])
    | some (.value _) => none
    | some (.table origin sub) =>
      if fresh = .dotted ∧ origin = .written then none
      else (within? fresh change path origin sub).map (fun sub' =>
        replace key (.table origin sub') t)
    | some (.tables finished last) =>
      (within? fresh change path .written last).map (fun last' =>
        replace key (.tables finished last') t)

/-- Adds a key to a table. -/
def add? (key : String) (node : Node) (t : Entries) : Option Entries :=
  if (t.lookup key).isSome then none else some (t ++ [(key, node)])

/-- **Adds a value under a key with dots.** The table that the dots lead to has
come about by dots. -/
def assign? (path : List String) (key : String) (v : Json) (t : Entries) : Option Entries :=
  within? .dotted (fun origin sub =>
    if path ≠ [] ∧ origin ≠ .dotted then none else sub.add? key (.value v)) path .written t

/-- **Begins a table** with a header of its own. -/
def begin? (path : List String) (key : String) (t : Entries) : Option Entries :=
  within? .passed (fun _ sub =>
    match sub.lookup key with
    | none => some (sub ++ [(key, .table .written [])])
    | some (.table .passed entries) => some (replace key (.table .written entries) sub)
    | some _ => none) path .written t

/-- **Begins a further table** under a header that several share. -/
def beginNext? (path : List String) (key : String) (t : Entries) : Option Entries :=
  within? .passed (fun _ sub =>
    match sub.lookup key with
    | none => some (sub ++ [(key, .tables [] [])])
    | some (.tables finished last) =>
      some (replace key (.tables (finished ++ [last]) []) sub)
    | some _ => none) path .written t

/-- Adds a value under a key with dots to the table of a header. -/
def assignUnder? (header path : List String) (key : String) (v : Json) (t : Entries) :
    Option Entries :=
  within? .passed (fun _ sub => sub.assign? path key v) header .written t

end Entries

end WindowQuery.Toml
