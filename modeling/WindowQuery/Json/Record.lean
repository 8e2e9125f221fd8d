import WindowQuery.Json.Basic

/-!
# Reading records from documents

A record is written in one of two ways: as an object, whose entries give
the fields by name, in any order, or as a list, which gives them by
position. An object may have entries of other names, which are skipped; a
name of the record stands in it at most once. A list gives some of the
first fields, and may go on after the last only if that is allowed.

A field that is not given has the default of its record, if it has one. A
field that may be `null` may also be left out of an object, but not of a
list.
-/

namespace WindowQuery

namespace Json

/-! ## Values -/

/-- The text of a document that is one. -/
def string? : Json → Option String
  | string s => some s
  | _ => none

/-- The truth value of a document that is one. -/
def bool? : Json → Option Bool
  | bool b => some b
  | _ => none

/-- The signed 64-bit word of a document that is one. -/
def word? : Json → Option Int64
  | integer n => Numeral.word? n
  | _ => none

/-- The unsigned 64-bit number of a document that is one. -/
def natural? : Json → Option Nat
  | integer n => if 0 ≤ n ∧ n < UInt64.size then some n.toNat else none
  | _ => none

/-- The floating-point number of a document; whole numbers have one. -/
def number? : Json → Option Binary64
  | integer n => some (.ofInt n)
  | real x => some x
  | _ => none

/-- The items of a list, each read. -/
def items? {α : Type} (read : Json → Option α) : Json → Option (List α)
  | array items => items.mapM read
  | _ => none

/-- A value that may be `null`. -/
def nullable? {α : Type} (read : Json → Option α) : Json → Option (Option α)
  | null => some none
  | j => (read j).map some

/-- The entries of an object, each read; the last of a key counts. -/
def keyed? {α : Type} (read : Json → Option α) : Json → Option (Keyed α)
  | object entries =>
    (entries.mapM (fun e : String × Json => (read e.2).map (e.1, ·))).map Keyed.ofList
  | _ => none

/-- The name of a choice: a text, or an object with the name as its only key
and nothing under it. -/
def choice? : Json → Option String
  | string s => some s
  | object [(name, null)] => some name
  | _ => none

/-- The deepest nesting that free-form parts of a document may have. -/
def deepest : Nat := 127

/-- **A free-form part** with so many arrays and objects around it. -/
def freeForm? (level : Nat) (j : Json) : Option Json :=
  if level + j.depth ≤ deepest then j.canonical? else none

/-! ## Records -/

/-- **The fields of a record** that a document gives. -/
structure Record where
  /-- The fields with their names, each once. -/
  fields : List (String × Json)
  /-- Whether they are given by name. -/
  byName : Bool

/-- Reads a record with the given fields; `lenient` allows a list to go on after
the last of them. -/
def record? (names : List String) (lenient : Bool) : Json → Option Record
  | object entries =>
    let known := entries.filter (fun e => names.contains e.1)
    if (known.map Prod.fst).Nodup then some ⟨known, true⟩ else none
  | array items =>
    if lenient ∨ items.length ≤ names.length then some ⟨names.zip items, false⟩ else none
  | _ => none

namespace Record

variable {α : Type}

/-- A field, if it is given. -/
def find? (r : Record) (name : String) : Option Json := r.fields.lookup name

/-- A field that has to be given. -/
def required? (r : Record) (name : String) (read : Json → Option α) : Option α :=
  (r.find? name).bind read

/-- A field with a default. -/
def withDefault? (r : Record) (name : String) (read : Json → Option α) (default : α) :
    Option α :=
  (r.find? name).elim (some default) read

/-- A field that may be `null`. -/
def optional? (r : Record) (name : String) (read : Json → Option α) : Option (Option α) :=
  (r.find? name).elim (if r.byName then some none else none) (nullable? read)

end Record

end Json

end WindowQuery
