import WindowQuery.Binary64.Text
import WindowQuery.Keyed

/-!
# JSON documents

A document is a tree of values. An object keeps its entries in the order
in which they are written, a key that stands twice included, because what
a repeated key means is for the reader of the object to say.

Some parts of a document can be skipped but not read: a text with half of
a surrogate pair, a number beyond the range of binary floating point. They
are `unreadable`, and so is an object with such a text for a key.
-/

namespace WindowQuery

/-- **A JSON document.** -/
inductive Json where
  /-- `null`. -/
  | null
  /-- `true` or `false`. -/
  | bool (b : Bool)
  /-- A whole number of 64 bits, signed or unsigned. -/
  | integer (n : Int)
  /-- A number of any other form. -/
  | real (x : Binary64)
  /-- A text. -/
  | string (s : String)
  /-- A list of values. -/
  | array (items : List Json)
  /-- Keys with values, as written. -/
  | object (entries : List (String × Json))
  /-- What can only be skipped. -/
  | unreadable

namespace Json

instance : Inhabited Json := ⟨null⟩

/-- A text or `null`. -/
def ofString? (s : Option String) : Json := s.elim null string

/-! ## Nesting -/

mutual

/-- How many arrays and objects stand around the innermost value. -/
def depth : Json → Nat
  | array items => 1 + depthOfItems items
  | object entries => 1 + depthOfEntries entries
  | _ => 0

/-- The depth of the deepest item. -/
def depthOfItems : List Json → Nat
  | [] => 0
  | item :: rest => max (depth item) (depthOfItems rest)

/-- The depth of the deepest entry. -/
def depthOfEntries : List (String × Json) → Nat
  | [] => 0
  | (_, value) :: rest => max (depth value) (depthOfEntries rest)

end

/-! ## Free-form documents -/

mutual

/-- **The document with the keys of each object in order**, each once with
its last value; nothing if a part of it cannot be read. -/
def canonical? : Json → Option Json
  | array items => (canonicalItems? items).map array
  | object entries =>
    (canonicalEntries? entries).map (fun es => object (Keyed.ofList es).entries)
  | unreadable => none
  | other => some other

/-- The items one by one. -/
def canonicalItems? : List Json → Option (List Json)
  | [] => some []
  | item :: rest => do return (← canonical? item) :: (← canonicalItems? rest)

/-- The entries one by one. -/
def canonicalEntries? : List (String × Json) → Option (List (String × Json))
  | [] => some []
  | (key, value) :: rest => do return (key, ← canonical? value) :: (← canonicalEntries? rest)

end

end Json

end WindowQuery
