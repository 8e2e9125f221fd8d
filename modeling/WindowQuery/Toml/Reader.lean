import WindowQuery.Toml.Scalar
import WindowQuery.Toml.Table

/-!
# Reading TOML

A document is a sequence of statements, one a line: a key with a value, a
header, or nothing. Values may hold values, so reading one keeps the lists
and tables that are open on a stack. The result is a `Json` object.
-/

namespace WindowQuery.Toml

open Text (Reader)
open Text.Reader

/-- The number of lists and tables within one another, and of parts of a key,
that is too many. -/
def tooDeep : Nat := 80

/-! ## Keys -/

/-- Whether a character may stand in a key without quotes. -/
def isBare (c : Char) : Bool := c.isAlphanum || c == '_' || c == '-'

/-- Takes one part of a key. -/
def keyPart : Reader String := do
  gap
  let part ← quotedText <|> literalText <|> (do return String.ofList (← takeSome isBare))
  gap
  return part

/-- **Takes a key**: its parts but the last, and the last. -/
def key : Reader (List String × String) := do
  let first ← keyPart
  let more ← many (do char '.'; keyPart)
  let parts := first :: more
  if tooDeep ≤ parts.length then failure
  return (parts.dropLast, parts.getLast (List.cons_ne_nil first more))

/-! ## Values -/

/-- A list or table that is open. -/
inductive Open where
  /-- A list with the items so far. -/
  | array (items : List Json)
  /-- A table with the entries so far, and the key that waits for its value. -/
  | table (entries : Entries) (path : List String) (key : String)

/-- **How far the reading of a value has come**: what is open, and the value
that was read last, where it has not found its place yet. -/
structure Progress where
  /-- What is open, innermost first. -/
  opened : List Open
  /-- The value that was read last. -/
  last : Option Json

/-- Takes a key and the sign after it. -/
def keyWithSign : Reader (List String × String) := do
  let k ← key
  char '='
  gap
  return k

/-- Opens a list or table; nothing is opened if it is empty. -/
def opening (opened : List Open) : Reader Progress := do
  if tooDeep ≤ opened.length + 1 then failure
  (do
      char '['
      spread
      (do char ']'; return ⟨opened, some (.array [])⟩)
        <|> pure ⟨.array [] :: opened, none⟩)
    <|> do
      char '\x7b'
      gap
      (do char '\x7d'; return ⟨opened, some (.object [])⟩) <|> do
        let (path, k) ← keyWithSign
        return ⟨.table [] path k :: opened, none⟩

/-- Goes on after an item of a list. -/
def afterItem (items : List Json) (opened : List Open) : Reader Progress := do
  spread
  let closed : Reader Progress := do
    char ']'
    return ⟨opened, some (.array items)⟩
  closed <|> do
    char ','
    spread
    closed <|> pure ⟨.array items :: opened, none⟩

/-- Goes on after an entry of a table. -/
def afterEntry (entries : Entries) (opened : List Open) : Reader Progress := do
  gap
  (do char '\x7d'; return ⟨opened, some (.object (entriesToJson entries))⟩) <|> do
    char ','
    gap
    let (path, k) ← keyWithSign
    return ⟨.table entries path k :: opened, none⟩

/-- **One step in the reading of a value.** -/
def valueStep (p : Progress) : Reader Progress :=
  match p.last, p.opened with
  | none, opened => opening opened <|> (do return ⟨opened, some (← scalar)⟩)
  | some _, [] => failure
  | some v, .array items :: opened => afterItem (items ++ [v]) opened
  | some v, .table entries path k :: opened =>
    match entries.assign? path k v with
    | some entries' => afterEntry entries' opened
    | none => failure

/-- **Takes a value.** -/
def value : Reader Json := do
  match ← iterate valueStep ⟨[], none⟩ with
  | ⟨[], some v⟩ => return v
  | _ => failure

/-! ## Statements -/

/-- **A document so far.** -/
structure Document where
  /-- The table of the document. -/
  root : Entries
  /-- The header under which statements stand. -/
  header : List String

/-- Takes what a reader may give. -/
def given {α : Type} (a : Option α) : Reader α := a.elim failure pure

/-- Takes a header. -/
def headerLine (d : Document) : Reader Document := do
  let several := (← optional (string "[[")).isSome
  if ¬ several then char '['
  let (path, k) ← key
  string (if several then "]]" else "]")
  lineEnd
  let root ← given (if several then d.root.beginNext? path k else d.root.begin? path k)
  return ⟨root, path ++ [k]⟩

/-- Takes a key with its value. -/
def entryLine (d : Document) : Reader Document := do
  let (path, k) ← keyWithSign
  let v ← value
  lineEnd
  return ⟨← given (d.root.assignUnder? d.header path k v), d.header⟩

/-- Takes a line without a statement. -/
def emptyLine (d : Document) : Reader Document := do
  lineEnd
  return d

/-- Takes a line. -/
def line (d : Document) : Reader Document := do
  gap
  emptyLine d <|> headerLine d <|> entryLine d

/-- Takes a document; a mark of the byte order in front of it is skipped. -/
def document : Reader Json := do
  let _ ← optional (char '\uFEFF')
  let d ← iterate line ⟨[], []⟩
  return .object (entriesToJson d.root)

/-- **Reads a document.** -/
def read? (cs : List Char) : Option Json := document.run? cs

end WindowQuery.Toml
