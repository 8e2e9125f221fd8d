import WindowQuery.Json.Number
import WindowQuery.Text.Hexadecimal

/-!
# Writing documents

A document is written compactly, with nothing between its parts, or
spread over lines with two blanks for each level. In a text the quote, the
backslash and the control characters are escaped, and nothing else.
-/

namespace WindowQuery

namespace Json

/-- **A character within quotes.** -/
def escape (c : Char) : List Char :=
  if c = '"' then ['\\', '"']
  else if c = '\\' then ['\\', '\\']
  else if c = '\n' then ['\\', 'n']
  else if c = '\r' then ['\\', 'r']
  else if c = '\t' then ['\\', 't']
  else if c = '\x08' then ['\\', 'b']
  else if c = '\x0c' then ['\\', 'f']
  else if c.toNat < 0x20 then
    '\\' :: 'u' :: '0' :: '0' :: Hexadecimal.chars [c.toNat.toUInt8]
  else [c]

/-- A text in quotes. -/
def quoted (s : String) : List Char := '"' :: (s.toList.flatMap escape ++ ['"'])

/-- A value that holds no others. -/
def scalarText : Json → List Char
  | bool b => if b then ['t', 'r', 'u', 'e'] else ['f', 'a', 'l', 's', 'e']
  | integer n => integerText n
  | real x => realText x
  | string s => quoted s
  | _ => ['n', 'u', 'l', 'l']

/-! ## Compactly -/

mutual

/-- **The compact text of a document.** -/
def compactChars : Json → List Char
  | array items => '[' :: (compactItems items ++ [']'])
  | object entries => '{' :: (compactEntries entries ++ ['}'])
  | other => scalarText other

/-- Items with commas between them. -/
def compactItems : List Json → List Char
  | [] => []
  | item :: rest => compactChars item ++ compactMoreItems rest

/-- Further items, each after a comma. -/
def compactMoreItems : List Json → List Char
  | [] => []
  | item :: rest => ',' :: (compactChars item ++ compactMoreItems rest)

/-- Entries with commas between them. -/
def compactEntries : List (String × Json) → List Char
  | [] => []
  | (key, value) :: rest =>
    quoted key ++ ':' :: (compactChars value ++ compactMoreEntries rest)

/-- Further entries, each after a comma. -/
def compactMoreEntries : List (String × Json) → List Char
  | [] => []
  | (key, value) :: rest =>
    ',' :: (quoted key ++ ':' :: (compactChars value ++ compactMoreEntries rest))

end

@[inherit_doc compactChars]
def compact (v : Json) : String := String.ofList v.compactChars

/-! ## Over lines -/

/-- A new line at a level. -/
def newLine (level : Nat) : List Char := '\n' :: List.replicate (2 * level) ' '

mutual

/-- **The text of a document over lines**, at a level. -/
def prettyChars (level : Nat) : Json → List Char
  | array items =>
    if items.isEmpty then ['[', ']']
    else '[' :: (prettyItems level items ++ newLine level ++ [']'])
  | object entries =>
    if entries.isEmpty then ['{', '}']
    else '{' :: (prettyEntries level entries ++ newLine level ++ ['}'])
  | other => scalarText other

/-- Items, each on a line of its own. -/
def prettyItems (level : Nat) : List Json → List Char
  | [] => []
  | item :: rest =>
    newLine (level + 1) ++ prettyChars (level + 1) item
      ++ (if rest.isEmpty then [] else [',']) ++ prettyItems level rest

/-- Entries, each on a line of its own. -/
def prettyEntries (level : Nat) : List (String × Json) → List Char
  | [] => []
  | (key, value) :: rest =>
    newLine (level + 1) ++ quoted key ++ ':' :: ' ' :: prettyChars (level + 1) value
      ++ (if rest.isEmpty then [] else [',']) ++ prettyEntries level rest

end

@[inherit_doc prettyChars]
def pretty (v : Json) : String := String.ofList (v.prettyChars 0)

end Json

end WindowQuery
