import WindowQuery.Text.Visible

/-!
# Texts in quotes

Messages show a text between double quotes, so that its ends and every
character in it can be told: the quote and the backslash are escaped, line
breaks and tabs have names, and a character that is not visible is given
by its number. Names of files have their single quotes escaped as well.
-/

namespace WindowQuery.Text

/-- The number of a character in hexadecimal, within braces. -/
def numbered (c : Char) : List Char :=
  '\\' :: 'u' :: '\x7b' :: (Nat.toDigits 16 c.toNat ++ ['\x7d'])

/-- **A character within quotes**; the characters of a class are escaped
besides. -/
def escaped (also : Char → Bool) (c : Char) : List Char :=
  if c = '\x00' then ['\\', '0']
  else if c = '\t' then ['\\', 't']
  else if c = '\r' then ['\\', 'r']
  else if c = '\n' then ['\\', 'n']
  else if c = '"' ∨ c = '\\' ∨ also c then ['\\', c]
  else if isVisible c then [c]
  else numbered c

/-- A text in quotes. -/
def quoted (s : String) : String :=
  String.ofList ('"' :: (s.toList.flatMap (escaped (fun _ => false)) ++ ['"']))

/-- The name of a file in quotes. -/
def quotedPath (path : String) : String :=
  String.ofList ('"' :: (path.toList.flatMap (escaped (· == '\'')) ++ ['"']))

end WindowQuery.Text
