import WindowQuery.Instant.Text
import WindowQuery.Text.Utf8

/-!
# Cells and column types

A database hands out its rows as cells, each with a type of its own. A
column of a result has one type for all its entries, and `Entry` says
what an entry of each type is.
-/

namespace WindowQuery

/-- The type of a column. -/
inductive ColumnType where
  | time | integer | float | string | boolean
deriving DecidableEq

namespace ColumnType

/-- **What a column of a type holds.** -/
@[reducible] def Entry : ColumnType → Type
  | time => Instant
  | integer => Int64
  | float => Binary64
  | string => String
  | boolean => Bool

instance : (t : ColumnType) → DecidableEq t.Entry
  | time => inferInstanceAs (DecidableEq Instant)
  | integer => inferInstanceAs (DecidableEq Int64)
  | float => inferInstanceAs (DecidableEq Binary64)
  | string => inferInstanceAs (DecidableEq String)
  | boolean => inferInstanceAs (DecidableEq Bool)

/-- The name of a type in messages. -/
def name : ColumnType → String
  | time => "TIME"
  | integer => "INTEGER"
  | float => "FLOAT"
  | string => "STRING"
  | boolean => "BOOLEAN"

/-- The name of a type in documents. -/
def tag : ColumnType → String
  | time => "time"
  | integer => "integer"
  | float => "float"
  | string => "string"
  | boolean => "boolean"

/-- All types. -/
def all : List ColumnType := [time, integer, float, string, boolean]

/-- The text of an entry. -/
def display : (t : ColumnType) → t.Entry → String
  | time, x => Instant.text x
  | integer, x => Numeral.intText (Int64.toInt x)
  | float, x => Binary64.text x
  | string, x => x
  | boolean, x => if x = true then "true" else "false"

end ColumnType

/-- What is known of the type of a column before its values are seen. -/
inductive SemanticType where
  /-- The type is given. -/
  | known (t : ColumnType)
  /-- The first value will decide. -/
  | unknown
deriving DecidableEq

namespace SemanticType

/-- The name in messages. -/
def name : SemanticType → String
  | known t => t.name
  | unknown => "UNKNOWN"

/-- The name in documents. -/
def tag : SemanticType → String
  | known t => t.tag
  | unknown => "unknown"

end SemanticType

/-- Bytes are equal as arrays are. -/
instance decidableEqBytes : DecidableEq ByteArray := ByteArray.instDecidableEq

/-- **One cell of a row.** -/
inductive Cell where
  /-- No value. -/
  | null
  /-- A whole number. -/
  | int (n : Int64)
  /-- A floating-point number. -/
  | float (x : Binary64)
  /-- A text. -/
  | text (s : String)
  /-- Bytes. -/
  | bytes (b : ByteArray)
  /-- A truth value. -/
  | bool (b : Bool)
  /-- An instant. -/
  | time (t : Instant)
deriving DecidableEq

namespace Cell

/-- Whether there is no value. -/
def isNull : Cell → Bool
  | null => true
  | _ => false

/-- **The type of a column that a cell decides** as its first value. -/
def naturalType : Cell → SemanticType
  | null => .unknown
  | int _ => .known .integer
  | float _ => .known .float
  | text _ => .known .string
  | bytes _ => .known .string
  | bool _ => .known .boolean
  | time _ => .known .time

end Cell

/-- The header of a column, as the database reports it. -/
structure Header where
  /-- The name of the column. -/
  name : String
  /-- The name of its storage type. -/
  typeName : String
deriving DecidableEq

end WindowQuery
