import WindowQuery.Frame.Error
import WindowQuery.Text.Blank

/-!
# Names of storage types

A database reports the type of a column by a name of its own, which may
carry a precision in parentheses, odd spacing and either case. Its base
name decides the type of the column. Two column names have rules of their
own: `time` is a time whenever the query groups by time, and `metric`,
which names series, is neither a number nor a time.
-/

namespace WindowQuery

namespace TypeName

/-- **The base name**: what stands before a parenthesis, in capitals, its
words one blank apart. -/
def base (typeName : String) : String :=
  let words := Text.words (typeName.toList.takeWhile (· != '('))
  String.ofList ([' '].intercalate words |>.map Char.toUpper)

/-- The base names of each type. -/
def family : ColumnType → List String
  | .integer => ["INT", "INTEGER", "BIGINT", "SMALLINT", "TINYINT", "MEDIUMINT", "INT2", "INT4",
      "INT8"]
  | .float => ["REAL", "NUMERIC", "DOUBLE", "DOUBLE PRECISION", "FLOAT", "FLOAT4", "FLOAT8",
      "DECIMAL", "NUMBER", "MONEY"]
  | .string => ["NULL", "TEXT", "BLOB", "VARCHAR", "LONG VARCHAR", "CHAR", "UUID", "VARBINARY",
      "LONG VARBINARY", "BINARY"]
  | .time => ["TIME", "TIMETZ", "TIMESTAMP", "TIMESTAMPTZ", "DATE", "DATETIME"]
  | .boolean => ["BOOL", "BOOLEAN"]

/-- **The type of a base name.** -/
def typeOfBase (base : String) : SemanticType :=
  (ColumnType.all.find? (fun t => (family t).contains base)).elim .unknown .known

/-- The name of columns that are times in grouped queries. -/
def timeName : String := "time"

/-- The name of columns that name series. -/
def metricName : String := "metric"

/-- The type names that a column which names series may not have, in small
letters. -/
def barredNames : List String :=
  ["date", "timestamp", "timestamptz", "time", "timetz", "bigint", "int", "smallint", "mediumint",
    "tinyint", "double", "decimal", "float"]

/-- Whether a column that names series may not have a type. -/
def isBarred (t : ColumnType) : Bool := t == .time || t == .integer || t == .float

/-- **Whether a column that names series may not have a base name**: the name is
listed, or it stands for a type that such a column may not have. -/
def isBarredBase (base : String) : Bool :=
  barredNames.contains (String.ofList (base.toList.map Char.toLower)) ||
    match typeOfBase base with
    | .known t => isBarred t
    | .unknown => false

/-- **The type of a column by its header.** -/
def resolve (h : Header) (timeGrouped : Bool) : Except FrameError SemanticType :=
  if h.name = timeName ∧ timeGrouped = true then .ok (.known .time)
  else if h.name = metricName ∧ isBarredBase (base h.typeName) = true then
    .error (.typeConflict metricName (.declared h.typeName (typeOfBase (base h.typeName))))
  else .ok (typeOfBase (base h.typeName))

/-- Whether a column may take the type of its first value. -/
def checkFirstValue (name : String) (t : ColumnType) : Except FrameError Unit :=
  if name = metricName ∧ isBarred t = true then
    .error (.typeConflict metricName (.firstValue t))
  else .ok ()

end TypeName

end WindowQuery
