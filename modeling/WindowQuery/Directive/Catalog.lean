import WindowQuery.Directive.Token
import WindowQuery.FillPolicy
import WindowQuery.TimeWindow

/-!
# The catalog of directives

There are seven directives. Each is a function of its arguments and of the
time window that gives a fragment of SQL; the grouping directive may
choose a fill policy besides.
-/

namespace WindowQuery

/-- **A directive.** -/
inductive Directive where
  /-- Names a column `time`. -/
  | time
  /-- Keeps what lies in the window. -/
  | timeFilter
  /-- The start of the window. -/
  | timeFrom
  /-- The end of the window. -/
  | timeTo
  /-- A list of values in quotes. -/
  | expandMultiString
  /-- Groups times into buckets of an interval. -/
  | timeGroup
  /-- Keeps what lies in the window, for a column of epoch seconds. -/
  | unixEpochFilter
deriving DecidableEq

namespace Directive

/-- The name of a directive, as it stands after the dollar sign. -/
def name : Directive → String
  | time => "__time"
  | timeFilter => "__timeFilter"
  | timeFrom => "__timeFrom"
  | timeTo => "__timeTo"
  | expandMultiString => "__expandMultiString"
  | timeGroup => "__timeGroup"
  | unixEpochFilter => "__unixEpochFilter"

/-- All directives. -/
def all : List Directive :=
  [time, timeFilter, timeFrom, timeTo, expandMultiString, timeGroup, unixEpochFilter]

theorem mem_all (d : Directive) : d ∈ all := by cases d <;> decide

/-- The directive of a name. -/
def ofName? (name : String) : Option Directive := all.find? (fun d => d.name == name)

/-- Whether its argument list is cut at commas. -/
def takesSeveral (d : Directive) : Bool := d == timeGroup

/-- **What a directive stands for.** -/
structure Fragment where
  /-- The SQL in its place. -/
  sql : String
  /-- The fill policy that it chooses. -/
  fill : Option FillPolicy
deriving DecidableEq

/-- A fragment that chooses no fill policy. -/
def Fragment.ofSql (sql : String) : Fragment := ⟨sql, none⟩

/-! ## Evaluation -/

/-- A text in single quotes. -/
def inQuotes (s : String) : String := "'" ++ s ++ "'"

/-- The characters that are taken off the ends of a value. -/
def isValueMark (c : Char) : Bool := c == '\x7b' || c == '\x7d' || c == '\''

/-- A value without the marks at its ends, in quotes. -/
def requoted (value : String) : String :=
  inQuotes (String.ofList (Text.stripEnds isValueMark value.toList))

/-- The interval that an argument gives; quotes around it are skipped. -/
def interval? (argument : String) : Option Interval :=
  Interval.read? (Text.stripEnds (· == '\'') argument.toList)

/-- The grouping of a column into buckets. -/
def bucketSql (column seconds : String) : String :=
  "floor(extract(epoch from " ++ column ++ ")/" ++ seconds ++ ")*" ++ seconds ++ " as time"

/-- The first argument, which has a name. -/
def first (d : Directive) (argument : String) : List String → Except DirectiveError String
  | [] => .error (.missingArgument d.name argument)
  | a :: _ => .ok a

/-- The grouping directive. -/
def evaluateGroup : List String → Except DirectiveError Fragment
  | column :: width :: more =>
    match interval? width with
    | none => .error (.invalidInterval width)
    | some i => .ok ⟨bucketSql column i.inSeconds, more.head?.bind FillPolicy.ofArgument?⟩
  | _ => .error (.missingGroupArguments timeGroup.name)

/-- **Evaluates a directive** with the given arguments in a window. -/
def evaluate (d : Directive) (arguments : List String) (w : TimeWindow) :
    Except DirectiveError Fragment :=
  match d with
  | time => (d.first "time column" arguments).map (fun c => .ofSql (c ++ " AS time"))
  | timeFilter => (d.first "time column" arguments).map (fun c =>
      .ofSql (c ++ " BETWEEN " ++ inQuotes w.start.text ++ " AND " ++ inQuotes w.stop.text))
  | timeFrom =>
    if arguments.isEmpty then .ok (.ofSql (inQuotes w.start.text))
    else .error (.unexpectedArguments d.name)
  | timeTo =>
    if arguments.isEmpty then .ok (.ofSql (inQuotes w.stop.text))
    else .error (.unexpectedArguments d.name)
  | expandMultiString =>
    if arguments.isEmpty then .error (.missingArgument d.name "selector")
    else .ok (.ofSql (",".intercalate (arguments.map requoted)))
  | timeGroup => evaluateGroup arguments
  | unixEpochFilter => (d.first "time column" arguments).map (fun c =>
      .ofSql (c ++ " >= " ++ Numeral.intText w.start.seconds ++ " AND " ++ c ++ " <= "
        ++ Numeral.intText w.stop.seconds))

end Directive

end WindowQuery
