import WindowQuery.Settings.Document
import WindowQuery.Toml.Reader

/-!
# Layers of settings

A setting has the value that the environment gives it, or else that of
one settings file, or else its default. Without a file of the user's own
choice the first of several places counts that has a file which can be
read; the places after it are not looked at.
-/

namespace WindowQuery

/-- The variables of an environment. -/
abbrev Environment := Keyed String

namespace Settings

/-- Why a settings file gives no settings. -/
inductive LoadError where
  /-- It cannot be read. -/
  | unreadable
  /-- It holds something else. -/
  | malformed
deriving DecidableEq

/-- **The settings of a file** by its text. -/
def ofText? (text : String) : Option Settings := (Toml.read? text.toList).bind (ofJson? true)

/-! ## The environment -/

/-- **The settings that the environment can choose.** -/
inductive Variable where
  /-- The name of every result. -/
  | frameName
  /-- How many seconds the database may take. -/
  | timeoutSeconds
  /-- The format of queries that declare none. -/
  | defaultFormat
  /-- The file of the database. -/
  | database
  /-- The least level that is logged. -/
  | logLevel
  /-- The form of the log. -/
  | logFormat
deriving DecidableEq

namespace Variable

/-- All of them. -/
def all : List Variable :=
  [frameName, timeoutSeconds, defaultFormat, database, logLevel, logFormat]

/-- The name of a variable. -/
def name : Variable → String
  | frameName => "SQLFRAME_FRAME_NAME"
  | timeoutSeconds => "SQLFRAME_QUERY_TIMEOUT_SECS"
  | defaultFormat => "SQLFRAME_DEFAULT_FORMAT"
  | database => "SQLFRAME_SQLITE_PATH"
  | logLevel => "SQLFRAME_LOG_LEVEL"
  | logFormat => "SQLFRAME_LOG_FORMAT"

/-- The value of a variable, if it is set. -/
def value? (env : Environment) (v : Variable) : Option String := env.get? v.name

end Variable

/-- The time limit that the environment chooses, if it is a number. -/
def timeoutOf? (env : Environment) : Option Nat :=
  (Variable.timeoutSeconds.value? env).bind (fun text => Numeral.nat64? text.toList)

/-- **The settings with what the environment overrides.** A time limit that is
no number overrides nothing. The log file is not for the environment to
choose. -/
def withEnvironment (env : Environment) (s : Settings) : Settings where
  query :=
    ⟨(Variable.frameName.value? env).getD s.query.frameName,
      (timeoutOf? env).getD s.query.timeoutSeconds,
      (Variable.defaultFormat.value? env).getD s.query.defaultFormat⟩
  database := (Variable.database.value? env).or s.database
  log :=
    ⟨(Variable.logLevel.value? env).getD s.log.level,
      (Variable.logFormat.value? env).getD s.log.format, s.log.file⟩

/-! ## Files -/

/-- The settings of a file, if there is one and it holds settings. -/
def load (file : Option String) : Except LoadError Settings :=
  match file with
  | none => .error .unreadable
  | some text => (ofText? text).elim (.error .malformed) .ok

/-- The settings of a file and the environment. -/
def loadWith (env : Environment) (file : Option String) : Except LoadError Settings :=
  (load file).map (withEnvironment env)

/-- **The settings of the first place with a file that holds some**, and the
environment. -/
def loadFirst (env : Environment) (files : List (Option String)) : Settings :=
  withEnvironment env ((files.findSome? (fun file => (load file).toOption)).getD standard)

/-! ## Places -/

/-- The variable of the directory that settings of all programs are kept in. -/
def directoryVariable : String := "XDG_CONFIG_HOME"

/-- The variable of the user's directory. -/
def homeVariable : String := "HOME"

/-- The names of all variables that are looked at. -/
def variableNames : List String :=
  Variable.all.map Variable.name ++ [directoryVariable, homeVariable]

/-- The path of a file in a directory. -/
def within (directory name : String) : String := directory ++ "/" ++ name

/-- The directory of the user's own settings. -/
def userDirectory? (env : Environment) : Option String :=
  ((env.get? directoryVariable).filter (fun path => path.toList.head? = some '/')).or
    (((env.get? homeVariable).filter (· ≠ "")).map (within · ".config"))

/-- **Where settings are looked for**, in order. -/
def places (env : Environment) : List String :=
  (userDirectory? env).toList.map (within · "sqlframe/config.toml")
    ++ ["/etc/sqlframe/config.toml", "./config.toml"]

end Settings

end WindowQuery
