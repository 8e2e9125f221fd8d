import WindowQuery.ResultFormat

/-!
# Settings

What can be set: how queries are run, where the database is, and how much
is logged. Each setting has a default.
-/

namespace WindowQuery

/-- **How queries are run.** -/
structure QuerySettings where
  /-- The name of every result. -/
  frameName : String
  /-- How many seconds the database may take for an answer. -/
  timeoutSeconds : Nat
  /-- The format of queries that declare none. -/
  defaultFormat : String
deriving DecidableEq

namespace QuerySettings

/-- The defaults. -/
def standard : QuerySettings := ⟨"response", 30, "time series"⟩

/-- The format of queries that declare none. -/
def format (s : QuerySettings) : ResultFormat := .ofDeclared s.defaultFormat

end QuerySettings

/-- **How much is logged.** -/
structure LogSettings where
  /-- The least level that is logged. -/
  level : String
  /-- The form of the entries. -/
  format : String
  /-- The file that they go to. -/
  file : Option String
deriving DecidableEq

/-- The defaults. -/
def LogSettings.standard : LogSettings := ⟨"info", "pretty", none⟩

/-- **All settings.** -/
structure Settings where
  /-- How queries are run. -/
  query : QuerySettings
  /-- The file of the database; without one it is kept in memory. -/
  database : Option String
  /-- How much is logged. -/
  log : LogSettings
deriving DecidableEq

/-- The defaults. -/
def Settings.standard : Settings := ⟨.standard, none, .standard⟩

end WindowQuery
