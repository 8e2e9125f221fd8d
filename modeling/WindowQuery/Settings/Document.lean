import WindowQuery.Json.Record
import WindowQuery.Settings.Basic

/-!
# Documents of settings

Settings are read from JSON and from TOML, and every one of them may be
left out. The two differ in one rule: a list that stands for a group of
settings may in TOML go on after the last of them.
-/

namespace WindowQuery

namespace QuerySettings

/-- The document of how queries are run. -/
def toJson (s : QuerySettings) : Json :=
  .object [("frame_name", .string s.frameName), ("timeout_secs", .integer s.timeoutSeconds),
    ("default_format", .string s.defaultFormat)]

/-- Reads how queries are run. -/
def ofJson? (lenient : Bool) (j : Json) : Option QuerySettings := do
  let r ← j.record? ["frame_name", "timeout_secs", "default_format"] lenient
  return ⟨← r.withDefault? "frame_name" Json.string? standard.frameName,
    ← r.withDefault? "timeout_secs" Json.natural? standard.timeoutSeconds,
    ← r.withDefault? "default_format" Json.string? standard.defaultFormat⟩

end QuerySettings

namespace LogSettings

/-- The document of how much is logged. -/
def toJson (s : LogSettings) : Json :=
  .object [("level", .string s.level), ("format", .string s.format),
    ("file", .ofString? s.file)]

/-- Reads how much is logged. -/
def ofJson? (lenient : Bool) (j : Json) : Option LogSettings := do
  let r ← j.record? ["level", "format", "file"] lenient
  return ⟨← r.withDefault? "level" Json.string? standard.level,
    ← r.withDefault? "format" Json.string? standard.format,
    ← r.optional? "file" Json.string?⟩

end LogSettings

namespace Settings

/-- The document of where the database is. -/
def databaseToJson (path : Option String) : Json := .object [("path", .ofString? path)]

/-- Reads where the database is. -/
def databaseOfJson? (lenient : Bool) (j : Json) : Option (Option String) := do
  let r ← j.record? ["path"] lenient
  r.optional? "path" Json.string?

/-- **The document of all settings.** -/
def toJson (s : Settings) : Json :=
  .object [("query", s.query.toJson), ("sqlite", databaseToJson s.database),
    ("logging", s.log.toJson)]

/-- **Reads all settings**; `lenient` allows lists to go on after the last
setting. -/
def ofJson? (lenient : Bool) (j : Json) : Option Settings := do
  let r ← j.record? ["query", "sqlite", "logging"] lenient
  return ⟨← r.withDefault? "query" (QuerySettings.ofJson? lenient) standard.query,
    ← r.withDefault? "sqlite" (databaseOfJson? lenient) standard.database,
    ← r.withDefault? "logging" (LogSettings.ofJson? lenient) standard.log⟩

end Settings

end WindowQuery
