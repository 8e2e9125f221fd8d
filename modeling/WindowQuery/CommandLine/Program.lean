import WindowQuery.CommandLine.Arguments
import WindowQuery.CommandLine.Failure
import WindowQuery.Frame.TextTable
import WindowQuery.Query.Batch
import WindowQuery.Settings.Layers
import WindowQuery.Settings.Template

/-!
# The program

A run of the program reads its arguments, then the settings, opens the log
file that they name, and carries out its command. It shows something only
if all of that succeeds; otherwise it reports what failed. What a run
depends on beside its arguments is given to it: the files, the
environment and the present instant.
-/

namespace WindowQuery

/-- **What a run of the program depends on.** -/
structure Surroundings (m : Type → Type) where
  /-- The files. -/
  files : FileAccess m
  /-- The variables that are set. -/
  environment : Environment
  /-- The present. -/
  now : Instant

/-- **What a run leaves behind** beside files. -/
structure Report where
  /-- Zero for success, one for a failure and two for misuse. -/
  exit : Nat
  /-- What it shows. -/
  output : String
  /-- What it says besides. -/
  notice : String
deriving DecidableEq

namespace Program

/-- What can end in a failure. -/
abbrev Action (m : Type → Type) := ExceptT Failure m

/-- **What a command shows.** -/
structure Showing where
  /-- Its result. -/
  output : String
  /-- What is said besides. -/
  notice : String
deriving DecidableEq

/-- A result of which nothing more is said. -/
def Showing.ofText (output : String) : Showing := ⟨output, ""⟩

variable {m : Type → Type} [Monad m]

/-- The value of a use of files, or else a failure. -/
def orFail {ε α : Type} (failure : ε → Failure) (use : m (Except ε α)) : Action m α := do
  match ← use with
  | .ok a => return a
  | .error e => throw (failure e)

/-- A failure with a reason for it. -/
def becauseOf (message : String) (e : FileError) : Failure := ⟨message, [e.message]⟩

/-! ## Settings and the log -/

/-- **The settings of a run.** -/
def settingsOf (s : Surroundings m) (chosen : Option String) : Action m Settings := do
  match chosen with
  | none =>
    let texts ← ExceptT.lift ((Settings.places s.environment).mapM s.files.read)
    return Settings.loadFirst s.environment (texts.map Except.toOption)
  | some path =>
    let text ← orFail (fun e => .plain
      ("Failed to read config file " ++ Text.quotedPath path ++ ": " ++ e.message))
      (s.files.read path)
    match Settings.loadWith s.environment (some text) with
    | .ok settings => return settings
    | .error _ => throw (.plain
      ("Failed to parse config file " ++ Text.quotedPath path ++ ": no settings"))

/-- Opens the log file, if there is to be one. -/
def openLog (s : Surroundings m) (settings : Settings) : Action m Unit := do
  match settings.log.file with
  | none => return
  | some path => orFail (becauseOf ("Failed to open log file " ++ path)) (s.files.touch path)

/-! ## Windows and databases -/

/-- An end of a window. -/
def endOf (s : Surroundings m) (option text : String) : Action m Instant :=
  match Instant.read? s.now text.toList with
  | some t => return t
  | none => throw (.plain ("Invalid " ++ option ++ ": " ++ text))

/-- **The window that is chosen.** -/
def windowOf (s : Surroundings m) (choice : WindowChoice) : Action m TimeWindow := do
  let start ← endOf s "--from" choice.start
  let stop ← endOf s "--to" choice.stop
  match TimeWindow.mk? start stop with
  | some w => return w
  | none => throw (.plain "--from must not be after --to")

/-- **The database that is chosen**, after its script has been run. -/
def databaseOf (s : Surroundings m) (settings : Settings) (choice : DatabaseChoice) :
    Action m Database := do
  let db ← orFail Failure.ofStore (Database.openAt s.files (choice.file.or settings.database)).run
  match choice.script with
  | none => return db
  | some path =>
    let script ← orFail (becauseOf ("Failed to read init script " ++ Text.quotedPath path))
      (s.files.read path)
    orFail Failure.ofStore (db.runScript s.files script).run

/-! ## Commands -/

/-- A document on lines of its own. -/
def documentText (j : Json) : String := j.pretty ++ "\n"

/-- The text of a frame. -/
def frameText : Presentation → Frame → String
  | .table, frame => frame.shown
  | .json, frame => documentText frame.toJson

/-- The notice of a fill policy. -/
def fillNotice (fill : Option FillPolicy) : String :=
  fill.elim "" (fun f => "fill policy: " ++ f.display ++ "\n")

/-- Shows what a query expands to. -/
def showExpansion (s : Surroundings m) (sql : String) (choice : WindowChoice) :
    Action m Showing := do
  let w ← windowOf s choice
  match expand sql w with
  | .ok e => return ⟨e.sql ++ "\n", fillNotice e.fill⟩
  | .error e => throw (.plain e.message)

/-- The reference of a query from the command line. -/
def soleReference : String := "A"

/-- Runs a query and shows its frame. -/
def showQuery (s : Surroundings m) (settings : Settings) (sql : String)
    (database : DatabaseChoice) (format : Option String) (choice : WindowChoice)
    (presentation : Presentation) : Action m Showing := do
  let w ← windowOf s choice
  let db ← databaseOf s settings database
  match (runQuery db.backend settings.query ⟨soleReference, sql, format.getD ""⟩ w ()).1 with
  | .ok frame => return .ofText (frameText presentation frame)
  | .error e => throw (.ofQuery e)

/-- Runs a request and shows its response. -/
def showBatch (s : Surroundings m) (settings : Settings) (path : String)
    (database : DatabaseChoice) : Action m Showing := do
  let text ← orFail (becauseOf ("Failed to read " ++ Text.quotedPath path)) (s.files.read path)
  match (Json.read? text.toList).bind Request.ofJson? with
  | none => throw ⟨"Failed to parse request in " ++ Text.quotedPath path, ["no request"]⟩
  | some request =>
    let db ← databaseOf s settings database
    return .ofText (documentText (runRequest db.backend settings.query request ()).1.toJson)

/-- Writes a settings file to start from, or shows it. -/
def showTemplate (s : Surroundings m) (path : Option String) : Action m Showing := do
  match path with
  | none => return .ofText Settings.template
  | some path =>
    orFail (fun e => .plain e.message) (s.files.makeDirectories (Path.parent path))
    orFail (fun e => .plain e.message) (s.files.write path Settings.template)
    return .ofText ("Config written to " ++ Text.quotedPath path ++ "\n")

/-- **Carries out a command**, after the settings and the log. -/
def perform (s : Surroundings m) (i : Invocation) : Action m Showing := do
  let settings ← settingsOf s i.settings
  openLog s settings
  match i.command with
  | .expand sql window => showExpansion s sql window
  | .run sql database format window presentation =>
    showQuery s settings sql database format window presentation
  | .batch path database => showBatch s settings path database
  | .config path => showTemplate s path

/-! ## Runs -/

/-- The name and the version of the program. -/
def versionText : String := "sqlframe 0.1.0\n"

/-- How the program is used. -/
def usageText : String :=
  "Usage: sqlframe [-c <CONFIG>] <COMMAND>\n\n"
    ++ "Commands:\n"
    ++ "  expand <SQL> [--from <FROM>] [--to <TO>]\n"
    ++ "  run <SQL> [--db <DB>] [--init <INIT>] [-f <FORMAT>] [--from <FROM>] [--to <TO>]"
    ++ " [-o table|json]\n"
    ++ "  batch <PATH> [--db <DB>] [--init <INIT>]\n"
    ++ "  config [-o <OUTPUT>]\n"

/-- The report on arguments that name no command. -/
def reportOf : Digression → Report
  | .help => ⟨0, usageText, ""⟩
  | .version => ⟨0, versionText, ""⟩
  | .misuse => ⟨2, "", usageText⟩

/-- **Runs the program.** -/
def run (s : Surroundings m) (arguments : List String) : m Report := do
  match Arguments.read arguments with
  | .error digression => return reportOf digression
  | .ok invocation =>
    match ← (perform s invocation).run with
    | .ok shown => return ⟨0, shown.output, shown.notice⟩
    | .error failure => return ⟨1, "", failure.report⟩

end Program

end WindowQuery
