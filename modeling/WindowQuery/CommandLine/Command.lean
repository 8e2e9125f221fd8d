/-!
# Commands

What can be asked for on the command line. The ends of a window stay
texts here, because what they mean may depend on the present.
-/

namespace WindowQuery

/-- **The ends of a window** as they are given. -/
structure WindowChoice where
  /-- Its start. -/
  start : String
  /-- Its end. -/
  stop : String
deriving DecidableEq

/-- The window of the last six hours. -/
def WindowChoice.standard : WindowChoice := ⟨"now-6h", "now"⟩

/-- **Which database to use.** -/
structure DatabaseChoice where
  /-- Its file; without one it is that of the settings. -/
  file : Option String
  /-- A script to run first. -/
  script : Option String
deriving DecidableEq

/-- How a frame is shown. -/
inductive Presentation where
  /-- As a table. -/
  | table
  /-- As a document. -/
  | json
deriving DecidableEq

/-- The presentation of a name. -/
def Presentation.ofName? (name : String) : Option Presentation :=
  if name = "table" then some table else if name = "json" then some json else none

/-- **What is to be done.** -/
inductive Command where
  /-- Show the SQL that a query expands to. -/
  | expand (sql : String) (window : WindowChoice)
  /-- Run a query and show its frame. -/
  | run (sql : String) (database : DatabaseChoice) (format : Option String)
      (window : WindowChoice) (presentation : Presentation)
  /-- Run the request in a file. -/
  | batch (path : String) (database : DatabaseChoice)
  /-- Write a settings file to start from, or show it. -/
  | config (path : Option String)
deriving DecidableEq

/-- **A command and the settings file to go by**, if one is chosen. -/
structure Invocation where
  /-- The command. -/
  command : Command
  /-- The settings file. -/
  settings : Option String
deriving DecidableEq

end WindowQuery
