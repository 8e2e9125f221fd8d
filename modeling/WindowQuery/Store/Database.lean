import WindowQuery.Files
import WindowQuery.Json.Printer
import WindowQuery.Json.Reader
import WindowQuery.Store.Document
import WindowQuery.Text.Blank

/-!
# Databases

A database holds one table or none, in a file or, without one, for as long
as it is open. Its file is made when it is opened and read when it is
used: what the file holds may turn out to be no database, and then every
use fails. A script creates the table, which must not be there yet. A
query asks for all of it.
-/

namespace WindowQuery

/-- **Why a database does not do what it is asked.** -/
inductive StoreError where
  /-- Its file cannot be opened. -/
  | cannotOpen (path : String)
  /-- Its file holds something else. -/
  | notADatabase
  /-- It has no table. -/
  | noTable
  /-- It has the table already. -/
  | tableExists
  /-- A script cannot be understood. -/
  | notAScript
deriving DecidableEq

/-- The name of the table. -/
def tableName : String := "t"

/-- The reason in words. -/
def StoreError.message : StoreError → String
  | cannotOpen path => "unable to open database file: " ++ path
  | notADatabase => "file is not a database"
  | noTable => "no such table: " ++ tableName
  | tableExists => "table " ++ tableName ++ " already exists"
  | notAScript => "syntax error"

/-- **A database.** -/
structure Database where
  /-- The file it is kept in. -/
  file : Option String
  /-- Its table, if its file is that of a database. -/
  table : Except StoreError (Option StoredTable)

namespace Database

/-! ## Files -/

/-- The key that a database has its table under. -/
def tableKey : String := "table"

/-- The key that a script has its table under. -/
def createKey : String := "create"

/-- The table under a key of a document. -/
def tableUnder? (key : String) (text : String) : Option StoredTable := do
  let r ← (← Json.read? text.toList).record? [key] false
  r.required? key StoredTable.ofJson?

/-- The text of a document with a table under a key. -/
def textUnder (key : String) (t : StoredTable) : String :=
  (Json.object [(key, t.toJson)]).compact

/-- What the file of a database holds; a new one is empty. -/
def contentOf (text : String) : Except StoreError (Option StoredTable) :=
  if text = "" then .ok none
  else (tableUnder? tableKey text).elim (.error .notADatabase) (fun t => .ok (some t))

/-- The text of a script that creates a table. -/
def scriptOf (t : StoredTable) : String := textUnder createKey t

/-! ## Opening and filling -/

variable {m : Type → Type} [Monad m]

/-- The database without a file, which is empty. -/
def inMemory : Database := ⟨none, .ok none⟩

/-- The path of a database that has a file. -/
def fileOf? (place : Option String) : Option String :=
  place.filter (fun path => path ≠ "" ∧ path ≠ ":memory:")

/-- **Opens a database**, which is empty if there was none. -/
def openAt (files : FileAccess m) (place : Option String) : ExceptT StoreError m Database := do
  match fileOf? place with
  | none => return inMemory
  | some path =>
    match ← files.touch path with
    | .error _ => throw (.cannotOpen path)
    | .ok () =>
      match ← files.read path with
      | .error _ => return ⟨path, .error .notADatabase⟩
      | .ok text => return ⟨path, contentOf text⟩

/-- Creates the table of a database. -/
def create (files : FileAccess m) (db : Database) (t : StoredTable) :
    ExceptT StoreError m Database := do
  if (← db.table).isSome then throw .tableExists
  match db.file with
  | none => return ⟨none, .ok (some t)⟩
  | some path =>
    match ← files.write path (textUnder tableKey t) with
    | .error _ => throw (.cannotOpen path)
    | .ok () => return ⟨path, .ok (some t)⟩

/-- **Runs a script**; one that says nothing does nothing. -/
def runScript (files : FileAccess m) (db : Database) (script : String) :
    ExceptT StoreError m Database := do
  if Text.isBlankText script then return db
  let some t := tableUnder? createKey script | throw .notAScript
  create files db t

/-! ## Queries -/

/-- **All of the table.** -/
def selectAll (db : Database) : Except StoreError ResultSet :=
  db.table.bind (fun t => t.elim (.error .noTable) (fun t => .ok t.resultSet))

/-- The database for queries, each of which asks for all of the table. -/
def backend (db : Database) : Backend Unit := fun _ state =>
  (.immediate (db.selectAll.mapError (fun e => .execution e.message)), state)

end Database

end WindowQuery
