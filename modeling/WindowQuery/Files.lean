import WindowQuery.Text.Numeral

/-!
# Files

A command reads and writes files, and says so only through the four
operations of `FileAccess`, in whatever monad they take effect. A
`FileTree` is a directory with all that stands in it, and the operations
on it are functions; in them a path is a list of names that leads from the
directory to a place in it, and a place can be filled only if all before
it are directories.
-/

namespace WindowQuery

/-- **Why a file cannot be used.** -/
inductive FileError where
  /-- There is none, or a directory on its path is missing. -/
  | notFound
  /-- There is something already. -/
  | alreadyExists
  /-- Something on its path is a file. -/
  | notADirectory
  /-- It is a directory. -/
  | isADirectory
  /-- Any other reason. -/
  | other (text : String)
deriving DecidableEq

/-- The reason in words. -/
def FileError.message : FileError → String
  | notFound => "No such file or directory (os error 2)"
  | alreadyExists => "File exists (os error 17)"
  | notADirectory => "Not a directory (os error 20)"
  | isADirectory => "Is a directory (os error 21)"
  | other text => text

/-- **Access to files.** -/
structure FileAccess (m : Type → Type) where
  /-- The text of a file. -/
  read : String → m (Except FileError String)
  /-- Gives a file a text, in the place of the one it had. -/
  write : String → String → m (Except FileError Unit)
  /-- Opens a file for writing and leaves its text as it is; a new one is empty. -/
  touch : String → m (Except FileError Unit)
  /-- Makes the directories of a path that are missing. -/
  makeDirectories : String → m (Except FileError Unit)

/-! ## Paths -/

namespace Path

/-- One name more on a path, whose last name comes first. Two dots take a name
back; nothing and one dot stay where they are. -/
def extend (taken : List String) (name : String) : Option (List String) :=
  if name = ".." then
    match taken.filter (· ≠ ".") with
    | [] => none
    | _ :: before => some before
  else some ((if name = "" then "." else name) :: taken)

/-- **The names of a path** that stays within the directory it starts from. -/
def names? (path : String) : Option (List String) :=
  match path.splitOn "/" with
  | "" :: _ => none
  | names => (names.foldlM extend []).map List.reverse

/-- The path of the directory that a path lies in; slashes and dots at its end
say nothing. -/
def parent (path : String) : String :=
  "/".intercalate
    (((path.splitOn "/").reverse.dropWhile (fun name => name = "" ∨ name = ".")).drop 1).reverse

end Path

/-! ## Trees of files -/

/-- **A file, or a directory with what stands in it.** -/
inductive FileTree where
  /-- A file with its text. -/
  | file (text : String)
  /-- A directory with the names in it. -/
  | directory (entries : List (String × FileTree))

namespace FileTree

instance : Inhabited FileTree := ⟨directory []⟩

/-- Puts a tree under a name. -/
def setEntry (name : String) (tree : FileTree) :
    List (String × FileTree) → List (String × FileTree)
  | [] => [(name, tree)]
  | e :: rest => if e.1 = name then (name, tree) :: rest else e :: setEntry name tree rest

/-- **What stands at a path.** -/
def find : List String → FileTree → Except FileError FileTree
  | [], tree => .ok tree
  | _ :: _, file _ => .error .notADirectory
  | name :: rest, directory entries =>
    if name = "." then find rest (directory entries)
    else (entries.lookup name).elim (.error .notFound) (find rest)

/-- **Changes what stands at a path**, where there may be nothing yet. A path
with a slash at its end is that of a directory, which is not made here. -/
def alter (change : Option FileTree → Except FileError FileTree) :
    List String → Option FileTree → Except FileError FileTree
  | [], tree => change tree
  | ["."], none => .error .isADirectory
  | _ :: _, none => .error .notFound
  | _ :: _, some (file _) => .error .notADirectory
  | name :: rest, some (directory entries) =>
    if name = "." then alter change rest (some (directory entries))
    else do return directory (setEntry name (← alter change rest (entries.lookup name)) entries)

/-- Makes the directories of a path that are missing. -/
def deepen : List String → Option FileTree → Except FileError FileTree
  | [], none => .ok (directory [])
  | [], some (directory entries) => .ok (directory entries)
  | [], some (file _) => .error .alreadyExists
  | _ :: _, some (file _) => .error .notADirectory
  | name :: rest, none => do
    if name = "." then deepen rest none
    else return directory [(name, ← deepen rest none)]
  | name :: rest, some (directory entries) => do
    if name = "." then deepen rest (some (directory entries))
    else return directory (setEntry name (← deepen rest (entries.lookup name)) entries)

/-- The names of a path, which has to lead somewhere. -/
def namesOf (path : String) : Except FileError (List String) :=
  (Path.names? path).elim (.error .notFound) .ok

/-- The text of the file at a path. -/
def read (path : String) (tree : FileTree) : Except FileError String := do
  match ← tree.find (← namesOf path) with
  | file text => return text
  | directory _ => throw .isADirectory

/-- The file with a text, unless there is a directory. -/
def fileWith (text : String) : Option FileTree → Except FileError FileTree
  | some (directory _) => .error .isADirectory
  | _ => .ok (file text)

/-- What stands there, or else an empty file. -/
def fileAtLeast : Option FileTree → Except FileError FileTree
  | some (directory _) => .error .isADirectory
  | some (file text) => .ok (file text)
  | none => .ok (file "")

/-- The tree with a text at a path. -/
def write (path text : String) (tree : FileTree) : Except FileError FileTree := do
  alter (fileWith text) (← namesOf path) (some tree)

/-- The tree with a file at a path. -/
def touch (path : String) (tree : FileTree) : Except FileError FileTree := do
  alter fileAtLeast (← namesOf path) (some tree)

/-- The tree with the directories of a path; the empty path has none. -/
def makeDirectories (path : String) (tree : FileTree) : Except FileError FileTree := do
  if path = "" then return tree
  deepen (← namesOf path) (some tree)

/-- Replaces the tree by what becomes of it. -/
def update (change : FileTree → Except FileError FileTree) :
    StateM FileTree (Except FileError Unit) := fun tree =>
  match change tree with
  | .ok tree' => (.ok (), tree')
  | .error e => (.error e, tree)

/-- **Access to the files of a tree.** -/
def access : FileAccess (StateM FileTree) where
  read path := fun tree => (tree.read path, tree)
  write path text := update (write path text)
  touch path := update (touch path)
  makeDirectories path := update (makeDirectories path)

end FileTree

end WindowQuery
