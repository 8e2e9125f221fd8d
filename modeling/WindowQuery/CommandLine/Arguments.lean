import WindowQuery.CommandLine.Command

/-!
# Arguments

Arguments are read from left to right at two levels: before the name of
the command, and after it. At each level options may stand anywhere, each
at most once. An option is given by its long name, with its value behind
an equals sign or as the next argument, or by its letter, behind which
the value may also stand directly. The next argument is no value if it
looks like an option itself. After two dashes everything is an operand.

Help and the version are shown as soon as they are asked for, whatever
comes after.
-/

namespace WindowQuery

/-- **Why arguments name no command.** -/
inductive Digression where
  /-- Help is asked for. -/
  | help
  /-- The version is asked for. -/
  | version
  /-- They are misused. -/
  | misuse
deriving DecidableEq

namespace Arguments

/-! ## Fields -/

/-- **What arguments give a value.** -/
inductive Field where
  /-- The settings file. -/
  | settings
  /-- The start of the window. -/
  | start
  /-- The end of the window. -/
  | stop
  /-- The file of the database. -/
  | database
  /-- The script that is run first. -/
  | script
  /-- The format of the query. -/
  | format
  /-- How the frame is shown. -/
  | presentation
  /-- Where a settings file is written. -/
  | target
  /-- The SQL of the query. -/
  | sql
  /-- The file of the request. -/
  | request
deriving DecidableEq

/-- **Whether a text may be the value of a field.** A file has a name, and a
presentation is one of those there are. -/
def Field.admits : Field → String → Bool
  | start, _ | stop, _ | format, _ | sql, _ => true
  | presentation, value => (Presentation.ofName? value).isSome
  | settings, value | database, value | script, value | target, value | request, value =>
    value ≠ ""

/-- The fields that have a value. -/
abbrev Given := List (Field × String)

/-- Gives a field its value, which it may not have yet. -/
def give (given : Given) (field : Field) (value : String) : Except Digression Given :=
  if (given.lookup field).isNone ∧ field.admits value then .ok ((field, value) :: given)
  else .error .misuse

/-! ## Levels -/

/-- What an option does. -/
inductive Effect where
  /-- It gives a field its value. -/
  | assign (field : Field)
  /-- It leads away. -/
  | leave (digression : Digression)
deriving DecidableEq

/-- An option. -/
structure OptionRule where
  /-- Its long name. -/
  name : String
  /-- Its letter. -/
  letter : Option Char
  /-- What it does. -/
  effect : Effect
deriving DecidableEq

/-- **What a level admits.** -/
structure Level where
  /-- Its options. -/
  options : List OptionRule
  /-- What its one operand is, if it has one. -/
  operand : Option Field
deriving DecidableEq

/-- The options of every level. -/
def commonOptions : List OptionRule :=
  [⟨"config", some 'c', .assign .settings⟩, ⟨"help", some 'h', .leave .help⟩]

/-- The options of a window. -/
def windowOptions : List OptionRule :=
  [⟨"from", none, .assign .start⟩, ⟨"to", none, .assign .stop⟩]

/-- The options of a database. -/
def databaseOptions : List OptionRule :=
  [⟨"db", none, .assign .database⟩, ⟨"init", none, .assign .script⟩]

/-- What may stand before the name of the command. -/
def outerLevel : Level := ⟨commonOptions ++ [⟨"version", some 'V', .leave .version⟩], none⟩

/-! ## Single arguments -/

/-- **What an argument is at a level.** -/
inductive Step where
  /-- The mark after which there are only operands. -/
  | dashes
  /-- An option for a field, with the value if it stands in the argument. -/
  | assign (field : Field) (value : Option String)
  /-- Any other word. -/
  | word (text : String)
deriving DecidableEq

/-- Whether an argument looks like an option. One dash alone does not. -/
def looksLikeOption (argument : String) : Bool :=
  match argument.toList with
  | '-' :: _ :: _ => true
  | _ => false

/-- The value that stands behind an equals sign. -/
def afterEquals? : List Char → Option String
  | '=' :: value => some (String.ofList value)
  | _ => none

/-- The value that stands behind a letter. -/
def attached? : List Char → Option String
  | [] => none
  | '=' :: value => some (String.ofList value)
  | value => some (String.ofList value)

/-- The step of an option of a level; one that leads away takes no value. -/
def stepOf (level : Level) (is : OptionRule → Bool) (value : Option String) (alone : Bool) :
    Except Digression Step :=
  match (level.options.find? is).map OptionRule.effect with
  | none => .error .misuse
  | some (.assign field) => .ok (.assign field value)
  | some (.leave digression) => .error (if alone then digression else .misuse)

/-- **The step of an argument.** Behind a letter that leads away nothing counts. -/
def step (level : Level) (argument : String) : Except Digression Step :=
  match argument.toList with
  | ['-', '-'] => .ok .dashes
  | '-' :: '-' :: rest =>
    let name := String.ofList (rest.takeWhile (· ≠ '='))
    let value := afterEquals? (rest.dropWhile (· ≠ '='))
    stepOf level (fun o => o.name = name) value value.isNone
  | '-' :: letter :: rest =>
    stepOf level (fun o => o.letter = some letter) (attached? rest) true
  | _ => .ok (.word argument)

/-! ## Levels of arguments -/

/-- Takes an operand. -/
def operand (level : Level) (given : Given) (text : String) : Except Digression Given :=
  level.operand.elim (.error .misuse) (fun field => give given field text)

/-- **Reads the arguments of a level.** If it has no operand it ends at the first
word, and that word and what comes after it are left. -/
def readLevel (level : Level) : Given → List String → Except Digression (Given × List String)
  | given, [] => .ok (given, [])
  | given, argument :: rest => do
    match ← step level argument with
    | .dashes => return (← rest.foldlM (operand level) given, [])
    | .word text =>
      if level.operand.isNone then return (given, argument :: rest)
      readLevel level (← operand level given text) rest
    | .assign field (some value) => readLevel level (← give given field value) rest
    | .assign field none =>
      match rest with
      | [] => .error .misuse
      | value :: rest' =>
        if looksLikeOption value then .error .misuse
        readLevel level (← give given field value) rest'

/-! ## Commands -/

/-- The window that is given. -/
def windowOf (given : Given) : WindowChoice :=
  ⟨(given.lookup .start).getD WindowChoice.standard.start,
    (given.lookup .stop).getD WindowChoice.standard.stop⟩

/-- The database that is given. -/
def databaseOf (given : Given) : DatabaseChoice :=
  ⟨given.lookup .database, given.lookup .script⟩

/-- The presentation that is given. -/
def presentationOf (given : Given) : Presentation :=
  ((given.lookup .presentation).bind Presentation.ofName?).getD .table

/-- How a command is given. -/
structure CommandRule where
  /-- Its name. -/
  name : String
  /-- What may stand after the name. -/
  level : Level
  /-- The command, if nothing is missing. -/
  command? : Given → Option Command

/-- The rule for showing what a query expands to. -/
def expandRule : CommandRule where
  name := "expand"
  level := ⟨commonOptions ++ windowOptions, some .sql⟩
  command? given := (given.lookup .sql).map (fun sql => .expand sql (windowOf given))

/-- The rule for running a query. -/
def runRule : CommandRule where
  name := "run"
  level := ⟨commonOptions ++ windowOptions ++ databaseOptions
    ++ [⟨"format", some 'f', .assign .format⟩, ⟨"output", some 'o', .assign .presentation⟩],
    some .sql⟩
  command? given := (given.lookup .sql).map (fun sql =>
    .run sql (databaseOf given) (given.lookup .format) (windowOf given) (presentationOf given))

/-- The rule for running a request. -/
def batchRule : CommandRule where
  name := "batch"
  level := ⟨commonOptions ++ databaseOptions, some .request⟩
  command? given := (given.lookup .request).map (fun path => .batch path (databaseOf given))

/-- The rule for writing a settings file. -/
def configRule : CommandRule where
  name := "config"
  level := ⟨commonOptions ++ [⟨"output", some 'o', .assign .target⟩], none⟩
  command? given := some (.config (given.lookup .target))

/-- The rules of all commands. -/
def commandRules : List CommandRule := [expandRule, runRule, batchRule, configRule]

/-- The name that asks for help. -/
def helpName : String := "help"

/-- Help is asked for by name, on all or on one command. -/
def helpOn (topics : List String) : Digression :=
  match topics with
  | [] => .help
  | [topic] => if (helpName :: commandRules.map CommandRule.name).contains topic then .help
    else .misuse
  | _ => .misuse

/-- Reads the arguments after the name of a command. -/
def readCommand (rule : CommandRule) (arguments : List String) :
    Except Digression (Command × Given) := do
  let (given, rest) ← readLevel rule.level [] arguments
  match rest, rule.command? given with
  | [], some command => return (command, given)
  | _, _ => .error .misuse

/-- **Reads arguments.** Of the two levels the inner one has the last word on
the settings file. -/
def read (arguments : List String) : Except Digression Invocation := do
  let (outer, rest) ← readLevel outerLevel [] arguments
  match rest with
  | [] => .error .misuse
  | name :: rest' =>
    if name = helpName then .error (helpOn rest')
    match commandRules.find? (fun rule => rule.name = name) with
    | none => .error .misuse
    | some rule =>
      let (command, inner) ← readCommand rule rest'
      return ⟨command, (inner.lookup .settings).or (outer.lookup .settings)⟩

end Arguments

end WindowQuery
