import WindowQuery.Directive.Error
import WindowQuery.Text.Blank
import WindowQuery.Text.Utf8

/-!
# Tokens of a text with directives

A directive is `$__` and a word, and right after it there may be an
argument list in parentheses. A text is cut into directives and the
literal text between them; nothing else of it is looked at. Within an
argument list only parentheses count, and the list reaches to the one
that closes it.

The tokens are the text itself: the sources of the tokens, one after the
other, are what was cut up, and the place of a token is where its source
lies.
-/

namespace WindowQuery

namespace Directive

/-- **One use of a directive.** -/
structure Invocation where
  /-- The name, with the two underscores that it begins with. -/
  name : String
  /-- What stands between the parentheses, if there is an argument list. -/
  list : Option String
deriving DecidableEq

/-- A piece of a text. -/
inductive Token where
  /-- Text that stays as it is. -/
  | literal (text : String)
  /-- A directive. -/
  | directive (use : Invocation)
deriving DecidableEq

/-! ## Sources and places -/

/-- The text that a use of a directive was read from. -/
def Invocation.source (i : Invocation) : List Char :=
  '$' :: (i.name.toList ++ i.list.elim [] (fun list => '(' :: (list.toList ++ [')'])))

/-- **The text that a token was read from.** -/
def Token.source : Token → List Char
  | literal text => text.toList
  | directive use => use.source

/-- A token and where it lies, in bytes. -/
structure Placed where
  /-- The token. -/
  token : Token
  /-- Where it begins. -/
  start : Nat
  /-- Where it ends. -/
  stop : Nat

/-- **The tokens with their places**, the first one at an offset: each begins
where the one before it ends. -/
def place (offset : Nat) : List Token → List Placed
  | [] => []
  | t :: rest =>
    let stop := offset + Text.byteLength t.source
    ⟨t, offset, stop⟩ :: place stop rest

/-! ## Cutting a text up -/

/-- The characters of a name. -/
def isWord (c : Char) : Bool := c.isAlphanum || c == '_'

/-- **The name at the front of a text**, if a directive starts there, and what
follows the name. -/
def name? : List Char → Option (List Char × List Char)
  | '$' :: '_' :: '_' :: rest =>
    let word := rest.takeWhile isWord
    if word.isEmpty then none else some ('_' :: '_' :: word, rest.dropWhile isWord)
  | _ => none

/-- **What lies before the parenthesis that closes the list**, and what
follows it; so many parentheses are open within the list. -/
def closing? (depth : Nat) : List Char → Option (List Char × List Char)
  | [] => none
  | c :: rest =>
    if c = ')' then
      match depth with
      | 0 => some ([], rest)
      | inner + 1 => (closing? inner rest).map (fun (list, after) => (c :: list, after))
    else
      (closing? (if c = '(' then depth + 1 else depth) rest).map
        (fun (list, after) => (c :: list, after))

/-- **The text before the first directive**, and the rest from there. -/
def untilName : List Char → List Char × List Char
  | [] => ([], [])
  | c :: rest =>
    if (name? (c :: rest)).isSome then ([], c :: rest)
    else (c :: (untilName rest).1, (untilName rest).2)

/-- The argument list at the front of a text, if there is one: nothing if it
is not closed, else what it holds and what follows. -/
def list? : List Char → Option (Option String × List Char)
  | '(' :: rest => (closing? 0 rest).map (fun (list, after) => (some (String.ofList list), after))
  | cs => some (none, cs)

theorem length_lt_of_name? {cs name rest : List Char} (h : name? cs = some (name, rest)) :
    rest.length < cs.length := by
  unfold name? at h
  split at h
  · next r =>
    have := (List.dropWhile_suffix (l := r) isWord).length_le
    dsimp only at h
    split at h
    · simp at h
    · obtain ⟨-, rfl⟩ := Prod.mk.inj (Option.some.inj h)
      simp only [List.length_cons]
      omega
  · simp at h

theorem length_lt_of_closing? {depth : Nat} {cs list rest : List Char}
    (h : closing? depth cs = some (list, rest)) : rest.length < cs.length := by
  induction cs generalizing depth list with
  | nil => simp [closing?] at h
  | cons c cs ih =>
    unfold closing? at h
    split at h
    · split at h
      · obtain ⟨-, rfl⟩ := Prod.mk.inj (Option.some.inj h)
        simp
      · obtain ⟨⟨l, r⟩, hc, h⟩ := Option.map_eq_some_iff.1 h
        obtain ⟨-, rfl⟩ := Prod.mk.inj h
        exact Nat.lt_succ_of_lt (ih hc)
    · obtain ⟨⟨l, r⟩, hc, h⟩ := Option.map_eq_some_iff.1 h
      obtain ⟨-, rfl⟩ := Prod.mk.inj h
      exact Nat.lt_succ_of_lt (ih hc)

theorem length_list?_le {cs rest : List Char} {list : Option String}
    (h : list? cs = some (list, rest)) : rest.length ≤ cs.length := by
  unfold list? at h
  split at h
  · obtain ⟨⟨l, r⟩, hc, h⟩ := Option.map_eq_some_iff.1 h
    obtain ⟨-, rfl⟩ := Prod.mk.inj h
    have := length_lt_of_closing? hc
    simp only [List.length_cons]
    omega
  · obtain ⟨-, rfl⟩ := Prod.mk.inj (Option.some.inj h)
    exact Nat.le_refl _

theorem length_untilName_le (cs : List Char) : (untilName cs).2.length ≤ cs.length := by
  induction cs with
  | nil => simp [untilName]
  | cons c cs ih =>
    rw [untilName]
    split
    · exact Nat.le_refl _
    · exact Nat.le_succ_of_le ih

/-- The token of a literal text, none if it is empty. -/
def literalToken (text : List Char) : List Token :=
  if text.isEmpty then [] else [.literal (String.ofList text)]

/-- **The tokens of a text** that begins at an offset. -/
def tokensFrom (offset : Nat) (cs : List Char) : Except DirectiveError (List Token) :=
  let before := (untilName cs).1
  match _h : name? (untilName cs).2 with
  | none => .ok (literalToken before)
  | some (name, afterName) =>
    let start := offset + Text.byteLength before
    match _h' : list? afterName with
    | none => .error (.unterminated (String.ofList name) start)
    | some (list, rest) =>
      let use : Invocation := ⟨String.ofList name, list⟩
      (tokensFrom (start + Text.byteLength use.source) rest).map
        (fun more => literalToken before ++ .directive use :: more)
termination_by cs.length
decreasing_by
  have h1 := length_untilName_le cs
  have h2 := length_lt_of_name? _h
  have h3 := length_list?_le _h'
  omega

/-- **Cuts a text into tokens.** -/
def tokenize (text : String) : Except DirectiveError (List Token) := tokensFrom 0 text.toList

/-! ## Arguments -/

/-- The pieces of a list between the commas that stand within no
parentheses; so many are open, and this is the piece so far. -/
def pieces (depth : Nat) : List Char → List (List Char)
  | [] => [[]]
  | c :: rest =>
    if c = ',' ∧ depth = 0 then [] :: pieces 0 rest
    else
      let inner := if c = '(' then depth + 1 else if c = ')' then depth - 1 else depth
      match pieces inner rest with
      | [] => [[c]]
      | piece :: more => (c :: piece) :: more

/-- **The arguments of a use**: the whole list as one argument, or one for
each piece between commas, without the blanks around it. A list of blanks
has no arguments. -/
def Invocation.arguments (i : Invocation) (several : Bool) : List String :=
  match i.list with
  | none => []
  | some list =>
    if Text.isBlankText list then []
    else if several then (pieces 0 list.toList).map (fun p => String.ofList (Text.trim p))
    else [Text.trimmed list]

end Directive

end WindowQuery
