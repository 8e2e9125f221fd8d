import WindowQuery.Json.Number

/-!
# Reading documents

A text is cut into tokens, and the tokens are taken one after the other by
a machine that holds the arrays and objects that are open. The machine
knows what may come next; a token that may not ends the reading.
-/

namespace WindowQuery

namespace Json

/-! ## Tokens -/

/-- A piece of a text. -/
inductive Token where
  /-- `[`. -/
  | openArray
  /-- `]`. -/
  | closeArray
  /-- An opening brace. -/
  | openObject
  /-- A closing brace. -/
  | closeObject
  /-- `,`. -/
  | comma
  /-- `:`. -/
  | colon
  /-- A text in quotes, nothing if it cannot be read. -/
  | text (s : Option String)
  /-- Any other value that holds no others. -/
  | scalar (v : Json)

/-- The character of a short escape. -/
def unescape? (c : Char) : Option Char :=
  if c = '"' ∨ c = '\\' ∨ c = '/' then some c
  else if c = 'b' then some '\x08'
  else if c = 'f' then some '\x0c'
  else if c = 'n' then some '\n'
  else if c = 'r' then some '\r'
  else if c = 't' then some '\t'
  else none

/-- The code of four hexadecimal digits. -/
def hexCode? (a b c d : Char) : Option Nat := do
  return (((← Numeral.hexValue? a) * 16 + (← Numeral.hexValue? b)) * 16
    + (← Numeral.hexValue? c)) * 16 + (← Numeral.hexValue? d)

/-- The codes of the characters of a text up to its closing quote, and what
follows that. Halves of surrogate pairs are still apart. -/
def textBody? : List Char → Option (List Nat × List Char)
  | '"' :: rest => some ([], rest)
  | '\\' :: 'u' :: a :: b :: c :: d :: rest => do
    let code ← hexCode? a b c d
    let (codes, after) ← textBody? rest
    return (code :: codes, after)
  | '\\' :: c :: rest => do
    let e ← unescape? c
    let (codes, after) ← textBody? rest
    return (e.toNat :: codes, after)
  | c :: rest =>
    if c.toNat < 0x20 then none
    else do
      let (codes, after) ← textBody? rest
      return (c.toNat :: codes, after)
  | [] => none

/-- Whether a code is the first half of a pair. -/
def isHighSurrogate (n : Nat) : Bool := 0xD800 ≤ n && n ≤ 0xDBFF

/-- Whether a code is the second half of a pair. -/
def isLowSurrogate (n : Nat) : Bool := 0xDC00 ≤ n && n ≤ 0xDFFF

/-- **The characters of the codes**, the halves of pairs joined; nothing if a
half is left alone. -/
def joinPairs? : List Nat → Option (List Char)
  | [] => some []
  | n :: rest =>
    if isHighSurrogate n then
      match rest with
      | m :: more =>
        if isLowSurrogate m then
          (joinPairs? more).map
            (Char.ofNat (0x10000 + (n - 0xD800) * 0x400 + (m - 0xDC00)) :: ·)
        else none
      | [] => none
    else if isLowSurrogate n then none
    else (joinPairs? rest).map (Char.ofNat n :: ·)

/-- The characters that may stand between tokens. -/
def isSpace (c : Char) : Bool := c == ' ' || c == '\t' || c == '\n' || c == '\r'

/-- **The token at the front of a text** and what follows it. -/
def token? : List Char → Option (Token × List Char)
  | [] => none
  | '[' :: rest => some (.openArray, rest)
  | ']' :: rest => some (.closeArray, rest)
  | '{' :: rest => some (.openObject, rest)
  | '}' :: rest => some (.closeObject, rest)
  | ',' :: rest => some (.comma, rest)
  | ':' :: rest => some (.colon, rest)
  | 'n' :: 'u' :: 'l' :: 'l' :: rest => some (.scalar .null, rest)
  | 't' :: 'r' :: 'u' :: 'e' :: rest => some (.scalar (.bool true), rest)
  | 'f' :: 'a' :: 'l' :: 's' :: 'e' :: rest => some (.scalar (.bool false), rest)
  | '"' :: rest =>
    (textBody? rest).map (fun (codes, after) =>
      (.text ((joinPairs? codes).map String.ofList), after))
  | cs => (literal? cs).map (fun (l, rest) => (.scalar l.toJson, rest))

theorem length_lt_of_textBody? {cs rest : List Char} {codes : List Nat}
    (h : textBody? cs = some (codes, rest)) : rest.length < cs.length := by
  fun_induction textBody? cs generalizing codes rest with
  | case1 r =>
    obtain ⟨-, rfl⟩ := Prod.mk.inj (Option.some.inj h)
    simp
  | case2 a b c d r ih =>
    obtain ⟨code, -, h⟩ := Option.bind_eq_some_iff.1 h
    obtain ⟨⟨more, after⟩, hr, h⟩ := Option.bind_eq_some_iff.1 h
    obtain ⟨-, rfl⟩ := Prod.mk.inj (Option.some.inj h)
    have := ih hr
    simp only [List.length_cons]
    omega
  | case3 c r _ ih =>
    obtain ⟨code, -, h⟩ := Option.bind_eq_some_iff.1 h
    obtain ⟨⟨more, after⟩, hr, h⟩ := Option.bind_eq_some_iff.1 h
    obtain ⟨-, rfl⟩ := Prod.mk.inj (Option.some.inj h)
    have := ih hr
    simp only [List.length_cons]
    omega
  | case4 => simp at h
  | case5 c r _ _ _ _ ih =>
    obtain ⟨⟨more, after⟩, hr, h⟩ := Option.bind_eq_some_iff.1 h
    obtain ⟨-, rfl⟩ := Prod.mk.inj (Option.some.inj h)
    have := ih hr
    simp only [List.length_cons]
    omega
  | case6 => simp at h

theorem length_lt_of_token? {cs rest : List Char} {t : Token}
    (h : token? cs = some (t, rest)) : rest.length < cs.length := by
  unfold token? at h
  split at h
  · simp at h
  case h_11 r =>
    obtain ⟨⟨codes, after⟩, hb, h⟩ := Option.map_eq_some_iff.1 h
    obtain ⟨-, rfl⟩ := Prod.mk.inj h
    have := length_lt_of_textBody? hb
    simp only [List.length_cons]
    omega
  case h_12 =>
    obtain ⟨⟨l, after⟩, hl, h⟩ := Option.map_eq_some_iff.1 h
    obtain ⟨-, rfl⟩ := Prod.mk.inj h
    exact length_lt_of_literal? hl
  all_goals
    obtain ⟨-, rfl⟩ := Prod.mk.inj (Option.some.inj h)
    simp only [List.length_cons]
    omega

/-- **The tokens of a text.** -/
def tokens? : List Char → Option (List Token)
  | [] => some []
  | c :: cs =>
    if isSpace c then tokens? cs
    else
      match _h : token? (c :: cs) with
      | none => none
      | some (t, rest) => (tokens? rest).map (t :: ·)
termination_by cs => cs.length
decreasing_by
  · simp
  · exact length_lt_of_token? _h

/-! ## The machine -/

/-- An array or object that is open. -/
inductive Open where
  /-- An array with its items so far, the last one first. -/
  | array (items : List Json)
  /-- An object with its entries so far, the last one first, whether all its
  keys can be read, and the key whose value comes next. -/
  | object (entries : List (String × Json)) (readable : Bool) (key : String)

/-- What may come next. -/
inductive Expected where
  /-- A value. -/
  | value
  /-- A value or the end of the array. -/
  | valueOrEnd
  /-- A key. -/
  | key
  /-- A key or the end of the object. -/
  | keyOrEnd
  /-- The colon after a key. -/
  | colon
  /-- A comma or the end of what is open. -/
  | commaOrEnd
  /-- Nothing. -/
  | nothing (document : Json)

/-- The machine: what is open, the innermost first, and what may come next. -/
structure Machine where
  /-- The arrays and objects that are open. -/
  stack : List Open
  /-- What may come next. -/
  expected : Expected

/-- The machine before the first token. -/
def Machine.start : Machine := ⟨[], .value⟩

/-- Takes a value that is complete. -/
def Machine.complete (v : Json) : List Open → Machine
  | [] => ⟨[], .nothing v⟩
  | .array items :: below => ⟨.array (v :: items) :: below, .commaOrEnd⟩
  | .object entries readable key :: below =>
    ⟨.object ((key, v) :: entries) readable key :: below, .commaOrEnd⟩

/-- Takes a token where a value is expected. -/
def Machine.value? (stack : List Open) : Token → Option Machine
  | .openArray => some ⟨.array [] :: stack, .valueOrEnd⟩
  | .openObject => some ⟨.object [] true "" :: stack, .keyOrEnd⟩
  | .text s => some (complete (s.elim .unreadable .string) stack)
  | .scalar v => some (complete v stack)
  | _ => none

/-- Takes a key. -/
def Machine.key? : List Open → Token → Option Machine
  | .object entries readable _ :: below, .text s =>
    some ⟨.object entries (readable && s.isSome) (s.getD "") :: below, .colon⟩
  | _, _ => none

/-- Takes the end of what is open. -/
def Machine.close? : List Open → Token → Option Machine
  | .array items :: below, .closeArray => some (complete (.array items.reverse) below)
  | .object entries readable _ :: below, .closeObject =>
    some (complete (if readable then .object entries.reverse else .unreadable) below)
  | _, _ => none

/-- Takes a comma: after it comes a value in an array, a key in an object. -/
def Machine.comma? : List Open → Token → Option Machine
  | .array items :: below, .comma => some ⟨.array items :: below, .value⟩
  | .object entries readable key :: below, .comma =>
    some ⟨.object entries readable key :: below, .key⟩
  | _, _ => none

/-- **One step of the machine.** -/
def Machine.step? (m : Machine) (t : Token) : Option Machine :=
  match m.expected with
  | .value => value? m.stack t
  | .valueOrEnd => close? m.stack t <|> value? m.stack t
  | .key => key? m.stack t
  | .keyOrEnd => close? m.stack t <|> key? m.stack t
  | .colon => match t with
    | .colon => some ⟨m.stack, .value⟩
    | _ => none
  | .commaOrEnd => comma? m.stack t <|> close? m.stack t
  | .nothing _ => none

/-- The machine after several tokens. -/
def Machine.run? (m : Machine) : List Token → Option Machine
  | [] => some m
  | t :: rest => (m.step? t).bind (fun m' => run? m' rest)

/-- **Reads a document.** -/
def read? (cs : List Char) : Option Json :=
  match (tokens? cs).bind Machine.start.run? with
  | some ⟨[], .nothing document⟩ => some document
  | _ => none

end Json

end WindowQuery
