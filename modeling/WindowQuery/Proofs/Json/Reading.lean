import WindowQuery.Proofs.Json.Token

/-!
# Written documents, read back

A document is written by recursion on what it is, and read by a machine that
has a stack instead. The two meet in one statement: where a value may come next,
the text of a document takes the machine to where the document is complete, with
the same things open below it (`Reads`). It holds of an array or object if it
holds of its parts, because the machine gathers the parts one by one
(`reads?_moreItems`, `reads?_moreEntries`), and so it holds of all documents
whose text says all of them (`Plain`). Not all do: a number that is not whole is
rounded when it is read, and what cannot be read is written as `null`.
-/

namespace WindowQuery

namespace Json

/-! ## Texts through the machine -/

theorem tokens?_of_token? {cs rest : List Char} {t : Token} (h : token? cs = some (t, rest))
    (hspace : Text.EndsRun isSpace cs) : tokens? cs = (tokens? rest).map (t :: ·) := by
  cases cs with
  | nil => cases h
  | cons c cs =>
    rw [tokens?, if_neg (Bool.eq_false_iff.1 (Text.endsRun_cons.1 hspace))]
    split
    · next hnone =>
      rw [h] at hnone
      cases hnone
    · next t' rest' hsome =>
      rw [h] at hsome
      obtain ⟨rfl, rfl⟩ := Prod.mk.inj (Option.some.inj hsome)
      rfl

namespace Machine

/-- **The machine after a text.** -/
def reads? (m : Machine) (cs : List Char) : Option Machine := (tokens? cs).bind m.run?

/-- **One token of a text is one step** of the machine, if the text does not begin
with a space, which would be passed over first. -/
theorem reads?_token {m : Machine} {cs rest : List Char} {t : Token}
    (h : token? cs = some (t, rest)) (hspace : Text.EndsRun isSpace cs) :
    m.reads? cs = (m.step? t).bind (fun m' => m'.reads? rest) := by
  rw [reads?, tokens?_of_token? h hspace]
  show ((tokens? rest).map (t :: ·)).bind m.run? = _
  cases htokens : tokens? rest with
  | none =>
    have hnone : ∀ m' : Machine, m'.reads? rest = none := fun m' => by rw [reads?, htokens]; rfl
    rw [funext hnone]
    cases m.step? t <;> rfl
  | some ts =>
    have hsome : ∀ m' : Machine, m'.reads? rest = m'.run? ts := fun m' => by
      rw [reads?, htokens]
      rfl
    rw [funext hsome]
    rfl

/-- **Where a value may come next**, a token that does not end what is open is taken
for one. -/
theorem reads?_value {stack : List Open} {expected : Expected} {cs rest : List Char} {t : Token}
    {m : Machine} (hexpected : expected = .value ∨ expected = .valueOrEnd)
    (h : token? cs = some (t, rest)) (hspace : Text.EndsRun isSpace cs)
    (hclose : close? stack t = none) (hvalue : value? stack t = some m) :
    reads? ⟨stack, expected⟩ cs = m.reads? rest := by
  have hstep : step? ⟨stack, expected⟩ t = some m := by
    rcases hexpected with rfl | rfl
    · exact hvalue
    · show (close? stack t).orElse (fun _ => value? stack t) = some m
      rw [hclose]
      exact hvalue
  rw [reads?_token h hspace, hstep, Option.bind_some]

end Machine

/-! ## Documents whose text says all of them -/

/-- **A document that can be read back**: its numbers are whole and fit 64 bits, and
there is nothing in it that could only be skipped. -/
inductive Plain : Json → Prop
  | null : Plain null
  | bool (b : Bool) : Plain (bool b)
  | integer {n : Int} (hlow : -2 ^ 63 ≤ n) (hhigh : n < 2 ^ 64) : Plain (integer n)
  | string (s : String) : Plain (string s)
  | array {items : List Json} (h : ∀ j ∈ items, Plain j) : Plain (array items)
  | object {entries : List (String × Json)} (h : ∀ e ∈ entries, Plain e.2) : Plain (object entries)

/-- **The text of a document completes it**, in whatever stands around it. What
follows must not go on with a number. -/
def Reads (j : Json) : Prop :=
  ∀ (stack : List Open) (expected : Expected) (rest : List Char),
    expected = .value ∨ expected = .valueOrEnd → EndsNumber rest →
      Machine.reads? ⟨stack, expected⟩ (compactChars j ++ rest)
        = (Machine.complete j stack).reads? rest

/-- **A value of one token** is complete after it. -/
theorem reads_of_token {j : Json} {t : Token}
    (htoken : ∀ rest, EndsNumber rest → token? (compactChars j ++ rest) = some (t, rest))
    (hspace : ∀ rest, Text.EndsRun isSpace (compactChars j ++ rest))
    (hclose : ∀ stack, Machine.close? stack t = none)
    (hvalue : ∀ stack, Machine.value? stack t = some (Machine.complete j stack)) : Reads j :=
  fun stack _ rest hexpected hrest => Machine.reads?_value hexpected (htoken rest hrest)
    (hspace rest) (hclose stack) (hvalue stack)

/-- Nothing that is not a bracket or a brace ends what is open. -/
theorem close?_scalar (v : Json) (stack : List Open) : Machine.close? stack (.scalar v) = none := by
  rcases stack with _ | ⟨_ | _, _⟩ <;> rfl

theorem close?_text (s : Option String) (stack : List Open) :
    Machine.close? stack (.text s) = none := by
  rcases stack with _ | ⟨_ | _, _⟩ <;> rfl

theorem reads_null : Reads null :=
  reads_of_token (t := .scalar null) (fun _ _ => rfl) (fun _ => Text.endsRun_cons.2 (by decide))
    (close?_scalar null) (fun _ => rfl)

theorem reads_bool (b : Bool) : Reads (bool b) := by
  cases b with
  | false =>
    exact reads_of_token (t := .scalar (bool false)) (fun _ _ => rfl)
      (fun _ => Text.endsRun_cons.2 (by decide)) (close?_scalar _) (fun _ => rfl)
  | true =>
    exact reads_of_token (t := .scalar (bool true)) (fun _ _ => rfl)
      (fun _ => Text.endsRun_cons.2 (by decide)) (close?_scalar _) (fun _ => rfl)

theorem reads_integer {n : Int} (hlow : -2 ^ 63 ≤ n) (hhigh : n < 2 ^ 64) : Reads (integer n) := by
  refine reads_of_token (fun rest hrest => token?_integerText hlow hhigh hrest) (fun rest => ?_)
    (close?_scalar _) (fun _ => rfl)
  obtain ⟨c, cs, hcs, hfirst⟩ := exists_integerText_eq_cons n
  have htext : compactChars (integer n) ++ rest = c :: (cs ++ rest) := by
    rw [← List.cons_append, ← hcs]
    rfl
  rw [htext, Text.endsRun_cons]
  have hne : ∀ d : Char, ¬(d.isDigit = true ∨ d = '-') → (c == d) = false := fun d hd =>
    beq_eq_false_iff_ne.2 (fun heq => hd (heq ▸ hfirst))
  rw [isSpace, hne ' ' (by decide), hne '\t' (by decide), hne '\n' (by decide),
    hne '\r' (by decide)]
  rfl

theorem reads_string (s : String) : Reads (string s) :=
  reads_of_token (fun rest _ => token?_quoted s rest) (fun _ => Text.endsRun_cons.2 (by decide))
    (close?_text _) (fun _ => rfl)

/-! ## Arrays and objects -/

/-- What may follow a value in an array or object goes on with no number. -/
theorem endsNumber_cons {c : Char} (h : c ∈ [',', ']', '}']) (cs : List Char) :
    EndsNumber (c :: cs) := by
  refine Text.forall_head?_cons.2 ?_
  simp only [List.mem_cons, List.not_mem_nil, or_false] at h
  rcases h with rfl | rfl | rfl <;> decide

theorem endsNumber_moreItems (items : List Json) (rest : List Char) :
    EndsNumber (compactMoreItems items ++ ']' :: rest) := by
  cases items with
  | nil => exact endsNumber_cons (by decide) _
  | cons j items => exact endsNumber_cons (by decide) _

theorem endsNumber_moreEntries (entries : List (String × Json)) (rest : List Char) :
    EndsNumber (compactMoreEntries entries ++ '}' :: rest) := by
  cases entries with
  | nil => exact endsNumber_cons (by decide) _
  | cons e entries => exact endsNumber_cons (by decide) _

/-- **Further items are gathered** up to the end of their array. -/
theorem reads?_moreItems {items : List Json} (h : ∀ j ∈ items, Reads j) (done : List Json)
    (below : List Open) (rest : List Char) :
    Machine.reads? ⟨.array done :: below, .commaOrEnd⟩ (compactMoreItems items ++ ']' :: rest)
      = (Machine.complete (.array (done.reverse ++ items)) below).reads? rest := by
  induction items generalizing done with
  | nil =>
    rw [List.append_nil]
    exact Machine.reads?_token (t := .closeArray) rfl (Text.endsRun_cons.2 (by decide))
  | cons j items ih =>
    have hcomma : Machine.reads? ⟨.array done :: below, .commaOrEnd⟩
        (',' :: (compactChars j ++ (compactMoreItems items ++ ']' :: rest)))
        = Machine.reads? ⟨.array done :: below, .value⟩
          (compactChars j ++ (compactMoreItems items ++ ']' :: rest)) :=
      Machine.reads?_token (t := .comma) rfl (Text.endsRun_cons.2 (by decide))
    have hitem := h j List.mem_cons_self (.array done :: below) .value _ (.inl rfl)
      (endsNumber_moreItems items rest)
    have hmore := ih (fun i hi => h i (List.mem_cons_of_mem j hi)) (j :: done)
    rw [compactMoreItems, List.cons_append, List.append_assoc, hcomma, hitem]
    rw [List.reverse_cons, List.append_assoc, List.singleton_append] at hmore
    exact hmore

/-- **An entry is its key, a colon and its value.** -/
theorem reads?_entry (key : String) {value : Json} (h : Reads value) {expected : Expected}
    (hexpected : expected = .key ∨ expected = .keyOrEnd) (done : List (String × Json))
    (last : String) (below : List Open) {rest : List Char} (hrest : EndsNumber rest) :
    Machine.reads? ⟨.object done true last :: below, expected⟩
        (quoted key ++ ':' :: (compactChars value ++ rest))
      = Machine.reads? ⟨.object ((key, value) :: done) true key :: below, .commaOrEnd⟩ rest := by
  have hstep : Machine.step? ⟨.object done true last :: below, expected⟩ (.text (some key))
      = some ⟨.object done true key :: below, .colon⟩ := by
    rcases hexpected with rfl | rfl <;> rfl
  have hcolon : Machine.reads? ⟨.object done true key :: below, .colon⟩
      (':' :: (compactChars value ++ rest))
      = Machine.reads? ⟨.object done true key :: below, .value⟩ (compactChars value ++ rest) :=
    Machine.reads?_token (t := .colon) rfl (Text.endsRun_cons.2 (by decide))
  rw [Machine.reads?_token (token?_quoted key _) (Text.endsRun_cons.2 (by decide)), hstep,
    Option.bind_some, hcolon]
  exact h (.object done true key :: below) .value rest (.inl rfl) hrest

/-- **Further entries are gathered** up to the end of their object. -/
theorem reads?_moreEntries {entries : List (String × Json)} (h : ∀ e ∈ entries, Reads e.2)
    (done : List (String × Json)) (last : String) (below : List Open) (rest : List Char) :
    Machine.reads? ⟨.object done true last :: below, .commaOrEnd⟩
        (compactMoreEntries entries ++ '}' :: rest)
      = (Machine.complete (.object (done.reverse ++ entries)) below).reads? rest := by
  induction entries generalizing done last with
  | nil =>
    rw [List.append_nil]
    exact Machine.reads?_token (t := .closeObject) rfl (Text.endsRun_cons.2 (by decide))
  | cons e entries ih =>
    obtain ⟨key, value⟩ := e
    -- a comma, a key with its colon and a value, and the rest is as before
    have hcomma : Machine.reads? ⟨.object done true last :: below, .commaOrEnd⟩
        (',' :: (quoted key ++ ':' ::
          (compactChars value ++ (compactMoreEntries entries ++ '}' :: rest))))
        = Machine.reads? ⟨.object done true last :: below, .key⟩
          (quoted key ++ ':' ::
            (compactChars value ++ (compactMoreEntries entries ++ '}' :: rest))) :=
      Machine.reads?_token (t := .comma) rfl (Text.endsRun_cons.2 (by decide))
    have hvalue : Reads value := h (key, value) List.mem_cons_self
    have hentry := reads?_entry key hvalue (.inl rfl) done last below
      (endsNumber_moreEntries entries rest)
    have hmore := ih (fun e he => h e (List.mem_cons_of_mem _ he)) ((key, value) :: done) key
    rw [compactMoreEntries, List.cons_append, List.append_assoc, List.cons_append,
      List.append_assoc, hcomma, hentry]
    rw [List.reverse_cons, List.append_assoc, List.singleton_append] at hmore
    exact hmore

theorem reads_array {items : List Json} (h : ∀ j ∈ items, Reads j) : Reads (array items) := by
  intro stack expected rest hexpected _
  have hopen : Machine.reads? ⟨stack, expected⟩ ('[' :: (compactItems items ++ ']' :: rest))
      = Machine.reads? ⟨.array [] :: stack, .valueOrEnd⟩ (compactItems items ++ ']' :: rest) :=
    Machine.reads?_value (t := .openArray) hexpected rfl (Text.endsRun_cons.2 (by decide))
      (by rcases stack with _ | ⟨_ | _, _⟩ <;> rfl) rfl
  have htext : compactChars (array items) ++ rest = '[' :: (compactItems items ++ ']' :: rest) := by
    rw [compactChars, List.cons_append, List.append_assoc, List.singleton_append]
  rw [htext, hopen]
  cases items with
  | nil => exact Machine.reads?_token (t := .closeArray) rfl (Text.endsRun_cons.2 (by decide))
  | cons j items =>
    have hitem := h j List.mem_cons_self (.array [] :: stack) .valueOrEnd _ (.inr rfl)
      (endsNumber_moreItems items rest)
    rw [compactItems, List.append_assoc, hitem]
    exact reads?_moreItems (fun i hi => h i (List.mem_cons_of_mem j hi)) [j] stack rest

theorem reads_object {entries : List (String × Json)} (h : ∀ e ∈ entries, Reads e.2) :
    Reads (object entries) := by
  intro stack expected rest hexpected _
  have hopen : Machine.reads? ⟨stack, expected⟩ ('{' :: (compactEntries entries ++ '}' :: rest))
      = Machine.reads? ⟨.object [] true "" :: stack, .keyOrEnd⟩
        (compactEntries entries ++ '}' :: rest) :=
    Machine.reads?_value (t := .openObject) hexpected rfl (Text.endsRun_cons.2 (by decide))
      (by rcases stack with _ | ⟨_ | _, _⟩ <;> rfl) rfl
  have htext : compactChars (object entries) ++ rest
      = '{' :: (compactEntries entries ++ '}' :: rest) := by
    rw [compactChars, List.cons_append, List.append_assoc, List.singleton_append]
  rw [htext, hopen]
  cases entries with
  | nil => exact Machine.reads?_token (t := .closeObject) rfl (Text.endsRun_cons.2 (by decide))
  | cons e entries =>
    obtain ⟨key, value⟩ := e
    have hvalue : Reads value := h (key, value) List.mem_cons_self
    have hentry := reads?_entry key hvalue (.inr rfl) [] "" stack
      (endsNumber_moreEntries entries rest)
    rw [compactEntries, List.append_assoc, List.cons_append, List.append_assoc, hentry]
    exact reads?_moreEntries (fun e he => h e (List.mem_cons_of_mem _ he)) [(key, value)] key stack
      rest

/-! ## Whole documents -/

/-- **Every document whose text says all of it is read through.** -/
theorem Plain.reads {j : Json} (h : Plain j) : Reads j := by
  induction h with
  | null => exact reads_null
  | bool b => exact reads_bool b
  | integer hlow hhigh => exact reads_integer hlow hhigh
  | string s => exact reads_string s
  | array _ ih => exact reads_array ih
  | object _ ih => exact reads_object ih

/-- **Reading undoes writing.** -/
theorem read?_compact {j : Json} (h : Plain j) : read? j.compact.toList = some j := by
  have hread := h.reads [] .value [] (.inl rfl) (fun _ hc => by cases hc)
  have hend : (Machine.complete j []).reads? [] = some ⟨[], .nothing j⟩ := by
    rw [Machine.reads?, tokens?]
    rfl
  rw [List.append_nil, hend] at hread
  have hrun : (tokens? j.compactChars).bind Machine.start.run? = some ⟨[], .nothing j⟩ := hread
  rw [compact, String.toList_ofList, read?, hrun]

end Json

end WindowQuery
