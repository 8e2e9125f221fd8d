import WindowQuery.Proofs.Directive.Opening
import WindowQuery.Proofs.Success

/-!
# What the scan for directives reads

The scan passes over literal text to the first place where a directive
opens, reads a use there, and goes on after it. Each of the three is said
here without the scan: a use `StandsBefore` a text when its name is all of
the word there and its list, if there is one, is balanced; and tokens are
`Canonical` when every use stands before the sources of the tokens after
it, and every literal is all that lies between two uses.

`tokensFrom_eq_ok_iff` puts them together: a text is read as tokens just
when their sources make up the text and they are canonical. What the
tokens of a text are is then a matter of the text alone, and the offset at
which it lies shows in errors only.
-/

namespace WindowQuery

namespace Directive

/-! ## Argument lists -/

/-- **Balanced text**: no beginning of it closes more parentheses than it opens,
and all of it closes as many. -/
def Balanced (cs : List Char) : Prop :=
  (∀ p, p <+: cs → p.count ')' ≤ p.count '(') ∧ cs.count ')' = cs.count '('

/-- The text closes so many parentheses more than it opens, none of them before
it is open. -/
def ClosesFrom (depth : Nat) (cs : List Char) : Prop :=
  (∀ p, p <+: cs → p.count ')' ≤ depth + p.count '(') ∧ cs.count ')' = depth + cs.count '('

theorem closesFrom_zero {cs : List Char} : ClosesFrom 0 cs ↔ Balanced cs := by
  unfold ClosesFrom Balanced
  simp only [Nat.zero_add]

theorem closesFrom_nil {depth : Nat} : ClosesFrom depth [] ↔ depth = 0 := by
  refine ⟨fun h => h.2.symm, fun h => ⟨fun p hp => ?_, h.symm⟩⟩
  rw [List.prefix_nil.1 hp]
  exact Nat.zero_le _

theorem forall_prefix_cons {c : Char} {cs : List Char} {p : List Char → Prop} :
    (∀ t, t <+: c :: cs → p t) ↔ p [] ∧ ∀ t, t <+: cs → p (c :: t) := by
  constructor
  · intro h
    exact ⟨h [] List.nil_prefix, fun t ht => h (c :: t) (List.cons_prefix_cons.2 ⟨rfl, ht⟩)⟩
  · rintro ⟨hnil, hcons⟩ t ht
    rcases List.prefix_cons_iff.1 ht with rfl | ⟨u, rfl, hu⟩
    · exact hnil
    · exact hcons u hu

theorem count_cons_close (cs : List Char) :
    (')' :: cs).count ')' = cs.count ')' + 1 ∧ (')' :: cs).count '(' = cs.count '(' :=
  ⟨List.count_cons_self, List.count_cons_of_ne (by decide)⟩

/-- What is open after a character and a text, by what is open after the
character. -/
theorem depth_add_count_cons (depth : Nat) (c : Char) (cs : List Char) :
    depth + (c :: cs).count '(' = (if c = '(' then depth + 1 else depth) + cs.count '(' := by
  split
  · next h => rw [h, List.count_cons_self]; omega
  · next h => rw [List.count_cons_of_ne h]

/-- A closing parenthesis closes one that is open. -/
theorem closesFrom_close {depth : Nat} {cs : List Char} :
    ClosesFrom depth (')' :: cs) ↔ ∃ inner, depth = inner + 1 ∧ ClosesFrom inner cs := by
  unfold ClosesFrom
  have hcount := count_cons_close
  rw [forall_prefix_cons]
  constructor
  · rintro ⟨⟨-, hpre⟩, htotal⟩
    cases depth with
    | zero =>
      have h := hpre [] List.nil_prefix
      rw [(hcount []).1, (hcount []).2] at h
      exact absurd h (by decide)
    | succ inner =>
      refine ⟨inner, rfl, fun t ht => ?_, ?_⟩
      · have h := hpre t ht
        rw [(hcount t).1, (hcount t).2] at h
        omega
      · rw [(hcount cs).1, (hcount cs).2] at htotal
        omega
  · rintro ⟨inner, rfl, hpre, htotal⟩
    refine ⟨⟨Nat.zero_le _, fun t ht => ?_⟩, ?_⟩
    · rw [(hcount t).1, (hcount t).2]
      have h := hpre t ht
      omega
    · rw [(hcount cs).1, (hcount cs).2, htotal]
      omega

/-- Any other character goes on at the depth that it leads to. -/
theorem closesFrom_cons {depth : Nat} {c : Char} {cs : List Char} (hc : c ≠ ')') :
    ClosesFrom depth (c :: cs) ↔ ClosesFrom (if c = '(' then depth + 1 else depth) cs := by
  unfold ClosesFrom
  have hclose : ∀ t : List Char, (c :: t).count ')' = t.count ')' := fun t =>
    List.count_cons_of_ne hc
  have hopen := depth_add_count_cons depth c
  rw [forall_prefix_cons, hclose cs, hopen cs]
  simp only [hclose, hopen]
  exact ⟨fun h => ⟨h.1.2, h.2⟩, fun h => ⟨⟨Nat.zero_le _, h.1⟩, h.2⟩⟩

/-- Where the scan goes on from a character, that character is in the list and
the rest of the list is found from there. -/
theorem map_closing?_eq_some_iff {depth next : Nat} {c : Char} {cs list rest : List Char}
    (hcs : ∀ l, closing? next cs = some (l, rest) ↔ cs = l ++ ')' :: rest ∧ ClosesFrom next l)
    (hnext : ∀ l, ClosesFrom depth (c :: l) ↔ ClosesFrom next l)
    (hfirst : ¬ClosesFrom depth [] ∨ c ≠ ')') :
    (closing? next cs).map (fun found => (c :: found.1, found.2)) = some (list, rest) ↔
      c :: cs = list ++ ')' :: rest ∧ ClosesFrom depth list := by
  rw [Option.map_eq_some_iff]
  constructor
  · rintro ⟨⟨l, r⟩, hl, h⟩
    obtain ⟨rfl, rfl⟩ := Prod.mk.inj h
    obtain ⟨rfl, hcloses⟩ := (hcs l).1 hl
    exact ⟨rfl, (hnext l).2 hcloses⟩
  · rintro ⟨h, hl⟩
    cases list with
    | nil =>
      obtain ⟨rfl, -⟩ := List.cons.inj h
      exact hfirst.elim (fun hf => absurd hl hf) (fun hf => absurd rfl hf)
    | cons d l =>
      obtain ⟨rfl, he⟩ := List.cons.inj h
      exact ⟨(l, rest), (hcs l).2 ⟨he, (hnext l).1 hl⟩, rfl⟩

/-- **The scan for a closing parenthesis** stops at the one that closes the
list: what it has passed is closed but for that one. -/
theorem closing?_eq_some_iff {depth : Nat} {cs list rest : List Char} :
    closing? depth cs = some (list, rest) ↔
      cs = list ++ ')' :: rest ∧ ClosesFrom depth list := by
  -- only a closing parenthesis with nothing open ends the scan; any other character is passed over,
  -- at the depth that it leads to
  induction cs generalizing depth list with
  | nil =>
    constructor
    · intro h
      cases h
    · rintro ⟨h, -⟩
      exact absurd h.symm (List.append_ne_nil_of_right_ne_nil _ (List.cons_ne_nil _ _))
  | cons c cs ih =>
    unfold closing?
    by_cases hc : c = ')'
    · subst hc
      rw [if_pos rfl]
      cases depth with
      | zero =>
        constructor
        · intro h
          obtain ⟨rfl, rfl⟩ := Prod.mk.inj (Option.some.inj h)
          exact ⟨rfl, closesFrom_nil.2 rfl⟩
        · rintro ⟨h, hl⟩
          cases list with
          | nil =>
            obtain ⟨-, rfl⟩ := List.cons.inj h
            rfl
          | cons d l =>
            obtain ⟨rfl, -⟩ := List.cons.inj h
            obtain ⟨inner, h0, -⟩ := closesFrom_close.1 hl
            cases h0
      | succ inner =>
        have hnext : ∀ l, ClosesFrom (inner + 1) (')' :: l) ↔ ClosesFrom inner l := by
          intro l
          refine closesFrom_close.trans ⟨?_, fun h => ⟨inner, rfl, h⟩⟩
          rintro ⟨inner', he, h⟩
          obtain rfl := Nat.succ.inj he
          exact h
        exact map_closing?_eq_some_iff (fun _ => ih) hnext
          (Or.inl (fun h => absurd (closesFrom_nil.1 h) (Nat.succ_ne_zero inner)))
    · rw [if_neg hc]
      exact map_closing?_eq_some_iff (fun _ => ih) (fun l => closesFrom_cons hc) (Or.inr hc)

/-! ## Uses -/

/-- The text of an argument list, parentheses included. -/
def listSource : Option String → List Char
  | none => []
  | some list => '(' :: (list.toList ++ [')'])

/-- **A use stands before a text**: its name has the shape of one and is all of
the word there, there is no list only if none opens, and the list is
balanced. -/
structure Invocation.StandsBefore (i : Invocation) (rest : List Char) : Prop where
  /-- The name is two underscores and a word. -/
  name : IsName i.name.toList
  /-- Nothing goes on with the name. -/
  maximal : EndsName (listSource i.list ++ rest)
  /-- Where there is no list, no parenthesis opens. -/
  noList : i.list = none → rest.head? ≠ some '('
  /-- The list is balanced. -/
  balanced : ∀ list ∈ i.list, Balanced list.toList

theorem Invocation.source_eq (i : Invocation) :
    i.source = '$' :: (i.name.toList ++ listSource i.list) := by
  unfold Invocation.source
  cases i.list <;> rfl

/-- **The list after a name**, if there is one. There is none just if no
parenthesis stands right after the name; and a list that has been read is what
stands in front of the rest, balanced, with its parentheses. -/
theorem list?_eq_some_iff {cs rest : List Char} {list : Option String} :
    list? cs = some (list, rest) ↔
      cs = listSource list ++ rest ∧ (list = none → rest.head? ≠ some '(') ∧
        ∀ l ∈ list, Balanced l.toList := by
  -- whether there is a list is decided by the character right after the name
  unfold list?
  split
  · next r =>
    rw [Option.map_eq_some_iff]
    constructor
    · rintro ⟨⟨l, after⟩, hl, h⟩
      obtain ⟨rfl, rfl⟩ := Prod.mk.inj h
      obtain ⟨rfl, hcloses⟩ := closing?_eq_some_iff.1 hl
      refine ⟨?_, fun hnone => absurd hnone (Option.some_ne_none _), fun l' hl' => ?_⟩
      · show '(' :: (l ++ ')' :: after) = '(' :: ((String.ofList l).toList ++ [')']) ++ after
        rw [String.toList_ofList, List.cons_append, List.append_assoc]
        rfl
      · obtain rfl := Option.some.inj hl'
        rw [String.toList_ofList]
        exact closesFrom_zero.1 hcloses
    · rintro ⟨h, hnone, hbalanced⟩
      cases list with
      | none =>
        rw [listSource, List.nil_append] at h
        exact absurd (h ▸ rfl) (hnone rfl)
      | some l =>
        have hr : r = l.toList ++ [')'] ++ rest := (List.cons.inj h).2
        refine ⟨(l.toList, rest), closing?_eq_some_iff.2 ⟨?_, ?_⟩, ?_⟩
        · rw [hr, List.append_assoc]
          rfl
        · exact closesFrom_zero.2 (hbalanced l rfl)
        · show (some (String.ofList l.toList), rest) = (some l, rest)
          rw [String.ofList_toList]
  · next hne =>
    constructor
    · intro h
      obtain ⟨rfl, rfl⟩ := Prod.mk.inj (Option.some.inj h)
      refine ⟨rfl, fun _ hhead => ?_, fun l hl => by cases hl⟩
      obtain ⟨r, rfl⟩ := List.head?_eq_some_iff.1 hhead
      exact hne r rfl
    · rintro ⟨rfl, -, -⟩
      cases list with
      | none => rfl
      | some l => exact absurd rfl (hne _)

/-- **Reading a name and then a list is reading a use** that stands before what
is left. -/
theorem readUse_iff {cs rest name after : List Char} {list : Option String} :
    name? cs = some (name, after) ∧ list? after = some (list, rest) ↔
      cs = (Invocation.mk (String.ofList name) list).source ++ rest ∧
        after = listSource list ++ rest ∧
        (Invocation.mk (String.ofList name) list).StandsBefore rest := by
  have hname : (Invocation.mk (String.ofList name) list).name.toList = name := String.toList_ofList
  rw [name?_eq_some_iff, list?_eq_some_iff, Invocation.source_eq, hname]
  constructor
  · rintro ⟨⟨rfl, hn, hends⟩, rfl, hnone, hbalanced⟩
    refine ⟨?_, rfl, ⟨hname.symm ▸ hn, hends, hnone, hbalanced⟩⟩
    rw [List.cons_append, List.append_assoc]
  · rintro ⟨rfl, rfl, h⟩
    refine ⟨⟨?_, hname ▸ h.name, h.maximal⟩, rfl, h.noList, h.balanced⟩
    rw [List.cons_append, List.append_assoc]

/-! ## The text before a directive -/

theorem append_untilName (cs : List Char) : (untilName cs).1 ++ (untilName cs).2 = cs := by
  induction cs with
  | nil => rfl
  | cons c cs ih =>
    rw [untilName]
    split
    · rfl
    · exact congrArg (c :: ·) ih

/-- Where the scan stops before the end, a directive opens. -/
theorem untilName_snd (cs : List Char) : (untilName cs).2 = [] ∨ Opens (untilName cs).2 := by
  induction cs with
  | nil => exact Or.inl rfl
  | cons c cs ih =>
    rw [untilName]
    split
    · next h => exact Or.inr (isSome_name?.1 h)
    · exact ih

theorem endsName_untilName (cs : List Char) : EndsName (untilName cs).2 := by
  rcases untilName_snd cs with h | h
  · rw [h]
    exact endsName_nil
  · exact h.endsName

/-- **No directive opens in what the scan passes over**, because the scan stops at
the first dollar sign that opens one. -/
theorem not_mentions_untilName (cs : List Char) : ¬Mentions (untilName cs).1 := by
  rw [← openings_eq_zero]
  have hcount : openings (untilName cs).2 = openings cs := by
    induction cs with
    | nil => rfl
    | cons c cs ih =>
      rw [untilName]
      split
      · rfl
      · next h =>
        rw [openings_of_not_opens (fun ho => h (isSome_name?.2 ho))]
        exact ih
  have hsum : openings ((untilName cs).1 ++ (untilName cs).2) =
      openings (untilName cs).1 + openings (untilName cs).2 :=
    openings_append (endsName_untilName cs)
  rw [append_untilName, ← hcount] at hsum
  exact Nat.left_eq_add.1 (hsum.trans (Nat.add_comm _ _))

/-- **The scan stops where the first directive opens.** -/
theorem untilName_append {as bs : List Char} (has : ¬Mentions as) (hbs : bs = [] ∨ Opens bs) :
    untilName (as ++ bs) = (as, bs) := by
  have hends : EndsName bs := hbs.elim (fun h => h ▸ endsName_nil) Opens.endsName
  induction as with
  | nil =>
    rw [List.nil_append]
    cases bs with
    | nil => rfl
    | cons b bs =>
      rw [untilName, if_pos (isSome_name?.2 (hbs.resolve_left (List.cons_ne_nil b bs)))]
  | cons a as ih =>
    rw [mentions_cons, not_or] at has
    have hstep : ¬(name? (a :: (as ++ bs))).isSome = true := fun h =>
      has.1 ((opens_append_iff (List.cons_ne_nil a as) hends).1 (isSome_name?.1 h))
    rw [List.cons_append, untilName, if_neg hstep, ih has.2]

/-! ## Tokens -/

/-- Whether a token is a use of a directive. -/
def Token.isUse : Token → Bool
  | literal _ => false
  | directive _ => true

/-- The text that tokens were read from. -/
def sources (tokens : List Token) : List Char := tokens.flatMap Token.source

/-- **Canonical tokens**: a literal is some text in which no directive opens and
is not followed by another literal, and a use stands before the text of
the tokens after it. -/
def Canonical : List Token → Prop
  | [] => True
  | .literal text :: rest =>
    text.toList ≠ [] ∧ ¬Mentions text.toList ∧ (∀ t ∈ rest.head?, t.isUse = true) ∧ Canonical rest
  | .directive i :: rest => i.StandsBefore (sources rest) ∧ Canonical rest

@[simp] theorem sources_nil : sources [] = [] := rfl

@[simp] theorem sources_cons (t : Token) (rest : List Token) :
    sources (t :: rest) = t.source ++ sources rest := List.flatMap_cons

@[simp] theorem sources_append (as bs : List Token) :
    sources (as ++ bs) = sources as ++ sources bs := List.flatMap_append

@[simp] theorem sources_literalToken (text : List Char) : sources (literalToken text) = text := by
  unfold literalToken
  split
  · next h => exact (List.isEmpty_iff.1 h).symm
  · show (String.ofList text).toList ++ [] = text
    rw [List.append_nil, String.toList_ofList]

theorem literalToken_toList {text : String} (h : text.toList ≠ []) :
    literalToken text.toList = [.literal text] := by
  rw [literalToken, if_neg (fun he => h (List.isEmpty_iff.1 he)), String.ofList_toList]

/-- **A literal goes before tokens that do not begin with one.** -/
theorem canonical_literalToken_append {text : List Char} {rest : List Token}
    (htext : ¬Mentions text) (hhead : ∀ t ∈ rest.head?, t.isUse = true) (hrest : Canonical rest) :
    Canonical (literalToken text ++ rest) := by
  unfold literalToken
  split
  · exact hrest
  · next hne =>
    refine ⟨?_, ?_, hhead, hrest⟩
    · rw [String.toList_ofList]
      exact fun he => hne (List.isEmpty_iff.2 he)
    · rw [String.toList_ofList]
      exact htext

/-- No directive opens in a text: it is one literal, or empty. -/
theorem tokensFrom_literal {text : List Char} (h : ¬Mentions text) (offset : Nat) :
    tokensFrom offset text = .ok (literalToken text) := by
  have huntil : untilName text = (text, []) := by
    have h := untilName_append h (Or.inl rfl)
    rwa [List.append_nil] at h
  rw [tokensFrom]
  split
  · rw [huntil]
  · next hname =>
    rw [huntil] at hname
    cases hname

/-- **The first use of a text**: what is before it becomes a literal, and the
tokens of what is after it follow. -/
theorem tokensFrom_use {text rest : List Char} {i : Invocation} (htext : ¬Mentions text)
    (hi : i.StandsBefore rest) (offset : Nat) :
    tokensFrom offset (text ++ (i.source ++ rest)) =
      (tokensFrom (offset + Text.byteLength text + Text.byteLength i.source) rest).map
        (fun more => literalToken text ++ .directive i :: more) := by
  have huntil : untilName (text ++ (i.source ++ rest)) = (text, i.source ++ rest) :=
    untilName_append htext (Or.inr (i.opens_source hi.name rest))
  have hi' : Invocation.mk (String.ofList i.name.toList) i.list = i := by
    rw [String.ofList_toList]
  have hread : name? (i.source ++ rest) = some (i.name.toList, listSource i.list ++ rest) ∧
      list? (listSource i.list ++ rest) = some (i.list, rest) :=
    readUse_iff.2 (by rw [hi']; exact ⟨rfl, rfl, hi⟩)
  -- of the outcomes of the scan only the one with this use is consistent with `hread`
  rw [tokensFrom]
  split
  · next hname =>
    rw [huntil] at hname
    rw [hread.1] at hname
    cases hname
  · next name after hname =>
    rw [huntil] at hname
    obtain ⟨rfl, rfl⟩ := Prod.mk.inj (Option.some.inj (hread.1.symm.trans hname))
    split
    · next hlist =>
      rw [hread.2] at hlist
      cases hlist
    · next list after' hlist =>
      obtain ⟨rfl, rfl⟩ := Prod.mk.inj (Option.some.inj (hread.2.symm.trans hlist))
      dsimp only
      rw [huntil, hi']

/-- The tokens of a text make it up and are canonical. -/
theorem canonical_of_tokensFrom {offset : Nat} {cs : List Char} {tokens : List Token}
    (h : tokensFrom offset cs = .ok tokens) : sources tokens = cs ∧ Canonical tokens := by
  -- on the length: what follows a use is shorter than the text
  induction hn : cs.length using Nat.strongRecOn generalizing offset cs tokens with
  | ind n ih =>
    subst hn
    rw [tokensFrom] at h
    split at h
    · next hname =>
      obtain rfl := Except.ok.inj h
      have hend : (untilName cs).2 = [] := (untilName_snd cs).resolve_right (fun ho => by
        rw [← isSome_name?, hname] at ho
        cases ho)
      have hall := append_untilName cs
      rw [hend, List.append_nil] at hall
      have hcanonical : Canonical (literalToken (untilName cs).1 ++ []) :=
        canonical_literalToken_append (not_mentions_untilName cs) (fun t ht => by cases ht) trivial
      rw [List.append_nil] at hcanonical
      exact ⟨by rw [sources_literalToken, hall], hcanonical⟩
    · next name after hname =>
      split at h
      · cases h
      · next list rest hlist =>
        obtain ⟨more, hmore, rfl⟩ := exists_of_map_eq_ok h
        obtain ⟨hcs, -, hi⟩ := readUse_iff.1 ⟨hname, hlist⟩
        have hshort : rest.length < cs.length :=
          Nat.lt_of_le_of_lt (length_list?_le hlist)
            (Nat.lt_of_lt_of_le (length_lt_of_name? hname) (length_untilName_le cs))
        obtain ⟨rfl, hcanonical⟩ := ih _ hshort hmore rfl
        refine ⟨?_, canonical_literalToken_append (not_mentions_untilName cs) ?_ ⟨hi, hcanonical⟩⟩
        · rw [sources_append, sources_literalToken, sources_cons]
          refine Eq.trans ?_ (append_untilName cs)
          exact congrArg ((untilName cs).1 ++ ·) hcs.symm
        · intro t ht
          obtain rfl := Option.some.inj ht
          rfl

/-- Canonical tokens are those of the text that they make up. -/
theorem tokensFrom_sources : ∀ {tokens : List Token}, Canonical tokens → ∀ offset : Nat,
    tokensFrom offset (sources tokens) = .ok tokens
  | [], _, offset => tokensFrom_literal not_mentions_nil offset
  | [.literal text], ⟨hne, htext, _⟩, offset => by
    rw [sources_cons, sources_nil, List.append_nil]
    show tokensFrom offset text.toList = _
    rw [tokensFrom_literal htext, literalToken_toList hne]
  | .literal text :: .literal _ :: _, ⟨_, _, hhead, _⟩, _ => absurd (hhead _ rfl) Bool.false_ne_true
  | .literal text :: .directive i :: rest, ⟨hne, htext, _, hi, hrest⟩, offset => by
    rw [sources_cons, sources_cons]
    show tokensFrom offset (text.toList ++ (i.source ++ sources rest)) = _
    rw [tokensFrom_use htext hi, tokensFrom_sources hrest, literalToken_toList hne]
    rfl
  | .directive i :: rest, ⟨hi, hrest⟩, offset => by
    rw [sources_cons]
    show tokensFrom offset ([] ++ (i.source ++ sources rest)) = _
    rw [tokensFrom_use not_mentions_nil hi, tokensFrom_sources hrest]
    rfl

/-- **A text is read as tokens just when they make it up and are canonical.** -/
theorem tokensFrom_eq_ok_iff {offset : Nat} {cs : List Char} {tokens : List Token} :
    tokensFrom offset cs = .ok tokens ↔ sources tokens = cs ∧ Canonical tokens := by
  refine ⟨canonical_of_tokensFrom, ?_⟩
  rintro ⟨rfl, h⟩
  exact tokensFrom_sources h offset

end Directive

end WindowQuery
