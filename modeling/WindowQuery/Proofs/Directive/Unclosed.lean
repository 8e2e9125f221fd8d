import Mathlib.Logic.Relation
import WindowQuery.Proofs.Directive.Scan

/-!
# The first list that is not closed

The scan for directives moves on through a text. At a place where no
directive opens it passes over one character, and at a whole use of a
directive it passes over all of it. `Step` is this and nothing else: a
relation between what is left before a move and after it, in which no
offset, no token and no error occurs.

There is never a choice between two moves (`Step.unique`), and there is
none to make in two cases only: at the end, and at the name of a directive
whose list is not closed (`Unclosed`). Every move leaves less of the text,
so the scan gets to one of the two, and which one decides whether the text
can be read. Of the lists that are not closed the scan meets at most one:
from where it meets one it does not move on. A list that is not closed
within a list that is, or after another one, is not met.
-/

namespace WindowQuery

namespace Directive

/-! ## Lists that are not closed -/

/-- **A name before a list that is not closed**: at no place after the parenthesis
that opens it have as many been closed as are open. -/
def Unclosed (name cs : List Char) : Prop :=
  ∃ after, cs = '$' :: (name ++ '(' :: after) ∧ IsName name ∧
    ∀ p, p <+: after → p.count '(' + 1 ≠ p.count ')'

/-- The scan for a closing parenthesis finds none just if at no place all that
are open have been closed. -/
theorem closing?_eq_none_iff {depth : Nat} {cs : List Char} :
    closing? depth cs = none ↔ ∀ p, p <+: cs → depth + p.count '(' + 1 ≠ p.count ')' := by
  induction cs generalizing depth with
  | nil =>
    refine ⟨fun _ p hp => ?_, fun _ => rfl⟩
    rw [List.prefix_nil.1 hp]
    exact Nat.succ_ne_zero _
  | cons c cs ih =>
    rw [forall_prefix_cons]
    unfold closing?
    by_cases hc : c = ')'
    · subst hc
      have hcount := count_cons_close
      rw [if_pos rfl]
      cases depth with
      | zero =>
        -- the first character closes the list
        exact ⟨fun h => (by cases h), fun h => absurd rfl (h.2 [] List.nil_prefix)⟩
      | succ inner =>
        rw [Option.map_eq_none_iff, ih]
        refine ⟨fun h => ⟨Nat.succ_ne_zero _, fun t ht => ?_⟩, fun h t ht => ?_⟩
        · have hne := h t ht
          rw [(hcount t).1, (hcount t).2]
          omega
        · have hne := h.2 t ht
          rw [(hcount t).1, (hcount t).2] at hne
          omega
    · have hclose : ∀ t : List Char, (c :: t).count ')' = t.count ')' := fun t =>
        List.count_cons_of_ne hc
      rw [if_neg hc, Option.map_eq_none_iff, ih]
      simp only [hclose, depth_add_count_cons depth c]
      exact ⟨fun h => ⟨Nat.succ_ne_zero _, h⟩, And.right⟩

/-- **What is read at a list that is not closed**: a name, and no list. -/
theorem unclosed_iff {name cs : List Char} :
    Unclosed name cs ↔ ∃ after, name? cs = some (name, after) ∧ list? after = none := by
  constructor
  · rintro ⟨after, rfl, hname, hopen⟩
    refine ⟨'(' :: after, name?_eq_some_iff.2 ⟨rfl, hname, endsName_cons.2 (by decide)⟩, ?_⟩
    rw [list?, closing?_eq_none_iff.2 (fun p hp => by rw [Nat.zero_add]; exact hopen p hp)]
    rfl
  · rintro ⟨after, hname, hlist⟩
    obtain ⟨rfl, hshape, -⟩ := name?_eq_some_iff.1 hname
    unfold list? at hlist
    split at hlist
    · next r =>
      have hopen := closing?_eq_none_iff.1 (Option.map_eq_none_iff.1 hlist)
      exact ⟨r, rfl, hshape, fun p hp => Nat.zero_add (p.count '(') ▸ hopen p hp⟩
    · cases hlist

theorem Unclosed.opens {name cs : List Char} (h : Unclosed name cs) : Opens cs := by
  obtain ⟨after, rfl, hname, -⟩ := h
  exact hname.opens _

/-! ## Moves of the scan -/

/-- **One move of the scan**, from what is left before it to what is left after
it. -/
inductive Step : List Char → List Char → Prop where
  /-- Over a character where no directive opens. -/
  | pass (c : Char) (rest : List Char) : ¬Opens (c :: rest) → Step (c :: rest) rest
  /-- Over a whole use of a directive. -/
  | use (i : Invocation) (rest : List Char) : i.StandsBefore rest → Step (i.source ++ rest) rest

/-- A whole use is what is read where it stands. -/
theorem Invocation.StandsBefore.read {i : Invocation} {rest : List Char} (h : i.StandsBefore rest) :
    name? (i.source ++ rest) = some (i.name.toList, listSource i.list ++ rest) ∧
      list? (listSource i.list ++ rest) = some (i.list, rest) :=
  readUse_iff.2 (by rw [String.ofList_toList]; exact ⟨rfl, rfl, h⟩)

/-- **A move by what is read**: no name, or a name and its list. -/
theorem step_iff {cs rest : List Char} :
    Step cs rest ↔ (¬Opens cs ∧ ∃ c, cs = c :: rest) ∨
      ∃ name after list, name? cs = some (name, after) ∧ list? after = some (list, rest) := by
  constructor
  · intro h
    cases h with
    | pass c rest hnot => exact .inl ⟨hnot, c, rfl⟩
    | use i rest hi => exact .inr ⟨i.name.toList, _, i.list, hi.read⟩
  · rintro (⟨hnot, c, rfl⟩ | ⟨name, after, list, hread⟩)
    · exact .pass c rest hnot
    · obtain ⟨rfl, -, hi⟩ := readUse_iff.1 hread
      exact .use _ rest hi

/-- **There is one move at most.** -/
theorem Step.unique : Relator.RightUnique Step := by
  intro cs a b ha hb
  rcases step_iff.1 ha with ⟨hnot, c, rfl⟩ | ⟨name, after, list, hname, hlist⟩
  · rcases step_iff.1 hb with ⟨-, c', hc'⟩ | ⟨name, after, list, hname, -⟩
    · exact (List.cons.inj hc').2
    · exact absurd (isSome_name?.1 (Option.isSome_of_eq_some hname)) hnot
  · rcases step_iff.1 hb with ⟨hnot, -⟩ | ⟨name', after', list', hname', hlist'⟩
    · exact absurd (isSome_name?.1 (Option.isSome_of_eq_some hname)) hnot
    · obtain ⟨-, rfl⟩ := Prod.mk.inj (Option.some.inj (hname.symm.trans hname'))
      exact (Prod.mk.inj (Option.some.inj (hlist.symm.trans hlist'))).2

theorem Step.length_lt {cs rest : List Char} (h : Step cs rest) : rest.length < cs.length := by
  cases h with
  | pass c rest _ => exact Nat.lt_succ_self _
  | use i rest _ =>
    rw [List.length_append, Invocation.source_eq, List.length_cons]
    omega

/-- **The scan ends**: no text has moves without an end. -/
theorem wellFounded_step : WellFounded (fun rest cs => Step cs rest) :=
  Subrelation.wf Step.length_lt (measure List.length).wf

/-- **Where the scan does not move**: at the end, and at a list that is not
closed. -/
theorem forall_not_step_iff {cs : List Char} :
    (∀ rest, ¬Step cs rest) ↔ cs = [] ∨ ∃ name, Unclosed name cs := by
  constructor
  · intro hstuck
    cases cs with
    | nil => exact .inl rfl
    | cons c cs =>
      by_cases ho : Opens (c :: cs)
      · obtain ⟨⟨name, after⟩, hname⟩ := Option.isSome_iff_exists.1 (isSome_name?.2 ho)
        cases hlist : list? after with
        | none => exact .inr ⟨name, unclosed_iff.2 ⟨after, hname, hlist⟩⟩
        | some found =>
          exact absurd (step_iff.2 (.inr ⟨name, after, found.1, hname, hlist⟩)) (hstuck found.2)
      · exact absurd (Step.pass c cs ho) (hstuck cs)
  · rintro (rfl | ⟨name, hopen⟩) rest hstep
    · exact absurd hstep.length_lt (Nat.not_lt_zero _)
    · obtain ⟨after, hname, hlist⟩ := unclosed_iff.1 hopen
      rcases step_iff.1 hstep with ⟨hnot, -⟩ | ⟨name', after', list, hname', hlist'⟩
      · exact hnot hopen.opens
      · obtain ⟨-, rfl⟩ := Prod.mk.inj (Option.some.inj (hname.symm.trans hname'))
        rw [hlist] at hlist'
        cases hlist'

/-! ## What the scan gets to -/

/-- **The scan gets from a text to what is left of it.** -/
def Reaches : List Char → List Char → Prop := Relation.ReflTransGen Step

/-- Where the scan does not move, it has been to all that it gets to. -/
theorem Reaches.last {cs rest rest' : List Char} (h : Reaches cs rest)
    (hstuck : ∀ next, ¬Step rest next) (h' : Reaches cs rest') : Reaches rest' rest := by
  rcases Relation.ReflTransGen.total_of_right_unique Step.unique h h' with hmore | hmore
  · rcases Relation.ReflTransGen.cases_head hmore with rfl | ⟨next, hstep, -⟩
    · exact .refl
    · exact absurd hstep (hstuck next)
  · exact hmore

/-- **The scan gets to the end or to a list that is not closed.** -/
theorem exists_reaches (cs : List Char) :
    ∃ rest, Reaches cs rest ∧ (rest = [] ∨ ∃ name, Unclosed name rest) := by
  induction cs using wellFounded_step.induction with
  | _ cs ih =>
    by_cases hstuck : ∀ rest, ¬Step cs rest
    · exact ⟨cs, .refl, forall_not_step_iff.1 hstuck⟩
    · obtain ⟨next, hstep⟩ := not_forall_not.1 hstuck
      obtain ⟨rest, hreach, hend⟩ := ih next hstep
      exact ⟨rest, hreach.head hstep, hend⟩

/-! ## Errors, one move at a time -/

theorem untilName_of_opens {cs : List Char} (h : Opens cs) : untilName cs = ([], cs) :=
  untilName_append not_mentions_nil (.inr h)

theorem untilName_cons_of_not_opens {c : Char} {rest : List Char} (h : ¬Opens (c :: rest)) :
    untilName (c :: rest) = (c :: (untilName rest).1, (untilName rest).2) := by
  rw [untilName, if_neg (fun hs => h (isSome_name?.1 hs))]

/-- The reading of a text by its first directive. -/
theorem tokensFrom_eq (offset : Nat) (cs : List Char) :
    tokensFrom offset cs = match name? (untilName cs).2 with
      | none => .ok (literalToken (untilName cs).1)
      | some (name, after) =>
        match list? after with
        | none => .error (.unterminated (String.ofList name)
            (offset + Text.byteLength (untilName cs).1))
        | some (list, rest) =>
          (tokensFrom (offset + Text.byteLength (untilName cs).1 +
              Text.byteLength (Invocation.mk (String.ofList name) list).source) rest).map
            (fun more => literalToken (untilName cs).1 ++
              .directive ⟨String.ofList name, list⟩ :: more) := by
  rw [tokensFrom]
  split
  · next hname => rw [hname]
  · next name after hname =>
    rw [hname]
    split
    · next hlist => simp only [hlist]
    · next list rest hlist => simp only [hlist]

/-- A character that goes on the literal at the front of some tokens, or makes one
there. -/
def consLiteral (c : Char) : List Token → List Token
  | .literal text :: rest => .literal (String.ofList (c :: text.toList)) :: rest
  | tokens => .literal (String.ofList [c]) :: tokens

/-- A literal takes the character; where there is none, the character makes one. -/
theorem consLiteral_literalToken_append (c : Char) (text : List Char) {rest : List Token}
    (hrest : ∀ t ∈ rest.head?, t.isUse = true) :
    consLiteral c (literalToken text ++ rest) = literalToken (c :: text) ++ rest := by
  cases text with
  | cons d text =>
    show [Token.literal (String.ofList (c :: (String.ofList (d :: text)).toList))] ++ rest = _
    rw [String.toList_ofList]
    rfl
  | nil =>
    cases rest with
    | nil => rfl
    | cons t rest =>
      cases t with
      | literal text => exact absurd (hrest _ rfl) Bool.false_ne_true
      | directive i => rfl

/-- **A character where no directive opens** goes before the literal after it, and
changes nothing else. -/
theorem tokensFrom_pass {c : Char} {rest : List Char} (h : ¬Opens (c :: rest)) (offset : Nat) :
    tokensFrom offset (c :: rest) =
      (tokensFrom (offset + Text.byteLength [c]) rest).map (consLiteral c) := by
  have hoffset : offset + Text.byteLength (c :: (untilName rest).1) =
      offset + Text.byteLength [c] + Text.byteLength (untilName rest).1 := by
    rw [← List.singleton_append, Text.byteLength_append, Nat.add_assoc]
  -- both scans stop at the same directive; the character is in the text before it
  rw [tokensFrom_eq offset, tokensFrom_eq (offset + Text.byteLength [c]),
    untilName_cons_of_not_opens h]
  dsimp only
  rw [hoffset]
  cases name? (untilName rest).2 with
  | none =>
    have hend : ∀ t ∈ ([] : List Token).head?, t.isUse = true := fun t ht => by cases ht
    have hjoin := consLiteral_literalToken_append c (untilName rest).1 hend
    rw [List.append_nil, List.append_nil] at hjoin
    exact congrArg Except.ok hjoin.symm
  | some found =>
    cases hlist : list? found.2 with
    | none => simp only [hlist, Except.map]
    | some list =>
      simp only [hlist, map_map]
      refine congrArg (fun f => Except.map f _) (funext fun more => ?_)
      exact (consLiteral_literalToken_append c _ (fun t ht => by
        obtain rfl := Option.some.inj ht
        rfl)).symm

/-- **A whole use of a directive** is a token of its own. -/
theorem tokensFrom_source {i : Invocation} {rest : List Char} (hi : i.StandsBefore rest)
    (offset : Nat) :
    tokensFrom offset (i.source ++ rest) =
      (tokensFrom (offset + Text.byteLength i.source) rest).map (.directive i :: ·) := by
  have huse := tokensFrom_use not_mentions_nil hi offset
  rwa [List.nil_append, Text.byteLength_nil, Nat.add_zero] at huse

/-- **A move leaves an error as it is**, and its offset counts from the same
place. -/
theorem Step.error_iff {cs rest : List Char} (h : Step cs rest) (offset : Nat) :
    ∃ before, cs = before ++ rest ∧ ∀ e, tokensFrom offset cs = .error e ↔
      tokensFrom (offset + Text.byteLength before) rest = .error e := by
  cases h with
  | pass c rest hnot =>
    refine ⟨[c], rfl, fun e => ?_⟩
    rw [tokensFrom_pass hnot, map_eq_error_iff]
  | use i rest hi =>
    refine ⟨i.source, rfl, fun e => ?_⟩
    rw [tokensFrom_source hi, map_eq_error_iff]

/-- **A run of moves leaves an error as it is.** -/
theorem Reaches.error_iff {cs rest : List Char} (h : Reaches cs rest) (offset : Nat) :
    ∃ before, cs = before ++ rest ∧ ∀ e, tokensFrom offset cs = .error e ↔
      tokensFrom (offset + Text.byteLength before) rest = .error e := by
  induction h with
  | refl => exact ⟨[], rfl, fun e => Iff.rfl⟩
  | tail _ hstep ih =>
    obtain ⟨before, hcs, hiff⟩ := ih
    obtain ⟨more, rfl, hmore⟩ := hstep.error_iff (offset + Text.byteLength before)
    refine ⟨before ++ more, by rw [hcs, List.append_assoc], fun e => (hiff e).trans ?_⟩
    rw [Text.byteLength_append, ← Nat.add_assoc]
    exact hmore e

/-- A list that is not closed is the error of the text that begins with it. -/
theorem Unclosed.tokensFrom_eq {name cs : List Char} (h : Unclosed name cs) (offset : Nat) :
    tokensFrom offset cs = .error (.unterminated (String.ofList name) offset) := by
  obtain ⟨after, hname, hlist⟩ := unclosed_iff.1 h
  rw [Directive.tokensFrom_eq, untilName_of_opens h.opens]
  simp only [hname, hlist, Text.byteLength_nil, Nat.add_zero]

/-- **A text cannot be read just if the scan gets to a list that is not closed**,
and the error is that one's. -/
theorem tokensFrom_eq_error_iff {offset : Nat} {cs : List Char} {e : DirectiveError} :
    tokensFrom offset cs = .error e ↔
      ∃ before name rest, cs = before ++ rest ∧ Reaches cs rest ∧ Unclosed name rest ∧
        e = .unterminated (String.ofList name) (offset + Text.byteLength before) := by
  constructor
  · intro h
    obtain ⟨rest, hreach, hend⟩ := exists_reaches cs
    obtain ⟨before, hcs, hiff⟩ := hreach.error_iff offset
    have hrest := (hiff e).1 h
    rcases hend with rfl | ⟨name, hopen⟩
    · rw [tokensFrom_literal not_mentions_nil] at hrest
      cases hrest
    · rw [hopen.tokensFrom_eq] at hrest
      exact ⟨before, name, rest, hcs, hreach, hopen, (Except.error.inj hrest).symm⟩
  · rintro ⟨before, name, rest, hcs, hreach, hopen, rfl⟩
    obtain ⟨before', hcs', hiff⟩ := hreach.error_iff offset
    obtain rfl : before' = before := List.append_cancel_right (hcs'.symm.trans hcs)
    exact (hiff _).2 (hopen.tokensFrom_eq _)

/-- Of a text at the beginning, the error has the number of bytes before it. -/
theorem tokensFrom_zero_eq_error_iff {cs : List Char} {e : DirectiveError} :
    tokensFrom 0 cs = .error e ↔
      ∃ before name rest, cs = before ++ rest ∧ Reaches cs rest ∧ Unclosed name rest ∧
        e = .unterminated (String.ofList name) (Text.byteLength before) := by
  simp only [tokensFrom_eq_error_iff, Nat.zero_add]

end Directive

end WindowQuery
