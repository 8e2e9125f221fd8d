import WindowQuery.Proofs.Directive.Evaluation
import WindowQuery.Proofs.Directive.Unclosed

/-!
# Two texts, one after the other

Texts that are put together from pieces can be expanded piece by piece if
no directive is cut between them. All that has to be said of the place is
said of the second text: its first character goes on no name and opens no
list (`Detached`). Of the first text it is enough that it can be expanded,
for then all lists in it are closed.

The argument follows the scan. Each of its moves through the first text is
a move through both of them (`Step.append`), passes the same token and
leaves the second text as it is; so what a move adds to an expansion it
adds in front of whatever comes later (`Step.expandFrom_append`), and what
all moves add is the expansion of the first text
(`Reaches.expandFrom_append`). There the scan stands before the second
text, at an offset that only an error shows.
-/

namespace WindowQuery

/-- An error in a text that so many bytes more are before: an offset counts them
too, and nothing else changes. -/
def DirectiveError.later (n : Nat) : DirectiveError → DirectiveError
  | unterminated name offset => unterminated name (n + offset)
  | e => e

namespace Expansion

theorem empty_append (a : Expansion) : empty ++ a = a := by
  show Expansion.mk ("" ++ a.sql) (a.fill.or none) (false || a.timeGrouped) = a
  rw [String.empty_append, Option.or_none, Bool.false_or]

theorem append_empty (a : Expansion) : a ++ empty = a := by
  show Expansion.mk (a.sql ++ "") (none.or a.fill) (a.timeGrouped || false) = a
  rw [String.append_empty, Option.none_or, Bool.or_false]

theorem append_assoc (a b c : Expansion) : a ++ b ++ c = a ++ (b ++ c) := by
  show Expansion.mk (a.sql ++ b.sql ++ c.sql) (c.fill.or (b.fill.or a.fill))
      (a.timeGrouped || b.timeGrouped || c.timeGrouped) =
    Expansion.mk (a.sql ++ (b.sql ++ c.sql)) ((c.fill.or b.fill).or a.fill)
      (a.timeGrouped || (b.timeGrouped || c.timeGrouped))
  rw [String.append_assoc, Option.or_assoc, Bool.or_assoc]

end Expansion

namespace Directive

/-! ## The place between the texts -/

/-- **A text that goes on nothing**: it is empty, or its first character belongs to
no name and opens no list. -/
def Detached (cs : List Char) : Prop := ∀ c ∈ cs.head?, isWord c = false ∧ c ≠ '('

theorem detached_nil : Detached [] := fun _ h => by cases h

theorem detached_cons {c : Char} {cs : List Char} :
    Detached (c :: cs) ↔ isWord c = false ∧ c ≠ '(' := Text.forall_head?_cons

instance decidableDetached : (cs : List Char) → Decidable (Detached cs)
  | [] => isTrue detached_nil
  | _ :: _ => decidable_of_iff _ detached_cons.symm

theorem Detached.endsName {cs : List Char} (h : Detached cs) : EndsName cs :=
  fun c hc => (h c hc).1

theorem EndsName.append {as bs : List Char} (has : EndsName as) (hbs : EndsName bs) :
    EndsName (as ++ bs) := by
  cases as with
  | nil => exact hbs
  | cons a as => exact endsName_cons.2 (endsName_cons.1 has)

/-- **A use is as whole with the second text after it.** -/
theorem Invocation.StandsBefore.append {i : Invocation} {rest bs : List Char}
    (h : i.StandsBefore rest) (hbs : Detached bs) : i.StandsBefore (rest ++ bs) where
  name := h.name
  maximal := by
    rw [← List.append_assoc]
    exact h.maximal.append hbs.endsName
  noList := by
    intro hnone
    cases rest with
    | nil => exact fun hhead => (hbs _ hhead).2 rfl
    | cons c rest => exact h.noList hnone
  balanced := h.balanced

/-- **A move through the first text is a move through both.** -/
theorem Step.append {cs rest bs : List Char} (h : Step cs rest) (hbs : Detached bs) :
    Step (cs ++ bs) (rest ++ bs) := by
  cases h with
  | pass c rest hnot =>
    refine .pass c (rest ++ bs) (fun ho => hnot ?_)
    exact (opens_append_iff (List.cons_ne_nil c rest) hbs.endsName).1 ho
  | use i rest hi =>
    rw [List.append_assoc]
    exact .use i (rest ++ bs) (hi.append hbs)

/-! ## What a move adds -/

/-- The expansion of a text that lies at an offset. -/
def expandFrom (w : TimeWindow) (offset : Nat) (cs : List Char) :
    Except DirectiveError Expansion :=
  (tokensFrom offset cs).bind (Expansion.ofTokens w)

section Moves

variable {w : TimeWindow} {x : Expansion}

/-- A character that goes on a literal goes before its expansion. -/
theorem ofTokens_consLiteral (c : Char) (tokens : List Token) :
    Expansion.ofTokens w (consLiteral c tokens) =
      (Expansion.ofTokens w tokens).map (⟨String.ofList [c], none, false⟩ ++ ·) := by
  have hliteral : ∀ (text : String) (rest : List Token),
      Expansion.ofTokens w (.literal text :: rest) =
        (Expansion.ofTokens w rest).map (⟨text, none, false⟩ ++ ·) := fun _ _ => rfl
  match tokens with
  | [] => exact hliteral _ _
  | .directive i :: rest => exact hliteral _ _
  | .literal text :: rest =>
    rw [consLiteral, hliteral, hliteral, map_map]
    refine congrArg (fun f => Except.map f _) (funext fun more => ?_)
    rw [← Expansion.append_assoc]
    refine congrArg (· ++ more) ?_
    show Expansion.mk (String.ofList (c :: text.toList)) none false =
      Expansion.mk (String.ofList [c] ++ text) none false
    rw [← List.singleton_append, String.ofList_append, String.ofList_toList]

theorem expandFrom_pass {c : Char} {rest : List Char} (h : ¬Opens (c :: rest)) (offset : Nat) :
    expandFrom w offset (c :: rest) = (expandFrom w (offset + Text.byteLength [c]) rest).map
      (⟨String.ofList [c], none, false⟩ ++ ·) := by
  unfold expandFrom
  rw [tokensFrom_pass h]
  cases tokensFrom (offset + Text.byteLength [c]) rest with
  | error e => rfl
  | ok tokens => exact ofTokens_consLiteral c tokens

/-- Over a use: what it expands to comes first, if all that comes later can be
read. -/
theorem expandFrom_use {i : Invocation} {rest : List Char} (h : i.StandsBefore rest)
    (offset : Nat) :
    expandFrom w offset (i.source ++ rest) =
      (tokensFrom (offset + Text.byteLength i.source) rest).bind (fun tokens =>
        (Expansion.ofInvocation w i).bind (fun e =>
          (Expansion.ofTokens w tokens).map (e ++ ·))) := by
  unfold expandFrom
  rw [tokensFrom_source h]
  cases tokensFrom (offset + Text.byteLength i.source) rest with
  | error e => rfl
  | ok tokens => rfl

theorem expandFrom_use_of_ok {i : Invocation} {rest : List Char} {e : Expansion}
    (h : i.StandsBefore rest) (he : Expansion.ofInvocation w i = .ok e) (offset : Nat) :
    expandFrom w offset (i.source ++ rest) =
      (expandFrom w (offset + Text.byteLength i.source) rest).map (e ++ ·) := by
  rw [expandFrom_use h, he]
  unfold expandFrom
  cases tokensFrom (offset + Text.byteLength i.source) rest <;> rfl

/-- **What a move adds to an expansion**, it adds whatever text follows. -/
theorem Step.expandFrom_append {cs rest : List Char} (h : Step cs rest) {offset : Nat}
    (hx : expandFrom w offset cs = .ok x) :
    ∃ before e, cs = before ++ rest ∧ ∀ bs, Detached bs → ∀ offset,
      expandFrom w offset (cs ++ bs) =
        (expandFrom w (offset + Text.byteLength before) (rest ++ bs)).map (e ++ ·) := by
  cases h with
  | pass c rest hnot =>
    refine ⟨[c], ⟨String.ofList [c], none, false⟩, rfl, fun bs hbs offset => ?_⟩
    refine expandFrom_pass (fun ho => hnot ?_) offset
    exact (opens_append_iff (List.cons_ne_nil c rest) hbs.endsName).1 ho
  | use i rest hi =>
    rw [expandFrom_use hi] at hx
    obtain ⟨tokens, -, hx⟩ := exists_of_bind_eq_ok hx
    obtain ⟨e, he, -⟩ := exists_of_bind_eq_ok hx
    refine ⟨i.source, e, rfl, fun bs hbs offset => ?_⟩
    rw [List.append_assoc]
    exact expandFrom_use_of_ok (hi.append hbs) he offset

/-- **What a run to the end adds to an expansion** is the expansion of the text. -/
theorem Reaches.expandFrom_append {cs : List Char} (h : Reaches cs []) {offset : Nat}
    (hx : expandFrom w offset cs = .ok x) {bs : List Char} (hbs : Detached bs) (offset' : Nat) :
    expandFrom w offset' (cs ++ bs) =
      (expandFrom w (offset' + Text.byteLength cs) bs).map (x ++ ·) := by
  induction h using Relation.ReflTransGen.head_induction_on generalizing offset offset' x with
  | refl =>
    have hnil : expandFrom w offset [] = .ok .empty := by
      rw [expandFrom, tokensFrom_literal not_mentions_nil]
      rfl
    obtain rfl := Except.ok.inj (hnil.symm.trans hx)
    simp only [Expansion.empty_append, Text.byteLength_nil, Nat.add_zero, List.nil_append]
    cases expandFrom w offset' bs <;> rfl
  | head hstep _ ih =>
    obtain ⟨before, e, rfl, hadd⟩ := hstep.expandFrom_append hx
    -- The move alone, with nothing after the text, tells what the rest of the run adds.
    have halone := hadd [] detached_nil offset
    rw [List.append_nil, List.append_nil, hx] at halone
    obtain ⟨y, hy, rfl⟩ := exists_of_map_eq_ok halone.symm
    rw [hadd bs hbs, ih hy, map_map, Text.byteLength_append, Nat.add_assoc]
    simp only [Expansion.append_assoc]

end Moves

/-! ## Errors at a later place -/

/-- **The place of a text shows in the offset of an error only.** -/
theorem tokensFrom_later (n offset : Nat) (cs : List Char) :
    tokensFrom (n + offset) cs = (tokensFrom offset cs).mapError (·.later n) := by
  cases h : tokensFrom offset cs with
  | ok tokens => exact tokensFrom_eq_ok_iff.2 (tokensFrom_eq_ok_iff.1 h)
  | error e =>
    obtain ⟨before, name, rest, hcs, hreach, hopen, rfl⟩ := tokensFrom_eq_error_iff.1 h
    refine tokensFrom_eq_error_iff.2 ⟨before, name, rest, hcs, hreach, hopen, ?_⟩
    exact congrArg (DirectiveError.unterminated _) (Nat.add_assoc n offset _).symm

/-- What is wrong with the arguments of a directive has no offset. -/
theorem later_of_evaluate {d : Directive} {arguments : List String} {w : TimeWindow}
    {e : DirectiveError} (h : d.evaluate arguments w = .error e) (n : Nat) : e.later n = e := by
  -- only a list that is not closed has an offset, and no directive reports one
  have hfirst : ∀ {c : Directive} {what : String} {f : String → Fragment},
      (c.first what arguments).map f = .error e → e.later n = e := by
    intro c what f h
    rw [map_eq_error_iff] at h
    cases arguments with
    | nil => rw [← Except.error.inj h]; rfl
    | cons a more => cases h
  have hif : ∀ {p : Bool} {f : Fragment} {name : String},
      (if p = true then Except.ok f else .error (.unexpectedArguments name)) = .error e →
        e.later n = e := by
    intro p f name h
    obtain ⟨-, h⟩ := (ite_eq_iff.1 h).resolve_left (fun h => by cases h.2)
    rw [← Except.error.inj h]
    rfl
  cases d with
  | time => exact hfirst h
  | timeFilter => exact hfirst h
  | timeFrom => exact hif h
  | timeTo => exact hif h
  | expandMultiString =>
    obtain ⟨-, h⟩ := (ite_eq_iff.1 h).resolve_right (fun h => by cases h.2)
    rw [← Except.error.inj h]
    rfl
  | timeGroup =>
    match arguments, h with
    | [], h => rw [← Except.error.inj h]; rfl
    | [_], h => rw [← Except.error.inj h]; rfl
    | column :: width :: more, h =>
      unfold evaluate evaluateGroup at h
      dsimp only at h
      cases hwidth : interval? width with
      | none => rw [hwidth] at h; rw [← Except.error.inj h]; rfl
      | some i => rw [hwidth] at h; cases h
  | unixEpochFilter => exact hfirst h

theorem later_of_fragment {i : Invocation} {w : TimeWindow} {e : DirectiveError}
    (h : i.fragment w = .error e) (n : Nat) : e.later n = e := by
  unfold Invocation.fragment at h
  cases hd : ofName? i.name with
  | none => rw [hd] at h; rw [← Except.error.inj h]; rfl
  | some d => rw [hd] at h; exact later_of_evaluate h n

/-- **Errors of tokens have no offset**, so they stay the same where another text
goes before. Only a list that is not closed has one, and that is an error of
reading. -/
theorem later_of_ofTokens {w : TimeWindow} {tokens : List Token} {e : DirectiveError}
    (h : Expansion.ofTokens w tokens = .error e) (n : Nat) : e.later n = e := by
  induction tokens with
  | nil => cases h
  | cons t rest ih =>
    cases t with
    | literal text =>
      have hrest : (Expansion.ofTokens w rest).map _ = .error e := h
      exact ih (map_eq_error_iff.1 hrest)
    | directive i =>
      have huse : (Expansion.ofInvocation w i).bind _ = .error e := h
      rw [ofInvocation_eq] at huse
      cases hi : i.fragment w with
      | error e' =>
        rw [hi] at huse
        obtain rfl := Except.error.inj huse
        exact later_of_fragment hi n
      | ok f =>
        rw [hi] at huse
        exact ih (map_eq_error_iff.1 huse)

/-- **The expansion of a text at a later place.** -/
theorem expandFrom_later (w : TimeWindow) (n offset : Nat) (cs : List Char) :
    expandFrom w (n + offset) cs = (expandFrom w offset cs).mapError (·.later n) := by
  unfold expandFrom
  rw [tokensFrom_later, ← bind_mapError]
  refine congrArg (Except.bind _) (funext fun tokens => ?_)
  cases h : Expansion.ofTokens w tokens with
  | ok x => rfl
  | error e => exact congrArg Except.error (later_of_ofTokens h n).symm

/-! ## Expansion of both -/

/-- The scan of a text that can be expanded comes to its end. -/
theorem reaches_nil_of_expand {a : String} {w : TimeWindow} {x : Expansion}
    (h : expand a w = .ok x) : Reaches a.toList [] := by
  obtain ⟨tokens, htokens, -⟩ := exists_of_bind_eq_ok h
  obtain ⟨rest, hreach, rfl | ⟨name, hopen⟩⟩ := exists_reaches a.toList
  · exact hreach
  · obtain ⟨before, hcs, -⟩ := hreach.error_iff 0
    have herror : tokenize a = .error _ :=
      tokensFrom_zero_eq_error_iff.2 ⟨before, name, rest, hcs, hreach, hopen, rfl⟩
    rw [htokens] at herror
    cases herror

/-- **Two texts are expanded one after the other.** The second one goes on nothing.
If it can be expanded, so can both together: the SQL of the one follows
that of the other, either may group by time, and the fill policy is that of
the second one if it chooses any. If it cannot, its error is the error of
both, and an offset in it counts the bytes of the first text as well. -/
theorem expand_append {a b : String} {w : TimeWindow} {x : Expansion}
    (ha : expand a w = .ok x) (hb : Detached b.toList) :
    (∀ y, expand b w = .ok y → expand (a ++ b) w =
      .ok ⟨x.sql ++ y.sql, y.fill.or x.fill, x.timeGrouped || y.timeGrouped⟩) ∧
    (∀ e, expand b w = .error e →
      expand (a ++ b) w = .error (e.later (Text.byteLength a.toList))) := by
  have hboth : expand (a ++ b) w =
      ((expand b w).mapError (·.later (Text.byteLength a.toList))).map (x ++ ·) := by
    show expandFrom w 0 (a ++ b).toList = _
    rw [String.toList_append, (reaches_nil_of_expand ha).expandFrom_append ha hb 0,
      Nat.add_comm 0, expandFrom_later]
    rfl
  constructor
  · intro y hy
    rw [hboth, hy]
    rfl
  · intro e he
    rw [hboth, he]
    rfl

/-- A text that ends in a name may be followed by a dollar sign. A second text that
groups by time and chooses no fill policy leaves that of the first one;
where it has a name that nobody knows, that is the error of both; and where
it has a list that is not closed, the two bytes of `é` are counted. -/
theorem expand_append_bareName :
    expand "é$__timeGroup(t,1m,0),$__timeFrom" ⟨.epoch, .epoch⟩ =
        .ok ⟨"é" ++ bucketSql "t" "60" ++ ",'1970-01-01T00:00:00Z'", some .zero, true⟩ ∧
      (Detached "$__timeGroup(u,2m)$_".toList ∧
        expand ("é$__timeGroup(t,1m,0),$__timeFrom" ++ "$__timeGroup(u,2m)$_")
          ⟨.epoch, .epoch⟩ = .ok ⟨"é" ++ bucketSql "t" "60" ++ ",'1970-01-01T00:00:00Z'" ++
            (bucketSql "u" "120" ++ "$_"), some .zero, true⟩) ∧
      (Detached "$__x($__y)(".toList ∧
        expand ("é$__timeGroup(t,1m,0),$__timeFrom" ++ "$__x($__y)(") ⟨.epoch, .epoch⟩ =
          .error (.unknown "__x")) ∧
      (Detached " $__x((".toList ∧
        expand ("é$__timeGroup(t,1m,0),$__timeFrom" ++ " $__x((") ⟨.epoch, .epoch⟩ =
          .error (.unterminated "__x" 35)) := by
  have ha : expand "é$__timeGroup(t,1m,0),$__timeFrom" ⟨.epoch, .epoch⟩ =
      .ok ⟨"é" ++ bucketSql "t" "60" ++ ",'1970-01-01T00:00:00Z'", some .zero, true⟩ := by
    decide +kernel
  have hgrouped : Detached "$__timeGroup(u,2m)$_".toList := by decide
  have hunknown : Detached "$__x($__y)(".toList := by decide
  have hopen : Detached " $__x((".toList := by decide
  refine ⟨ha, ⟨hgrouped, ?_⟩, ⟨hunknown, ?_⟩, ⟨hopen, ?_⟩⟩
  · exact (expand_append ha hgrouped).1 ⟨bucketSql "u" "120" ++ "$_", none, true⟩
      (by decide +kernel)
  · exact (expand_append ha hunknown).2 (.unknown "__x") (by decide +kernel)
  · exact (expand_append ha hopen).2 (.unterminated "__x" 1) (by decide +kernel)

end Directive

end WindowQuery
