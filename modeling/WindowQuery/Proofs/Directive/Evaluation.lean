import WindowQuery.Directive.Expansion
import WindowQuery.Proofs.Directive.Scan

/-!
# What the uses of a text stand for

An expansion goes through the tokens of a text once and carries three
things along: the SQL so far, a fill policy, and whether the text groups by
time. Here each of them is said of the uses alone. A use stands for its
fragment, which depends on nothing but the use and the window
(`Invocation.fragment`); the first use without one ends the expansion with
its error (`ofTokens_eq_error`), and where all have one there is an
expansion (`exists_ofTokens`). The text groups by time if some use does
(`timeGrouped_ofTokens`), and its fill policy is the last one chosen
(`fill_ofTokens`).
-/

namespace WindowQuery

/-- How a policy is spelled as an argument. -/
def FillPolicy.spelling : FillPolicy → String
  | null => "NULL"
  | previous => "previous"
  | zero => "0"

/-- **Only the spelling of a policy is read as it.** -/
theorem FillPolicy.ofArgument?_eq_some_iff {argument : String} {p : FillPolicy} :
    ofArgument? argument = some p ↔ argument = p.spelling := by
  unfold ofArgument?
  constructor
  · intro h
    split at h
    · next ha => exact ha.trans (by rw [← Option.some.inj h]; rfl)
    split at h
    · next ha => exact ha.trans (by rw [← Option.some.inj h]; rfl)
    split at h
    · next ha => exact ha.trans (by rw [← Option.some.inj h]; rfl)
    · cases h
  · rintro rfl
    cases p <;> decide

@[simp] theorem Expansion.sql_append (a b : Expansion) : (a ++ b).sql = a.sql ++ b.sql := rfl

@[simp] theorem Expansion.fill_append (a b : Expansion) : (a ++ b).fill = b.fill.or a.fill := rfl

@[simp] theorem Expansion.timeGrouped_append (a b : Expansion) :
    (a ++ b).timeGrouped = (a.timeGrouped || b.timeGrouped) := rfl

namespace Directive

/-! ## One use -/

theorem name_injective {c d : Directive} (h : c.name = d.name) : c = d := by
  cases c <;> cases d <;> first | rfl | exact absurd h (by decide)

/-- **The directive of a name** is the one that has it. -/
theorem ofName?_eq_some_iff {name : String} {d : Directive} :
    ofName? name = some d ↔ d.name = name := by
  unfold ofName?
  constructor
  · intro h
    exact beq_iff_eq.1 (List.find?_some (p := fun d : Directive => d.name == name) h)
  · rintro rfl
    cases hfind : all.find? (fun c => c.name == d.name) with
    | none => exact absurd (beq_self_eq_true d.name) (List.find?_eq_none.1 hfind d (mem_all d))
    | some c =>
      have hname := List.find?_some (p := fun c : Directive => c.name == d.name) hfind
      rw [name_injective (beq_iff_eq.1 hname)]

/-- **What a use stands for** in a window: the fragment of the directive that
has its name. -/
def Invocation.fragment (i : Invocation) (w : TimeWindow) : Except DirectiveError Fragment :=
  match ofName? i.name with
  | none => .error (.unknown i.name)
  | some d => d.evaluate (i.arguments d.takesSeveral) w

/-- **A use chooses a fill policy** if it is one of the grouping directive and
its third argument spells the policy. -/
def Invocation.Chooses (i : Invocation) (p : FillPolicy) : Prop :=
  i.name = timeGroup.name ∧ (i.arguments true)[2]? = some p.spelling

/-- Only the grouping directive chooses a fill policy. -/
theorem fill_evaluate {d : Directive} {arguments : List String} {w : TimeWindow} {f : Fragment}
    (hd : d ≠ timeGroup) (h : d.evaluate arguments w = .ok f) : f.fill = none := by
  -- apart from the grouping there are directives of a first argument and directives of none
  have hfirst : ∀ {c : Directive} {what : String} {sql : String → String},
      (c.first what arguments).map (fun a => Fragment.ofSql (sql a)) = .ok f → f.fill = none := by
    intro c what sql h
    obtain ⟨-, -, rfl⟩ := exists_of_map_eq_ok h
    rfl
  have hif : ∀ {p : Bool} {e : DirectiveError} {sql : String},
      (if p = true then Except.ok (Fragment.ofSql sql) else .error e) = .ok f → f.fill = none := by
    intro p e sql h
    obtain ⟨-, h⟩ := (ite_eq_iff.1 h).resolve_right (fun h => by cases h.2)
    rw [← Except.ok.inj h]
    rfl
  cases d with
  | time => exact hfirst h
  | timeFilter => exact hfirst h
  | timeFrom => exact hif h
  | timeTo => exact hif h
  | expandMultiString =>
    obtain ⟨-, h⟩ := (ite_eq_iff.1 h).resolve_left (fun h => by cases h.2)
    rw [← Except.ok.inj h]
    rfl
  | timeGroup => exact absurd rfl hd
  | unixEpochFilter => exact hfirst h

/-- The fill policy of a grouping is that of its third argument. -/
theorem fill_evaluateGroup {arguments : List String} {f : Fragment}
    (h : evaluateGroup arguments = .ok f) :
    f.fill = arguments[2]?.bind FillPolicy.ofArgument? := by
  match arguments, h with
  | [], h => cases h
  | [_], h => cases h
  | column :: width :: more, h =>
    unfold evaluateGroup at h
    dsimp only at h
    cases hwidth : interval? width with
    | none => rw [hwidth] at h; cases h
    | some i =>
      rw [hwidth] at h
      rw [← Except.ok.inj h, List.head?_eq_getElem?]
      rfl

/-- **The fill policy of a fragment is the one that its use chooses.** -/
theorem Invocation.fill_fragment {i : Invocation} {w : TimeWindow} {f : Fragment}
    (h : i.fragment w = .ok f) {p : FillPolicy} : f.fill = some p ↔ i.Chooses p := by
  unfold fragment at h
  unfold Chooses
  cases hd : ofName? i.name with
  | none => rw [hd] at h; cases h
  | some d =>
    rw [hd] at h
    rw [← ofName?_eq_some_iff.1 hd]
    by_cases hgroup : d = timeGroup
    · subst hgroup
      rw [fill_evaluateGroup h, Option.bind_eq_some_iff]
      simp only [FillPolicy.ofArgument?_eq_some_iff, exists_eq_right, true_and]
      rfl
    · rw [fill_evaluate hgroup h]
      exact ⟨fun hnone => (by cases hnone), fun hc => absurd (name_injective hc.1) hgroup⟩

/-- The expansion of a use is its fragment, with a note of whether it groups by
time. -/
theorem ofInvocation_eq (i : Invocation) (w : TimeWindow) :
    Expansion.ofInvocation w i = (i.fragment w).map (fun f =>
      ⟨f.sql, f.fill, decide (i.name = timeGroup.name)⟩) := by
  unfold Expansion.ofInvocation Invocation.fragment
  cases hd : ofName? i.name with
  | none => rfl
  | some d =>
    have hgroup : (d == timeGroup) = decide (i.name = timeGroup.name) := by
      rw [← ofName?_eq_some_iff.1 hd]
      by_cases h : d = timeGroup
      · rw [h]
        rfl
      · rw [beq_false_of_ne h, decide_eq_false (fun he => h (name_injective he))]
    simp only [hgroup]

/-! ## Tokens one after the other -/

/-- The use of a token, if it is one. -/
def Token.use? : Token → Option Invocation
  | literal _ => none
  | directive i => some i

/-- **The uses among some tokens**, in order. -/
def uses (tokens : List Token) : List Invocation := tokens.filterMap Token.use?

@[simp] theorem uses_literal_cons (text : String) (rest : List Token) :
    uses (.literal text :: rest) = uses rest := rfl

@[simp] theorem uses_directive_cons (i : Invocation) (rest : List Token) :
    uses (.directive i :: rest) = i :: uses rest := rfl

section Tokens

variable {w : TimeWindow} {tokens : List Token} {x : Expansion}

/-- The expansion of tokens is that of the first one and then that of the
others. -/
theorem ofTokens_cons_eq_ok {t : Token} {rest : List Token}
    (h : Expansion.ofTokens w (t :: rest) = .ok x) :
    ∃ one more, Expansion.ofToken w t = .ok one ∧ Expansion.ofTokens w rest = .ok more ∧
      x = one ++ more := by
  obtain ⟨one, hone, h⟩ := exists_of_bind_eq_ok h
  obtain ⟨more, hmore, rfl⟩ := exists_of_map_eq_ok h
  exact ⟨one, more, hone, hmore, rfl⟩

/-- **The first use without a fragment ends the expansion** with its error. -/
theorem ofTokens_eq_error {before after : List Invocation} {i : Invocation} {e : DirectiveError}
    (huses : uses tokens = before ++ i :: after)
    (hbefore : ∀ j ∈ before, ∃ f, j.fragment w = .ok f) (hi : i.fragment w = .error e) :
    Expansion.ofTokens w tokens = .error e := by
  induction tokens generalizing before with
  | nil => cases before <;> cases huses
  | cons t rest ih =>
    cases t with
    | literal text =>
      show (Expansion.ofTokens w rest).map _ = _
      rw [ih huses hbefore]
      rfl
    | directive j =>
      show (Expansion.ofInvocation w j).bind _ = _
      rw [ofInvocation_eq]
      -- the use that fails is this one, or it comes in the rest and this one has a fragment
      cases before with
      | nil =>
        obtain ⟨rfl, -⟩ := List.cons.inj huses
        rw [hi]
        rfl
      | cons b before =>
        obtain ⟨rfl, hrest⟩ := List.cons.inj huses
        obtain ⟨f, hf⟩ := hbefore j List.mem_cons_self
        rw [hf]
        show (Expansion.ofTokens w rest).map _ = _
        rw [ih hrest (fun k hk => hbefore k (List.mem_cons_of_mem _ hk))]
        rfl

/-- **Where every use has a fragment there is an expansion.** -/
theorem exists_ofTokens (h : ∀ i ∈ uses tokens, ∃ f, i.fragment w = .ok f) :
    ∃ x, Expansion.ofTokens w tokens = .ok x := by
  induction tokens with
  | nil => exact ⟨_, rfl⟩
  | cons t rest ih =>
    cases t with
    | literal text =>
      obtain ⟨more, hmore⟩ := ih h
      refine ⟨⟨text, none, false⟩ ++ more, ?_⟩
      show (Expansion.ofTokens w rest).map _ = _
      rw [hmore]
      rfl
    | directive i =>
      obtain ⟨f, hf⟩ := h i List.mem_cons_self
      obtain ⟨more, hmore⟩ := ih (fun j hj => h j (List.mem_cons_of_mem _ hj))
      refine ⟨⟨f.sql, f.fill, decide (i.name = timeGroup.name)⟩ ++ more, ?_⟩
      show (Expansion.ofInvocation w i).bind _ = _
      rw [ofInvocation_eq, hf, hmore]
      rfl

theorem ofTokens_directive_cons_eq_ok {i : Invocation} {rest : List Token}
    (h : Expansion.ofTokens w (.directive i :: rest) = .ok x) :
    ∃ f more, i.fragment w = .ok f ∧ Expansion.ofTokens w rest = .ok more ∧
      x = ⟨f.sql, f.fill, decide (i.name = timeGroup.name)⟩ ++ more := by
  obtain ⟨one, more, hone, hmore, rfl⟩ := ofTokens_cons_eq_ok h
  rw [Expansion.ofToken, ofInvocation_eq] at hone
  obtain ⟨f, hf, rfl⟩ := exists_of_map_eq_ok hone
  exact ⟨f, more, hf, hmore, rfl⟩

theorem ofTokens_literal_cons_eq_ok {text : String} {rest : List Token}
    (h : Expansion.ofTokens w (.literal text :: rest) = .ok x) :
    ∃ more, Expansion.ofTokens w rest = .ok more ∧ x = ⟨text, none, false⟩ ++ more := by
  obtain ⟨one, more, hone, hmore, rfl⟩ := ofTokens_cons_eq_ok h
  obtain rfl := Except.ok.inj hone
  exact ⟨more, hmore, rfl⟩

/-- **A text groups by time just if some use of it does.** -/
theorem timeGrouped_ofTokens (h : Expansion.ofTokens w tokens = .ok x) :
    x.timeGrouped = true ↔ ∃ i ∈ uses tokens, i.name = timeGroup.name := by
  induction tokens generalizing x with
  | nil =>
    obtain rfl := Except.ok.inj h
    exact ⟨fun hg => Bool.noConfusion hg, fun ⟨i, hi, _⟩ => (by cases hi)⟩
  | cons t rest ih =>
    cases t with
    | literal text =>
      obtain ⟨more, hmore, rfl⟩ := ofTokens_literal_cons_eq_ok h
      rw [Expansion.timeGrouped_append, Bool.false_or, ih hmore, uses_literal_cons]
    | directive i =>
      obtain ⟨f, more, -, hmore, rfl⟩ := ofTokens_directive_cons_eq_ok h
      rw [Expansion.timeGrouped_append, Bool.or_eq_true, decide_eq_true_iff, ih hmore,
        uses_directive_cons]
      simp only [List.mem_cons, exists_eq_or_imp]

/-- **The fill policy of a text is the last one that a use chooses.** -/
theorem fill_ofTokens (h : Expansion.ofTokens w tokens = .ok x) :
    x.fill = (uses tokens).reverse.findSome? (fun i =>
      (i.fragment w).toOption.bind Fragment.fill) := by
  induction tokens generalizing x with
  | nil =>
    obtain rfl := Except.ok.inj h
    rfl
  | cons t rest ih =>
    cases t with
    | literal text =>
      obtain ⟨more, hmore, rfl⟩ := ofTokens_literal_cons_eq_ok h
      rw [Expansion.fill_append, Option.or_none, ih hmore, uses_literal_cons]
    | directive i =>
      obtain ⟨f, more, hf, hmore, rfl⟩ := ofTokens_directive_cons_eq_ok h
      rw [Expansion.fill_append, ih hmore, uses_directive_cons, List.reverse_cons,
        List.findSome?_append, List.findSome?_singleton, hf]
      rfl

end Tokens

end Directive

end WindowQuery
