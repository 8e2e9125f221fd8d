import Mathlib.Data.List.Chain
import WindowQuery.Proofs.Directive.Scan
import WindowQuery.Proofs.Text.Slice

/-!
# The one way to cut up a text

A text that can be read at all is cut into literals and uses of directives
in exactly one way. `Decomposition` lists what the cuts have to meet, and
speaks only of the text and of the cuts: a literal comes without a place,
a use with the offsets between which it lies, and the conditions on a use
(`UseAt`) are about the characters of the text at those offsets. No scan
and no order of reading is in it.

## Why the offsets are forced

That the literals and the uses make up the text one after the other says
what the text is, but not that each use lies where it was taken from: its
offsets might point to another place with the same characters. They cannot,
by counting. The places where directives open in the text are those in the
uses, for no literal has one and none lies across an end. The spans of the
uses are disjoint and so hold, between them, as many openings as there are.
A use that began later than in its turn would leave the opening in its turn
to no span.
-/

namespace WindowQuery

namespace Directive

/-! ## Cuts -/

/-- **A piece of a text as it is reported**: a literal by its text, a use with
the offsets of its span. -/
inductive Cut where
  /-- Text that stays as it is. -/
  | literal (text : String)
  /-- A use of a directive between two offsets. -/
  | use (invocation : Invocation) (start stop : Nat)

/-- The token of a cut. -/
def Cut.token : Cut → Token
  | literal text => .literal text
  | use i _ _ => .directive i

/-- The span of a use. -/
def Cut.span? : Cut → Option (Nat × Nat)
  | literal _ => none
  | use _ start stop => some (start, stop)

/-- The text of a cut of a text: a use has what its span holds. -/
def Cut.text (sql : List Char) : Cut → List Char
  | literal text => text.toList
  | use _ start stop => (Text.slice? sql start stop).getD []

/-- A token with its place as it is reported. -/
def Placed.cut : Placed → Cut
  | ⟨.literal text, _, _⟩ => .literal text
  | ⟨.directive i, start, stop⟩ => .use i start stop

/-- **The cuts that tokens make**, the first one at an offset. -/
def cutsFrom (offset : Nat) (tokens : List Token) : List Cut :=
  (place offset tokens).map Placed.cut

/-! ## What cuts have to meet -/

/-- **A use at its place in a text.** -/
structure UseAt (sql : List Char) (i : Invocation) (start stop : Nat) : Prop where
  /-- The span holds the dollar sign, the name and the list in parentheses. -/
  spells : Text.slice? sql start stop = some i.source
  /-- The span is not empty. -/
  nonempty : start < stop
  /-- The name is two underscores and a word. -/
  name : IsName i.name.toList
  /-- The character after the name does not go on with it. -/
  maximal : ∀ c ∈ Text.charAt? sql (start + 1 + Text.byteLength i.name.toList), isWord c = false
  /-- Without a list, the character after the name opens none. -/
  noList : i.list = none →
    Text.charAt? sql (start + 1 + Text.byteLength i.name.toList) ≠ some '('
  /-- The list is balanced. -/
  balanced : ∀ list ∈ i.list, Balanced list.toList

/-- **A decomposition of a text.** -/
structure Decomposition (sql : List Char) (cuts : List Cut) : Prop where
  /-- Literals and spans, one after the other, are the text. -/
  lossless : cuts.flatMap (Cut.text sql) = sql
  /-- The spans are disjoint and ascend. -/
  ascending : (cuts.filterMap Cut.span?).Pairwise (fun p q => p.2 ≤ q.1)
  /-- No literal is empty, and no directive opens in one. -/
  literals : ∀ text, .literal text ∈ cuts → text ≠ "" ∧ ¬Mentions text.toList
  /-- No two literals are adjacent. -/
  apart : cuts.IsChain (fun a b => a.token.isUse = true ∨ b.token.isUse = true)
  /-- The uses are at their places. -/
  uses : ∀ i start stop, .use i start stop ∈ cuts → UseAt sql i start stop

theorem UseAt.stop_eq {sql : List Char} {i : Invocation} {start stop : Nat}
    (h : UseAt sql i start stop) : stop = start + Text.byteLength i.source := by
  obtain ⟨-, -, -, -, hstop⟩ := Text.slice?_eq_some_iff.1 h.spells
  exact hstop.symm

/-! ## Cuts of tokens -/

@[simp] theorem cutsFrom_literal (offset : Nat) (text : String) (rest : List Token) :
    cutsFrom offset (.literal text :: rest) =
      .literal text :: cutsFrom (offset + Text.byteLength text.toList) rest := rfl

@[simp] theorem cutsFrom_directive (offset : Nat) (i : Invocation) (rest : List Token) :
    cutsFrom offset (.directive i :: rest) =
      .use i offset (offset + Text.byteLength i.source) ::
        cutsFrom (offset + Text.byteLength i.source) rest := rfl

theorem map_token_cutsFrom (offset : Nat) (tokens : List Token) :
    (cutsFrom offset tokens).map Cut.token = tokens := by
  induction tokens generalizing offset with
  | nil => rfl
  | cons t rest ih => cases t <;> exact congrArg (_ :: ·) (ih _)

theorem le_of_mem_cutsFrom {offset : Nat} {tokens : List Token} {span : Nat × Nat}
    (h : span ∈ (cutsFrom offset tokens).filterMap Cut.span?) : offset ≤ span.1 := by
  induction tokens generalizing offset with
  | nil => cases h
  | cons t rest ih =>
    cases t with
    | literal text => exact Nat.le_trans (Nat.le_add_right _ _) (ih h)
    | directive i =>
      rcases List.mem_cons.1 h with rfl | h
      · exact Nat.le_refl _
      · exact Nat.le_trans (Nat.le_add_right _ _) (ih h)

/-- **A use that stands before a text is at its place** between what is before it
and that text, and nothing else is. -/
theorem useAt_append_iff {before rest : List Char} {i : Invocation} {stop : Nat} :
    UseAt (before ++ (i.source ++ rest)) i (Text.byteLength before) stop ↔
      i.StandsBefore rest ∧ stop = Text.byteLength before + Text.byteLength i.source := by
  -- the character after the name is found by its offset, and is the first one after the name
  have hchar : Text.charAt? (before ++ (i.source ++ rest))
      (Text.byteLength before + 1 + Text.byteLength i.name.toList) =
        (listSource i.list ++ rest).head? := by
    have hsplit : before ++ (i.source ++ rest) =
        (before ++ '$' :: i.name.toList) ++ (listSource i.list ++ rest) := by
      rw [i.source_eq]
      simp only [List.cons_append, List.append_assoc]
    have hlength : Text.byteLength (before ++ '$' :: i.name.toList) =
        Text.byteLength before + 1 + Text.byteLength i.name.toList := by
      rw [Text.byteLength_append, Text.byteLength_cons, Nat.add_assoc]
      rfl
    rw [hsplit, Text.charAt?_append hlength]
  have hnone : i.list = none → (listSource i.list ++ rest).head? = rest.head? := fun h => by
    rw [h]
    rfl
  constructor
  · intro h
    refine ⟨⟨h.name, ?_, ?_, h.balanced⟩, ?_⟩
    · intro c hc
      exact h.maximal c (hchar ▸ hc)
    · intro hl
      rw [← hnone hl, ← hchar]
      exact h.noList hl
    · exact h.stop_eq
  · rintro ⟨h, rfl⟩
    refine ⟨Text.slice?_eq_some_iff.2 ⟨before, rest, rfl, rfl, rfl⟩, ?_, h.name, ?_, ?_, h.balanced⟩
    · rw [i.source_eq, Text.byteLength_cons]
      exact Nat.lt_add_of_pos_right (Nat.add_pos_left (Char.utf8Size_pos _) _)
    · rw [hchar]
      exact h.maximal
    · intro hl
      rw [hchar, hnone hl]
      exact h.noList hl

/-! ## The cuts of canonical tokens -/

/-- The literals of canonical tokens. -/
theorem Canonical.literal {tokens : List Token} (h : Canonical tokens) {text : String}
    (hmem : .literal text ∈ tokens) : text.toList ≠ [] ∧ ¬Mentions text.toList := by
  induction tokens with
  | nil => cases hmem
  | cons t rest ih =>
    cases t with
    | literal s =>
      obtain ⟨hne, hs, -, hrest⟩ := h
      rcases List.mem_cons.1 hmem with he | hmem
      · obtain rfl := Token.literal.inj he
        exact ⟨hne, hs⟩
      · exact ih hrest hmem
    | directive i =>
      rcases List.mem_cons.1 hmem with he | hmem
      · cases he
      · exact ih h.2 hmem

/-- No two literals of canonical tokens are adjacent. -/
theorem Canonical.apart {tokens : List Token} (h : Canonical tokens) :
    tokens.IsChain (fun a b => a.isUse = true ∨ b.isUse = true) := by
  induction tokens with
  | nil => exact .nil
  | cons t rest ih =>
    have hrest : Canonical rest := by
      cases t with
      | literal _ => exact h.2.2.2
      | directive _ => exact h.2
    refine List.isChain_cons.2 ⟨fun next hnext => ?_, ih hrest⟩
    cases t with
    | literal _ => exact Or.inr (h.2.2.1 next hnext)
    | directive _ => exact Or.inl rfl

/-- The uses of canonical tokens are at their places. -/
theorem Canonical.useAt {tokens : List Token} (h : Canonical tokens) (before : List Char)
    {i : Invocation} {start stop : Nat}
    (hmem : .use i start stop ∈ cutsFrom (Text.byteLength before) tokens) :
    UseAt (before ++ sources tokens) i start stop := by
  induction tokens generalizing before with
  | nil => cases hmem
  | cons t rest ih =>
    -- The tokens after `t` begin where `t` ends.
    have hnext : Canonical rest →
        .use i start stop ∈ cutsFrom (Text.byteLength (before ++ t.source)) rest →
        UseAt (before ++ sources (t :: rest)) i start stop := by
      intro hrest hmem
      rw [sources_cons, ← List.append_assoc]
      exact ih hrest _ hmem
    rw [Text.byteLength_append] at hnext
    cases t with
    | literal text =>
      refine hnext h.2.2.2 ?_
      exact (List.mem_cons.1 hmem).resolve_left Cut.noConfusion
    | directive i' =>
      rcases List.mem_cons.1 hmem with he | hmem
      · obtain ⟨rfl, rfl, rfl⟩ := Cut.use.inj he
        exact useAt_append_iff.2 ⟨h.1, rfl⟩
      · exact hnext h.2 hmem

/-- The spans of tokens are disjoint and ascend. -/
theorem ascending_cutsFrom (offset : Nat) (tokens : List Token) :
    ((cutsFrom offset tokens).filterMap Cut.span?).Pairwise (fun p q => p.2 ≤ q.1) := by
  induction tokens generalizing offset with
  | nil => exact .nil
  | cons t rest ih =>
    cases t with
    | literal text => exact ih _
    | directive i => exact List.pairwise_cons.2 ⟨fun span hspan => le_of_mem_cutsFrom hspan, ih _⟩

/-- Where spans hold the sources of their uses, the texts of the cuts are the
sources of the tokens. -/
theorem flatMap_text {sql : List Char} {cuts : List Cut}
    (h : ∀ i start stop, .use i start stop ∈ cuts →
      Text.slice? sql start stop = some i.source) :
    cuts.flatMap (Cut.text sql) = sources (cuts.map Cut.token) := by
  induction cuts with
  | nil => rfl
  | cons cut rest ih =>
    have hcut : cut.text sql = cut.token.source := by
      cases cut with
      | literal text => rfl
      | use i start stop =>
        show (Text.slice? sql start stop).getD [] = i.source
        rw [h i start stop List.mem_cons_self]
        rfl
    rw [List.flatMap_cons, List.map_cons, sources_cons, hcut,
      ih (fun i start stop hmem => h i start stop (List.mem_cons_of_mem _ hmem))]

/-- **The cuts of canonical tokens decompose their sources.** -/
theorem Canonical.decomposition {tokens : List Token} (h : Canonical tokens) :
    Decomposition (sources tokens) (cutsFrom 0 tokens) := by
  have huse : ∀ i start stop, .use i start stop ∈ cutsFrom 0 tokens →
      UseAt (sources tokens) i start stop := fun i start stop hmem => h.useAt [] hmem
  refine ⟨?_, ascending_cutsFrom 0 tokens, ?_, ?_, huse⟩
  · rw [flatMap_text (fun i start stop hmem => (huse i start stop hmem).spells), map_token_cutsFrom]
  · intro text hmem
    have htoken : .literal text ∈ tokens := by
      rw [← map_token_cutsFrom 0 tokens]
      exact List.mem_map.2 ⟨_, hmem, rfl⟩
    obtain ⟨hne, htext⟩ := h.literal htoken
    exact ⟨fun he => hne (he ▸ rfl), htext⟩
  · have hchain := h.apart
    rw [← map_token_cutsFrom 0 tokens, List.isChain_map] at hchain
    exact hchain

/-! ## The spans are forced -/

namespace Decomposition

variable {sql : List Char} {cuts : List Cut}

theorem sources_eq (h : Decomposition sql cuts) : sources (cuts.map Cut.token) = sql := by
  rw [← flatMap_text (fun i start stop hmem => (h.uses i start stop hmem).spells)]
  exact h.lossless

theorem endsName_of_literal (h : Decomposition sql cuts) {text : String} {rest : List Cut}
    (hrest : .literal text :: rest <:+ cuts) : EndsName (sources (rest.map Cut.token)) := by
  cases rest with
  | nil => exact endsName_nil
  | cons next rest =>
    have hchain := h.apart.suffix hrest
    cases next with
    | literal text' =>
      rcases (List.isChain_cons_cons.1 hchain).1 with hl | hl
      · cases hl
      · cases hl
    | use i start stop =>
      have hmem : .use i start stop ∈ cuts :=
        hrest.subset (List.mem_cons_of_mem _ List.mem_cons_self)
      exact (i.opens_source (h.uses i start stop hmem).name _).endsName

theorem stop_le (h : Decomposition sql cuts) {i : Invocation} {start stop : Nat}
    {rest : List Cut} (hrest : .use i start stop :: rest <:+ cuts) {span : Nat × Nat}
    (hspan : span ∈ rest.filterMap Cut.span?) : stop ≤ span.1 := by
  have hasc := h.ascending.sublist (hrest.sublist.filterMap Cut.span?)
  exact (List.pairwise_cons.1 hasc).1 span hspan

/-- **Spans hold as many openings as their uses have**, all of them in the text
that is left when the first of the spans begins. -/
theorem openings_le (h : Decomposition sql cuts) {rest : List Cut} (hrest : rest <:+ cuts)
    (before : List Char) {text : List Char} (hsql : sql = before ++ text)
    (hfrom : ∀ span ∈ rest.filterMap Cut.span?, Text.byteLength before ≤ span.1) :
    openings (sources (rest.map Cut.token)) ≤ openings text := by
  -- each use takes the text up to its end with it, and the uses after it have what follows
  induction rest generalizing before text with
  | nil => exact Nat.zero_le _
  | cons cut rest ih =>
    have hmem : cut ∈ cuts := hrest.subset List.mem_cons_self
    have htail : rest <:+ cuts := (List.suffix_cons cut rest).trans hrest
    cases cut with
    | literal t =>
      show openings (t.toList ++ sources (rest.map Cut.token)) ≤ openings text
      rw [openings_append (h.endsName_of_literal hrest),
        openings_eq_zero.2 (h.literals t hmem).2, Nat.zero_add]
      exact ih htail before hsql hfrom
    | use i start stop =>
      have huse := h.uses i start stop hmem
      obtain ⟨before', after, hsql', hstart, hstop⟩ := Text.slice?_eq_some_iff.1 huse.spells
      have hle : Text.byteLength before ≤ Text.byteLength before' := by
        rw [hstart]
        exact hfrom (start, stop) List.mem_cons_self
      obtain ⟨gap, rfl, rfl⟩ :=
        Text.exists_append_of_byteLength_le (hsql.symm.trans hsql') hle
      have hafter : openings (sources (rest.map Cut.token)) ≤ openings after := by
        refine ih htail (before ++ gap ++ i.source) ?_ (fun span hspan => ?_)
        · rw [hsql', List.append_assoc (before ++ gap)]
        · rw [Text.byteLength_append, hstart, hstop]
          exact h.stop_le hrest hspan
      show openings (i.source ++ sources (rest.map Cut.token)) ≤ _
      rw [i.openings_source_append huse.name]
      refine Nat.le_trans (Nat.add_le_add_left hafter _) ?_
      rw [← i.openings_source_append huse.name]
      exact openings_le_of_suffix (List.suffix_append gap _)

/-- **No span begins within a literal.** A use that is spelled at a place of the
text opens a directive there, and a literal holds no opening; so a use at or
behind the beginning of a literal is behind its end. -/
theorem le_start_of_literal (h : Decomposition sql cuts) {text : String} {rest : List Cut}
    (hrest : .literal text :: rest <:+ cuts) {before : List Char}
    (hsql : sql = before ++ (text.toList ++ sources (rest.map Cut.token)))
    {i : Invocation} {start stop : Nat} (huse : UseAt sql i start stop)
    (hle : Text.byteLength before ≤ start) :
    Text.byteLength (before ++ text.toList) ≤ start := by
  obtain ⟨before', after, hsql', rfl, -⟩ := Text.slice?_eq_some_iff.1 huse.spells
  obtain ⟨gap, rfl, hgap⟩ := Text.exists_append_of_byteLength_le (hsql.symm.trans hsql') hle
  rw [Text.byteLength_append, Text.byteLength_append]
  refine Nat.add_le_add_left (Nat.not_lt.1 fun hlt => ?_) _
  obtain ⟨inside, htext, hinside⟩ :=
    Text.exists_append_of_byteLength_le hgap.symm (Nat.le_of_lt hlt)
  -- What is left of the literal at the start of the span is not empty, and a directive opens there.
  have hne : inside ≠ [] := by
    rintro rfl
    rw [htext, List.append_nil] at hlt
    exact Nat.lt_irrefl _ hlt
  have hopens : Opens inside := by
    refine (opens_append_iff hne (h.endsName_of_literal hrest)).1 ?_
    rw [← hinside]
    exact i.opens_source huse.name after
  have hmentions : Mentions text.toList := by
    obtain ⟨c, hc, hcs⟩ := hopens.mentions
    exact ⟨c, hc, hcs.trans (htext ▸ (List.suffix_append gap inside).isInfix)⟩
  exact (h.literals text (hrest.subset List.mem_cons_self)).2 hmentions

/-- **A span begins where its use has its turn**, if none is before that. It
cannot begin later, which is seen by counting: each directive that opens from here
on has one of the spans, and all of these would lie behind the dollar sign that
opens here. -/
theorem start_eq (h : Decomposition sql cuts) {i : Invocation} {start stop : Nat}
    {rest : List Cut} (hrest : .use i start stop :: rest <:+ cuts) {before : List Char}
    (hsql : sql = before ++ (i.source ++ sources (rest.map Cut.token)))
    (hle : Text.byteLength before ≤ start) : start = Text.byteLength before := by
  refine Nat.le_antisymm (Nat.not_lt.1 fun hlt => ?_) hle
  have huse := h.uses i start stop (hrest.subset List.mem_cons_self)
  -- If it began later, the spans from here on would lie after the dollar sign, but the directive
  -- that opens there is one of those that their uses have.
  have hdollar : ∃ text, i.source ++ sources (rest.map Cut.token) = '$' :: text := by
    rw [i.source_eq]
    exact ⟨_, rfl⟩
  obtain ⟨text, htext⟩ := hdollar
  have hopens : Opens ('$' :: text) := htext ▸ i.opens_source huse.name _
  have hafter : ∀ span ∈ (Cut.use i start stop :: rest).filterMap Cut.span?,
      Text.byteLength (before ++ ['$']) ≤ span.1 := by
    intro span hspan
    rw [Text.byteLength_append]
    refine Nat.le_trans (Nat.succ_le_of_lt hlt) ?_
    rcases List.mem_cons.1 hspan with rfl | hspan
    · exact Nat.le_refl _
    · exact Nat.le_trans (Nat.le_of_lt huse.nonempty) (h.stop_le hrest hspan)
  have hcount : openings (i.source ++ sources (rest.map Cut.token)) ≤ openings text := by
    refine h.openings_le hrest (before ++ ['$']) ?_ hafter
    rw [hsql, htext, List.append_assoc]
    rfl
  rw [htext, openings_of_opens hopens, Nat.add_comm] at hcount
  exact Nat.not_succ_le_self _ hcount

/-- **Cuts that decompose a text are those of their tokens.** -/
theorem eq_cutsFrom (h : Decomposition sql cuts) {rest : List Cut} (hrest : rest <:+ cuts)
    (before : List Char) (hsql : sql = before ++ sources (rest.map Cut.token))
    (hfrom : ∀ span ∈ rest.filterMap Cut.span?, Text.byteLength before ≤ span.1) :
    rest = cutsFrom (Text.byteLength before) (rest.map Cut.token) := by
  -- the first cut has to begin where the text before it ends, and its token fixes where the next
  -- one does
  induction rest generalizing before with
  | nil => rfl
  | cons cut rest ih =>
    have hmem : cut ∈ cuts := hrest.subset List.mem_cons_self
    have htail : rest <:+ cuts := (List.suffix_cons cut rest).trans hrest
    have hnext : sql = before ++ cut.token.source ++ sources (rest.map Cut.token) := by
      rw [hsql, List.map_cons, sources_cons, List.append_assoc]
    cases cut with
    | literal text =>
      rw [List.map_cons, Cut.token, cutsFrom_literal, ← Text.byteLength_append]
      refine congrArg (_ :: ·) (ih htail _ hnext fun span hspan => ?_)
      obtain ⟨cut, hcut, hspan'⟩ := List.mem_filterMap.1 hspan
      cases cut with
      | literal text' => cases hspan'
      | use i start stop =>
        obtain rfl := Option.some.inj hspan'
        exact h.le_start_of_literal hrest hsql (h.uses i start stop (htail.subset hcut))
          (hfrom _ hspan)
    | use i start stop =>
      have hstart : start = Text.byteLength before :=
        h.start_eq hrest hsql (hfrom (start, stop) List.mem_cons_self)
      have hstop : stop = Text.byteLength before + Text.byteLength i.source :=
        hstart ▸ (h.uses i start stop hmem).stop_eq
      rw [List.map_cons, Cut.token, cutsFrom_directive, ← Text.byteLength_append]
      refine congr (congrArg List.cons ?_) (ih htail _ hnext fun span hspan => ?_)
      · rw [hstart, hstop, Text.byteLength_append]
      · have hle : stop ≤ span.1 := h.stop_le hrest hspan
        rwa [hstop, ← Text.byteLength_append] at hle

/-- Tokens whose cuts meet the conditions where they lie are canonical. -/
theorem canonical_of_useAt {tokens : List Token} (before : List Char)
    (hliterals : ∀ text, .literal text ∈ tokens → text ≠ "" ∧ ¬Mentions text.toList)
    (hapart : tokens.IsChain (fun a b => a.isUse = true ∨ b.isUse = true))
    (huses : ∀ i start stop, .use i start stop ∈ cutsFrom (Text.byteLength before) tokens →
      UseAt (before ++ sources tokens) i start stop) : Canonical tokens := by
  induction tokens generalizing before with
  | nil => trivial
  | cons t rest ih =>
    obtain ⟨hhead, htail⟩ := List.isChain_cons.1 hapart
    -- the cuts of the rest are cuts of the whole list, so the rest meets the same conditions
    have hrest : (∀ i start stop,
        .use i start stop ∈ cutsFrom (Text.byteLength (before ++ t.source)) rest →
        .use i start stop ∈ cutsFrom (Text.byteLength before) (t :: rest)) → Canonical rest := by
      intro hmem
      refine ih (before ++ t.source)
        (fun text htext => hliterals text (List.mem_cons_of_mem _ htext)) htail ?_
      intro i start stop hcut
      rw [List.append_assoc, ← sources_cons]
      exact huses i start stop (hmem i start stop hcut)
    rw [Text.byteLength_append] at hrest
    cases t with
    | literal text =>
      obtain ⟨hne, htext⟩ := hliterals text List.mem_cons_self
      refine ⟨fun he => hne (String.toList_inj.1 he), htext, fun next hnext => ?_,
        hrest fun i start stop hcut => List.mem_cons_of_mem _ hcut⟩
      exact (hhead next hnext).resolve_left Bool.false_ne_true
    | directive i =>
      refine ⟨?_, hrest fun i start stop hcut => List.mem_cons_of_mem _ hcut⟩
      exact (useAt_append_iff.1 (huses i _ _ List.mem_cons_self)).1

/-- **A text that can be decomposed can be read**, and its decomposition is that
of the tokens that are read. -/
theorem tokensFrom_eq (h : Decomposition sql cuts) (offset : Nat) :
    tokensFrom offset sql = .ok (cuts.map Cut.token) ∧
      cuts = cutsFrom 0 (cuts.map Cut.token) := by
  have hcuts : cuts = cutsFrom 0 (cuts.map Cut.token) :=
    h.eq_cutsFrom List.suffix_rfl [] h.sources_eq.symm (fun _ _ => Nat.zero_le _)
  refine ⟨tokensFrom_eq_ok_iff.2 ⟨h.sources_eq, ?_⟩, hcuts⟩
  refine canonical_of_useAt [] ?_ ?_ ?_
  · intro text hmem
    obtain ⟨cut, hcut, htoken⟩ := List.mem_map.1 hmem
    cases cut with
    | literal text' =>
      obtain rfl := Token.literal.inj htoken
      exact h.literals text' hcut
    | use i start stop => cases htoken
  · exact (List.isChain_map Cut.token).2 h.apart
  · intro i start stop hmem
    rw [List.nil_append, h.sources_eq]
    exact h.uses i start stop (hcuts ▸ hmem)

end Decomposition

/-! ## Uniqueness -/

/-- **Reading a text decomposes it, and there is no other decomposition.** The
cuts that reading makes, taken together, are the text; its spans lie one behind
the other, each with the longest name there and a list that is balanced; and no
directive opens in a literal. These rules leave no choice: from the front on, a
literal cannot end before the next directive opens nor go past it, and a directive
cannot end elsewhere than its list does. So any cuts that keep them are the ones
that were made. -/
theorem tokenize_decomposition {sql : String} {tokens : List Token}
    (h : tokenize sql = .ok tokens) :
    Decomposition sql.toList (cutsFrom 0 tokens) ∧
      ∀ cuts, Decomposition sql.toList cuts → cuts = cutsFrom 0 tokens := by
  obtain ⟨hsources, hcanonical⟩ := tokensFrom_eq_ok_iff.1 h
  refine ⟨hsources ▸ hcanonical.decomposition, fun cuts hcuts => ?_⟩
  obtain ⟨hread, hplaces⟩ := hcuts.tokensFrom_eq 0
  rw [hplaces, Except.ok.inj (hread.symm.trans h)]

/-- Dollar signs before a directive, a directive within the list of another,
one right after the other, and an opening that no word follows. -/
theorem tokenize_decomposition_adjacent :
    tokenize "$$__time(f($__x))$__timeTo $__(" = .ok
        [.literal "$", .directive ⟨"__time", some "f($__x)"⟩, .directive ⟨"__timeTo", none⟩,
          .literal " $__("] ∧
      Decomposition "$$__time(f($__x))$__timeTo $__(".toList
        [.literal "$", .use ⟨"__time", some "f($__x)"⟩ 1 17, .use ⟨"__timeTo", none⟩ 17 26,
          .literal " $__("] := by
  have h : tokenize "$$__time(f($__x))$__timeTo $__(" = .ok
      [.literal "$", .directive ⟨"__time", some "f($__x)"⟩, .directive ⟨"__timeTo", none⟩,
        .literal " $__("] := by decide +kernel
  exact ⟨h, (tokenize_decomposition h).1⟩

end Directive

end WindowQuery
