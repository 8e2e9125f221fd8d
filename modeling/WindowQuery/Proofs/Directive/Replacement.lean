import WindowQuery.Proofs.Directive.Decomposition
import WindowQuery.Proofs.Directive.Evaluation
import WindowQuery.Proofs.Text.Replace

/-!
# An expansion is the text with its directives replaced

An expansion is put together from tokens, and nothing in it says that the
rest of the text came through as it was. Here the SQL is compared with the
text itself: it is the text in which the span of every use holds the
fragment of that use, and everything between the spans is cut out of the
text by its offsets (`Text.replace?`). The spans are those that are
reported with the tokens.

`expand_replaces_uses` says this of every text and adds what happens when
there is no expansion. A list that is not closed comes before everything
else; then the first use counts, in the order of the text, that has no
fragment.
-/

namespace WindowQuery

namespace Directive

/-- **What comes in the place of a use**: its fragment between its offsets. -/
def Cut.edit? (w : TimeWindow) : Cut → Option Text.Edit
  | literal _ => none
  | use i start stop =>
    (i.fragment w).toOption.map (fun f => ⟨start, stop, f.sql.toList⟩)

/-- What comes in the places of the uses of a text. -/
def edits (w : TimeWindow) (cuts : List Cut) : List Text.Edit := cuts.filterMap (Cut.edit? w)

/-- **The SQL of an expansion is the text with its uses replaced.** -/
theorem replace?_ofTokens {w : TimeWindow} {tokens : List Token} {x : Expansion}
    (h : Expansion.ofTokens w tokens = .ok x) (before : List Char) :
    Text.replace? (before ++ sources tokens) (Text.byteLength before)
      (edits w (cutsFrom (Text.byteLength before) tokens)) = some x.sql.toList := by
  induction tokens generalizing before x with
  | nil =>
    obtain rfl := Except.ok.inj h
    rw [sources_nil, List.append_nil]
    refine Text.slice?_eq_some_iff.2 ⟨before, [], ?_, rfl, rfl⟩
    exact (List.append_nil before).symm
  | cons t rest ih =>
    -- The tokens after `t` begin where `t` ends.
    have hnext : ∀ {more : Expansion}, Expansion.ofTokens w rest = .ok more →
        Text.replace? (before ++ (t.source ++ sources rest))
          (Text.byteLength before + Text.byteLength t.source)
          (edits w (cutsFrom (Text.byteLength before + Text.byteLength t.source) rest)) =
            some more.sql.toList := by
      intro more hmore
      rw [← Text.byteLength_append, ← List.append_assoc]
      exact ih hmore (before ++ t.source)
    rw [sources_cons]
    cases t with
    | literal text =>
      obtain ⟨more, hmore, rfl⟩ := ofTokens_literal_cons_eq_ok h
      have hkept : Text.slice? (before ++ (text.toList ++ sources rest)) (Text.byteLength before)
          (Text.byteLength before + Text.byteLength text.toList) = some text.toList :=
        Text.slice?_eq_some_iff.2 ⟨before, sources rest, rfl, rfl, rfl⟩
      rw [Expansion.sql_append, String.toList_append]
      exact Text.replace?_of_slice? hkept (hnext hmore)
    | directive i =>
      obtain ⟨f, more, hf, hmore, rfl⟩ := ofTokens_directive_cons_eq_ok h
      have hedits : ∀ cuts start stop, edits w (.use i start stop :: cuts) =
          ⟨start, stop, f.sql.toList⟩ :: edits w cuts := by
        intro cuts start stop
        refine List.filterMap_cons_some ?_
        rw [Cut.edit?, hf]
        rfl
      rw [cutsFrom_directive, hedits, Text.replace?, Text.slice?_self rfl, Option.bind_some]
      refine (congrArg (Option.map _) (hnext hmore)).trans ?_
      rw [Option.map_some, List.nil_append, Expansion.sql_append, String.toList_append]

/-- **An expansion of a text that was read as some tokens**, said by the text and
by what its uses stand for. -/
structure Replaces (w : TimeWindow) (sql : List Char) (tokens : List Token) (x : Expansion) :
    Prop where
  /-- The SQL is the text with each use replaced by its fragment. -/
  sql_eq : Text.replace? sql 0 (edits w (cutsFrom 0 tokens)) = some x.sql.toList
  /-- It groups by time just if some use does. -/
  timeGrouped_iff : x.timeGrouped = true ↔ ∃ i ∈ uses tokens, i.name = timeGroup.name
  /-- It has the fill policy of the last use that chooses one. -/
  fill_eq_some_iff : ∀ p, x.fill = some p ↔ ∃ before i after,
    uses tokens = before ++ i :: after ∧ i.Chooses p ∧ ∀ j ∈ after, ∀ q, ¬j.Chooses q
  /-- It has none just if no use chooses one. -/
  fill_eq_none_iff : x.fill = none ↔ ∀ i ∈ uses tokens, ∀ p, ¬i.Chooses p

/-- Where every use has a fragment, the policy that it gives is the one that the
use chooses. -/
theorem fill_toOption_fragment {w : TimeWindow} {i : Invocation}
    (h : ∃ f, i.fragment w = .ok f) {p : FillPolicy} :
    (i.fragment w).toOption.bind Fragment.fill = some p ↔ i.Chooses p := by
  obtain ⟨f, hf⟩ := h
  rw [hf]
  exact i.fill_fragment hf

theorem fill_toOption_fragment_eq_none {w : TimeWindow} {i : Invocation}
    (h : ∃ f, i.fragment w = .ok f) :
    (i.fragment w).toOption.bind Fragment.fill = none ↔ ∀ p, ¬i.Chooses p := by
  rw [Option.eq_none_iff_forall_ne_some]
  exact forall_congr' (fun p => not_congr (fill_toOption_fragment h))

/-- The last element of a list to which a function gives something. -/
theorem findSome?_reverse_eq_some_iff {α β : Type} {f : α → Option β} {l : List α} {b : β} :
    l.reverse.findSome? f = some b ↔
      ∃ before a after, l = before ++ a :: after ∧ f a = some b ∧ ∀ c ∈ after, f c = none := by
  have hreverse : ∀ (front back : List α) (a : α),
      l.reverse = front ++ a :: back ↔ l = back.reverse ++ a :: front.reverse := by
    intro front back a
    rw [List.reverse_eq_iff]
    simp only [List.reverse_append, List.reverse_cons, List.append_assoc, List.singleton_append]
  rw [List.findSome?_eq_some_iff]
  constructor
  · rintro ⟨after, a, before, hl, ha, hafter⟩
    exact ⟨before.reverse, a, after.reverse, (hreverse after before a).1 hl, ha,
      fun c hc => hafter c (List.mem_reverse.1 hc)⟩
  · rintro ⟨before, a, after, hl, ha, hafter⟩
    refine ⟨after.reverse, a, before.reverse, (hreverse _ _ a).2 ?_, ha,
      fun c hc => hafter c (List.mem_reverse.1 hc)⟩
    rw [List.reverse_reverse, List.reverse_reverse, hl]

/-- Tokens that have an expansion replace their uses. -/
theorem replaces_ofTokens {w : TimeWindow} {tokens : List Token} {x : Expansion}
    (hfragments : ∀ i ∈ uses tokens, ∃ f, i.fragment w = .ok f)
    (h : Expansion.ofTokens w tokens = .ok x) : Replaces w (sources tokens) tokens x := by
  refine ⟨replace?_ofTokens h [], timeGrouped_ofTokens h, fun p => ?_, ?_⟩
  · rw [fill_ofTokens h, findSome?_reverse_eq_some_iff]
    refine exists_congr fun before => exists_congr fun i => exists_congr fun after =>
      and_congr_right fun huses => ?_
    have hmem : ∀ j ∈ i :: after, ∃ f, j.fragment w = .ok f := fun j hj =>
      hfragments j (huses ▸ List.mem_append_right before hj)
    exact and_congr (fill_toOption_fragment (hmem i List.mem_cons_self))
      (forall₂_congr fun j hj =>
        fill_toOption_fragment_eq_none (hmem j (List.mem_cons_of_mem i hj)))
  · rw [fill_ofTokens h, List.findSome?_eq_none_iff]
    simp only [List.mem_reverse]
    exact forall₂_congr fun i hi => fill_toOption_fragment_eq_none (hfragments i hi)

/-- **An expansion replaces the uses of its text and changes nothing else.** A
text that cannot be read fails as reading it does. In one that can be read,
the first use without a fragment, be its name unknown or its arguments
wrong, is the error; and if all have one, there is an expansion and it
replaces them. -/
theorem expand_replaces_uses (sql : String) (w : TimeWindow) :
    (∀ e, tokenize sql = .error e → expand sql w = .error e) ∧
      ∀ tokens, tokenize sql = .ok tokens →
        (∀ before i after e, uses tokens = before ++ i :: after →
          (∀ j ∈ before, ∃ f, j.fragment w = .ok f) → i.fragment w = .error e →
            expand sql w = .error e) ∧
        ((∀ i ∈ uses tokens, ∃ f, i.fragment w = .ok f) →
          ∃ x, expand sql w = .ok x ∧ Replaces w sql.toList tokens x) := by
  unfold expand
  refine ⟨fun e he => ?_, fun tokens htokens => ⟨?_, fun hfragments => ?_⟩⟩
  · rw [he]
    rfl
  · intro before i after e huses hbefore hi
    rw [htokens]
    exact ofTokens_eq_error huses hbefore hi
  · obtain ⟨x, hx⟩ := exists_ofTokens hfragments
    have hsources : sources tokens = sql.toList := (tokensFrom_eq_ok_iff.1 htokens).1
    refine ⟨x, ?_, hsources ▸ replaces_ofTokens hfragments hx⟩
    rw [htokens]
    exact hx

/-- A text that groups twice, the second time with a fill policy that is none. -/
def groupedTwice : String := "é $__timeGroup(t,'1m',0), é $__timeGroup(u,2m,linear)"

/-- Its tokens. -/
def groupedTwiceTokens : List Token :=
  [.literal "é ", .directive ⟨"__timeGroup", some "t,'1m',0"⟩, .literal ", é ",
    .directive ⟨"__timeGroup", some "u,2m,linear"⟩]

/-- Its expansion. -/
def groupedTwiceExpansion : Expansion :=
  ⟨"é " ++ bucketSql "t" "60" ++ ", é " ++ bucketSql "u" "120", some .zero, true⟩

/-- A list that is not closed counts before a wrong argument, and that before a
later name that nobody knows. Where all is well, characters of several bytes
between the uses stay, and what is no policy leaves the earlier one. -/
theorem expand_replaces_uses_groupedTwice :
    expand "$__time() $__x(" ⟨.epoch, .epoch⟩ = .error (.unterminated "__x" 10) ∧
      expand "$__timeFrom $__time() $__x" ⟨.epoch, .epoch⟩ =
        .error (.missingArgument "__time" "time column") ∧
      expand groupedTwice ⟨.epoch, .epoch⟩ = .ok groupedTwiceExpansion ∧
      Replaces ⟨.epoch, .epoch⟩ groupedTwice.toList groupedTwiceTokens groupedTwiceExpansion := by
  have hexpand : expand groupedTwice ⟨.epoch, .epoch⟩ = .ok groupedTwiceExpansion := by
    decide +kernel
  refine ⟨(expand_replaces_uses _ _).1 _ (by decide +kernel), ?_, hexpand, ?_⟩
  · have hread : tokenize "$__timeFrom $__time() $__x" = .ok
        [.directive ⟨"__timeFrom", none⟩, .literal " ", .directive ⟨"__time", some ""⟩,
          .literal " ", .directive ⟨"__x", none⟩] := by decide +kernel
    refine ((expand_replaces_uses _ ⟨.epoch, .epoch⟩).2 _ hread).1 [⟨"__timeFrom", none⟩]
      ⟨"__time", some ""⟩ [⟨"__x", none⟩] _ rfl (fun j hj => ?_) (by decide +kernel)
    obtain rfl := List.mem_singleton.1 hj
    exact ⟨.ofSql "'1970-01-01T00:00:00Z'", by decide +kernel⟩
  · have hread : tokenize groupedTwice = .ok groupedTwiceTokens := by decide +kernel
    obtain ⟨x, hx, hreplaces⟩ := ((expand_replaces_uses _ ⟨.epoch, .epoch⟩).2 _ hread).2
      (fun i hi => by
        rcases List.mem_cons.1 hi with rfl | hi
        · exact ⟨⟨bucketSql "t" "60", some .zero⟩, by decide +kernel⟩
        · obtain rfl := List.mem_singleton.1 hi
          exact ⟨⟨bucketSql "u" "120", none⟩, by decide +kernel⟩)
    obtain rfl := Except.ok.inj (hexpand.symm.trans hx)
    exact hreplaces

end Directive

end WindowQuery
