import WindowQuery.Proofs.Directive.Juxtaposition
import WindowQuery.Proofs.Text.Run

/-!
# Lists of values

A list of values comes as SQL writes it: each value in quotes, the quotes
within it doubled, commas between them, and braces around all. The
directive for it does not read the list. It takes braces and quotes off
both ends of its argument, as many as there are, and puts one quote there
again.

What is in the middle stays as it is, whatever it holds, and the two ends
are what counts. The quotes that are put back are those of the first and the
last value (`listed_eq`); the list is the same just if nothing else was taken
off (`stripEnds_between_iff`). A first value that begins with a brace or a
quote loses that, one that is empty loses the quote that ends it, and so it
is with the last value – except for a single empty one, which is what two
quotes around nothing are.
-/

namespace WindowQuery

namespace Directive

/-! ## Values as SQL writes them -/

/-- A character of a value within quotes: a quote is doubled. -/
def doubled (c : Char) : List Char := if c = '\'' then ['\'', '\''] else [c]

/-- A value within quotes. -/
def escaped (value : String) : String := String.ofList (value.toList.flatMap doubled)

theorem toList_escaped (value : String) :
    (escaped value).toList = value.toList.flatMap doubled := String.toList_ofList

/-- **A value as SQL writes it.** -/
def sqlLiteral (value : String) : String := inQuotes (escaped value)

/-- **A list of values as SQL writes it.** -/
def listed (values : List String) : String := ",".intercalate (values.map sqlLiteral)

/-- What stands between the first quote of a list and the last one. -/
def between (values : List String) : String := "','".intercalate (values.map escaped)

/-- The value begins with a character that is not taken off. -/
def BeginsPlain (value : String) : Prop := ∃ c ∈ value.toList.head?, isValueMark c = false

/-- The value ends with a character that is not taken off. -/
def EndsPlain (value : String) : Prop := ∃ c ∈ value.toList.getLast?, isValueMark c = false

theorem between_singleton (v : String) : between [v] = escaped v := String.intercalate_singleton

theorem between_cons_cons (v u : String) (rest : List String) :
    between (v :: u :: rest) = escaped v ++ "','" ++ between (u :: rest) :=
  String.intercalate_cons_cons

/-- **A list begins and ends with a quote.** -/
theorem listed_eq {values : List String} (h : values ≠ []) :
    listed values = inQuotes (between values) := by
  induction values with
  | nil => exact absurd rfl h
  | cons v rest ih =>
    cases rest with
    | nil =>
      rw [between_singleton]
      exact String.intercalate_singleton
    | cons u rest =>
      have hlisted : listed (v :: u :: rest) = sqlLiteral v ++ "," ++ listed (u :: rest) :=
        String.intercalate_cons_cons
      have hseparator : "','" = "'" ++ "," ++ "'" := by decide
      rw [hlisted, between_cons_cons, ih (List.cons_ne_nil u rest), hseparator]
      simp only [sqlLiteral, inQuotes, String.append_assoc]

theorem mem_escaped {value : String} {c : Char} (h : c ∈ (escaped value).toList) :
    c ∈ value.toList ∨ c = '\'' := by
  rw [toList_escaped] at h
  obtain ⟨d, hd, hc⟩ := List.mem_flatMap.1 h
  unfold doubled at hc
  split at hc
  · exact Or.inr (by simpa using hc)
  · rw [List.mem_singleton.1 hc]
    exact Or.inl hd

/-- **A list has the characters of its values**, quotes and commas. -/
theorem mem_between {values : List String} {c : Char} (h : c ∈ (between values).toList) :
    (∃ v ∈ values, c ∈ v.toList) ∨ c = '\'' ∨ c = ',' := by
  induction values with
  | nil => cases h
  | cons v rest ih =>
    have hvalue : c ∈ (escaped v).toList → (∃ u ∈ v :: rest, c ∈ u.toList) ∨ c = '\'' ∨ c = ',' :=
      fun hc => (mem_escaped hc).imp (fun hc => ⟨v, List.mem_cons_self, hc⟩) Or.inl
    cases rest with
    | nil =>
      rw [between_singleton] at h
      exact hvalue h
    | cons u rest =>
      rw [between_cons_cons, String.toList_append, String.toList_append, List.mem_append,
        List.mem_append] at h
      rcases h with (h | h) | h
      · exact hvalue h
      · have hseparator : c ∈ ['\'', ',', '\''] := h
        simp only [List.mem_cons, List.not_mem_nil, or_false] at hseparator
        exact Or.inr (hseparator.elim Or.inl (fun h => h.symm))
      · exact (ih h).imp (fun ⟨x, hx, hc⟩ => ⟨x, List.mem_cons_of_mem v hx, hc⟩) id

/-! ## The two ends of a list -/

theorem toList_escaped_eq_nil {value : String} : (escaped value).toList = [] ↔ value = "" := by
  rw [toList_escaped, ← String.toList_eq_nil_iff]
  cases value.toList with
  | nil => exact Iff.rfl
  | cons c cs =>
    refine ⟨fun h => ?_, fun h => by cases h⟩
    rw [List.flatMap_cons, doubled] at h
    split at h <;> cases h

theorem head?_flatMap_doubled (cs : List Char) : (cs.flatMap doubled).head? = cs.head? := by
  cases cs with
  | nil => rfl
  | cons c cs =>
    rw [List.flatMap_cons, doubled]
    split
    · next h => rw [h]; rfl
    · rfl

theorem reverse_flatMap_doubled (cs : List Char) :
    (cs.flatMap doubled).reverse = cs.reverse.flatMap doubled := by
  have hdoubled : List.reverse ∘ doubled = doubled := by
    funext c
    show (doubled c).reverse = doubled c
    unfold doubled
    split <;> rfl
  rw [List.reverse_flatMap, hdoubled]

/-- What follows the first value of a list begins with the quote that ends it. -/
theorem exists_between_cons (v : String) (rest : List String) : ∃ tail,
    (between (v :: rest)).toList = (escaped v).toList ++ tail ∧
      (tail = [] ↔ rest = []) ∧ (tail = [] ∨ ¬Text.EndsRun isValueMark tail) := by
  cases rest with
  | nil =>
    refine ⟨[], ?_, iff_of_true rfl rfl, Or.inl rfl⟩
    rw [between_singleton, List.append_nil]
  | cons u rest =>
    refine ⟨'\'' :: ',' :: '\'' :: (between (u :: rest)).toList, ?_,
      iff_of_false (List.cons_ne_nil _ _) (List.cons_ne_nil _ _), Or.inr fun h => ?_⟩
    · rw [between_cons_cons, String.toList_append, String.toList_append, List.append_assoc]
      rfl
    · exact absurd (Text.endsRun_cons.1 h) (by decide)

/-- What is before the last value of a list ends with the quote that begins it. -/
theorem exists_between_concat (init : List String) (v : String) : ∃ tail,
    (between (init ++ [v])).toList.reverse = (escaped v).toList.reverse ++ tail ∧
      (tail = [] ↔ init = []) ∧ (tail = [] ∨ ¬Text.EndsRun isValueMark tail) := by
  cases init with
  | nil =>
    refine ⟨[], ?_, iff_of_true rfl rfl, Or.inl rfl⟩
    rw [List.nil_append, between_singleton, List.append_nil]
  | cons u init =>
    have hbetween : between (u :: init ++ [v]) = between (u :: init) ++ "','" ++ escaped v := by
      have hne : (u :: init).map escaped ≠ [] := List.cons_ne_nil _ _
      have hmap : (u :: init ++ [v]).map escaped = (u :: init).map escaped ++ [escaped v] :=
        List.map_append
      rw [between, hmap, String.intercalate_append_of_ne_nil hne (List.cons_ne_nil _ _),
        String.intercalate_singleton, between]
    refine ⟨'\'' :: ',' :: '\'' :: (between (u :: init)).toList.reverse, ?_,
      iff_of_false (List.cons_ne_nil _ _) (List.cons_ne_nil _ _), Or.inr fun h => ?_⟩
    · rw [hbetween, String.toList_append, String.toList_append, List.reverse_append,
        List.reverse_append]
      rfl
    · exact absurd (Text.endsRun_cons.1 h) (by decide)

/-- **Nothing is taken off the front** just if the first value begins plain, or
there is nothing. -/
theorem endsRun_between {values : List String} (h : values ≠ []) :
    Text.EndsRun isValueMark (between values).toList ↔
      values = [""] ∨ BeginsPlain (values.head h) := by
  obtain ⟨v, rest, rfl⟩ := List.exists_cons_of_ne_nil h
  obtain ⟨tail, hbetween, htail, hends⟩ := exists_between_cons v rest
  rw [hbetween, Text.endsRun_append_iff hends, toList_escaped_eq_nil, htail, toList_escaped,
    head?_flatMap_doubled, List.cons.injEq]
  rfl

/-- **Nothing is taken off the end** just if the last value ends plain, or there is
nothing. -/
theorem endsRun_reverse_between {values : List String} (h : values ≠ []) :
    Text.EndsRun isValueMark (between values).toList.reverse ↔
      values = [""] ∨ EndsPlain (values.getLast h) := by
  -- From behind a list looks as it does from the front, because doubled quotes do.
  obtain ⟨init, v, rfl⟩ : ∃ init v, values = init ++ [v] :=
    ⟨values.dropLast, values.getLast h, (List.dropLast_concat_getLast h).symm⟩
  obtain ⟨tail, hbetween, htail, hends⟩ := exists_between_concat init v
  have hone : init ++ [v] = [""] ↔ v = "" ∧ init = [] := by
    cases init with
    | nil => simp only [List.nil_append, List.cons.injEq, and_true]
    | cons u init => simp
  rw [hbetween, Text.endsRun_append_iff hends, List.reverse_eq_nil_iff, toList_escaped_eq_nil,
    htail, toList_escaped, reverse_flatMap_doubled, head?_flatMap_doubled, List.head?_reverse,
    hone, List.getLast_concat]
  rfl

/-- **The list stays as it is** just if it is one empty value, or the first value
begins plain and the last one ends so. -/
theorem stripEnds_between_iff {values : List String} (h : values ≠ []) :
    Text.stripEnds isValueMark (between values).toList = (between values).toList ↔
      values = [""] ∨ BeginsPlain (values.head h) ∧ EndsPlain (values.getLast h) := by
  rw [Text.stripEnds_eq_self_iff, endsRun_between h, endsRun_reverse_between h, or_and_left]

/-! ## Evaluating the directive -/

theorem Balanced.of_notMem {cs : List Char} (hopen : '(' ∉ cs) (hclose : ')' ∉ cs) :
    Balanced cs := by
  refine ⟨fun p hp => ?_, ?_⟩
  · rw [List.count_eq_zero.2 (fun h => hclose (hp.subset h))]
    exact Nat.zero_le _
  · rw [List.count_eq_zero.2 hclose, List.count_eq_zero.2 hopen]

/-- A text that is one use of a directive. -/
theorem expand_source {i : Invocation} (h : i.StandsBefore []) (w : TimeWindow) :
    expand (String.ofList i.source) w = Expansion.ofInvocation w i := by
  show expandFrom w 0 (String.ofList i.source).toList = _
  rw [String.toList_ofList, ← List.append_nil i.source, expandFrom_use h,
    tokensFrom_literal not_mentions_nil]
  show (Expansion.ofInvocation w i).bind (fun e => .ok (e ++ .empty)) = _
  simp only [Expansion.append_empty]
  cases Expansion.ofInvocation w i <;> rfl

/-- **The argument that is a list of values.** -/
def braced (values : List String) : String := "\x7b" ++ listed values ++ "\x7d"

theorem toList_braced (values : List String) :
    (braced values).toList = '\x7b' :: ((listed values).toList ++ ['\x7d']) := by
  rw [braced, String.toList_append, String.toList_append]
  rfl

theorem toList_braced_eq {values : List String} (h : values ≠ []) :
    (braced values).toList = ['\x7b', '\''] ++ ((between values).toList ++ ['\'', '\x7d']) := by
  have hlisted : (listed values).toList = '\'' :: ((between values).toList ++ ['\'']) := by
    rw [listed_eq h, inQuotes, String.toList_append, String.toList_append]
    rfl
  rw [toList_braced, hlisted, List.cons_append, List.append_assoc]
  rfl

/-- **A list has no parentheses** if its values have none. -/
theorem balanced_braced {values : List String} (hne : values ≠ [])
    (h : ∀ v ∈ values, '(' ∉ v.toList ∧ ')' ∉ v.toList) : Balanced (braced values).toList := by
  have hmem : ∀ c ∈ (braced values).toList,
      (∃ v ∈ values, c ∈ v.toList) ∨ c ∈ ['\x7b', '\'', ',', '\x7d'] := by
    intro c hc
    rw [toList_braced_eq hne, List.mem_append, List.mem_append] at hc
    rcases hc with hc | hc | hc
    · exact Or.inr (List.mem_append_left _ hc)
    · refine (mem_between hc).imp_right fun hc => ?_
      rcases hc with rfl | rfl <;> decide
    · have hends : ['\'', '\x7d'] ⊆ ['\x7b', '\'', ',', '\x7d'] := by decide
      exact Or.inr (hends hc)
  refine Balanced.of_notMem (fun hopen => ?_) (fun hclose => ?_)
  · obtain ⟨v, hv, hc⟩ := (hmem _ hopen).resolve_right (by decide)
    exact (h v hv).1 hc
  · obtain ⟨v, hv, hc⟩ := (hmem _ hclose).resolve_right (by decide)
    exact (h v hv).2 hc

theorem trimmed_braced (values : List String) : Text.trimmed (braced values) = braced values := by
  have hends : Text.trim (braced values).toList = (braced values).toList := by
    refine Text.stripEnds_eq_self_iff.2 ⟨?_, ?_⟩ <;> rw [toList_braced]
    · exact Text.endsRun_cons.2 (by decide)
    · rw [List.reverse_cons, List.reverse_append]
      exact Text.endsRun_cons.2 (by decide)
  rw [Text.trimmed, hends, String.ofList_toList]

/-- **The marks at the ends of a list are taken off**, and all that are behind them. -/
theorem requoted_braced {values : List String} (h : values ≠ []) :
    requoted (braced values) =
      inQuotes (String.ofList (Text.stripEnds isValueMark (between values).toList)) := by
  rw [requoted, toList_braced_eq h,
    Text.stripEnds_append (List.all_eq_true.1 rfl) (List.all_eq_true.1 rfl)]

/-- A use of the directive for a list of values. -/
def listUse (values : List String) : Invocation := ⟨expandMultiString.name, some (braced values)⟩

theorem listUse_standsBefore {values : List String} (hne : values ≠ [])
    (h : ∀ v ∈ values, '(' ∉ v.toList ∧ ')' ∉ v.toList) : (listUse values).StandsBefore [] where
  name := by
    have hname : expandMultiString.name.toList = '_' :: '_' :: "expandMultiString".toList := by
      decide
    exact ⟨"expandMultiString".toList, hname, by decide, List.all_eq_true.1 (by decide)⟩
  maximal := endsName_cons.2 (by decide)
  noList hnone := by cases hnone
  balanced list hlist := by
    obtain rfl := Option.some.inj hlist
    exact balanced_braced hne h

/-- The list of a use is the whole of its argument. -/
theorem ofInvocation_listUse (values : List String) (w : TimeWindow) :
    Expansion.ofInvocation w (listUse values) = .ok ⟨requoted (braced values), none, false⟩ := by
  have hblank : Text.isBlankText (braced values) = false := by
    rw [Text.isBlankText, toList_braced, List.all_cons]
    rfl
  have harguments :
      (listUse values).arguments expandMultiString.takesSeveral = [braced values] := by
    show (if Text.isBlankText (braced values) then [] else [Text.trimmed (braced values)]) = _
    rw [hblank, trimmed_braced]
    rfl
  have hname : ofName? (listUse values).name = some expandMultiString :=
    ofName?_eq_some_iff.2 rfl
  rw [Expansion.ofInvocation, hname]
  dsimp only
  rw [harguments]
  show Except.ok (Expansion.mk (",".intercalate [requoted (braced values)]) none false) = _
  rw [String.intercalate_singleton]

/-- **What a list is expanded to**: what stands between its first quote and its last
one, without marks at its ends, in quotes again. -/
theorem expand_braced {values : List String} (hne : values ≠ [])
    (h : ∀ v ∈ values, '(' ∉ v.toList ∧ ')' ∉ v.toList) (w : TimeWindow) :
    expand ("$__expandMultiString(" ++ braced values ++ ")") w =
      .ok ⟨inQuotes (String.ofList (Text.stripEnds isValueMark (between values).toList)),
        none, false⟩ := by
  have hsource : "$__expandMultiString(" ++ braced values ++ ")" =
      String.ofList (listUse values).source := by
    have hfront : "$__expandMultiString(".toList =
        '$' :: (expandMultiString.name.toList ++ ['(']) := by
      decide
    rw [← String.toList_inj, String.toList_ofList, String.toList_append, String.toList_append,
      hfront, List.append_assoc, List.cons_append, List.append_assoc]
    rfl
  rw [hsource, expand_source (listUse_standsBefore hne h), ofInvocation_listUse,
    requoted_braced hne]

/-- **What becomes of a list of values** without parentheses. It is always expanded,
to what stands between its first quote and its last one, with all braces and
quotes gone from the ends of that and a pair of quotes around it. This is the
list just if there was nothing to take off: the first value begins plain and
the last one ends so, or there is but one value and it is empty. -/
theorem expand_listed (w : TimeWindow) {values : List String} (hne : values ≠ [])
    (h : ∀ v ∈ values, '(' ∉ v.toList ∧ ')' ∉ v.toList) :
    ∃ inner, listed values = inQuotes inner ∧
      expand ("$__expandMultiString(" ++ braced values ++ ")") w =
        .ok ⟨inQuotes (String.ofList (Text.stripEnds isValueMark inner.toList)), none, false⟩ ∧
      (inQuotes (String.ofList (Text.stripEnds isValueMark inner.toList)) = listed values ↔
        values = [""] ∨ BeginsPlain (values.head hne) ∧ EndsPlain (values.getLast hne)) := by
  refine ⟨between values, listed_eq hne, expand_braced hne h w, ?_⟩
  rw [listed_eq hne, ← stripEnds_between_iff hne, inQuotes, inQuotes, String.append_left_inj,
    String.append_right_inj, ← String.toList_inj, String.toList_ofList]

/-- A value with a quote, an empty one and one that begins with a brace stay as they
are behind a plain one. -/
theorem expand_listed_braceLast :
    braced ["a", "it's", "", "\x7db"] = "\x7b'a','it''s','','\x7db'\x7d" ∧
      expand ("$__expandMultiString(" ++ braced ["a", "it's", "", "\x7db"] ++ ")")
        ⟨.epoch, .epoch⟩ = .ok ⟨"'a','it''s','','\x7db'", none, false⟩ := by
  have hlisted : listed ["a", "it's", "", "\x7db"] = "'a','it''s','','\x7db'" := by decide +kernel
  obtain ⟨inner, -, hexpand, hsame⟩ := expand_listed ⟨.epoch, .epoch⟩
    (List.cons_ne_nil "a" ["it's", "", "\x7db"]) (by decide)
  have hplain : BeginsPlain "a" ∧ EndsPlain "\x7db" :=
    ⟨⟨'a', by decide, by decide⟩, ⟨'b', by decide, by decide⟩⟩
  refine ⟨by rw [braced, hlisted]; decide +kernel, ?_⟩
  rw [hexpand, ← hlisted, hsame.2 (Or.inr hplain)]

/-- **A first value that is empty is lost**, and what is left has a quote too few. -/
theorem expand_listed_emptyFirst :
    expand "$__expandMultiString(\x7b'','a'\x7d)" ⟨.epoch, .epoch⟩ = .ok ⟨"','a'", none, false⟩ ∧
      ¬∀ (w : TimeWindow) (values : List String), values ≠ [] →
        (∀ v ∈ values, '(' ∉ v.toList ∧ ')' ∉ v.toList) →
        ∃ x, expand ("$__expandMultiString(" ++ braced values ++ ")") w = .ok x ∧
          x.sql = listed values := by
  refine ⟨by decide +kernel, fun hall => ?_⟩
  have hparen : ∀ v ∈ ["", "a"], '(' ∉ v.toList ∧ ')' ∉ v.toList := by decide
  obtain ⟨x, hx, hsql⟩ := hall ⟨.epoch, .epoch⟩ ["", "a"] (List.cons_ne_nil _ _) hparen
  rw [expand_braced (List.cons_ne_nil _ _) hparen] at hx
  rw [← Except.ok.inj hx] at hsql
  exact absurd hsql (by decide +kernel)

end Directive

end WindowQuery
