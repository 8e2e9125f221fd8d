import Mathlib.Data.List.TakeWhile
import Mathlib.Logic.Relation
import WindowQuery.Proofs.Frame.Permitted
import WindowQuery.Proofs.Frame.Reading
import WindowQuery.Proofs.Frame.TypeName

/-!
# Spellings of a type name

One type is declared as `double precision`, as `DOUBLE  PRECISION` and as
` Double Precision(53)`. `Respelling` lists what such names may differ in, one
change at a time, and `SameName` puts any number of changes together, in any
order and in both directions.

The base name is a normal form for them (`sameName_iff`). No change affects it,
because the name is cut at the parenthesis before anything else is looked at,
and the capitals, which come last, move no blank and no parenthesis. And there
is nothing else in it: each name can be respelled to its base name, change by
change. So a column resolves by what its type is called, however that is
written (`resolve_respelled`).
-/

namespace WindowQuery

/-! ## Words between blanks -/

namespace Text

/-- **A run of blanks**, one at least. -/
structure IsBlankRun (b : List Char) : Prop where
  /-- There is one. -/
  nonempty : b ≠ []
  /-- All are blank. -/
  blank : ∀ c ∈ b, isBlank c = true

theorem isBlankRun_singleton {c : Char} (hc : isBlank c = true) : IsBlankRun [c] :=
  ⟨List.cons_ne_nil c [], fun _ hd => List.mem_singleton.1 hd ▸ hc⟩

theorem IsBlankRun.append {b b' : List Char} (hb : IsBlankRun b)
    (hb' : ∀ c ∈ b', isBlank c = true) : IsBlankRun (b ++ b') :=
  ⟨List.append_ne_nil_of_left_ne_nil hb.nonempty b',
    fun c hc => (List.mem_append.1 hc).elim (hb.blank c) (hb' c)⟩

/-- **No word goes across a blank.** -/
theorem words_append_cons {c : Char} (hc : isBlank c = true) (as bs : List Char) :
    words (as ++ c :: bs) = words as ++ words bs := by
  rw [words, List.splitOnP_append_cons as bs hc, List.filter_append]
  rfl

theorem words_blanks_append {b : List Char} (hb : ∀ c ∈ b, isBlank c = true) (cs : List Char) :
    words (b ++ cs) = words cs := by
  induction b with
  | nil => rfl
  | cons c b ih =>
    have hfirst : words (c :: (b ++ cs)) = words (b ++ cs) :=
      words_append_cons (hb c List.mem_cons_self) [] _
    rw [List.cons_append, hfirst, ih (fun d hd => hb d (List.mem_cons_of_mem c hd))]

/-- A run of blanks separates, however long it is. -/
theorem words_append_run {b : List Char} (hb : IsBlankRun b) (as cs : List Char) :
    words (as ++ (b ++ cs)) = words as ++ words cs := by
  obtain ⟨c, b, rfl⟩ := List.exists_cons_of_ne_nil hb.nonempty
  rw [List.cons_append, words_append_cons (hb.blank c List.mem_cons_self),
    words_blanks_append (fun d hd => hb.blank d (List.mem_cons_of_mem c hd))]

theorem words_append_blanks {b : List Char} (hb : ∀ c ∈ b, isBlank c = true) (cs : List Char) :
    words (cs ++ b) = words cs := by
  by_cases hne : b = []
  · rw [hne, List.append_nil]
  · have h := words_append_run ⟨hne, hb⟩ cs []
    rw [List.append_nil] at h
    exact h.trans (List.append_nil _)

theorem words_of_forall_not {w : List Char} (hne : w ≠ []) (hw : ∀ c ∈ w, isBlank c = false) :
    words w = [w] := by
  rw [words, List.splitOnP_eq_singleton hw]
  exact List.filter_cons_of_pos (by rwa [Bool.not_eq_true', List.isEmpty_eq_false_iff])

end Text

namespace TypeName

/-! ## Changes of spelling -/

/-- **One change of spelling.** -/
inductive Respelling : List Char → List Char → Prop
  /-- A letter becomes a capital. -/
  | capital (as : List Char) (c : Char) (bs : List Char) :
    Respelling (as ++ c :: bs) (as ++ c.toUpper :: bs)
  /-- Something is put behind the name, with a parenthesis in front of it. -/
  | suffix (stem more : List Char) : Respelling stem (stem ++ '(' :: more)
  /-- Blanks are put before the name. -/
  | leading {b : List Char} (hb : ∀ c ∈ b, Text.isBlank c = true) (cs : List Char) :
    Respelling cs (b ++ cs)
  /-- Blanks are put behind it. -/
  | trailing {b : List Char} (hb : ∀ c ∈ b, Text.isBlank c = true) (cs : List Char) :
    Respelling cs (cs ++ b)
  /-- A run of blanks becomes another. -/
  | run {b b' : List Char} (hb : Text.IsBlankRun b) (hb' : Text.IsBlankRun b') (as cs : List Char) :
    Respelling (as ++ (b ++ cs)) (as ++ (b' ++ cs))

/-- **Two spellings of one name**: changes of spelling lead from one to the other,
each of them made or taken back. -/
def SameName : List Char → List Char → Prop := Relation.EqvGen Respelling

namespace SameName

variable {as bs cs : List Char}

theorem of_respelling (h : Respelling as bs) : SameName as bs := .rel _ _ h

theorem symm (h : SameName as bs) : SameName bs as := Relation.EqvGen.symm _ _ h

theorem trans (h : SameName as bs) (h' : SameName bs cs) : SameName as cs :=
  Relation.EqvGen.trans _ _ _ h h'

end SameName

/-! ## No change affects the base name -/

/-- The words of a name before a parenthesis. -/
def stemWords (cs : List Char) : List (List Char) := Text.words (cs.takeWhile (· != '('))

theorem base_ofList (cs : List Char) :
    base (String.ofList cs) =
      String.ofList (([' '].intercalate (stemWords cs)).map Char.toUpper) := by
  rw [base, String.toList_ofList]
  rfl

theorem takeWhile_append_of_mem {as : List Char} (h : '(' ∈ as) (bs : List Char) :
    (as ++ bs).takeWhile (· != '(') = as.takeWhile (· != '(') := by
  obtain ⟨before, after, rfl, hbefore⟩ := List.eq_append_cons_of_mem h
  have hall : ∀ c ∈ before, (c != '(') = true := fun c hc =>
    bne_iff_ne.2 (fun he => hbefore (he ▸ hc))
  rw [List.append_assoc, List.takeWhile_append_of_pos hall, List.takeWhile_append_of_pos hall]
  rfl

theorem takeWhile_append_of_notMem {as : List Char} (h : '(' ∉ as) (bs : List Char) :
    (as ++ bs).takeWhile (· != '(') = as ++ bs.takeWhile (· != '(') :=
  List.takeWhile_append_of_pos (fun _ hc => bne_iff_ne.2 (fun he => h (he ▸ hc)))

theorem takeWhile_of_notMem {as : List Char} (h : '(' ∉ as) : as.takeWhile (· != '(') = as :=
  List.takeWhile_eq_self_iff.2 (fun _ hc => bne_iff_ne.2 (fun he => h (he ▸ hc)))

theorem paren_notMem_of_blank {b : List Char} (hb : ∀ c ∈ b, Text.isBlank c = true) : '(' ∉ b :=
  fun h => absurd (hb '(' h) (by decide)

/-- **A change of spelling leaves the base name as it is.** -/
theorem Respelling.base_eq {cs ds : List Char} (h : Respelling cs ds) :
    base (String.ofList cs) = base (String.ofList ds) := by
  -- All changes but that of a letter leave the words before a parenthesis as they are.
  have hwords : stemWords cs = stemWords ds → base (String.ofList cs) = base (String.ofList ds) :=
    fun h => by rw [base_ofList, base_ofList, h]
  cases h with
  | capital as c bs =>
    have hupper : (String.ofList (as ++ c :: bs)).toUpper =
        (String.ofList (as ++ c.toUpper :: bs)).toUpper := by
      rw [← String.toList_inj, String.toUpper, String.toUpper, String.toList_map, String.toList_map,
        String.toList_ofList, String.toList_ofList]
      simp only [List.map_append, List.map_cons, Char.toUpper_toUpper_eq_toUpper]
    rw [← base_toUpper, hupper, base_toUpper]
  | suffix stem more =>
    refine hwords ?_
    by_cases h : '(' ∈ cs
    · rw [stemWords, stemWords, takeWhile_append_of_mem h]
    · rw [stemWords, stemWords, takeWhile_append_of_notMem h, takeWhile_of_notMem h]
      exact congrArg Text.words (List.append_nil cs).symm
  | leading hb _ =>
    refine hwords ?_
    rw [stemWords, stemWords, takeWhile_append_of_notMem (paren_notMem_of_blank hb),
      Text.words_blanks_append hb]
  | trailing hb _ =>
    refine hwords ?_
    by_cases h : '(' ∈ cs
    · rw [stemWords, stemWords, takeWhile_append_of_mem h]
    · rw [stemWords, stemWords, takeWhile_append_of_notMem h, takeWhile_of_notMem h,
        takeWhile_of_notMem (paren_notMem_of_blank hb), Text.words_append_blanks hb]
  | run hb hb' as bs =>
    refine hwords ?_
    by_cases h : '(' ∈ as
    · rw [stemWords, stemWords, takeWhile_append_of_mem h, takeWhile_append_of_mem h]
    · rw [stemWords, stemWords, takeWhile_append_of_notMem h, takeWhile_append_of_notMem h,
        takeWhile_append_of_notMem (paren_notMem_of_blank hb.blank),
        takeWhile_append_of_notMem (paren_notMem_of_blank hb'.blank), Text.words_append_run hb,
        Text.words_append_run hb']

/-- **Nor do any number of changes**, made or taken back. -/
theorem SameName.base_eq {cs ds : List Char} (h : SameName cs ds) :
    base (String.ofList cs) = base (String.ofList ds) := by
  induction h with
  | rel _ _ h => exact h.base_eq
  | refl _ => rfl
  | symm _ _ _ ih => exact ih.symm
  | trans _ _ _ _ _ ih ih' => exact ih.trans ih'

/-! ## Every name is respelled to its base name -/

/-- The name without a parenthesis and what follows it. -/
theorem sameName_stem (cs : List Char) : SameName cs (cs.takeWhile (· != '(')) := by
  by_cases h : '(' ∈ cs
  · obtain ⟨before, after, rfl, hbefore⟩ := List.eq_append_cons_of_mem h
    have hstem : (before ++ '(' :: after).takeWhile (· != '(') = before :=
      (takeWhile_append_of_notMem hbefore _).trans (List.append_nil before)
    rw [hstem]
    exact (SameName.of_respelling (.suffix before after)).symm
  · rw [takeWhile_of_notMem h]
    exact .refl cs

/-- Each word with a blank in front of it. -/
def spaced (ws : List (List Char)) : List Char := ws.flatMap (' ' :: ·)

theorem spaced_cons (w : List Char) (ws : List (List Char)) :
    spaced (w :: ws) = ' ' :: (w ++ spaced ws) := rfl

theorem spaced_eq (w : List Char) (ws : List (List Char)) :
    spaced (w :: ws) = ' ' :: [' '].intercalate (w :: ws) := by
  induction ws generalizing w with
  | nil => rw [spaced_cons, List.intercalate_singleton]; exact congrArg _ (List.append_nil w)
  | cons v ws ih =>
    rw [spaced_cons, ih, List.intercalate_cons_cons, List.append_assoc, List.singleton_append]

/-- **Behind a run of blanks each run becomes one blank, and the last one nothing.**
Within a word there is nothing to do until it ends, so the induction is on the
text ahead, with what is known of its beginning: that blanks stand before it,
or a part of a word. -/
theorem sameName_spaced (cs : List Char) :
    (∀ as b, Text.IsBlankRun b → SameName (as ++ (b ++ cs)) (as ++ spaced (Text.words cs))) ∧
    (∀ as w, w ≠ [] → (∀ c ∈ w, Text.isBlank c = false) →
      SameName (as ++ ' ' :: (w ++ cs)) (as ++ spaced (Text.words (w ++ cs)))) := by
  -- the two statements take turns: a blank leads to the first, any other character to the second
  induction cs with
  | nil =>
    refine ⟨fun as b hb => ?_, fun as w hne hw => ?_⟩
    · have hnone : as ++ spaced (Text.words []) = as := List.append_nil as
      rw [hnone, List.append_nil]
      exact (SameName.of_respelling (.trailing hb.blank as)).symm
    · rw [List.append_nil, Text.words_of_forall_not hne hw, spaced_eq, List.intercalate_singleton]
      exact .refl _
  | cons c cs ih =>
    obtain ⟨ihblank, ihword⟩ := ih
    by_cases hc : Text.isBlank c = true
    · have hrun : Text.IsBlankRun [c] := Text.isBlankRun_singleton hc
      refine ⟨fun as b hb => ?_, fun as w hne hw => ?_⟩
      · have h := ihblank as (b ++ [c]) (hb.append hrun.blank)
        rwa [List.append_assoc, ← Text.words_blanks_append hrun.blank] at h
      · have h := ihblank (as ++ ' ' :: w) [c] hrun
        rw [Text.words_append_cons hc, Text.words_of_forall_not hne hw, List.singleton_append,
          spaced_cons]
        simpa only [List.append_assoc, List.cons_append, List.nil_append] using h
    · have hletter : ∀ d ∈ [c], Text.isBlank d = false := fun d hd =>
        List.mem_singleton.1 hd ▸ Bool.eq_false_iff.2 hc
      refine ⟨fun as b hb => ?_, fun as w hne hw => ?_⟩
      · exact (SameName.of_respelling (.run hb (Text.isBlankRun_singleton rfl) as (c :: cs))).trans
          (ihword as [c] (List.cons_ne_nil c []) hletter)
      · have h := ihword as (w ++ [c]) (List.append_ne_nil_of_left_ne_nil hne [c])
          (fun d hd => (List.mem_append.1 hd).elim (hw d) (hletter d))
        rwa [List.append_assoc] at h

/-- The words of the name, one blank apart. -/
theorem sameName_words (cs : List Char) : SameName cs ([' '].intercalate (Text.words cs)) := by
  have hblank : Text.IsBlankRun [' '] := Text.isBlankRun_singleton rfl
  have hfront : ∀ ds, SameName ds (' ' :: ds) := fun ds => .of_respelling (.leading hblank.blank ds)
  have hspaced : SameName cs (spaced (Text.words cs)) :=
    (hfront cs).trans ((sameName_spaced cs).1 [] [' '] hblank)
  cases hws : Text.words cs with
  | nil => rwa [hws] at hspaced
  | cons w ws =>
    rw [hws, spaced_eq] at hspaced
    exact hspaced.trans (hfront _).symm

theorem sameName_toUpper (as cs : List Char) : SameName (as ++ cs) (as ++ cs.map Char.toUpper) := by
  induction cs generalizing as with
  | nil => exact .refl _
  | cons c cs ih =>
    have h := ih (as ++ [c.toUpper])
    rw [List.append_assoc, List.append_assoc] at h
    exact (SameName.of_respelling (.capital as c cs)).trans h

theorem sameName_base (typeName : String) : SameName typeName.toList (base typeName).toList := by
  have h := ((sameName_stem typeName.toList).trans (sameName_words _)).trans (sameName_toUpper [] _)
  unfold base
  rwa [String.toList_ofList]

/-- **Two spellings are of one name just if they have one base name.** -/
theorem sameName_iff {s t : String} : SameName s.toList t.toList ↔ base s = base t := by
  constructor
  · intro h
    have hbase := h.base_eq
    rwa [String.ofList_toList, String.ofList_toList] at hbase
  · intro h
    have hs := sameName_base s
    rw [h] at hs
    exact hs.trans (sameName_base t).symm

/-! ## Types of columns -/

/-- Whether a type name resolves, and to what, is a matter of its base name. -/
theorem toOption_resolve_congr {s t : String} (h : base s = base t) (name : String)
    (timeGrouped : Bool) :
    (resolve ⟨name, s⟩ timeGrouped).toOption = (resolve ⟨name, t⟩ timeGrouped).toOption := by
  unfold resolve
  dsimp only
  rw [h]
  split
  · rfl
  · split <;> rfl

/-- **A column resolves by what its type is called**, and not by how that is
written: with two spellings of one name it fails both times, or resolves to the
same type. A column that names series resolves to a text, a truth value or no
type yet; under a barred name, however spelled, it does not resolve. -/
theorem resolve_respelled (name : String) (timeGrouped : Bool) {s t : String}
    (h : SameName s.toList t.toList) :
    (resolve ⟨name, s⟩ timeGrouped).toOption = (resolve ⟨name, t⟩ timeGrouped).toOption ∧
    (∀ u, resolve ⟨metricName, s⟩ timeGrouped = .ok u →
      u = .known .string ∨ u = .known .boolean ∨ u = .unknown) ∧
    (t ∈ barredNames → (resolve ⟨metricName, s⟩ timeGrouped).toOption = none) := by
  have hbase : base s = base t := sameName_iff.1 h
  refine ⟨toOption_resolve_congr hbase name timeGrouped, fun u hu => ?_, fun hbarred => ?_⟩
  · have hobeys := Accumulator.Obeys.ofType hu
    cases u with
    | unknown => exact .inr (.inr rfl)
    | known v =>
      have hfree : isBarred v = false := Permitted.metric hobeys rfl
      cases v with
      | string => exact .inl rfl
      | boolean => exact .inr (.inl rfl)
      | time | integer | float => cases hfree
  · obtain ⟨v, hv, hb⟩ := exists_isBarred hbarred
    have herror : resolve ⟨metricName, s⟩ timeGrouped = .error _ :=
      resolve_eq_error_iff.2 ⟨v, ⟨rfl, hbase ▸ hv, hb⟩, rfl⟩
    rw [herror]
    rfl

/-- Small letters, other blanks and a precision. -/
theorem resolve_respelled_precision :
    SameName "\u2003double\u00a0\tPrecision (53, 0) ".toList "DOUBLE PRECISION".toList ∧
      (resolve ⟨"load", "\u2003double\u00a0\tPrecision (53, 0) "⟩ false).toOption =
        (resolve ⟨"load", "DOUBLE PRECISION"⟩ false).toOption ∧
      (resolve ⟨"load", "DOUBLE PRECISION"⟩ false).toOption = some (.known .float) := by
  have h : SameName "\u2003double\u00a0\tPrecision (53, 0) ".toList "DOUBLE PRECISION".toList :=
    sameName_iff.2 (by decide +kernel)
  exact ⟨h, (resolve_respelled "load" false h).1, by decide +kernel⟩

end TypeName

end WindowQuery
