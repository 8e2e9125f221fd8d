import WindowQuery.Directive.Token
import WindowQuery.Proofs.Text.Run

/-!
# Where a directive opens

A directive opens at `$__` and a character of a word, whatever comes later:
its name reaches as far as there are such characters, and a list that is
never closed spoils the reading of the text, not the opening. The openings
of a text can therefore be counted, and the count of two texts one after
the other is the sum of their counts, unless characters of the second one
go on with what the first one ends in. `EndsName` is the condition that
they do not; the dollar sign that begins a directive and the parenthesis
that ends one both meet it.
-/

namespace WindowQuery

namespace Directive

/-! ## Openings -/

/-- **A directive opens at the front of the text.** -/
def Opens (cs : List Char) : Prop := ∃ c, isWord c = true ∧ ['$', '_', '_', c] <+: cs

/-- **A directive opens somewhere in the text**: it holds `$__` followed by a
character of a word. -/
def Mentions (cs : List Char) : Prop := ∃ c, isWord c = true ∧ ['$', '_', '_', c] <:+: cs

/-- The text does not go on a name that ends where it begins. -/
def EndsName (cs : List Char) : Prop := ∀ c ∈ cs.head?, isWord c = false

/-- The shape of a name: two underscores and a word. -/
def IsName (name : List Char) : Prop :=
  ∃ word, name = '_' :: '_' :: word ∧ word ≠ [] ∧ ∀ c ∈ word, isWord c = true

theorem Opens.append {cs : List Char} (h : Opens cs) (rest : List Char) : Opens (cs ++ rest) := by
  obtain ⟨c, hc, hcs⟩ := h
  exact ⟨c, hc, hcs.trans (List.prefix_append cs rest)⟩

theorem Opens.head?_eq {cs : List Char} (h : Opens cs) : cs.head? = some '$' := by
  obtain ⟨c, -, rest, rfl⟩ := h
  rfl

theorem Opens.mentions {cs : List Char} (h : Opens cs) : Mentions cs := by
  obtain ⟨c, hc, hcs⟩ := h
  exact ⟨c, hc, hcs.isInfix⟩

theorem IsName.opens {name : List Char} (h : IsName name) (rest : List Char) :
    Opens ('$' :: (name ++ rest)) := by
  obtain ⟨word, rfl, hne, hword⟩ := h
  cases word with
  | nil => exact absurd rfl hne
  | cons c word => exact ⟨c, hword c List.mem_cons_self, word ++ rest, rfl⟩

theorem IsName.dollar_notMem {name : List Char} (h : IsName name) : '$' ∉ name := by
  obtain ⟨word, rfl, -, hword⟩ := h
  intro hmem
  rcases List.mem_cons.1 hmem with h | hmem
  · exact absurd h (by decide)
  rcases List.mem_cons.1 hmem with h | hmem
  · exact absurd h (by decide)
  · exact absurd (hword _ hmem) (by decide)

theorem endsName_nil : EndsName [] := fun _ h => by cases h

theorem endsName_cons {c : Char} {cs : List Char} : EndsName (c :: cs) ↔ isWord c = false :=
  Text.forall_head?_cons

theorem Opens.endsName {cs : List Char} (h : Opens cs) : EndsName cs := by
  intro c hc
  rw [h.head?_eq] at hc
  obtain rfl := Option.some.inj hc
  decide

/-- **An opening does not reach over the end of a name**: what opens where a
text begins opens within that text. -/
theorem opens_append_iff {as bs : List Char} (has : as ≠ []) (hbs : EndsName bs) :
    Opens (as ++ bs) ↔ Opens as := by
  refine ⟨?_, fun h => h.append bs⟩
  rintro ⟨c, hc, hcs⟩
  refine ⟨c, hc, ?_⟩
  -- Every character of an opening but the first belongs to a word, so that `bs`, which begins
  -- with none, cannot hold the later ones.
  have hword : ∀ d ∈ bs.head?, d ≠ '_' ∧ d ≠ c := by
    intro d hd
    refine ⟨fun he => absurd (hbs d hd) (he ▸ by decide), fun he => ?_⟩
    rw [← he, hbs d hd] at hc
    cases hc
  match as, has, hcs with
  | [a], _, hcs =>
    obtain ⟨-, hcs⟩ := List.cons_prefix_cons.1 hcs
    obtain ⟨rest, rfl⟩ := hcs
    exact absurd rfl (hword '_' rfl).1
  | [a, b], _, hcs =>
    obtain ⟨-, hcs⟩ := List.cons_prefix_cons.1 hcs
    obtain ⟨-, hcs⟩ := List.cons_prefix_cons.1 hcs
    obtain ⟨rest, rfl⟩ := hcs
    exact absurd rfl (hword '_' rfl).1
  | [a, b, d], _, hcs =>
    obtain ⟨-, hcs⟩ := List.cons_prefix_cons.1 hcs
    obtain ⟨-, hcs⟩ := List.cons_prefix_cons.1 hcs
    obtain ⟨-, hcs⟩ := List.cons_prefix_cons.1 hcs
    obtain ⟨rest, rfl⟩ := hcs
    exact absurd rfl (hword c rfl).2
  | a :: b :: d :: e :: as, _, hcs =>
    exact List.prefix_of_prefix_length_le hcs (List.prefix_append _ bs) (Nat.le_add_left 4 _)

theorem mentions_cons {c : Char} {cs : List Char} :
    Mentions (c :: cs) ↔ Opens (c :: cs) ∨ Mentions cs := by
  constructor
  · rintro ⟨d, hd, h⟩
    rcases List.infix_cons_iff.1 h with h | h
    · exact Or.inl ⟨d, hd, h⟩
    · exact Or.inr ⟨d, hd, h⟩
  · rintro (h | ⟨d, hd, h⟩)
    · exact h.mentions
    · exact ⟨d, hd, h.trans (List.suffix_cons c cs).isInfix⟩

theorem not_mentions_nil : ¬Mentions [] := by
  rintro ⟨c, -, h⟩
  cases List.infix_nil.1 h

/-! ## Reading a name -/

/-- **A name is read where a directive opens**, and all of it: what follows does
not go on with it. -/
theorem name?_eq_some_iff {cs name rest : List Char} :
    name? cs = some (name, rest) ↔
      cs = '$' :: (name ++ rest) ∧ IsName name ∧ EndsName rest := by
  constructor
  · intro h
    unfold name? at h
    split at h
    · next r =>
      dsimp only at h
      split at h
      · cases h
      · next hne =>
        obtain ⟨rfl, rfl⟩ := Prod.mk.inj (Option.some.inj h)
        have hr : r.takeWhile isWord ++ r.dropWhile isWord = r := List.takeWhile_append_dropWhile
        refine ⟨congrArg (fun cs => '$' :: '_' :: '_' :: cs) hr.symm,
          ⟨_, rfl, fun he => hne (List.isEmpty_iff.2 he), fun c hc => ?_⟩,
          Text.endsRun_dropWhile isWord r⟩
        exact List.mem_takeWhile_imp hc
    · cases h
  · rintro ⟨rfl, ⟨word, rfl, hne, hword⟩, hrest⟩
    show (if ((word ++ rest).takeWhile isWord).isEmpty then none else some
      ('_' :: '_' :: (word ++ rest).takeWhile isWord, (word ++ rest).dropWhile isWord)) = _
    rw [Text.takeWhile_run_append hword hrest, Text.dropWhile_run_append hword hrest,
      if_neg (fun he => hne (List.isEmpty_iff.1 he))]

theorem isSome_name? {cs : List Char} : (name? cs).isSome = true ↔ Opens cs := by
  constructor
  · intro h
    obtain ⟨⟨name, rest⟩, h⟩ := Option.isSome_iff_exists.1 h
    obtain ⟨rfl, hname, -⟩ := name?_eq_some_iff.1 h
    exact hname.opens rest
  · rintro ⟨c, hc, rest, rfl⟩
    have h : name? ('$' :: '_' :: '_' :: c :: rest) =
        some ('_' :: '_' :: (c :: rest).takeWhile isWord, (c :: rest).dropWhile isWord) := by
      rw [name?, List.takeWhile_cons_of_pos hc]
      rfl
    exact Option.isSome_iff_exists.2 ⟨_, h⟩

/-! ## Counting openings -/

/-- **How many directives open in a text**, those within the lists of others
among them. -/
def openings : List Char → Nat
  | [] => 0
  | c :: cs => (if (name? (c :: cs)).isSome then 1 else 0) + openings cs

theorem openings_of_opens {c : Char} {cs : List Char} (h : Opens (c :: cs)) :
    openings (c :: cs) = 1 + openings cs := by
  rw [openings, if_pos (isSome_name?.2 h)]

theorem openings_of_not_opens {c : Char} {cs : List Char} (h : ¬Opens (c :: cs)) :
    openings (c :: cs) = openings cs := by
  rw [openings, if_neg (fun hs => h (isSome_name?.1 hs)), Nat.zero_add]

/-- **A text mentions no directive just if none opens in it.** -/
theorem openings_eq_zero {cs : List Char} : openings cs = 0 ↔ ¬Mentions cs := by
  induction cs with
  | nil => exact ⟨fun _ => not_mentions_nil, fun _ => rfl⟩
  | cons c cs ih =>
    rw [mentions_cons, not_or, ← ih]
    by_cases h : Opens (c :: cs)
    · rw [openings_of_opens h, Nat.add_comm]
      exact ⟨fun h0 => (Nat.succ_ne_zero _ h0).elim, fun h0 => (h0.1 h).elim⟩
    · rw [openings_of_not_opens h]
      exact ⟨fun h0 => ⟨h, h0⟩, And.right⟩

/-- Counting decides whether a text mentions a directive. -/
instance decidableMentions (cs : List Char) : Decidable (Mentions cs) :=
  decidable_of_iff (openings cs ≠ 0) (by rw [Ne, openings_eq_zero, Classical.not_not])

/-- **The openings of two texts add up** if the second one does not go on a
name. -/
theorem openings_append {as bs : List Char} (h : EndsName bs) :
    openings (as ++ bs) = openings as + openings bs := by
  induction as with
  | nil => exact (Nat.zero_add _).symm
  | cons a as ih =>
    have hiff : Opens (a :: as ++ bs) ↔ Opens (a :: as) :=
      opens_append_iff (List.cons_ne_nil a as) h
    rw [List.cons_append] at hiff ⊢
    by_cases ha : Opens (a :: as)
    · rw [openings_of_opens ha, openings_of_opens (hiff.2 ha), ih, Nat.add_assoc]
    · rw [openings_of_not_opens ha, openings_of_not_opens (fun h => ha (hiff.1 h)), ih]

theorem openings_append_of_notMem {as bs : List Char} (h : '$' ∉ as) :
    openings (as ++ bs) = openings bs := by
  induction as with
  | nil => rfl
  | cons a as ih =>
    rw [List.mem_cons, not_or] at h
    have ha : ¬Opens (a :: (as ++ bs)) := fun ho => h.1 (Option.some.inj ho.head?_eq).symm
    rw [List.cons_append, openings_of_not_opens ha, ih h.2]

theorem openings_le_of_suffix {as bs : List Char} (h : as <:+ bs) :
    openings as ≤ openings bs := by
  obtain ⟨before, rfl⟩ := h
  induction before with
  | nil => exact Nat.le_refl _
  | cons b before ih => exact Nat.le_trans ih (Nat.le_add_left _ _)

/-- **The openings within a use of a directive are its own** and those within its
list; they do not depend on what follows. -/
theorem Invocation.openings_source_append {i : Invocation} (h : IsName i.name.toList)
    (rest : List Char) : openings (i.source ++ rest) = openings i.source + openings rest := by
  -- A source ends with its name or with a parenthesis; after either one, counting starts anew.
  have hsource : ∃ n, ∀ cs, openings (i.source ++ cs) = n + openings cs := by
    unfold Invocation.source
    cases i.list with
    | none =>
      refine ⟨1, fun cs => ?_⟩
      show openings ('$' :: (i.name.toList ++ [] ++ cs)) = 1 + openings cs
      rw [List.append_nil, openings_of_opens (h.opens cs),
        openings_append_of_notMem h.dollar_notMem]
    | some list =>
      refine ⟨openings ('$' :: (i.name.toList ++ '(' :: list.toList)), fun cs => ?_⟩
      have hclose : ¬Opens (')' :: cs) := fun ho =>
        absurd (Option.some.inj ho.head?_eq) (by decide)
      have hsplit : '$' :: (i.name.toList ++ '(' :: (list.toList ++ [')'])) ++ cs =
          ('$' :: (i.name.toList ++ '(' :: list.toList)) ++ ')' :: cs := by
        simp only [List.cons_append, List.append_assoc, List.nil_append]
      show openings ('$' :: (i.name.toList ++ '(' :: (list.toList ++ [')'])) ++ cs) = _
      rw [hsplit, openings_append (endsName_cons.2 (by decide)), openings_of_not_opens hclose]
  obtain ⟨n, hn⟩ := hsource
  have hown : openings i.source = n := by
    rw [← List.append_nil i.source, hn]
    rfl
  rw [hn, hown]

/-- A use whose name has the shape of one opens a directive. -/
theorem Invocation.opens_source {i : Invocation} (h : IsName i.name.toList) (rest : List Char) :
    Opens (i.source ++ rest) := by
  unfold Invocation.source
  rw [List.cons_append, List.append_assoc]
  exact h.opens _

end Directive

end WindowQuery
