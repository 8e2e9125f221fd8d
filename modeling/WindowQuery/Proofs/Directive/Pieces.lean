import WindowQuery.Proofs.Directive.Cutting

/-!
# The pieces of an argument list

Parentheses are counted twice. One count finds the parenthesis that closes
an argument list, and another one, which begins anew, finds the commas that
separate its arguments. The second is not careful: a parenthesis that
closes nothing leaves it at zero, and it goes on as if there had been none.
Of a text such as `a),(b,c` it makes two pieces, and neither has its
parentheses in order.

It never comes to that, because of what the first count has seen to: the
list is balanced, so a parenthesis always closes one that is open
(`piecesChecked_eq`). `Splits` says what the pieces are then, without
counting along: they make up the list, they are balanced, and no comma
stands outside the parentheses of one. There is only one way to split a
text like that (`pieces_intercalate`), and on a balanced one `pieces` finds
it (`splits_iff`).
-/

namespace WindowQuery

namespace Directive

/-! ## What separates -/

/-- **A comma that separates**: one outside all parentheses, where so many have
been open from the beginning on. -/
def SeparatesAt (depth : Nat) (cs : List Char) (i : Nat) : Prop :=
  cs[i]? = some ',' ∧ (cs.take i).count ')' = depth + (cs.take i).count '('

instance (depth : Nat) (cs : List Char) (i : Nat) : Decidable (SeparatesAt depth cs i) :=
  inferInstanceAs (Decidable (_ ∧ _))

/-- How many commas separate. -/
def separators (depth : Nat) (cs : List Char) : Nat :=
  (List.range cs.length).countP (fun i => SeparatesAt depth cs i)

/-- **A text split at its commas.** -/
structure Splits (cs : List Char) (ps : List (List Char)) : Prop where
  /-- The pieces with commas between them are the text. -/
  joined : [','].intercalate ps = cs
  /-- Each piece is balanced. -/
  balanced : ∀ p ∈ ps, Balanced p
  /-- No comma separates within a piece. -/
  whole : ∀ p ∈ ps, ∀ i, ¬SeparatesAt 0 p i

/-- **How many parentheses are open after a character**, unless it closes one where
none is. -/
def depthAfter (depth : Nat) (c : Char) : Except Stop Nat :=
  if c = '(' then .ok (depth + 1) else if c = ')' then minus depth 1 else .ok depth

/-- The pieces of a list, where no parenthesis may close one that is not open. -/
def piecesChecked (depth : Nat) : List Char → Except Stop (List (List Char))
  | [] => .ok [[]]
  | c :: rest =>
    if c = ',' ∧ depth = 0 then (piecesChecked 0 rest).map ([] :: ·)
    else (depthAfter depth c).bind (fun inner =>
      (piecesChecked inner rest).map (List.modifyHead (c :: ·)))

/-! ## One character -/

section

variable {depth next : Nat} {c : Char} {cs : List Char}

/-- The three ways to go on from a character. -/
theorem depthAfter_eq_ok (h : depthAfter depth c = .ok next) :
    (c = '(' ∧ next = depth + 1) ∨ (c = ')' ∧ depth = next + 1) ∨
      (c ≠ '(' ∧ c ≠ ')' ∧ next = depth) := by
  unfold depthAfter at h
  split at h
  · next hopen => exact Or.inl ⟨hopen, (Except.ok.inj h).symm⟩
  · next hopen =>
    split at h
    · next hclose =>
      unfold minus at h
      split at h
      · next hle =>
        have hnext := Except.ok.inj h
        exact Or.inr (Or.inl ⟨hclose, by omega⟩)
      · cases h
    · next hclose => exact Or.inr (Or.inr ⟨hopen, hclose, (Except.ok.inj h).symm⟩)

/-- **What is open later does not depend on where the count begins.** -/
theorem count_cons_of_depthAfter (h : depthAfter depth c = .ok next) (cs : List Char) :
    depth + (c :: cs).count '(' + cs.count ')' = next + cs.count '(' + (c :: cs).count ')' := by
  rcases depthAfter_eq_ok h with ⟨rfl, rfl⟩ | ⟨rfl, rfl⟩ | ⟨hopen, hclose, rfl⟩
  · rw [List.count_cons_self, List.count_cons_of_ne (by decide)]
    omega
  · rw [(count_cons_close cs).1, (count_cons_close cs).2]
    omega
  · rw [List.count_cons_of_ne hopen, List.count_cons_of_ne hclose]

/-- **A text that closes all that is open** closes nothing else with its first
character. -/
theorem closesFrom_cons_iff : ClosesFrom depth (c :: cs) ↔
    ∃ next, depthAfter depth c = .ok next ∧ ClosesFrom next cs := by
  by_cases hc : c = ')'
  · subst hc
    rw [closesFrom_close]
    constructor
    · rintro ⟨inner, rfl, h⟩
      exact ⟨inner, rfl, h⟩
    · rintro ⟨next, hnext, h⟩
      rcases depthAfter_eq_ok hnext with ⟨hopen, -⟩ | ⟨-, hdepth⟩ | ⟨-, hclose, -⟩
      · cases hopen
      · exact ⟨next, hdepth, h⟩
      · exact absurd rfl hclose
  · rw [closesFrom_cons hc]
    by_cases hopen : c = '('
    · simp [depthAfter, hopen]
    · simp [depthAfter, hopen, hc]

theorem separatesAt_zero : SeparatesAt depth (c :: cs) 0 ↔ c = ',' ∧ depth = 0 := by
  unfold SeparatesAt
  rw [List.getElem?_cons_zero, List.take_zero, List.count_nil, List.count_nil, Nat.add_zero,
    Option.some_inj, eq_comm (a := 0)]

theorem separatesAt_succ (h : depthAfter depth c = .ok next) (i : Nat) :
    SeparatesAt depth (c :: cs) (i + 1) ↔ SeparatesAt next cs i := by
  have hcount := count_cons_of_depthAfter h (cs.take i)
  unfold SeparatesAt
  rw [List.getElem?_cons_succ, List.take_succ_cons]
  refine and_congr_right fun _ => ?_
  omega

theorem separators_cons (h : depthAfter depth c = .ok next) :
    separators depth (c :: cs) = (if c = ',' ∧ depth = 0 then 1 else 0) + separators next cs := by
  unfold separators
  rw [List.length_cons, List.range_succ_eq_map, List.countP_cons, List.countP_map, Nat.add_comm]
  refine congrArg₂ (· + ·) ?_ (List.countP_congr fun i _ => ?_)
  · simp only [separatesAt_zero, decide_eq_true_eq]
  · simpa using separatesAt_succ h i

/-! ## What the cut makes of a character -/

theorem pieces_separator (cs : List Char) : pieces 0 (',' :: cs) = [] :: pieces 0 cs := by
  rw [pieces, if_pos ⟨rfl, rfl⟩]

theorem pieces_ne_nil (depth : Nat) (cs : List Char) : pieces depth cs ≠ [] := by
  cases cs with
  | nil => exact List.cons_ne_nil _ _
  | cons c cs =>
    rw [pieces]
    split
    · exact List.cons_ne_nil _ _
    · dsimp only
      split
      · exact List.cons_ne_nil _ _
      · exact List.cons_ne_nil _ _

theorem pieces_cons_of_not (hsep : ¬(c = ',' ∧ depth = 0)) (cs : List Char) :
    pieces depth (c :: cs) =
      (pieces (if c = '(' then depth + 1 else if c = ')' then depth - 1 else depth) cs).modifyHead
        (c :: ·) := by
  rw [pieces, if_neg hsep]
  dsimp only
  split
  · next hnil => exact absurd hnil (pieces_ne_nil _ _)
  · next p more hpieces => rw [hpieces, List.modifyHead_cons]

/-- **A character that does not separate belongs to the first piece of what follows.**
Where it closes nothing that is not open, the pieces are counted at the depth of
the parentheses, and the two ways of counting agree. -/
theorem pieces_cons (hsep : ¬(c = ',' ∧ depth = 0)) (h : depthAfter depth c = .ok next)
    (cs : List Char) : pieces depth (c :: cs) = (pieces next cs).modifyHead (c :: ·) := by
  rw [pieces_cons_of_not hsep]
  rcases depthAfter_eq_ok h with ⟨rfl, rfl⟩ | ⟨rfl, rfl⟩ | ⟨hopen, hclose, rfl⟩
  · rfl
  · rfl
  · rw [if_neg hopen, if_neg hclose]

end

/-! ## All of the text -/

/-- **A piece of a text**, where so many parentheses are open at its beginning. -/
structure IsPiece (depth : Nat) (p : List Char) : Prop where
  /-- It closes them and what it opens. -/
  closes : ClosesFrom depth p
  /-- No comma separates within it. -/
  whole : ∀ i, ¬SeparatesAt depth p i

section

variable {depth next : Nat} {c : Char} {p : List Char}

theorem isPiece_nil : IsPiece 0 [] where
  closes := closesFrom_nil.2 rfl
  whole := fun _ h => by cases h.1

/-- **A piece, by its first character.** -/
theorem isPiece_cons_iff (h : depthAfter depth c = .ok next) :
    IsPiece depth (c :: p) ↔ ¬(c = ',' ∧ depth = 0) ∧ IsPiece next p := by
  constructor
  · intro hp
    obtain ⟨next', hnext', hcloses⟩ := closesFrom_cons_iff.1 hp.closes
    obtain rfl := Except.ok.inj (h.symm.trans hnext')
    exact ⟨fun hsep => hp.whole 0 (separatesAt_zero.2 hsep), hcloses,
      fun i hi => hp.whole (i + 1) ((separatesAt_succ h i).2 hi)⟩
  · rintro ⟨hsep, hp⟩
    refine ⟨closesFrom_cons_iff.2 ⟨next, h, hp.closes⟩, fun i => ?_⟩
    cases i with
    | zero => exact fun h0 => hsep (separatesAt_zero.1 h0)
    | succ i => exact fun hi => hp.whole i ((separatesAt_succ h i).1 hi)

end

/-- **Nothing is lost**, whether the parentheses are in order or not. -/
theorem intercalate_pieces (depth : Nat) (cs : List Char) :
    [','].intercalate (pieces depth cs) = cs := by
  induction cs generalizing depth with
  | nil => exact List.intercalate_singleton
  | cons c cs ih =>
    by_cases hsep : c = ',' ∧ depth = 0
    · obtain ⟨rfl, rfl⟩ := hsep
      rw [pieces_separator, List.intercalate_cons_of_ne_nil (pieces_ne_nil _ _), ih]
      rfl
    · obtain ⟨p, rest, hpieces⟩ := List.exists_cons_of_ne_nil (pieces_ne_nil
        (if c = '(' then depth + 1 else if c = ')' then depth - 1 else depth) cs)
      rw [pieces_cons_of_not hsep, hpieces, List.modifyHead_cons, List.intercalate_cons_cons_left,
        ← hpieces, ih]

/-- **What is cut are pieces**, the first of which closes what was open. -/
theorem isPiece_pieces {depth : Nat} {cs : List Char} (h : ClosesFrom depth cs) :
    ∃ p rest, pieces depth cs = p :: rest ∧ IsPiece depth p ∧ ∀ q ∈ rest, IsPiece 0 q := by
  induction cs generalizing depth with
  | nil =>
    obtain rfl := closesFrom_nil.1 h
    exact ⟨[], [], rfl, isPiece_nil, fun q hq => by cases hq⟩
  | cons c cs ih =>
    obtain ⟨next, hnext, hcs⟩ := closesFrom_cons_iff.1 h
    obtain ⟨p, rest, hpieces, hp, hrest⟩ := ih hcs
    by_cases hsep : c = ',' ∧ depth = 0
    · obtain ⟨rfl, rfl⟩ := hsep
      obtain rfl := Except.ok.inj hnext
      refine ⟨[], p :: rest, by rw [pieces_separator, hpieces], isPiece_nil, fun q hq => ?_⟩
      rcases List.mem_cons.1 hq with rfl | hq
      · exact hp
      · exact hrest q hq
    · refine ⟨c :: p, rest, ?_, (isPiece_cons_iff hnext).2 ⟨hsep, hp⟩, hrest⟩
      rw [pieces_cons hsep hnext, hpieces, List.modifyHead_cons]

/-- **Pieces that are joined are cut apart again.** The first may be what is left
of a piece within some open parentheses, which is how the induction meets it;
those after it begin at depth zero. -/
theorem pieces_intercalate {rest : List (List Char)} (hrest : ∀ q ∈ rest, IsPiece 0 q) {depth : Nat}
    {p : List Char} (hp : IsPiece depth p) :
    pieces depth ([','].intercalate (p :: rest)) = p :: rest := by
  induction rest generalizing depth p with
  | nil =>
    rw [List.intercalate_singleton]
    induction p generalizing depth with
    | nil => rfl
    | cons c p ih =>
      obtain ⟨next, hnext, -⟩ := closesFrom_cons_iff.1 hp.closes
      obtain ⟨hsep, hp⟩ := (isPiece_cons_iff hnext).1 hp
      rw [pieces_cons hsep hnext, ih hp, List.modifyHead_cons]
  | cons q rest ihrest =>
    induction p generalizing depth with
    | nil =>
      obtain rfl := closesFrom_nil.1 hp.closes
      rw [List.intercalate_cons_cons, List.nil_append, List.singleton_append, pieces_separator,
        ihrest (fun r hr => hrest r (List.mem_cons_of_mem q hr)) (hrest q List.mem_cons_self)]
    | cons c p ih =>
      obtain ⟨next, hnext, -⟩ := closesFrom_cons_iff.1 hp.closes
      obtain ⟨hsep, hp⟩ := (isPiece_cons_iff hnext).1 hp
      rw [List.intercalate_cons_cons_left, pieces_cons hsep hnext, ih hp, List.modifyHead_cons]

/-- There is one piece more than commas that separate. -/
theorem length_pieces {depth : Nat} {cs : List Char} (h : ClosesFrom depth cs) :
    (pieces depth cs).length = separators depth cs + 1 := by
  induction cs generalizing depth with
  | nil => rfl
  | cons c cs ih =>
    obtain ⟨next, hnext, hcs⟩ := closesFrom_cons_iff.1 h
    rw [separators_cons hnext]
    by_cases hsep : c = ',' ∧ depth = 0
    · obtain ⟨rfl, rfl⟩ := hsep
      obtain rfl := Except.ok.inj hnext
      rw [pieces_separator, List.length_cons, ih hcs, if_pos ⟨rfl, rfl⟩, Nat.add_comm 1]
    · rw [pieces_cons hsep hnext, List.length_modifyHead, ih hcs, if_neg hsep, Nat.zero_add]

/-- **The count never goes below zero** on a text that closes what is open. -/
theorem piecesChecked_eq {depth : Nat} {cs : List Char} (h : ClosesFrom depth cs) :
    piecesChecked depth cs = .ok (pieces depth cs) := by
  induction cs generalizing depth with
  | nil => rfl
  | cons c cs ih =>
    obtain ⟨next, hnext, hcs⟩ := closesFrom_cons_iff.1 h
    rw [piecesChecked]
    by_cases hsep : c = ',' ∧ depth = 0
    · obtain ⟨rfl, rfl⟩ := hsep
      obtain rfl := Except.ok.inj hnext
      rw [if_pos ⟨rfl, rfl⟩, ih hcs, pieces_separator]
      rfl
    · rw [if_neg hsep, hnext, pieces_cons hsep hnext]
      show (piecesChecked next cs).map _ = _
      rw [ih hcs]
      rfl

/-- **A balanced text is split by its pieces**, and there is no other way to split
it. -/
theorem splits_iff {cs : List Char} (h : Balanced cs) (hne : cs ≠ []) {ps : List (List Char)} :
    Splits cs ps ↔ ps = pieces 0 cs := by
  constructor
  · intro hps
    cases ps with
    | nil => exact absurd hps.joined.symm hne
    | cons p rest =>
      have hpiece : ∀ q ∈ p :: rest, IsPiece 0 q := fun q hq =>
        ⟨closesFrom_zero.2 (hps.balanced q hq), hps.whole q hq⟩
      rw [← hps.joined]
      exact (pieces_intercalate (fun q hq => hpiece q (List.mem_cons_of_mem p hq))
        (hpiece p List.mem_cons_self)).symm
  · rintro rfl
    obtain ⟨p, rest, hpieces, hp, hrest⟩ := isPiece_pieces (closesFrom_zero.2 h)
    have hpiece : ∀ q ∈ pieces 0 cs, IsPiece 0 q := by
      rw [hpieces]
      exact List.forall_mem_cons.2 ⟨hp, hrest⟩
    exact ⟨intercalate_pieces 0 cs, fun q hq => closesFrom_zero.1 (hpiece q hq).closes,
      fun q hq => (hpiece q hq).whole⟩

/-! ## The arguments of a use -/

theorem Canonical.balanced {tokens : List Token} (h : Canonical tokens) {i : Invocation}
    (hmem : .directive i ∈ tokens) : ∀ list ∈ i.list, Balanced list.toList := by
  induction tokens with
  | nil => cases hmem
  | cons t rest ih =>
    cases t with
    | literal text => exact ih h.2.2.2 ((List.mem_cons.1 hmem).resolve_left Token.noConfusion)
    | directive i' =>
      rcases List.mem_cons.1 hmem with he | hmem
      · obtain rfl := Token.directive.inj he
        exact h.1.balanced
      · exact ih h.2 hmem

/-- **The arguments of a directive.** A list that is not blank is split in one way
only, at the commas outside of parentheses, and the arguments are the
pieces without the blanks around them; the count of open parentheses never
goes below zero there. As one argument it is the whole list without the
blanks around it. Where there is no list, or a blank one, there are no
arguments. -/
theorem arguments_pieces {sql : String} {tokens : List Token} (h : tokenize sql = .ok tokens)
    {use : Invocation} (huse : .directive use ∈ tokens) :
    (∀ list ∈ use.list, Text.isBlankText list = false →
      ∃ ps, (∀ qs, Splits list.toList qs ↔ qs = ps) ∧
        use.arguments true = ps.map (fun p => String.ofList (Text.trim p)) ∧
        ps.length = separators 0 list.toList + 1 ∧
        piecesChecked 0 list.toList = .ok ps ∧
        use.arguments false = [Text.trimmed list]) ∧
    ((∀ list ∈ use.list, Text.isBlankText list = true) →
      ∀ several, use.arguments several = []) := by
  constructor
  · intro list hlist hblank
    obtain ⟨-, hcanonical⟩ := tokensFrom_eq_ok_iff.1 h
    have hbalanced : Balanced list.toList := hcanonical.balanced huse list hlist
    have hcloses : ClosesFrom 0 list.toList := closesFrom_zero.2 hbalanced
    have hne : list.toList ≠ [] := fun hnil => by
      rw [Text.isBlankText, hnil] at hblank
      cases hblank
    refine ⟨pieces 0 list.toList, fun qs => splits_iff hbalanced hne, ?_, length_pieces hcloses,
      piecesChecked_eq hcloses, ?_⟩
    · simp only [Invocation.arguments, Option.mem_def.1 hlist, hblank, Bool.false_eq_true, if_false,
        if_true]
    · simp only [Invocation.arguments, Option.mem_def.1 hlist, hblank, Bool.false_eq_true, if_false]
  · intro hblank several
    unfold Invocation.arguments
    cases hlist : use.list with
    | none => rfl
    | some list => exact if_pos (hblank list hlist)

/-- A comma within parentheses does not separate, and an empty piece is one. -/
theorem arguments_pieces_nested :
    tokenize "$__timeGroup(f(a, (b)) , '5m',)" = .ok
        [.directive ⟨"__timeGroup", some "f(a, (b)) , '5m',"⟩] ∧
      Text.isBlankText "f(a, (b)) , '5m'," = false ∧
      separators 0 "f(a, (b)) , '5m',".toList = 2 ∧
      ∃ ps, (∀ qs, Splits "f(a, (b)) , '5m',".toList qs ↔ qs = ps) ∧
        (Invocation.mk "__timeGroup" (some "f(a, (b)) , '5m',")).arguments true =
          ps.map (fun p => String.ofList (Text.trim p)) ∧
        ps.length = separators 0 "f(a, (b)) , '5m',".toList + 1 ∧
        piecesChecked 0 "f(a, (b)) , '5m',".toList = .ok ps ∧
        (Invocation.mk "__timeGroup" (some "f(a, (b)) , '5m',")).arguments false =
          [Text.trimmed "f(a, (b)) , '5m',"] := by
  have h : tokenize "$__timeGroup(f(a, (b)) , '5m',)" = .ok
      [.directive ⟨"__timeGroup", some "f(a, (b)) , '5m',"⟩] := by decide +kernel
  have hblank : Text.isBlankText "f(a, (b)) , '5m'," = false := by decide +kernel
  exact ⟨h, hblank, by decide +kernel,
    (arguments_pieces h List.mem_cons_self).1 _ rfl hblank⟩

end Directive

end WindowQuery
