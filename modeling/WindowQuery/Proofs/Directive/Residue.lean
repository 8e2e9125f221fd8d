import WindowQuery.Proofs.Directive.Evaluation
import WindowQuery.Proofs.Text.Written

/-!
# What an expansion leaves behind

The fragments of an expansion are not read again. An argument goes into its
fragment as it is written, with whatever directives it holds; and a fragment
comes right after the literal before it, so that a literal that ends in a
dollar sign can make a directive of it that nobody wrote. Nothing else can
put a directive into the SQL: what the fragments add around an argument
has no dollar sign, and it is not of the kind that goes on with a name.

`Inert` says of the tokens of a text that neither happens. By
`not_mentions_ofTokens_iff` it is exact: the SQL holds a directive just when the
tokens are not inert, whatever the window. When they are, another expansion
changes nothing.
-/

namespace WindowQuery

namespace Directive

/-! ## Seams -/

/-- **A directive opens across the seam** of two texts, some of its first four
characters on either side. -/
def Joins (as bs : List Char) : Prop :=
  ∃ c left right, isWord c = true ∧ left ++ right = ['$', '_', '_', c] ∧ left ≠ [] ∧ right ≠ [] ∧
    left <:+ as ∧ right <+: bs

/-- A directive in two texts together is in one of them or across the seam. -/
theorem mentions_append {as bs : List Char} :
    Mentions (as ++ bs) ↔ Mentions as ∨ Mentions bs ∨ Joins as bs := by
  constructor
  · rintro ⟨c, hc, h⟩
    rcases List.infix_append_iff_ne_nil.1 h with h | h | ⟨left, right, hl, hr, he, hleft, hright⟩
    · exact Or.inl ⟨c, hc, h⟩
    · exact Or.inr (Or.inl ⟨c, hc, h⟩)
    · exact Or.inr (Or.inr ⟨c, left, right, hc, he.symm, hl, hr, hleft, hright⟩)
  · rintro (⟨c, hc, h⟩ | ⟨c, hc, h⟩ | ⟨c, left, right, hc, he, hl, hr, hleft, hright⟩)
    · exact ⟨c, hc, h.trans (List.prefix_append as bs).isInfix⟩
    · exact ⟨c, hc, h.trans (List.suffix_append as bs).isInfix⟩
    · exact ⟨c, hc, List.infix_append_iff_ne_nil.2
        (Or.inr (Or.inr ⟨left, right, hl, hr, he.symm, hleft, hright⟩))⟩

/-- What a directive has beyond a seam belongs to a name. -/
theorem isWord_of_mem_right {c d : Char} {left right : List Char} (hc : isWord c = true)
    (he : left ++ right = ['$', '_', '_', c]) (hleft : left ≠ []) (hd : d ∈ right) :
    isWord d = true := by
  cases left with
  | nil => exact absurd rfl hleft
  | cons a left =>
    obtain ⟨-, he⟩ := List.cons.inj he
    have hmem : d ∈ ['_', '_', c] := he ▸ List.mem_append_right left hd
    simp only [List.mem_cons, List.not_mem_nil, or_false] at hmem
    rcases hmem with rfl | rfl | rfl
    · decide
    · decide
    · exact hc

/-- **Only the beginning of a text joins**, up to a character of no word. -/
theorem joins_append_iff {as bs tail : List Char} (h : EndsName tail) :
    Joins as (bs ++ tail) ↔ Joins as bs := by
  constructor
  · rintro ⟨c, left, right, hc, he, hl, hr, hleft, rest, hright⟩
    refine ⟨c, left, right, hc, he, hl, hr, hleft, ?_⟩
    rcases List.append_eq_append_iff.1 hright with ⟨mid, rfl, -⟩ | ⟨mid, hmid, htail⟩
    · exact List.prefix_append right mid
    · cases mid with
      | nil => exact ⟨[], by rw [List.append_nil, hmid, List.append_nil]⟩
      | cons d mid =>
        have hd : isWord d = true :=
          isWord_of_mem_right hc he hl (hmid ▸ List.mem_append_right bs List.mem_cons_self)
        rw [h d (by rw [htail]; rfl)] at hd
        cases hd
  · rintro ⟨c, left, right, hc, he, hl, hr, hleft, hright⟩
    exact ⟨c, left, right, hc, he, hl, hr, hleft, hright.trans (List.prefix_append bs tail)⟩

theorem not_joins_nil (as : List Char) : ¬Joins as [] := by
  rintro ⟨-, -, right, -, -, -, hr, -, hright⟩
  exact hr (List.prefix_nil.1 hright)

/-! ## Text around arguments -/

/-- **Neutral text**: no directive opens in it or goes on through it. -/
structure Neutral (cs : List Char) : Prop where
  /-- It has no dollar sign. -/
  noDollar : '$' ∉ cs
  /-- It is not empty. -/
  nonempty : cs ≠ []
  /-- It does not go on with a name. -/
  endsName : EndsName cs

theorem Neutral.endsName_append {cs : List Char} (h : Neutral cs) (rest : List Char) :
    EndsName (cs ++ rest) := by
  cases cs with
  | nil => exact absurd rfl h.nonempty
  | cons c cs => exact endsName_cons.2 (endsName_cons.1 h.endsName)

theorem Neutral.append {cs rest : List Char} (h : Neutral cs) (hrest : '$' ∉ rest) :
    Neutral (cs ++ rest) where
  noDollar := fun hmem => (List.mem_append.1 hmem).elim h.noDollar hrest
  nonempty := List.append_ne_nil_of_left_ne_nil h.nonempty rest
  endsName := h.endsName_append rest

/-- Neutral text can be told by its characters. -/
theorem neutral_iff {cs : List Char} :
    Neutral cs ↔ '$' ∉ cs ∧ cs.head?.any (fun c => !isWord c) = true := by
  cases cs with
  | nil => exact ⟨fun h => absurd rfl h.nonempty, fun h => absurd h.2 Bool.false_ne_true⟩
  | cons c cs =>
    have hhead : (c :: cs).head?.any (fun c => !isWord c) = true ↔ isWord c = false := by
      show (!isWord c) = true ↔ isWord c = false
      rw [Bool.not_eq_true']
    rw [hhead]
    constructor
    · intro h
      exact ⟨h.noDollar, endsName_cons.1 h.endsName⟩
    · rintro ⟨hno, hword⟩
      exact ⟨hno, List.cons_ne_nil _ _, endsName_cons.2 hword⟩

instance decidableNeutral (cs : List Char) : Decidable (Neutral cs) :=
  decidable_of_iff _ neutral_iff.symm

/-- Neutral text separates what is before it from what is after it. -/
theorem Neutral.openings_append {cs : List Char} (h : Neutral cs) (before rest : List Char) :
    openings (before ++ (cs ++ rest)) = openings before + openings rest := by
  rw [Directive.openings_append (h.endsName_append rest), openings_append_of_notMem h.noDollar]

/-- **What is taken off the ends of a text** holds no directive if it is neither
dollar signs nor characters of words. -/
theorem openings_stripEnds {p : Char → Bool} (hp : ∀ c, p c = true → c ≠ '$' ∧ isWord c = false)
    (cs : List Char) : openings (Text.stripEnds p cs) = openings cs := by
  -- at the front it is enough that marks are no dollar signs
  have hfront : ∀ cs : List Char, openings (cs.dropWhile p) = openings cs := by
    intro cs
    have hno : '$' ∉ cs.takeWhile p := fun h => (hp '$' (List.mem_takeWhile_imp h)).1 rfl
    calc openings (cs.dropWhile p)
        = openings (cs.takeWhile p ++ cs.dropWhile p) := (openings_append_of_notMem hno).symm
      _ = openings cs := by rw [List.takeWhile_append_dropWhile]
  -- at the back they must not go on a name either, or a shorter text could open less
  have hback : ∀ cs : List Char, openings (cs.reverse.dropWhile p).reverse = openings cs := by
    intro cs
    have hsplit : (cs.reverse.dropWhile p).reverse ++ (cs.reverse.takeWhile p).reverse = cs := by
      rw [← List.reverse_append, List.takeWhile_append_dropWhile, List.reverse_reverse]
    have hend : ∀ c ∈ (cs.reverse.takeWhile p).reverse, p c = true := fun c hc =>
      List.mem_takeWhile_imp (List.mem_reverse.1 hc)
    have hends : EndsName (cs.reverse.takeWhile p).reverse := fun c hc =>
      (hp c (hend c (List.mem_of_mem_head? hc))).2
    have hno : '$' ∉ (cs.reverse.takeWhile p).reverse := fun h => (hp '$' (hend _ h)).1 rfl
    have hzero : openings (cs.reverse.takeWhile p).reverse = 0 := by
      rw [← List.append_nil (List.reverse _), openings_append_of_notMem hno]
      rfl
    calc openings (cs.reverse.dropWhile p).reverse
        = openings (cs.reverse.dropWhile p).reverse
            + openings (cs.reverse.takeWhile p).reverse := by rw [hzero, Nat.add_zero]
      _ = openings ((cs.reverse.dropWhile p).reverse ++ (cs.reverse.takeWhile p).reverse) :=
          (Directive.openings_append hends).symm
      _ = openings cs := by rw [hsplit]
  unfold Text.stripEnds
  rw [hback, hfront]

/-! ## Fragments -/

/-- The first argument of a use. -/
def firstText (arguments : List String) : List Char := (arguments.headD "").toList

/-- **The argument that goes into the fragment** as it is written, none if the
directive puts none there. -/
def spliced (arguments : List String) : Directive → List Char
  | timeFrom | timeTo => []
  | _ => firstText arguments

/-- **How the fragment begins**, up to a character of no word. -/
def opening (arguments : List String) : Directive → List Char
  | time | timeFilter | unixEpochFilter => firstText arguments
  | timeGroup => ['f', 'l', 'o', 'o', 'r']
  | _ => []

/-- **A text around an argument**: it begins as said, nothing that follows goes
on with a directive of it, and it holds directives only if the argument
does. -/
structure Splice (opening spliced text : List Char) : Prop where
  /-- After the beginning, there is a character of no word. -/
  begins : ∃ tail, text = opening ++ tail ∧ ∀ rest, EndsName (tail ++ rest)
  /-- Its directives and those of what follows are apart. -/
  closed : ∀ rest, openings (text ++ rest) = openings text + openings rest
  /-- It has a directive just if the argument has one. -/
  openings_eq_zero : openings text = 0 ↔ openings spliced = 0

theorem Splice.ofTail {argument tail : List Char} (h : Neutral tail) :
    Splice argument argument (argument ++ tail) := by
  have hcount : ∀ rest, openings (argument ++ tail ++ rest) = openings argument + openings rest :=
    fun rest => by rw [List.append_assoc, h.openings_append]
  have hown : openings (argument ++ tail) = openings argument := by
    rw [← List.append_nil (argument ++ tail), hcount]
    rfl
  exact ⟨⟨tail, rfl, h.endsName_append⟩, fun rest => by rw [hcount, hown], by rw [hown]⟩

/-- An argument between texts that are neutral, the first of them after a
beginning. -/
theorem Splice.between {opening lead argument tail : List Char} (hopening : '$' ∉ opening)
    (hlead : Neutral lead) (htail : Neutral tail) :
    Splice opening argument (opening ++ (lead ++ (argument ++ tail))) := by
  have hcount : ∀ rest, openings (opening ++ (lead ++ (argument ++ tail)) ++ rest) =
      openings argument + openings rest := fun rest => by
    rw [List.append_assoc, List.append_assoc, List.append_assoc,
      openings_append_of_notMem hopening, openings_append_of_notMem hlead.noDollar,
      htail.openings_append]
  have hown : openings (opening ++ (lead ++ (argument ++ tail))) = openings argument := by
    rw [← List.append_nil (opening ++ _), hcount]
    rfl
  refine ⟨⟨_, rfl, fun rest => ?_⟩, fun rest => by rw [hcount, hown], by rw [hown]⟩
  rw [List.append_assoc]
  exact hlead.endsName_append _

/-- **An argument that stands twice**, with neutral text after it each time. -/
theorem Splice.twice {argument middle tail : List Char} (hmiddle : Neutral middle)
    (htail : Neutral tail) :
    Splice argument argument (argument ++ (middle ++ (argument ++ tail))) := by
  have hcount : ∀ rest, openings (argument ++ (middle ++ (argument ++ tail)) ++ rest) =
      openings argument + openings argument + openings rest := fun rest => by
    rw [List.append_assoc, List.append_assoc, List.append_assoc, hmiddle.openings_append,
      htail.openings_append, Nat.add_assoc]
  have hown : openings (argument ++ (middle ++ (argument ++ tail))) =
      openings argument + openings argument := by
    rw [← List.append_nil (argument ++ _), hcount]
    rfl
  refine ⟨⟨_, rfl, fun rest => ?_⟩, fun rest => by rw [hcount, hown], ?_⟩
  · rw [List.append_assoc]
    exact hmiddle.endsName_append _
  · rw [hown, Nat.add_eq_zero_iff, and_self]

theorem Splice.ofNeutral {text : List Char} (h : Neutral text) : Splice [] [] text :=
  Splice.ofTail h

theorem dollar_notMem_text (t : Instant) : '$' ∉ t.text.toList := by
  intro h
  rw [Instant.text, String.toList_ofList] at h
  rcases Instant.mem_chars h with h | h
  · exact absurd h (by decide)
  · exact absurd h (by decide)

theorem dollar_notMem_intText (n : Int) : '$' ∉ (Numeral.intText n).toList := by
  intro h
  rcases Numeral.mem_intText h with h | h
  · exact absurd h (by decide)
  · exact absurd h (by decide)

theorem dollar_notMem_inSeconds (i : Interval) : '$' ∉ i.inSeconds.toList := by
  intro h
  rcases Binary64.mem_text h with h | h
  · exact absurd h (by decide)
  · exact absurd h (by decide)

theorem neutral_inQuotes {s : String} (h : '$' ∉ s.toList) : Neutral (inQuotes s).toList := by
  have hsplit : (inQuotes s).toList = '\'' :: (s.toList ++ ['\'']) := by
    simp only [inQuotes, String.toList_append]
    rfl
  rw [hsplit]
  refine ⟨?_, List.cons_ne_nil _ _, endsName_cons.2 (by decide)⟩
  simp only [List.mem_cons, List.mem_append, List.not_mem_nil, or_false, not_or]
  exact ⟨by decide, h, by decide⟩

theorem firstText_of_first {d : Directive} {what : String} {arguments : List String} {a : String}
    (h : d.first what arguments = .ok a) : firstText arguments = a.toList := by
  cases arguments with
  | nil => cases h
  | cons b more =>
    obtain rfl := Except.ok.inj h
    rfl

/-- The marks around a value are neither dollar signs nor of words. -/
theorem isValueMark_spec (c : Char) (h : isValueMark c = true) : c ≠ '$' ∧ isWord c = false := by
  simp only [isValueMark, Bool.or_eq_true, beq_iff_eq] at h
  rcases h with (rfl | rfl) | rfl
  · decide
  · decide
  · decide

/-- **A value in quotes** in the place of the one in its marks. -/
theorem splice_requoted (a : String) : Splice [] a.toList (requoted a).toList := by
  have htext : (requoted a).toList =
      [] ++ (['\''] ++ (Text.stripEnds isValueMark a.toList ++ ['\''])) := by
    simp only [requoted, inQuotes, String.toList_append, String.toList_ofList]
    rfl
  have hquote : Neutral ['\''] := by decide +kernel
  have h : Splice [] (Text.stripEnds isValueMark a.toList) (requoted a).toList := by
    rw [htext]
    exact Splice.between List.not_mem_nil hquote hquote
  exact ⟨h.begins, h.closed, by rw [h.openings_eq_zero, openings_stripEnds isValueMark_spec]⟩

theorem splice_filter (column : String) (w : TimeWindow) :
    Splice column.toList column.toList (column ++ " BETWEEN " ++ inQuotes w.start.text ++ " AND "
      ++ inQuotes w.stop.text).toList := by
  have htail : Neutral (" BETWEEN ".toList ++ ((inQuotes w.start.text).toList ++
      (" AND ".toList ++ (inQuotes w.stop.text).toList))) := by
    refine Neutral.append (by decide +kernel) ?_
    simp only [List.mem_append, not_or]
    exact ⟨(neutral_inQuotes (dollar_notMem_text _)).noDollar, by decide,
      (neutral_inQuotes (dollar_notMem_text _)).noDollar⟩
  simp only [String.toList_append, List.append_assoc]
  exact Splice.ofTail htail

/-- A column that is kept within a window of seconds; the column is there twice. -/
theorem splice_epochFilter (column : String) (start stop : Int) :
    Splice column.toList column.toList (column ++ " >= " ++ Numeral.intText start ++ " AND "
      ++ column ++ " <= " ++ Numeral.intText stop).toList := by
  have hmiddle : Neutral (" >= ".toList ++ ((Numeral.intText start).toList ++
      " AND ".toList)) := by
    refine Neutral.append (by decide +kernel) ?_
    simp only [List.mem_append, not_or]
    exact ⟨dollar_notMem_intText _, by decide⟩
  have htail : Neutral (" <= ".toList ++ (Numeral.intText stop).toList) :=
    Neutral.append (by decide +kernel) (dollar_notMem_intText _)
  have hsplice : Splice column.toList column.toList
      (column.toList ++ (_ ++ (column.toList ++ _))) := Splice.twice hmiddle htail
  simp only [List.append_assoc] at hsplice
  simp only [String.toList_append, List.append_assoc]
  exact hsplice

theorem splice_bucketSql (column : String) {seconds : String} (h : '$' ∉ seconds.toList) :
    Splice ['f', 'l', 'o', 'o', 'r'] column.toList (bucketSql column seconds).toList := by
  have htail : Neutral (")/".toList ++ (seconds.toList ++ (")*".toList ++
      (seconds.toList ++ " as time".toList)))) := by
    refine Neutral.append (by decide +kernel) ?_
    simp only [List.mem_append, not_or]
    exact ⟨h, by decide, h, by decide⟩
  have hfloor : "floor(extract(epoch from ".toList =
      ['f', 'l', 'o', 'o', 'r'] ++ "(extract(epoch from ".toList := by decide +kernel
  unfold bucketSql
  simp only [String.toList_append, List.append_assoc]
  rw [hfloor, List.append_assoc]
  exact Splice.between (by decide) (by decide +kernel) htail

/-- **Every fragment is a text around its argument**, or around nothing where the
directive puts none of its arguments into the SQL. One case for each directive:
what it adds in front and behind has no dollar sign, and what follows an argument
is of no word. -/
theorem evaluate_splice {d : Directive} {arguments : List String} {w : TimeWindow}
    {f : Fragment} (h : d.evaluate arguments w = .ok f)
    (hone : d = .timeGroup ∨ arguments.length ≤ 1) :
    Splice (opening arguments d) (spliced arguments d) f.sql.toList := by
  cases d with
  | time =>
    obtain ⟨column, hcolumn, rfl⟩ := exists_of_map_eq_ok h
    show Splice (firstText arguments) (firstText arguments) (column ++ " AS time").toList
    rw [firstText_of_first hcolumn, String.toList_append]
    exact Splice.ofTail (by decide +kernel)
  | timeFilter =>
    obtain ⟨column, hcolumn, rfl⟩ := exists_of_map_eq_ok h
    show Splice (firstText arguments) (firstText arguments) _
    rw [firstText_of_first hcolumn]
    exact splice_filter column w
  | timeFrom =>
    obtain ⟨-, h⟩ := (ite_eq_iff.1 h).resolve_right (fun h => by cases h.2)
    obtain rfl := Except.ok.inj h
    exact Splice.ofNeutral (neutral_inQuotes (dollar_notMem_text _))
  | timeTo =>
    obtain ⟨-, h⟩ := (ite_eq_iff.1 h).resolve_right (fun h => by cases h.2)
    obtain rfl := Except.ok.inj h
    exact Splice.ofNeutral (neutral_inQuotes (dollar_notMem_text _))
  | expandMultiString =>
    -- one argument stands for all values; `hone` leaves no more of them to be spliced
    match arguments, hone, h with
    | [], _, h => cases h
    | [value], _, h =>
      obtain rfl := Except.ok.inj h
      show Splice [] value.toList (requoted value).toList
      exact splice_requoted value
    | _ :: _ :: _, .inr hone, _ =>
      exact absurd (Nat.le_of_succ_le_succ hone) (Nat.not_succ_le_zero _)
  | timeGroup =>
    match arguments, h with
    | column :: width :: more, h =>
      unfold evaluate evaluateGroup at h
      dsimp only at h
      cases hwidth : interval? width with
      | none => rw [hwidth] at h; cases h
      | some i =>
        rw [hwidth] at h
        obtain rfl := Except.ok.inj h
        exact splice_bucketSql column (dollar_notMem_inSeconds i)
  | unixEpochFilter =>
    obtain ⟨column, hcolumn, rfl⟩ := exists_of_map_eq_ok h
    show Splice (firstText arguments) (firstText arguments) _
    rw [firstText_of_first hcolumn]
    exact splice_epochFilter column w.start.seconds w.stop.seconds

/-! ## Tokens -/

/-- The argument that a use puts into its fragment. -/
def Invocation.spliced (i : Invocation) : List Char :=
  match ofName? i.name with
  | none => []
  | some d => Directive.spliced (i.arguments d.takesSeveral) d

/-- How the fragment of a use begins. -/
def Invocation.opening (i : Invocation) : List Char :=
  match ofName? i.name with
  | none => []
  | some d => Directive.opening (i.arguments d.takesSeveral) d

/-- **Tokens that leave no directive behind.** -/
structure Inert (tokens : List Token) : Prop where
  /-- No argument that goes into the SQL holds a directive. -/
  arguments : ∀ i, .directive i ∈ tokens → ¬Mentions i.spliced
  /-- No literal makes a directive of the fragment after it. -/
  seams : ∀ text i, [.literal text, .directive i] <:+: tokens → ¬Joins text.toList i.opening

theorem inert_nil : Inert [] where
  arguments := fun _ h => by cases h
  seams := fun _ _ h => by cases List.infix_nil.1 h

theorem inert_directive_cons {i : Invocation} {rest : List Token} :
    Inert (.directive i :: rest) ↔ ¬Mentions i.spliced ∧ Inert rest := by
  constructor
  · intro h
    refine ⟨h.arguments i List.mem_cons_self, fun j hj => ?_, fun text j hj => ?_⟩
    · exact h.arguments j (List.mem_cons_of_mem _ hj)
    · exact h.seams text j (hj.trans (List.suffix_cons _ _).isInfix)
  · rintro ⟨hi, hrest⟩
    refine ⟨fun j hj => ?_, fun text j hj => ?_⟩
    · rcases List.mem_cons.1 hj with he | hj
      · obtain rfl := Token.directive.inj he
        exact hi
      · exact hrest.arguments j hj
    · rcases List.infix_cons_iff.1 hj with hj | hj
      · cases (List.cons_prefix_cons.1 hj).1
      · exact hrest.seams text j hj

theorem inert_literal_cons {text : String} {rest : List Token} :
    Inert (.literal text :: rest) ↔
      (∀ i, rest.head? = some (.directive i) → ¬Joins text.toList i.opening) ∧ Inert rest := by
  constructor
  · intro h
    refine ⟨fun i hi => ?_, fun j hj => ?_, fun text' j hj => ?_⟩
    · obtain ⟨rest, rfl⟩ := List.head?_eq_some_iff.1 hi
      exact h.seams text i (List.prefix_append [.literal text, .directive i] rest).isInfix
    · exact h.arguments j (List.mem_cons_of_mem _ hj)
    · exact h.seams text' j (hj.trans (List.suffix_cons _ _).isInfix)
  · rintro ⟨hhead, hrest⟩
    refine ⟨fun j hj => ?_, fun text' j hj => ?_⟩
    · exact hrest.arguments j ((List.mem_cons.1 hj).resolve_left Token.noConfusion)
    · rcases List.infix_cons_iff.1 hj with hj | hj
      · obtain ⟨he, more, rfl⟩ := List.cons_prefix_cons.1 hj
        obtain rfl := Token.literal.inj he
        exact hhead j rfl
      · exact hrest.seams text' j hj

/-- Without cutting at commas there is at most one argument. -/
theorem length_arguments_le (i : Invocation) : (i.arguments false).length ≤ 1 := by
  unfold Invocation.arguments
  split
  · exact Nat.zero_le _
  · split
    · exact Nat.zero_le _
    · exact Nat.le_refl _

/-- **What a use expands to is a text around its argument.** -/
theorem ofInvocation_splice {w : TimeWindow} {i : Invocation} {e : Expansion}
    (h : Expansion.ofInvocation w i = .ok e) : Splice i.opening i.spliced e.sql.toList := by
  unfold Expansion.ofInvocation at h
  unfold Invocation.opening Invocation.spliced
  cases hd : ofName? i.name with
  | none =>
    rw [hd] at h
    cases h
  | some d =>
    rw [hd] at h
    obtain ⟨f, hf, rfl⟩ := exists_of_map_eq_ok h
    refine evaluate_splice hf ?_
    by_cases hgroup : d = .timeGroup
    · exact Or.inl hgroup
    · right
      rw [show d.takesSeveral = false from beq_false_of_ne hgroup]
      exact length_arguments_le i

/-- **Tokens leave a directive behind just if they are not inert.** -/
theorem not_mentions_ofTokens_iff {w : TimeWindow} {tokens : List Token} {e : Expansion}
    (hcanonical : Canonical tokens) (h : Expansion.ofTokens w tokens = .ok e) :
    ¬Mentions e.sql.toList ↔ Inert tokens := by
  induction tokens generalizing e with
  | nil =>
    obtain rfl := Except.ok.inj h
    exact ⟨fun _ => inert_nil, fun _ => not_mentions_nil⟩
  | cons t rest ih =>
    obtain ⟨one, more, hone, hmore, rfl⟩ := ofTokens_cons_eq_ok h
    rw [Expansion.sql_append, String.toList_append]
    cases t with
    | directive i =>
      -- The fragment is closed: its directives and those of the rest can be told apart.
      have hsplice := ofInvocation_splice hone
      rw [inert_directive_cons, ← ih hcanonical.2 hmore, ← openings_eq_zero, hsplice.closed,
        Nat.add_eq_zero_iff, hsplice.openings_eq_zero, openings_eq_zero, openings_eq_zero]
    | literal text =>
      obtain ⟨-, htext, hhead, hrest⟩ := hcanonical
      obtain rfl := Except.ok.inj hone
      rw [inert_literal_cons, ← ih hrest hmore, mentions_append]
      -- What can join the literal is the beginning of the fragment that follows it.
      have hjoins : Joins text.toList more.sql.toList ↔
          ¬∀ i, rest.head? = some (.directive i) → ¬Joins text.toList i.opening := by
        cases rest with
        | nil =>
          obtain rfl := Except.ok.inj hmore
          exact ⟨fun hj => (not_joins_nil _ hj).elim, fun hn => (hn (fun _ hi => by cases hi)).elim⟩
        | cons next rest =>
          cases next with
          | literal text' => exact absurd (hhead _ rfl) Bool.false_ne_true
          | directive i =>
            obtain ⟨one, more', hone, -, rfl⟩ := ofTokens_cons_eq_ok hmore
            obtain ⟨tail, hbegins, hends⟩ := (ofInvocation_splice hone).begins
            rw [Expansion.sql_append, String.toList_append, hbegins, List.append_assoc,
              joins_append_iff (hends _)]
            refine ⟨fun hj hall => hall i rfl hj, fun hn => ?_⟩
            by_contra hj
            refine hn (fun j hj' => ?_)
            obtain rfl := Token.directive.inj (Option.some.inj hj')
            exact hj
      rw [hjoins, not_or, not_or, not_not]
      exact ⟨fun ⟨_, hmore, hhead⟩ => ⟨hhead, hmore⟩, fun ⟨hhead, hmore⟩ => ⟨htext, hmore, hhead⟩⟩

/-! ## Expanding again -/

/-- A text is read as literals only if no directive opens in it. -/
theorem tokenize_literals_iff {sql : String} :
    (∃ tokens, tokenize sql = .ok tokens ∧ ∀ t ∈ tokens, t.isUse = false) ↔
      ¬Mentions sql.toList := by
  constructor
  · rintro ⟨tokens, h, hliterals⟩
    obtain ⟨hsources, hcanonical⟩ := tokensFrom_eq_ok_iff.1 h
    rw [← hsources]
    -- literals do not follow one another, so there is one of them at most
    match tokens, hcanonical, hliterals with
    | [], _, _ => exact not_mentions_nil
    | [.literal text], hcanonical, _ =>
      rw [sources_cons, sources_nil, List.append_nil]
      exact hcanonical.2.1
    | .literal _ :: next :: _, hcanonical, hliterals =>
      have huse := hcanonical.2.2.1 next rfl
      rw [hliterals next (List.mem_cons_of_mem _ List.mem_cons_self)] at huse
      cases huse
    | .directive i :: _, _, hliterals => cases hliterals _ List.mem_cons_self
  · intro h
    refine ⟨literalToken sql.toList, tokensFrom_literal h 0, fun t ht => ?_⟩
    unfold literalToken at ht
    split at ht
    · cases ht
    · rw [List.mem_singleton.1 ht]
      rfl

/-- **A text in which no directive opens is its own expansion.** -/
theorem expand_of_not_mentions {sql : String} (h : ¬Mentions sql.toList) (w : TimeWindow) :
    expand sql w = .ok ⟨sql, none, false⟩ := by
  have hread : tokenize sql = .ok (literalToken sql.toList) := tokensFrom_literal h 0
  unfold expand
  rw [hread]
  show Expansion.ofTokens w (literalToken sql.toList) = _
  by_cases hempty : sql.toList = []
  · obtain rfl : sql = "" := String.toList_inj.1 hempty
    rfl
  · rw [literalToken_toList hempty]
    show Except.ok (Expansion.append ⟨sql, none, false⟩ .empty) = _
    unfold Expansion.append Expansion.empty
    rw [String.append_empty]
    rfl

/-- **When an expansion leaves no directive behind.** It leaves none just if the
tokens of the text are inert, in whatever window: no argument that goes into the
SQL holds a directive, and no literal ends in a part of one that the fragment
after it completes. Just then the SQL is read as literals only, and then it is its
own expansion in every window. -/
theorem expand_leaves_none_iff {sql : String} {w : TimeWindow} {e : Expansion}
    (h : expand sql w = .ok e) :
    ∃ tokens, tokenize sql = .ok tokens ∧
      (¬Mentions e.sql.toList ↔ Inert tokens) ∧
      ((∃ out, tokenize e.sql = .ok out ∧ ∀ t ∈ out, t.isUse = false) ↔ Inert tokens) ∧
      (Inert tokens → ∀ w', expand e.sql w' = .ok ⟨e.sql, none, false⟩) := by
  unfold expand at h
  cases hread : tokenize sql with
  | error err =>
    rw [hread] at h
    cases h
  | ok tokens =>
    rw [hread] at h
    have hcanonical : Canonical tokens := (tokensFrom_eq_ok_iff.1 hread).2
    have hiff : ¬Mentions e.sql.toList ↔ Inert tokens := not_mentions_ofTokens_iff hcanonical h
    exact ⟨tokens, rfl, hiff, tokenize_literals_iff.trans hiff,
      fun hinert w' => expand_of_not_mentions (hiff.2 hinert) w'⟩

/-- A dollar sign before a directive makes another one of its argument; a dollar
sign that stands off makes none, and the SQL expands to itself. -/
theorem expand_leaves_none_iff_seam :
    (∃ tokens, tokenize "$$__time(__x)" = .ok tokens ∧ ¬Inert tokens) ∧
      ∀ w, expand "$ __x AS time" w = .ok ⟨"$ __x AS time", none, false⟩ := by
  have hjoined : expand "$$__time(__x)" ⟨.epoch, .epoch⟩ = .ok ⟨"$__x AS time", none, false⟩ := by
    decide +kernel
  have hapart : expand "$ $__time(__x)" ⟨.epoch, .epoch⟩ = .ok ⟨"$ __x AS time", none, false⟩ := by
    decide +kernel
  obtain ⟨tokens, hread, hiff, -, -⟩ := expand_leaves_none_iff hjoined
  obtain ⟨tokens', -, hiff', -, hagain⟩ := expand_leaves_none_iff hapart
  have hmentions : Mentions "$__x AS time".toList := by decide +kernel
  have hnone : ¬Mentions "$ __x AS time".toList := by decide +kernel
  exact ⟨⟨tokens, hread, fun hinert => hiff.2 hinert hmentions⟩, hagain (hiff'.1 hnone)⟩

/-- **An expansion may leave a directive behind**, and one that nobody has heard
of: what an argument holds is not expanded. -/
theorem expand_nested_unknown :
    ¬∀ (sql : String) (w : TimeWindow) (e : Expansion),
      expand sql w = .ok e → ¬Mentions e.sql.toList := by
  intro h
  have hexpand : expand "$__time($__bogus)" ⟨.epoch, .epoch⟩ =
      .ok ⟨"$__bogus AS time", none, false⟩ := by decide +kernel
  have hmentions : Mentions "$__bogus AS time".toList := by decide +kernel
  exact h _ _ _ hexpand hmentions

end Directive

end WindowQuery
