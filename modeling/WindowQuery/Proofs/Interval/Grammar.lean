import Mathlib.Algebra.Order.Ring.Nat
import WindowQuery.Interval
import WindowQuery.Proofs.Text.Run

/-!
# How intervals are written

An interval is written as components one after the other, and a component
as the digits of a number, the digits of a fraction behind a point if there
is one, and a unit in one of its spellings. Nothing here reads a text: a
`Component` is a component with its three parts, and `written` puts
components together.

Units are spelled alike at the beginning – `m` begins `ms` – and the reader
takes the longer one without trying the other. That is no loss, because
what follows a component is another one or the end, and neither begins with
a letter (`Follows`). So the reader finds each component where it was put
(`components?_written`), it finds nothing else (`exists_written`), and a
text is put together in one way only (`written_injective`).
-/

namespace WindowQuery

namespace Interval

/-! ## Components -/

/-- Some digits, one at least. -/
structure IsNumeral (cs : List Char) : Prop where
  /-- There is one. -/
  nonempty : cs ≠ []
  /-- All are digits. -/
  digits : ∀ c ∈ cs, c.isDigit = true

instance (cs : List Char) : Decidable (IsNumeral cs) :=
  decidable_of_iff (cs ≠ [] ∧ cs.all Char.isDigit = true)
    ⟨fun h => ⟨h.1, List.all_eq_true.1 h.2⟩, fun h => ⟨h.nonempty, List.all_eq_true.2 h.digits⟩⟩

/-- How a unit may be spelled. -/
def Unit.spellings : Unit → List (List Char)
  | .nanosecond => [['n', 's']]
  | .microsecond => [['u', 's'], ['\u00b5', 's']]
  | .millisecond => [['m', 's']]
  | .second => [['s']]
  | .minute => [['m']]
  | .hour => [['h']]
  | .day => [['d']]
  | .week => [['w']]
  | .month => [['M']]
  | .year => [['y']]

/-- **A component, part by part as it is written.** -/
structure Component where
  /-- The digits of the whole number. -/
  whole : List Char
  /-- The digits behind the point, if there is one. -/
  decimals? : Option (List Char)
  /-- The unit. -/
  unit : Unit
  /-- The unit as it is spelled. -/
  spelling : List Char
  /-- The whole number has a digit. -/
  isNumeral_whole : IsNumeral whole
  /-- So has the fraction. -/
  isNumeral_decimals : ∀ digits ∈ decimals?, IsNumeral digits
  /-- The unit is spelled so. -/
  spelling_mem : spelling ∈ unit.spellings

/-- The point and the digits behind it. -/
def fractionSource (decimals? : Option (List Char)) : List Char :=
  decimals?.elim [] ('.' :: ·)

namespace Component

/-- **The text of a component.** -/
def source (c : Component) : List Char := c.whole ++ (fractionSource c.decimals? ++ c.spelling)

/-- The digits behind the point, none if there is no point. -/
def decimals (c : Component) : List Char := c.decimals?.getD []

/-- **The nanoseconds that count**: those of the whole units, and the full ones in
the first eighteen digits behind the point. -/
def nanos (c : Component) : Nat :=
  Numeral.value c.whole * c.unit.nanos +
    Numeral.value (c.decimals.take 18) * c.unit.nanos / 10 ^ min 18 c.decimals.length

theorem componentNanos_eq (c : Component) : componentNanos c.whole c.decimals c.unit = c.nanos := by
  have hkept : (c.decimals.take fractionDigits).length = min 18 c.decimals.length :=
    List.length_take
  unfold componentNanos nanos
  dsimp only
  rw [hkept]
  rfl

end Component

/-! ## What may follow -/

/-- **The text can follow a component**: it is empty or begins with a digit. -/
def Follows (cs : List Char) : Prop := ∀ c ∈ cs.head?, c.isDigit = true

theorem follows_nil : Follows [] := fun _ h => by cases h

theorem follows_cons {c : Char} {cs : List Char} : Follows (c :: cs) ↔ c.isDigit = true :=
  Text.forall_head?_cons

theorem IsNumeral.follows {cs : List Char} (h : IsNumeral cs) (rest : List Char) :
    Follows (cs ++ rest) := by
  cases cs with
  | nil => exact absurd rfl h.nonempty
  | cons c cs => exact follows_cons.2 (h.digits c List.mem_cons_self)

/-! ## Units -/

theorem Unit.nanos_pos (u : Unit) : 0 < u.nanos := by
  cases u <;> decide

theorem Unit.nanos_le (u : Unit) : u.nanos ≤ Unit.year.nanos := by
  cases u <;> decide

/-- **A unit is read in each of its spellings**, where nothing goes on with it. -/
theorem unit?_spelling {u : Unit} {spelling rest : List Char} (h : spelling ∈ u.spellings)
    (hrest : Follows rest) : unit? (spelling ++ rest) = some (u, rest) := by
  cases u with
  | microsecond =>
    rcases List.mem_cons.1 h with rfl | h
    · rfl
    · obtain rfl := List.mem_singleton.1 h
      rfl
  | minute =>
    -- `m` begins another spelling, but what follows it is not the `s` of that one.
    obtain rfl := List.mem_singleton.1 h
    show unit? ('m' :: rest) = _
    rw [unit?]
    rintro after rfl
    exact absurd (follows_cons.1 hrest) (by decide)
  | nanosecond | millisecond | second | hour | day | week | month | year =>
    obtain rfl := List.mem_singleton.1 h
    rfl

/-- **A unit that is read is there in one of its spellings.** -/
theorem exists_spelling {cs rest : List Char} {u : Unit} (h : unit? cs = some (u, rest)) :
    ∃ spelling ∈ u.spellings, cs = spelling ++ rest := by
  have hread : ∀ (s after : List Char) (v : Unit), s ∈ v.spellings →
      some (v, after) = some (u, rest) →
        ∃ spelling ∈ u.spellings, s ++ after = spelling ++ rest := by
    intro s after v hs h
    obtain ⟨rfl, rfl⟩ := Prod.mk.inj (Option.some.inj h)
    exact ⟨s, hs, rfl⟩
  unfold unit? at h
  split at h
  · exact hread ['n', 's'] _ _ (by decide) h
  · exact hread ['u', 's'] _ _ (by decide) h
  · exact hread ['\u00b5', 's'] _ _ (by decide) h
  · exact hread ['m', 's'] _ _ (by decide) h
  · exact hread ['s'] _ _ (by decide) h
  · exact hread ['m'] _ _ (by decide) h
  · exact hread ['h'] _ _ (by decide) h
  · exact hread ['d'] _ _ (by decide) h
  · exact hread ['w'] _ _ (by decide) h
  · exact hread ['M'] _ _ (by decide) h
  · exact hread ['y'] _ _ (by decide) h
  · cases h

theorem head_spelling {u : Unit} {spelling : List Char} (h : spelling ∈ u.spellings) :
    ∃ c more, spelling = c :: more ∧ c.isDigit = false ∧ c ≠ '.' := by
  cases u <;> simp only [Unit.spellings, List.mem_cons, List.not_mem_nil, or_false] at h
  case microsecond => rcases h with rfl | rfl <;> exact ⟨_, _, rfl, by decide, by decide⟩
  all_goals
    obtain rfl := h
    exact ⟨_, _, rfl, by decide, by decide⟩

/-! ## Fractions -/

/-- **A fraction is read as it is written**, before what is neither a digit nor a
point. -/
theorem fraction_source {f : Option (List Char)} {rest : List Char}
    (hf : ∀ digits ∈ f, IsNumeral digits) (hdigit : Text.EndsRun Char.isDigit rest)
    (hpoint : rest.head? ≠ some '.') : fraction (fractionSource f ++ rest) = (f.getD [], rest) := by
  cases f with
  | none =>
    show fraction rest = ([], rest)
    rw [fraction]
    rintro after rfl
    exact hpoint rfl
  | some digits =>
    have hdigits := hf digits rfl
    show (if ((digits ++ rest).takeWhile Char.isDigit).isEmpty then ([], '.' :: (digits ++ rest))
      else ((digits ++ rest).takeWhile Char.isDigit, (digits ++ rest).dropWhile Char.isDigit)) = _
    rw [Text.takeWhile_run_append hdigits.digits hdigit,
      Text.dropWhile_run_append hdigits.digits hdigit,
      if_neg (fun h => hdigits.nonempty (List.isEmpty_iff.1 h))]
    rfl

/-- **A fraction that is read is there**, or nothing is taken. -/
theorem exists_fraction (cs : List Char) :
    ∃ f : Option (List Char), (∀ digits ∈ f, IsNumeral digits) ∧ (fraction cs).1 = f.getD [] ∧
      cs = fractionSource f ++ (fraction cs).2 := by
  unfold fraction
  split
  · next rest =>
    dsimp only
    split
    · exact ⟨none, fun _ h => (by cases h), rfl, rfl⟩
    · next h =>
      refine ⟨some (rest.takeWhile Char.isDigit), fun digits hd => ?_, rfl, ?_⟩
      · obtain rfl := Option.some.inj hd
        exact ⟨fun he => h (List.isEmpty_iff.2 he), fun c hc => List.mem_takeWhile_imp hc⟩
      · exact congrArg ('.' :: ·) List.takeWhile_append_dropWhile.symm
  · exact ⟨none, fun _ h => (by cases h), rfl, rfl⟩

/-- Digits behind a point are not the same as no point. -/
theorem eq_of_getD_eq {f g : Option (List Char)} (hf : ∀ digits ∈ f, IsNumeral digits)
    (hg : ∀ digits ∈ g, IsNumeral digits) (h : f.getD [] = g.getD []) : f = g := by
  cases f with
  | none =>
    cases g with
    | none => rfl
    | some digits => exact absurd h.symm (hg digits rfl).nonempty
  | some digits =>
    cases g with
    | none => exact absurd h (hf digits rfl).nonempty
    | some digits' => exact congrArg some h

/-! ## One component -/

namespace Component

variable (c : Component)

/-- What follows the whole number does not go on with it. -/
theorem endsRun_fractionSource (rest : List Char) :
    Text.EndsRun Char.isDigit (fractionSource c.decimals? ++ (c.spelling ++ rest)) := by
  cases c.decimals? with
  | some digits => exact Text.endsRun_cons.2 (by decide)
  | none =>
    obtain ⟨a, more, hspelling, hdigit, -⟩ := head_spelling c.spelling_mem
    rw [hspelling]
    exact Text.endsRun_cons.2 hdigit

/-- The reader's view of a component: its digits, its fraction, and the unit at the
front of what is left. -/
theorem read_source (rest : List Char) :
    (c.source ++ rest).takeWhile Char.isDigit = c.whole ∧
      fraction ((c.source ++ rest).dropWhile Char.isDigit) = (c.decimals, c.spelling ++ rest) := by
  have hsource : c.source ++ rest =
      c.whole ++ (fractionSource c.decimals? ++ (c.spelling ++ rest)) := by
    simp only [source, List.append_assoc]
  have hends := c.endsRun_fractionSource rest
  rw [hsource, Text.takeWhile_run_append c.isNumeral_whole.digits hends,
    Text.dropWhile_run_append c.isNumeral_whole.digits hends]
  refine ⟨rfl, fraction_source c.isNumeral_decimals ?_ ?_⟩
  all_goals
    obtain ⟨a, more, hspelling, hdigit, hpoint⟩ := head_spelling c.spelling_mem
    rw [hspelling]
  · exact Text.endsRun_cons.2 hdigit
  · exact fun h => hpoint (Option.some.inj h)

/-- **A component is read as it is written**, where nothing goes on with it. -/
theorem component?_source {rest : List Char} (hrest : Follows rest) :
    component? (c.source ++ rest) = some (c.nanos, rest) := by
  obtain ⟨hwhole, hfraction⟩ := c.read_source rest
  unfold component?
  dsimp only
  rw [hwhole, if_neg (fun h => c.isNumeral_whole.nonempty (List.isEmpty_iff.1 h)), hfraction]
  dsimp only
  rw [unit?_spelling c.spelling_mem hrest, Option.map_some, c.componentNanos_eq]

theorem source_ne_nil : c.source ≠ [] :=
  List.append_ne_nil_of_left_ne_nil c.isNumeral_whole.nonempty _

/-- **Of a text that goes on as it may the component at the front is known.** -/
theorem source_append_inj {c d : Component} {as bs : List Char} (has : Follows as)
    (hbs : Follows bs) (h : c.source ++ as = d.source ++ bs) : c = d ∧ as = bs := by
  obtain ⟨hwhole, hfraction⟩ := c.read_source as
  obtain ⟨hwhole', hfraction'⟩ := d.read_source bs
  rw [h, hwhole'] at hwhole
  rw [h, hfraction'] at hfraction
  obtain ⟨hdecimals, hunit⟩ := Prod.mk.inj hfraction
  have hread := unit?_spelling d.spelling_mem hbs
  rw [hunit, unit?_spelling c.spelling_mem has] at hread
  obtain ⟨hu, hrest⟩ := Prod.mk.inj (Option.some.inj hread)
  have hspelling : d.spelling = c.spelling := List.append_cancel_right (hrest ▸ hunit)
  have hpoint : d.decimals? = c.decimals? :=
    eq_of_getD_eq d.isNumeral_decimals c.isNumeral_decimals hdecimals
  refine ⟨?_, hrest⟩
  cases c
  cases d
  simp only at hwhole hpoint hspelling hu
  subst hwhole hpoint hspelling hu
  rfl

end Component

/-- **A component that is read is written there**, in front of the rest: its
digits, its point and fraction if it has one, and its unit, and the number is what
they come to. -/
theorem exists_component {cs rest : List Char} {n : Nat} (h : component? cs = some (n, rest)) :
    ∃ c : Component, cs = c.source ++ rest ∧ n = c.nanos := by
  unfold component? at h
  dsimp only at h
  split at h
  · cases h
  · next hne =>
    obtain ⟨f, hf, hdecimals, hcs⟩ := exists_fraction (cs.dropWhile Char.isDigit)
    obtain ⟨⟨u, rest'⟩, hu, he⟩ := Option.map_eq_some_iff.1 h
    obtain ⟨hn, rfl⟩ := Prod.mk.inj he
    obtain ⟨spelling, hspelling, hrest⟩ := exists_spelling hu
    let c : Component := ⟨cs.takeWhile Char.isDigit, f, u, spelling,
      ⟨fun he => hne (List.isEmpty_iff.2 he), fun a ha => List.mem_takeWhile_imp ha⟩, hf, hspelling⟩
    refine ⟨c, ?_, ?_⟩
    · calc cs = cs.takeWhile Char.isDigit ++ cs.dropWhile Char.isDigit :=
          List.takeWhile_append_dropWhile.symm
        _ = cs.takeWhile Char.isDigit ++ (fractionSource f ++ (spelling ++ rest')) := by
          rw [hcs, hrest]
        _ = c.source ++ rest' := by
          simp only [c, Component.source, List.append_assoc]
    · rw [← hn, hdecimals]
      exact c.componentNanos_eq

/-! ## Components one after the other -/

/-- **The text of some components**, with nothing between them. -/
def written (parts : List Component) : List Char := parts.flatMap Component.source

/-- **The nanoseconds of some components.** -/
def total (parts : List Component) : Nat := (parts.map Component.nanos).sum

@[simp] theorem written_nil : written [] = [] := rfl

@[simp] theorem written_cons (c : Component) (parts : List Component) :
    written (c :: parts) = c.source ++ written parts := List.flatMap_cons

theorem follows_written (parts : List Component) : Follows (written parts) := by
  cases parts with
  | nil => exact follows_nil
  | cons c parts =>
    rw [written_cons, Component.source, List.append_assoc]
    exact c.isNumeral_whole.follows _

/-- **Components are read as they are written**, one after the other. Each ends
with the letters of its unit, which no digit of the next one prolongs, so none
takes a part of its neighbour. -/
theorem components?_written {parts : List Component} (h : parts ≠ []) :
    components? (written parts) = some (parts.map Component.nanos) := by
  induction parts with
  | nil => exact absurd rfl h
  | cons c parts ih =>
    have hread := c.component?_source (follows_written parts)
    rw [written_cons, components?]
    split
    · next hnone => rw [hread] at hnone; cases hnone
    · next n hlast =>
      rw [hread] at hlast
      obtain ⟨rfl, hend⟩ := Prod.mk.inj (Option.some.inj hlast)
      cases parts with
      | nil => rfl
      | cons d parts =>
        rw [written_cons] at hend
        exact absurd hend (List.append_ne_nil_of_left_ne_nil d.source_ne_nil _)
    · next n a rest hmore =>
      rw [hread] at hmore
      obtain ⟨rfl, hrest⟩ := Prod.mk.inj (Option.some.inj hmore)
      cases parts with
      | nil => cases hrest
      | cons d parts => rw [← hrest, ih (List.cons_ne_nil d parts)]; rfl

/-- **Components that are read are written there**: the converse, so that reading
accepts nothing but what is written so. -/
theorem exists_written {cs : List Char} {ns : List Nat} (h : components? cs = some ns) :
    ∃ parts : List Component, parts ≠ [] ∧ cs = written parts ∧ ns = parts.map Component.nanos := by
  induction hn : cs.length using Nat.strongRecOn generalizing cs ns with
  | ind n ih =>
    subst hn
    rw [components?] at h
    split at h
    · cases h
    · next n hlast =>
      obtain ⟨c, rfl, rfl⟩ := exists_component hlast
      obtain rfl := Option.some.inj h
      exact ⟨[c], List.cons_ne_nil c [], by rw [written_cons, written_nil], rfl⟩
    · next n a rest hmore =>
      obtain ⟨ms, hms, rfl⟩ := Option.map_eq_some_iff.1 h
      obtain ⟨parts, -, hparts, rfl⟩ := ih _ (length_lt_of_component? hmore) hms rfl
      obtain ⟨c, rfl, rfl⟩ := exists_component hmore
      exact ⟨c :: parts, List.cons_ne_nil c parts, by rw [written_cons, hparts], rfl⟩

/-- **A text is put together from components in one way only.** -/
theorem written_injective : Function.Injective written := by
  intro parts
  induction parts with
  | nil =>
    intro parts' h
    cases parts' with
    | nil => rfl
    | cons d parts' =>
      rw [written_cons] at h
      exact absurd h.symm (List.append_ne_nil_of_left_ne_nil d.source_ne_nil _)
  | cons c parts ih =>
    intro parts' h
    cases parts' with
    | nil =>
      rw [written_cons] at h
      exact absurd h (List.append_ne_nil_of_left_ne_nil c.source_ne_nil _)
    | cons d parts' =>
      rw [written_cons, written_cons] at h
      obtain ⟨rfl, hrest⟩ :=
        Component.source_append_inj (follows_written parts) (follows_written parts') h
      rw [ih hrest]

/-! ## Intervals -/

/-- There is an interval of so many nanoseconds if they are some and fit. -/
theorem ofNanos?_eq_some_iff {n : Nat} {i : Interval} : ofNanos? n = some i ↔ n = i.nanos := by
  unfold ofNanos?
  constructor
  · intro h
    split at h
    · rw [← Option.some.inj h]
    · cases h
  · rintro rfl
    rw [dif_pos ⟨i.nanos_pos, i.nanos_lt⟩]

/-- **The interval of some components** is that of their nanoseconds. -/
theorem read?_of_written {cs : List Char} {parts : List Component} (hne : parts ≠ [])
    (h : Text.trim cs = written parts) : read? cs = ofNanos? (total parts) := by
  rw [read?, h, components?_written hne, Option.bind_some, ← List.sum_eq_foldl]
  rfl

/-- **An interval is read just where its components are written**, between blanks. -/
theorem read?_eq_some_iff {cs : List Char} {i : Interval} :
    read? cs = some i ↔
      ∃ parts, parts ≠ [] ∧ Text.trim cs = written parts ∧ total parts = i.nanos := by
  constructor
  · intro h
    obtain ⟨ns, hns, -⟩ := Option.bind_eq_some_iff.1 h
    obtain ⟨parts, hne, hparts, -⟩ := exists_written hns
    rw [read?_of_written hne hparts, ofNanos?_eq_some_iff] at h
    exact ⟨parts, hne, hparts, h⟩
  · rintro ⟨parts, hne, hparts, htotal⟩
    rw [read?_of_written hne hparts, ofNanos?_eq_some_iff, htotal]

end Interval

end WindowQuery
