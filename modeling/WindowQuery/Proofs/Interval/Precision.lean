import Mathlib.Algebra.Order.Floor.Semifield
import Mathlib.Data.Nat.ModEq
import Mathlib.Data.Rat.Floor
import WindowQuery.Proofs.Interval.Grammar
import WindowQuery.Proofs.Text.Numeral

/-!
# What the nineteenth digit is worth

Of a fraction eighteen digits count. What comes after them is worth less
than a nanosecond in every unit, a year included, and yet it may matter: the
eighteen digits leave something over that is less than a nanosecond too, and
both together may make up one (`Component.Short`). The component is then
read as one nanosecond less than it has (`Component.floor_exact_eq`), and as
nothing at all if it has only one.

Whether that can happen depends on the unit. Nanoseconds, microseconds,
milliseconds and seconds divide ten to the eighteenth, so that what the
digits leave over misses a nanosecond by a whole step of theirs, which the
other digits do not make up (`Component.not_short_of_dvd`). All units from
the minute on have short components (`Unit.exists_short`).
-/

namespace WindowQuery

namespace Interval

/-- **The carry of a division in two steps**: what is cut off before is added to
the remainder. -/
theorem div_mul_eq_add_carry {a b s m : ℕ} (hs : 0 < s) (h : b / s < m) :
    (b + s * a) / (s * m) = a / m + if m ≤ a % m + b / s then 1 else 0 := by
  have hm : 0 < m := Nat.lt_of_le_of_lt (Nat.zero_le _) h
  rw [← Nat.div_div_eq_div_mul, Nat.add_mul_div_left _ _ hs, Nat.add_comm, Nat.add_div hm,
    Nat.div_eq_of_lt h, Nat.mod_eq_of_lt h, Nat.add_zero]

namespace Component

/-! ## What a component is exactly -/

/-- **The nanoseconds of a component**, with nothing rounded and no digit left out. -/
def exactNanos (c : Component) : ℚ :=
  (Numeral.value c.whole + Numeral.value c.decimals / 10 ^ c.decimals.length) * c.unit.nanos

/-- The digits that do not count. -/
def excess (c : Component) : List Char := c.decimals.drop 18

/-- The parts of a nanosecond that the digits that count make. -/
def scale (c : Component) : ℕ := 10 ^ min 18 c.decimals.length

/-- What the digits that count leave over, in these parts. -/
def leftover (c : Component) : ℕ :=
  Numeral.value (c.decimals.take 18) * c.unit.nanos % c.scale

/-- What the other digits are worth, in these parts. -/
def worth (c : Component) : ℕ := Numeral.value c.excess * c.unit.nanos / 10 ^ c.excess.length

/-- **A component is short** if what the digits that count leave over and what
the other ones are worth make up a nanosecond. -/
def Short (c : Component) : Prop := c.scale ≤ c.leftover + c.worth

instance (c : Component) : Decidable c.Short := inferInstanceAs (Decidable (_ ≤ _))

variable (c : Component)

theorem decimals_digits : ∀ a ∈ c.decimals, a.isDigit = true := by
  intro a ha
  unfold decimals at ha
  cases hd : c.decimals? with
  | none =>
    rw [hd] at ha
    cases ha
  | some digits =>
    rw [hd] at ha
    exact (c.isNumeral_decimals digits hd).digits a ha

/-- **The whole nanoseconds of a component**, in natural numbers. -/
theorem floor_exact : ⌊c.exactNanos⌋₊ =
    Numeral.value c.whole * c.unit.nanos +
      Numeral.value c.decimals * c.unit.nanos / 10 ^ c.decimals.length := by
  have hpos : 0 < 10 ^ c.decimals.length := Nat.pos_of_neZero _
  have hexact : c.exactNanos =
      ((Numeral.value c.decimals * c.unit.nanos +
        10 ^ c.decimals.length * (Numeral.value c.whole * c.unit.nanos) : ℕ) : ℚ) /
          (10 ^ c.decimals.length : ℕ) := by
    have hne : (10 : ℚ) ^ c.decimals.length ≠ 0 := pow_ne_zero _ (by norm_num)
    unfold exactNanos
    push_cast
    field_simp
    ring
  rw [hexact, Nat.floor_div_eq_div, Nat.add_mul_div_left _ _ hpos, Nat.add_comm]

/-! ## The digits that do not count -/

theorem scale_pos : 0 < c.scale := Nat.pos_of_neZero (10 ^ min 18 c.decimals.length)

/-- Where all digits count, the others are worth nothing. -/
theorem worth_eq_zero (h : c.decimals.length ≤ 18) : c.worth = 0 := by
  have hexcess : c.excess = [] := List.drop_eq_nil_of_le h
  rw [worth, hexcess]
  show 0 * c.unit.nanos / 1 = 0
  rw [Nat.zero_mul, Nat.zero_div]

/-- They are worth fewer parts than the unit has nanoseconds. -/
theorem worth_lt_unit : c.worth < c.unit.nanos := by
  have hvalue : Numeral.value c.excess < 10 ^ c.excess.length :=
    Numeral.value_lt_pow (fun a ha => c.decimals_digits a (List.mem_of_mem_drop ha))
  exact Nat.div_lt_of_lt_mul (Nat.mul_lt_mul_of_pos_right hvalue c.unit.nanos_pos)

/-- **They are worth less than a nanosecond**, because a year has fewer
nanoseconds than eighteen digits count. -/
theorem worth_lt_scale : c.worth < c.scale := by
  by_cases h : c.decimals.length ≤ 18
  · rw [c.worth_eq_zero h]
    exact c.scale_pos
  · rw [scale, Nat.min_eq_left (Nat.le_of_not_le h)]
    exact Nat.lt_trans c.worth_lt_unit (Nat.lt_of_le_of_lt c.unit.nanos_le (by decide))

/-- **A component has the nanoseconds that are counted**, and one more if it is
short. -/
theorem floor_exact_eq : ⌊c.exactNanos⌋₊ = c.nanos + if c.Short then 1 else 0 := by
  have hlength : c.decimals.length = c.excess.length + min 18 c.decimals.length := by
    rw [excess, List.length_drop]
    omega
  have hvalue : Numeral.value c.decimals =
      Numeral.value (c.decimals.take 18) * 10 ^ c.excess.length + Numeral.value c.excess := by
    rw [← Numeral.value_append, excess, List.take_append_drop]
  have hsplit : Numeral.value c.decimals * c.unit.nanos =
      Numeral.value c.excess * c.unit.nanos +
        10 ^ c.excess.length * (Numeral.value (c.decimals.take 18) * c.unit.nanos) := by
    rw [hvalue]
    ring
  have hpow : 10 ^ c.decimals.length = 10 ^ c.excess.length * c.scale := by
    rw [scale, ← pow_add, ← hlength]
  -- Dividing by all places is dividing by those that do not count first.
  rw [floor_exact, hsplit, hpow, div_mul_eq_add_carry (Nat.pos_of_neZero _) c.worth_lt_scale,
    ← Nat.add_assoc]
  rfl

/-! ## Short components -/

theorem Short.lt_length {c : Component} (h : c.Short) : 18 < c.decimals.length := by
  by_contra hle
  have hleft : c.leftover < c.scale := Nat.mod_lt _ c.scale_pos
  rw [Short, c.worth_eq_zero (Nat.le_of_not_lt hle), Nat.add_zero] at h
  exact absurd hleft (Nat.not_lt.2 h)

/-- **In a unit that divides ten to the eighteenth no component is short.** What
the digits leave over is a multiple of the unit there. -/
theorem not_short_of_dvd {c : Component} (h : c.unit.nanos ∣ 10 ^ 18) : ¬c.Short := by
  intro hshort
  have hscale : c.scale = 10 ^ 18 := by
    rw [scale, Nat.min_eq_left (Nat.le_of_lt hshort.lt_length)]
  obtain ⟨steps, hsteps⟩ := h
  have hpos : 0 < steps := by
    refine Nat.pos_of_ne_zero ?_
    rintro rfl
    cases hsteps
  have hleft : c.leftover + c.unit.nanos ≤ c.scale := by
    rw [leftover, hscale, hsteps, Nat.mul_comm (Numeral.value _), Nat.mul_mod_mul_left,
      ← Nat.mul_succ]
    exact Nat.mul_le_mul_left _ (Nat.mod_lt _ hpos)
  have hworth := c.worth_lt_unit
  rw [Short] at hshort
  omega

/-! ## Cut to eighteen digits -/

/-- **The component with eighteen digits** behind the point at most. -/
def cut : Component where
  whole := c.whole
  decimals? := c.decimals?.map (List.take 18)
  unit := c.unit
  spelling := c.spelling
  isNumeral_whole := c.isNumeral_whole
  isNumeral_decimals digits h := by
    obtain ⟨all, hall, rfl⟩ := Option.map_eq_some_iff.1 h
    obtain ⟨hne, hdigits⟩ := c.isNumeral_decimals all hall
    exact ⟨fun he => (List.take_eq_nil_iff.1 he).elim (by decide) hne,
      fun a ha => hdigits a (List.mem_of_mem_take ha)⟩
  spelling_mem := c.spelling_mem

theorem decimals_cut : c.cut.decimals = c.decimals.take 18 := by
  show (c.decimals?.map (List.take 18)).getD [] = (c.decimals?.getD []).take 18
  cases c.decimals? <;> rfl

theorem nanos_cut : c.cut.nanos = c.nanos := by
  unfold nanos
  rw [decimals_cut, List.take_take, List.length_take, Nat.min_self, ← Nat.min_assoc, Nat.min_self]
  rfl

/-- **The nanoseconds that count** are the whole ones of the component that is cut. -/
theorem floor_exact_cut : ⌊c.cut.exactNanos⌋₊ = c.nanos := by
  have hlength : c.cut.decimals.length ≤ 18 := by
    rw [decimals_cut]
    exact List.length_take_le 18 _
  rw [floor_exact_eq, if_neg (fun h => Nat.not_lt.2 hlength h.lt_length), Nat.add_zero, nanos_cut]

end Component

/-- A minute that is short: its first eighteen digits are less than a nanosecond,
and the nineteenth makes it more than one. -/
def shortMinute : Component where
  whole := ['0']
  decimals? := some (List.replicate 10 '0' ++ ['1', '6', '6', '6', '6', '6', '6', '6', '9'])
  unit := .minute
  spelling := ['m']
  isNumeral_whole := by decide
  isNumeral_decimals := by decide
  spelling_mem := by decide

/-- One second. -/
def wholeSecond : Component where
  whole := ['1']
  decimals? := none
  unit := .second
  spelling := ['s']
  isNumeral_whole := by decide
  isNumeral_decimals := by decide
  spelling_mem := by decide

/-- **The other units all have short components**, with a nine for the nineteenth
digit. -/
theorem Unit.exists_short {u : Unit} (h : ¬u.nanos ∣ 10 ^ 18) :
    ∃ c : Component, c.unit = u ∧ c.Short := by
  cases u with
  | nanosecond | microsecond | millisecond | second => exact absurd (by decide) h
  | minute => exact ⟨shortMinute, rfl, by decide⟩
  | hour =>
    let digits := List.replicate 12 '0' ++ ['2', '7', '7', '7', '7', '7', '9']
    exact ⟨⟨['0'], some digits, .hour, ['h'], by decide, by decide, by decide⟩, rfl, by decide⟩
  | day =>
    let digits := List.replicate 13 '0' ++ ['1', '1', '5', '7', '4', '9']
    exact ⟨⟨['0'], some digits, .day, ['d'], by decide, by decide, by decide⟩, rfl, by decide⟩
  | week =>
    let digits := List.replicate 14 '0' ++ ['1', '6', '5', '3', '9']
    exact ⟨⟨['0'], some digits, .week, ['w'], by decide, by decide, by decide⟩, rfl, by decide⟩
  | month =>
    let digits := List.replicate 15 '0' ++ ['3', '8', '5', '9']
    exact ⟨⟨['0'], some digits, .month, ['M'], by decide, by decide, by decide⟩, rfl, by decide⟩
  | year =>
    let digits := List.replicate 16 '0' ++ ['3', '1', '9']
    exact ⟨⟨['0'], some digits, .year, ['y'], by decide, by decide, by decide⟩, rfl, by decide⟩

/-! ## Intervals -/

/-- **The whole nanoseconds of some components**, with no digit left out. -/
def exactTotal (parts : List Component) : ℕ := (parts.map (fun c => ⌊c.exactNanos⌋₊)).sum

/-- Each short component is one nanosecond that is not counted. -/
theorem exactTotal_eq (parts : List Component) :
    exactTotal parts = total parts + parts.countP (fun c => c.Short) := by
  induction parts with
  | nil => rfl
  | cons c parts ih =>
    have hexact : exactTotal (c :: parts) = ⌊c.exactNanos⌋₊ + exactTotal parts := List.sum_cons
    have htotal : total (c :: parts) = c.nanos + total parts := List.sum_cons
    rw [hexact, htotal, ih, c.floor_exact_eq, List.countP_cons]
    simp only [decide_eq_true_eq]
    omega

theorem total_cut (parts : List Component) : total (parts.map Component.cut) = total parts := by
  unfold total
  rw [List.map_map]
  exact congrArg List.sum (List.map_congr_left fun c _ => c.nanos_cut)

/-- There is no interval of no nanoseconds, and none of so many that they do not fit. -/
theorem ofNanos?_eq_none_iff {n : ℕ} : ofNanos? n = none ↔ n = 0 ∨ UInt64.size ≤ n := by
  unfold ofNanos?
  split
  · next h => exact iff_of_false (Option.some_ne_none _) (by omega)
  · next h => exact iff_of_true rfl (by omega)

/-- **Components are read as they are written** just if none of them is short, or if
they do not fit anyhow. -/
theorem read?_eq_exact_iff {cs : List Char} {parts : List Component} (hne : parts ≠ [])
    (hparts : Text.trim cs = written parts) :
    read? cs = ofNanos? (exactTotal parts) ↔
      (∀ c ∈ parts, ¬c.Short) ∨ read? cs = none ∧ UInt64.size ≤ exactTotal parts := by
  have hread := read?_of_written hne hparts
  have hnone : parts.countP (fun c => c.Short) = 0 ↔ ∀ c ∈ parts, ¬c.Short := by
    simp only [List.countP_eq_zero, decide_eq_true_eq]
  have htotal := exactTotal_eq parts
  constructor
  · intro h
    by_cases hshort : parts.countP (fun c => c.Short) = 0
    · exact Or.inl (hnone.1 hshort)
    -- A nanosecond is missing, so that two intervals would not be the same one.
    cases hcs : read? cs with
    | some i =>
      have hi : total parts = i.nanos := ofNanos?_eq_some_iff.1 (hread ▸ hcs)
      have hi' : exactTotal parts = i.nanos := ofNanos?_eq_some_iff.1 (h ▸ hcs)
      omega
    | none =>
      have hfits := ofNanos?_eq_none_iff.1 (h ▸ hcs)
      exact Or.inr ⟨rfl, hfits.resolve_left (by omega)⟩
  · rintro (hshort | ⟨hcs, hfits⟩)
    · rw [hread, htotal, hnone.2 hshort, Nat.add_zero]
    · rw [hcs, ofNanos?_eq_none_iff.2 (Or.inr hfits)]

/-- **What is read, and what is written.** A component is read as the whole
nanoseconds of the one that is cut to eighteen digits; it has one more if it is
short, which takes a nineteenth digit and a unit that does not divide ten to
the eighteenth – and in each such unit there are short components. An interval
is read as many nanoseconds too short as it has short components; what is read
is right if there are none, and else only where too much is written to be
read. To cut all components changes nothing. -/
theorem read_precision {cs : List Char} {parts : List Component} (hne : parts ≠ [])
    (hparts : Text.trim cs = written parts) :
    (∀ c ∈ parts, c.nanos = ⌊c.cut.exactNanos⌋₊ ∧
        ⌊c.exactNanos⌋₊ = c.nanos + (if c.Short then 1 else 0) ∧
        (c.Short → 18 < c.decimals.length ∧ ¬c.unit.nanos ∣ 10 ^ 18)) ∧
      (∀ u : Unit, ¬u.nanos ∣ 10 ^ 18 → ∃ c : Component, c.unit = u ∧ c.Short) ∧
      read? cs = ofNanos? (exactTotal parts - parts.countP (fun c => c.Short)) ∧
      (read? cs = ofNanos? (exactTotal parts) ↔
        (∀ c ∈ parts, ¬c.Short) ∨ read? cs = none ∧ UInt64.size ≤ exactTotal parts) ∧
      ∀ cs', Text.trim cs' = written (parts.map Component.cut) → read? cs' = read? cs := by
  have hread := read?_of_written hne hparts
  refine ⟨fun c _ => ⟨c.floor_exact_cut.symm, c.floor_exact_eq,
      fun h => ⟨h.lt_length, fun hdvd => Component.not_short_of_dvd hdvd h⟩⟩,
    fun u h => Unit.exists_short h, ?missing, read?_eq_exact_iff hne hparts, ?cutAll⟩
  case missing => rw [hread, exactTotal_eq, Nat.add_sub_cancel]
  case cutAll =>
    intro cs' hcut
    rw [read?_of_written (fun h => hne (List.map_eq_nil_iff.1 h)) hcut, total_cut, hread]

/-- A second before a minute that is short: the nanosecond that the minute has is
missing, and that is all. -/
theorem read_precision_shortMinute :
    (['1', 's'] ++ shortMinute.source = written [wholeSecond, shortMinute]) ∧
      ∃ i, read? (['1', 's'] ++ shortMinute.source) = some i ∧
        i.nanos = 1000000000 ∧ exactTotal [wholeSecond, shortMinute] = 1000000001 := by
  have hwritten : Text.trim (['1', 's'] ++ shortMinute.source) =
      written [wholeSecond, shortMinute] := by decide
  have htotal : total [wholeSecond, shortMinute] = 1000000000 := by decide
  have hcount : [wholeSecond, shortMinute].countP (fun c => c.Short) = 1 := by decide
  have hexact : exactTotal [wholeSecond, shortMinute] = 1000000001 := by
    rw [exactTotal_eq, htotal, hcount]
  have hread := (read_precision (List.cons_ne_nil _ _) hwritten).2.2.1
  rw [hexact, hcount] at hread
  exact ⟨by decide, ⟨1000000000, by decide, by decide⟩, hread, rfl, hexact⟩

/-- **A nanosecond that is written is not always read.** These nineteen digits
are a whole nanosecond, and what is read of them is nothing. -/
theorem read_shortMinute :
    shortMinute.source =
        ['0', '.', '0', '0', '0', '0', '0', '0', '0', '0', '0', '0',
          '1', '6', '6', '6', '6', '6', '6', '6', '9', 'm'] ∧
      ⌊shortMinute.exactNanos⌋₊ = 1 ∧ shortMinute.nanos = 0 ∧ read? shortMinute.source = none := by
  have hwritten : Text.trim shortMinute.source = written [shortMinute] := by decide
  refine ⟨by decide, ?_, by decide, ?_⟩
  · rw [Component.floor_exact]
    decide
  · rw [read?_of_written (List.cons_ne_nil _ _) hwritten]
    decide

end Interval

end WindowQuery
