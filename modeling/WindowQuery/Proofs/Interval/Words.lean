import Mathlib.Algebra.Order.BigOperators.Group.List
import Mathlib.Algebra.Order.Ring.Nat
import WindowQuery.Proofs.Interval.Grammar
import WindowQuery.Proofs.Text.Numeral

/-!
# Reading intervals in words

`read?` counts nanoseconds in natural numbers, and looks only at the end
whether an interval fits 64 bits. A program counts in words of 128 bits. It
checks most of what it does, and a component that does not fit is no
component to it; but it multiplies the digits of a fraction with the unit,
and raises ten to the number of these digits, without a check. And it takes
components off the front of the text for as long as there are any, before
it looks whether anything is left. `readInWords` is that program, in which
an operation without a check fails for good if a word does not hold its
result.

It never does (`readInWords_eq`), because eighteen digits times a year fit
the word. Nor do the checks change what is read: what does not fit 128 bits
does not fit 64.
-/

namespace WindowQuery

namespace Interval

/-! ## Arithmetic in words -/

/-- The numbers below this one are those that a word holds. -/
def wordSize : Nat := 2 ^ 128

/-- **A result that is checked**: none if a word does not hold it. -/
def checked (n : Nat) : Option Nat := if n < wordSize then some n else none

/-- What goes wrong where nobody checks. -/
inductive Overflow where
  /-- A word does not hold the result. -/
  | overflow

/-- **A result that nobody checks.** -/
def unchecked (n : Nat) : Except Overflow Nat := if n < wordSize then .ok n else .error .overflow

theorem checked_of_lt {n : Nat} (h : n < wordSize) : checked n = some n := if_pos h

theorem checked_of_not_lt {n : Nat} (h : ¬n < wordSize) : checked n = none := if_neg h

theorem eq_of_checked {n m : Nat} (h : checked n = some m) : m = n :=
  (Option.some.inj (Option.ite_none_right_eq_some.1 h).2).symm

theorem unchecked_of_lt {n : Nat} (h : n < wordSize) : unchecked n = .ok n := if_pos h

/-- **A check is no more than the check after it** where numbers do not become
smaller. -/
theorem checked_bind {n : Nat} {f : Nat → Nat} (h : n ≤ f n) :
    (checked n).bind (fun n => checked (f n)) = checked (f n) := by
  by_cases hn : n < wordSize
  · rw [checked_of_lt hn, Option.bind_some]
  · rw [checked_of_not_lt hn, checked_of_not_lt (fun hf => hn (Nat.lt_of_le_of_lt h hf)),
      Option.bind_none]

/-! ## One component -/

/-- The nanoseconds of a component, none if they do not fit. -/
def componentInWords (whole decimals : List Char) (u : Unit) : Except Overflow (Option Nat) :=
  match (checked (Numeral.value whole)).bind (fun n => checked (n * u.nanos)) with
  | none => .ok none
  | some nanos =>
    if decimals.isEmpty then .ok (some nanos)
    else
      let kept := decimals.take 18
      (unchecked (10 ^ kept.length)).bind (fun scale =>
        match checked (Numeral.value kept) with
        | none => .ok none
        | some part => (unchecked (part * u.nanos)).map (fun n => checked (nanos + n / scale)))

/-- The component at the front of a text, and what follows it. -/
def takeComponent (cs : List Char) : Except Overflow (Option (Nat × List Char)) :=
  let whole := cs.takeWhile Char.isDigit
  if whole.isEmpty then .ok none
  else
    let (decimals, rest) := fraction (cs.dropWhile Char.isDigit)
    match unit? rest with
    | none => .ok none
    | some (u, rest) =>
      (componentInWords whole decimals u).map (fun n => n.map (fun n => (n, rest)))

/-- **What nobody checks fits**: ten to the number of eighteen digits, and these
digits times a unit. -/
theorem unchecked_fits {decimals : List Char} (h : ∀ c ∈ decimals, c.isDigit = true) (u : Unit) :
    10 ^ (decimals.take 18).length < wordSize ∧
      Numeral.value (decimals.take 18) < wordSize ∧
      Numeral.value (decimals.take 18) * u.nanos < wordSize := by
  have hscale : 10 ^ (decimals.take 18).length ≤ 10 ^ 18 :=
    Nat.pow_le_pow_right (by decide) (List.length_take_le 18 decimals)
  have hvalue : Numeral.value (decimals.take 18) < 10 ^ (decimals.take 18).length :=
    Numeral.value_lt_pow (fun c hc => h c (List.mem_of_mem_take hc))
  have hproduct : Numeral.value (decimals.take 18) * u.nanos ≤ 10 ^ 18 * Unit.year.nanos :=
    Nat.mul_le_mul (Nat.le_trans (Nat.le_of_lt hvalue) hscale) u.nanos_le
  have hyear : 10 ^ 18 * Unit.year.nanos < wordSize := by decide
  have hpow : 10 ^ 18 < wordSize := by decide
  exact ⟨Nat.lt_of_le_of_lt hscale hpow,
    Nat.lt_trans (Nat.lt_of_lt_of_le hvalue hscale) hpow, Nat.lt_of_le_of_lt hproduct hyear⟩

/-- **The nanoseconds of a component in words** are its nanoseconds, if they fit. -/
theorem componentInWords_eq {decimals : List Char} (h : ∀ c ∈ decimals, c.isDigit = true)
    (whole : List Char) (u : Unit) :
    componentInWords whole decimals u = .ok (checked (componentNanos whole decimals u)) := by
  obtain ⟨hscale, hvalue, hproduct⟩ := unchecked_fits h u
  have hwhole : (checked (Numeral.value whole)).bind (fun n => checked (n * u.nanos)) =
      checked (Numeral.value whole * u.nanos) :=
    checked_bind (Nat.le_mul_of_pos_right _ u.nanos_pos)
  unfold componentInWords
  rw [hwhole]
  -- only the product of the whole number is checked; what the fraction adds always fits
  by_cases hfits : Numeral.value whole * u.nanos < wordSize
  · rw [checked_of_lt hfits]
    dsimp only
    split
    · next hnone =>
      obtain rfl := List.isEmpty_iff.1 hnone
      have hnanos : componentNanos whole [] u = Numeral.value whole * u.nanos := by
        show Numeral.value whole * u.nanos + 0 * u.nanos / 1 = _
        rw [Nat.zero_mul, Nat.zero_div, Nat.add_zero]
      rw [hnanos, checked_of_lt hfits]
    · rw [unchecked_of_lt hscale, checked_of_lt hvalue]
      show (unchecked _).map _ = _
      rw [unchecked_of_lt hproduct]
      rfl
  · rw [checked_of_not_lt hfits, checked_of_not_lt]
    exact fun hall => hfits (Nat.lt_of_le_of_lt (Nat.le_add_right _ _) hall)

/-- **Taking a component is reading one** and checking that it fits. -/
theorem takeComponent_eq (cs : List Char) :
    takeComponent cs =
      .ok ((component? cs).bind (fun found => (checked found.1).map (·, found.2))) := by
  obtain ⟨f, hf, hdecimals, -⟩ := exists_fraction (cs.dropWhile Char.isDigit)
  have hdigits : ∀ c ∈ (fraction (cs.dropWhile Char.isDigit)).1, c.isDigit = true := by
    rw [hdecimals]
    cases f with
    | none => exact fun c hc => (by cases hc)
    | some digits => exact (hf digits rfl).digits
  unfold takeComponent component?
  dsimp only
  split
  · rfl
  · cases unit? (fraction (cs.dropWhile Char.isDigit)).2 with
    | none => rfl
    | some found =>
      dsimp only
      rw [componentInWords_eq hdigits]
      rfl

theorem length_lt_of_takeComponent {cs rest : List Char} {n : Nat}
    (h : takeComponent cs = .ok (some (n, rest))) : rest.length < cs.length := by
  rw [takeComponent_eq] at h
  obtain ⟨found, hfound, hfits⟩ := Option.bind_eq_some_iff.1 (Except.ok.inj h)
  obtain ⟨m, -, he⟩ := Option.map_eq_some_iff.1 hfits
  obtain ⟨-, rfl⟩ := Prod.mk.inj he
  exact length_lt_of_component? hfound

/-! ## The program -/

/-- The components at the front of a text, and what follows them. -/
def takeAll (cs : List Char) : Except Overflow (List Nat × List Char) :=
  match _h : takeComponent cs with
  | .error e => .error e
  | .ok none => .ok ([], cs)
  | .ok (some (n, rest)) => (takeAll rest).map (fun (ns, left) => (n :: ns, left))
termination_by cs.length
decreasing_by exact length_lt_of_takeComponent _h

/-- The sum of some nanoseconds and what there is already, none if it does not fit
at some place. -/
def sumInWords (already : Nat) : List Nat → Option Nat
  | [] => some already
  | n :: ns => (checked (already + n)).bind (fun sum => sumInWords sum ns)

/-- **Reads an interval in words**: components off the front, at least one and
nothing after them, and then their sum. -/
def readInWords (cs : List Char) : Except Overflow (Option Interval) :=
  (takeAll (Text.trim cs)).map (fun (ns, left) =>
    if ns.isEmpty || !left.isEmpty then none else (sumInWords 0 ns).bind ofNanos?)

/-- What is taken, by the component at the front. -/
theorem takeAll_eq (cs : List Char) :
    takeAll cs = match (component? cs).bind (fun found => (checked found.1).map (·, found.2)) with
      | none => .ok ([], cs)
      | some (n, rest) => (takeAll rest).map (fun (ns, left) => (n :: ns, left)) := by
  have htake := takeComponent_eq cs
  rw [takeAll]
  split
  · next e herror =>
    rw [herror] at htake
    cases htake
  · next hnone =>
    rw [hnone] at htake
    rw [← Except.ok.inj htake]
  · next n rest hsome =>
    rw [hsome] at htake
    rw [← Except.ok.inj htake]

/-- **What is taken are components as they are written**, in front of what is
left, whatever the text. -/
theorem exists_takeAll (cs : List Char) : ∃ parts left,
    takeAll cs = .ok (parts.map Component.nanos, left) ∧ cs = written parts ++ left := by
  induction hn : cs.length using Nat.strongRecOn generalizing cs with
  | ind n ih =>
    subst hn
    rw [takeAll_eq]
    split
    · exact ⟨[], cs, rfl, rfl⟩
    · next n rest hsome =>
      obtain ⟨found, hfound, hfits⟩ := Option.bind_eq_some_iff.1 hsome
      obtain ⟨m, hm, he⟩ := Option.map_eq_some_iff.1 hfits
      obtain ⟨rfl, rfl⟩ := Prod.mk.inj he
      obtain ⟨parts, left, hrest, hparts⟩ := ih _ (length_lt_of_component? hfound) found.2 rfl
      obtain ⟨c, hc, hnanos⟩ := exists_component hfound
      refine ⟨c :: parts, left, ?_, ?_⟩
      · rw [hrest, List.map_cons, ← hnanos, eq_of_checked hm]
        rfl
      · rw [hc, hparts, written_cons, List.append_assoc]

/-- **Components that fit are taken**, all of them. -/
theorem takeAll_written {parts : List Component} (h : ∀ c ∈ parts, c.nanos < wordSize) :
    takeAll (written parts) = .ok (parts.map Component.nanos, []) := by
  induction parts with
  | nil =>
    rw [takeAll_eq]
    rfl
  | cons c parts ih =>
    rw [takeAll_eq, written_cons, c.component?_source (follows_written parts), Option.bind_some,
      checked_of_lt (h c List.mem_cons_self), Option.map_some]
    dsimp only
    rw [ih (fun d hd => h d (List.mem_cons_of_mem c hd))]
    rfl

/-- **A sum that is checked at each place** is one that is checked at the end. -/
theorem sumInWords_eq {already : Nat} (h : already < wordSize) (ns : List Nat) :
    sumInWords already ns = checked (already + ns.sum) := by
  induction ns generalizing already with
  | nil => exact (checked_of_lt h).symm
  | cons n ns ih =>
    rw [sumInWords, List.sum_cons, ← Nat.add_assoc]
    by_cases hn : already + n < wordSize
    · rw [checked_of_lt hn, Option.bind_some, ih hn]
    · rw [checked_of_not_lt hn, Option.bind_none, checked_of_not_lt]
      exact fun hall => hn (Nat.lt_of_le_of_lt (Nat.le_add_right _ _) hall)

/-- No interval is so long that its nanoseconds do not fit. -/
theorem sumInWords_bind_ofNanos? (ns : List Nat) :
    (sumInWords 0 ns).bind ofNanos? = ofNanos? ns.sum := by
  rw [sumInWords_eq (by decide), Nat.zero_add]
  by_cases h : ns.sum < wordSize
  · rw [checked_of_lt h, Option.bind_some]
  · rw [checked_of_not_lt h, Option.bind_none, ofNanos?, dif_neg]
    rintro ⟨-, hlt⟩
    exact h (Nat.lt_trans hlt (by decide))

/-- **The program never fails, and reads the interval that is written.** -/
theorem readInWords_eq (cs : List Char) : readInWords cs = .ok (read? cs) := by
  obtain ⟨parts, left, htake, hparts⟩ := exists_takeAll (Text.trim cs)
  unfold readInWords
  rw [htake]
  refine congrArg Except.ok ?_
  dsimp only
  by_cases hleft : left = []
  · subst hleft
    rw [List.append_nil] at hparts
    by_cases hne : parts = []
    · subst hne
      have hnone : components? [] = none := by
        rw [components?]
        rfl
      show none = read? cs
      rw [read?, hparts, written_nil, hnone, Option.bind_none]
    · have hmap : ¬(parts.map Component.nanos).isEmpty = true := fun h =>
        hne (List.map_eq_nil_iff.1 (List.isEmpty_iff.1 h))
      rw [if_neg (by simpa using hmap), sumInWords_bind_ofNanos?, read?_of_written hne hparts,
        total]
  · rw [if_pos (by simp [hleft])]
    refine (Option.eq_none_iff_forall_ne_some.2 fun i hi => hleft ?_).symm
    -- All components of an interval fit, so that the program takes them and leaves nothing.
    obtain ⟨parts', hne, hparts', htotal⟩ := read?_eq_some_iff.1 hi
    have hfits : ∀ c ∈ parts', c.nanos < wordSize := by
      intro c hc
      have hle : c.nanos ≤ total parts' := List.le_sum_of_mem (List.mem_map_of_mem hc)
      rw [htotal] at hle
      exact Nat.lt_trans (Nat.lt_of_le_of_lt hle i.nanos_lt) (by decide)
    rw [hparts', takeAll_written hfits] at htake
    exact ((Prod.mk.inj (Except.ok.inj htake)).2).symm

/-! ## What is accepted -/

/-- **What is accepted, and what it is read as.** A text is an interval just if
between its blanks it is one or more components and nothing else, and these
come to one nanosecond at least and to as many as 64 bits hold at most; the
interval is that many. There are no two ways to take a text for components,
the reader finds those that are there, whatever they come to, and nothing that
it does not check goes beyond a word. -/
theorem read_grammar (cs : List Char) :
    ((∃ i, read? cs = some i) ↔
        ∃ parts, parts ≠ [] ∧ Text.trim cs = written parts ∧
          1 ≤ total parts ∧ total parts ≤ 2 ^ 64 - 1) ∧
      (∀ parts i, Text.trim cs = written parts → read? cs = some i → i.nanos = total parts) ∧
      (∀ parts parts', Text.trim cs = written parts → Text.trim cs = written parts' →
        parts = parts') ∧
      (∀ parts, parts ≠ [] → Text.trim cs = written parts →
        components? (Text.trim cs) = some (parts.map Component.nanos)) ∧
      readInWords cs = .ok (read? cs) := by
  refine ⟨⟨?accepted, ?accepts⟩, ?exact, ?unique, ?found, readInWords_eq cs⟩
  case accepted =>
    rintro ⟨i, hi⟩
    obtain ⟨parts, hne, hparts, htotal⟩ := read?_eq_some_iff.1 hi
    refine ⟨parts, hne, hparts, ?_, ?_⟩ <;> rw [htotal]
    · exact i.nanos_pos
    · exact Nat.le_sub_one_of_lt i.nanos_lt
  case accepts =>
    rintro ⟨parts, hne, hparts, hpos, hfits⟩
    have hlt : total parts < UInt64.size := Nat.lt_of_le_of_lt hfits (by decide)
    exact ⟨⟨total parts, hpos, hlt⟩, read?_eq_some_iff.2 ⟨parts, hne, hparts, rfl⟩⟩
  case exact =>
    intro parts i hparts hi
    obtain ⟨parts', -, hparts', htotal⟩ := read?_eq_some_iff.1 hi
    rw [← htotal, written_injective (hparts.symm.trans hparts')]
  case unique =>
    intro parts parts' hparts hparts'
    exact written_injective (hparts.symm.trans hparts')
  case found =>
    intro parts hne hparts
    rw [hparts, components?_written hne]

/-- A minute after milliseconds and one and a half months after the minute, with
blanks around. -/
theorem read_grammar_threeUnits :
    ∃ i, read? [' ', '1', 'm', 's', '2', 'm', '1', '.', '5', 'M', '\n'] = some i ∧
      i.nanos = 3888120001000000 ∧
      components? ['1', 'm', 's', '2', 'm', '1', '.', '5', 'M'] =
        some [1000000, 120000000000, 3888000000000000] := by
  let parts : List Component :=
    [⟨['1'], none, .millisecond, ['m', 's'], by decide, by decide, by decide⟩,
      ⟨['2'], none, .minute, ['m'], by decide, by decide, by decide⟩,
      ⟨['1'], some ['5'], .month, ['M'], by decide, by decide, by decide⟩]
  have hparts : Text.trim [' ', '1', 'm', 's', '2', 'm', '1', '.', '5', 'M', '\n'] =
      written parts := by decide
  obtain ⟨haccepts, hexact, -, hfound, -⟩ :=
    read_grammar [' ', '1', 'm', 's', '2', 'm', '1', '.', '5', 'M', '\n']
  obtain ⟨i, hi⟩ := haccepts.2
    ⟨parts, List.cons_ne_nil _ _, hparts, by decide, by decide⟩
  have htotal : total parts = 3888120001000000 := by decide
  exact ⟨i, hi, (hexact parts i hparts hi).trans htotal, hfound parts (List.cons_ne_nil _ _) hparts⟩

end Interval

end WindowQuery
