import Mathlib.Algebra.Order.Ring.Nat
import Mathlib.Data.List.TakeWhile
import WindowQuery.Text.Numeral

/-!
# What numerals stand for

A numeral put together from two has the value of the first one, moved up by
the digits of the second, and that of the second; and no numeral stands for
more than its number of digits allows. A number that is written in a given
width has that width unless it is too large for it, and is read back either
way.
-/

namespace WindowQuery.Numeral

/-- **The value of two numerals, one after the other.** -/
theorem value_append (as bs : List Char) :
    value (as ++ bs) = value as * 10 ^ bs.length + value bs := by
  rw [value, Nat.ofDigitChars_append, Nat.ofDigitChars_eq_ofDigitChars_zero, Nat.mul_comm]
  rfl

theorem value_digit_lt {c : Char} (h : c.isDigit = true) : value [c] < 10 := by
  have hvalue : value [c] = c.toNat - '0'.toNat := Nat.zero_add _
  have hnine : c.toNat ≤ '9'.toNat := by
    rw [Char.isDigit, Bool.and_eq_true, decide_eq_true_iff, decide_eq_true_iff] at h
    exact h.2
  rw [hvalue]
  exact Nat.lt_of_le_of_lt (Nat.sub_le_sub_right hnine _) (by decide)

/-- **A numeral is below the power of ten for its length.** -/
theorem value_lt_pow {cs : List Char} (h : ∀ c ∈ cs, c.isDigit = true) :
    value cs < 10 ^ cs.length := by
  induction cs with
  | nil => exact Nat.one_pos
  | cons c cs ih =>
    have hc : value [c] < 10 := value_digit_lt (h c List.mem_cons_self)
    have hcs : value cs < 10 ^ cs.length := ih (fun d hd => h d (List.mem_cons_of_mem c hd))
    rw [← List.singleton_append, value_append, List.singleton_append, List.length_cons]
    calc value [c] * 10 ^ cs.length + value cs
        < value [c] * 10 ^ cs.length + 10 ^ cs.length := Nat.add_lt_add_left hcs _
      _ = (value [c] + 1) * 10 ^ cs.length := (Nat.succ_mul _ _).symm
      _ ≤ 10 * 10 ^ cs.length := Nat.mul_le_mul_right _ hc
      _ = 10 ^ (cs.length + 1) := (Nat.pow_succ').symm

theorem value_replicate_zero (n : Nat) : value (List.replicate n '0') = 0 := by
  rw [value, Nat.ofDigitChars_replicate_zero, Nat.mul_zero]

/-- Digits without the zeros at their end, and these zeros. -/
theorem exists_trailingZeros (cs : List Char) :
    ∃ k, cs = (cs.reverse.dropWhile (· == '0')).reverse ++ List.replicate k '0' := by
  have hzeros : ∀ c ∈ cs.reverse.takeWhile (· == '0'), c = '0' := fun c hc =>
    beq_iff_eq.1 (List.mem_takeWhile_imp (p := (· == '0')) hc)
  refine ⟨(cs.reverse.takeWhile (· == '0')).length, ?_⟩
  rw [← List.reverse_replicate, ← List.eq_replicate_of_mem hzeros, ← List.reverse_append,
    List.takeWhile_append_dropWhile, List.reverse_reverse]

/-- **A number is read back from any width.** -/
@[simp] theorem value_padded (width n : Nat) : value (padded width n) = n := by
  rw [padded, value_append, value_replicate_zero, Nat.zero_mul, Nat.zero_add, value_digits]

/-- **A number that fits its width fills it.** -/
theorem length_padded {width n : Nat} (hwidth : 0 < width) (h : n < 10 ^ width) :
    (padded width n).length = width := by
  have hle : (digits n).length ≤ width := (Nat.length_toDigits_le_iff (by decide) hwidth).2 h
  rw [padded, List.length_append, List.length_replicate, Nat.sub_add_cancel hle]

/-- **Only zero is written with a zero in front**, and with nothing behind it. -/
theorem eq_nil_of_digits_eq_zero_cons {n : Nat} {cs : List Char} (h : digits n = '0' :: cs) :
    cs = [] := by
  by_contra hne
  have hdigits : ∀ c ∈ cs, c.isDigit = true := fun c hc =>
    Nat.isDigit_of_mem_toDigits (by decide) (by decide) (h.symm ▸ List.mem_cons_of_mem _ hc)
  have hvalue : n = value cs := by
    rw [← value_digits n, h, ← List.singleton_append, value_append]
    exact (congrArg (· + value cs) (Nat.zero_mul _)).trans (Nat.zero_add _)
  have hlength : (digits n).length ≤ cs.length :=
    (Nat.length_toDigits_le_iff (by decide) (List.length_pos_iff.2 hne)).2
      (hvalue ▸ value_lt_pow hdigits)
  rw [h, List.length_cons] at hlength
  omega

theorem padded_ne_nil (width n : Nat) : padded width n ≠ [] :=
  List.append_ne_nil_of_right_ne_nil _ Nat.toDigits_ne_nil

/-- **An unsigned 64-bit number is read from digits that stand for one**, with a plus
sign in front or not. -/
theorem nat64?_eq_some_iff {cs : List Char} {n : Nat} :
    nat64? cs = some n ↔
      ∃ digits, (cs = digits ∨ cs = '+' :: digits) ∧ digits ≠ [] ∧
        (∀ c ∈ digits, c.isDigit = true) ∧ n = value digits ∧ n < UInt64.size := by
  have hread : ∀ digits : List Char, (nat? digits).filter (· < UInt64.size) = some n ↔
      digits ≠ [] ∧ (∀ c ∈ digits, c.isDigit = true) ∧ n = value digits ∧ n < UInt64.size := by
    intro digits
    rw [Option.filter_eq_some_iff, decide_eq_true_iff, nat?, Option.ite_none_right_eq_some,
      List.all_eq_true, Option.some_inj, eq_comm (a := value digits), and_assoc, and_assoc]
  unfold nat64?
  dsimp only
  rw [hread]
  -- a plus sign is taken off once; a second one is no digit
  split
  · next rest =>
    constructor
    · exact fun h => ⟨rest, .inr rfl, h⟩
    · rintro ⟨digits, rfl | h, hdigits⟩
      · exact absurd (hdigits.2.1 '+' List.mem_cons_self) (by decide)
      · obtain rfl := (List.cons.inj h).2
        exact hdigits
  · next hplus =>
    constructor
    · exact fun h => ⟨cs, .inl rfl, h⟩
    · rintro ⟨digits, rfl | rfl, hdigits⟩
      · exact hdigits
      · exact absurd rfl (hplus digits)

end WindowQuery.Numeral
