import WindowQuery.Binary64.Text
import WindowQuery.Proofs.Binary64.Shortest
import WindowQuery.Proofs.Text.Run

/-!
# Numbers in positional notation

The plain layout writes digits, and a point with more digits if the number needs
them. What such a text stands for can be said without binary numbers
(`Numeral.decimal?`), and that is the shortest decimal of the number that was
written (`decimal?_text`).
-/

namespace WindowQuery

/-! ## Plain decimal numerals -/

namespace Numeral

/-- **The number that a plain decimal numeral stands for**: digits and, if a point follows,
more digits. Nothing else is one, no sign and no exponent. -/
def decimal? (cs : List Char) : Option ℚ :=
  let whole := cs.takeWhile Char.isDigit
  match cs.dropWhile Char.isDigit with
  | [] => (nat? whole).map (fun n : ℕ => (n : ℚ))
  | '.' :: decimals => (nat? whole).bind (fun n =>
      (nat? decimals).map (fun d : ℕ => (n + d / 10 ^ decimals.length : ℚ)))
  | _ => none

variable {whole decimals : List Char}

theorem decimal?_digits (hne : whole ≠ []) (h : ∀ c ∈ whole, c.isDigit = true) :
    decimal? whole = some (value whole : ℚ) := by
  have htake := Text.takeWhile_run_append h Text.endsRun_nil
  have hdrop := Text.dropWhile_run_append h Text.endsRun_nil
  rw [List.append_nil] at htake hdrop
  rw [decimal?, htake, hdrop, nat?_of_digits hne h]
  rfl

/-- **Digits on both sides of a point.** -/
theorem decimal?_point (hne : whole ≠ []) (h : ∀ c ∈ whole, c.isDigit = true)
    (hne' : decimals ≠ []) (h' : ∀ c ∈ decimals, c.isDigit = true) :
    decimal? (whole ++ '.' :: decimals)
      = some (value (whole ++ decimals) / 10 ^ decimals.length : ℚ) := by
  have hends : Text.EndsRun Char.isDigit ('.' :: decimals) := Text.endsRun_cons.2 (by decide)
  have hvalue : (value whole + value decimals / 10 ^ decimals.length : ℚ)
      = value (whole ++ decimals) / 10 ^ decimals.length := by
    rw [value_append, eq_div_iff (by positivity), add_mul, div_mul_cancel₀ _ (by positivity)]
    push_cast
    rfl
  rw [decimal?, Text.takeWhile_run_append h hends, Text.dropWhile_run_append h hends,
    nat?_of_digits hne h, ← hvalue]
  exact congrArg (Option.map fun d : ℕ => (value whole + d / 10 ^ decimals.length : ℚ))
    (nat?_of_digits hne' h')

example : decimal? "0.50".toList = some (1 / 2) ∧ decimal? "5e-1".toList = none := by
  decide +kernel

end Numeral

/-! ## The text of a number -/

namespace Binary64

/-- **Positional notation is a plain numeral** for what the digits and the point stand for. -/
theorem decimal?_positionalText {d : Digits} (hne : d.digits ≠ [])
    (h : ∀ c ∈ d.digits, c.isDigit = true) :
    Numeral.decimal? (positionalText false d) = some d.value := by
  have hten : (10 : ℚ) ≠ 0 := by norm_num
  have hzeros : ∀ n, ∀ c ∈ List.replicate n '0', c.isDigit = true := fun n c hc => by
    rw [(List.mem_replicate.1 hc).2]
    decide
  have hlength : 0 < d.digits.length := List.length_pos_iff.2 hne
  unfold positionalText Digits.value
  split
  · next hpoint =>
    -- the point stands before all digits, and zeros between them
    obtain ⟨z, hz⟩ := Int.exists_eq_neg_ofNat hpoint
    have hread : Numeral.decimal? (['0'] ++ '.' :: (List.replicate z '0' ++ d.digits)) = _ :=
      Numeral.decimal?_point (List.cons_ne_nil _ _) (hzeros 1)
        (List.append_ne_nil_of_right_ne_nil _ hne)
        (fun c hc => (List.mem_append.1 hc).elim (hzeros z c) (h c))
    have hzero : Numeral.value (['0'] ++ (List.replicate z '0' ++ d.digits))
        = Numeral.value d.digits := by
      have hfront : ['0'] ++ (List.replicate z '0' ++ d.digits)
          = List.replicate (z + 1) '0' ++ d.digits := by
        rw [List.replicate_succ]
        rfl
      rw [hfront, Numeral.value_append, Numeral.value_replicate_zero, Nat.zero_mul, Nat.zero_add]
    have hshift : d.point - d.digits.length = -((z + d.digits.length : ℕ) : ℤ) := by omega
    rw [hzero, List.length_append, List.length_replicate] at hread
    rw [hshift, hz, Int.neg_neg, Int.toNat_natCast, zpow_neg, zpow_natCast, ← div_eq_mul_inv,
      ← hread]
    rfl
  · next hpoint =>
    split
    · next hwhole =>
      -- it stands behind all of them, and zeros fill the places up to it
      have hall : ∀ c ∈ d.digits ++ List.replicate (d.point.toNat - d.digits.length) '0',
          c.isDigit = true := fun c hc => (List.mem_append.1 hc).elim (h c) (hzeros _ c)
      have hshift : d.point - d.digits.length = (d.point.toNat - d.digits.length : ℕ) := by omega
      rw [if_neg Bool.false_ne_true, List.append_nil,
        Numeral.decimal?_digits (List.append_ne_nil_of_left_ne_nil hne _) hall,
        Numeral.value_append, Numeral.value_replicate_zero, List.length_replicate, Nat.add_zero,
        hshift, zpow_natCast]
      push_cast
      rfl
    · next hwhole =>
      -- it stands among the digits, and what is behind it is the fraction
      have hshift : d.point - d.digits.length = -((d.digits.drop d.point.toNat).length : ℤ) := by
        rw [List.length_drop]
        omega
      have htake : d.digits.take d.point.toNat ≠ [] :=
        List.ne_nil_of_length_pos (by rw [List.length_take]; omega)
      have hdrop : d.digits.drop d.point.toNat ≠ [] :=
        List.ne_nil_of_length_pos (by rw [List.length_drop]; omega)
      rw [Numeral.decimal?_point htake (fun c hc => h c (List.mem_of_mem_take hc)) hdrop
        (fun c hc => h c (List.mem_of_mem_drop hc)), List.take_append_drop, hshift, zpow_neg,
        zpow_natCast, ← div_eq_mul_inv]

/-- **The text of a finite number that is not negative** is a plain numeral for its shortest
decimal. -/
theorem decimal?_text {x : Binary64} (hsign : x.negative = false) (h0 : 0 < x.magnitude)
    (hm : x.magnitude < infinityMagnitude) :
    ∃ q, Numeral.decimal? x.text.toList = some q ∧ IsShortest x.magnitude q ∧
      HasDigits 17 q := by
  obtain ⟨hshortest, hdigits, hne⟩ := isShortest_shortest h0 hm
  refine ⟨_, ?_, hshortest, hdigits⟩
  have htext : x.text.toList = positionalText false (shortest .away x.magnitude) := by
    have hnan : x.isNaN = false := decide_eq_false (Nat.lt_asymm hm)
    have hfinite : x.isFinite = true := decide_eq_true hm
    rw [text, hnan, hfinite, if_neg Bool.false_ne_true, if_pos rfl, String.toList_ofList,
      finiteText, hsign]
    rfl
  rw [htext]
  exact decimal?_positionalText hne fun c => isDigit_of_mem_shortest

end Binary64

end WindowQuery
