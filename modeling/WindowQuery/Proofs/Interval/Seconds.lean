import WindowQuery.Interval
import WindowQuery.Proofs.Binary64.Arithmetic
import WindowQuery.Proofs.Binary64.Text

/-!
# Intervals in seconds

On its way to a text of seconds an interval becomes a binary number, by two
roundings: the nanoseconds beyond the whole seconds are divided, and the
quotient is added to the seconds (`RoundsTwice`). The text is the shortest decimal
of that number (`decimal?_inSeconds`). It is never far from the interval
(`RoundsTwice.abs_sub_lt`); where the interval has fifteen digits at most, it is
the interval if the two roundings come to the same as one
(`RoundsTwice.eq_seconds_iff`), and they do if one of the two summands is zero
(`RoundsTwice.isNearest_seconds`).
-/

namespace WindowQuery

open Binary64 (value IsNearest IsShortest HasDigits)

namespace Interval

/-- **The binary number that is written**: the whole seconds and the rest, which is divided
first and added then. -/
def sum (i : Interval) : Binary64 :=
  Binary64.add (.ofNat (i.nanos / 1000000000))
    (.div (.ofNat (i.nanos % 1000000000)) (.ofNat 1000000000))

/-- **An interval rounded twice**: the nanoseconds beyond its whole seconds are rounded as a
part of a second, and what they and the seconds make together is rounded again. -/
def RoundsTwice (i : Interval) (m : ℕ) : Prop :=
  ∃ rest, IsNearest ((i.nanos % 1000000000 : ℕ) / 10 ^ 9) rest ∧
    IsNearest ((i.nanos / 1000000000 : ℕ) + value rest) m

/-- **The sum is rounded twice**, once for the quotient and once for itself. -/
theorem sum_spec (i : Interval) :
    i.RoundsTwice i.sum.magnitude ∧ i.sum.magnitude < Binary64.infinityMagnitude ∧
      i.sum.negative = false := by
  have hsize : i.nanos < 2 ^ 64 := i.nanos_lt
  have hseconds : i.nanos / 1000000000 + 1 < 2 ^ 53 := by omega
  have hnanos : i.nanos % 1000000000 ≤ 1000000000 := (Nat.mod_lt _ (by decide)).le
  have hbillion : ((1000000000 : ℕ) : ℚ) = 10 ^ 9 := by norm_num
  obtain ⟨hrest, hrest'⟩ :=
    Binary64.isNearest_div_ofNat (b := 1000000000) (by decide) (by norm_num) hnanos
  obtain ⟨hsum, hfinite⟩ := Binary64.isNearest_ofNat_add hseconds hrest'
  exact ⟨⟨_, hbillion ▸ hrest, hsum⟩, hfinite, Binary64.negative_add _ _⟩

/-- **The interval in seconds**, exactly. -/
def seconds (i : Interval) : ℚ := i.nanos / 10 ^ 9

theorem seconds_eq (i : Interval) :
    i.seconds = (i.nanos / 1000000000 : ℕ) + (i.nanos % 1000000000 : ℕ) / 10 ^ 9 := by
  have hsplit : ((i.nanos / 1000000000 : ℕ) : ℚ) * 10 ^ 9 + (i.nanos % 1000000000 : ℕ)
      = i.nanos := by
    norm_num
    exact_mod_cast Nat.div_add_mod' i.nanos 1000000000
  rw [seconds, ← hsplit, add_div, mul_div_cancel_right₀ _ (by positivity)]

theorem le_seconds (i : Interval) : 1 / 10 ^ 9 ≤ i.seconds := by
  have hone : (1 : ℚ) ≤ i.nanos := by exact_mod_cast i.nanos_pos
  exact div_le_div_of_nonneg_right hone (by positivity)

variable {i : Interval} {m : ℕ} {q : ℚ}

/-- **What is rounded twice is two roundings away from the interval**, and has all its
bits. -/
theorem RoundsTwice.near (h : i.RoundsTwice m) :
    2 ^ 52 < m ∧ |value m - i.seconds| ≤ i.seconds * (2 / 2 ^ 53 + 1 / 2 ^ 106) := by
  obtain ⟨rest, hrest, hsum⟩ := h
  have hpos := i.le_seconds
  rw [seconds_eq] at hpos ⊢
  have hseconds : (0 : ℚ) ≤ (i.nanos / 1000000000 : ℕ) := Nat.cast_nonneg _
  generalize ((i.nanos / 1000000000 : ℕ) : ℚ) = s at *
  have hquotient : |value rest - (i.nanos % 1000000000 : ℕ) / 10 ^ 9|
      ≤ ((i.nanos % 1000000000 : ℕ) / 10 ^ 9 : ℚ) / 2 ^ 53 := by
    rcases Nat.eq_zero_or_pos (i.nanos % 1000000000) with hzero | hrestpos
    · rw [hzero, Nat.cast_zero, zero_div] at hrest ⊢
      rw [Binary64.isNearest_zero_iff.1 hrest, Binary64.value_zero, sub_zero, abs_zero, zero_div]
    · have hone : (1 : ℚ) ≤ (i.nanos % 1000000000 : ℕ) := by exact_mod_cast hrestpos
      refine hrest.abs_sub_le (hrest.normal ?_)
      linarith
  have hnonneg : (0 : ℚ) ≤ (i.nanos % 1000000000 : ℕ) / 10 ^ 9 := by positivity
  generalize ((i.nanos % 1000000000 : ℕ) / 10 ^ 9 : ℚ) = b at *
  obtain ⟨hlow, hhigh⟩ := abs_le.1 hquotient
  have hnormal := hsum.normal (by linarith)
  obtain ⟨hlow', hhigh'⟩ := abs_le.1 (hsum.abs_sub_le hnormal)
  refine ⟨hnormal, abs_le.2 ⟨?_, ?_⟩⟩ <;> linarith

/-! ## What is written -/

/-- **What is written of an interval**: a plain decimal numeral, for the shortest decimal of
the sum. -/
theorem decimal?_inSeconds (i : Interval) :
    ∃ q m, Numeral.decimal? i.inSeconds.toList = some q ∧ i.RoundsTwice m ∧ IsShortest m q ∧
      HasDigits 17 q := by
  obtain ⟨hrounds, hfinite, hsign⟩ := i.sum_spec
  obtain ⟨q, hq, hshortest, hdigits⟩ :=
    Binary64.decimal?_text hsign (Nat.zero_lt_of_lt hrounds.near.1) hfinite
  exact ⟨q, _, hq, hrounds, hshortest, hdigits⟩

/-- **It is close to the interval.** -/
theorem RoundsTwice.abs_sub_lt (h : i.RoundsTwice m) (hq : IsShortest m q) :
    |q - i.seconds| < i.seconds / 2 ^ 51 := by
  obtain ⟨hnormal, hsum⟩ := h.near
  obtain ⟨hlow, hhigh⟩ := abs_le.1 hsum
  obtain ⟨hlow', hhigh'⟩ := abs_le.1 (hq.1.abs_sub_le hnormal)
  have hpos := i.le_seconds
  rw [abs_lt]
  constructor <;> linarith

/-- **Up to fifteen digits it is the interval** just if rounding twice gives what rounding
once gives. -/
theorem RoundsTwice.eq_seconds_iff (h : i.RoundsTwice m) (hq : IsShortest m q)
    (hdigits : HasDigits 15 (i.nanos : ℚ)) : q = i.seconds ↔ IsNearest i.seconds m := by
  refine hq.eq_iff h.near.1 ?_
  have hseconds : i.seconds = i.nanos * 10 ^ (-9 : ℤ) := by
    rw [seconds, div_eq_mul_inv]
    rfl
  rwa [hseconds, Binary64.hasDigits_mul_iff]

/-- **Whole seconds and what is less than one** are rounded once. -/
theorem RoundsTwice.isNearest_seconds (h : i.RoundsTwice m)
    (hi : i.nanos % 1000000000 = 0 ∨ i.nanos < 1000000000) : IsNearest i.seconds m := by
  obtain ⟨rest, hrest, hsum⟩ := h
  rw [seconds_eq]
  rcases hi with hwhole | hless
  · rw [hwhole, Nat.cast_zero, zero_div] at hrest ⊢
    rwa [Binary64.isNearest_zero_iff.1 hrest, Binary64.value_zero] at hsum
  · rw [Nat.div_eq_of_lt hless, Nat.cast_zero, zero_add] at hsum ⊢
    rwa [hsum.unique (Binary64.isNearest_value rest)]

/-- They have fifteen digits at most. -/
theorem hasDigits_nanos (hi : i.nanos % 1000000000 = 0 ∨ i.nanos < 1000000000) :
    HasDigits 15 (i.nanos : ℚ) := by
  have hsize : i.nanos < 2 ^ 64 := i.nanos_lt
  rcases hi with hwhole | hless
  · refine ⟨i.nanos / 1000000000, 9, by omega, ?_⟩
    have hsplit : i.nanos = i.nanos / 1000000000 * 10 ^ 9 := by omega
    exact_mod_cast hsplit
  · exact ⟨i.nanos, 0, by omega, by rw [zpow_zero, mul_one]⟩

end Interval

end WindowQuery
