import WindowQuery.Instant.Basic

/-!
# The order of instants

Earlier is a strict linear order: the second counts first and the
nanosecond after it, and two instants with the same numbers are the same
instant.
-/

namespace WindowQuery

namespace Instant

theorem lt_def {a b : Instant} :
    a < b ↔ a.seconds < b.seconds ∨ a.seconds = b.seconds ∧ a.nanos < b.nanos := Iff.rfl

theorem ext {a b : Instant} (hs : a.seconds = b.seconds) (hn : a.nanos = b.nanos) : a = b := by
  cases a
  cases b
  cases hs
  cases hn
  rfl

/-- **Numbers make the instant that has them**, if they make any. -/
theorem mk?_eq_some_iff {t : Instant} {seconds : Int} {nanos : Nat} :
    mk? seconds nanos = some t ↔ t.seconds = seconds ∧ t.nanos = nanos := by
  unfold mk?
  split
  · rw [Option.some_inj]
    constructor
    · rintro rfl
      exact ⟨rfl, rfl⟩
    · rintro ⟨rfl, rfl⟩
      rfl
  · next hnot =>
    refine iff_of_false (fun h => by cases h) ?_
    rintro ⟨rfl, rfl⟩
    exact hnot t.valid

theorem mk?_eq_none_iff {seconds : Int} {nanos : Nat} :
    mk? seconds nanos = none ↔ ¬Valid seconds nanos := by
  unfold mk?
  split
  · next h => exact iff_of_false (Option.some_ne_none _) (fun hnot => hnot h)
  · next h => exact iff_of_true rfl h

theorem lt_irrefl (a : Instant) : ¬a < a := by
  rw [lt_def]
  omega

theorem ne_of_lt {a b : Instant} (h : a < b) : a ≠ b := fun he => lt_irrefl b (he ▸ h)

theorem lt_trans {a b c : Instant} (hab : a < b) (hbc : b < c) : a < c := by
  rw [lt_def] at hab hbc ⊢
  omega

/-- **Of two different instants one is earlier.** -/
theorem lt_of_not_lt_of_ne {a b : Instant} (h : ¬b < a) (hne : b ≠ a) : a < b := by
  rw [lt_def] at h ⊢
  by_cases hs : a.seconds = b.seconds
  · have hn : a.nanos ≠ b.nanos := fun hn => hne (ext hs.symm hn.symm)
    omega
  · omega

end Instant

end WindowQuery
