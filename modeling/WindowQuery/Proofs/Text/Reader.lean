import WindowQuery.Proofs.Text.Numeral
import WindowQuery.Proofs.Text.Run
import WindowQuery.Proofs.Text.Written
import WindowQuery.Text.Reader

/-!
# What readers take

Each law says what a reader makes of a text whose front is known, and that it
hands on the rest. A reader of several things then goes through a text that is
put together from them, one law after the other. Where a run is taken the rest
must not go on with it.
-/

namespace WindowQuery.Text.Reader

/-- **One reader after another** goes on with the rest. -/
theorem run_bind_of_eq {α β : Type} {r : Reader α} {cs rest : List Char} {a : α}
    (h : r.run cs = some (a, rest)) (f : α → Reader β) : (r >>= f).run cs = (f a).run rest := by
  rw [StateT.run_bind, h]
  rfl

theorem run?_of_run {α : Type} {r : Reader α} {cs : List Char} {a : α}
    (h : r.run cs = some (a, [])) : r.run? cs = some a := by
  rw [run?, h]
  rfl

theorem run_orElse_of_none {α : Type} {r : Reader α} {cs : List Char} (h : r.run cs = none)
    (s : Reader α) : (r <|> s).run cs = s.run cs := by
  show (r.run cs).orElse (fun _ => s.run cs) = s.run cs
  rw [h]
  rfl

/-! ## Characters -/

theorem run_charWhere_cons {p : Char → Bool} {c : Char} (h : p c = true) (rest : List Char) :
    (charWhere p).run (c :: rest) = some (c, rest) :=
  if_pos h

theorem run_charWhere_of_not {p : Char → Bool} {c : Char} (h : p c = false) (rest : List Char) :
    (charWhere p).run (c :: rest) = none :=
  if_neg (Bool.eq_false_iff.1 h)

@[simp] theorem run_char_cons (c : Char) (rest : List Char) :
    (char c).run (c :: rest) = some ((), rest) := by
  simp [char, run_charWhere_cons]

theorem run_blanks {cs : List Char} (h : EndsRun isBlank cs) : blanks.run cs = some ((), cs) := by
  show some ((), cs.dropWhile isBlank) = some ((), cs)
  rw [dropWhile_eq_self_iff.2 h]

theorem run_blanks_nil : blanks.run [] = some ((), []) := rfl

theorem run_blanks_cons {c : Char} (h : isBlank c = false) (rest : List Char) :
    blanks.run (c :: rest) = some ((), c :: rest) :=
  run_blanks (endsRun_cons.2 h)

/-! ## Digits -/

theorem isBlank_of_isDigit {c : Char} (h : c.isDigit = true) : isBlank c = false := by
  have hlow : 48 ≤ c.toNat := (decide_eq_true_iff.1 (Bool.and_eq_true_iff.1 h).1)
  have hhigh : c.toNat ≤ 57 := (decide_eq_true_iff.1 (Bool.and_eq_true_iff.1 h).2)
  simp only [isBlank, Bool.or_eq_false_iff, Bool.and_eq_false_iff, decide_eq_false_iff_not,
    beq_eq_false_iff_ne]
  omega

/-- **A run of digits is taken as a whole** if it is not too short, and either as
long as is allowed or not gone on with. -/
theorem run_digits {least most : Nat} {cs rest : List Char} (hdigits : ∀ c ∈ cs, c.isDigit = true)
    (hleast : least ≤ cs.length) (hmost : cs.length ≤ most)
    (hends : cs.length = most ∨ EndsRun Char.isDigit rest) :
    (digits least most).run (cs ++ rest) = some (cs, rest) := by
  have htaken : ((cs ++ rest).take most).takeWhile Char.isDigit = cs := by
    rw [List.take_append, List.take_of_length_le hmost]
    refine takeWhile_run_append hdigits ?_
    rcases hends with hfull | hends
    · rw [hfull, Nat.sub_self, List.take_zero]
      exact endsRun_nil
    · intro c hc
      cases rest with
      | nil => cases List.mem_of_mem_head? (List.take_nil ▸ hc)
      | cons r rest =>
        cases hroom : most - cs.length with
        | zero =>
          rw [hroom] at hc
          cases hc
        | succ room =>
          rw [hroom] at hc
          exact hends c hc
  show (if least ≤ (((cs ++ rest).take most).takeWhile Char.isDigit).length then _ else _) = _
  rw [htaken, if_pos hleast, List.drop_left]

/-- **A number of fixed width** is read if it fits. -/
theorem run_fixed {width n : Nat} (hwidth : 0 < width) (h : n < 10 ^ width) (rest : List Char) :
    (fixed width).run (Numeral.padded width n ++ rest) = some (n, rest) := by
  have hlength := Numeral.length_padded hwidth h
  simp [fixed, run_digits (fun _ => Numeral.isDigit_of_mem_padded) hlength.ge hlength.le
    (.inl hlength)]

theorem run_blanks_padded (width n : Nat) (rest : List Char) :
    blanks.run (Numeral.padded width n ++ rest) = some ((), Numeral.padded width n ++ rest) := by
  obtain ⟨c, cs, hpadded⟩ := List.exists_cons_of_ne_nil (Numeral.padded_ne_nil width n)
  have hdigit : c.isDigit = true := Numeral.isDigit_of_mem_padded (hpadded ▸ List.mem_cons_self)
  rw [hpadded]
  exact run_blanks_cons (isBlank_of_isDigit hdigit) (cs ++ rest)

end WindowQuery.Text.Reader
