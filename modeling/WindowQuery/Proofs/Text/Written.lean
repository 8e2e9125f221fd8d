import WindowQuery.Instant.Text
import WindowQuery.Interval

/-!
# The characters of written values

Numbers and instants are written with digits and a few signs. Whoever puts
them into another text can rely on their holding nothing that the other
text gives a meaning to.
-/

namespace WindowQuery

namespace Numeral

theorem isDigit_of_mem_digits {n : Nat} {c : Char} (h : c ∈ digits n) : c.isDigit = true :=
  Nat.isDigit_of_mem_toDigits (by decide) (by decide) h

theorem isDigit_of_mem_padded {width n : Nat} {c : Char} (h : c ∈ padded width n) :
    c.isDigit = true := by
  rcases List.mem_append.1 h with h | h
  · obtain ⟨-, rfl⟩ := List.mem_replicate.1 h
    decide
  · exact isDigit_of_mem_digits h

theorem mem_intText {n : Int} {c : Char} (h : c ∈ (intText n).toList) :
    c.isDigit = true ∨ c = '-' := by
  unfold intText at h
  split at h
  · rw [String.toList_ofList] at h
    exact Or.inl (isDigit_of_mem_digits h)
  · rw [String.toList_ofList] at h
    rcases List.mem_cons.1 h with h | h
    · exact Or.inr h
    · exact Or.inl (isDigit_of_mem_digits h)

/-! Whole numbers are read back from their texts. -/

theorem nat?_of_digits {cs : List Char} (hne : cs ≠ []) (h : ∀ c ∈ cs, c.isDigit = true) :
    nat? cs = some (value cs) :=
  if_pos ⟨hne, List.all_eq_true.2 h⟩

theorem nat?_digits (n : Nat) : nat? (digits n) = some n := by
  have hne : digits n ≠ [] := Nat.toDigits_ne_nil
  rw [nat?_of_digits hne fun _ => isDigit_of_mem_digits, value_digits]

/-- **A whole number is read back from its text.** -/
theorem int?_intText (n : Int) : int? (intText n).toList = some n := by
  cases n with
  | ofNat k =>
    have hne : digits k ≠ [] := Nat.toDigits_ne_nil
    obtain ⟨c, cs, hcs⟩ := List.exists_cons_of_ne_nil hne
    have hdigit : c.isDigit = true := isDigit_of_mem_digits (n := k) (hcs ▸ List.mem_cons_self)
    have hread := nat?_digits k
    rw [intText, String.toList_ofList]
    unfold int?
    split
    · next heq => exact absurd ((List.cons.inj (hcs.symm.trans heq)).1 ▸ hdigit) (by decide)
    · next heq => exact absurd ((List.cons.inj (hcs.symm.trans heq)).1 ▸ hdigit) (by decide)
    · rw [hread, Option.map_some]
  | negSucc k =>
    rw [intText, String.toList_ofList]
    rw [int?, nat?_digits]
    rfl

theorem word?_toInt (n : Int64) : word? n.toInt = some n := by
  have hbounds : Int64.minValue.toInt ≤ n.toInt ∧ n.toInt ≤ Int64.maxValue.toInt := by
    have hlow := n.le_toInt
    have hhigh := n.toInt_lt
    have hmin : Int64.minValue.toInt = -2 ^ 63 := by decide
    have hmax : Int64.maxValue.toInt = 2 ^ 63 - 1 := by decide
    omega
  rw [word?, if_pos hbounds, Int64.ofInt_toInt]

/-- **A signed word is read back from its text.** -/
theorem int64?_intText (n : Int64) : int64? (intText n.toInt).toList = some n := by
  rw [int64?, int?_intText, Option.bind_some, word?_toInt]

end Numeral

namespace Instant

/-- **An instant is written with digits and six signs.** No blank is among them,
so that trimming leaves such a text as it is. -/
theorem mem_chars {t : Instant} {c : Char} (h : c ∈ t.chars) :
    c.isDigit = true ∨ c ∈ ['+', '-', 'T', ':', '.', 'Z'] := by
  have hyear : ∀ {y : Int}, c ∈ yearText y → c.isDigit = true ∨ c = '+' ∨ c = '-' := by
    intro y hy
    unfold yearText at hy
    split at hy
    · exact Or.inl (Numeral.isDigit_of_mem_padded hy)
    · rcases List.mem_cons.1 hy with rfl | hy
      · right
        split
        · exact Or.inr rfl
        · exact Or.inl rfl
      · exact Or.inl (Numeral.isDigit_of_mem_padded hy)
  have hfraction : ∀ {n : Nat}, c ∈ trimmedFraction n → c.isDigit = true ∨ c = '.' := by
    intro n hn
    unfold trimmedFraction at hn
    split at hn
    · cases hn
    · rcases List.mem_cons.1 hn with hn | hn
      · exact Or.inr hn
      · have hmem := (List.dropWhile_suffix (· == '0')).subset (List.mem_reverse.1 hn)
        exact Or.inl (Numeral.isDigit_of_mem_padded (List.mem_reverse.1 hmem))
  -- what stands between the fields is one of the six signs
  unfold chars baseText at h
  simp only [List.mem_append, List.mem_cons, List.not_mem_nil, or_false] at h ⊢
  have hpadded : ∀ {width n : Nat}, c ∈ Numeral.padded width n → c.isDigit = true :=
    Numeral.isDigit_of_mem_padded
  grind

end Instant

namespace Binary64

theorem isDigit_of_mem_shortest {tie : Tie} {magnitude : Nat} {c : Char}
    (h : c ∈ (shortest tie magnitude).digits) : c.isDigit = true := by
  have hzero : c ∈ ['0'] → c.isDigit = true := fun h => List.mem_singleton.1 h ▸ by decide
  unfold shortest at h
  split at h
  · exact hzero h
  · dsimp only at h
    split at h
    · have hmem := (List.dropWhile_suffix (· == '0')).subset (List.mem_reverse.1 h)
      exact Nat.isDigit_of_mem_toDigits (by decide) (by decide) (List.mem_reverse.1 hmem)
    · exact hzero h

/-- Positional notation has digits and a point. -/
theorem mem_positionalText {marksWhole : Bool} {d : Digits} {c : Char}
    (hd : ∀ c ∈ d.digits, c.isDigit = true) (h : c ∈ positionalText marksWhole d) :
    c.isDigit = true ∨ c = '.' := by
  have hzeros : ∀ {n : Nat}, c ∈ List.replicate n '0' → c.isDigit = true := fun h => by
    obtain ⟨-, rfl⟩ := List.mem_replicate.1 h
    decide
  -- the zeros that fill up are digits, and nothing else is added but the point
  unfold positionalText at h
  split at h
  · rcases List.mem_append.1 h with h | h
    · rcases List.mem_cons.1 h with rfl | h
      · exact Or.inl (by decide)
      · rcases List.mem_cons.1 h with h | h
        · exact Or.inr h
        · exact Or.inl (hzeros h)
    · exact Or.inl (hd c h)
  · split at h
    · rcases List.mem_append.1 h with h | h
      · rcases List.mem_append.1 h with h | h
        · exact Or.inl (hd c h)
        · exact Or.inl (hzeros h)
      · split at h
        · rcases List.mem_cons.1 h with h | h
          · exact Or.inr h
          · exact Or.inl (List.mem_singleton.1 h ▸ by decide)
        · cases h
    · rcases List.mem_append.1 h with h | h
      · exact Or.inl (hd c (List.mem_of_mem_take h))
      · rcases List.mem_cons.1 h with h | h
        · exact Or.inr h
        · exact Or.inl (hd c (List.mem_of_mem_drop h))

/-- **A number in plain text** is written with digits, a sign and a point, or is
one of three names. -/
theorem mem_text {x : Binary64} {c : Char} (h : c ∈ x.text.toList) :
    c.isDigit = true ∨ c ∈ ['-', '.', 'N', 'a', 'i', 'n', 'f'] := by
  -- Each of the three names has only letters of the list.
  have hname : ∀ {name : List Char}, c ∈ name →
      (name.all (['-', '.', 'N', 'a', 'i', 'n', 'f'].contains ·)) = true →
      c ∈ ['-', '.', 'N', 'a', 'i', 'n', 'f'] := fun hc hall =>
    List.contains_iff_mem.1 (List.all_eq_true.1 hall c hc)
  unfold text at h
  split at h
  · exact Or.inr (hname h (by decide +kernel))
  · split at h
    · rw [String.toList_ofList] at h
      rcases List.mem_append.1 h with h | h
      · split at h
        · rw [List.mem_singleton.1 h]
          exact Or.inr (by decide)
        · cases h
      · rcases mem_positionalText (fun c hc => isDigit_of_mem_shortest hc) h with h | rfl
        · exact Or.inl h
        · exact Or.inr (by decide)
    · right
      split at h
      · exact hname h (by decide +kernel)
      · exact hname h (by decide +kernel)

end Binary64

end WindowQuery
