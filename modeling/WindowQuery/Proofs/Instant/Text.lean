import WindowQuery.Instant.Reader
import WindowQuery.Proofs.Instant.Reading
import WindowQuery.Proofs.Text.Reader

/-!
# Texts of instants, read back

A text is read field by field, and each field has a law that says what its
reader makes of it and that it hands on the rest. Most of them are numbers of a
fixed width. Two are not. The year has as many digits as it needs and a sign if
those are not four (`run_year`), and only the notation of documents knows the
sign; so that one reads every text there is (`readRelaxed?_chars`), and the
strict one those of ten thousand years (`readStrict?_chars`). The fraction has
lost the zeros at its end, all of them or in groups of three, and its reader has
to put as many back as are missing from nine digits (`run_fraction`,
`run_groupedFraction`).
-/

namespace WindowQuery

namespace Instant

open Text (EndsRun)
open Text.Reader

/-! ## Fractions -/

/-- **A fraction without its last zeros** has a digit, no more than nine of them,
and stands for the same number of nanoseconds. -/
theorem exists_trimmedFraction {nanos : Nat} (hne : nanos ≠ 0) (hlt : nanos < nanosPerSecond) :
    ∃ digits, trimmedFraction nanos = '.' :: digits ∧ digits ≠ [] ∧ digits.length ≤ 9 ∧
      (∀ c ∈ digits, c.isDigit = true) ∧
      Numeral.value digits * 10 ^ (9 - digits.length) = nanos := by
  obtain ⟨k, hk⟩ := Numeral.exists_trailingZeros (Numeral.padded 9 nanos)
  have hlength := congrArg List.length hk
  rw [Numeral.length_padded (by decide) hlt, List.length_append, List.length_replicate] at hlength
  have hvalue := congrArg Numeral.value hk
  rw [Numeral.value_padded, Numeral.value_append, Numeral.value_replicate_zero,
    List.length_replicate, Nat.add_zero] at hvalue
  refine ⟨((Numeral.padded 9 nanos).reverse.dropWhile (· == '0')).reverse, if_neg hne,
    fun hnil => ?_, by omega, fun c hc => ?_, ?_⟩
  · rw [hnil] at hvalue
    exact hne (hvalue.trans (Nat.zero_mul _))
  · have hmem : c ∈ Numeral.padded 9 nanos := by
      rw [hk]
      exact List.mem_append_left _ hc
    exact Numeral.isDigit_of_mem_padded hmem
  · rw [show 9 - _ = k from by omega]
    exact hvalue.symm

theorem run_fraction_cons {digits rest : List Char} (hne : digits ≠ [])
    (hdigits : ∀ c ∈ digits, c.isDigit = true) (hends : EndsRun Char.isDigit rest) :
    fraction.run ('.' :: (digits ++ rest))
      = some (Numeral.value (digits.take 9) * 10 ^ (9 - (digits.take 9).length), rest) := by
  have htaken := Text.takeWhile_run_append hdigits hends
  have hleft := Text.dropWhile_run_append hdigits hends
  simp only [fraction, StateT.run_bind, StateT.run_get, Option.pure_def, Option.bind_eq_bind,
    Option.bind_some, htaken, hleft]
  rw [if_neg (fun h => hne (List.isEmpty_iff.1 h))]
  rfl

/-- **A fraction is read as it is written**, whether there is one or not. -/
theorem run_fraction {nanos : Nat} (h : nanos < nanosPerSecond) (rest : List Char) :
    fraction.run (trimmedFraction nanos ++ 'Z' :: rest) = some (nanos, 'Z' :: rest) := by
  by_cases hne : nanos = 0
  · subst hne
    rfl
  · obtain ⟨digits, htext, hdigit, hnine, hdigits, hvalue⟩ := exists_trimmedFraction hne h
    rw [htext, List.cons_append, run_fraction_cons hdigit hdigits (Text.endsRun_cons.2 (by decide)),
      List.take_of_length_le hnine, hvalue]

/-- **So is a fraction in groups of three digits**, which may end with zeros. -/
theorem run_groupedFraction {nanos : Nat} (h : nanos < nanosPerSecond) (rest : List Char) :
    fraction.run (groupedFraction nanos ++ 'Z' :: rest) = some (nanos, 'Z' :: rest) := by
  have hends : EndsRun Char.isDigit ('Z' :: rest) := Text.endsRun_cons.2 (by decide)
  have hgroups : ∀ {width n : Nat}, 0 < width → width ≤ 9 → n < 10 ^ width →
      n * 10 ^ (9 - width) = nanos →
      fraction.run ('.' :: Numeral.padded width n ++ 'Z' :: rest) = some (nanos, 'Z' :: rest) :=
    fun {width n} hpos hnine hn hvalue => by
      have hlength : (Numeral.padded width n).length = width := Numeral.length_padded hpos hn
      rw [List.cons_append, run_fraction_cons (Numeral.padded_ne_nil width n)
        (fun _ => Numeral.isDigit_of_mem_padded) hends,
        List.take_of_length_le (hlength.trans_le hnine), Numeral.value_padded, hlength, hvalue]
  unfold nanosPerSecond at h
  unfold groupedFraction
  split
  · next hzero =>
    rw [hzero]
    rfl
  · split
    · exact hgroups (by decide) (by decide) (by omega) (by omega)
    · split
      · exact hgroups (by decide) (by decide) (by omega) (by omega)
      · exact hgroups (by decide) (by decide) h (by omega)

/-! ## Other fields -/

/-- A field of two digits is read where one would do as well. -/
theorem run_short {n : Nat} (h : n < 10 ^ 2) (rest : List Char) :
    short.run (Numeral.padded 2 n ++ rest) = some (n, rest) := by
  have hlength := Numeral.length_padded (by decide) h
  have hdigits : (digits 1 2).run (Numeral.padded 2 n ++ rest) = some (Numeral.padded 2 n, rest) :=
    run_digits (fun _ => Numeral.isDigit_of_mem_padded) (hlength.symm ▸ Nat.le_succ 1) hlength.le
      (.inl hlength)
  simp [short, run_blanks_padded, hdigits]

section

variable {ds rest : List Char} (hne : ds ≠ []) (hdigits : ∀ c ∈ ds, c.isDigit = true)

include hne hdigits

/-- **A year without a sign** has four digits, or fewer and no more of them after it. -/
theorem run_year_plain (hfour : ds.length ≤ 4)
    (hends : ds.length = 4 ∨ EndsRun Char.isDigit rest) :
    year.run (ds ++ rest) = some ((Numeral.value ds : Int), rest) := by
  have htaken : (digits 1 4).run (ds ++ rest) = some (ds, rest) :=
    run_digits hdigits (List.length_pos_iff.2 hne) hfour hends
  obtain ⟨c, cs, rfl⟩ := List.exists_cons_of_ne_nil hne
  have hdigit : c.isDigit = true := hdigits c List.mem_cons_self
  rw [List.cons_append] at htaken ⊢
  rw [year, run_bind_of_eq (run_blanks_cons (isBlank_of_isDigit hdigit) _)]
  simp only [StateT.run_bind, StateT.run_get, Option.pure_def, Option.bind_eq_bind,
    Option.bind_some]
  -- a digit is neither of the signs
  split
  · next heq => exact absurd ((List.cons.inj heq).1 ▸ hdigit) (by decide)
  · next heq => exact absurd ((List.cons.inj heq).1 ▸ hdigit) (by decide)
  · rw [run_bind_of_eq htaken]
    rfl

variable (hends : EndsRun Char.isDigit rest)

include hends

theorem run_digits_signed : (digits 1 (ds ++ rest).length).run (ds ++ rest) = some (ds, rest) :=
  run_digits hdigits (List.length_pos_iff.2 hne) (List.prefix_append _ _).length_le (.inr hends)

theorem run_year_minus :
    year.run ('-' :: (ds ++ rest)) = some (-(Numeral.value ds : Int), rest) := by
  have hblank : Text.isBlank '-' = false := by decide
  rw [year, run_bind_of_eq (run_blanks_cons hblank _)]
  simp only [StateT.run_bind, StateT.run_get, StateT.run_set, StateT.run_pure, Option.pure_def,
    Option.bind_eq_bind, Option.bind_some, run_digits_signed hne hdigits hends]

theorem run_year_plus :
    year.run ('+' :: (ds ++ rest)) = some ((Numeral.value ds : Int), rest) := by
  have hblank : Text.isBlank '+' = false := by decide
  rw [year, run_bind_of_eq (run_blanks_cons hblank _)]
  simp only [StateT.run_bind, StateT.run_get, StateT.run_set, StateT.run_pure, Option.pure_def,
    Option.bind_eq_bind, Option.bind_some, run_digits_signed hne hdigits hends]

end

/-- **A year is read as it is written**, with a sign or without. -/
theorem run_year {rest : List Char} (hends : EndsRun Char.isDigit rest) (y : Int) :
    year.run (yearText y ++ rest) = some (y, rest) := by
  have hne : ∀ n : Nat, Numeral.padded 4 n ≠ [] := Numeral.padded_ne_nil 4
  have hdigits : ∀ n : Nat, ∀ c ∈ Numeral.padded 4 n, c.isDigit = true := fun _ _ =>
    Numeral.isDigit_of_mem_padded
  unfold yearText
  split
  · next hplain =>
    have hlength : (Numeral.padded 4 y.toNat).length = 4 :=
      Numeral.length_padded (by decide) (by omega)
    rw [run_year_plain (hne _) (hdigits _) hlength.le (.inl hlength), Numeral.value_padded,
      Int.toNat_of_nonneg hplain.1]
  · split
    · next hnegative =>
      rw [List.cons_append, run_year_minus (hne _) (hdigits _) hends, Numeral.value_padded,
        Int.ofNat_natAbs_of_nonpos hnegative.le, Int.neg_neg]
    · next hpositive =>
      rw [List.cons_append, run_year_plus (hne _) (hdigits _) hends, Numeral.value_padded,
        Int.natAbs_of_nonneg (Int.not_lt.1 hpositive)]

theorem run_offset (between : Text.Reader Unit) (rest : List Char) :
    (offset between).run ('Z' :: rest) = some (0, rest) := by
  simp [offset, run_charWhere_cons]

/-- In the notation of documents too, where it could be `UTC` as well. -/
theorem run_universal_orElse (between : Text.Reader Unit) (rest : List Char) :
    (universal <|> offset between).run ('Z' :: rest) = some (0, rest) := by
  have hother : universal.run ('Z' :: rest) = none := by simp [universal, run_charWhere_of_not]
  rw [run_orElse_of_none hother, run_offset]

theorem run_separator (rest : List Char) : separator.run ('T' :: rest) = some ((), rest) := by
  simp [separator, run_charWhere_cons]

/-! ## Whole texts -/

variable (t : Instant)

/-- The text of the time of day, which follows that of the date. -/
def timeChars : List Char :=
  'T' :: (Numeral.padded 2 t.reading.hour ++ ':' :: (Numeral.padded 2 t.reading.minute ++ ':' ::
    (Numeral.padded 2 t.reading.second ++ (trimmedFraction t.reading.nanos ++ 'Z' :: []))))

/-- **The text of an instant, field by field.** -/
theorem chars_eq : t.chars = yearText t.reading.date.year ++ '-' ::
    (Numeral.padded 2 t.reading.date.month ++ '-' ::
      (Numeral.padded 2 t.reading.date.day ++ t.timeChars)) := by
  simp only [chars, baseText, timeChars, List.append_assoc, List.cons_append]

theorem fields_lt : t.reading.date.month < 10 ^ 2 ∧ t.reading.date.day < 10 ^ 2 ∧
    t.reading.hour < 10 ^ 2 ∧ t.reading.minute < 10 ^ 2 ∧ t.reading.second < 10 ^ 2 ∧
    t.reading.nanos < nanosPerSecond := by
  obtain ⟨⟨-, hmonth, -, hday⟩, -, -, hhour, hminute, hsecond, hnanos⟩ := t.valid_reading
  have hlength : Date.monthLength t.reading.date.year t.reading.date.month ≤ 31 := by
    unfold Date.monthLength
    split
    · split <;> decide
    · split <;> decide
  exact ⟨by omega, by omega, by omega, by omega, by omega, hnanos⟩

/-- **A text with a year of four digits is read in the strict notation.** -/
theorem readStrict?_chars (h0 : 0 ≤ t.reading.date.year) (h1 : t.reading.date.year ≤ 9999) :
    readStrict? t.chars = some t := by
  obtain ⟨hmonth, hday, hhour, hminute, hsecond, hnanos⟩ := t.fields_lt
  have hyear : t.reading.date.year.toNat < 10 ^ 4 := by omega
  have hrun : strict.run t.chars = some ((t.reading, 0), []) := by
    rw [chars_eq, yearText, if_pos ⟨h0, h1⟩, strict, run_bind_of_eq (run_fixed (by decide) hyear _),
      run_bind_of_eq (run_char_cons _ _), run_bind_of_eq (run_fixed (by decide) hmonth _),
      run_bind_of_eq (run_char_cons _ _), run_bind_of_eq (run_fixed (by decide) hday _),
      timeChars, run_bind_of_eq (run_separator _), run_bind_of_eq (run_fixed (by decide) hhour _),
      run_bind_of_eq (run_char_cons _ _), run_bind_of_eq (run_fixed (by decide) hminute _),
      run_bind_of_eq (run_char_cons _ _), run_bind_of_eq (run_fixed (by decide) hsecond _),
      run_bind_of_eq (run_fraction hnanos _), run_bind_of_eq (run_offset _ _),
      Int.toNat_of_nonneg h0]
    rfl
  rw [readStrict?, run?_of_run hrun]
  exact t.ofReading?_reading

/-- **In the notation of documents any text is read**, with whatever fraction
that is read as the nanoseconds. -/
theorem run_relaxed {fractionText : List Char}
    (hfraction : fraction.run (fractionText ++ ['Z']) = some (t.reading.nanos, ['Z'])) :
    relaxed.run (baseText t.reading ++ fractionText ++ ['Z']) = some ((t.reading, 0), []) := by
  obtain ⟨hmonth, hday, hhour, hminute, hsecond, -⟩ := t.fields_lt
  have hblank : Text.isBlank '-' = false ∧ Text.isBlank ':' = false ∧ Text.isBlank 'Z' = false := by
    decide
  have hends : ∀ rest, EndsRun Char.isDigit ('-' :: rest) := fun _ =>
    Text.endsRun_cons.2 (by decide)
  have hdate : ∀ rest, looseDate.run (yearText t.reading.date.year ++ '-' ::
      (Numeral.padded 2 t.reading.date.month ++ '-' ::
        (Numeral.padded 2 t.reading.date.day ++ rest))) = some (t.reading.date, rest) := by
    intro rest
    rw [looseDate, run_bind_of_eq (run_year (hends _) _),
      run_bind_of_eq (run_blanks_cons hblank.1 _), run_bind_of_eq (run_char_cons _ _),
      run_bind_of_eq (run_short hmonth _), run_bind_of_eq (run_blanks_cons hblank.1 _),
      run_bind_of_eq (run_char_cons _ _), run_bind_of_eq (run_short hday _)]
    rfl
  -- what remains is to take the fields one after the other
  simp only [baseText, List.append_assoc, List.cons_append]
  rw [relaxed, run_bind_of_eq (hdate _), run_bind_of_eq (run_separator _),
    run_bind_of_eq (run_short hhour _), run_bind_of_eq (run_blanks_cons hblank.2.1 _),
    run_bind_of_eq (run_char_cons _ _), run_bind_of_eq (run_short hminute _),
    run_bind_of_eq (run_blanks_cons hblank.2.1 _), run_bind_of_eq (run_char_cons _ _),
    run_bind_of_eq (run_short hsecond _), run_bind_of_eq hfraction,
    run_bind_of_eq (run_blanks_cons hblank.2.2 _), run_bind_of_eq (run_universal_orElse _ _),
    run_bind_of_eq run_blanks_nil]
  rfl

/-- **Any text is read in the notation of documents.** -/
theorem readRelaxed?_chars : readRelaxed? t.chars = some t := by
  obtain ⟨-, -, -, -, -, hnanos⟩ := t.fields_lt
  have hrun : relaxed.run t.chars = some ((t.reading, 0), []) :=
    t.run_relaxed (run_fraction hnanos [])
  rw [readRelaxed?, run?_of_run hrun]
  exact t.ofReading?_reading

/-- So is the text that an instant has in documents. -/
theorem readRelaxed?_documentChars : readRelaxed? t.documentChars = some t := by
  obtain ⟨-, -, -, -, -, hnanos⟩ := t.fields_lt
  have hrun : relaxed.run t.documentChars = some ((t.reading, 0), []) :=
    t.run_relaxed (run_groupedFraction hnanos [])
  rw [readRelaxed?, run?_of_run hrun]
  exact t.ofReading?_reading

end Instant

end WindowQuery
