import WindowQuery.Json.Printer
import WindowQuery.Json.Reader
import WindowQuery.Proofs.Text.Numeral
import WindowQuery.Proofs.Text.Run
import WindowQuery.Proofs.Text.Written

/-!
# Tokens of written documents

Only two kinds of values are written in more than one way or with more than one
ending: texts, whose characters may be escaped, and numbers, which end where
something else begins. A character is read from the escape that it is written
with (`textBody?_escape`), and none is half of a surrogate pair, so a text is one
token with the same text in it (`token?_quoted`). A whole number is read up to
what no number goes on with (`EndsNumber`), and it keeps its sign and its value if
it fits 64 bits (`token?_integerText`).
-/

namespace WindowQuery

namespace Json

/-! ## Texts -/

/-- A short escape is read as the character that it stands for. -/
theorem textBody?_short {e c : Char} (h : unescape? e = some c) (rest : List Char) :
    textBody? ('\\' :: e :: rest) = (textBody? rest).map (fun p => (c.toNat :: p.1, p.2)) := by
  have hu : e ≠ 'u' := by
    rintro rfl
    cases h
  rw [textBody?.eq_def]
  split
  · next heq => cases heq
  · next heq => exact absurd (List.cons.inj (List.cons.inj heq).2).1 hu
  · next e' rest' _ heq =>
    obtain ⟨rfl, rfl⟩ := List.cons.inj (List.cons.inj heq).2
    rw [h, Option.bind_eq_bind, Option.bind_some]
    cases textBody? rest <;> rfl
  · next hshort heq =>
    obtain ⟨hc, hrest⟩ := List.cons.inj heq
    exact (hshort e rest hc.symm hrest.symm).elim
  · next heq => cases heq

/-- The code of a byte needs two of its four digits. -/
theorem hexCode?_digits {n : Nat} (h : n < UInt8.size) :
    hexCode? '0' '0' (Hexadecimal.digit (n / 16)) (Hexadecimal.digit (n % 16)) = some n := by
  have hlt : n < 256 := h
  have hzero : Numeral.hexValue? '0' = some 0 := rfl
  rw [hexCode?, hzero, Hexadecimal.hexValue?_digit (n / 16) (by omega),
    Hexadecimal.hexValue?_digit (n % 16) (by omega)]
  show some (((0 * 16 + 0) * 16 + n / 16) * 16 + n % 16) = some n
  congr 1
  omega

theorem textBody?_coded {a b c d : Char} {n : Nat} (h : hexCode? a b c d = some n)
    (rest : List Char) : textBody? ('\\' :: 'u' :: a :: b :: c :: d :: rest)
      = (textBody? rest).map (fun p => (n :: p.1, p.2)) := by
  rw [textBody?, h, Option.bind_eq_bind, Option.bind_some]
  cases textBody? rest <;> rfl

theorem textBody?_plain {c : Char} (hquote : c ≠ '"') (hescape : c ≠ '\\') (h : 0x20 ≤ c.toNat)
    (rest : List Char) :
    textBody? (c :: rest) = (textBody? rest).map (fun p => (c.toNat :: p.1, p.2)) := by
  rw [textBody?.eq_def]
  split
  · next heq => exact absurd (List.cons.inj heq).1 hquote
  · next heq => exact absurd (List.cons.inj heq).1 hescape
  · next heq => exact absurd (List.cons.inj heq).1 hescape
  · next c' rest' _ _ _ heq =>
    obtain ⟨rfl, rfl⟩ := List.cons.inj heq
    rw [if_neg (Nat.not_lt.2 h)]
    cases textBody? rest <;> rfl
  · next heq => cases heq

/-- **A character is read from its escape**, be that the character itself, a short
escape or four digits, with anything after it. -/
theorem textBody?_escape (c : Char) (rest : List Char) :
    textBody? (escape c ++ rest) = (textBody? rest).map (fun p => (c.toNat :: p.1, p.2)) := by
  unfold escape
  split_ifs with hquote hescape hn hr ht hb hf hcontrol
  · subst hquote
    exact textBody?_short rfl rest
  · subst hescape
    exact textBody?_short rfl rest
  · subst hn
    exact textBody?_short rfl rest
  · subst hr
    exact textBody?_short rfl rest
  · subst ht
    exact textBody?_short rfl rest
  · subst hb
    exact textBody?_short rfl rest
  · subst hf
    exact textBody?_short rfl rest
  · have hsmall : c.toNat < UInt8.size := Nat.lt_trans hcontrol (by decide)
    have hbyte : c.toNat.toUInt8.toNat = c.toNat := UInt8.toNat_ofNat_of_lt' hsmall
    rw [Hexadecimal.chars, List.flatMap_singleton, hbyte]
    exact textBody?_coded (hexCode?_digits hsmall) rest
  · exact textBody?_plain hquote hescape (Nat.not_lt.1 hcontrol) rest

/-- **A text is read from its characters in quotes.** -/
theorem textBody?_flatMap (cs rest : List Char) :
    textBody? (cs.flatMap escape ++ '"' :: rest) = some (cs.map Char.toNat, rest) := by
  induction cs with
  | nil => rfl
  | cons c cs ih =>
    rw [List.flatMap_cons, List.append_assoc, textBody?_escape, ih]
    rfl

/-- No character is half of a pair. -/
theorem joinPairs?_toNat (cs : List Char) : joinPairs? (cs.map Char.toNat) = some cs := by
  induction cs with
  | nil => rfl
  | cons c cs ih =>
    have hvalid : c.toNat < 0xD800 ∨ (0xDFFF < c.toNat ∧ c.toNat < 0x110000) := c.valid
    have hhigh : isHighSurrogate c.toNat = false := by
      rw [isHighSurrogate, Bool.and_eq_false_iff, decide_eq_false_iff_not, decide_eq_false_iff_not]
      omega
    have hlow : isLowSurrogate c.toNat = false := by
      rw [isLowSurrogate, Bool.and_eq_false_iff, decide_eq_false_iff_not, decide_eq_false_iff_not]
      omega
    rw [List.map_cons, joinPairs?.eq_def]
    dsimp only
    rw [if_neg (Bool.eq_false_iff.1 hhigh), if_neg (Bool.eq_false_iff.1 hlow), ih,
      Char.ofNat_toNat]
    rfl

/-- **A quoted text is one token.** -/
theorem token?_quoted (s : String) (rest : List Char) :
    token? (quoted s ++ rest) = some (.text (some s), rest) := by
  rw [quoted, List.cons_append, List.append_assoc, List.singleton_append, token?, textBody?_flatMap,
    Option.map_some]
  dsimp only
  rw [joinPairs?_toNat, Option.map_some, String.ofList_toList]

/-! ## Whole numbers -/

theorem exists_digits_eq_cons (n : Nat) :
    ∃ c cs, Numeral.digits n = c :: cs ∧ c.isDigit = true := by
  have hne : Numeral.digits n ≠ [] := Nat.toDigits_ne_nil
  obtain ⟨c, cs, hcs⟩ := List.exists_cons_of_ne_nil hne
  exact ⟨c, cs, hcs, Numeral.isDigit_of_mem_digits (hcs ▸ List.mem_cons_self)⟩

/-- The digits of a number are all taken, where no more of them follow. -/
theorem wholeDigits_digits (n : Nat) {rest : List Char} (hends : Text.EndsRun Char.isDigit rest) :
    wholeDigits (Numeral.digits n ++ rest) = (Numeral.digits n, rest) := by
  have hdigits : ∀ c ∈ Numeral.digits n, c.isDigit = true := fun _ => Numeral.isDigit_of_mem_digits
  unfold wholeDigits
  split
  · next after heq =>
    obtain ⟨c, cs, hcs, -⟩ := exists_digits_eq_cons n
    rw [hcs, List.cons_append] at heq
    obtain ⟨rfl, hafter⟩ := List.cons.inj heq
    obtain rfl := Numeral.eq_nil_of_digits_eq_zero_cons hcs
    rw [hcs, ← hafter]
    rfl
  · rw [Text.takeWhile_run_append hdigits hends, Text.dropWhile_run_append hdigits hends]

/-- **What ends a number**: neither a digit, nor a point, nor an exponent. -/
def EndsNumber (cs : List Char) : Prop :=
  ∀ c ∈ cs.head?, c.isDigit = false ∧ c ≠ '.' ∧ c ≠ 'e' ∧ c ≠ 'E'

/-- A number is read up to there. -/
theorem literal?_digits (n : Nat) (negative : Bool) {rest : List Char} (hends : EndsNumber rest) :
    literal? ((if negative then ['-'] else []) ++ (Numeral.digits n ++ rest))
      = some (⟨negative, Numeral.digits n, [], none⟩, rest) := by
  have hwhole := wholeDigits_digits n (fun c hc => (hends c hc).1)
  -- what follows begins neither a fraction nor an exponent, and digits do not begin with a sign
  have hfraction : fractionPart? rest = some ([], rest) := by
    unfold fractionPart?
    split
    · next after => exact absurd rfl (hends '.' rfl).2.1
    · rfl
  have hexponent : exponentPart? rest = some (none, rest) := by
    unfold exponentPart?
    split
    · rfl
    · next c after =>
      obtain ⟨-, -, he, hE⟩ := hends c rfl
      rw [if_neg (fun h => h.elim he hE)]
  have hsign : minusSign ((if negative then ['-'] else []) ++ (Numeral.digits n ++ rest))
      = (negative, Numeral.digits n ++ rest) := by
    cases negative with
    | true => rfl
    | false =>
      obtain ⟨c, cs, hcs, hdigit⟩ := exists_digits_eq_cons n
      rw [if_neg Bool.false_ne_true, List.nil_append, hcs, List.cons_append]
      unfold minusSign
      split
      · next heq => exact absurd ((List.cons.inj heq).1 ▸ hdigit) (by decide)
      · rfl
  have hne : (Numeral.digits n).isEmpty = false := by
    rw [List.isEmpty_eq_false_iff]
    exact Nat.toDigits_ne_nil
  unfold literal?
  rw [hsign]
  dsimp only
  rw [hwhole]
  dsimp only
  rw [if_neg (Bool.eq_false_iff.1 hne), hfraction, Option.bind_some]
  dsimp only
  rw [hexponent]
  rfl

theorem toJson_digits {n : Nat} (h : n < UInt64.size) :
    Literal.toJson ⟨false, Numeral.digits n, [], none⟩ = .integer n := by
  show (if Numeral.value (Numeral.digits n) < UInt64.size
    then integer (Numeral.value (Numeral.digits n) : Nat) else _) = _
  rw [Numeral.value_digits, if_pos h]

theorem toJson_minus {n : Nat} (hpos : 0 < n) (h : n ≤ Nat.pow 2 63) :
    Literal.toJson ⟨true, Numeral.digits n, [], none⟩ = .integer (-(n : Int)) := by
  show (if 0 < Numeral.value (Numeral.digits n) ∧ Numeral.value (Numeral.digits n) ≤ Nat.pow 2 63
    then integer (-(Numeral.value (Numeral.digits n) : Int)) else _) = _
  rw [Numeral.value_digits, if_pos ⟨hpos, h⟩]

/-- **A whole number of 64 bits is spelled by its text.** It never has a minus sign
before a zero, which would make another number of it. -/
theorem literal?_integerText {n : Int} (hlow : -2 ^ 63 ≤ n) (hhigh : n < 2 ^ 64)
    {rest : List Char} (hends : EndsNumber rest) :
    ∃ l, literal? (integerText n ++ rest) = some (l, rest) ∧ l.toJson = .integer n := by
  cases n with
  | ofNat k =>
    have hk : k < UInt64.size := Int.ofNat_lt.1 hhigh
    refine ⟨_, ?_, toJson_digits hk⟩
    rw [integerText, Numeral.intText, String.toList_ofList]
    exact literal?_digits k false hends
  | negSucc k =>
    have hk : k + 1 ≤ Nat.pow 2 63 := by
      have hpow : Nat.pow 2 63 = 2 ^ 63 := rfl
      omega
    refine ⟨_, ?_, toJson_minus (Nat.succ_pos k) hk⟩
    rw [integerText, Numeral.intText, String.toList_ofList]
    exact literal?_digits (k + 1) true hends

theorem exists_integerText_eq_cons (n : Int) :
    ∃ c cs, integerText n = c :: cs ∧ (c.isDigit = true ∨ c = '-') := by
  have hne : integerText n ≠ [] := by
    cases n with
    | ofNat k =>
      rw [integerText, Numeral.intText, String.toList_ofList]
      exact Nat.toDigits_ne_nil
    | negSucc k =>
      rw [integerText, Numeral.intText, String.toList_ofList]
      exact List.cons_ne_nil _ _
  obtain ⟨c, cs, hcs⟩ := List.exists_cons_of_ne_nil hne
  have hmem : c ∈ integerText n := hcs ▸ List.mem_cons_self
  exact ⟨c, cs, hcs, Numeral.mem_intText hmem⟩

/-- What begins like a number is read as one. -/
theorem token?_of_number {c : Char} (h : c.isDigit = true ∨ c = '-') (cs : List Char) :
    token? (c :: cs) = (literal? (c :: cs)).map (fun p => (.scalar p.1.toJson, p.2)) := by
  have hne : ∀ d : Char, ¬(d.isDigit = true ∨ d = '-') → c ≠ d := fun d hd heq => hd (heq ▸ h)
  rw [token?.eq_def]
  split
  · next heq => cases heq
  all_goals first
    | rfl
    | next heq => exact absurd (List.cons.inj heq).1 (hne _ (by decide))

/-- **A whole number of 64 bits is one token.** -/
theorem token?_integerText {n : Int} (hlow : -2 ^ 63 ≤ n) (hhigh : n < 2 ^ 64)
    {rest : List Char} (hends : EndsNumber rest) :
    token? (integerText n ++ rest) = some (.scalar (.integer n), rest) := by
  obtain ⟨l, hl, hvalue⟩ := literal?_integerText hlow hhigh hends
  obtain ⟨c, cs, hcs, hfirst⟩ := exists_integerText_eq_cons n
  rw [hcs, List.cons_append, token?_of_number hfirst, ← List.cons_append, ← hcs, hl, ← hvalue]
  rfl

end Json

end WindowQuery
