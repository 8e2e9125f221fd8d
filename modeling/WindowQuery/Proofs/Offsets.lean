import WindowQuery.Interval
import WindowQuery.Proofs.Directive.Pieces
import WindowQuery.Proofs.Frame.Spelling

/-!
# Offsets that are places to cut

Four readers take parts of a text: the one of directives, the one of argument
lists, the one of type names and the one of intervals. As lists of characters
texts can be cut anywhere. A program that keeps them as bytes cuts at offsets,
and it has to find these without looking at characters: behind the byte of a
comma or a parenthesis, at a difference of two lengths, behind eighteen digits.
Here are the readers as such programs, in which a cut within a character or
beyond an end is an error that is not caught.

There is none, and each program has the result of its reader
(`cuts_fall_between_characters`). A comma and a parenthesis are bytes that no
other character has, whatever stands around them, and a digit is a byte long. For
directives this was the work of `cutUp_eq`; it remains that the places which
they report are such offsets, too (`slice?_of_mem_place`).
-/

namespace WindowQuery

namespace Directive

/-! ## Places of tokens -/

/-- **A token's place in a text holds its source**, so it begins and ends between
characters. -/
theorem slice?_of_mem_place (before : List Char) {tokens : List Token} {p : Placed}
    (h : p ∈ place (Text.byteLength before) tokens) :
    Text.slice? (before ++ sources tokens) p.start p.stop = some p.token.source := by
  induction tokens generalizing before with
  | nil => cases h
  | cons t rest ih =>
    rw [sources_cons]
    rcases List.mem_cons.1 h with rfl | h
    · exact Text.slice?_eq_some_iff.2 ⟨before, sources rest, rfl, rfl, rfl⟩
    · rw [← Text.byteLength_append] at h
      rw [← List.append_assoc]
      exact ih (before ++ t.source) h

/-! ## Argument lists -/

/-- **The pieces of a list from a byte on**: so many parentheses are open there, and
this is where the piece begins and where the byte stands. -/
def splitFrom (list : List Char) (depth start place : Nat) :
    List UInt8 → Except Stop (List (List Char))
  | [] => (textFrom list start).map (fun piece => [piece])
  | b :: bs =>
    if b = 0x28 then splitFrom list (depth + 1) start (place + 1) bs
    else if b = 0x29 then splitFrom list (depth - 1) start (place + 1) bs
    else if b = 0x2C ∧ depth = 0 then
      (textBetween list start place).bind (fun piece =>
        (splitFrom list 0 (place + 1) (place + 1) bs).map (piece :: ·))
    else splitFrom list depth start (place + 1) bs

/-- **Splits a list by offsets.** -/
def splitUp (list : List Char) : Except Stop (List (List Char)) :=
  splitFrom list 0 0 0 (Text.bytes list)

theorem splitFrom_append {bs : List UInt8} (hopen : 0x28 ∉ bs) (hclose : 0x29 ∉ bs)
    (hcomma : 0x2C ∉ bs) (list : List Char) (depth start place : Nat) (rest : List UInt8) :
    splitFrom list depth start place (bs ++ rest) =
      splitFrom list depth start (place + bs.length) rest := by
  induction bs generalizing place with
  | nil => rfl
  | cons b bs ih =>
    rw [List.mem_cons, not_or] at hopen hclose hcomma
    have hplace : place + 1 + bs.length = place + (b :: bs).length := by
      rw [List.length_cons]
      omega
    rw [List.cons_append, splitFrom, if_neg (Ne.symm hopen.1), if_neg (Ne.symm hclose.1),
      if_neg (fun h => hcomma.1 h.1.symm), ih hopen.2 hclose.2 hcomma.2, hplace]

/-- **What a character does, its bytes do.** The splitter goes on byte by byte; of
a character of several bytes none is a comma or a parenthesis, so they only move
the place on, to where the next character begins. -/
theorem splitFrom_cons (list : List Char) (depth start place : Nat) (c : Char) (cs : List Char) :
    splitFrom list depth start place (Text.bytes (c :: cs)) =
      if c = ',' ∧ depth = 0 then
        (textBetween list start place).bind (fun piece =>
          (splitFrom list 0 (place + 1) (place + 1) (Text.bytes cs)).map (piece :: ·))
      else
        splitFrom list (if c = '(' then depth + 1 else if c = ')' then depth - 1 else depth) start
          (place + c.utf8Size) (Text.bytes cs) := by
  -- a mark is its own byte; the bytes of any other character are no marks
  by_cases hopen : c = '('
  · subst hopen
    exact (if_neg (fun h => absurd h.1 (by decide))).symm
  by_cases hclose : c = ')'
  · subst hclose
    exact (if_neg (fun h => absurd h.1 (by decide))).symm
  rw [if_neg hopen, if_neg hclose]
  by_cases hcomma : c = ','
  · subst hcomma
    show (if (0x2C : UInt8) = 0x2C ∧ depth = 0 then _ else _) = _
    by_cases hdepth : depth = 0
    · rw [if_pos ⟨rfl, hdepth⟩, if_pos ⟨rfl, hdepth⟩]
      rfl
    · rw [if_neg (fun h => hdepth h.2), if_neg (fun h => hdepth h.2)]
      rfl
  · have hbyte : 0x2C ∉ String.utf8EncodeChar c :=
      Text.notMem_utf8EncodeChar_of_ne (by decide) rfl hcomma
    obtain ⟨hnotOpen, hnotClose⟩ := notMem_utf8EncodeChar hopen hclose
    rw [if_neg (fun h => hcomma h.1), Text.bytes_cons, splitFrom_append hnotOpen hnotClose hbyte,
      String.length_utf8EncodeChar]

/-- **So much of the list is done, so much belongs to the piece, and the rest is
ahead**: the first piece of what is ahead goes on with the piece. -/
theorem splitFrom_bytes (depth : Nat) (done piece ahead : List Char) :
    splitFrom (done ++ (piece ++ ahead)) depth (Text.byteLength done)
        (Text.byteLength done + Text.byteLength piece) (Text.bytes ahead) =
      .ok ((pieces depth ahead).modifyHead (piece ++ ·)) := by
  induction ahead generalizing depth done piece with
  | nil =>
    rw [List.append_nil, Text.bytes_nil, splitFrom, textFrom_append]
    exact congrArg (fun p => Except.ok [p]) (List.append_nil piece).symm
  | cons c cs ih =>
    rw [splitFrom_cons]
    split
    · next hsep =>
      -- The next piece begins behind the comma, with nothing in it so far.
      obtain ⟨rfl, rfl⟩ := hsep
      have hstart : Text.byteLength done + Text.byteLength piece + 1 =
          Text.byteLength (done ++ (piece ++ [','])) := by
        simp only [Text.byteLength_append, Nat.add_assoc]
        rfl
      have hlist : done ++ (piece ++ ',' :: cs) = done ++ (piece ++ [',']) ++ ([] ++ cs) := by
        simp only [List.append_assoc, List.singleton_append, List.nil_append]
      have hmore := ih 0 (done ++ (piece ++ [','])) []
      rw [← hlist, ← hstart, Text.byteLength_nil, Nat.add_zero] at hmore
      rw [textBetween_append, pieces_separator, hmore]
      show Except.ok (piece :: (pieces 0 cs).modifyHead id) = _
      rw [List.modifyHead_id, List.modifyHead_cons, List.append_nil]
      rfl
    · next hsep =>
      have hplace : Text.byteLength done + Text.byteLength piece + c.utf8Size =
          Text.byteLength done + Text.byteLength (piece ++ [c]) := by
        rw [Text.byteLength_append, Nat.add_assoc]
        rfl
      have hmore := ih (if c = '(' then depth + 1 else if c = ')' then depth - 1 else depth) done
        (piece ++ [c])
      rw [List.append_assoc, List.singleton_append, ← hplace] at hmore
      rw [hmore, pieces_cons_of_not hsep, List.modifyHead_modifyHead]
      refine congrArg (fun f => Except.ok (List.modifyHead f _)) (funext fun p => ?_)
      exact List.append_assoc piece [c] p

/-- **A list is split without a cut out of place**, whether its parentheses are in
order or not. -/
theorem splitUp_eq (list : List Char) : splitUp list = .ok (pieces 0 list) := by
  have h := splitFrom_bytes 0 [] [] list
  have hid : ((pieces 0 list).modifyHead fun p => [] ++ p) = pieces 0 list := by
    show (pieces 0 list).modifyHead id = _
    rw [List.modifyHead_id]
    rfl
  rwa [hid] at h

end Directive

/-! ## Type names -/

namespace TypeName

/-- **The base name by offsets**: what stands before the parenthesis is cut off. -/
def baseUp (typeName : String) : Except Directive.Stop String :=
  let stem := (Directive.offsetOf? '(' typeName.toList).elim (.ok typeName.toList)
    (Directive.textBetween typeName.toList 0)
  stem.map (fun stem =>
    String.ofList (([' '].intercalate (Text.words stem)).map Char.toUpper))

/-- **A type name is cut where its parenthesis begins.** -/
theorem baseUp_eq (typeName : String) : baseUp typeName = .ok (base typeName) := by
  have hstem : (Directive.offsetOf? '(' typeName.toList).elim (.ok typeName.toList)
      (Directive.textBetween typeName.toList 0) =
        .ok (typeName.toList.takeWhile (· != '(')) := by
    by_cases h : '(' ∈ typeName.toList
    · obtain ⟨before, after, hname, hbefore⟩ := List.eq_append_cons_of_mem h
      have hcut := Directive.textBetween_append [] before ('(' :: after)
      rw [List.nil_append, Text.byteLength_nil, Nat.zero_add] at hcut
      rw [hname, Directive.offsetOf?_append hbefore, takeWhile_append_of_notMem hbefore]
      exact hcut.trans (congrArg Except.ok (List.append_nil before).symm)
    · rw [Directive.offsetOf?_of_notMem h, takeWhile_of_notMem h]
      rfl
  unfold baseUp
  dsimp only
  rw [hstem]
  rfl

end TypeName

/-! ## Intervals -/

namespace Interval

/-- **The nanoseconds of a component by offsets**: the digits of a fraction that do
not count are cut off behind the eighteenth byte. -/
def componentNanosUp (whole fraction : List Char) (u : Unit) : Except Directive.Stop Nat :=
  (Directive.textBetween fraction 0 (min (Text.byteLength fraction) fractionDigits)).map
    (fun kept => Numeral.value whole * u.nanos +
      Numeral.value kept * u.nanos / Nat.pow 10 (Text.byteLength kept))

/-- **The component at the front of a text**, read by offsets. -/
def componentUp? (cs : List Char) : Except Directive.Stop (Option (Nat × List Char)) :=
  let whole := cs.takeWhile Char.isDigit
  if whole.isEmpty then .ok none
  else
    let (digits, rest) := fraction (cs.dropWhile Char.isDigit)
    match unit? rest with
    | none => .ok none
    | some (u, rest) => (componentNanosUp whole digits u).map (fun n => some (n, rest))

theorem byteLength_of_digits {cs : List Char} (h : ∀ c ∈ cs, c.isDigit = true) :
    Text.byteLength cs = cs.length := by
  induction cs with
  | nil => rfl
  | cons c cs ih =>
    have hc : c.utf8Size = 1 := by
      have hdigit := h c List.mem_cons_self
      rw [Char.isDigit, Bool.and_eq_true, decide_eq_true_iff, decide_eq_true_iff] at hdigit
      exact Char.utf8Size_eq_one_iff.2 (UInt32.le_trans hdigit.2 (by decide))
    rw [Text.byteLength_cons, hc, ih (fun d hd => h d (List.mem_cons_of_mem c hd)),
      List.length_cons, Nat.add_comm]

/-- **Digits are cut where they are counted.** -/
theorem componentNanosUp_eq (whole : List Char) {fraction : List Char}
    (h : ∀ c ∈ fraction, c.isDigit = true) (u : Unit) :
    componentNanosUp whole fraction u = .ok (componentNanos whole fraction u) := by
  have hkept : Text.byteLength (fraction.take fractionDigits) =
      (fraction.take fractionDigits).length :=
    byteLength_of_digits (fun c hc => h c (List.mem_of_mem_take hc))
  have hoffset : min (Text.byteLength fraction) fractionDigits =
      Text.byteLength (fraction.take fractionDigits) := by
    rw [hkept, byteLength_of_digits h, List.length_take, Nat.min_comm]
  have hcut := Directive.textBetween_append [] (fraction.take fractionDigits)
    (fraction.drop fractionDigits)
  rw [List.nil_append, Text.byteLength_nil, Nat.zero_add, List.take_append_drop] at hcut
  rw [componentNanosUp, hoffset, hcut]
  show Except.ok (Numeral.value whole * u.nanos + Numeral.value (fraction.take fractionDigits) *
    u.nanos / Nat.pow 10 (Text.byteLength (fraction.take fractionDigits))) = _
  rw [hkept]
  rfl

theorem isDigit_of_mem_fraction {cs : List Char} {c : Char} (h : c ∈ (fraction cs).1) :
    c.isDigit = true := by
  unfold fraction at h
  split at h
  · dsimp only at h
    split at h
    · cases h
    · exact List.mem_takeWhile_imp h
  · cases h

/-- **A component is read without a cut out of place**, whatever text it stands in. -/
theorem componentUp?_eq (cs : List Char) : componentUp? cs = .ok (component? cs) := by
  unfold componentUp? component?
  dsimp only
  split
  · rfl
  · cases unit? (fraction (cs.dropWhile Char.isDigit)).2 with
    | none => rfl
    | some found =>
      dsimp only
      rw [componentNanosUp_eq _ (fun c hc => isDigit_of_mem_fraction hc)]
      rfl

end Interval

/-! ## All of them -/

/-- **No text is cut out of place**, whatever characters it has. The reader of
directives by offsets ends as `tokenize` does, with the tokens at their places
or with its error, and each place begins and ends between characters; and those
of argument lists, type names and components end as `pieces`, `base` and
`component?` do. -/
theorem cuts_fall_between_characters (text : String) :
    Directive.cutUp text =
        ((Directive.tokenize text).map (Directive.cutsFrom 0)).mapError .refused ∧
      (∀ tokens, Directive.tokenize text = .ok tokens → ∀ p ∈ Directive.place 0 tokens,
        Text.slice? text.toList p.start p.stop = some p.token.source) ∧
      Directive.splitUp text.toList = .ok (Directive.pieces 0 text.toList) ∧
      TypeName.baseUp text = .ok (TypeName.base text) ∧
      Interval.componentUp? text.toList = .ok (Interval.component? text.toList) := by
  refine ⟨Directive.cutUp_eq text, fun tokens htokens p hp => ?_, Directive.splitUp_eq _,
    TypeName.baseUp_eq text, Interval.componentUp?_eq _⟩
  obtain ⟨hsources, -⟩ := Directive.tokensFrom_eq_ok_iff.1 htokens
  rw [← hsources]
  exact Directive.slice?_of_mem_place [] hp

/-- There is no place to cut behind the first byte of a character, and no reader
cuts there. -/
example : Text.slice? "é,é".toList 0 1 = none ∧
    Directive.splitUp "é,é".toList = .ok [['é'], ['é']] :=
  ⟨by decide +kernel, by rfl⟩

end WindowQuery
