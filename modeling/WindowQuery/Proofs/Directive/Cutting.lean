import WindowQuery.Proofs.Directive.Decomposition
import WindowQuery.Proofs.Directive.Unclosed
import WindowQuery.Proofs.Text.Bytes

/-!
# Cutting a text up by offsets

`tokenize` reads a text as a list of characters and cannot but come to its
end. A program that holds the text in memory goes by offsets: it looks for
the next dollar sign from a cursor on, cuts the text where it takes a piece
of it, and looks for the parenthesis that closes a list among bytes. There
a cut may fall within a character or beyond the end, and a cursor may stay
where it is. `cutUp` is that program, with every cut checked and every turn
of its loop held to move the cursor on.

No check ever fails (`cutUp_eq`): the program has the tokens of `tokenize`
with their places, or its error. That a closing parenthesis is found at a
place to cut is due to the encoding, in which no byte of another character
looks like a parenthesis.
-/

namespace WindowQuery

namespace Directive

/-! ## The program -/

/-- Why the program stops. -/
inductive Stop where
  /-- It would cut within a character or beyond an end. -/
  | beyondEnd
  /-- A turn has not moved the cursor on within the text. -/
  | stuck
  /-- The text cannot be read. -/
  | refused (error : DirectiveError)

/-- The text from an offset on. -/
def textFrom (cs : List Char) (offset : Nat) : Except Stop (List Char) :=
  (Text.cutAt? offset cs).elim (.error .beyondEnd) (fun found => .ok found.2)

/-- The text between two offsets. -/
def textBetween (cs : List Char) (start stop : Nat) : Except Stop (List Char) :=
  (Text.slice? cs start stop).elim (.error .beyondEnd) .ok

/-- A difference that is not below zero. -/
def minus (a b : Nat) : Except Stop Nat := if b ≤ a then .ok (a - b) else .error .beyondEnd

/-- The offset of the first such character. -/
def offsetOf? (c : Char) : List Char → Option Nat
  | [] => none
  | d :: ds => if d = c then some 0 else (offsetOf? c ds).map (· + d.utf8Size)

/-- **The place of the byte that closes all parentheses**; so many are open, and
this is the place of the next byte. -/
def matching? (depth place : Nat) : List UInt8 → Option Nat
  | [] => none
  | b :: bs =>
    if b = 0x28 then matching? (depth + 1) (place + 1) bs
    else if b = 0x29 then
      match depth with
      | 0 => none
      | 1 => some place
      | inner + 2 => matching? (inner + 1) (place + 1) bs
    else matching? depth (place + 1) bs

/-- The argument list after the name of a directive at an offset, and how many
bytes it takes. -/
def listAt (name : List Char) (start : Nat) (after : List Char) :
    Except Stop (Option String × Nat) :=
  if after.head? = some '(' then
    match matching? 0 0 (Text.bytes after) with
    | none => .error (.refused (.unterminated (String.ofList name) start))
    | some close =>
      (textBetween after 1 close).map (fun list => (some (String.ofList list), close + 1))
  else .ok (none, 0)

/-- The literal between two offsets, none if they are equal. -/
def literalBetween (cs : List Char) (start stop : Nat) : Except Stop (List Cut) :=
  if start < stop then
    (textBetween cs start stop).map (fun text => [.literal (String.ofList text)])
  else .ok []

/-- What the program has cut off so far, where the literal begins that it is in,
and where it goes on. -/
structure Progress where
  /-- The pieces so far. -/
  cuts : List Cut
  /-- Where the literal begins. -/
  literalStart : Nat
  /-- Where the next dollar sign is looked for. -/
  cursor : Nat

/-- What a turn comes to. -/
inductive Turn where
  /-- The text is cut up. -/
  | done (cuts : List Cut)
  /-- There is more to do. -/
  | again (p : Progress)

/-- **One turn of the loop.** -/
def turn (sql : List Char) (p : Progress) : Except Stop Turn :=
  (textFrom sql p.cursor).bind (fun ahead =>
    match offsetOf? '$' ahead with
    | none =>
      (literalBetween sql p.literalStart (Text.byteLength sql)).map
        (fun literal => .done (p.cuts ++ literal))
    | some offset =>
      let start := p.cursor + offset
      (textFrom sql start).bind (fun here =>
        match name? here with
        | none => .ok (.again { p with cursor := start + 1 })
        | some (name, after) =>
          (minus (Text.byteLength sql) (Text.byteLength after)).bind (fun nameStop =>
            (listAt name start after).bind (fun (list, width) =>
              (literalBetween sql p.literalStart start).map (fun literal =>
                let stop := nameStop + width
                let use : Cut := .use ⟨String.ofList name, list⟩ start stop
                .again ⟨p.cuts ++ literal ++ [use], stop, stop⟩)))))

/-- **The loop**, from what has been done so far. -/
def cutUpFrom (sql : List Char) (p : Progress) : Except Stop (List Cut) :=
  match turn sql p with
  | .error e => .error e
  | .ok (.done cuts) => .ok cuts
  | .ok (.again p') =>
    if p.cursor < p'.cursor ∧ p'.cursor ≤ Text.byteLength sql then cutUpFrom sql p'
    else .error .stuck
termination_by Text.byteLength sql - p.cursor
decreasing_by omega

/-- **Cuts a text up by offsets.** -/
def cutUp (sql : String) : Except Stop (List Cut) := cutUpFrom sql.toList ⟨[], 0, 0⟩

theorem cutsFrom_append (offset : Nat) (as bs : List Token) :
    cutsFrom offset (as ++ bs) =
      cutsFrom offset as ++ cutsFrom (offset + Text.byteLength (sources as)) bs := by
  induction as generalizing offset with
  | nil => rfl
  | cons t as ih =>
    rw [List.cons_append, sources_cons, Text.byteLength_append, ← Nat.add_assoc]
    cases t with
    | literal text => exact congrArg (List.cons _) (ih _)
    | directive i => exact congrArg (List.cons _) (ih _)

theorem cutsFrom_use_append (offset : Nat) (text : List Char) (i : Invocation) (rest : List Token) :
    cutsFrom offset (literalToken text ++ .directive i :: rest) =
      cutsFrom offset (literalToken text ++ [.directive i]) ++
        cutsFrom (offset + Text.byteLength text + Text.byteLength i.source) rest := by
  simp only [cutsFrom_append, sources_literalToken, cutsFrom_directive, List.append_assoc]
  rfl

/-! ## Cuts that are places to cut -/

theorem textFrom_append (before after : List Char) :
    textFrom (before ++ after) (Text.byteLength before) = .ok after := by
  rw [textFrom, Text.cutAt?_eq_some_iff.2 ⟨rfl, rfl⟩]
  rfl

theorem textBetween_append (before mid after : List Char) :
    textBetween (before ++ (mid ++ after)) (Text.byteLength before)
      (Text.byteLength before + Text.byteLength mid) = .ok mid := by
  rw [textBetween, Text.slice?_eq_some_iff.2 ⟨before, after, rfl, rfl, rfl⟩]
  rfl

/-- A literal is the token of its text. -/
theorem literalBetween_append (before mid after : List Char) :
    literalBetween (before ++ (mid ++ after)) (Text.byteLength before)
        (Text.byteLength before + Text.byteLength mid) =
      .ok (cutsFrom (Text.byteLength before) (literalToken mid)) := by
  unfold literalBetween
  split
  · next h =>
    have hne : mid ≠ [] := fun he => by
      rw [he, Text.byteLength_nil] at h
      exact Nat.lt_irrefl _ h
    rw [textBetween_append, literalToken, if_neg (fun he => hne (List.isEmpty_iff.1 he))]
    rfl
  · next h =>
    have hzero : Text.byteLength mid = 0 := by omega
    rw [Text.byteLength_eq_zero.1 hzero]
    rfl

theorem minus_byteLength (before after : List Char) :
    minus (Text.byteLength (before ++ after)) (Text.byteLength after) =
      .ok (Text.byteLength before) := by
  rw [minus, Text.byteLength_append, if_pos (Nat.le_add_left _ _), Nat.add_sub_cancel]

theorem offsetOf?_of_notMem {c : Char} {cs : List Char} (h : c ∉ cs) : offsetOf? c cs = none := by
  induction cs with
  | nil => rfl
  | cons d ds ih =>
    rw [List.mem_cons, not_or] at h
    rw [offsetOf?, if_neg (Ne.symm h.1), ih h.2]
    rfl

theorem offsetOf?_append {c : Char} {before : List Char} (h : c ∉ before) (rest : List Char) :
    offsetOf? c (before ++ c :: rest) = some (Text.byteLength before) := by
  induction before with
  | nil => exact if_pos rfl
  | cons d ds ih =>
    rw [List.mem_cons, not_or] at h
    rw [List.cons_append, offsetOf?, if_neg (Ne.symm h.1), ih h.2, Text.byteLength_cons,
      Nat.add_comm]
    rfl

/-! ## Parentheses among bytes -/

/-- Bytes that are no parentheses are passed over. -/
theorem matching?_append {bs : List UInt8} (hopen : 0x28 ∉ bs) (hclose : 0x29 ∉ bs)
    (depth place : Nat) (rest : List UInt8) :
    matching? depth place (bs ++ rest) = matching? depth (place + bs.length) rest := by
  induction bs generalizing place with
  | nil => rfl
  | cons b bs ih =>
    rw [List.mem_cons, not_or] at hopen hclose
    have hplace : place + 1 + bs.length = place + (b :: bs).length := by
      rw [List.length_cons]
      omega
    rw [List.cons_append, matching?.eq_def]
    dsimp only
    rw [if_neg (Ne.symm hopen.1), if_neg (Ne.symm hclose.1), ih hopen.2 hclose.2, hplace]

theorem notMem_utf8EncodeChar {c : Char} (hopen : c ≠ '(') (hclose : c ≠ ')') :
    0x28 ∉ String.utf8EncodeChar c ∧ 0x29 ∉ String.utf8EncodeChar c :=
  ⟨Text.notMem_utf8EncodeChar_of_ne (by decide) rfl hopen,
    Text.notMem_utf8EncodeChar_of_ne (by decide) rfl hclose⟩

/-- **The byte that closes the list is the parenthesis that does.** -/
theorem matching?_bytes (depth place : Nat) (cs : List Char) :
    matching? (depth + 1) place (Text.bytes cs) =
      (closing? depth cs).map (fun found => place + Text.byteLength found.1) := by
  induction cs generalizing depth place with
  | nil => rfl
  | cons c cs ih =>
    -- a parenthesis is one byte: the depth changes and the place moves on by one
    have hnext : ∀ next, matching? (next + 1) (place + c.utf8Size) (Text.bytes cs) =
        ((closing? next cs).map (fun found => (c :: found.1, found.2))).map
          (fun found => place + Text.byteLength found.1) := by
      intro next
      rw [ih, Option.map_map]
      refine congrArg (Option.map · _) (funext fun found => ?_)
      exact Nat.add_assoc _ _ _
    unfold closing?
    by_cases hclose : c = ')'
    · subst hclose
      rw [if_pos rfl]
      cases depth with
      | zero => rfl
      | succ inner => exact hnext inner
    · rw [if_neg hclose]
      by_cases hopen : c = '('
      · subst hopen
        exact hnext (depth + 1)
      · obtain ⟨hno, hnc⟩ := notMem_utf8EncodeChar hopen hclose
        rw [if_neg hopen, Text.bytes_cons, matching?_append hno hnc, String.length_utf8EncodeChar]
        exact hnext depth

/-- **The list after a name**, as it is read from the characters. -/
theorem listAt_eq (name : List Char) (start : Nat) (after : List Char) :
    listAt name start after = match list? after with
      | none => .error (.refused (.unterminated (String.ofList name) start))
      | some (list, _) => .ok (list, Text.byteLength (listSource list)) := by
  by_cases hhead : after.head? = some '('
  · obtain ⟨r, rfl⟩ := List.head?_eq_some_iff.1 hhead
    have hmatching : matching? 0 0 (Text.bytes ('(' :: r)) =
        (closing? 0 r).map (fun found => 1 + Text.byteLength found.1) := matching?_bytes 0 1 r
    have hlist : list? ('(' :: r) =
        (closing? 0 r).map (fun found => (some (String.ofList found.1), found.2)) := rfl
    rw [listAt, if_pos hhead, hmatching, hlist]
    cases hclosing : closing? 0 r with
    | none => rfl
    | some found =>
      obtain ⟨list, rest⟩ := found
      obtain ⟨rfl, -⟩ := closing?_eq_some_iff.1 hclosing
      -- the byte that was found ends the characters that were found, so the cut gives them back
      have htext : textBetween ('(' :: (list ++ ')' :: rest)) 1 (1 + Text.byteLength list) =
          .ok list := textBetween_append ['('] list (')' :: rest)
      have hwidth : Text.byteLength (listSource (some (String.ofList list))) =
          1 + Text.byteLength list + 1 := by
        rw [listSource, String.toList_ofList, Text.byteLength_cons, Text.byteLength_append,
          ← Nat.add_assoc]
        rfl
      show (textBetween ('(' :: (list ++ ')' :: rest)) 1 (1 + Text.byteLength list)).map _ =
        .ok (some (String.ofList list), Text.byteLength (listSource (some (String.ofList list))))
      rw [htext, hwidth]
      rfl
  · have hlist : list? after = some (none, after) :=
      list?_eq_some_iff.2 ⟨rfl, fun _ => hhead, fun l hl => (by cases hl)⟩
    rw [listAt, if_neg hhead, hlist]
    rfl

/-! ## Turns -/

/-- **The progress in a text**: so much of it is cut off, and so much after that
belongs to a literal. -/
def Progress.within (cuts : List Cut) (done lit : List Char) : Progress :=
  ⟨cuts, Text.byteLength done, Text.byteLength (done ++ lit)⟩

section

variable {sql done lit before : List Char} (cuts : List Cut)

/-- The last turn: there is no dollar sign ahead. -/
theorem turn_last {ahead : List Char} (hsql : sql = done ++ (lit ++ ahead)) (h : '$' ∉ ahead) :
    turn sql (.within cuts done lit) =
      .ok (.done (cuts ++ cutsFrom (Text.byteLength done) (literalToken (lit ++ ahead)))) := by
  have hahead : textFrom sql (Text.byteLength (done ++ lit)) = .ok ahead := by
    rw [hsql, ← List.append_assoc, textFrom_append]
  have hliteral : literalBetween sql (Text.byteLength done) (Text.byteLength sql) =
      .ok (cutsFrom (Text.byteLength done) (literalToken (lit ++ ahead))) := by
    have h := literalBetween_append done (lit ++ ahead) []
    rwa [List.append_nil, ← hsql, ← Text.byteLength_append, ← hsql] at h
  simp only [turn, Progress.within, hahead, Except.bind, offsetOf?_of_notMem h, hliteral,
    Except.map]

/-- A turn at a dollar sign with which no directive opens. -/
theorem turn_bare {rest : List Char} (hsql : sql = done ++ (lit ++ (before ++ '$' :: rest)))
    (hbefore : '$' ∉ before) (h : ¬Opens ('$' :: rest)) :
    turn sql (.within cuts done lit) =
      .ok (.again (.within cuts done (lit ++ (before ++ ['$'])))) := by
  have hahead : textFrom sql (Text.byteLength (done ++ lit)) = .ok (before ++ '$' :: rest) := by
    rw [hsql, ← List.append_assoc, textFrom_append]
  have hhere : textFrom sql (Text.byteLength (done ++ lit) + Text.byteLength before) =
      .ok ('$' :: rest) := by
    rw [hsql, ← Text.byteLength_append, ← List.append_assoc, ← List.append_assoc, textFrom_append]
  have hname : name? ('$' :: rest) = none :=
    Option.not_isSome_iff_eq_none.1 (fun hs => h (isSome_name?.1 hs))
  have hcursor : Text.byteLength (done ++ lit) + Text.byteLength before + 1 =
      Text.byteLength (done ++ (lit ++ (before ++ ['$']))) := by
    simp only [Text.byteLength_append, Nat.add_assoc]
    rfl
  simp only [turn, Progress.within, hahead, Except.bind, offsetOf?_append hbefore, hhere, hname,
    hcursor]

/-- **A turn at a directive**: the literal before it and the use are cut off, or the
list is not closed. -/
theorem turn_name {here name after : List Char} (hsql : sql = done ++ (lit ++ (before ++ here)))
    (hbefore : '$' ∉ before) (hname : name? here = some (name, after)) :
    turn sql (.within cuts done lit) = match list? after with
      | none => .error (.refused (.unterminated (String.ofList name)
          (Text.byteLength done + Text.byteLength (lit ++ before))))
      | some (list, _) =>
        let use : Invocation := ⟨String.ofList name, list⟩
        .ok (.again (.within
          (cuts ++ cutsFrom (Text.byteLength done)
            (literalToken (lit ++ before) ++ [.directive use]))
          (done ++ (lit ++ before ++ use.source)) [])) := by
  -- every offset that the turn computes is first written as the length of what is before it
  obtain ⟨rfl, -, -⟩ := name?_eq_some_iff.1 hname
  have hahead : textFrom sql (Text.byteLength (done ++ lit)) =
      .ok (before ++ '$' :: (name ++ after)) := by
    rw [hsql, ← List.append_assoc, textFrom_append]
  have hstart : Text.byteLength (done ++ lit) + Text.byteLength before =
      Text.byteLength done + Text.byteLength (lit ++ before) := by
    simp only [Text.byteLength_append, Nat.add_assoc]
  have hhere : textFrom sql (Text.byteLength done + Text.byteLength (lit ++ before)) =
      .ok ('$' :: (name ++ after)) := by
    rw [hsql, ← Text.byteLength_append, ← List.append_assoc lit, ← List.append_assoc done,
      textFrom_append]
  have hminus : minus (Text.byteLength sql) (Text.byteLength after) =
      .ok (Text.byteLength done + Text.byteLength (lit ++ before) +
        Text.byteLength ('$' :: name)) := by
    have hsplit : sql = done ++ (lit ++ before) ++ '$' :: name ++ after := by
      rw [hsql]
      simp only [List.append_assoc, List.cons_append]
    rw [hsplit, minus_byteLength, Text.byteLength_append, Text.byteLength_append done]
  have hliteral : literalBetween sql (Text.byteLength done)
      (Text.byteLength done + Text.byteLength (lit ++ before)) =
        .ok (cutsFrom (Text.byteLength done) (literalToken (lit ++ before))) := by
    rw [hsql, ← List.append_assoc lit, literalBetween_append]
  simp only [turn, Progress.within, hahead, Except.bind, offsetOf?_append hbefore, hstart, hhere,
    hname, hminus, listAt_eq]
  cases list? after with
  | none => rfl
  | some found =>
    have hsource : Text.byteLength (Invocation.mk (String.ofList name) found.1).source =
        Text.byteLength ('$' :: name) + Text.byteLength (listSource found.1) := by
      rw [Invocation.source_eq, String.toList_ofList, ← List.cons_append, Text.byteLength_append]
    simp only [hliteral, Except.map]
    simp only [cutsFrom_append, sources_literalToken, cutsFrom_directive, List.append_nil,
      Text.byteLength_append, hsource, List.append_assoc, Nat.add_assoc]
    rfl

end

/-! ## The loop -/

/-- **Text that the scan has passed over**, with what is ahead of it: it belongs to
the text before the next directive. -/
def Passed (lit ahead : List Char) : Prop :=
  untilName (lit ++ ahead) = (lit ++ (untilName ahead).1, (untilName ahead).2)

theorem Passed.concat {lit rest : List Char} {c : Char} (h : Passed lit (c :: rest))
    (hc : ¬Opens (c :: rest)) : Passed (lit ++ [c]) rest := by
  unfold Passed at *
  rw [untilName_cons_of_not_opens hc] at h
  rw [List.append_assoc, List.singleton_append, h, List.append_assoc, List.singleton_append]

theorem Passed.append {lit before rest : List Char} (h : Passed lit (before ++ rest))
    (hbefore : '$' ∉ before) : Passed (lit ++ before) rest := by
  induction before generalizing lit with
  | nil => rwa [List.append_nil]
  | cons c before ih =>
    rw [List.mem_cons, not_or] at hbefore
    have hc : ¬Opens (c :: (before ++ rest)) := fun ho =>
      hbefore.1 (Option.some.inj ho.head?_eq).symm
    have hmore := ih (h.concat hc) hbefore.2
    rwa [List.append_assoc, List.singleton_append] at hmore

/-- Up to where a directive opens, or to the end, what has been passed over is all of
the text before the directive. -/
theorem Passed.untilName_eq {lit ahead : List Char} (h : Passed lit ahead)
    (hahead : ahead = [] ∨ Opens ahead) : untilName (lit ++ ahead) = (lit, ahead) := by
  unfold Passed at h
  rw [h, ← List.nil_append ahead, untilName_append not_mentions_nil hahead, List.append_nil]
  rfl

/-- A turn that moves the cursor on within the text is followed by the next. -/
theorem cutUpFrom_of_again {sql before more rest : List Char} {p p' : Progress}
    (hturn : turn sql p = .ok (.again p')) (hsql : sql = before ++ (more ++ rest))
    (hmore : more ≠ []) (hp : p.cursor = Text.byteLength before)
    (hp' : p'.cursor = Text.byteLength (before ++ more)) :
    cutUpFrom sql p = cutUpFrom sql p' := by
  have hpos : 0 < Text.byteLength more :=
    Nat.pos_of_ne_zero (fun h => hmore (Text.byteLength_eq_zero.1 h))
  rw [cutUpFrom, hturn]
  refine if_pos ⟨?_, ?_⟩
  · rw [hp, hp', Text.byteLength_append]
    omega
  · rw [hp', hsql, Text.byteLength_append, Text.byteLength_append, Text.byteLength_append]
    omega

/-- **The loop agrees with the scan** from here on: it has the tokens that are left,
with their places, or the error. -/
def Agrees (sql : List Char) (cuts : List Cut) (done lit ahead : List Char) : Prop :=
  cutUpFrom sql (.within cuts done lit) =
    ((tokensFrom (Text.byteLength done) (lit ++ ahead)).map
      (fun tokens => cuts ++ cutsFrom (Text.byteLength done) tokens)).mapError .refused

section

variable {sql done lit before : List Char} {cuts : List Cut}

theorem agrees_last {ahead : List Char} (hsql : sql = done ++ (lit ++ ahead))
    (hpassed : Passed lit ahead) (h : '$' ∉ ahead) : Agrees sql cuts done lit ahead := by
  have hall : Passed (lit ++ ahead) [] := Passed.append (by rwa [List.append_nil]) h
  have huntil := hall.untilName_eq (.inl rfl)
  rw [List.append_nil] at huntil
  rw [Agrees, cutUpFrom, turn_last cuts hsql h, tokensFrom_eq, huntil]
  rfl

/-- **Agreement at a dollar sign with which no directive opens**, if there is
agreement after it. -/
theorem agrees_bare {rest : List Char} (hsql : sql = done ++ (lit ++ (before ++ '$' :: rest)))
    (hbefore : '$' ∉ before) (ho : ¬Opens ('$' :: rest))
    (h : Agrees sql cuts done (lit ++ (before ++ ['$'])) rest) :
    Agrees sql cuts done lit (before ++ '$' :: rest) := by
  have hsplit : sql = (done ++ lit) ++ ((before ++ ['$']) ++ rest) := by
    rw [hsql]
    simp only [List.append_assoc, List.singleton_append]
  have hcursor : (Progress.within cuts done (lit ++ (before ++ ['$']))).cursor =
      Text.byteLength ((done ++ lit) ++ (before ++ ['$'])) := by
    rw [Progress.within, List.append_assoc]
  have hloop : cutUpFrom sql (.within cuts done lit) =
      cutUpFrom sql (.within cuts done (lit ++ (before ++ ['$']))) :=
    cutUpFrom_of_again (turn_bare cuts hsql hbefore ho) hsplit
      (List.append_ne_nil_of_right_ne_nil _ (List.cons_ne_nil _ _)) rfl hcursor
  have hmore : lit ++ (before ++ '$' :: rest) = lit ++ (before ++ ['$']) ++ rest := by
    simp only [List.append_assoc, List.singleton_append]
  rw [Agrees, hloop, hmore]
  exact h

theorem agrees_unclosed {here name after : List Char}
    (hsql : sql = done ++ (lit ++ (before ++ here))) (hpassed : Passed (lit ++ before) here)
    (hbefore : '$' ∉ before) (hname : name? here = some (name, after))
    (hlist : list? after = none) :
    Agrees sql cuts done lit (before ++ here) := by
  have ho : Opens here := isSome_name?.1 (Option.isSome_of_eq_some hname)
  have hturn := turn_name cuts hsql hbefore hname
  rw [hlist] at hturn
  rw [Agrees, cutUpFrom, hturn, ← List.append_assoc, tokensFrom_eq, hpassed.untilName_eq (.inr ho)]
  simp only [hname, hlist]
  rfl

/-- **Agreement at a use of a directive**, if there is agreement after it. The text
passed over becomes a literal there, and the next one starts out empty. -/
theorem agrees_use {i : Invocation} {left : List Char}
    (hsql : sql = done ++ (lit ++ (before ++ (i.source ++ left))))
    (hpassed : Passed (lit ++ before) (i.source ++ left)) (hbefore : '$' ∉ before)
    (hi : i.StandsBefore left)
    (h : Agrees sql
      (cuts ++ cutsFrom (Text.byteLength done) (literalToken (lit ++ before) ++ [.directive i]))
      (done ++ (lit ++ before ++ i.source)) [] left) :
    Agrees sql cuts done lit (before ++ (i.source ++ left)) := by
  have hloop : cutUpFrom sql (.within cuts done lit) = cutUpFrom sql (.within
      (cuts ++ cutsFrom (Text.byteLength done) (literalToken (lit ++ before) ++ [.directive i]))
      (done ++ (lit ++ before ++ i.source)) []) := by
    obtain ⟨hname, hlist⟩ := hi.read
    have hturn := turn_name cuts hsql hbefore hname
    rw [hlist] at hturn
    simp only [String.ofList_toList] at hturn
    refine cutUpFrom_of_again hturn
      (?_ : sql = (done ++ lit) ++ ((before ++ i.source) ++ left)) ?_ rfl ?_
    · rw [hsql]
      simp only [List.append_assoc]
    · rw [Invocation.source_eq]
      exact List.append_ne_nil_of_right_ne_nil _ (List.cons_ne_nil _ _)
    · simp only [Progress.within, List.append_assoc, List.append_nil]
  have htext : ¬Mentions (lit ++ before) := by
    have hnot := not_mentions_untilName (lit ++ before ++ (i.source ++ left))
    rwa [hpassed.untilName_eq (.inr (i.opens_source hi.name left))] at hnot
  have hoffset : Text.byteLength (done ++ (lit ++ before ++ i.source)) =
      Text.byteLength done + Text.byteLength (lit ++ before) + Text.byteLength i.source := by
    rw [Text.byteLength_append, Text.byteLength_append (lit ++ before), Nat.add_assoc]
  rw [Agrees, hoffset, List.nil_append] at h
  rw [Agrees, hloop, h, ← List.append_assoc, tokensFrom_use htext hi]
  cases tokensFrom (Text.byteLength done + Text.byteLength (lit ++ before) +
      Text.byteLength i.source) left with
  | error e => rfl
  | ok more =>
    have hcuts := cutsFrom_use_append (Text.byteLength done) (lit ++ before) i more
    simp only [Except.map, Except.mapError]
    rw [hcuts, List.append_assoc]

end

/-- **The loop agrees with the scan** wherever it has got to. -/
theorem agrees_of_passed {sql done lit ahead : List Char} {cuts : List Cut}
    (hsql : sql = done ++ (lit ++ ahead)) (hpassed : Passed lit ahead) :
    Agrees sql cuts done lit ahead := by
  -- on the text ahead: a turn either ends the loop or leaves less of it
  induction hn : ahead.length using Nat.strongRecOn generalizing done lit ahead cuts with
  | ind n ih =>
    subst hn
    by_cases hdollar : '$' ∈ ahead
    · obtain ⟨before, rest, rfl, hbefore⟩ := List.eq_append_cons_of_mem hdollar
      have hpassed' := hpassed.append hbefore
      have hshorter : ∀ left : List Char, left.length < ('$' :: rest).length →
          left.length < (before ++ '$' :: rest).length := fun left hlt => by
        rw [List.length_append]
        exact Nat.lt_add_left _ hlt
      by_cases ho : Opens ('$' :: rest)
      · obtain ⟨⟨name, after⟩, hname⟩ := Option.isSome_iff_exists.1 (isSome_name?.2 ho)
        cases hlist : list? after with
        | none => exact agrees_unclosed hsql hpassed' hbefore hname hlist
        | some found =>
          obtain ⟨list, left⟩ := found
          obtain ⟨hrest, -, hi⟩ := readUse_iff.1 ⟨hname, hlist⟩
          have hless := hshorter left (hrest ▸ (Step.use _ left hi).length_lt)
          rw [hrest] at hsql hpassed' ⊢
          refine agrees_use hsql hpassed' hbefore hi (ih _ hless ?_ rfl rfl)
          rw [hsql]
          simp only [List.append_assoc, List.nil_append]
      · have hpassed'' : Passed (lit ++ (before ++ ['$'])) rest := by
          rw [← List.append_assoc]
          exact hpassed'.concat ho
        refine agrees_bare hsql hbefore ho
          (ih _ (hshorter rest (Nat.lt_succ_self _)) ?_ hpassed'' rfl)
        rw [hsql]
        simp only [List.append_assoc, List.singleton_append]
    · exact agrees_last hsql hpassed hdollar

/-- **No check fails**: the program has the tokens of the text with their places, or
the error of the text. -/
theorem cutUp_eq (sql : String) :
    cutUp sql = ((tokenize sql).map (cutsFrom 0)).mapError .refused := by
  have hpassed : Passed [] sql.toList := rfl
  have hall : sql.toList = [] ++ ([] ++ sql.toList) := rfl
  exact agrees_of_passed hall hpassed

/-! ## When a text can be read -/

/-- **Reading a text fails at the first list that is not closed**, and for no other
reason. The error has the name before that list and the offset of its dollar
sign; the scan goes no further, so it meets no other such list; it cannot
move on for ever; and a program that goes by offsets comes to the same
without a cut out of place or a turn that does not move on. -/
theorem tokenize_outcome (sql : String) :
    (∀ e, tokenize sql = .error e ↔
      ∃ before name rest, sql.toList = before ++ rest ∧ Reaches sql.toList rest ∧
        Unclosed name rest ∧ e = .unterminated (String.ofList name) (Text.byteLength before)) ∧
    (∀ name rest, Reaches sql.toList rest → Unclosed name rest →
      ∀ rest', Reaches sql.toList rest' → Reaches rest' rest) ∧
    WellFounded (fun rest cs => Step cs rest) ∧
    cutUp sql = ((tokenize sql).map (cutsFrom 0)).mapError .refused := by
  refine ⟨fun e => tokensFrom_zero_eq_error_iff, ?_, wellFounded_step, cutUp_eq sql⟩
  intro name rest hreach hopen rest' hreach'
  exact hreach.last (forall_not_step_iff.2 (.inr ⟨name, hopen⟩)) hreach'

/-- A use with another in its list is passed over, and offsets count bytes. -/
example : tokenize "é$__x($__y()) $__z(" = .error (.unterminated "__z" 15) := by decide +kernel

end Directive

end WindowQuery
