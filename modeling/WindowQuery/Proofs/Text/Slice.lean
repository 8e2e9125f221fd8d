import WindowQuery.Text.Utf8

/-!
# Slices of a text by byte offsets

Offsets count bytes, and an offset within a character, or beyond the end,
is no place to cut a text. `slice?` gives what lies between two offsets
where both are places to cut, and nothing otherwise, so that a law which
speaks of a slice says with it that the offsets fall between characters.
-/

namespace WindowQuery.Text

/-! ## Cutting -/

/-- **A text cut at an offset**, if the offset falls between two characters or
at an end. -/
def cutAt? (offset : Nat) : List Char → Option (List Char × List Char)
  | [] => if offset = 0 then some ([], []) else none
  | c :: cs =>
    if offset = 0 then some ([], c :: cs)
    else if c.utf8Size ≤ offset then
      (cutAt? (offset - c.utf8Size) cs).map (fun (before, after) => (c :: before, after))
    else none

/-- **What lies between two offsets.** -/
def slice? (cs : List Char) (start stop : Nat) : Option (List Char) :=
  if start ≤ stop then
    (cutAt? start cs).bind (fun (_, rest) =>
      (cutAt? (stop - start) rest).map (fun (mid, _) => mid))
  else none

/-- The character at an offset. -/
def charAt? (cs : List Char) (offset : Nat) : Option Char :=
  (cutAt? offset cs).bind (fun (_, rest) => rest.head?)

theorem byteLength_eq_zero {cs : List Char} : byteLength cs = 0 ↔ cs = [] := by
  cases cs with
  | nil => exact ⟨fun _ => rfl, fun _ => rfl⟩
  | cons c cs =>
    have hc : 0 < c.utf8Size := c.utf8Size_pos
    rw [byteLength_cons]
    exact ⟨fun h => absurd (Nat.eq_zero_of_add_eq_zero_right h) (Nat.ne_of_gt hc),
      fun h => by cases h⟩

/-- A cut takes nothing away, and the offset is the length of what is before
it. -/
theorem cutAt?_eq_some_iff {offset : Nat} {cs before after : List Char} :
    cutAt? offset cs = some (before, after) ↔
      cs = before ++ after ∧ byteLength before = offset := by
  -- characters are taken as long as the offset covers them; one that it splits leaves none
  induction cs generalizing offset before with
  | nil =>
    rw [cutAt?, List.nil_eq_append_iff]
    constructor
    · intro h
      obtain ⟨h0, h⟩ := Option.ite_none_right_eq_some.1 h
      obtain ⟨rfl, rfl⟩ := Prod.mk.inj (Option.some.inj h)
      exact ⟨⟨rfl, rfl⟩, h0.symm⟩
    · rintro ⟨⟨rfl, rfl⟩, h⟩
      exact if_pos h.symm
  | cons c cs ih =>
    have hc : 0 < c.utf8Size := c.utf8Size_pos
    rw [cutAt?]
    split
    · next h0 =>
      constructor
      · intro h
        obtain ⟨rfl, rfl⟩ := Prod.mk.inj (Option.some.inj h)
        exact ⟨rfl, h0.symm⟩
      · rintro ⟨h, hlen⟩
        obtain rfl : before = [] := byteLength_eq_zero.1 (hlen.trans h0)
        rw [h]
        rfl
    · next h0 =>
      constructor
      · intro h
        obtain ⟨hle, h⟩ := Option.ite_none_right_eq_some.1 h
        obtain ⟨⟨b, a⟩, hcut, h⟩ := Option.map_eq_some_iff.1 h
        obtain ⟨rfl, rfl⟩ := Prod.mk.inj h
        obtain ⟨rfl, hlen⟩ := ih.1 hcut
        refine ⟨rfl, ?_⟩
        rw [byteLength_cons, hlen, Nat.add_sub_of_le hle]
      · rintro ⟨h, hlen⟩
        cases before with
        | nil => exact absurd hlen.symm h0
        | cons b before =>
          obtain ⟨rfl, rfl⟩ := List.cons.inj h
          rw [byteLength_cons] at hlen
          have hle : c.utf8Size ≤ offset := hlen ▸ Nat.le_add_right _ _
          rw [if_pos hle, ih.2 ⟨rfl, Nat.eq_sub_of_add_eq' hlen⟩]
          rfl

/-- **A slice is a part of the text**, as long as its offsets say. -/
theorem slice?_eq_some_iff {cs mid : List Char} {start stop : Nat} :
    slice? cs start stop = some mid ↔
      ∃ before after, cs = before ++ (mid ++ after) ∧ byteLength before = start ∧
        start + byteLength mid = stop := by
  unfold slice?
  constructor
  · intro h
    obtain ⟨hle, h⟩ := Option.ite_none_right_eq_some.1 h
    obtain ⟨⟨before, rest⟩, hstart, h⟩ := Option.bind_eq_some_iff.1 h
    obtain ⟨⟨mid', after⟩, hstop, rfl⟩ := Option.map_eq_some_iff.1 h
    obtain ⟨rfl, hbefore⟩ := cutAt?_eq_some_iff.1 hstart
    obtain ⟨rfl, hmid⟩ := cutAt?_eq_some_iff.1 hstop
    refine ⟨before, after, rfl, hbefore, ?_⟩
    show start + byteLength mid' = stop
    rw [hmid, Nat.add_sub_of_le hle]
  · rintro ⟨before, after, rfl, hbefore, rfl⟩
    have hstart : cutAt? start (before ++ (mid ++ after)) = some (before, mid ++ after) :=
      cutAt?_eq_some_iff.2 ⟨rfl, hbefore⟩
    have hstop : cutAt? (byteLength mid) (mid ++ after) = some (mid, after) :=
      cutAt?_eq_some_iff.2 ⟨rfl, rfl⟩
    rw [if_pos (Nat.le_add_right _ _), hstart, Option.bind_some, Nat.add_sub_cancel_left]
    show (cutAt? (byteLength mid) (mid ++ after)).map _ = some mid
    rw [hstop]
    rfl

theorem charAt?_append {before : List Char} {offset : Nat} (h : byteLength before = offset)
    (after : List Char) : charAt? (before ++ after) offset = after.head? := by
  rw [charAt?, cutAt?_eq_some_iff.2 ⟨rfl, h⟩]
  rfl

/-! ## Two cuts of one text -/

/-- **Of two beginnings of a text the one with fewer bytes begins the other.** -/
theorem exists_append_of_byteLength_le {as bs cs ds : List Char} (h : as ++ bs = cs ++ ds)
    (hle : byteLength as ≤ byteLength cs) : ∃ mid, cs = as ++ mid ∧ bs = mid ++ ds := by
  rcases List.append_eq_append_iff.1 h with h | ⟨mid, rfl, rfl⟩
  · exact h
  · rw [byteLength_append] at hle
    have hmid : byteLength mid = 0 := Nat.le_zero.1 (Nat.le_of_add_le_add_left hle)
    obtain rfl := byteLength_eq_zero.1 hmid
    exact ⟨[], by rw [List.append_nil, List.append_nil], rfl⟩

end WindowQuery.Text
