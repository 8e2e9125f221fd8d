import WindowQuery.Proofs.Text.Slice

/-!
# Spans of a text and what comes in their place

To replace spans of a text is to keep what lies between them. `replace?`
says it with slices of the text alone: what is kept is cut out of the text
by its offsets, so nothing outside the spans can change. Where a span
begins or ends within a character, or before the one in front of it has
ended, there is nothing to keep and no result.
-/

namespace WindowQuery.Text

/-- **A span of a text and what comes in its place.** -/
structure Edit where
  /-- Where the span begins. -/
  start : Nat
  /-- Where it ends. -/
  stop : Nat
  /-- What comes in its place. -/
  replacement : List Char

/-- **A text with its spans replaced**, from an offset on. -/
def replace? (cs : List Char) (offset : Nat) : List Edit → Option (List Char)
  | [] => slice? cs offset (byteLength cs)
  | e :: rest =>
    (slice? cs offset e.start).bind (fun kept =>
      (replace? cs e.stop rest).map (fun more => kept ++ (e.replacement ++ more)))

theorem slice?_self {before : List Char} {offset : Nat} (h : byteLength before = offset)
    (after : List Char) : slice? (before ++ after) offset offset = some [] :=
  slice?_eq_some_iff.2 ⟨before, after, rfl, h, Nat.add_zero offset⟩

/-- **Two slices that meet are one.** -/
theorem slice?_append {cs as bs : List Char} {start mid stop : Nat}
    (ha : slice? cs start mid = some as) (hb : slice? cs mid stop = some bs) :
    slice? cs start stop = some (as ++ bs) := by
  obtain ⟨before, after, hcs, hstart, hmid⟩ := slice?_eq_some_iff.1 ha
  obtain ⟨before', after', hcs', hmid', hstop⟩ := slice?_eq_some_iff.1 hb
  -- Both slices cut the text at the offset where they meet, and it is the same cut.
  have hcut : cutAt? mid cs = some (before ++ as, after) :=
    cutAt?_eq_some_iff.2 ⟨by rw [hcs, List.append_assoc], by rw [byteLength_append, hstart, hmid]⟩
  have hcut' : cutAt? mid cs = some (before', bs ++ after') :=
    cutAt?_eq_some_iff.2 ⟨hcs', hmid'⟩
  obtain ⟨-, rfl⟩ := Prod.mk.inj (Option.some.inj (hcut.symm.trans hcut'))
  refine slice?_eq_some_iff.2 ⟨before, after', ?_, hstart, ?_⟩
  · rw [hcs, List.append_assoc]
  · rw [byteLength_append, ← Nat.add_assoc, hmid, hstop]

/-- What lies before the place where replacing begins is kept when it begins
earlier. -/
theorem replace?_of_slice? {cs kept out : List Char} {offset next : Nat} {edits : List Edit}
    (hkept : slice? cs offset next = some kept) (hout : replace? cs next edits = some out) :
    replace? cs offset edits = some (kept ++ out) := by
  cases edits with
  | nil => exact slice?_append hkept hout
  | cons e rest =>
    obtain ⟨gap, hgap, hrest⟩ := Option.bind_eq_some_iff.1 hout
    obtain ⟨more, hmore, rfl⟩ := Option.map_eq_some_iff.1 hrest
    rw [replace?, slice?_append hkept hgap, Option.bind_some, hmore, Option.map_some,
      List.append_assoc]

end WindowQuery.Text
