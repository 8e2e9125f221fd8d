import WindowQuery.Proofs.Instant.Order
import WindowQuery.Proofs.Text.Run
import WindowQuery.TimeWindow

/-!
# Instants before the present

An instant may be given as an interval before the present, `now-` and a text
of the interval. Outside leap seconds an instant is its number of nanoseconds
from the epoch and nothing else (`ofSinceEpoch?_eq_some_iff`), so going back is
a subtraction of whole numbers, whatever seconds and nanoseconds are borrowed
on the way (`back?_eq`). It fails only before the earliest instant.

On its way the interval becomes a signed span, which is counted in
milliseconds of 63 bits and could be too short for it. `readSigned` is the
reader with that step in it, for which there is no answer where the span does
not hold the interval. It always does (`readSigned_eq`): an interval has 64
bits of nanoseconds, and that is less than six hundred years.
-/

namespace WindowQuery

/-! ## Signed spans -/

namespace Interval

/-- The nanoseconds of the longest signed span. -/
def longestSpan : Nat := (Nat.pow 2 63 - 1) * 1000000

/-- **An interval that a signed span holds.** -/
structure Signed extends Interval where
  /-- It is no longer than the longest of them. -/
  nanos_le : nanos ≤ longestSpan

/-- The signed span of an interval, if one holds it. -/
def signed? (i : Interval) : Option Signed :=
  if h : i.nanos ≤ longestSpan then some ⟨i, h⟩ else none

/-- **Every interval fits a signed span.** -/
theorem signed?_eq_some (i : Interval) : ∃ s, signed? i = some s ∧ s.toInterval = i := by
  have hlong : UInt64.size ≤ longestSpan := by decide
  have hle : i.nanos ≤ longestSpan := Nat.le_trans (Nat.le_of_lt i.nanos_lt) hlong
  exact ⟨⟨i, hle⟩, dif_pos hle, rfl⟩

end Interval

namespace Instant

variable {now t : Instant}

/-- The earliest instant. -/
def earliest : Instant := ⟨firstSecond, 0, by decide⟩

/-! ## Instants as numbers -/

theorem isLeap_eq_false_iff : t.isLeap = false ↔ t.nanos < nanosPerSecond := by
  rw [isLeap, decide_eq_false_iff_not, Nat.not_le]

/-- **The instant with a number** is the one that is so many nanoseconds from the
epoch and in no leap second. -/
theorem ofSinceEpoch?_eq_some_iff {n : Int} :
    ofSinceEpoch? n = some t ↔ t.isLeap = false ∧ t.sinceEpoch = n := by
  rw [ofSinceEpoch?, mk?_eq_some_iff, isLeap_eq_false_iff]
  unfold sinceEpoch nanosPerSecond
  omega

/-- **Up to the present there is none** just if it would be before the earliest. -/
theorem ofSinceEpoch?_eq_none_iff {n : Int} (h : n ≤ now.sinceEpoch) (hnow : now.isLeap = false) :
    ofSinceEpoch? n = none ↔ n < earliest.sinceEpoch := by
  obtain ⟨-, hlast, -⟩ := now.valid
  rw [isLeap_eq_false_iff] at hnow
  have hearliest : earliest.sinceEpoch = firstSecond * nanosPerSecond + 0 := rfl
  rw [ofSinceEpoch?, mk?_eq_none_iff, hearliest]
  unfold sinceEpoch at h
  unfold Valid firstSecond lastSecond nanosPerSecond at *
  omega

/-- **Going back is subtraction** outside leap seconds. -/
theorem back?_eq (hnow : now.isLeap = false) (i : Interval) :
    now.back? i = ofSinceEpoch? (now.sinceEpoch - i.nanos) := by
  have hnanos := isLeap_eq_false_iff.1 hnow
  unfold back? ofSinceEpoch?
  dsimp only
  rw [hnow, if_neg (fun h => Bool.false_ne_true h.1), if_neg Bool.false_ne_true]
  dsimp only
  unfold sinceEpoch
  -- a second is borrowed if the nanoseconds do not suffice
  split
  · refine congrArg₂ mk? ?_ ?_ <;> unfold nanosPerSecond at * <;> omega
  · refine congrArg₂ mk? ?_ ?_ <;> unfold nanosPerSecond at * <;> omega

/-- Outside leap seconds the order is that of the numbers. -/
theorem le_of_sinceEpoch_le (ht : t.isLeap = false) (hnow : now.isLeap = false)
    (h : t.sinceEpoch ≤ now.sinceEpoch) : t ≤ now := by
  rw [isLeap_eq_false_iff] at ht hnow
  show t.seconds < now.seconds ∨ t.seconds = now.seconds ∧ t.nanos ≤ now.nanos
  unfold sinceEpoch at h
  unfold nanosPerSecond at *
  omega

/-! ## Reading -/

/-- What stands in front of an interval before the present. -/
def nowMinus : List Char := ['n', 'o', 'w', '-']

/-- **Only the end of the interval is trimmed** where the text is. -/
theorem exists_trim_nowMinus (d : List Char) :
    ∃ d', Text.trim (nowMinus ++ d) = nowMinus ++ d' ∧ Text.trim d' = Text.trim d := by
  obtain ⟨d', blanks, rfl, hends, hblanks⟩ := Text.exists_eq_append_run Text.isBlank d
  have hnone : ∀ c ∈ ([] : List Char), Text.isBlank c = true := fun _ hc => by cases hc
  refine ⟨d', ?_, (Text.stripEnds_append hnone hblanks d').symm⟩
  have htrim : Text.trim (nowMinus ++ (d' ++ blanks)) = Text.trim (nowMinus ++ d') := by
    rw [← List.append_assoc]
    exact Text.stripEnds_append hnone hblanks (nowMinus ++ d')
  have hback : Text.EndsRun Text.isBlank (nowMinus ++ d').reverse := by
    rw [List.reverse_append]
    cases hd' : d'.reverse with
    | nil => exact Text.endsRun_cons.2 (by decide)
    | cons c cs => exact Text.endsRun_cons.2 (Text.endsRun_cons.1 (hd' ▸ hends))
  rw [htrim]
  exact Text.stripEnds_eq_self_iff.2 ⟨Text.endsRun_cons.2 (by decide), hback⟩

theorem map_toLower_nowMinus_ne (d : List Char) :
    (nowMinus ++ d).map Char.toLower ≠ ['n', 'o', 'w'] := by
  intro h
  have hlength := congrArg List.length h
  simp [nowMinus] at hlength

/-- **An interval before the present is gone back.** -/
theorem read?_nowMinus (now : Instant) (d : List Char) :
    read? now (nowMinus ++ d) = (Interval.read? d).bind now.back? := by
  obtain ⟨d', htrim, hd'⟩ := exists_trim_nowMinus d
  have hread : Interval.read? d' = Interval.read? d := by
    rw [Interval.read?, Interval.read?, hd']
  unfold read?
  dsimp only
  rw [htrim, if_neg (map_toLower_nowMinus_ne d'), ← hread]
  rfl

/-! ## Going back by a signed span -/

/-- What goes wrong where an interval becomes a signed span. -/
inductive SpanError where
  /-- The interval is longer than any of them. -/
  | tooLong

/-- Goes back by a text of an interval, by way of a signed span. -/
def backSigned (now : Instant) (d : List Char) : Except SpanError (Option Instant) :=
  match Interval.read? d with
  | none => .ok none
  | some i =>
    match i.signed? with
    | none => .error .tooLong
    | some span => .ok (now.back? span.toInterval)

theorem backSigned_eq (now : Instant) (d : List Char) :
    backSigned now d = .ok ((Interval.read? d).bind now.back?) := by
  unfold backSigned
  cases Interval.read? d with
  | none => rfl
  | some i =>
    obtain ⟨span, hspan, rfl⟩ := i.signed?_eq_some
    dsimp only
    rw [hspan]
    rfl

/-- **Reads an instant relative to the present, by way of a signed span.** -/
def readSigned (now : Instant) (text : List Char) : Except SpanError (Option Instant) :=
  let cs := Text.trim text
  if cs.map Char.toLower = ['n', 'o', 'w'] then .ok (some now)
  else match cs with
    | 'n' :: 'o' :: 'w' :: '-' :: d => backSigned now d
    | _ => .ok (readAbsolute? cs)

/-- **That way is open to every text.** -/
theorem readSigned_eq (now : Instant) (text : List Char) :
    readSigned now text = .ok (read? now text) := by
  unfold readSigned read?
  simp only [backSigned_eq]
  grind

/-! ## What is read -/

/-- **An interval before the present is exactly that.** Where the present lies in no
leap second, `now-` and any text of an interval is read as the instant, in no leap
second either, that is as many nanoseconds earlier as the interval has; there is
none just if that would be before the earliest instant. The signed span on the way
holds the interval, and a window from what is read to the present has its ends in
order. -/
theorem read_ago {now : Instant} (hnow : now.isLeap = false) {d : List Char} {i : Interval}
    (hd : Interval.read? d = some i) :
    (∀ t, read? now (nowMinus ++ d) = some t ↔
        t.isLeap = false ∧ t.sinceEpoch = now.sinceEpoch - i.nanos) ∧
      (read? now (nowMinus ++ d) = none ↔ now.sinceEpoch - i.nanos < earliest.sinceEpoch) ∧
      ((∃ span, i.signed? = some span ∧ span.nanos = i.nanos) ∧
        readSigned now (nowMinus ++ d) = .ok (read? now (nowMinus ++ d))) ∧
      ∀ t, read? now (nowMinus ++ d) = some t → TimeWindow.mk? t now = some ⟨t, now⟩ := by
  have hread : read? now (nowMinus ++ d) = ofSinceEpoch? (now.sinceEpoch - i.nanos) := by
    rw [read?_nowMinus, hd, Option.bind_some, back?_eq hnow]
  have hearlier : now.sinceEpoch - i.nanos ≤ now.sinceEpoch := by omega
  refine ⟨fun t => ?_, ?_, ⟨?_, readSigned_eq now _⟩, fun t ht => ?_⟩
  · rw [hread, ofSinceEpoch?_eq_some_iff]
  · rw [hread, ofSinceEpoch?_eq_none_iff hearlier hnow]
  · obtain ⟨span, hspan, heq⟩ := i.signed?_eq_some
    exact ⟨span, hspan, congrArg Interval.nanos heq⟩
  · rw [hread, ofSinceEpoch?_eq_some_iff] at ht
    exact if_pos (le_of_sinceEpoch_le ht.1 hnow (Int.le_trans (Int.le_of_eq ht.2) hearlier))

/-- One and a half seconds and a nanosecond, with blanks around, before a quarter of a
second after the epoch; and as long before the first quarter of a second that there
is. -/
theorem read_ago_borrowed :
    read? ⟨0, 250000000, by decide⟩ (nowMinus ++ " 1.5s1ns\n".toList)
        = some ⟨-2, 749999999, by decide⟩ ∧
      read? ⟨firstSecond, 250000000, by decide⟩ (nowMinus ++ " 1.5s1ns\n".toList) = none := by
  have hd : Interval.read? " 1.5s1ns\n".toList
      = some ⟨1500000001, by decide, by decide⟩ := by
    decide +kernel
  have hfirst : isLeap ⟨firstSecond, 250000000, by decide⟩ = false := by decide
  exact ⟨((read_ago (by decide) hd).1 _).2 (by decide),
    (read_ago hfirst hd).2.1.2 (by decide)⟩

end Instant

end WindowQuery
