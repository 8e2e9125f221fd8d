import Mathlib.Order.Bounds.Basic
import WindowQuery.Proofs.Frame.Access

/-!
# The first row that breaks a rule

A long frame has a wide form if every row has a time, the times do not go
back, and no two rows have both a time and a tuple of factors. `Orderly`
says this of the first rows of a frame, by the rows alone; `Fault` says
what is wrong with a row, where a missing time counts before the order and
the order before a repetition.

The pass over the rows knows less than these speak of. It compares a time
with the last distinct one only, and instead of times and tuples it
compares slots and series. That this comes to the same is what `Placed`
is for: the last distinct time is the latest of all (`Placed.not_lt`), and
equal slots are equal times. So the pass stops at the first row up to which
the rows are no longer in order, and with the fault of that row
(`placeRows_outcome`).
-/

namespace WindowQuery

namespace Pivot

/-- **Whether the first rows are in order**: so many of them, by their times and
their keys. -/
structure Orderly (keyOf : Nat → Key) (times : List (Option Instant)) (n : Nat) : Prop where
  /-- Every one of them has a time. -/
  timed : ∀ r < n, ∃ t, times[r]? = some (some t)
  /-- None of them is earlier than one before it. -/
  sorted : ∀ r r' t t', r < r' → r' < n → times[r]? = some (some t) →
    times[r']? = some (some t') → ¬t' < t
  /-- No two of them have both time and key. -/
  distinct : ∀ r r', r < r' → r' < n → times[r]? = times[r']? → keyOf r ≠ keyOf r'

/-- **What is wrong with a row**, by the rows before it. -/
inductive Fault (keyOf : Nat → Key) (times : List (Option Instant)) (r : Nat) :
    ReshapeError → Prop where
  /-- It has no time. -/
  | nullTime : times[r]? = some none → Fault keyOf times r (.nullTime r)
  /-- It is earlier than a row before it. -/
  | unsorted (t : Instant) : times[r]? = some (some t) →
      (∃ r' < r, ∃ t', times[r']? = some (some t') ∧ t < t') → Fault keyOf times r (.unsorted r)
  /-- It is not, but has the time and the key of a row before it. -/
  | duplicate (t : Instant) : times[r]? = some (some t) →
      (∀ r' < r, ∀ t', times[r']? = some (some t') → ¬t < t') →
      (∃ r' < r, times[r']? = some (some t) ∧ keyOf r' = keyOf r) →
      Fault keyOf times r (.duplicate (keyOf r) r)

section

variable {keyOf : Nat → Key} {times : List (Option Instant)} {n r : Nat}

theorem orderly_zero (keyOf : Nat → Key) (times : List (Option Instant)) :
    Orderly keyOf times 0 where
  timed := fun r hr => absurd hr (Nat.not_lt_zero r)
  sorted := fun _ r' _ _ _ hr' => absurd hr' (Nat.not_lt_zero r')
  distinct := fun _ r' _ hr' => absurd hr' (Nat.not_lt_zero r')

theorem Orderly.mono (h : Orderly keyOf times n) {m : Nat} (hm : m ≤ n) :
    Orderly keyOf times m where
  timed := fun r hr => h.timed r (Nat.lt_of_lt_of_le hr hm)
  sorted := fun r r' t t' hlt hr' => h.sorted r r' t t' hlt (Nat.lt_of_lt_of_le hr' hm)
  distinct := fun r r' hlt hr' => h.distinct r r' hlt (Nat.lt_of_lt_of_le hr' hm)

/-- **One row more** in order: its time is there, is not before that of an earlier
row, and where an earlier row has the same time the tuples differ. -/
theorem Orderly.succ (h : Orderly keyOf times n) {t : Instant} (ht : times[n]? = some (some t))
    (hsorted : ∀ r < n, ∀ s, times[r]? = some (some s) → ¬t < s)
    (hnew : ∀ r < n, times[r]? = some (some t) → keyOf r ≠ keyOf n) :
    Orderly keyOf times (n + 1) where
  timed := fun r hr => by
    rcases Nat.lt_succ_iff_lt_or_eq.1 hr with hr | rfl
    · exact h.timed r hr
    · exact ⟨t, ht⟩
  sorted := fun r r' s s' hlt hr' hs hs' => by
    rcases Nat.lt_succ_iff_lt_or_eq.1 hr' with hr' | rfl
    · exact h.sorted r r' s s' hlt hr' hs hs'
    · obtain rfl : t = s' := Option.some.inj (Option.some.inj (ht.symm.trans hs'))
      exact hsorted r hlt s hs
  distinct := fun r r' hlt hr' he => by
    rcases Nat.lt_succ_iff_lt_or_eq.1 hr' with hr' | rfl
    · exact h.distinct r r' hlt hr' he
    · exact hnew r hlt (he.trans ht)

/-- **A row with a fault is not in order.** -/
theorem Fault.not_orderly {e : ReshapeError} (h : Fault keyOf times r e) :
    ¬Orderly keyOf times (r + 1) := by
  intro ho
  cases h with
  | nullTime hnone =>
    obtain ⟨t, ht⟩ := ho.timed r (Nat.lt_succ_self r)
    rw [hnone] at ht
    cases ht
  | unsorted t ht hlater =>
    obtain ⟨r', hr', t', ht', hlt⟩ := hlater
    exact ho.sorted r' r t' t hr' (Nat.lt_succ_self r) ht' ht hlt
  | duplicate t ht hsorted hrepeat =>
    obtain ⟨r', hr', ht', hkey⟩ := hrepeat
    exact ho.distinct r' r hr' (Nat.lt_succ_self r) (ht'.trans ht.symm) hkey

/-- **A row has one fault**: the rules are looked at in turn. -/
theorem Fault.unique {e e' : ReshapeError} (h : Fault keyOf times r e)
    (h' : Fault keyOf times r e') : e = e' := by
  have htime : ∀ t, times[r]? = some (some t) → times[r]? ≠ some none := fun t ht hnone => by
    rw [ht] at hnone
    cases hnone
  have hsame : ∀ t t', times[r]? = some (some t) → times[r]? = some (some t') → t = t' :=
    fun t t' ht ht' => Option.some.inj (Option.some.inj (ht.symm.trans ht'))
  -- each fault excludes the ones before it in the order of the checks
  cases h with
  | nullTime hnone =>
    cases h' with
    | nullTime _ => rfl
    | unsorted t ht _ => exact absurd hnone (htime t ht)
    | duplicate t ht _ _ => exact absurd hnone (htime t ht)
  | unsorted t ht hlater =>
    cases h' with
    | nullTime hnone => exact absurd hnone (htime t ht)
    | unsorted _ _ _ => rfl
    | duplicate t' ht' hsorted _ =>
      obtain ⟨r', hr', s, hs, hlt⟩ := hlater
      obtain rfl := hsame t t' ht ht'
      exact absurd hlt (hsorted r' hr' s hs)
  | duplicate t ht hsorted _ =>
    cases h' with
    | nullTime hnone => exact absurd hnone (htime t ht)
    | unsorted t' ht' hlater =>
      obtain ⟨r', hr', s, hs, hlt⟩ := hlater
      obtain rfl := hsame t t' ht ht'
      exact absurd hlt (hsorted r' hr' s hs)
    | duplicate _ _ _ _ => rfl

/-- **The first row that is not in order** is one with a fault, all rows before
it being in order. -/
theorem isLeast_not_orderly (h : Orderly keyOf times r) {e : ReshapeError}
    (hfault : Fault keyOf times r e) : IsLeast {r | ¬Orderly keyOf times (r + 1)} r :=
  ⟨hfault.not_orderly, fun _ hr' => Nat.not_lt.1 fun hlt => hr' (h.mono hlt)⟩

end

/-! ## The pass over the rows -/

theorem not_last_lt {times : List Instant} (h : times.Pairwise (· < ·)) {s last : Instant}
    (hlast : times.getLast? = some last) (hs : s ∈ times) : ¬last < s := by
  obtain ⟨earlier, rfl⟩ := List.getLast?_eq_some_iff.1 hlast
  rcases List.mem_append.1 hs with hs | hs
  · intro hlt
    have hbefore := (List.pairwise_append.1 h).2.2 s hs last (List.mem_singleton_self last)
    exact Instant.lt_irrefl s (Instant.lt_trans hbefore hlt)
  · rw [List.mem_singleton.1 hs]
    exact Instant.lt_irrefl last

section

variable {keyOf : Nat → Key} {rowTimes : List Instant} {p : Progress}

/-- **A time that is not before the last one is before none.** -/
theorem Placed.not_lt (h : Placed keyOf rowTimes p) {t : Instant}
    (hlast : ∀ last ∈ rowTimes.getLast?, ¬t < last) : ∀ s ∈ rowTimes, ¬t < s := by
  intro s hs hlt
  cases hrows : rowTimes.getLast? with
  | none =>
    rw [List.getLast?_eq_none_iff.1 hrows] at hs
    cases hs
  | some last =>
    have hle := not_last_lt h.ascending (h.last.trans hrows) ((h.mem_times s).2 hs)
    by_cases he : last = s
    · exact hlast last hrows (he ▸ hlt)
    · exact hlast last hrows (Instant.lt_trans hlt (Instant.lt_of_not_lt_of_ne hle he))

theorem getElem?_map_some_append {r : Nat} (hr : r < rowTimes.length)
    (rest : List (Option Instant)) (t : Instant) :
    (rowTimes.map some ++ rest)[r]? = some (some t) ↔ rowTimes[r]? = some t := by
  rw [List.getElem?_append_left (by rwa [List.length_map]), List.getElem?_map]
  simp

/-- **One row more**: it is placed if it is in order, and refused with its fault
if not. -/
theorem Placed.placeRow_outcome (h : Placed keyOf rowTimes p) {time : Option Instant}
    {rest : List (Option Instant)}
    (ho : Orderly keyOf (rowTimes.map some ++ time :: rest) rowTimes.length) :
    (∃ t p', time = some t ∧ Pivot.placeRow keyOf p rowTimes.length time = .ok p' ∧
        Placed keyOf (rowTimes ++ [t]) p' ∧
        Orderly keyOf (rowTimes.map some ++ time :: rest) (rowTimes.length + 1)) ∨
      ∃ e, Pivot.placeRow keyOf p rowTimes.length time = .error e ∧
        Fault keyOf (rowTimes.map some ++ time :: rest) rowTimes.length e := by
  have hat : (rowTimes.map some ++ time :: rest)[rowTimes.length]? = some time := by
    rw [List.getElem?_append_right (by rw [List.length_map]), List.length_map, Nat.sub_self]
    rfl
  -- the pass compares with the last time and with the placements, the rules with all rows before
  rcases h.placeRow time with ⟨rfl, he⟩ |
    ⟨t, rfl, ⟨⟨last, hlast, hlt⟩, he⟩ | ⟨hlast, ⟨r, hr, hkey⟩, he⟩ | ⟨hlast, hnew, p', he, hp'⟩⟩
  · exact .inr ⟨_, he, .nullTime hat⟩
  · obtain ⟨r, hr⟩ := List.mem_iff_getElem?.1 (List.mem_of_getLast? hlast)
    have hlt' : r < rowTimes.length := (List.getElem?_eq_some_iff.1 hr).1
    exact .inr ⟨_, he, .unsorted t hat
      ⟨r, hlt', last, (getElem?_map_some_append hlt' _ last).2 hr, hlt⟩⟩
  · have hlt' : r < rowTimes.length := (List.getElem?_eq_some_iff.1 hr).1
    refine .inr ⟨_, he, .duplicate t hat (fun r' hr' s hs => ?_)
      ⟨r, hlt', (getElem?_map_some_append hlt' _ t).2 hr, hkey⟩⟩
    exact h.not_lt hlast s (List.mem_of_getElem? ((getElem?_map_some_append hr' _ s).1 hs))
  · refine .inl ⟨t, p', rfl, he, hp', ho.succ hat (fun r hr s hs => ?_) (fun r hr hs hkey => ?_)⟩
    · exact h.not_lt hlast s (List.mem_of_getElem? ((getElem?_map_some_append hr _ s).1 hs))
    · exact hnew ⟨r, (getElem?_map_some_append hr _ t).1 hs, hkey⟩

/-- **All rows**: the pass places them if they are in order, and stops at the
first one that is not. -/
theorem Placed.placeRows_outcome (h : Placed keyOf rowTimes p) {rest : List (Option Instant)}
    (ho : Orderly keyOf (rowTimes.map some ++ rest) rowTimes.length) :
    (∃ p', Pivot.placeRows keyOf p rowTimes.length rest = .ok p' ∧
        Orderly keyOf (rowTimes.map some ++ rest) (rowTimes.map some ++ rest).length) ∨
      ∃ r e, Pivot.placeRows keyOf p rowTimes.length rest = .error e ∧
        r < (rowTimes.map some ++ rest).length ∧ Orderly keyOf (rowTimes.map some ++ rest) r ∧
        Fault keyOf (rowTimes.map some ++ rest) r e := by
  induction rest generalizing rowTimes p with
  | nil =>
    refine .inl ⟨p, rfl, ?_⟩
    rwa [List.append_nil, List.length_map, ← List.append_nil (rowTimes.map some)]
  | cons time rest ih =>
    rw [Pivot.placeRows]
    rcases h.placeRow_outcome ho with ⟨t, p', rfl, he, hp', ho'⟩ | ⟨e, he, hfault⟩
    · -- the row is placed, and one more of the times is known to be there
      have hlength : rowTimes.length + 1 = (rowTimes ++ [t]).length := by
        rw [List.length_append, List.length_singleton]
      have htimes : rowTimes.map some ++ some t :: rest = (rowTimes ++ [t]).map some ++ rest := by
        rw [List.map_append, List.append_assoc]
        rfl
      rw [he]
      rw [hlength, htimes] at ho'
      have hrest := ih hp' ho'
      rwa [← htimes, ← hlength] at hrest
    · refine .inr ⟨rowTimes.length, e, ?_, ?_, ho, hfault⟩
      · rw [he]
        rfl
      · rw [List.length_append, List.length_map, List.length_cons]
        omega

end

/-- **The pass over the rows of a frame.** -/
theorem placeRows_outcome (keyOf : Nat → Key) (times : List (Option Instant)) :
    (∃ p, placeRows keyOf ⟨#[], #[]⟩ 0 times = .ok p ∧ Orderly keyOf times times.length) ∨
      ∃ r e, placeRows keyOf ⟨#[], #[]⟩ 0 times = .error e ∧ r < times.length ∧
        Orderly keyOf times r ∧ Fault keyOf times r e :=
  (Placed.start keyOf).placeRows_outcome (orderly_zero keyOf times)

/-! ## Long frames -/

theorem exists_timeColumn_of_long {f : Frame} (h : (Schema.infer f).kind = .long) :
    ∃ timeColumn, f.timeColumn? = some timeColumn := by
  rw [← timeColumn?_eq]
  cases htime : (Schema.infer f).time with
  | none =>
    have hnot : (Schema.infer f).kind = .not := by simp [Schema.kind, htime]
    rw [hnot] at h
    cases h
  | some i =>
    have hi : i < f.columns.length := (List.findIdx?_eq_some_iff_getElem.1 htime).1
    exact ⟨f.columns[i], List.getElem?_eq_getElem hi⟩

/-- Where the columns are equally long, every row has its place among the
times. -/
theorem length_times {f : Frame} (h : f.Aligned) {timeColumn : Column}
    (htime : f.timeColumn? = some timeColumn) : f.times.length = f.rowCount := by
  rw [length_of_times? (times?_eq_ok htime)]
  exact h timeColumn (List.mem_of_find?_eq_some htime)

/-- The pivot of a long frame is what its rows allow. -/
theorem shape_eq_of_long {f : Frame} (hrows : f.rowCount ≠ 0)
    (hlong : (Schema.infer f).kind = .long) :
    f.shape .timeSeries = (toWide f (Schema.infer f)).mapError .reshape := by
  simp only [Frame.shape, hlong, if_neg hrows]

/-- **When a long frame has a wide form**, and what is reported when it has none.
It has one just if its rows are in order: each has a time, the times do not
go back, and no two rows have both time and tuple. Otherwise the least row
up to which they are not in order is reported, with its fault. In neither
case is anything read or written beyond an end. -/
theorem shape_of_long {f : Frame} (haligned : f.Aligned) (hrows : f.rowCount ≠ 0)
    (hlong : (Schema.infer f).kind = .long) :
    ((∃ g, f.shape .timeSeries = .ok g) ↔ Orderly f.tupleAt f.times f.rowCount) ∧
    (∀ e, f.shape .timeSeries = .error e ↔
      ∃ r fault, r < f.rowCount ∧ IsLeast {r | ¬Orderly f.tupleAt f.times (r + 1)} r ∧
        Fault f.tupleAt f.times r fault ∧ e = .reshape fault) ∧
    toWideChecked f (Schema.infer f) = (toWide f (Schema.infer f)).mapError .refused := by
  obtain ⟨timeColumn, htime⟩ := exists_timeColumn_of_long hlong
  rw [shape_eq_of_long hrows hlong, ← length_times haligned htime]
  rcases placeRows_outcome f.tupleAt f.times with ⟨p, hp, ho⟩ | ⟨r, fault, hp, hr, ho, hfault⟩
  · refine ⟨?_, fun e => ?_, toWideChecked_infer haligned⟩
    · rw [toWide_infer_eq htime, hp]
      exact ⟨fun _ => ho, fun _ => ⟨_, rfl⟩⟩
    · rw [toWide_infer_eq htime, hp]
      refine ⟨fun he => (by cases he), ?_⟩
      rintro ⟨r, fault, hr, -, hfault, -⟩
      exact absurd (ho.mono hr) hfault.not_orderly
  · have hleast := isLeast_not_orderly ho hfault
    refine ⟨?_, fun e => ?_, toWideChecked_infer haligned⟩
    · rw [toWide_infer_eq htime, hp]
      refine ⟨fun hok => ?_, fun hall => absurd (hall.mono hr) hfault.not_orderly⟩
      obtain ⟨g, hg⟩ := hok
      cases hg
    · rw [toWide_infer_eq htime, hp]
      refine ⟨fun he => ⟨r, fault, hr, hleast, hfault, (Except.error.inj he).symm⟩, ?_⟩
      rintro ⟨r', fault', -, hleast', hfault', rfl⟩
      -- there is only one least row, and only one fault in it
      obtain rfl := hleast.unique hleast'
      rw [hfault.unique hfault']
      rfl

/-- Four rows: the third repeats the time and the missing factor of the second,
and the last goes back in time. -/
def repeatedRow : Frame :=
  ⟨"hosts", [.ofValues "time" ⟨.time, [some .epoch, some firstMinute, some firstMinute,
      some .epoch]⟩,
    .ofValues "host" ⟨.string, [none, none, none, some ""]⟩,
    .ofValues "up" ⟨.boolean, [some true, some true, some false, none]⟩], some "select"⟩

/-- Of the two faults the repetition is reported, because it comes first. -/
theorem shape_of_long_repeatedRow :
    repeatedRow.Aligned ∧ repeatedRow.rowCount ≠ 0 ∧ (Schema.infer repeatedRow).kind = .long ∧
    repeatedRow.shape .timeSeries = .error (.reshape (.duplicate [none] 2)) ∧
    ∃ r fault, r < repeatedRow.rowCount ∧
      IsLeast {r | ¬Orderly repeatedRow.tupleAt repeatedRow.times (r + 1)} r ∧
      Fault repeatedRow.tupleAt repeatedRow.times r fault ∧
      FrameError.reshape (.duplicate [none] 2) = .reshape fault := by
  have haligned : repeatedRow.Aligned := by
    unfold Frame.Aligned
    decide
  have hrows : repeatedRow.rowCount ≠ 0 := by decide
  have hlong : (Schema.infer repeatedRow).kind = .long := by decide
  have herror : repeatedRow.shape .timeSeries = .error (.reshape (.duplicate [none] 2)) := by
    decide +kernel
  exact ⟨haligned, hrows, hlong, herror, ((shape_of_long haligned hrows hlong).2.1 _).1 herror⟩

end Pivot

end WindowQuery
