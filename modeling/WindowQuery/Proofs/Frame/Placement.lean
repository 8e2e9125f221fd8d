import Mathlib.Data.List.Basic
import Mathlib.Data.List.Induction
import WindowQuery.Frame.Pivot
import WindowQuery.Proofs.Instant.Order

/-!
# Placing the rows of a long frame

One pass over the times of a long frame gathers the distinct times and
gives every row a slot among them. `Placed` is what holds after any number
of rows: the times so far ascend and are those of the rows, every row has
been placed once, at the slot of its own time, and no two rows share both
slot and key.

`Placed.placeRow` says all that one more row can do. It is refused because
it has no time, because its time is before that of the row above, or
because an earlier row has both its time and its key; otherwise the
invariant holds of one row more. None of the three conditions speaks of
slots.
-/

namespace WindowQuery

namespace Pivot

/-! ## The times so far -/

/-- The distinct times when the time of one more row is known. -/
def withTime (times : List Instant) (t : Instant) : List Instant :=
  if times.getLast? = some t then times else times ++ [t]

@[simp] theorem getLast?_withTime (times : List Instant) (t : Instant) :
    (withTime times t).getLast? = some t := by
  unfold withTime
  split
  · next h => exact h
  · exact List.getLast?_concat

theorem prefix_withTime (times : List Instant) (t : Instant) : times <+: withTime times t := by
  unfold withTime
  split
  · exact List.prefix_rfl
  · exact List.prefix_append _ _

theorem mem_withTime {times : List Instant} {s t : Instant} :
    s ∈ withTime times t ↔ s ∈ times ∨ s = t := by
  unfold withTime
  split
  · next h =>
    have hmem : t ∈ times := List.mem_of_getLast? h
    exact ⟨Or.inl, fun hs => hs.elim id (fun hs => hs ▸ hmem)⟩
  · rw [List.mem_append, List.mem_singleton]

/-- **The times go on ascending** under a time that is not before the last
one. -/
theorem ascending_withTime {times : List Instant} {t : Instant} (h : times.Pairwise (· < ·))
    (hlast : ∀ last ∈ times.getLast?, ¬t < last) : (withTime times t).Pairwise (· < ·) := by
  unfold withTime
  split
  · exact h
  · next hne =>
    refine List.pairwise_append.2 ⟨h, List.pairwise_singleton _ _, fun s hs s' hs' => ?_⟩
    obtain rfl := List.mem_singleton.1 hs'
    cases htimes : times.getLast? with
    | none => rw [List.getLast?_eq_none_iff.1 htimes] at hs; cases hs
    | some last =>
      have hlt : last < s' := Instant.lt_of_not_lt_of_ne (hlast last htimes)
        (fun he => hne (he ▸ htimes))
      obtain ⟨earlier, rfl⟩ := List.getLast?_eq_some_iff.1 htimes
      rcases List.mem_append.1 hs with hs | hs
      · exact Instant.lt_trans ((List.pairwise_append.1 h).2.2 s hs last
          (List.mem_singleton_self last)) hlt
      · exact List.mem_singleton.1 hs ▸ hlt

theorem slot_unique {times : List Instant} (h : times.Pairwise (· < ·)) {i j : Nat} {t : Instant}
    (hi : times[i]? = some t) (hj : times[j]? = some t) : i = j := by
  have hnodup : times.Nodup := h.imp (fun hlt => Instant.ne_of_lt hlt)
  obtain ⟨hlt, -⟩ := List.getElem?_eq_some_iff.1 hi
  exact (List.getElem?_inj hlt hnodup).1 (hi.trans hj.symm)

/-! ## The rows so far -/

/-- **What holds after some rows**, which all have times. -/
structure Placed (keyOf : Nat → Key) (rowTimes : List Instant) (p : Progress) : Prop where
  /-- The times ascend. -/
  ascending : p.times.toList.Pairwise (· < ·)
  /-- They are the times of the rows. -/
  mem_times : ∀ t, t ∈ p.times.toList ↔ t ∈ rowTimes
  /-- The last time is that of the last row. -/
  last : p.times.toList.getLast? = rowTimes.getLast?
  /-- Every row has been placed once, in order. -/
  rows : p.placements.toList.map Placement.row = List.range rowTimes.length
  /-- A row has its own key, and its slot holds its own time. -/
  placed : ∀ q ∈ p.placements.toList, q.key = keyOf q.row ∧
    ∃ t, rowTimes[q.row]? = some t ∧ p.times.toList[q.slot]? = some t
  /-- No two rows have both the slot and the key. -/
  distinct : p.placements.toList.Pairwise (fun a b => ¬(a.slot = b.slot ∧ a.key = b.key))

/-- **Whether an earlier row has the time and the key** of the row that comes
next. -/
def Repeats (keyOf : Nat → Key) (rowTimes : List Instant) (t : Instant) : Prop :=
  ∃ r, rowTimes[r]? = some t ∧ keyOf r = keyOf rowTimes.length

namespace Placed

variable {keyOf : Nat → Key}

theorem start (keyOf : Nat → Key) : Placed keyOf [] ⟨#[], #[]⟩ where
  ascending := .nil
  mem_times := fun _ => Iff.rfl
  last := rfl
  rows := rfl
  placed := fun q hq => by cases hq
  distinct := .nil

variable {rowTimes : List Instant} {p : Progress}

/-- Every row has a placement. -/
theorem exists_placement (h : Placed keyOf rowTimes p) {r : Nat} (hr : r < rowTimes.length) :
    ∃ q ∈ p.placements.toList, q.row = r := by
  have hmem : r ∈ p.placements.toList.map Placement.row := h.rows ▸ List.mem_range.2 hr
  obtain ⟨q, hq, hrow⟩ := List.mem_map.1 hmem
  exact ⟨q, hq, hrow⟩

theorem slot_withTime (times : List Instant) (t : Instant) :
    (withTime times t)[(withTime times t).length - 1]? = some t := by
  rw [← List.getLast?_eq_getElem?, getLast?_withTime]

/-- A placement keeps its slot when one more time is known. -/
theorem placed_withTime (h : Placed keyOf rowTimes p) (t : Instant) {q : Placement}
    (hq : q ∈ p.placements.toList) :
    ∃ s, rowTimes[q.row]? = some s ∧ (withTime p.times.toList t)[q.slot]? = some s := by
  obtain ⟨-, s, hrow, hslot⟩ := h.placed q hq
  obtain ⟨hlt, -⟩ := List.getElem?_eq_some_iff.1 hslot
  obtain ⟨more, hmore⟩ := prefix_withTime p.times.toList t
  rw [← hmore, List.getElem?_append_left hlt]
  exact ⟨s, hrow, hslot⟩

/-- **Equal slots are equal times**: some placement has the slot and the key
of the next row if and only if an earlier row has its time and its key. -/
theorem repeats_iff (h : Placed keyOf rowTimes p) {t : Instant}
    (hlast : ∀ last ∈ p.times.toList.getLast?, ¬t < last) :
    (∃ q ∈ p.placements.toList, q.slot = (withTime p.times.toList t).length - 1 ∧
        q.key = keyOf rowTimes.length)
      ↔ Repeats keyOf rowTimes t := by
  have hslot := slot_withTime p.times.toList t
  constructor
  · rintro ⟨q, hq, hqslot, hqkey⟩
    obtain ⟨s, hrow, hs⟩ := h.placed_withTime t hq
    rw [hqslot, hslot] at hs
    exact ⟨q.row, hrow.trans hs.symm, (h.placed q hq).1.symm.trans hqkey⟩
  · rintro ⟨r, hr, hkey⟩
    obtain ⟨q, hq, rfl⟩ := h.exists_placement (List.getElem?_eq_some_iff.1 hr).1
    obtain ⟨s, hrow, hs⟩ := h.placed_withTime t hq
    rw [hr] at hrow
    refine ⟨q, hq, ?_, (h.placed q hq).1.trans hkey⟩
    exact slot_unique (ascending_withTime h.ascending hlast) hs (hrow ▸ hslot)

/-- **One more row**, with a time that is not before the last one and is new
for its key. -/
theorem next (h : Placed keyOf rowTimes p) {t : Instant}
    (hlast : ∀ last ∈ p.times.toList.getLast?, ¬t < last)
    (hnew : ¬Repeats keyOf rowTimes t) :
    Placed keyOf (rowTimes ++ [t]) ⟨(withTime p.times.toList t).toArray,
      p.placements.push ⟨(withTime p.times.toList t).length - 1, keyOf rowTimes.length,
        rowTimes.length⟩⟩ where
  ascending := ascending_withTime h.ascending hlast
  mem_times := fun s => by
    rw [List.toList_toArray, mem_withTime, h.mem_times, List.mem_append, List.mem_singleton]
  last := by rw [List.toList_toArray, getLast?_withTime, List.getLast?_concat]
  rows := by
    rw [Array.toList_push, List.map_append, h.rows, List.length_append, List.length_singleton,
      List.range_succ]
    rfl
  placed := fun q hq => by
    rw [Array.toList_push] at hq
    rcases List.mem_append.1 hq with hq | hq
    · obtain ⟨s, hrow, hslot⟩ := h.placed_withTime t hq
      obtain ⟨hlt, -⟩ := List.getElem?_eq_some_iff.1 hrow
      exact ⟨(h.placed q hq).1, s, by rw [List.getElem?_append_left hlt, hrow], hslot⟩
    · obtain rfl := List.mem_singleton.1 hq
      exact ⟨rfl, t, List.getElem?_concat_length, slot_withTime p.times.toList t⟩
  distinct := by
    rw [Array.toList_push]
    refine List.pairwise_append.2 ⟨h.distinct, List.pairwise_singleton _ _, fun q hq q' hq' => ?_⟩
    obtain rfl := List.mem_singleton.1 hq'
    exact fun he => hnew ((h.repeats_iff hlast).1 ⟨q, hq, he.1, he.2⟩)

theorem withTime_toArray (times : Array Instant) (t : Instant) :
    (if times.back? = some t then times else times.push t) = (withTime times.toList t).toArray := by
  unfold withTime
  rw [Array.getLast?_toList]
  split
  · rfl
  · rw [← List.push_toArray]

/-- **All that one more row can do.** It has no time, or a time before the last
one, or the time and the tuple of an earlier row, and is reported as such, in this
order; or it has its place, and the invariant holds with it. Repetitions are
looked for in the last slot only, and because the times ascend that is the only
place for them. -/
theorem placeRow (h : Placed keyOf rowTimes p) (time : Option Instant) :
    (time = none ∧
        placeRow keyOf p rowTimes.length time = .error (.nullTime rowTimes.length)) ∨
      ∃ t, time = some t ∧
        (((∃ last ∈ rowTimes.getLast?, t < last) ∧
            Pivot.placeRow keyOf p rowTimes.length time = .error (.unsorted rowTimes.length)) ∨
          ((∀ last ∈ rowTimes.getLast?, ¬t < last) ∧ Repeats keyOf rowTimes t ∧
            Pivot.placeRow keyOf p rowTimes.length time
              = .error (.duplicate (keyOf rowTimes.length) rowTimes.length)) ∨
          ((∀ last ∈ rowTimes.getLast?, ¬t < last) ∧ ¬Repeats keyOf rowTimes t ∧
            ∃ p', Pivot.placeRow keyOf p rowTimes.length time = .ok p' ∧
              Placed keyOf (rowTimes ++ [t]) p')) := by
  cases time with
  | none => exact .inl ⟨rfl, rfl⟩
  | some t =>
    refine .inr ⟨t, rfl, ?_⟩
    -- what the pass looks at is first put in terms of the rows that it has seen
    have hback : p.times.back? = rowTimes.getLast? := by
      rw [← h.last, Array.getLast?_toList]
    have hunsorted : p.times.back?.any (fun last => decide (t < last)) = true
        ↔ ∃ last ∈ rowTimes.getLast?, t < last := by
      rw [hback]
      cases rowTimes.getLast? with
      | none => simp
      | some last => simp
    have hduplicate : p.placements.any (fun q =>
          q.slot == (withTime p.times.toList t).toArray.size - 1 && q.key == keyOf rowTimes.length)
          = true
        ↔ ∃ q ∈ p.placements.toList, q.slot = (withTime p.times.toList t).length - 1 ∧
            q.key = keyOf rowTimes.length := by
      rw [← Array.any_toList, List.any_eq_true]
      simp only [Bool.and_eq_true, beq_iff_eq, List.size_toArray]
    simp only [Pivot.placeRow, withTime_toArray]
    by_cases hlt : ∃ last ∈ rowTimes.getLast?, t < last
    · exact .inl ⟨hlt, if_pos (hunsorted.2 hlt)⟩
    · have hlast : ∀ last ∈ rowTimes.getLast?, ¬t < last :=
        fun last hlast hl => hlt ⟨last, hlast, hl⟩
      have hlast' : ∀ last ∈ p.times.toList.getLast?, ¬t < last := h.last ▸ hlast
      rw [if_neg (fun hu => hlt (hunsorted.1 hu))]
      by_cases hrepeats : Repeats keyOf rowTimes t
      · exact .inr (.inl ⟨hlast, hrepeats,
          if_pos (hduplicate.2 ((h.repeats_iff hlast').2 hrepeats))⟩)
      · refine .inr (.inr ⟨hlast, hrepeats, _,
          if_neg (fun hd => hrepeats ((h.repeats_iff hlast').1 (hduplicate.1 hd))), ?_⟩)
        exact h.next hlast' hrepeats

/-- **A run over rows**: if all of them are placed, all have times, and the
invariant holds of them. -/
theorem placeRows (h : Placed keyOf rowTimes p) {times : List (Option Instant)} {p' : Progress}
    (hp : Pivot.placeRows keyOf p rowTimes.length times = .ok p') :
    ∃ more : List Instant, times = more.map some ∧ Placed keyOf (rowTimes ++ more) p' := by
  induction times generalizing rowTimes p with
  | nil =>
    obtain rfl := Except.ok.inj hp
    exact ⟨[], rfl, by rwa [List.append_nil]⟩
  | cons time times ih =>
    rw [Pivot.placeRows] at hp
    rcases h.placeRow time with ⟨-, he⟩ | ⟨t, rfl, ⟨-, he⟩ | ⟨-, -, he⟩ | ⟨-, -, p₁, he, h₁⟩⟩
    · rw [he] at hp; cases hp
    · rw [he] at hp; cases hp
    · rw [he] at hp; cases hp
    · rw [he] at hp
      have hlength : rowTimes.length + 1 = (rowTimes ++ [t]).length := by
        rw [List.length_append, List.length_singleton]
      rw [hlength] at hp
      obtain ⟨more, rfl, hmore⟩ := ih h₁ hp
      refine ⟨t :: more, rfl, ?_⟩
      rwa [List.append_assoc, List.singleton_append] at hmore

end Placed

/-! ## The series -/

theorem distinctKeys_concat (keys : List Key) (k : Key) :
    distinctKeys (keys ++ [k])
      = if (distinctKeys keys).contains k then distinctKeys keys else distinctKeys keys ++ [k] := by
  unfold distinctKeys
  rw [List.foldl_append]
  rfl

/-- No key is lost and none is made up. -/
@[simp] theorem mem_distinctKeys {keys : List Key} {k : Key} :
    k ∈ distinctKeys keys ↔ k ∈ keys := by
  induction keys using List.reverseRecOn with
  | nil => exact Iff.rfl
  | append_singleton keys k' ih =>
    rw [distinctKeys_concat, List.mem_append, List.mem_singleton]
    split
    · next h =>
      have hk' : k' ∈ distinctKeys keys := List.contains_iff_mem.1 h
      refine ih.trans ⟨Or.inl, fun hk => hk.elim id (fun hk => ?_)⟩
      -- the key that is left out is there already
      subst hk
      exact ih.1 hk'
    · rw [List.mem_append, List.mem_singleton, ih]

/-- **The keys stand in the order in which they first appear**, so none stands
twice. -/
theorem pairwise_distinctKeys (keys : List Key) :
    (distinctKeys keys).Pairwise (fun a b => keys.idxOf a < keys.idxOf b) := by
  induction keys using List.reverseRecOn with
  | nil => exact .nil
  | append_singleton keys k ih =>
    have hsame : ∀ a ∈ distinctKeys keys, (keys ++ [k]).idxOf a = keys.idxOf a :=
      fun a ha => List.idxOf_append_of_mem (mem_distinctKeys.1 ha)
    have hkeys : (distinctKeys keys).Pairwise
        (fun a b => (keys ++ [k]).idxOf a < (keys ++ [k]).idxOf b) :=
      ih.imp_of_mem (fun ha hb hab => by rwa [hsame _ ha, hsame _ hb])
    rw [distinctKeys_concat]
    split
    · exact hkeys
    · next h =>
      refine List.pairwise_append.2 ⟨hkeys, List.pairwise_singleton _ _, fun a ha b hb => ?_⟩
      obtain rfl := List.mem_singleton.1 hb
      have hnew : b ∉ keys := fun hb => h (List.contains_iff_mem.2 (mem_distinctKeys.2 hb))
      rw [hsame a ha, List.idxOf_append_of_notMem hnew, List.idxOf_cons_self, Nat.add_zero]
      exact List.idxOf_lt_length_of_mem (mem_distinctKeys.1 ha)

theorem nodup_distinctKeys (keys : List Key) : (distinctKeys keys).Nodup :=
  (pairwise_distinctKeys keys).imp (fun hlt => ne_of_apply_ne keys.idxOf (Nat.ne_of_lt hlt))

end Pivot

end WindowQuery
