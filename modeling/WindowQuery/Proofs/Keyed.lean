import Mathlib.Data.List.Dedup
import Mathlib.Data.List.Nodup
import WindowQuery.Keyed

/-!
# Looking up in keyed collections

What an insertion does to every lookup, and from it what a collection that
was built from a list answers: the value of the last entry of the key. So
the collection has one value for each different key of the list
(`perm_keys_ofList`), and all its entries just if no key stands twice there
(`perm_ofList`).
-/

namespace WindowQuery

namespace Keyed

variable {α : Type}

/-- Insertion into the entries, seen by a search for a key. -/
theorem find?_insertEntry (k : String) (v : α) (j : String) (l : List (String × α)) :
    ((insertEntry k v l).find? (fun e => e.1 == j)).map Prod.snd
      = if j = k then some v else (l.find? (fun e => e.1 == j)).map Prod.snd := by
  induction l with
  | nil =>
    by_cases hj : j = k
    · simp [insertEntry, hj]
    · simp [insertEntry, hj, Ne.symm hj]
  | cons e rest ih =>
    rw [insertEntry]
    -- the new entry stands before this one, in its place, or further back
    split
    · by_cases hj : j = k
      · simp [hj]
      · rw [List.find?_cons_of_neg (by simpa using Ne.symm hj), if_neg hj]
    · split
      · next hk =>
        by_cases hj : j = k
        · simp [hj]
        · rw [List.find?_cons_of_neg (by simpa using Ne.symm hj), if_neg hj,
            List.find?_cons_of_neg (by simpa [← hk] using Ne.symm hj)]
      · next hk =>
        simp only [List.find?_cons]
        cases he : e.1 == j with
        | true =>
          have hj : j ≠ k := fun hj => hk (hj ▸ (beq_iff_eq.1 he).symm)
          rw [if_neg hj]
        | false => exact ih

/-- **An insertion answers its own key** and leaves all others alone. -/
theorem get?_insert (m : Keyed α) (k : String) (v : α) (j : String) :
    (m.insert k v).get? j = if j = k then some v else m.get? j :=
  find?_insertEntry k v j m.entries

/-- Insertions one after the other: the last one of a key counts. -/
theorem get?_foldl_insert (l : List (String × α)) (m : Keyed α) (j : String) :
    (l.foldl (fun m e => m.insert e.1 e.2) m).get? j
      = ((l.reverse.find? (fun e => e.1 == j)).map Prod.snd).or (m.get? j) := by
  induction l generalizing m with
  | nil => rfl
  | cons e l ih =>
    rw [List.foldl_cons, ih, get?_insert, List.reverse_cons, List.find?_append]
    cases l.reverse.find? (fun e => e.1 == j) with
    | some found => rfl
    | none =>
      by_cases hj : j = e.1
      · simp [hj]
      · simp [hj, Ne.symm hj]

/-- **A collection from a list** holds the last value of each key. -/
theorem get?_ofList (l : List (String × α)) (j : String) :
    (ofList l).get? j = (l.reverse.find? (fun e => e.1 == j)).map Prod.snd := by
  rw [ofList, get?_foldl_insert]
  exact Option.or_none

/-! ## Keys and entries -/

theorem exists_find?_key_iff {l : List (String × α)} {k : String} :
    (∃ v, (l.find? (fun e => e.1 == k)).map Prod.snd = some v) ↔ k ∈ l.map Prod.fst := by
  rw [List.mem_map]
  constructor
  · rintro ⟨v, hv⟩
    obtain ⟨e, hfind, -⟩ := Option.map_eq_some_iff.1 hv
    exact ⟨e, List.mem_of_find?_eq_some hfind,
      beq_iff_eq.1 (List.find?_some (p := fun e : String × α => e.1 == k) hfind)⟩
  · rintro ⟨e, he, rfl⟩
    cases hfind : l.find? (fun x => x.1 == e.1) with
    | none => exact absurd (beq_self_eq_true e.1) (List.find?_eq_none.1 hfind e he)
    | some x => exact ⟨x.2, rfl⟩

/-- **Where no key stands twice**, a search for a key finds its only entry. -/
theorem find?_key_eq_some_iff {l : List (String × α)} (h : (l.map Prod.fst).Nodup)
    {e : String × α} :
    (l.find? (fun x => x.1 == e.1)).map Prod.snd = some e.2 ↔ e ∈ l := by
  have hfound : ∀ x, l.find? (fun x => x.1 == e.1) = some x → x ∈ l ∧ x.1 = e.1 := fun x hx =>
    ⟨List.mem_of_find?_eq_some hx,
      beq_iff_eq.1 (List.find?_some (p := fun x : String × α => x.1 == e.1) hx)⟩
  constructor
  · intro hv
    obtain ⟨x, hx, hvalue⟩ := Option.map_eq_some_iff.1 hv
    obtain ⟨hmem, hkey⟩ := hfound x hx
    obtain rfl : x = e := Prod.ext hkey hvalue
    exact hmem
  · intro he
    obtain ⟨v, hv⟩ := exists_find?_key_iff.2 (List.mem_map_of_mem (f := Prod.fst) he)
    obtain ⟨x, hx, -⟩ := Option.map_eq_some_iff.1 hv
    obtain ⟨hmem, hkey⟩ := hfound x hx
    rw [hx, List.inj_on_of_nodup_map h hmem he hkey]
    rfl

/-- The keys, ascending. -/
def keys (m : Keyed α) : List String := m.entries.map Prod.fst

theorem nodup_keys (m : Keyed α) : m.keys.Nodup :=
  List.pairwise_map.2 (m.sorted.imp (fun hlt => String.ne_of_lt hlt))

/-- **The value under a key is that of its entry.** -/
theorem mem_entries_iff {m : Keyed α} {e : String × α} :
    e ∈ m.entries ↔ m.get? e.1 = some e.2 :=
  (find?_key_eq_some_iff m.nodup_keys).symm

theorem mem_keys_iff {m : Keyed α} {k : String} : k ∈ m.keys ↔ ∃ v, m.get? k = some v :=
  exists_find?_key_iff.symm

/-- The values that satisfy a condition, counted by their keys. -/
theorem length_filter_values (m : Keyed α) (p : α → Bool) :
    (m.values.filter p).length = (m.keys.filter (fun k => (m.get? k).any p)).length := by
  rw [values, keys, List.filter_map, List.filter_map, List.length_map, List.length_map]
  refine congrArg List.length (List.filter_congr (fun e he => ?_))
  show p e.2 = (m.get? e.1).any p
  rw [mem_entries_iff.1 he, Option.any_some]

/-- **A collection from a list has each of its keys once.** -/
theorem perm_keys_ofList (l : List (String × α)) :
    (ofList l).keys.Perm (l.map Prod.fst).dedup := by
  refine (List.perm_ext_iff_of_nodup (nodup_keys _) (List.nodup_dedup _)).2 (fun k => ?_)
  rw [mem_keys_iff, get?_ofList, exists_find?_key_iff, List.map_reverse, List.mem_reverse,
    List.mem_dedup]

/-- **A collection from a list without a repeated key** has its entries. -/
theorem perm_ofList {l : List (String × α)} (h : (l.map Prod.fst).Nodup) :
    (ofList l).entries.Perm l := by
  have hreverse : (l.reverse.map Prod.fst).Nodup := by
    rwa [List.map_reverse, List.nodup_reverse]
  refine (List.perm_ext_iff_of_nodup (nodup_keys _).of_map h.of_map).2 (fun e => ?_)
  rw [mem_entries_iff, get?_ofList, find?_key_eq_some_iff hreverse, List.mem_reverse]

/-- **A collection is that of its entries**, as they are in order already. -/
theorem ofList_entries (m : Keyed α) : ofList m.entries = m := by
  have hentries : (ofList m.entries).entries = m.entries :=
    (perm_ofList m.nodup_keys).eq_of_pairwise
      (fun a b _ _ hab hba => absurd (String.lt_trans hab hba) (String.lt_irrefl a.1))
      (ofList m.entries).sorted m.sorted
  cases m
  generalize ofList _ = n at hentries ⊢
  cases n
  cases hentries
  rfl

/-- **Values under different keys can be read back**, so the collection tells any
two lists of them apart. -/
theorem ofList_zip_inj {keys : List String} (h : keys.Nodup) {as bs : List α}
    (ha : as.length = keys.length) (hb : bs.length = keys.length) :
    ofList (keys.zip as) = ofList (keys.zip bs) ↔ as = bs := by
  have hread : ∀ {vs : List α}, vs.length = keys.length → ∀ e ∈ keys.zip vs,
      (ofList (keys.zip vs)).get? e.1 = some e.2 := by
    intro vs hv e he
    have hkeys : ((keys.zip vs).map Prod.fst).Nodup := by
      rwa [List.map_fst_zip (Nat.le_of_eq hv.symm)]
    exact mem_entries_iff.1 ((perm_ofList hkeys).mem_iff.2 he)
  refine ⟨fun hsame => ?_, fun hsame => hsame ▸ rfl⟩
  refine List.ext_getElem (ha.trans hb.symm) (fun i hia hib => ?_)
  have hik : i < keys.length := ha ▸ hia
  have hza : (keys[i], as[i]) ∈ keys.zip as :=
    List.mem_iff_getElem.2 ⟨i, by rw [List.length_zip]; omega, List.getElem_zip⟩
  have hzb : (keys[i], bs[i]) ∈ keys.zip bs :=
    List.mem_iff_getElem.2 ⟨i, by rw [List.length_zip]; omega, List.getElem_zip⟩
  have hvalue := hread ha _ hza
  rw [hsame, hread hb _ hzb] at hvalue
  exact (Option.some.inj hvalue).symm

end Keyed

end WindowQuery
