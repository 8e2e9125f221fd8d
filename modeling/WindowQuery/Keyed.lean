/-!
# Keyed collections

A `Keyed` collection holds one value per key, in the order of the keys.
The order is part of the type, so two collections with the same lookups
are the same collection, and writing one out needs no sorting.
-/

namespace WindowQuery

/-- **One value per key, keys ascending.** -/
structure Keyed (α : Type) where
  /-- The keys with their values. -/
  entries : List (String × α)
  /-- The keys ascend, so none stands twice. -/
  sorted : entries.Pairwise (fun a b => a.1 < b.1)

namespace Keyed

variable {α β : Type}

instance [DecidableEq α] : DecidableEq (Keyed α) := fun a b =>
  decidable_of_iff (a.entries = b.entries)
    ⟨fun h => by cases a; cases b; cases h; rfl, fun h => by rw [h]⟩

/-- The collection without entries. -/
def empty : Keyed α := ⟨[], .nil⟩

instance : Inhabited (Keyed α) := ⟨empty⟩

/-- Puts a value under a key into an ascending list of entries, in the place
of the value that the key had before. -/
def insertEntry (k : String) (v : α) : List (String × α) → List (String × α)
  | [] => [(k, v)]
  | e :: rest =>
    if k < e.1 then (k, v) :: e :: rest
    else if k = e.1 then (k, v) :: rest
    else e :: insertEntry k v rest

theorem mem_insertEntry {k : String} {v : α} {a : String × α} :
    {l : List (String × α)} → a ∈ insertEntry k v l → a = (k, v) ∨ a ∈ l
  | [], h => by simp_all [insertEntry]
  | e :: rest, h => by
    rw [insertEntry] at h
    split at h
    · simpa using h
    split at h
    · rcases List.mem_cons.1 h with h | h
      · exact .inl h
      · exact .inr (List.mem_cons_of_mem _ h)
    · rcases List.mem_cons.1 h with h | h
      · exact .inr (by simp [h])
      · exact (mem_insertEntry h).imp_right (List.mem_cons_of_mem _)

theorem pairwise_insertEntry (k : String) (v : α) :
    {l : List (String × α)} → l.Pairwise (fun a b => a.1 < b.1) →
      (insertEntry k v l).Pairwise (fun a b => a.1 < b.1)
  | [], _ => by simp [insertEntry]
  | e :: rest, h => by
    have hrest := List.pairwise_cons.1 h
    rw [insertEntry]
    split
    · next hlt =>
      exact List.pairwise_cons.2 ⟨fun b hb => (List.mem_cons.1 hb).elim (fun hb => hb ▸ hlt)
        (fun hb => String.lt_trans hlt (hrest.1 b hb)), h⟩
    split
    · next heq => exact List.pairwise_cons.2 ⟨fun b hb => heq ▸ hrest.1 b hb, hrest.2⟩
    · next hlt heq =>
      refine List.pairwise_cons.2 ⟨fun b hb => ?_, pairwise_insertEntry k v hrest.2⟩
      rcases mem_insertEntry hb with rfl | hb
      · have hle : e.1 ≤ k := String.not_lt.1 hlt
        exact Std.lt_of_le_of_ne hle (fun h => heq h.symm)
      · exact hrest.1 b hb

/-- Puts a value under a key, in the place of the one it had. -/
def insert (m : Keyed α) (k : String) (v : α) : Keyed α :=
  ⟨insertEntry k v m.entries, pairwise_insertEntry k v m.sorted⟩

/-- The value under a key. -/
def get? (m : Keyed α) (k : String) : Option α :=
  (m.entries.find? (fun e => e.1 == k)).map Prod.snd

/-- **The last value of a key wins.** -/
def ofList (l : List (String × α)) : Keyed α :=
  l.foldl (fun m e => m.insert e.1 e.2) empty

/-- Whether there is no entry. -/
def isEmpty (m : Keyed α) : Bool := m.entries.isEmpty

/-- The values in the order of their keys. -/
def values (m : Keyed α) : List α := m.entries.map Prod.snd

end Keyed

end WindowQuery
