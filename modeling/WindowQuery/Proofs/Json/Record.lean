import WindowQuery.Json.Record
import WindowQuery.Proofs.Json.Reading
import WindowQuery.Proofs.Keyed

/-!
# Records of written documents

A record that is written as an object is read field by field, each found under
its name (`record?_object`, `Record.find?_cons_self`). What stands in the fields is
read back if its parts are: the items of a list, the values of a keyed
collection, which are in the order of their keys, and what may be missing, as
long as nothing that is there is written like what is not.
-/

namespace WindowQuery

namespace Json

variable {α β : Type}

/-- **An object with some of the fields of a record, in order, gives them.** -/
theorem record?_object {names : List String} {entries : List (String × Json)}
    (hnames : names.Nodup) (h : (entries.map Prod.fst).Sublist names) (lenient : Bool) :
    record? names lenient (object entries) = some ⟨entries, true⟩ := by
  have hknown : entries.filter (fun e => names.contains e.1) = entries :=
    List.filter_eq_self.2 fun e he =>
      List.contains_iff_mem.2 (h.subset (List.mem_map_of_mem he))
  show (if ((entries.filter (fun e => names.contains e.1)).map Prod.fst).Nodup
    then some (⟨entries.filter (fun e => names.contains e.1), true⟩ : Record) else none) = _
  rw [hknown, if_pos (h.nodup hnames)]

namespace Record

/-- **A field is found under its name**, beyond those with other names. -/
@[simp] theorem find?_cons_self (name : String) (value : Json) (fields : List (String × Json))
    (byName : Bool) : find? ⟨(name, value) :: fields, byName⟩ name = some value := by
  rw [find?, List.lookup_cons_self]

@[simp] theorem find?_cons_of_ne {name other : String} (h : name ≠ other) (value : Json)
    (fields : List (String × Json)) (byName : Bool) :
    find? ⟨(other, value) :: fields, byName⟩ name = find? ⟨fields, byName⟩ name := by
  rw [find?, List.lookup_cons, beq_false_of_ne h]
  rfl

@[simp] theorem find?_nil (name : String) (byName : Bool) : find? ⟨[], byName⟩ name = none := rfl

end Record

/-! ## Parts -/

theorem mapM_eq_some {read : β → Option α} {write : α → β} {xs : List α}
    (h : ∀ x ∈ xs, read (write x) = some x) : (xs.map write).mapM read = some xs := by
  induction xs with
  | nil => rfl
  | cons x xs ih =>
    rw [List.map_cons, List.mapM_cons, h x List.mem_cons_self,
      ih (fun y hy => h y (List.mem_cons_of_mem x hy))]
    rfl

/-- **A list is read item by item.** -/
theorem items?_map {read : Json → Option α} {write : α → Json} {xs : List α}
    (h : ∀ x ∈ xs, read (write x) = some x) : items? read (array (xs.map write)) = some xs :=
  mapM_eq_some h

/-- **What may be missing is read** where nothing that is there is written `null`. -/
theorem nullable?_elim {read : Json → Option α} {write : α → Json}
    (h : ∀ x, read (write x) = some x) (hnull : ∀ x, write x ≠ null) (x : Option α) :
    nullable? read (x.elim null write) = some x := by
  cases x with
  | none => rfl
  | some x =>
    show nullable? read (write x) = some (some x)
    unfold nullable?
    split
    · next heq => exact absurd heq (hnull x)
    · rw [h x]
      rfl

/-- **A keyed collection is read** entry by entry. -/
theorem keyed?_map {read : Json → Option α} {write : α → Json} (h : ∀ a, read (write a) = some a)
    (m : Keyed α) :
    keyed? read (object (m.entries.map (fun e => (e.1, write e.2)))) = some m := by
  have hentries : (m.entries.map (fun e => (e.1, write e.2))).mapM
      (fun e : String × Json => (read e.2).map (e.1, ·)) = some m.entries :=
    mapM_eq_some (fun e _ => by rw [h]; rfl)
  show Option.map Keyed.ofList _ = some m
  rw [hentries, Option.map_some, Keyed.ofList_entries]

@[simp] theorem string?_string (s : String) : string? (string s) = some s := rfl

theorem word?_toInt (n : Int64) : word? (integer n.toInt) = some n := Numeral.word?_toInt n

end Json

end WindowQuery
