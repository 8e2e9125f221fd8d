import WindowQuery.Proofs.Text.Slice

/-!
# The bytes of a text

A search for a character below 128 may look at bytes instead of characters:
such a character is one byte, and that byte is in no other character. So
what a search among the bytes finds lies at the offset of a character.
-/

namespace WindowQuery.Text

/-- The bytes of a text in UTF-8. -/
def bytes (cs : List Char) : List UInt8 := cs.flatMap String.utf8EncodeChar

@[simp] theorem bytes_nil : bytes [] = [] := rfl

@[simp] theorem bytes_cons (c : Char) (cs : List Char) :
    bytes (c :: cs) = String.utf8EncodeChar c ++ bytes cs := rfl

@[simp] theorem length_bytes (cs : List Char) : (bytes cs).length = byteLength cs := by
  induction cs with
  | nil => rfl
  | cons c cs ih =>
    rw [bytes_cons, List.length_append, ih, String.length_utf8EncodeChar, byteLength_cons]

/-- **A byte below 128 is a character of its own.** -/
theorem toNat_eq_of_mem_utf8EncodeChar {c : Char} {b : UInt8} (hb : b.toNat < 128)
    (h : b ∈ String.utf8EncodeChar c) : c.toNat = b.toNat := by
  -- the bytes of longer forms all have their first bit set
  have hlong : ∀ n : Nat, 128 ≤ n → n < 256 → b ≠ UInt8.ofNat n := by
    rintro n hle hlt rfl
    rw [UInt8.toNat_ofNat_of_lt' (show n < UInt8.size from hlt)] at hb
    omega
  unfold String.utf8EncodeChar at h
  dsimp only at h
  split at h
  · next hle =>
    rw [List.mem_singleton.1 h,
      UInt8.toNat_ofNat_of_lt'
        (show c.val.toNat < UInt8.size from Nat.lt_of_le_of_lt hle (by decide))]
    rfl
  · exfalso
    split at h
    · simp only [List.mem_cons, List.not_mem_nil, or_false] at h
      rcases h with h | h
      · exact hlong _ (by omega) (by omega) h
      · exact hlong _ (by omega) (by omega) h
    · split at h
      · simp only [List.mem_cons, List.not_mem_nil, or_false] at h
        rcases h with h | h | h
        · exact hlong _ (by omega) (by omega) h
        · exact hlong _ (by omega) (by omega) h
        · exact hlong _ (by omega) (by omega) h
      · simp only [List.mem_cons, List.not_mem_nil, or_false] at h
        rcases h with h | h | h | h
        · exact hlong _ (by omega) (by omega) h
        · exact hlong _ (by omega) (by omega) h
        · exact hlong _ (by omega) (by omega) h
        · exact hlong _ (by omega) (by omega) h

theorem notMem_utf8EncodeChar_of_ne {c d : Char} {b : UInt8} (hb : b.toNat < 128)
    (hd : d.toNat = b.toNat) (h : c ≠ d) : b ∉ String.utf8EncodeChar c := fun hmem =>
  h (Char.toNat_inj.1 ((toNat_eq_of_mem_utf8EncodeChar hb hmem).trans hd.symm))

end WindowQuery.Text
