import WindowQuery.Proofs.Text.Bytes

/-!
# Bytes of a text, read leniently

Lenient reading cuts bytes into characters and malformed runs. The bytes of a
text have no malformed runs: each character has the width that its first byte
announces, its second byte is one that may follow the first, and its bits put
together are the character again (`leadingUnit_utf8EncodeChar`). So every text
is what its bytes are read as (`decodeLossy_toUTF8`).
-/

namespace WindowQuery.Text

/-! ## Bytes as numbers -/

theorem widthOf_eq (b : UInt8) : widthOf b =
    if b.toNat < 0x80 then 1
    else if 0xC2 ≤ b.toNat ∧ b.toNat ≤ 0xDF then 2
    else if 0xE0 ≤ b.toNat ∧ b.toNat ≤ 0xEF then 3
    else if 0xF0 ≤ b.toNat ∧ b.toNat ≤ 0xF4 then 4
    else 0 := by
  simp [widthOf, UInt8.lt_iff_toNat_lt, UInt8.le_iff_toNat_le]

theorem isContinuation_iff (b : UInt8) :
    isContinuation b = true ↔ 0x80 ≤ b.toNat ∧ b.toNat ≤ 0xBF := by
  simp [isContinuation, UInt8.le_iff_toNat_le]

/-- A byte may follow another if it continues a character, and the two make
neither an overlong form, nor a surrogate, nor a code point too large. -/
theorem mayFollow_iff (first second : UInt8) : mayFollow first second = true ↔
    (0x80 ≤ second.toNat ∧ second.toNat ≤ 0xBF) ∧
      (first.toNat = 0xE0 → 0xA0 ≤ second.toNat) ∧ (first.toNat = 0xED → second.toNat ≤ 0x9F) ∧
      (first.toNat = 0xF0 → 0x90 ≤ second.toNat) ∧ (first.toNat = 0xF4 → second.toNat ≤ 0x8F) := by
  have heq : mayFollow first second =
      if first.toNat = 0xE0 then decide (0xA0 ≤ second.toNat ∧ second.toNat ≤ 0xBF)
      else if first.toNat = 0xED then decide (0x80 ≤ second.toNat ∧ second.toNat ≤ 0x9F)
      else if first.toNat = 0xF0 then decide (0x90 ≤ second.toNat ∧ second.toNat ≤ 0xBF)
      else if first.toNat = 0xF4 then decide (0x80 ≤ second.toNat ∧ second.toNat ≤ 0x8F)
      else decide (0x80 ≤ second.toNat ∧ second.toNat ≤ 0xBF) := by
    simp [mayFollow, isContinuation, UInt8.le_iff_toNat_le, ← UInt8.toNat_inj]
  rw [heq]
  (repeat' split) <;> simp only [decide_eq_true_eq] <;> omega

/-! ## One character -/

section

variable {v : Nat} {b b₁ b₂ b₃ : UInt8}

theorem leadingUnit_one (hb : b.toNat = v) (hlt : v < 0x80) (more : List UInt8) :
    leadingUnit b more = (some (Char.ofNat v), 0) := by
  have hw : widthOf b = 1 := by
    rw [widthOf_eq, hb, if_pos hlt]
  simp only [leadingUnit, hw, hb]

theorem leadingUnit_two (hb : b.toNat = v / 64 % 32 + 192) (hb₁ : b₁.toNat = v % 64 + 128)
    (hle : 0x80 ≤ v) (hlt : v < 0x800) (more : List UInt8) :
    leadingUnit b (b₁ :: more) = (some (Char.ofNat v), 1) := by
  have hw : widthOf b = 2 := by
    rw [widthOf_eq, hb, if_neg (by omega), if_pos (by omega)]
  have hf : mayFollow b b₁ = true := by
    rw [mayFollow_iff, hb, hb₁]
    omega
  have hbits : (v / 64 % 32 + 192 - 0xC0) * 64 + (v % 64 + 128 - 0x80) = v := by omega
  simp only [leadingUnit, hw, hf, if_true, assemble, List.foldl_cons, List.foldl_nil, hb, hb₁,
    hbits]

/-- The code points of three bytes leave out the surrogates. -/
theorem leadingUnit_three (hb : b.toNat = v / 4096 % 16 + 224)
    (hb₁ : b₁.toNat = v / 64 % 64 + 128) (hb₂ : b₂.toNat = v % 64 + 128) (hle : 0x800 ≤ v)
    (hlt : v < 0x10000) (hvalid : v < 0xD800 ∨ 0xDFFF < v) (more : List UInt8) :
    leadingUnit b (b₁ :: b₂ :: more) = (some (Char.ofNat v), 2) := by
  have hw : widthOf b = 3 := by
    rw [widthOf_eq, hb, if_neg (by omega), if_neg (by omega), if_pos (by omega)]
  have hf : mayFollow b b₁ = true := by
    rw [mayFollow_iff, hb, hb₁]
    omega
  have hc₂ : isContinuation b₂ = true := by
    rw [isContinuation_iff, hb₂]
    omega
  have hbits : ((v / 4096 % 16 + 224 - 0xE0) * 64 + (v / 64 % 64 + 128 - 0x80)) * 64
      + (v % 64 + 128 - 0x80) = v := by omega
  simp only [leadingUnit, hw, hf, hc₂, if_true, assemble, List.foldl_cons, List.foldl_nil, hb, hb₁,
    hb₂, hbits]

theorem leadingUnit_four (hb : b.toNat = v / 262144 % 8 + 240)
    (hb₁ : b₁.toNat = v / 4096 % 64 + 128) (hb₂ : b₂.toNat = v / 64 % 64 + 128)
    (hb₃ : b₃.toNat = v % 64 + 128) (hle : 0x10000 ≤ v) (hlt : v < 0x110000) (more : List UInt8) :
    leadingUnit b (b₁ :: b₂ :: b₃ :: more) = (some (Char.ofNat v), 3) := by
  have hw : widthOf b = 4 := by
    rw [widthOf_eq, hb, if_neg (by omega), if_neg (by omega), if_neg (by omega), if_pos (by omega)]
  have hf : mayFollow b b₁ = true := by
    rw [mayFollow_iff, hb, hb₁]
    omega
  have hc₂ : isContinuation b₂ = true := by
    rw [isContinuation_iff, hb₂]
    omega
  have hc₃ : isContinuation b₃ = true := by
    rw [isContinuation_iff, hb₃]
    omega
  have hbits : (((v / 262144 % 8 + 240 - 0xF0) * 64 + (v / 4096 % 64 + 128 - 0x80)) * 64
      + (v / 64 % 64 + 128 - 0x80)) * 64 + (v % 64 + 128 - 0x80) = v := by omega
  simp only [leadingUnit, hw, hf, hc₂, hc₃, if_true, assemble, List.foldl_cons, List.foldl_nil, hb,
    hb₁, hb₂, hb₃, hbits]

end

/-- **The bytes of a character are one unit**, whatever comes after them. -/
theorem leadingUnit_utf8EncodeChar (c : Char) : ∃ first rest,
    String.utf8EncodeChar c = first :: rest ∧
      ∀ more, leadingUnit first (rest ++ more) = (some c, rest.length) := by
  obtain ⟨v, hv⟩ : ∃ v, v = c.val.toNat := ⟨_, rfl⟩
  have hc : Char.ofNat v = c := hv ▸ Char.ofNat_toNat c
  have hvalid : v < 0xD800 ∨ (0xDFFF < v ∧ v < 0x110000) := hv ▸ c.valid
  have hbyte : ∀ n : Nat, n < 256 → (UInt8.ofNat n).toNat = n := fun n hn =>
    UInt8.toNat_ofNat_of_lt' hn
  unfold String.utf8EncodeChar
  dsimp only
  rw [← hv, ← hc]
  split
  · exact ⟨_, [], rfl, leadingUnit_one (hbyte _ (by omega)) (by omega)⟩
  · split
    · exact ⟨_, [_], rfl, leadingUnit_two (hbyte _ (by omega)) (hbyte _ (by omega)) (by omega)
        (by omega)⟩
    · split
      · exact ⟨_, [_, _], rfl, leadingUnit_three (hbyte _ (by omega)) (hbyte _ (by omega))
          (hbyte _ (by omega)) (by omega) (by omega) (by omega)⟩
      · exact ⟨_, [_, _, _], rfl, leadingUnit_four (hbyte _ (by omega)) (hbyte _ (by omega))
          (hbyte _ (by omega)) (hbyte _ (by omega)) (by omega) (by omega)⟩

/-! ## All of a text -/

theorem units_bytes (cs : List Char) : units (bytes cs) = cs.map some := by
  induction cs with
  | nil => simp [units]
  | cons c cs ih =>
    obtain ⟨first, rest, hbytes, hunit⟩ := leadingUnit_utf8EncodeChar c
    rw [bytes_cons, hbytes, List.cons_append, units, hunit, List.drop_left, ih, List.map_cons]

/-- The bytes of an array in a list, from an index on and with those before it. -/
theorem toList_loop_eq (bs : ByteArray) (i : Nat) (r : List UInt8) :
    ByteArray.toList.loop bs i r = r.reverse ++ bs.data.toList.drop i := by
  induction i, r using ByteArray.toList.loop.induct bs with
  | case1 i r hi ih =>
    have hlt : i < bs.data.toList.length := hi
    rw [ByteArray.toList.loop, if_pos hi, ih, List.drop_eq_getElem_cons hlt, List.reverse_cons,
      List.append_assoc]
    have hget : bs.get! i = bs.data.toList[i] := by
      show bs.data[i]! = _
      rw [getElem!_pos bs.data i hi, Array.getElem_toList]
    rw [hget]
    rfl
  | case2 i r hi =>
    have hle : bs.data.toList.length ≤ i := Nat.le_of_not_lt hi
    rw [ByteArray.toList.loop, if_neg hi, List.drop_eq_nil_of_le hle, List.append_nil]

theorem toList_toUTF8 (s : String) : s.toUTF8.toList = bytes s.toList := by
  have hbytes : s.toUTF8 = (bytes s.toList).toByteArray := by
    have h := @String.toByteArray_ofList s.toList
    rwa [String.ofList_toList] at h
  rw [hbytes, ByteArray.toList, toList_loop_eq, List.toList_data_toByteArray]
  rfl

/-- **Every text is what its bytes are read as.** -/
theorem decodeLossy_toUTF8 (s : String) : decodeLossy s.toUTF8 = s := by
  rw [decodeLossy, toList_toUTF8, units_bytes, List.map_map]
  have hid : (fun o : Option Char => o.getD '\uFFFD') ∘ some = id := rfl
  rw [hid, List.map_id, String.ofList_toList]

end WindowQuery.Text
