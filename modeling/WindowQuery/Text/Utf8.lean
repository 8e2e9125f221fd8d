/-!
# UTF-8

Offsets into a text are counted in the bytes of its UTF-8 form, and bytes
that a database hands out as text are read back from it. `units` cuts a
list of bytes into characters and *malformed runs*: a run is the longest
beginning of some character's encoding that stands there, or a single
byte if none does. Reading leniently puts one replacement character in
the place of each run.
-/

namespace WindowQuery.Text

/-- The number of bytes that the characters take in UTF-8. -/
def byteLength : List Char → Nat
  | [] => 0
  | c :: cs => c.utf8Size + byteLength cs

@[simp] theorem byteLength_nil : byteLength [] = 0 := rfl

@[simp] theorem byteLength_cons (c : Char) (cs : List Char) :
    byteLength (c :: cs) = c.utf8Size + byteLength cs := rfl

@[simp] theorem byteLength_append (as bs : List Char) :
    byteLength (as ++ bs) = byteLength as + byteLength bs := by
  induction as with
  | nil => exact (Nat.zero_add _).symm
  | cons a as ih => rw [List.cons_append, byteLength_cons, byteLength_cons, ih, Nat.add_assoc]

/-- No text has more characters than bytes. -/
theorem length_le_byteLength : (cs : List Char) → cs.length ≤ byteLength cs
  | [] => Nat.le_refl 0
  | c :: cs => by
    have hc := c.utf8Size_pos
    have hcs := length_le_byteLength cs
    rw [byteLength_cons, List.length_cons]
    omega

/-- Whether a byte continues a character. -/
def isContinuation (b : UInt8) : Bool := 0x80 ≤ b && b ≤ 0xBF

/-- Whether a byte may come second after the given first one: it continues
the character, and the two together are neither an overlong form, nor a
surrogate, nor beyond the last code point. -/
def mayFollow (first second : UInt8) : Bool :=
  if first == 0xE0 then 0xA0 ≤ second && second ≤ 0xBF
  else if first == 0xED then 0x80 ≤ second && second ≤ 0x9F
  else if first == 0xF0 then 0x90 ≤ second && second ≤ 0xBF
  else if first == 0xF4 then 0x80 ≤ second && second ≤ 0x8F
  else isContinuation second

/-- The number of bytes of a character by its first byte, zero for a byte
that begins none. -/
def widthOf (first : UInt8) : Nat :=
  if first < 0x80 then 1
  else if 0xC2 ≤ first && first ≤ 0xDF then 2
  else if 0xE0 ≤ first && first ≤ 0xEF then 3
  else if 0xF0 ≤ first && first ≤ 0xF4 then 4
  else 0

/-- The character whose leading bits and continuation bytes are given. -/
def assemble (lead : Nat) (rest : List UInt8) : Char :=
  Char.ofNat (rest.foldl (fun n b => n * 64 + (b.toNat - 0x80)) lead)

/-- **One unit at the front of the bytes**: the character that starts with
the first byte, or nothing for a malformed run, and how many of the
further bytes belong to it. -/
def leadingUnit (first : UInt8) (rest : List UInt8) : Option Char × Nat :=
  match widthOf first, rest with
  | 1, _ => (some (Char.ofNat first.toNat), 0)
  | 2, b :: _ =>
    if mayFollow first b then (some (assemble (first.toNat - 0xC0) [b]), 1) else (none, 0)
  | 3, b :: more =>
    if mayFollow first b then
      match more with
      | c :: _ =>
        if isContinuation c then (some (assemble (first.toNat - 0xE0) [b, c]), 2)
        else (none, 1)
      | [] => (none, 1)
    else (none, 0)
  | 4, b :: more =>
    if mayFollow first b then
      match more with
      | c :: more' =>
        if isContinuation c then
          match more' with
          | d :: _ =>
            if isContinuation d then (some (assemble (first.toNat - 0xF0) [b, c, d]), 3)
            else (none, 2)
          | [] => (none, 2)
        else (none, 1)
      | [] => (none, 1)
    else (none, 0)
  | _, _ => (none, 0)

/-- The bytes as characters and, in the place of each malformed run,
nothing. -/
def units : List UInt8 → List (Option Char)
  | [] => []
  | b :: rest => (leadingUnit b rest).1 :: units (rest.drop (leadingUnit b rest).2)
termination_by bytes => bytes.length
decreasing_by simp only [List.length_drop, List.length_cons]; omega

/-- The text that the bytes encode, if they do encode one. -/
def decode? (bytes : ByteArray) : Option String := String.fromUTF8? bytes

/-- **Lenient reading**: the text that the bytes encode, with U+FFFD in the
place of each malformed run. -/
def decodeLossy (bytes : ByteArray) : String :=
  String.ofList ((units bytes.toList).map (·.getD '\uFFFD'))

end WindowQuery.Text
