import WindowQuery.Text.Numeral

/-!
# Bytes in hexadecimal

Each byte is written with two digits, the higher half first and in lower
case. Digits in either case are read, in pairs, and what was written is
read back (`bytes?_chars`).
-/

namespace WindowQuery.Hexadecimal

/-- The digit of a number below sixteen. -/
def digit (n : Nat) : Char :=
  if n < 10 then Char.ofNat ('0'.toNat + n) else Char.ofNat ('a'.toNat + (n - 10))

/-- The digits of bytes. -/
def chars (bytes : List UInt8) : List Char :=
  bytes.flatMap (fun b => [digit (b.toNat / 16), digit (b.toNat % 16)])

/-- The bytes of digits. -/
def bytes? : List Char → Option (List UInt8)
  | [] => some []
  | high :: low :: rest => do
    return UInt8.ofNat ((← Numeral.hexValue? high) * 16 + (← Numeral.hexValue? low))
      :: (← bytes? rest)
  | [_] => none

theorem hexValue?_digit : ∀ n < 16, Numeral.hexValue? (digit n) = some n := by decide

/-- **Reading undoes writing.** -/
theorem bytes?_chars : (bytes : List UInt8) → bytes? (chars bytes) = some bytes
  | [] => rfl
  | b :: rest => by
    have hb : b.toNat < 256 := b.toNat_lt_size
    have hhigh := hexValue?_digit (b.toNat / 16) (by omega)
    have hlow := hexValue?_digit (b.toNat % 16) (by omega)
    have hrest := bytes?_chars rest
    simp only [chars] at hrest
    simp only [chars, List.flatMap_cons, List.cons_append, List.nil_append, bytes?, hhigh, hlow,
      hrest, Option.bind_eq_bind, Option.bind_some, Option.pure_def]
    rw [show b.toNat / 16 * 16 + b.toNat % 16 = b.toNat by omega, UInt8.ofNat_toNat]

/-- **Bytes as text.** -/
def encode (bytes : ByteArray) : String := String.ofList (chars bytes.toList)

/-- **Bytes from text.** -/
def decode? (text : String) : Option ByteArray := do return ⟨(← bytes? text.toList).toArray⟩

end WindowQuery.Hexadecimal
