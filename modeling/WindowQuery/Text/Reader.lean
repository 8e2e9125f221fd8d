import WindowQuery.Text.Blank
import WindowQuery.Text.Numeral

/-!
# Readers

A reader takes what it needs from the front of a text and hands on the
rest. Of two readers the second is tried where the first does not apply. A
step is repeated for as long as it applies and takes something, so a
repetition ends whatever the step is.
-/

namespace WindowQuery.Text

/-- **Takes a value off the front of a text.** -/
abbrev Reader (α : Type) := StateT (List Char) Option α

namespace Reader

variable {α σ : Type}

/-- Reads a whole text. -/
def run? (r : Reader α) (cs : List Char) : Option α :=
  (r.run cs).bind (fun (a, rest) => if rest.isEmpty then some a else none)

/-! ## Characters -/

/-- Takes one character of a class. -/
def charWhere (p : Char → Bool) : Reader Char := fun cs =>
  match cs with
  | c :: rest => if p c then some (c, rest) else none
  | [] => none

/-- Takes the given character. -/
def char (c : Char) : Reader Unit := do
  let _ ← charWhere (· == c)

/-- Takes the given text. -/
def string (s : String) : Reader Unit := fun cs =>
  if s.toList.isPrefixOf cs then some ((), cs.drop s.toList.length) else none

/-- Takes all characters of a class at the front. -/
def takeWhile (p : Char → Bool) : Reader (List Char) := fun cs =>
  some (cs.takeWhile p, cs.dropWhile p)

/-- Takes all characters of a class at the front; there is at least one. -/
def takeSome (p : Char → Bool) : Reader (List Char) := do
  let taken ← takeWhile p
  if taken.isEmpty then failure
  return taken

/-- Skips all characters of a class at the front. -/
def skipWhile (p : Char → Bool) : Reader Unit := do
  let _ ← takeWhile p

/-- Skips blanks. -/
def blanks : Reader Unit := skipWhile isBlank

/-- Nothing is left. -/
def atEnd : Reader Unit := fun cs => if cs.isEmpty then some ((), cs) else none

/-! ## Digits -/

/-- Takes a run of digits, at least `least` and at most `most` of them. -/
def digits (least most : Nat) : Reader (List Char) := fun cs =>
  let taken := (cs.take most).takeWhile Char.isDigit
  if least ≤ taken.length then some (taken, cs.drop taken.length) else none

/-- Takes a number of exactly that many digits. -/
def fixed (width : Nat) : Reader Nat := do return Numeral.value (← digits width width)

/-! ## Repetition -/

/-- **Repeats a step** from a state on, for as long as it applies and takes
something. -/
def iterate (step : σ → Reader σ) (s : σ) : Reader σ := fun cs =>
  match step s cs with
  | none => some (s, cs)
  | some (s', rest) => if rest.length < cs.length then iterate step s' rest else some (s, cs)
termination_by cs => cs.length

/-- Takes values for as long as a reader applies and takes something. -/
def many (r : Reader α) : Reader (List α) := do
  let taken ← iterate (fun taken => do return (← r) :: taken) []
  return taken.reverse

end Reader

end WindowQuery.Text
