import WindowQuery.Binary64.Text
import WindowQuery.Text.Blank

/-!
# Intervals

An interval is written as one or more components with nothing between
them, each a decimal number and a unit: `90s`, `1h30m`, `1.5d`. It is a
positive number of nanoseconds that fits 64 bits; a component with a
fraction counts the whole nanoseconds in it. Of a fraction the first
eighteen digits are read.

As seconds an interval is written through binary floating point: whole
seconds plus the rest, the sum rounded once.
-/

namespace WindowQuery

/-- **A span of time**, neither empty nor beyond 64 bits of nanoseconds. -/
structure Interval where
  /-- Its length. -/
  nanos : Nat
  /-- It is not empty. -/
  nanos_pos : 0 < nanos
  /-- It fits. -/
  nanos_lt : nanos < UInt64.size
deriving DecidableEq

namespace Interval

/-- The interval of that many nanoseconds, if there is one. -/
def ofNanos? (n : Nat) : Option Interval :=
  if h : 0 < n ∧ n < UInt64.size then some ⟨n, h.1, h.2⟩ else none

/-! ## Units -/

/-- A unit of time. -/
inductive Unit where
  | nanosecond | microsecond | millisecond | second | minute | hour | day | week | month | year
deriving DecidableEq

/-- The nanoseconds of a unit; a month has thirty days, a year 365. -/
def Unit.nanos : Unit → Nat
  | .nanosecond => 1
  | .microsecond => 1000
  | .millisecond => 1000000
  | .second => 1000000000
  | .minute => 60 * 1000000000
  | .hour => 3600 * 1000000000
  | .day => 86400 * 1000000000
  | .week => 7 * 86400 * 1000000000
  | .month => 30 * 86400 * 1000000000
  | .year => 365 * 86400 * 1000000000

/-- **The unit at the front of a text** and what follows it. A longer
spelling goes before a shorter one that it begins with. -/
def unit? : List Char → Option (Unit × List Char)
  | 'n' :: 's' :: rest => some (.nanosecond, rest)
  | 'u' :: 's' :: rest => some (.microsecond, rest)
  | '\u00b5' :: 's' :: rest => some (.microsecond, rest)
  | 'm' :: 's' :: rest => some (.millisecond, rest)
  | 's' :: rest => some (.second, rest)
  | 'm' :: rest => some (.minute, rest)
  | 'h' :: rest => some (.hour, rest)
  | 'd' :: rest => some (.day, rest)
  | 'w' :: rest => some (.week, rest)
  | 'M' :: rest => some (.month, rest)
  | 'y' :: rest => some (.year, rest)
  | _ => none

theorem length_lt_of_unit? {cs rest : List Char} {u : Unit} (h : unit? cs = some (u, rest)) :
    rest.length < cs.length := by
  unfold unit? at h
  split at h <;> grind

/-! ## Components -/

/-- The digits of a fraction at the front of a text, none if no fraction
stands there, and what follows. -/
def fraction : List Char → List Char × List Char
  | '.' :: rest =>
    let digits := rest.takeWhile Char.isDigit
    if digits.isEmpty then ([], '.' :: rest) else (digits, rest.dropWhile Char.isDigit)
  | cs => ([], cs)

/-- The number of fraction digits that count. -/
def fractionDigits : Nat := 18

/-- The nanoseconds of a component, rounded down. -/
def componentNanos (whole fraction : List Char) (u : Unit) : Nat :=
  let kept := fraction.take fractionDigits
  Numeral.value whole * u.nanos + Numeral.value kept * u.nanos / Nat.pow 10 kept.length

/-- **The component at the front of a text**, in nanoseconds, and what
follows it. -/
def component? (cs : List Char) : Option (Nat × List Char) :=
  let whole := cs.takeWhile Char.isDigit
  if whole.isEmpty then none
  else
    let (digits, rest) := fraction (cs.dropWhile Char.isDigit)
    (unit? rest).map (fun (u, rest) => (componentNanos whole digits u, rest))

theorem length_fraction_le (cs : List Char) : (fraction cs).2.length ≤ cs.length := by
  unfold fraction
  split
  · next rest =>
    dsimp only
    split
    · exact Nat.le_refl _
    · have := (List.dropWhile_suffix (l := rest) Char.isDigit).length_le
      simp only [List.length_cons]
      omega
  · exact Nat.le_refl _

theorem length_lt_of_component? {cs rest : List Char} {n : Nat}
    (h : component? cs = some (n, rest)) : rest.length < cs.length := by
  unfold component? at h
  dsimp only at h
  split at h
  · simp at h
  · obtain ⟨⟨u, r⟩, hu, he⟩ := Option.map_eq_some_iff.1 h
    obtain ⟨-, rfl⟩ := Prod.mk.inj he
    dsimp only
    have h1 := length_lt_of_unit? hu
    have h2 := length_fraction_le (cs.dropWhile Char.isDigit)
    have h3 := (List.dropWhile_suffix (l := cs) Char.isDigit).length_le
    omega

/-- The components that make up a text, in nanoseconds. -/
def components? (cs : List Char) : Option (List Nat) :=
  match _h : component? cs with
  | none => none
  | some (n, []) => some [n]
  | some (n, c :: rest) => (components? (c :: rest)).map (n :: ·)
termination_by cs.length
decreasing_by exact length_lt_of_component? _h

/-- **Reads an interval**; blanks around it are skipped. -/
def read? (cs : List Char) : Option Interval :=
  (components? (Text.trim cs)).bind (fun ns => ofNanos? (ns.foldl (· + ·) 0))

/-! ## As seconds -/

/-- A number of seconds and nanoseconds as a text of seconds. -/
def secondsText (seconds nanos : Nat) : String :=
  (Binary64.add (.ofNat seconds) (.div (.ofNat nanos) (.ofNat 1000000000))).text

/-- **The interval in seconds**: the shortest decimal of the nearest binary
number. -/
def inSeconds (i : Interval) : String :=
  secondsText (i.nanos / 1000000000) (i.nanos % 1000000000)

end Interval

end WindowQuery
