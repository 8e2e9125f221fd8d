import WindowQuery.Calendar
import WindowQuery.Interval

/-!
# Instants

An instant is a point in time to the nanosecond: whole seconds from
1970-01-01T00:00:00Z, rounded down, and the nanoseconds that remain. A
leap second has no number of its own. It is written as the second before
it, the last of its minute, with more than 10⁹ nanoseconds; such an
instant lies after all others of that second and before the next one.

Instants reach from the beginning of the year -262143 to the end of the
year 262142.
-/

namespace WindowQuery

/-- The nanoseconds of one second. -/
def nanosPerSecond : Nat := 1000000000

/-- The seconds of one day. -/
def secondsPerDay : Int := 86400

namespace Instant

/-- The first second of the range. -/
def firstSecond : Int := -8334601228800

/-- The last second of the range. -/
def lastSecond : Int := 8210266876799

/-- **What numbers make an instant**: the second lies in the range, and a
leap second closes a minute. -/
def Valid (seconds : Int) (nanos : Nat) : Prop :=
  firstSecond ≤ seconds ∧ seconds ≤ lastSecond ∧
    (nanos < nanosPerSecond ∨ seconds % 60 = 59 ∧ nanos < 2 * nanosPerSecond)

instance (seconds : Int) (nanos : Nat) : Decidable (Valid seconds nanos) :=
  inferInstanceAs (Decidable (_ ∧ _ ∧ _))

end Instant

/-- **A point in time.** -/
structure Instant where
  /-- Whole seconds from the epoch, rounded down. -/
  seconds : Int
  /-- The nanoseconds after that, above 10⁹ within a leap second. -/
  nanos : Nat
  /-- The numbers make an instant. -/
  valid : Instant.Valid seconds nanos
deriving DecidableEq

namespace Instant

/-- The instant with the given numbers, if there is one. -/
def mk? (seconds : Int) (nanos : Nat) : Option Instant :=
  if h : Valid seconds nanos then some ⟨seconds, nanos, h⟩ else none

/-- The beginning of a second. -/
def ofEpoch? (seconds : Int) : Option Instant := mk? seconds 0

/-- The epoch itself. -/
def epoch : Instant := ⟨0, 0, by decide⟩

instance : Inhabited Instant := ⟨epoch⟩

/-- Whether it lies within a leap second. -/
def isLeap (t : Instant) : Bool := nanosPerSecond ≤ t.nanos

/-- The nanoseconds from the epoch, a leap second counted as running into the
next one. -/
def sinceEpoch (t : Instant) : Int := t.seconds * nanosPerSecond + t.nanos

/-- The instant so many nanoseconds from the epoch, if it is in the range. -/
def ofSinceEpoch? (nanos : Int) : Option Instant :=
  mk? (nanos / nanosPerSecond) (nanos % nanosPerSecond).toNat

/-! ## Order -/

/-- **Earlier**: by the second, then by the nanosecond, so that a leap second
comes after the second it repeats. -/
instance : LT Instant :=
  ⟨fun a b => a.seconds < b.seconds ∨ a.seconds = b.seconds ∧ a.nanos < b.nanos⟩

instance : LE Instant :=
  ⟨fun a b => a.seconds < b.seconds ∨ a.seconds = b.seconds ∧ a.nanos ≤ b.nanos⟩

instance (a b : Instant) : Decidable (a < b) := inferInstanceAs (Decidable (_ ∨ _ ∧ _))

instance (a b : Instant) : Decidable (a ≤ b) := inferInstanceAs (Decidable (_ ∨ _ ∧ _))

/-! ## Subtraction -/

/-- **The instant an interval earlier.** Leap seconds are left out of the
count: going back from within one by a second or more starts at the same
fraction of the second it repeats, and going back by less stays within
those two. -/
def back? (t : Instant) (span : Interval) : Option Instant :=
  let wholeSeconds := span.nanos / nanosPerSecond
  let rest := span.nanos % nanosPerSecond
  if t.isLeap ∧ wholeSeconds = 0 then mk? t.seconds (t.nanos - rest)
  else
    let (seconds, nanos) :=
      if t.isLeap then (t.seconds + 1, t.nanos - nanosPerSecond) else (t.seconds, t.nanos)
    if rest ≤ nanos then mk? (seconds - wholeSeconds) (nanos - rest)
    else mk? (seconds - wholeSeconds - 1) (nanos + nanosPerSecond - rest)

/-! ## Clock readings -/

/-- What a clock and a calendar show at some place. -/
structure Reading where
  /-- The date. -/
  date : Date
  /-- The hour, 0 to 23. -/
  hour : Nat
  /-- The minute, 0 to 59. -/
  minute : Nat
  /-- The second, 0 to 59, or 60 for a leap second. -/
  second : Nat
  /-- The nanosecond. -/
  nanos : Nat
deriving DecidableEq

/-- The fields lie in their ranges, and the date in the years of the
calendar that have instants. -/
def Reading.Valid (r : Reading) : Prop :=
  r.date.Valid ∧ Date.firstYear ≤ r.date.year ∧ r.date.year ≤ Date.lastYear ∧
    r.hour ≤ 23 ∧ r.minute ≤ 59 ∧ r.second ≤ 60 ∧ r.nanos < nanosPerSecond

instance (r : Reading) : Decidable r.Valid :=
  inferInstanceAs (Decidable (_ ∧ _ ∧ _ ∧ _ ∧ _ ∧ _ ∧ _))

/-- **The instant of a reading**, at a place whose clocks are ahead by the
given seconds. -/
def ofReading? (r : Reading) (ahead : Int) : Option Instant :=
  if r.Valid then
    let (second, nanos) :=
      if r.second = 60 then (59, r.nanos + nanosPerSecond) else (r.second, r.nanos)
    mk? (r.date.toDayNumber * secondsPerDay + r.hour * 3600 + r.minute * 60 + second - ahead)
      nanos
  else none

/-- **The reading at an instant**, where clocks show universal time. -/
def reading (t : Instant) : Reading :=
  let ofDay := (t.seconds % secondsPerDay).toNat
  ⟨Date.ofDayNumber (t.seconds / secondsPerDay), ofDay / 3600, ofDay / 60 % 60,
    ofDay % 60 + t.nanos / nanosPerSecond, t.nanos % nanosPerSecond⟩

end Instant

end WindowQuery
