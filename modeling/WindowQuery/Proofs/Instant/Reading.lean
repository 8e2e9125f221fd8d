import WindowQuery.Proofs.Calendar
import WindowQuery.Proofs.Instant.Order

/-!
# Clock readings

An instant has a reading, and the reading has an instant; this module says that
it is the same one. The date is the calendar's affair
(`Date.toDayNumber_ofDayNumber`), and the time of day is divided into hours,
minutes and seconds and put together again. The case to look at is the leap
second: it is read as second 60, which no number of seconds has, and goes back
to second 59 with the nanoseconds beyond 10⁹. It can only do so because a leap
second closes a minute.
-/

namespace WindowQuery

namespace Instant

variable (t : Instant)

theorem secondOfDay_lt : (t.seconds % secondsPerDay).toNat < 86400 := by
  unfold secondsPerDay
  omega

/-- **The seconds of an instant**, put together from day and time of day. -/
theorem seconds_eq : t.seconds = t.seconds / secondsPerDay * secondsPerDay
    + (t.seconds % secondsPerDay).toNat := by
  unfold secondsPerDay
  omega

/-- **The second of a reading is 60 just in a leap second**, and then it is the
last of its minute that is repeated. -/
theorem second_reading :
    (t.nanos < nanosPerSecond ∧ t.reading.second = (t.seconds % secondsPerDay).toNat % 60 ∧
        t.reading.nanos = t.nanos) ∨
      (t.nanos = t.reading.nanos + nanosPerSecond ∧ t.reading.second = 60 ∧
        (t.seconds % secondsPerDay).toNat % 60 = 59) := by
  obtain ⟨-, -, hnanos⟩ := t.valid
  have hsecond : t.reading.second
      = (t.seconds % secondsPerDay).toNat % 60 + t.nanos / nanosPerSecond := rfl
  have hrest : t.reading.nanos = t.nanos % nanosPerSecond := rfl
  unfold nanosPerSecond secondsPerDay at *
  omega

theorem firstSecond_eq : firstSecond
    = Date.toDayNumber ⟨Date.firstYear, 1, 1⟩ * secondsPerDay := rfl

theorem lastSecond_eq : lastSecond
    = Date.toDayNumber ⟨Date.lastYear, 12, 31⟩ * secondsPerDay + 86399 := rfl

/-- **The reading of an instant is one that a clock can show.** -/
theorem valid_reading : t.reading.Valid := by
  obtain ⟨hfirst, hlast, -⟩ := t.valid
  have hday := t.secondOfDay_lt
  have hyear : Date.firstYear ≤ t.reading.date.year ∧ t.reading.date.year ≤ Date.lastYear := by
    rw [firstSecond_eq] at hfirst
    rw [lastSecond_eq] at hlast
    unfold secondsPerDay at hlast
    refine Date.year_ofDayNumber_mem (Int.le_ediv_of_mul_le (by decide) hfirst) ?_
    unfold secondsPerDay
    omega
  have hhour : t.reading.hour = (t.seconds % secondsPerDay).toNat / 3600 := rfl
  have hminute : t.reading.minute = (t.seconds % secondsPerDay).toNat / 60 % 60 := rfl
  have hnanos : t.reading.nanos = t.nanos % nanosPerSecond := rfl
  refine ⟨Date.valid_ofDayNumber _, hyear.1, hyear.2, by omega, by omega, ?_, ?_⟩
  · rcases t.second_reading with ⟨-, hsecond, -⟩ | ⟨-, hsecond, -⟩ <;> omega
  · rw [hnanos]
    exact Nat.mod_lt _ (by decide)

theorem mk?_self : mk? t.seconds t.nanos = some t :=
  dif_pos t.valid

/-- **An instant is that of its reading.** -/
theorem ofReading?_reading : ofReading? t.reading 0 = some t := by
  have hsplit := t.seconds_eq
  have hdate : t.reading.date.toDayNumber = t.seconds / secondsPerDay :=
    Date.toDayNumber_ofDayNumber _
  have hhour : t.reading.hour = (t.seconds % secondsPerDay).toNat / 3600 := rfl
  have hminute : t.reading.minute = (t.seconds % secondsPerDay).toNat / 60 % 60 := rfl
  rw [ofReading?, if_pos t.valid_reading, hdate, hhour, hminute]
  rcases t.second_reading with ⟨-, hsecond, hnanos⟩ | ⟨hnanos, hsecond, hlast⟩
  · have hne : t.reading.second ≠ 60 := by omega
    rw [if_neg hne, hsecond, hnanos]
    refine Eq.trans (congrArg (fun s => mk? s t.nanos) ?_) t.mk?_self
    omega
  · rw [if_pos hsecond, ← hnanos]
    refine Eq.trans (congrArg (fun s => mk? s t.nanos) ?_) t.mk?_self
    omega

end Instant

end WindowQuery
