import Mathlib.Tactic.IntervalCases
import WindowQuery.Calendar

/-!
# Day numbers and dates

The date with a day number has that day number, and it is a date of the
calendar. Most of this is about one era. Its days are centuries of 36524
days, cycles of 1461 days in them and years of 365 days in those, and what
remains is the day of a year that begins in March (`exists_cycles`). The last
century, cycle or year of each may be a day longer, which is why no division
alone finds the year; the one that is used takes the leap days out first
(`yearOfEra_eq`). Such a year ends with February, so a day beyond the first 365 is
a twenty-ninth of February, and the parts say that it is one of a leap year.
-/

namespace WindowQuery

namespace Date

/-! ## Within an era -/

/-- **The day of an era** as a century, a cycle of four years, a year and a day of
that year. A year has a day more only if it is the last of its cycle, and the
last cycle of a century only if it is that of the last century. -/
structure Cycles (dayOfEra century cycle year day : Int) : Prop where
  /-- The parts make up the day. -/
  dayOfEra_eq : dayOfEra = 36524 * century + 1461 * cycle + 365 * year + day
  /-- There are four centuries in an era. -/
  century_mem : 0 ≤ century ∧ century ≤ 3
  /-- There are twenty-five cycles in a century. -/
  cycle_mem : 0 ≤ cycle ∧ cycle ≤ 24
  /-- There are four years in a cycle. -/
  year_mem : 0 ≤ year ∧ year ≤ 3
  /-- There are 365 days in a year, and at times one more. -/
  day_mem : 0 ≤ day ∧ day ≤ 365
  /-- At which times. -/
  leap : day = 365 → year = 3 ∧ (cycle = 24 → century = 3)

/-- Every day of an era has such parts. -/
theorem exists_cycles {dayOfEra : Int} (h0 : 0 ≤ dayOfEra) (h1 : dayOfEra < 146097) :
    ∃ century cycle year day, Cycles dayOfEra century cycle year day := by
  obtain ⟨century, ofCentury, hcentury, hofCentury, hc0, hc3, hr0, hr1⟩ :
      ∃ century ofCentury : Int, dayOfEra = 36524 * century + ofCentury ∧
        (ofCentury = 36524 → century = 3) ∧ 0 ≤ century ∧ century ≤ 3 ∧ 0 ≤ ofCentury ∧
        ofCentury ≤ 36524 := by
    rcases Int.lt_or_le dayOfEra 146096 with hlt | hle
    · exact ⟨dayOfEra / 36524, dayOfEra % 36524, by omega⟩
    · exact ⟨3, 36524, by omega⟩
  obtain ⟨year, day, hyear, hday, hy0, hy3, hd0, hd1⟩ :
      ∃ year day : Int, ofCentury % 1461 = 365 * year + day ∧ (day = 365 → year = 3) ∧
        0 ≤ year ∧ year ≤ 3 ∧ 0 ≤ day ∧ day ≤ 365 := by
    rcases Int.lt_or_le (ofCentury % 1461) 1460 with hlt | hle
    · exact ⟨ofCentury % 1461 / 365, ofCentury % 1461 % 365, by omega⟩
    · exact ⟨3, 365, by omega⟩
  exact ⟨century, ofCentury / 1461, year, day,
    ⟨by omega, by omega, by omega, by omega, by omega, by omega⟩⟩

section

variable {dayOfEra century cycle year day : Int} (h : Cycles dayOfEra century cycle year day)

include h

/-- **The year of an era**, found by taking the leap days out. -/
theorem yearOfEra_eq :
    (dayOfEra - dayOfEra / 1460 + dayOfEra / 36524 - dayOfEra / 146096) / 365
      = 100 * century + 4 * cycle + year := by
  obtain ⟨heq, hcentury, hcycle, hyear, hday, hleap⟩ := h
  have hofCentury : 1461 * cycle + 365 * year + day < 36524 ∨
      1461 * cycle + 365 * year + day = 36524 ∧ century = 3 := by omega
  have hcenturies : dayOfEra / 36524 - dayOfEra / 146096 = century := by
    rcases hofCentury with hwithin | hlast
    · have hnone : dayOfEra / 146096 = 0 := by omega
      have hquotient : dayOfEra / 36524 = century := by omega
      omega
    · omega
  -- one leap day for each cycle, and the one of this cycle a little early
  have hleapDays : ∃ early : Int, dayOfEra / 1460 = 25 * century + cycle + early ∧
      (early = 0 ∧ (year = 3 → day < 365) ∨ early = 1 ∧ year = 3 ∧ 0 < day) := by
    refine ⟨dayOfEra / 1460 - (25 * century + cycle), by omega, ?_⟩
    omega
  obtain ⟨early, hdiv, hearly⟩ := hleapDays
  omega

theorem dayOfYear_eq :
    dayOfEra - (365 * (100 * century + 4 * cycle + year)
      + (100 * century + 4 * cycle + year) / 4 - (100 * century + 4 * cycle + year) / 100)
      = day := by
  obtain ⟨heq, hcentury, hcycle, hyear, -, -⟩ := h
  have hfour : (100 * century + 4 * cycle + year) / 4 = 25 * century + cycle := by omega
  have hhundred : (100 * century + 4 * cycle + year) / 100 = century := by omega
  omega

end

/-! ## Within a year -/

/-- The number of a month, counted from March as 0. -/
def marchMonth (monthIndex : Int) : Nat :=
  (if monthIndex < 10 then monthIndex + 3 else monthIndex - 9).toNat

/-- **The date of a day of a year that begins in March**; its last two months are
in the next year. -/
def ofMarch (year day : Int) : Date :=
  let monthIndex := (5 * day + 2) / 153
  ⟨if monthIndex < 10 then year else year + 1, marchMonth monthIndex,
    (day - (153 * monthIndex + 2) / 5 + 1).toNat⟩

/-- **The lengths of the months repeat** after five of them, from March to January. -/
theorem monthLength_marchMonth (year : Int) {monthIndex : Int} (h0 : 0 ≤ monthIndex)
    (h10 : monthIndex ≤ 10) :
    (monthLength year (marchMonth monthIndex) : Int)
      = (153 * (monthIndex + 1) + 2) / 5 - (153 * monthIndex + 2) / 5 := by
  interval_cases monthIndex <;> rfl

section

variable {year day : Int} (h0 : 0 ≤ day) (h1 : day ≤ 365)

include h0 h1

/-- **It is a date of the calendar**, if the day beyond the others is one of a year
that has it. -/
theorem valid_ofMarch (hleap : day = 365 → isLeap (year + 1) = true) :
    (ofMarch year day).Valid := by
  have hindex0 : 0 ≤ (5 * day + 2) / 153 := by omega
  have hindex11 : (5 * day + 2) / 153 ≤ 11 := by omega
  have hmonth : 1 ≤ marchMonth ((5 * day + 2) / 153) ∧ marchMonth ((5 * day + 2) / 153) ≤ 12 := by
    unfold marchMonth
    omega
  refine ⟨hmonth.1, hmonth.2, ?_, ?_⟩
  · show 1 ≤ (day - (153 * ((5 * day + 2) / 153) + 2) / 5 + 1).toNat
    omega
  · show (day - (153 * ((5 * day + 2) / 153) + 2) / 5 + 1).toNat
      ≤ monthLength (if (5 * day + 2) / 153 < 10 then year else year + 1)
          (marchMonth ((5 * day + 2) / 153))
    -- only the last month of a year that begins in March can be too short for its days
    rcases Int.lt_or_le ((5 * day + 2) / 153) 11 with hlt | hfebruary
    · have hlength := monthLength_marchMonth
        (if (5 * day + 2) / 153 < 10 then year else year + 1) hindex0 (by omega)
      omega
    · have hindex : (5 * day + 2) / 153 = 11 := by omega
      rw [hindex]
      show (day - 337 + 1).toNat ≤ if isLeap (year + 1) then 29 else 28
      split
      · omega
      · next hcommon =>
        have hne : day ≠ 365 := fun h => hcommon (hleap h)
        omega

/-- The day of that year is found again. -/
theorem toDayNumber_ofMarch :
    (ofMarch year day).toDayNumber = year / 400 * daysPerEra
      + (year % 400 * 365 + year % 400 / 4 - year % 400 / 100 + day) - epochOffset := by
  have hindex : 0 ≤ (5 * day + 2) / 153 ∧ (5 * day + 2) / 153 ≤ 11 := by omega
  have hyear : (if (ofMarch year day).month ≤ 2 then (ofMarch year day).year - 1
      else (ofMarch year day).year) = year := by
    simp only [ofMarch, marchMonth]
    split <;> split <;> omega
  have hmonth : (if (ofMarch year day).month ≤ 2 then ((ofMarch year day).month : Int) + 9
      else (ofMarch year day).month - 3) = (5 * day + 2) / 153 := by
    simp only [ofMarch, marchMonth]
    split <;> split <;> omega
  have hday : ((ofMarch year day).day : Int) = day - (153 * ((5 * day + 2) / 153) + 2) / 5 + 1 :=
    Int.toNat_of_nonneg (by omega)
  rw [toDayNumber]
  simp only [hyear, hmonth, hday]
  omega

end

/-! ## All days -/

/-- **The date with a day number** is a day of a year of an era. -/
theorem exists_ofDayNumber (n : Int) :
    ∃ year day : Int, ofDayNumber n = ofMarch year day ∧ 0 ≤ day ∧ day ≤ 365 ∧
      (day = 365 → isLeap (year + 1) = true) ∧
      n = year / 400 * daysPerEra
        + (year % 400 * 365 + year % 400 / 4 - year % 400 / 100 + day) - epochOffset := by
  have h0 : 0 ≤ (n + epochOffset) % daysPerEra := Int.emod_nonneg _ (by decide)
  have h1 : (n + epochOffset) % daysPerEra < 146097 := Int.emod_lt_of_pos _ (by decide)
  obtain ⟨century, cycle, year, day, hcycles⟩ := exists_cycles h0 h1
  have hyear := yearOfEra_eq hcycles
  have hday := dayOfYear_eq hcycles
  -- the year is counted within its era from centuries, cycles and years, and the eras before it are
  -- added
  refine ⟨100 * century + 4 * cycle + year + (n + epochOffset) / daysPerEra * 400, day, ?_,
    hcycles.day_mem.1, hcycles.day_mem.2, ?_, ?_⟩
  · have hday_mem := hcycles.day_mem
    have hindex : 0 ≤ (5 * day + 2) / 153 ∧ (5 * day + 2) / 153 ≤ 11 := by omega
    unfold ofDayNumber ofMarch marchMonth
    simp only [hyear, hday, Date.mk.injEq, and_true]
    split_ifs <;> omega
  · intro hlast
    have hleap := hcycles.leap hlast
    have hcycle := hcycles.cycle_mem
    simp only [isLeap, Bool.and_eq_true, Bool.or_eq_true, beq_iff_eq, bne_iff_ne]
    omega
  · have hera : (100 * century + 4 * cycle + year + (n + epochOffset) / daysPerEra * 400) / 400
        = (n + epochOffset) / daysPerEra := by omega
    have hyearOfEra :
        (100 * century + 4 * cycle + year + (n + epochOffset) / daysPerEra * 400) % 400
          = 100 * century + 4 * cycle + year := by omega
    rw [hera, hyearOfEra]
    have hsplit := Int.mul_ediv_add_emod (n + epochOffset) daysPerEra
    simp only [daysPerEra] at hsplit hday ⊢
    omega

/-- **A day number is that of its date.** -/
theorem toDayNumber_ofDayNumber (n : Int) : (ofDayNumber n).toDayNumber = n := by
  obtain ⟨year, day, heq, h0, h1, -, hn⟩ := exists_ofDayNumber n
  rw [heq, toDayNumber_ofMarch h0 h1, ← hn]

/-- **And the date is one of the calendar.** -/
theorem valid_ofDayNumber (n : Int) : (ofDayNumber n).Valid := by
  obtain ⟨year, day, heq, h0, h1, hleap, -⟩ := exists_ofDayNumber n
  rw [heq]
  exact valid_ofMarch h0 h1 hleap

/-- **The days of the years that have instants** lie in those years. -/
theorem year_ofDayNumber_mem {n : Int} (hfirst : toDayNumber ⟨firstYear, 1, 1⟩ ≤ n)
    (hlast : n ≤ toDayNumber ⟨lastYear, 12, 31⟩) :
    firstYear ≤ (ofDayNumber n).year ∧ (ofDayNumber n).year ≤ lastYear := by
  have hfirstDay : toDayNumber ⟨firstYear, 1, 1⟩ = -96465292 := rfl
  have hlastDay : toDayNumber ⟨lastYear, 12, 31⟩ = 95026236 := rfl
  obtain ⟨year, day, heq, h0, h1, -, hn⟩ := exists_ofDayNumber n
  rw [heq]
  show firstYear ≤ (if (5 * day + 2) / 153 < 10 then year else year + 1) ∧
    (if (5 * day + 2) / 153 < 10 then year else year + 1) ≤ lastYear
  simp only [firstYear, lastYear, daysPerEra, epochOffset] at hfirstDay hlastDay hfirst hlast hn ⊢
  have hera : -656 ≤ year / 400 ∧ year / 400 ≤ 655 := by omega
  -- only in the first and in the last of these eras the day of the year counts
  constructor
  · by_cases hfirstEra : year / 400 = -656
    · rw [hfirstEra] at hn
      split <;> omega
    · split <;> omega
  · by_cases hlastEra : year / 400 = 655
    · rw [hlastEra] at hn
      split <;> omega
    · split <;> omega

end Date

end WindowQuery
