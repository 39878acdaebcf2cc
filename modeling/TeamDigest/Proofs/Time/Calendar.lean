import TeamDigest.Time.Calendar

/-!
# Days and their numbers

The date with a number is a date of the calendar (`exists?_ofDayNumber`), and it has just
that number (`dayNumber_ofDayNumber`).

Both go through the parts of an era: a day of an era is given by its century, its cycle of
four years within the century, its year within the cycle and its day within the year, years
counted from March (`EraDay`).  In these parts all of the arithmetic is linear.
-/

namespace TeamDigest.Time

/-- The parts of a day of an era.  Only leap years have a day 365: the last year of a cycle,
but of the last cycles of centuries only that of the last century. -/
structure EraDay (dayOfEra century cycle year day : Nat) : Prop where
  century_le : century ≤ 3
  cycle_le : cycle ≤ 24
  year_le : year ≤ 3
  day_le : day ≤ 365
  leap : day = 365 → year = 3 ∧ (cycle = 24 → century = 3)
  sum : dayOfEra = 36524 * century + 1461 * cycle + 365 * year + day

theorem exists_eraDay {dayOfEra : Nat} (h : dayOfEra < 146097) :
    ∃ century cycle year day, EraDay dayOfEra century cycle year day := by
  obtain ⟨century, rest, hcentury, hrest, hlast, hsum⟩ : ∃ century rest, century ≤ 3 ∧
      rest ≤ 36524 ∧ (rest = 36524 → century = 3) ∧ dayOfEra = 36524 * century + rest := by
    by_cases hearly : dayOfEra < 109572
    · exact ⟨dayOfEra / 36524, dayOfEra % 36524, by omega, by omega, by omega, by omega⟩
    · exact ⟨3, dayOfEra - 109572, by omega, by omega, by omega, by omega⟩
  by_cases hearly : rest % 1461 < 1095
  · exact ⟨century, rest / 1461, rest % 1461 / 365, rest % 1461 % 365,
      hcentury, by omega, by omega, by omega, by omega, by omega⟩
  · exact ⟨century, rest / 1461, 3, rest % 1461 - 1095,
      hcentury, by omega, by omega, by omega, by omega, by omega⟩

namespace EraDay

variable {dayOfEra century cycle year day : Nat}

/-- The year of the era, as the calendar computes it. -/
theorem yearOfEra (h : EraDay dayOfEra century cycle year day) :
    (dayOfEra - dayOfEra / 1460 + dayOfEra / 36524 - dayOfEra / 146096) / 365 =
      100 * century + 4 * cycle + year := by
  obtain ⟨hcentury, hcycle, hyear, hday, hleap, hsum⟩ := h
  have hcenturies : dayOfEra / 36524 - dayOfEra / 146096 = century ∧
      dayOfEra / 146096 ≤ dayOfEra / 36524 := by omega
  by_cases hlate : 1460 ≤ 24 * century + cycle + 365 * year + day
  · have hcycles : dayOfEra / 1460 = 25 * century + cycle + 1 := by omega
    omega
  · have hcycles : dayOfEra / 1460 = 25 * century + cycle := by omega
    omega

/-- The days of the era before its year. -/
theorem daysBefore (h : EraDay dayOfEra century cycle year day) {yearOfEra : Nat}
    (hyear : yearOfEra = 100 * century + 4 * cycle + year) :
    365 * yearOfEra + yearOfEra / 4 - yearOfEra / 100 + day = dayOfEra := by
  obtain ⟨hcentury, hcycle, hle, -, -, hsum⟩ := h
  have hcycles : yearOfEra / 4 = 25 * century + cycle := by omega
  have hcenturies : yearOfEra / 100 = century := by omega
  omega

end EraDay

theorem isLeapYear_iff {year : Int} :
    isLeapYear year = true ↔ year % 4 = 0 ∧ (year % 100 ≠ 0 ∨ year % 400 = 0) := by
  simp [isLeapYear]

/-- What bounds the days of a month. -/
theorem le_daysInMonth {year : Int} {month day : Nat} (hday : day ≤ 31)
    (hshort : month = 4 ∨ month = 6 ∨ month = 9 ∨ month = 11 → day ≤ 30)
    (hfebruary : month = 2 → day ≤ 29 ∧ (day = 29 → isLeapYear year = true)) :
    day ≤ daysInMonth year month := by
  unfold daysInMonth
  split
  · obtain ⟨hle, hleap⟩ := hfebruary rfl
    split
    · exact hle
    · next hcommon =>
        have hne : day ≠ 29 := fun hlast => hcommon (hleap hlast)
        omega
  · exact hshort (by omega)
  · exact hshort (by omega)
  · exact hshort (by omega)
  · exact hshort (by omega)
  · exact hday

/-- The day of a year that begins in March, after so many others. -/
def marchDate (year : Int) (dayOfYear : Nat) : Date :=
  let march := (5 * dayOfYear + 2) / 153
  let month := if march < 10 then march + 3 else march - 9
  { year := if month ≤ 2 then year + 1 else year
    month := month
    day := dayOfYear - (153 * march + 2) / 5 + 1 }

section MarchDate

variable (year : Int) {dayOfYear : Nat}

theorem month_marchDate (h : dayOfYear ≤ 365) :
    1 ≤ (marchDate year dayOfYear).month ∧ (marchDate year dayOfYear).month ≤ 12 := by
  dsimp only [marchDate]
  split <;> omega

/-- The months since March. -/
theorem march_marchDate (h : dayOfYear ≤ 365) :
    ((marchDate year dayOfYear).month + 9) % 12 = (5 * dayOfYear + 2) / 153 := by
  dsimp only [marchDate]
  split <;> omega

theorem year_marchDate (dayOfYear : Nat) : (if (marchDate year dayOfYear).month ≤ 2
    then (marchDate year dayOfYear).year - 1 else (marchDate year dayOfYear).year) = year := by
  by_cases hmonth : (marchDate year dayOfYear).month ≤ 2
  · have hyear : (marchDate year dayOfYear).year = year + 1 := if_pos hmonth
    rw [if_pos hmonth, hyear]
    omega
  · have hyear : (marchDate year dayOfYear).year = year := if_neg hmonth
    rw [if_neg hmonth, hyear]

theorem day_marchDate (dayOfYear : Nat) : (153 * ((5 * dayOfYear + 2) / 153) + 2) / 5 +
    (marchDate year dayOfYear).day = dayOfYear + 1 := by
  dsimp only [marchDate]
  omega

theorem exists?_marchDate (h : dayOfYear ≤ 365)
    (hleap : dayOfYear = 365 → isLeapYear (year + 1) = true) :
    (marchDate year dayOfYear).exists? = true := by
  obtain ⟨hfirst, hlast⟩ := month_marchDate year h
  have hmarch := march_marchDate year h
  have hyear := year_marchDate year dayOfYear
  have hday := day_marchDate year dayOfYear
  have hle : (marchDate year dayOfYear).day ≤
      daysInMonth (marchDate year dayOfYear).year (marchDate year dayOfYear).month := by
    apply le_daysInMonth
    · omega
    · intro hshort
      omega
    · intro hfebruary
      rw [hfebruary, if_pos (Nat.le_refl 2)] at hyear
      have hnext : (marchDate year dayOfYear).year = year + 1 := by omega
      rw [hnext]
      exact ⟨by omega, fun hleapDay => hleap (by omega)⟩
  simp only [Date.exists?, Bool.and_eq_true, decide_eq_true_eq]
  exact ⟨⟨⟨hfirst, hlast⟩, by omega⟩, hle⟩

end MarchDate

/-- The date with a number lies in some year of an era, whose number of days leads to it. -/
theorem exists_marchDate (n : Int) : ∃ (era : Int) (yearOfEra dayOfYear : Nat),
    yearOfEra < 400 ∧ dayOfYear ≤ 365 ∧
    (dayOfYear = 365 → isLeapYear (yearOfEra + era * 400 + 1) = true) ∧
    n + 719468 = era * 146097 +
      ((365 * yearOfEra + yearOfEra / 4 - yearOfEra / 100 + dayOfYear : Nat) : Int) ∧
    Date.ofDayNumber n = marchDate (yearOfEra + era * 400) dayOfYear := by
  have hpos : 0 ≤ (n + 719468) % 146097 := Int.emod_nonneg _ (by decide)
  have hlt : (n + 719468) % 146097 < 146097 := Int.emod_lt_of_pos _ (by decide)
  have hdayOfEra : ((n + 719468) % 146097).toNat < 146097 := by omega
  obtain ⟨century, cycle, year, day, hday⟩ := exists_eraDay hdayOfEra
  have hyear := hday.yearOfEra
  have hbefore := hday.daysBefore rfl
  obtain ⟨hcentury, hcycle, hle, hdayle, hleap, -⟩ := hday
  refine ⟨(n + 719468) / 146097, 100 * century + 4 * cycle + year, day, by omega, hdayle,
    ?_, ?_, ?_⟩
  · intro hlast
    have hparts := hleap hlast
    rw [isLeapYear_iff]
    omega
  · omega
  · have hdayOfYear : ((n + 719468) % 146097).toNat -
        (365 * (100 * century + 4 * cycle + year) + (100 * century + 4 * cycle + year) / 4 -
          (100 * century + 4 * cycle + year) / 100) = day := by omega
    simp only [Date.ofDayNumber, marchDate, hyear, hdayOfYear]

theorem dayNumber_ofDayNumber (n : Int) : (Date.ofDayNumber n).dayNumber = n := by
  obtain ⟨era, yearOfEra, dayOfYear, hyear, hday, -, hsum, hdate⟩ := exists_marchDate n
  have hdayOfYear := day_marchDate (yearOfEra + era * 400) dayOfYear
  rw [hdate, Date.dayNumber, year_marchDate, march_marchDate _ hday]
  omega

theorem exists?_ofDayNumber (n : Int) : (Date.ofDayNumber n).exists? = true := by
  obtain ⟨era, yearOfEra, dayOfYear, -, hday, hleap, -, hdate⟩ := exists_marchDate n
  rw [hdate]
  exact exists?_marchDate _ hday hleap

end TeamDigest.Time
