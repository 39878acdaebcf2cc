import TeamDigest.Proofs.Time.Calendar
import TeamDigest.Time.Reader
import TeamDigest.Time.Writer

/-!
# Instants that are read as they were written

The text of an instant loses nothing: it is read as that very instant
(`Instant.read?_toText`), as long as the instant falls into the calendar and a leap second
is the last second of a minute (`Instant.OfCalendar`).  Every clock shows such instants
only.

## Strategy

The text consists of numbers of two digits at least with marks between them, and each part
of the reader takes off the number with which a text begins: the year with its sign
(`year?_append`), a number of fixed width (`number?_append`), the fraction
(`fraction?_append`).  What is put together from these numbers is the instant, since a day
has the number from which its date was made (`dayNumber_ofDayNumber`).
-/

namespace TeamDigest.Time

open Text Reader

/-- The instant falls into the calendar, and if it falls into a leap second, then into that
at the end of a minute. -/
structure Instant.OfCalendar (t : Instant) : Prop where
  inCalendar : t.inCalendar = true
  nano_lt : t.nano < 2 * giga
  leap : giga ≤ t.nano → t.second % 60 = 59

/-- An instant of the calendar outside of leap seconds. -/
theorem Instant.OfCalendar.of_ordinary {t : Instant} (h : t.inCalendar = true)
    (hnano : t.nano < giga) : t.OfCalendar where
  inCalendar := h
  nano_lt := Nat.lt_of_lt_of_le hnano (by decide)
  leap hleap := absurd hnano (Nat.not_lt.2 hleap)

/-! ## Numbers -/

theorem isBlank_of_isAsciiDigit {c : Char} (h : isAsciiDigit c = true) : isBlank c = false := by
  have hle : 48 ≤ c.toNat ∧ c.toNat ≤ 57 := by
    simpa [isAsciiDigit, Char.le_def, UInt32.le_iff_toNat_le] using h
  simp only [isBlank, Bool.or_eq_false_iff, Bool.and_eq_false_iff, decide_eq_false_iff_not,
    beq_eq_false_iff_ne]
  omega

/-- Text that begins with a digit has no blanks to be trimmed. -/
theorem trimStart_append_of_digits {ds rest : List Char} (hne : ds ≠ [])
    (hds : ∀ c ∈ ds, isAsciiDigit c = true) : trimStart (ds ++ rest) = ds ++ rest := by
  obtain ⟨c, cs, rfl⟩ := List.exists_cons_of_ne_nil hne
  exact trimStart_cons_of_not_blank (isBlank_of_isAsciiDigit (hds c List.mem_cons_self))

/-- A number that fills its field is read to its end. -/
theorem number?_append {width n : Nat} (hwidth : 0 < width) (hn : n < Nat.pow 10 width)
    (rest : List Char) : number? width (padded width n ++ rest) = some (n, rest) := by
  have hlength : (padded width n).length = width :=
    length_padded ((Nat.length_toDigits_le_iff (by decide) hwidth).2 hn)
  have hdigits : ∀ c ∈ padded width n, isAsciiDigit c = true :=
    fun _ => isAsciiDigit_of_mem_padded
  have hne : padded width n ≠ [] := by
    intro hnil
    rw [hnil] at hlength
    exact absurd hlength (Nat.ne_of_lt hwidth)
  have htake : (padded width n ++ rest).take width = padded width n := List.take_left' hlength
  have hall : (padded width n).takeWhile isAsciiDigit = padded width n := by
    have hend : ∀ c ∈ ([] : List Char).head?, isAsciiDigit c = false := by simp
    simpa using (span_of_all hdigits hend).1
  simp only [number?, trimStart_append_of_digits hne hdigits, htake, hall]
  rw [if_neg (by simpa using hne), numeralValue_padded, List.drop_left]

/-- The digits after a sign are read up to the next mark. -/
theorem signed?_append {width n : Nat} {rest : List Char}
    (hrest : ∀ c ∈ rest.head?, isAsciiDigit c = false) :
    year?.signed? (padded width n ++ rest) = some (n, rest) := by
  have hne : padded width n ≠ [] := by simp [padded, numeral_ne_nil]
  rw [year?.signed?, spanDigits_of_all (fun _ => isAsciiDigit_of_mem_padded) hrest]
  simp only
  rw [if_neg (by simpa using hne), numeralValue_padded]

theorem year?_append (year : Int) {rest : List Char}
    (hrest : ∀ c ∈ rest.head?, isAsciiDigit c = false) :
    year? ((yearText year).toList ++ rest) = some (year, rest) := by
  unfold yearText
  dsimp only
  split
  · next hnegative =>
    have hyear : -(year.natAbs : Int) = year := by omega
    have hchars : ("-" ++ String.ofList (padded 4 year.natAbs)).toList ++ rest =
        '-' :: (padded 4 year.natAbs ++ rest) := by simp
    rw [hchars, year?, trimStart_cons_of_not_blank (by decide)]
    simp only [signed?_append hrest, Option.bind_eq_bind, Option.bind_some, hyear]
  · split
    · next hnegative hlong =>
      have hyear : (year.natAbs : Int) = year := by omega
      have hchars : ("+" ++ String.ofList (padded 4 year.natAbs)).toList ++ rest =
          '+' :: (padded 4 year.natAbs ++ rest) := by simp
      rw [hchars, year?, trimStart_cons_of_not_blank (by decide)]
      simp only [signed?_append hrest, Option.bind_eq_bind, Option.bind_some, hyear]
    · next hnegative hshort =>
      have hyear : (year.natAbs : Int) = year := by omega
      rw [String.toList_ofList]
      have hne : padded 4 year.natAbs ≠ [] := by simp [padded, numeral_ne_nil]
      have hdigits : ∀ c ∈ padded 4 year.natAbs, isAsciiDigit c = true :=
        fun _ => isAsciiDigit_of_mem_padded
      have hnumber := number?_append (by decide : 0 < 4) (show year.natAbs < 10000 by omega) rest
      -- The first digit is none of the two signs.
      obtain ⟨c, cs, hcons⟩ := List.exists_cons_of_ne_nil hne
      have hc : isAsciiDigit c = true := hdigits c (hcons ▸ List.mem_cons_self)
      rw [year?, trimStart_append_of_digits hne hdigits]
      split
      · next after hsign =>
        rw [hcons] at hsign
        obtain rfl := (List.cons.inj hsign).1
        exact absurd hc (by decide)
      · next after hsign =>
        rw [hcons] at hsign
        obtain rfl := (List.cons.inj hsign).1
        exact absurd hc (by decide)
      · simp only [hnumber, Option.bind_eq_bind, Option.bind_some, hyear]

/-- What follows a point is a fraction of as many digits as are written. -/
theorem fraction?_point {width n nano : Nat} (hwidth : 0 < width) (hle : width ≤ 9)
    (hn : n < Nat.pow 10 width) (hnano : n * Nat.pow 10 (9 - width) = nano) {rest : List Char}
    (hrest : ∀ c ∈ rest.head?, isAsciiDigit c = false) :
    fraction? ('.' :: (padded width n ++ rest)) = some (nano, rest) := by
  have hlength : (padded width n).length = width :=
    length_padded ((Nat.length_toDigits_le_iff (by decide) hwidth).2 hn)
  have hne : padded width n ≠ [] := by simp [padded, numeral_ne_nil]
  have htake : (padded width n).take 9 = padded width n :=
    List.take_of_length_le (by omega)
  rw [fraction?, spanDigits_of_all (fun _ => isAsciiDigit_of_mem_padded) hrest]
  simp only [htake, hlength, numeralValue_padded, hnano]
  rw [if_neg (by simpa using hne)]

theorem fraction?_append (t : Instant) (rest : List Char) :
    fraction? (t.fractionText.toList ++ 'Z' :: rest) = some (t.nano % giga, 'Z' :: rest) := by
  have hz : ∀ c ∈ ('Z' :: rest).head?, isAsciiDigit c = false := by simp [isAsciiDigit]
  have hlt : t.nano % giga < 1000000000 := Nat.mod_lt _ (by decide)
  have hpoint (width n : Nat) : ("." ++ String.ofList (padded width n)).toList ++ 'Z' :: rest =
      '.' :: (padded width n ++ 'Z' :: rest) := by simp
  unfold Instant.fractionText
  dsimp only
  split
  · next hzero => rw [hzero]; rfl
  · split
    · next hmilli =>
      rw [hpoint]
      exact fraction?_point (by decide) (by decide)
        (show t.nano % giga / 1000000 < 1000 by omega)
        (show t.nano % giga / 1000000 * 1000000 = t.nano % giga by omega) hz
    · split
      · next hmicro =>
        rw [hpoint]
        exact fraction?_point (by decide) (by decide)
          (show t.nano % giga / 1000 < 1000000 by omega)
          (show t.nano % giga / 1000 * 1000 = t.nano % giga by omega) hz
      · next hnano =>
        rw [hpoint]
        exact fraction?_point (by decide) (by decide) hlt (Nat.mul_one _) hz

/-! ## Instants -/

theorem year_ofDayNumber {n : Int} (hfirst : firstDay ≤ n) (hlast : n ≤ lastDay) :
    firstYear ≤ (Date.ofDayNumber n).year ∧ (Date.ofDayNumber n).year ≤ lastYear := by
  obtain ⟨era, yearOfEra, dayOfYear, hyear, hday, -, hsum, hdate⟩ := exists_marchDate n
  have hbegin : firstDay = -96465292 := by decide
  have hend : lastDay = 95026236 := by decide
  obtain ⟨hfirstMonth, hlastMonth⟩ := month_marchDate (yearOfEra + era * 400) hday
  have hmarch := march_marchDate (yearOfEra + era * 400) hday
  have hmarchYear := year_marchDate (yearOfEra + era * 400) dayOfYear
  rw [hbegin] at hfirst
  rw [hend] at hlast
  have hera : -656 ≤ era ∧ era ≤ 655 := by omega
  rw [hdate, firstYear, lastYear]
  generalize marchDate (yearOfEra + era * 400) dayOfYear = d at *
  by_cases hmonth : d.month ≤ 2
  · -- January and February come last in the year from March on.
    have hmonths : (d.month + 9) % 12 = d.month + 9 := Nat.mod_eq_of_lt (by omega)
    have hlate : 306 ≤ dayOfYear := by omega
    rw [if_pos hmonth] at hmarchYear
    by_cases hlastEra : era = 655
    · omega
    · omega
  · have hmonths : (d.month + 9) % 12 = d.month - 3 := by omega
    have hearly : dayOfYear < 306 := by omega
    rw [if_neg hmonth] at hmarchYear
    by_cases hfirstEra : era = -656
    · omega
    · omega

/-- The fields of the text of an instant. -/
def Instant.reading (t : Instant) : Reading where
  date := t.date
  hour := t.secondOfDay / 3600
  minute := t.secondOfDay / 60 % 60
  second := t.secondOfDay % 60 + t.nano / giga
  nano := t.nano % giga
  offset := 0

theorem secondOfDay_lt (t : Instant) : t.secondOfDay < 86400 := by
  unfold Instant.secondOfDay daySeconds
  omega

/-- The sixtieth second is read as the leap second that it is. -/
theorem second_reading {t : Instant} (h : t.OfCalendar) :
    (if t.reading.second = 60 then 59 else t.reading.second) = t.secondOfDay % 60 ∧
      (if t.reading.second = 60 then t.reading.nano + giga else t.reading.nano) = t.nano := by
  have hminute : t.secondOfDay % 60 = (t.second % 60).toNat := by
    unfold Instant.secondOfDay daySeconds
    omega
  have hnano := h.nano_lt
  have hleap := h.leap
  unfold Instant.reading
  dsimp only
  by_cases hordinary : t.nano < giga
  · have hsecond : ¬ t.secondOfDay % 60 + 0 = 60 := by omega
    rw [Nat.div_eq_of_lt hordinary, Nat.mod_eq_of_lt hordinary, if_neg hsecond, if_neg hsecond]
    exact ⟨rfl, rfl⟩
  · have hone : t.nano / giga = 1 := by
      unfold giga at *
      omega
    have hrest : t.nano % giga + giga = t.nano := by
      unfold giga at *
      omega
    have hsecond : t.secondOfDay % 60 = 59 := by omega
    rw [hone, hsecond, hrest]
    exact ⟨rfl, rfl⟩

theorem isPossible_reading {t : Instant} (h : t.OfCalendar) : t.reading.isPossible = true := by
  obtain ⟨hfirst, hlast⟩ : firstDay ≤ t.dayNumber ∧ t.dayNumber ≤ lastDay := by
    simpa [Instant.inCalendar] using h.inCalendar
  obtain ⟨hfirstYear, hlastYear⟩ := year_ofDayNumber hfirst hlast
  have hsecondOfDay := secondOfDay_lt t
  have hnano := h.nano_lt
  have hhour : t.secondOfDay / 3600 ≤ 23 := by omega
  have hminute : t.secondOfDay / 60 % 60 ≤ 59 := by omega
  have hsecond : t.secondOfDay % 60 + t.nano / giga ≤ 60 := by
    unfold giga at *
    omega
  simp [Reading.isPossible, Instant.reading, Instant.date, exists?_ofDayNumber, hfirstYear,
    hlastYear, hhour, hminute, hsecond]

/-- The fields mean the instant. -/
theorem instant?_reading {t : Instant} (h : t.OfCalendar) : t.reading.instant? = some t := by
  have hday : t.date.dayNumber * daySeconds + t.secondOfDay = t.second := by
    rw [Instant.date, dayNumber_ofDayNumber]
    unfold Instant.dayNumber Instant.secondOfDay daySeconds
    omega
  have hclock : t.reading.hour * 3600 + t.reading.minute * 60 + t.secondOfDay % 60 =
      t.secondOfDay := by
    dsimp only [Instant.reading]
    omega
  have hsame : (⟨t.reading.date.dayNumber * daySeconds + (t.secondOfDay : Int) - t.reading.offset,
      t.nano⟩ : Instant) = t := by
    unfold Instant.reading
    rw [hday, Int.sub_zero]
  obtain ⟨hsecond, hnano⟩ := second_reading h
  rw [Reading.instant?, if_pos (isPossible_reading h)]
  simp only [beq_iff_eq, hsecond, hnano, hclock, hsame]
  rw [if_pos h.inCalendar]

theorem toList_toText (t : Instant) :
    t.toText.toList = (yearText t.date.year).toList ++ '-' :: (padded 2 t.date.month ++
      '-' :: (padded 2 t.date.day ++ 'T' :: (padded 2 (t.secondOfDay / 3600) ++
      ':' :: (padded 2 (t.secondOfDay / 60 % 60) ++
      ':' :: (padded 2 (t.secondOfDay % 60 + t.nano / giga) ++
      (t.fractionText.toList ++ ['Z'])))))) := by
  simp [Instant.toText, Instant.stampText, Instant.dateText, Date.toText, Instant.clockText,
    twoDigits]

/-- A mark is taken off, unless it is blank. -/
theorem mark?_trimStart {c : Char} (hc : isBlank c = false) (rest : List Char) :
    mark? c (trimStart (c :: rest)) = some rest := by
  rw [trimStart_cons_of_not_blank hc]
  exact if_pos rfl

/-- What has been read leads on. -/
theorem bind_of_eq_some {α β : Type} {found : Option α} {a : α} {b : Option β}
    {f : α → Option β} (hfound : found = some a) (hrest : f a = b) : (found >>= f) = b := by
  rw [hfound]
  exact hrest

/-- The text of an instant is read as that instant. -/
theorem Instant.read?_toText {t : Instant} (h : t.OfCalendar) :
    Instant.read? t.toText.toList = some t := by
  have hexists : t.date.exists? = true := exists?_ofDayNumber _
  obtain ⟨⟨⟨-, hmonth⟩, -⟩, hday⟩ : ((1 ≤ t.date.month ∧ t.date.month ≤ 12) ∧
      1 ≤ t.date.day) ∧ t.date.day ≤ daysInMonth t.date.year t.date.month := by
    simpa [Date.exists?] using hexists
  have hdays : daysInMonth t.date.year t.date.month ≤ 31 := by
    unfold daysInMonth
    split
    · split <;> decide
    all_goals decide
  have hsecond := secondOfDay_lt t
  have hnano := h.nano_lt
  have hwhole : t.nano / giga ≤ 1 := by
    unfold giga at *
    omega
  have htwo {n : Nat} (hn : n < 100) (rest : List Char) :
      number? 2 (padded 2 n ++ rest) = some (n, rest) := number?_append (by decide) hn rest
  -- Each step takes off the part of the text that comes next.
  rw [toList_toText]
  refine bind_of_eq_some (year?_append _ (by simp [isAsciiDigit])) ?_
  refine bind_of_eq_some (mark?_trimStart (by decide) _) ?_
  refine bind_of_eq_some (htwo (by omega) _) ?_
  refine bind_of_eq_some (mark?_trimStart (by decide) _) ?_
  refine bind_of_eq_some (htwo (by omega) _) ?_
  refine bind_of_eq_some rfl ?_
  refine bind_of_eq_some (htwo (by omega) _) ?_
  refine bind_of_eq_some (mark?_trimStart (by decide) _) ?_
  refine bind_of_eq_some (htwo (by omega) _) ?_
  refine bind_of_eq_some (mark?_trimStart (by decide) _) ?_
  refine bind_of_eq_some (htwo (by omega) _) ?_
  refine bind_of_eq_some (fraction?_append t []) ?_
  refine bind_of_eq_some rfl ?_
  exact instant?_reading h

end TeamDigest.Time
