import TeamDigest.Time.Calendar

/-!
# Instants

An instant is a second of the universal time scale, counted from the start of
1970, and nanoseconds within it.  A leap second has no number of its own: it is
the second before it, with a thousand million nanoseconds or more.

Instants are ordered by second and then by nanosecond.  `elapsed` is the signed
distance between two of them and `addDays?` moves by whole days; both count a
leap second only where they have to step over it.
-/

namespace TeamDigest.Time

/-- A point of the universal time scale. -/
structure Instant where
  /-- Seconds from the start of 1970, leap seconds not counted. -/
  second : Int
  /-- Nanoseconds within the second; from `giga` on inside a leap second. -/
  nano : Nat
  deriving DecidableEq, Inhabited

/-- The nanoseconds of a second. -/
def giga : Nat := 1000000000

/-- The seconds of a day. -/
def daySeconds : Int := 86400

namespace Instant

instance : LT Instant where
  lt a b := a.second < b.second ∨ (a.second = b.second ∧ a.nano < b.nano)

instance : LE Instant where
  le a b := a.second < b.second ∨ (a.second = b.second ∧ a.nano ≤ b.nano)

theorem lt_def {a b : Instant} :
    a < b ↔ a.second < b.second ∨ (a.second = b.second ∧ a.nano < b.nano) := Iff.rfl

theorem le_def {a b : Instant} :
    a ≤ b ↔ a.second < b.second ∨ (a.second = b.second ∧ a.nano ≤ b.nano) := Iff.rfl

instance (a b : Instant) : Decidable (a < b) :=
  inferInstanceAs (Decidable (_ ∨ _))

instance (a b : Instant) : Decidable (a ≤ b) :=
  inferInstanceAs (Decidable (_ ∨ _))

instance : Ord Instant where
  compare := compareLex (compareOn Instant.second) (compareOn Instant.nano)

instance : Std.TransOrd Instant :=
  inferInstanceAs (Std.TransCmp (compareLex (compareOn Instant.second) (compareOn Instant.nano)))

instance : Std.LawfulEqOrd Instant where
  eq_of_compare {a b} h := by
    cases a with
    | mk s n =>
      cases b with
      | mk t m =>
        have h : (compare s t).then (compare n m) = .eq := h
        obtain ⟨hs, hn⟩ := Ordering.then_eq_eq.1 h
        rw [Std.LawfulEqOrd.eq_of_compare hs, Std.LawfulEqOrd.eq_of_compare hn]

/-- The number of the day on which the instant falls. -/
def dayNumber (t : Instant) : Int := t.second / daySeconds

/-- The date on which the instant falls. -/
def date (t : Instant) : Date := Date.ofDayNumber t.dayNumber

/-- The seconds since the day began. -/
def secondOfDay (t : Instant) : Nat := (t.second % daySeconds).toNat

/-- Holds when the instant falls on a day of the calendar in use. -/
def inCalendar (t : Instant) : Bool :=
  firstDay ≤ t.dayNumber && t.dayNumber ≤ lastDay

/-- The start of a day. -/
def startOf (d : Date) : Instant := ⟨d.dayNumber * daySeconds, 0⟩

/-- The nanoseconds from `a` to `b`.  A leap second at the earlier of the two
times of day lies between them and is counted. -/
def elapsed (a b : Instant) : Int :=
  let leap : Int :=
    if a.secondOfDay < b.secondOfDay then (if giga ≤ a.nano then 1 else 0)
    else if b.secondOfDay < a.secondOfDay then (if giga ≤ b.nano then -1 else 0)
    else 0
  (b.second - a.second + leap) * giga + (b.nano - a.nano)

/-- The nanoseconds of a number of days. -/
def ofDays (days : Int) : Int := days * daySeconds * giga

/-- The nanoseconds of a number of hours. -/
def ofHours (hours : Int) : Int := hours * 3600 * giga

/-- The instant `days` days later, or earlier when `days` is negative; `none`
when that lies outside the calendar.  A move away from a leap second lands in
an ordinary one. -/
def addDays? (t : Instant) (days : Int) : Option Instant :=
  let moved : Instant :=
    if giga ≤ t.nano ∧ days ≠ 0 then
      ⟨t.second + days * daySeconds + (if days < 0 then 1 else 0), t.nano - giga⟩
    else ⟨t.second + days * daySeconds, t.nano⟩
  if moved.inCalendar then some moved else none

theorem lt_irrefl (a : Instant) : ¬ a < a := by
  rw [lt_def]; omega

theorem le_refl (a : Instant) : a ≤ a := by
  rw [le_def]; omega

theorem le_trans {a b c : Instant} (h₁ : a ≤ b) (h₂ : b ≤ c) : a ≤ c := by
  rw [le_def] at *; omega

theorem le_total (a b : Instant) : a ≤ b ∨ b ≤ a := by
  rw [le_def, le_def]; omega

theorem not_le {a b : Instant} : ¬ a ≤ b ↔ b < a := by
  rw [le_def, lt_def]; omega

theorem not_lt {a b : Instant} : ¬ a < b ↔ b ≤ a := by
  rw [le_def, lt_def]; omega

/-- Away from leap seconds the time elapsed is the difference of the times. -/
theorem elapsed_eq {a b : Instant} (ha : a.nano < giga) (hb : b.nano < giga) :
    elapsed a b = (b.second - a.second) * giga + (b.nano - a.nano) := by
  have h₁ : ¬ giga ≤ a.nano := by omega
  have h₂ : ¬ giga ≤ b.nano := by omega
  simp [elapsed, h₁, h₂]

theorem elapsed_le_elapsed {a b c : Instant} (ha : a.nano < giga) (hb : b.nano < giga)
    (hc : c.nano < giga) (h : b ≤ c) : elapsed a b ≤ elapsed a c := by
  rw [elapsed_eq ha hb, elapsed_eq ha hc]
  rw [le_def] at h
  unfold giga at *
  omega

/-- Less time has passed since a later instant. -/
theorem elapsed_le_elapsed_of_le {a b c : Instant} (ha : a.nano < giga) (hb : b.nano < giga)
    (hc : c.nano < giga) (h : a ≤ b) : elapsed b c ≤ elapsed a c := by
  rw [elapsed_eq ha hc, elapsed_eq hb hc]
  rw [le_def] at h
  unfold giga at *
  omega

end Instant

end TeamDigest.Time
