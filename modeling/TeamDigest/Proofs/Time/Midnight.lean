import TeamDigest.Proofs.Time.Calendar
import TeamDigest.Time.Instant

/-!
# Local midnights around an instant

A day begins at midnight of the local time, which may be ahead of universal time or behind
it.  As long as it is so by no more than a whole day, the day before that of an instant has
begun at the instant (`midnight_le_of_addDays?`), and the day after the next has not
(`lt_midnight_of_addDays?`), days taken by universal time.  Only where local time is a whole
day behind, a leap second at the end of a day may still lie before the local midnight.
-/

namespace TeamDigest.Time

/-- The beginning of a day in local time, which is ahead of universal time by a number of
nanoseconds that may differ from day to day. -/
def midnight (offset : Date → Int) (d : Date) : Instant :=
  ⟨d.dayNumber * daySeconds + -offset d / giga, (-offset d % giga).toNat⟩

variable {offset : Date → Int} {t moved : Instant}

/-- A move by whole days out of a leap second and back leads to the next second. -/
theorem second_of_addDays? {days : Int} (h : t.addDays? days = some moved) :
    moved.second =
      t.second + days * daySeconds + (if giga ≤ t.nano ∧ days < 0 then 1 else 0) := by
  unfold Instant.addDays? at h
  rw [Option.ite_none_right_eq_some] at h
  obtain ⟨-, hmoved⟩ := h
  obtain rfl := Option.some.inj hmoved
  by_cases hleap : giga ≤ t.nano ∧ days ≠ 0
  · rw [if_pos hleap]
    simp only [hleap.1, true_and]
  · have hnone : ¬ (giga ≤ t.nano ∧ days < 0) := by omega
    rw [if_neg hleap, if_neg hnone, Int.add_zero]

/-- The local midnight of the day of an instant, in seconds. -/
theorem second_midnight_date (offset : Date → Int) (t : Instant) :
    (midnight offset t.date).second =
      t.second / daySeconds * daySeconds + -offset t.date / giga := by
  have hnumber : t.date.dayNumber = t.second / daySeconds := dayNumber_ofDayNumber _
  rw [midnight, hnumber]

theorem midnight_le_of_addDays? (hmoved : t.addDays? (-1) = some moved)
    (hoffset : -Instant.ofHours 24 ≤ offset moved.date)
    (hleap : offset moved.date = -Instant.ofHours 24 → t.nano < giga) :
    midnight offset moved.date ≤ t := by
  have hsecond := second_of_addDays? hmoved
  have hmidnight := second_midnight_date offset moved
  have hnano : (midnight offset moved.date).nano = (-offset moved.date % giga).toNat := rfl
  rw [Instant.le_def, hmidnight, hnano]
  unfold Instant.ofHours at hoffset hleap
  unfold daySeconds at hsecond ⊢
  unfold giga at *
  split at hsecond <;> omega

theorem lt_midnight_of_addDays? {u : Instant} (hmoved : t.addDays? 2 = some moved)
    (hoffset : offset moved.date ≤ Instant.ofHours 24) (hu : u < t) :
    u < midnight offset moved.date := by
  have hsecond := second_of_addDays? hmoved
  have hmidnight := second_midnight_date offset moved
  rw [Instant.lt_def] at hu ⊢
  rw [hmidnight]
  unfold Instant.ofHours at hoffset
  unfold daySeconds at hsecond ⊢
  unfold giga at *
  split at hsecond <;> omega

end TeamDigest.Time
