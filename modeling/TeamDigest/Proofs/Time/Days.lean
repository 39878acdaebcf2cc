import TeamDigest.Time.Instant

/-!
# Days before and after an instant

The time that has elapsed between two instants is compared with a number of days.  Away from
leap seconds this is a comparison of instants: of the one some days after the first with the
second (`ofDays_lt_elapsed_iff`, `elapsed_le_ofDays_iff`).
-/

namespace TeamDigest.Time.Instant

/-- The same time of day some days later. -/
def daysLater (t : Instant) (days : Int) : Instant := ⟨t.second + days * daySeconds, t.nano⟩

variable {a b c : Instant} {days : Int}

theorem le_of_lt (h : a < b) : a ≤ b := by
  rw [lt_def] at h
  rw [le_def]
  omega

theorem lt_of_le_of_lt (h₁ : a ≤ b) (h₂ : b < c) : a < c := by
  rw [le_def] at h₁
  rw [lt_def] at h₂ ⊢
  omega

theorem le_antisymm (h₁ : a ≤ b) (h₂ : b ≤ a) : a = b := by
  cases a
  cases b
  simp only [Instant.le_def, Instant.mk.injEq] at *
  omega

theorem daysLater_le (h : a ≤ b) (days : Int) : a.daysLater days ≤ b.daysLater days := by
  rw [le_def] at h ⊢
  unfold daysLater
  dsimp only
  omega

/-- More days than so many have elapsed. -/
theorem ofDays_lt_elapsed_iff (ha : a.nano < giga) (hb : b.nano < giga) :
    ofDays days < elapsed a b ↔ a.daysLater days < b := by
  rw [elapsed_eq ha hb, lt_def, ofDays, daysLater]
  unfold giga daySeconds at *
  dsimp only
  omega

theorem elapsed_le_ofDays_iff (ha : a.nano < giga) (hb : b.nano < giga) :
    elapsed a b ≤ ofDays days ↔ b ≤ a.daysLater days := by
  rw [← not_lt, ← ofDays_lt_elapsed_iff ha hb, Int.not_lt]

end TeamDigest.Time.Instant
