import TeamDigest.Report.Progress
import Mathlib.Data.Nat.ModEq

/-!
# What a bar says

The bar of a line of progress and the percentage behind it are rounded down apart from
each other, and so are the filled cells and those among them that stand for the window.
As long as the counts are in order and their products fit a word, all of them tell the
same: the filled cells are the tens of the percentage, and the cells of either kind are
the tenths of its own count, up to one cell that rounding may add (`bar_of_counts`).

A quotient by zero is zero here, so an empty milestone needs no case of its own.
-/

namespace TeamDigest.Report.Progress

open Number

/-! ## Rounding down -/

/-- Rounding down after a subtraction and before it differs by one at most. -/
theorem div_sub_div_of_le {a b : Nat} (h : a ≤ b) (n : Nat) :
    b / n - a / n = (b - a) / n ∨ b / n - a / n = (b - a) / n + 1 := by
  have hlow : a / n + (b - a) / n ≤ (a + (b - a)) / n := Nat.div_add_div_le_add_div
  have hhigh := Nat.add_div_le_div_add_div_add_one a (b - a) n
  rw [Nat.add_sub_cancel' h] at hlow hhigh
  -- the quotients are mere numbers from here on
  generalize a / n = part at *
  generalize b / n = whole at *
  generalize (b - a) / n = rest at *
  omega

/-- All tenths are there only if the whole is. -/
theorem tenths_eq_ten_iff {part whole : Nat} (h : part ≤ whole) :
    10 * part / whole = 10 ↔ part = whole ∧ 0 < whole := by
  rcases Nat.eq_zero_or_pos whole with rfl | hpos
  · simp
  · constructor
    · intro hten
      have hle := Nat.div_mul_le_self (10 * part) whole
      rw [hten] at hle
      omega
    · rintro ⟨rfl, -⟩
      exact Nat.mul_div_cancel 10 hpos

theorem tenths_le {part whole : Nat} (h : part ≤ whole) : 10 * part / whole ≤ 10 :=
  Nat.div_le_of_le_mul (by omega)

/-- Tenths are the tens of the percentage. -/
theorem tenths_eq_hundredths_div (part whole : Nat) :
    10 * part / whole = 100 * part / whole / 10 := by
  rw [Nat.div_div_eq_div_mul, Nat.mul_comm whole 10, show 100 * part = 10 * (10 * part) by omega,
    Nat.mul_div_mul_left _ _ (by decide)]

/-! ## The cells of a bar -/

/-- A product that fits a word is not cut. -/
theorem times_eq {a b : Nat} (h : b * a < wordSize64) : times a b = b * a := by
  rw [times, Nat.mul_comm a b, Nat.mod_eq_of_lt h]

section Counts

variable {p : Progress} (hresolved : p.resolved ≤ p.closed) (hclosed : p.closed ≤ p.total)
  (hword : 100 * p.closed < wordSize64)

include hword

theorem percent_eq : p.percent = 100 * p.closed / p.total := by
  rw [percent, times_eq hword]
  split
  · next hzero => rw [hzero, Nat.div_zero]
  · rfl

include hclosed

theorem closedCells_eq : p.closedCells = 10 * p.closed / p.total := by
  have hfits : width * p.closed < wordSize64 := by
    rw [width]
    omega
  rw [closedCells, times_eq hfits, width, Nat.min_eq_left (tenths_le hclosed)]
  split
  · next hzero => rw [hzero, Nat.div_zero]
  · rfl

include hresolved

theorem windowCells_eq : p.windowCells = 10 * p.resolved / p.total := by
  have hfits : width * p.resolved < wordSize64 := by
    rw [width]
    omega
  have hle : 10 * p.resolved / p.total ≤ p.closedCells := by
    rw [closedCells_eq hclosed hword]
    exact Nat.div_le_div_right (by omega)
  rw [windowCells, times_eq hfits, width, Nat.min_eq_left hle]
  split
  · next hzero => rw [hzero, Nat.div_zero]
  · rfl

end Counts

/-- The bar of counts that are in order: nothing is ever taken from less, the ten cells are
blue, then yellow, then white, those that are filled are the tens of the percentage, and
all are filled only where all work is closed; the yellow cells are the tenths of what was
resolved in the window, the blue ones those of the other closed work or one more. -/
theorem bar_of_counts (p : Progress) (hresolved : p.resolved ≤ p.closed)
    (hclosed : p.closed ≤ p.total) (hword : 100 * p.closed < wordSize64) :
    (p.windowCells ≤ p.closedCells ∧ p.closedCells ≤ width) ∧
    p.percent = 100 * p.closed / p.total ∧ p.percent ≤ 100 ∧
    ∃ blue yellow white,
      p.bar = String.ofList (List.replicate blue '🟦' ++ List.replicate yellow '🟨' ++
        List.replicate white '⬜') ∧
      blue + yellow + white = 10 ∧
      blue + yellow = p.percent / 10 ∧
      (blue + yellow = 10 ↔ p.closed = p.total ∧ 0 < p.total) ∧
      yellow = 10 * p.resolved / p.total ∧
      (blue = 10 * (p.closed - p.resolved) / p.total ∨
        blue = 10 * (p.closed - p.resolved) / p.total + 1) ∧
      (p.closed = p.resolved → blue = 0) := by
  have hwindow := p.windowCells_le
  have hwidth := p.closedCells_le
  have hpercent := percent_eq hword
  have hfilled := closedCells_eq hclosed hword
  have hrecent := windowCells_eq hresolved hclosed hword
  have hcells : p.closedCells - p.windowCells + p.windowCells = p.closedCells :=
    Nat.sub_add_cancel hwindow
  refine ⟨⟨hwindow, hwidth⟩, hpercent, ?_, p.closedCells - p.windowCells, p.windowCells,
    width - p.closedCells, ?_, ?_, ?_, ?_, hrecent, ?_, ?_⟩
  · rw [hpercent]
    exact Nat.div_le_of_le_mul (by omega)
  · simp only [bar, cells, List.map_append, List.map_replicate, Cell.sign, List.append_assoc]
  · rw [width] at hwidth ⊢
    omega
  · rw [hcells, hfilled, hpercent]
    exact tenths_eq_hundredths_div p.closed p.total
  · rw [hcells, hfilled]
    exact tenths_eq_ten_iff hclosed
  · rw [hfilled, hrecent, Nat.mul_sub]
    exact div_sub_div_of_le (Nat.mul_le_mul_left 10 hresolved) p.total
  · intro hsame
    rw [hfilled, hrecent, hsame, Nat.sub_self]

/-- Five of seven are closed, two of them in the window: rounding adds a blue cell to the
four tenths of the other three. -/
theorem bar_of_five_of_seven :
    ((2 ≤ 5 ∧ 5 ≤ 7) ∧ 100 * 5 < wordSize64) ∧
    ∃ blue yellow white,
      (⟨7, 5, 2, 0⟩ : Progress).bar = String.ofList (List.replicate blue '🟦' ++
        List.replicate yellow '🟨' ++ List.replicate white '⬜') ∧
      (⟨7, 5, 2, 0⟩ : Progress).percent = 71 ∧ blue + yellow = 7 ∧ yellow = 2 ∧ white = 3 ∧
      blue = 10 * (5 - 2) / 7 + 1 := by
  obtain ⟨-, hpercent, -, blue, yellow, white, hbar, hten, hfilled, -, hyellow, -, -⟩ :=
    bar_of_counts ⟨7, 5, 2, 0⟩ (by decide) (by decide) (by decide)
  have hshare : (⟨7, 5, 2, 0⟩ : Progress).percent = 71 := hpercent
  have hseven : blue + yellow = 7 := by rw [hfilled, hshare]
  have htwo : yellow = 2 := hyellow
  exact ⟨by decide, blue, yellow, white, hbar, hshare, hseven, htwo, by omega, by omega⟩

end TeamDigest.Report.Progress
