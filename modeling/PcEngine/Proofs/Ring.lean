/-
PcEngine/Proofs/Ring.lean

Values written around a ring of cells.

A writer that moves on with every value, and from the last cell to the first, writes over
itself when it comes round.  So a cell that is hit is left with the last value that hits it
(`getElem_writeAround_of_last`), and all other cells are left alone
(`getElem_writeAround_of_ne`).  A stretch that is not longer than the ring hits no cell
twice (`around_ne_of_length_le`).
-/
import PcEngine.Word

namespace PcEngine

variable {α : Type} {n : Nat}

/-- Write values one after the other into a ring of cells, from cell `s` on, which is
counted modulo the size of the ring. -/
def writeAround (ring : Vector α n) (s : Nat) : List α → Vector α n
  | [] => ring
  | x :: xs => writeAround (ring.setIfInBounds (s % n) x) (s + 1) xs

variable {ring : Vector α n} {s i j : Nat} {xs : List α}

theorem writeAround_mod (ring : Vector α n) (s : Nat) (xs : List α) :
    writeAround ring (s % n) xs = writeAround ring s xs := by
  induction xs generalizing ring s with
  | nil => rfl
  | cons x xs ih =>
    rw [writeAround, writeAround, Nat.mod_mod, ← ih _ (s % n + 1), Nat.mod_add_mod, ih]

/-- Cells that are not hit are left alone. -/
theorem getElem_writeAround_of_ne (hj : j < n) (h : ∀ i < xs.length, (s + i) % n ≠ j) :
    (writeAround ring s xs)[j] = ring[j] := by
  induction xs generalizing ring s with
  | nil => rfl
  | cons x xs ih =>
    have hfirst : s % n ≠ j := h 0 (Nat.succ_pos _)
    have hlater : ∀ i < xs.length, (s + 1 + i) % n ≠ j := by
      intro i hi
      rw [Nat.add_right_comm]
      exact h (i + 1) (Nat.succ_lt_succ hi)
    exact (ih hlater).trans (Vector.getElem_setIfInBounds_ne hj hfirst)

/-- **A cell is left with the last value that hits it.** -/
theorem getElem_writeAround_of_last (hi : i < xs.length) (hj : j < n) (hhit : (s + i) % n = j)
    (hlast : ∀ k, i < k → k < xs.length → (s + k) % n ≠ j) :
    (writeAround ring s xs)[j] = xs[i] := by
  induction xs generalizing ring s i with
  | nil => exact absurd hi (Nat.not_lt_zero i)
  | cons x xs ih =>
    rcases i with - | i
    · -- the first value, which no later one writes over
      have hlater : ∀ k < xs.length, (s + 1 + k) % n ≠ j := by
        intro k hk
        rw [Nat.add_right_comm]
        exact hlast (k + 1) (Nat.succ_pos k) (Nat.succ_lt_succ hk)
      refine (getElem_writeAround_of_ne hj hlater).trans ?_
      subst hhit
      exact Vector.getElem_setIfInBounds_self hj
    · refine ih (Nat.lt_of_succ_lt_succ hi) ?_ ?_
      · rw [Nat.add_right_comm]
        exact hhit
      · intro k hik hk
        rw [Nat.add_right_comm]
        exact hlast (k + 1) (Nat.succ_lt_succ hik) (Nat.succ_lt_succ hk)

/-- Places that are less than the size of the ring apart are different cells. -/
theorem around_ne_of_length_le (hlength : xs.length ≤ n) :
    ∀ k, i < k → k < xs.length → (s + k) % n ≠ (s + i) % n := by
  intro k hik hk heq
  have hdvd : n ∣ (s + k) - (s + i) :=
    Nat.dvd_of_mod_eq_zero (Nat.sub_mod_eq_zero_of_mod_eq heq)
  have hle := Nat.le_of_dvd (by omega) hdvd
  omega

end PcEngine
