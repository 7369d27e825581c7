import Mathlib

/-!
# Rotations by a counter that wraps

Tickets are numbered by a counter of `period` values, and ticket `k` goes to slot `k % period % n`.

* `load` : how many of the first `N` tickets go to a slot; `load_eq` : its closed form;
* `load_le` : two slots differ by at most one, and one more for every time the counter has wrapped;
* `load_le_of_dvd` : by at most one when the number of slots divides the period.
-/

namespace Rotation

/-- The slot of a ticket. -/
def slot (period n k : Nat) : Nat := k % period % n

/-- How many of the first `N` tickets go to slot `i`. -/
def load (period n N i : Nat) : Nat := (List.range N).countP fun k => slot period n k = i

variable {period n N i j : Nat}

/-- A range of consecutive numbers, by their remainders. -/
theorem countP_mod (hi : i < n) : (List.range N).countP (fun k => k % n = i) =
    N / n + if i < N % n then 1 else 0 := by
  have hcount := Nat.count_modEq_card N (show 0 < n by omega) i
  rw [Nat.mod_eq_of_lt hi] at hcount
  rw [← hcount, Nat.count_eq_card_filter_range, List.countP_eq_length_filter]
  have hsame : ∀ k, (k % n = i) = (k ≡ i [MOD n]) := fun k => by rw [Nat.ModEq, Nat.mod_eq_of_lt hi]
  simp only [hsame]
  rfl

/-- Before the counter wraps. -/
theorem load_of_le (hN : N ≤ period) (hi : i < n) : load period n N i = N / n + if i < N % n then 1 else 0 := by
  rw [← countP_mod hi]
  refine List.countP_congr fun k hk => ?_
  have hlt : k < period := Nat.lt_of_lt_of_le (List.mem_range.mp hk) hN
  simp only [slot, Nat.mod_eq_of_lt hlt]

/-- After it has wrapped the tickets go round again. -/
theorem load_period_add (N i : Nat) : load period n (period + N) i = load period n period i + load period n N i := by
  rw [load, List.range_add, List.countP_append, List.countP_map]
  refine congrArg (load period n period i + ·) (List.countP_congr fun k _ => ?_)
  rw [Function.comp_apply, slot, slot, Nat.add_mod_left]

theorem load_mul_add (q r : Nat) : load period n (q * period + r) i =
    q * load period n period i + load period n r i := by
  induction q with
  | zero => simp
  | succ q ih =>
      rw [show (q + 1) * period + r = period + (q * period + r) by ring, load_period_add, ih]
      ring

/-- **The load of a slot.** -/
theorem load_eq (hperiod : 0 < period) (hi : i < n) : load period n N i =
    N / period * (period / n + if i < period % n then 1 else 0) +
      (N % period / n + if i < N % period % n then 1 else 0) := by
  have hN : N = N / period * period + N % period := (Nat.div_add_mod' N period).symm
  conv_lhs => rw [hN]
  rw [load_mul_add, load_of_le (Nat.le_refl _) hi, load_of_le (Nat.le_of_lt (Nat.mod_lt N hperiod)) hi]

/-- **Two slots differ by at most one**, and by one more for every time the counter has wrapped. -/
theorem load_le (hperiod : 0 < period) (hi : i < n) (hj : j < n) :
    load period n N i ≤ load period n N j + N / period + 1 := by
  rw [load_eq hperiod hi, load_eq hperiod hj, Nat.mul_add, Nat.mul_add]
  generalize N / period = q
  have hwraps : q * (if i < period % n then 1 else 0) ≤ q := by
    split_ifs <;> simp
  have hlast : (if i < N % period % n then 1 else 0) ≤ 1 := by
    split_ifs <;> omega
  omega

theorem load_le_of_dvd (hperiod : 0 < period) (hdvd : n ∣ period) (hi : i < n) (hj : j < n) :
    load period n N i ≤ load period n N j + 1 := by
  rw [load_eq hperiod hi, load_eq hperiod hj, Nat.mod_eq_zero_of_dvd hdvd]
  simp only [Nat.not_lt_zero, if_false]
  have hlast : (if i < N % period % n then 1 else 0) ≤ 1 := by
    split_ifs <;> omega
  omega

end Rotation
