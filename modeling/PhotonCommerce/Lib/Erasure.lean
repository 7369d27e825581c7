import Mathlib.Data.List.Basic

/-!
# Operations that leave no trace

* `play` : a sequence of operations, each with its answer;
* `play_erase` : when some operations keep a relation to a state that does not take them, leaving them out of a sequence
  changes no answer of the others.
-/

namespace Erasure

variable {σ Λ ω : Type}

/-- The operations in order: the last state, and each operation with its answer. -/
def play (next : σ → Λ → σ × ω) : σ → List Λ → σ × List (Λ × ω)
  | s, [] => (s, [])
  | s, l :: ls => ((play next (next s l).1 ls).1, (l, (next s l).2) :: (play next (next s l).1 ls).2)

/-- **Erasure.** -/
theorem play_erase {next : σ → Λ → σ × ω} {visible : Λ → Bool} {R : σ → σ → Prop}
    (hvisible : ∀ s t l, visible l = true → R s t → (next s l).2 = (next t l).2 ∧ R (next s l).1 (next t l).1)
    (hhidden : ∀ s t l, visible l = false → R s t → R (next s l).1 t) {s t : σ} (h : R s t) (ls : List Λ) :
    R (play next s ls).1 (play next t (ls.filter visible)).1 ∧
      ((play next s ls).2.filter fun p => visible p.1) = (play next t (ls.filter visible)).2 := by
  induction ls generalizing s t with
  | nil => exact ⟨h, rfl⟩
  | cons l ls ih =>
      by_cases hl : visible l = true
      · obtain ⟨hout, hnext⟩ := hvisible s t l hl h
        obtain ⟨hend, houts⟩ := ih hnext
        rw [List.filter_cons_of_pos hl]
        refine ⟨hend, ?_⟩
        simp only [play, List.filter_cons, hl, if_true, houts, hout]
      · have hl' : visible l = false := by simpa using hl
        obtain ⟨hend, houts⟩ := ih (hhidden s t l hl' h)
        rw [List.filter_cons_of_neg hl]
        refine ⟨hend, ?_⟩
        simpa only [play, List.filter_cons, hl', if_false, Bool.false_eq_true] using houts

end Erasure
