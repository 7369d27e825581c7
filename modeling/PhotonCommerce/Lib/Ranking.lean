import PhotonCommerce.Lib.Transition

/-!
# Rankings of runs

A ranking is a number that certain steps lower and no other step raises.

* `Run.countP_le` : a run has at most as many of these steps as its first state ranks;
* `Run.exists_to` : where some step lowers the ranking until a goal is reached, some run reaches the goal.
-/

namespace Transition

variable {σ Λ : Type} {S : Lts σ Λ}

/-- The steps a ranking counts are bounded by it, along every run of allowed labels. -/
theorem Run.countP_le {I : σ → Prop} {P : Λ → Prop} {counted : Λ → Bool} {rank : σ → Nat}
    (hkeep : ∀ s l t, P l → I s → S.step s l t → I t)
    (hrank : ∀ s l t, P l → I s → S.step s l t → rank t + (if counted l then 1 else 0) ≤ rank s)
    {s t : σ} {ls : List Λ} (hrun : Run S s ls t) (hP : ∀ l ∈ ls, P l) (hs : I s) :
    ls.countP counted + rank t ≤ rank s := by
  induction hrun with
  | refl => simp
  | @tail t u ls l hrun hstep ih =>
      have hls : ∀ l ∈ ls, P l := fun l hl => hP l (List.mem_append_left _ hl)
      have hl : P l := hP l (List.mem_append_right _ (List.mem_singleton_self l))
      have hprev := ih hls
      have hlast := hrank t l u hl (hrun.invariant_of hkeep hls hs) hstep
      rw [List.countP_append, List.countP_singleton]
      omega

/-- While a step can lower the ranking the goal can be reached, in as many steps as the first state ranks. -/
theorem Run.exists_to {I Goal : σ → Prop} {P : Λ → Prop} {rank : σ → Nat}
    (hstep : ∀ s, I s → ¬ Goal s → ∃ l t, P l ∧ S.step s l t ∧ I t ∧ rank t < rank s) {s : σ} (hs : I s) :
    ∃ ls t, Run S s ls t ∧ (∀ l ∈ ls, P l) ∧ I t ∧ Goal t ∧ ls.length ≤ rank s := by
  induction hn : rank s using Nat.strongRecOn generalizing s with
  | ind n ih =>
      by_cases hgoal : Goal s
      · exact ⟨[], s, Run.refl s, by simp, hs, hgoal, Nat.zero_le _⟩
      · obtain ⟨l, t, hl, hst, ht, hlt⟩ := hstep s hs hgoal
        obtain ⟨ls, u, hrun, hls, hu, hend, hlen⟩ := ih (rank t) (by omega) ht rfl
        refine ⟨l :: ls, u, Run.head hst hrun, List.forall_mem_cons.mpr ⟨hl, hls⟩, hu, hend, ?_⟩
        rw [List.length_cons]
        omega

end Transition
