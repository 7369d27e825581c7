import PhotonCommerce.Lib.Transition

/-!
# Runs seen through another system

* `Run.simulate` : where every step of a system is seen as a run of another one, so is every run;
* `Run.balance` : a stock that every step changes by what it puts in and takes out.
-/

namespace Transition

variable {σ Λ κ Ε : Type} {S : Lts σ Λ} {K : Lts κ Ε}

/-- A run of allowed labels, seen through `V`, is a run with the events of its labels. -/
theorem Run.simulate {V : σ → κ → Prop} {P : Λ → Prop} {events : Λ → List Ε}
    (hstep : ∀ s l t k, P l → V s k → S.step s l t → ∃ k', Run K k (events l) k' ∧ V t k')
    {s t : σ} {ls : List Λ} {k : κ} (hrun : Run S s ls t) (hP : ∀ l ∈ ls, P l) (hk : V s k) :
    ∃ k', Run K k (ls.flatMap events) k' ∧ V t k' := by
  induction hrun with
  | refl => exact ⟨k, Run.refl k, hk⟩
  | @tail t u ls l _ h ih =>
      obtain ⟨k₁, hk₁, ht⟩ := ih fun l hl => hP l (List.mem_append_left _ hl)
      obtain ⟨k₂, hk₂, hu⟩ := hstep t l u k₁ (hP l (List.mem_append_right _ (List.mem_singleton_self l))) ht h
      rw [List.flatMap_append, List.flatMap_singleton]
      exact ⟨k₂, hk₁.trans hk₂, hu⟩

/-- What was there and what was put in is what is there and what was taken out. -/
theorem Run.balance {I : σ → Prop} {stock : σ → Nat} {puts takes : Λ → Bool}
    (hkeep : ∀ s l t, I s → S.step s l t → I t)
    (hstep : ∀ s l t, I s → S.step s l t →
      stock t + (if takes l then 1 else 0) = stock s + (if puts l then 1 else 0))
    {s t : σ} {ls : List Λ} (hrun : Run S s ls t) (hs : I s) :
    stock t + ls.countP takes = stock s + ls.countP puts := by
  induction hrun with
  | refl => rfl
  | @tail t u ls l hrun h ih =>
      have hlast := hstep t l u (hrun.invariant hkeep hs) h
      rw [List.countP_append, List.countP_append, List.countP_singleton, List.countP_singleton]
      omega

end Transition
