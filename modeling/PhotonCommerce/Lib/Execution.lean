import PhotonCommerce.Lib.Coroutine

/-!
# Operations executed over a world that drifts

The operations of one coroutine are answered by a world, one after another; between them the world moves on its own.

* `Executes exec drift w tr w'` : the events `tr` take the world `w` to `w'`;
* `Executes.append`, `Executes.cons` : the world at a point of the events, with an invariant of the drift;
* `Executes.preserves` : what operations and drift preserve;
* `exists_executes` : a coroutine runs to its end wherever every operation is answered.
-/

namespace Coroutine

variable {Op World : Type} {Ans : Op → Type}

inductive Executes (exec : (o : Op) → World → Ans o → World → Prop) (drift : World → World → Prop) :
    World → List (Event Op Ans) → World → Prop where
  | done (w : World) : Executes exec drift w [] w
  | drift {w w₁ w₂ : World} {tr : List (Event Op Ans)} (h : drift w w₁) (rest : Executes exec drift w₁ tr w₂) :
      Executes exec drift w tr w₂
  | step {w w₁ w₂ : World} {ev : Event Op Ans} {tr : List (Event Op Ans)} (h : exec ev.op w ev.ans w₁)
      (rest : Executes exec drift w₁ tr w₂) : Executes exec drift w (ev :: tr) w₂

namespace Executes

variable {exec : (o : Op) → World → Ans o → World → Prop} {drift : World → World → Prop} {w w' : World}
  {ev : Event Op Ans} {tr tr₁ tr₂ : List (Event Op Ans)} {I : World → Prop}

/-- The world between two parts of the events. -/
theorem append (h : Executes exec drift w (tr₁ ++ tr₂) w') :
    ∃ w₁, Executes exec drift w tr₁ w₁ ∧ Executes exec drift w₁ tr₂ w' := by
  generalize htr : tr₁ ++ tr₂ = tr at h
  induction h generalizing tr₁ with
  | done w =>
      obtain ⟨rfl, rfl⟩ := List.append_eq_nil_iff.mp htr
      exact ⟨w, .done w, .done w⟩
  | drift h rest ih =>
      obtain ⟨w₁, h₁, h₂⟩ := ih htr
      exact ⟨w₁, .drift h h₁, h₂⟩
  | @step w _ _ ev tr h rest ih =>
      cases tr₁ with
      | nil =>
          subst htr
          exact ⟨w, .done w, .step h rest⟩
      | cons ev' tr₁ =>
          obtain ⟨rfl, htail⟩ := List.cons.inj htr
          obtain ⟨w₁, h₁, h₂⟩ := ih htail
          exact ⟨w₁, .step h h₁, h₂⟩

/-- The first operation finds a world that has drifted only. -/
theorem cons (hdrift : ∀ w w', drift w w' → I w → I w') (h : Executes exec drift w (ev :: tr) w') (hw : I w) :
    ∃ u v, I u ∧ exec ev.op u ev.ans v ∧ Executes exec drift v tr w' := by
  generalize htr : ev :: tr = evs at h
  induction h with
  | done w => cases htr
  | drift h rest ih => exact ih (hdrift _ _ h hw) htr
  | step h rest ih =>
      cases htr
      exact ⟨_, _, hw, h, rest⟩

/-- **What every operation and the drift preserve** holds afterwards. -/
theorem preserves (hexec : ∀ o w a w', exec o w a w' → I w → I w') (hdrift : ∀ w w', drift w w' → I w → I w')
    (h : Executes exec drift w tr w') (hw : I w) : I w' := by
  induction h with
  | done w => exact hw
  | drift h rest ih => exact ih (hdrift _ _ h hw)
  | step h rest ih => exact ih (hexec _ _ _ _ h hw)

end Executes

/-- **A coroutine runs to its end** over any world that answers every operation. -/
theorem exists_executes {ε α : Type} {exec : (o : Op) → World → Ans o → World → Prop} {drift : World → World → Prop}
    (hanswer : ∀ o w, ∃ a w', exec o w a w') (p : Co Op Ans ε α) (w : World) :
    ∃ tr out w', Runs p tr out ∧ Executes exec drift w tr w' := by
  induction p generalizing w with
  | ret v => exact ⟨[], .ok v, w, ⟨rfl, rfl⟩, .done w⟩
  | throw e => exact ⟨[], .error e, w, ⟨rfl, rfl⟩, .done w⟩
  | await o k ih =>
      obtain ⟨a, w₁, ha⟩ := hanswer o w
      obtain ⟨tr, out, w', hrun, hrest⟩ := ih a w₁
      exact ⟨⟨o, a⟩ :: tr, out, w', ⟨a, tr, rfl, hrun⟩, .step ha hrest⟩

end Coroutine
