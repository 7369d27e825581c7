import Mathlib.Logic.Relation
import Mathlib.Data.List.Basic

/-!
# Labelled transition systems

* `Lts` : initial states and labelled steps;
* `Run S s ls t` : the finite run from `s` to `t` with the labels `ls`, in order;
* `Reachable S s` : some run from an initial state ends in `s`;
* `Run.invariant`, `Run.invariant_of` : what every step keeps (every step of an allowed label), every run keeps;
* `Reachable.invariant` : what holds initially and is kept by every step holds in every reachable state;
* `trace`, `forall_trace_iff` : the steps of a deterministic run, and two properties that agree on all of them.
-/

namespace Transition

/-- Initial states and labelled steps. -/
structure Lts (σ Λ : Type) where
  init : σ → Prop
  step : σ → Λ → σ → Prop

variable {σ Λ : Type} {S : Lts σ Λ}

/-- A finite run and the labels of its steps. -/
inductive Run (S : Lts σ Λ) : σ → List Λ → σ → Prop where
  | refl (s : σ) : Run S s [] s
  | tail {s t u : σ} {ls : List Λ} {l : Λ} : Run S s ls t → S.step t l u → Run S s (ls ++ [l]) u

/-- Some run from an initial state ends in `s`. -/
def Reachable (S : Lts σ Λ) (s : σ) : Prop := ∃ s₀ ls, S.init s₀ ∧ Run S s₀ ls s

theorem Run.single {s t : σ} {l : Λ} (h : S.step s l t) : Run S s [l] t := (Run.refl s).tail h

theorem Run.trans {s t u : σ} {ls ms : List Λ} (h₁ : Run S s ls t) (h₂ : Run S t ms u) :
    Run S s (ls ++ ms) u := by
  induction h₂ with
  | refl => rwa [List.append_nil]
  | tail _ hstep ih =>
      rw [← List.append_assoc]
      exact ih.tail hstep

theorem Run.head {s t u : σ} {ls : List Λ} {l : Λ} (h : S.step s l t) (hrun : Run S t ls u) :
    Run S s (l :: ls) u := (Run.single h).trans hrun

/-- Every run keeps what each of its steps keeps; the labels may be restricted to those in `P`. -/
theorem Run.invariant_of {I : σ → Prop} {P : Λ → Prop} (hstep : ∀ s l t, P l → I s → S.step s l t → I t)
    {s t : σ} {ls : List Λ} (hrun : Run S s ls t) (hP : ∀ l ∈ ls, P l) (hs : I s) : I t := by
  induction hrun with
  | refl => exact hs
  | tail _ h ih =>
      have hprev := ih (fun l hl => hP l (List.mem_append_left _ hl))
      exact hstep _ _ _ (hP _ (List.mem_append_right _ (List.mem_singleton_self _))) hprev h

theorem Run.invariant {I : σ → Prop} (hstep : ∀ s l t, I s → S.step s l t → I t)
    {s t : σ} {ls : List Λ} (hrun : Run S s ls t) (hs : I s) : I t :=
  hrun.invariant_of (P := fun _ => True) (fun s l t _ => hstep s l t) (fun _ _ => trivial) hs

theorem Reachable.of_init {s : σ} (h : S.init s) : Reachable S s := ⟨s, [], h, Run.refl s⟩

theorem Reachable.run {s t : σ} {ls : List Λ} (h : Reachable S s) (hrun : Run S s ls t) : Reachable S t := by
  obtain ⟨s₀, ms, h₀, hs⟩ := h
  exact ⟨s₀, ms ++ ls, h₀, hs.trans hrun⟩

theorem Reachable.step {s t : σ} {l : Λ} (h : Reachable S s) (hstep : S.step s l t) : Reachable S t :=
  h.run (Run.single hstep)

theorem Reachable.invariant {I : σ → Prop} (hinit : ∀ s, S.init s → I s)
    (hstep : ∀ s l t, I s → S.step s l t → I t) {s : σ} (h : Reachable S s) : I s := by
  obtain ⟨s₀, ls, h₀, hrun⟩ := h
  exact hrun.invariant hstep (hinit s₀ h₀)

/-! ## Deterministic runs -/

section Deterministic
variable (next : σ → Λ → σ)

/-- The labels of a run, each with the state it is taken in. -/
def trace (s : σ) : List Λ → List (σ × Λ)
  | [] => []
  | l :: ls => (s, l) :: trace (next s l) ls

variable {next} {s : σ}

/-- Two properties of steps that agree wherever `I` holds, of which one keeps `I`: every step of a run has the one
exactly when every step has the other. -/
theorem forall_trace_iff {I : σ → Prop} {P Q : σ → Λ → Prop} (hiff : ∀ s l, I s → (P s l ↔ Q s l))
    (hkeep : ∀ s l, I s → P s l → I (next s l)) (hs : I s) (ls : List Λ) :
    (∀ p ∈ trace next s ls, P p.1 p.2) ↔ ∀ p ∈ trace next s ls, Q p.1 p.2 := by
  induction ls generalizing s with
  | nil => simp [trace]
  | cons l ls ih =>
      rw [trace, List.forall_mem_cons, List.forall_mem_cons]
      constructor
      · intro h
        exact ⟨(hiff s l hs).mp h.1, (ih (hkeep s l hs h.1)).mp h.2⟩
      · intro h
        have hP : P s l := (hiff s l hs).mpr h.1
        exact ⟨hP, (ih (hkeep s l hs hP)).mpr h.2⟩

end Deterministic

end Transition
