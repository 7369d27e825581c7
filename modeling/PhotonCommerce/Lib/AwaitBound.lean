import PhotonCommerce.Lib.Coroutine
import Mathlib.Order.Lattice.Nat

/-!
# How much a coroutine awaits

* `Within p n` : whatever the answers, `p` awaits at most `n` operations; one rule for each combinator;
* `Within.of_runs` : a bound of the runs is one; `Within.trace` : what is left of it after some events;
* `awaitsLeft p` : the least bound; `awaitsLeft_lt` : awaiting lowers it.
-/

namespace Coroutine

variable {Op : Type} {Ans : Op → Type} {ε ε' α β : Type} {m n : Nat}

/-- At most `n` operations are awaited. -/
def Within : Co Op Ans ε α → Nat → Prop
  | .ret _, _ => True
  | .throw _, _ => True
  | .await _ _, 0 => False
  | .await _ k, n + 1 => ∀ a, Within (k a) n

section Rules
variable {p q : Co Op Ans ε α}

theorem Within.pure (v : α) : Within (pure v : Co Op Ans ε α) n := by
  cases n <;> trivial

theorem Within.throw (e : ε) : Within (.throw e : Co Op Ans ε α) n := by
  cases n <;> trivial

theorem within_await {o : Op} {k : Ans o → Co Op Ans ε α} :
    Within (.await o k) n ↔ 0 < n ∧ ∀ a, Within (k a) (n - 1) := by
  cases n with
  | zero => simp [Within]
  | succ n => simp [Within]

theorem Within.perform (o : Op) : Within (perform o : Co Op Ans ε (Ans o)) 1 := fun a => Within.pure a

theorem Within.mono (h : Within p m) (hle : m ≤ n) : Within p n := by
  induction p generalizing m n with
  | ret v => exact Within.pure v
  | throw e => exact Within.throw e
  | await o k ih =>
      rw [within_await] at h ⊢
      exact ⟨by omega, fun a => ih a (h.2 a) (by omega)⟩

theorem Within.bind {f : α → Co Op Ans ε β} (hp : Within p m) (hf : ∀ v, Within (f v) n) :
    Within (p >>= f) (m + n) := by
  induction p generalizing m with
  | ret v => exact (hf v).mono (Nat.le_add_left n m)
  | throw e => exact Within.throw e
  | await o k ih =>
      have hk := within_await.mp hp
      refine within_await.mpr ⟨by omega, fun a => ?_⟩
      have hrest := ih a (hk.2 a)
      rwa [show m - 1 + n = m + n - 1 by omega] at hrest

theorem Within.attempt (hp : Within p n) : Within (p.attempt : Co Op Ans ε' _) n := by
  induction p generalizing n with
  | ret v => exact Within.pure _
  | throw e => exact Within.pure _
  | await o k ih =>
      have hk := within_await.mp hp
      exact within_await.mpr ⟨hk.1, fun a => ih a (hk.2 a)⟩

/-- After some of its events a coroutine awaits that many fewer. -/
theorem Within.trace {tr : List (Event Op Ans)} (hp : Within p n) (h : Trace p tr q) :
    tr.length ≤ n ∧ Within q (n - tr.length) := by
  induction h generalizing n with
  | nil p => exact ⟨Nat.zero_le n, hp⟩
  | cons a h ih =>
      have hk := within_await.mp hp
      obtain ⟨hlen, hrest⟩ := ih (hk.2 a)
      rw [List.length_cons]
      exact ⟨by omega, hrest.mono (by omega)⟩

/-- A bound of the runs of a coroutine that can be answered is a bound of what it awaits. -/
theorem Within.of_runs (answer : (o : Op) → Ans o) (h : ∀ tr out, Runs p tr out → tr.length ≤ n) : Within p n := by
  induction p generalizing n with
  | ret v => exact Within.pure v
  | throw e => exact Within.throw e
  | await o k ih =>
      refine within_await.mpr ⟨?_, fun a => ih a fun tr out hrun => ?_⟩
      · obtain ⟨tr, out, hrun⟩ := Runs.total answer (k (answer o))
        have hlen := h _ out ⟨answer o, tr, rfl, hrun⟩
        rw [List.length_cons] at hlen
        omega
      · have hlen := h _ out ⟨a, tr, rfl, hrun⟩
        rw [List.length_cons] at hlen
        omega

end Rules

/-! ## The least bound -/

/-- How many operations a coroutine may still await; zero when there is no bound. -/
noncomputable def awaitsLeft (p : Co Op Ans ε α) : Nat := sInf {n | Within p n}

variable {p : Co Op Ans ε α}

theorem Within.awaitsLeft_le (h : Within p n) : awaitsLeft p ≤ n := Nat.sInf_le h

theorem Within.within_awaitsLeft (h : Within p n) : Within p (awaitsLeft p) := Nat.sInf_mem ⟨n, h⟩

/-- **Awaiting lowers it**, whatever the answer. -/
theorem awaitsLeft_lt {o : Op} {k : Ans o → Co Op Ans ε α} (h : Within (.await o k) n) (a : Ans o) :
    awaitsLeft (k a) < awaitsLeft (.await o k) := by
  have hk := within_await.mp h.within_awaitsLeft
  have hle := (hk.2 a).awaitsLeft_le
  omega

end Coroutine
