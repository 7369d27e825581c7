import Mathlib.Data.List.Basic

/-!
# Coroutines over awaited operations

A coroutine returns, throws, or awaits an operation and goes on with its answer. What an operation answers is left
open; a finite run is described by the operations awaited and the answers they got.

* `Co`, its monad, `perform`, `Co.finally` (a destructor's operation, on return and on throw), `Co.attempt` (catch);
* `Trace p tr q` : after the events `tr` the coroutine `p` has become `q`;
* `Runs p tr out` : with the events `tr` the coroutine ends in `out`; `runs_bind` and one rule for each combinator;
* `Always φ hist p` : whatever the answers, each operation `p` awaits satisfies `φ` of the events before it;
  `Always.bind` and one rule for each combinator;
* `Carries θ p` : an event that stands for a throw, by `θ`, makes the coroutine end in that throw; `Carries.bind` and
  one rule for each combinator;
* `Related T R E p q` : as long as the answers are related by `T`, the coroutines await the same operations and end in
  values related by `R` or in throws related by `E`; `Related.bind` and one rule for each combinator, `Related.runs`.
-/

namespace Coroutine

/-- An awaited operation with its answer. -/
structure Event (Op : Type) (Ans : Op → Type) where
  op : Op
  ans : Ans op

inductive Co (Op : Type) (Ans : Op → Type) (ε α : Type) where
  | ret (value : α)
  | throw (what : ε)
  | await (op : Op) (k : Ans op → Co Op Ans ε α)

variable {Op : Type} {Ans : Op → Type} {ε ε' α β : Type}

def Co.bind : Co Op Ans ε α → (α → Co Op Ans ε β) → Co Op Ans ε β
  | .ret v, f => f v
  | .throw e, _ => .throw e
  | .await o k, f => .await o fun a => (k a).bind f

instance : Monad (Co Op Ans ε) where
  pure := .ret
  bind := Co.bind

theorem Co.bind_assoc {γ : Type} (p : Co Op Ans ε α) (f : α → Co Op Ans ε β) (g : β → Co Op Ans ε γ) :
    p >>= f >>= g = p >>= fun v => f v >>= g := by
  induction p with
  | ret v => rfl
  | throw e => rfl
  | await o k ih => exact congrArg (Co.await o) (funext ih)

/-- Await one operation. -/
def perform (o : Op) : Co Op Ans ε (Ans o) := .await o .ret

/-- Await `o` on the way out, by return or by throw. -/
def Co.finally : Co Op Ans ε α → Op → Co Op Ans ε α
  | .ret v, o => .await o fun _ => .ret v
  | .throw e, o => .await o fun _ => .throw e
  | .await o' k, o => .await o' fun a => (k a).finally o

/-- Catch what is thrown. -/
def Co.attempt : Co Op Ans ε α → Co Op Ans ε' (Except ε α)
  | .ret v => .ret (.ok v)
  | .throw e => .ret (.error e)
  | .await o k => .await o fun a => (k a).attempt

/-! ## Runs -/

/-- After the events the coroutine has become the other one. -/
inductive Trace : Co Op Ans ε α → List (Event Op Ans) → Co Op Ans ε α → Prop where
  | nil (p : Co Op Ans ε α) : Trace p [] p
  | cons {o : Op} {k : Ans o → Co Op Ans ε α} (a : Ans o) {tr : List (Event Op Ans)} {q : Co Op Ans ε α} :
      Trace (k a) tr q → Trace (.await o k) (⟨o, a⟩ :: tr) q

/-- The coroutine ends with the outcome after the events. -/
def Runs : Co Op Ans ε α → List (Event Op Ans) → Except ε α → Prop
  | .ret v, tr, out => tr = [] ∧ out = .ok v
  | .throw e, tr, out => tr = [] ∧ out = .error e
  | .await o k, tr, out => ∃ a tr', tr = ⟨o, a⟩ :: tr' ∧ Runs (k a) tr' out

theorem Trace.snoc {p : Co Op Ans ε α} {tr : List (Event Op Ans)} {o : Op} {k : Ans o → Co Op Ans ε α}
    (h : Trace p tr (.await o k)) (a : Ans o) : Trace p (tr ++ [⟨o, a⟩]) (k a) := by
  generalize hq : Co.await o k = q at h
  induction h with
  | nil p =>
      subst hq
      exact Trace.cons a (Trace.nil _)
  | cons b _ ih => exact Trace.cons b (ih hq)

theorem Trace.runs {p q : Co Op Ans ε α} {tr tr' : List (Event Op Ans)} {out : Except ε α} (h : Trace p tr q)
    (hq : Runs q tr' out) : Runs p (tr ++ tr') out := by
  induction h with
  | nil => exact hq
  | cons a _ ih => exact ⟨a, _, rfl, ih hq⟩

theorem Trace.runs_ret {p : Co Op Ans ε α} {tr : List (Event Op Ans)} {v : α} (h : Trace p tr (.ret v)) :
    Runs p tr (.ok v) := by
  have hend : Runs (.ret v : Co Op Ans ε α) [] (.ok v) := ⟨rfl, rfl⟩
  rw [← List.append_nil tr]
  exact h.runs hend

theorem Trace.runs_throw {p : Co Op Ans ε α} {tr : List (Event Op Ans)} {e : ε} (h : Trace p tr (.throw e)) :
    Runs p tr (.error e) := by
  have hend : Runs (.throw e : Co Op Ans ε α) [] (.error e) := ⟨rfl, rfl⟩
  rw [← List.append_nil tr]
  exact h.runs hend

theorem Runs.trace {p : Co Op Ans ε α} {tr : List (Event Op Ans)} {v : α} (h : Runs p tr (.ok v)) :
    Trace p tr (.ret v) := by
  induction p generalizing tr with
  | ret w =>
      obtain ⟨rfl, hv⟩ := h
      obtain rfl := Except.ok.inj hv
      exact Trace.nil _
  | throw e => cases h.2
  | await o k ih =>
      obtain ⟨a, tr', rfl, h⟩ := h
      exact Trace.cons a (ih a h)

/-- Whatever can be answered can be run to its end. -/
theorem Runs.total (answer : (o : Op) → Ans o) (p : Co Op Ans ε α) : ∃ tr out, Runs p tr out := by
  induction p with
  | ret v => exact ⟨[], .ok v, rfl, rfl⟩
  | throw e => exact ⟨[], .error e, rfl, rfl⟩
  | await o k ih =>
      obtain ⟨tr, out, h⟩ := ih (answer o)
      exact ⟨⟨o, answer o⟩ :: tr, out, answer o, tr, rfl, h⟩

section Rules
variable {tr : List (Event Op Ans)} {p : Co Op Ans ε α} {out : Except ε α}

@[simp] theorem runs_pure {v : α} : Runs (pure v : Co Op Ans ε α) tr out ↔ tr = [] ∧ out = .ok v := Iff.rfl

@[simp] theorem runs_throw {e : ε} : Runs (.throw e : Co Op Ans ε α) tr out ↔ tr = [] ∧ out = .error e := Iff.rfl

@[simp] theorem runs_perform {o : Op} {out : Except ε (Ans o)} :
    Runs (perform o) tr out ↔ ∃ a, tr = [⟨o, a⟩] ∧ out = .ok a := by
  constructor
  · rintro ⟨a, tr', rfl, rfl, rfl⟩
    exact ⟨a, rfl, rfl⟩
  · rintro ⟨a, rfl, rfl⟩
    exact ⟨a, [], rfl, rfl, rfl⟩

/-- A sequence ends where its second part does, or by a throw of the first. -/
theorem runs_bind {f : α → Co Op Ans ε β} {out : Except ε β} :
    Runs (p >>= f) tr out ↔
      (∃ v tr₁ tr₂, tr = tr₁ ++ tr₂ ∧ Runs p tr₁ (.ok v) ∧ Runs (f v) tr₂ out) ∨
      (∃ e, out = .error e ∧ Runs p tr (.error e)) := by
  induction p generalizing tr with
  | ret v =>
      constructor
      · exact fun h => .inl ⟨v, [], tr, rfl, ⟨rfl, rfl⟩, h⟩
      · rintro (⟨w, tr₁, tr₂, rfl, ⟨rfl, hv⟩, hf⟩ | ⟨e, -, -, he⟩)
        · cases hv
          exact hf
        · cases he
  | throw e =>
      constructor
      · rintro ⟨rfl, rfl⟩
        exact .inr ⟨e, rfl, rfl, rfl⟩
      · rintro (⟨w, tr₁, tr₂, -, ⟨-, hv⟩, -⟩ | ⟨e', rfl, rfl, he⟩)
        · cases hv
        · cases he
          exact ⟨rfl, rfl⟩
  | await o k ih =>
      constructor
      · rintro ⟨a, tr', rfl, h⟩
        rcases (ih a).mp h with ⟨v, tr₁, tr₂, rfl, hp, hf⟩ | ⟨e, rfl, hp⟩
        · exact .inl ⟨v, ⟨o, a⟩ :: tr₁, tr₂, rfl, ⟨a, tr₁, rfl, hp⟩, hf⟩
        · exact .inr ⟨e, rfl, a, tr', rfl, hp⟩
      · rintro (⟨v, tr₁, tr₂, rfl, ⟨a, tr', rfl, hp⟩, hf⟩ | ⟨e, rfl, a, tr', rfl, hp⟩)
        · exact ⟨a, tr' ++ tr₂, rfl, (ih a).mpr (.inl ⟨v, tr', tr₂, rfl, hp, hf⟩)⟩
        · exact ⟨a, tr', rfl, (ih a).mpr (.inr ⟨e, rfl, hp⟩)⟩

theorem Runs.bind {f : α → Co Op Ans ε β} {out : Except ε β} {v : α} {tr₁ tr₂ : List (Event Op Ans)}
    (hp : Runs p tr₁ (.ok v)) (hf : Runs (f v) tr₂ out) : Runs (p >>= f) (tr₁ ++ tr₂) out :=
  runs_bind.mpr (.inl ⟨v, tr₁, tr₂, rfl, hp, hf⟩)

/-- A sequence whose first part has known runs. -/
theorem runs_bind_of {X : Type} {events : X → List (Event Op Ans)} {result : X → Except ε α}
    (hp : ∀ tr out, Runs p tr out ↔ ∃ x, tr = events x ∧ out = result x) {f : α → Co Op Ans ε β}
    {out : Except ε β} : Runs (p >>= f) tr out ↔ ∃ x,
      (∃ v tr', result x = .ok v ∧ tr = events x ++ tr' ∧ Runs (f v) tr' out) ∨
      (∃ e, result x = .error e ∧ tr = events x ∧ out = .error e) := by
  rw [runs_bind]
  constructor
  · rintro (⟨v, tr₁, tr₂, rfl, h, hf⟩ | ⟨e, rfl, h⟩)
    · obtain ⟨x, rfl, hx⟩ := (hp _ _).mp h
      exact ⟨x, .inl ⟨v, tr₂, hx.symm, rfl, hf⟩⟩
    · obtain ⟨x, rfl, hx⟩ := (hp _ _).mp h
      exact ⟨x, .inr ⟨e, hx.symm, rfl, rfl⟩⟩
  · rintro ⟨x, ⟨v, tr', hx, rfl, hf⟩ | ⟨e, hx, rfl, rfl⟩⟩
    · exact .inl ⟨v, _, tr', rfl, (hp _ _).mpr ⟨x, rfl, hx.symm⟩, hf⟩
    · exact .inr ⟨e, rfl, (hp _ _).mpr ⟨x, rfl, hx.symm⟩⟩

/-- A sequence whose first part has known runs and never throws. -/
theorem runs_bind_ok {X : Type} {events : X → List (Event Op Ans)} {value : X → α}
    (hp : ∀ tr out, Runs p tr out ↔ ∃ x, tr = events x ∧ out = .ok (value x)) {f : α → Co Op Ans ε β}
    {out : Except ε β} : Runs (p >>= f) tr out ↔ ∃ x tr', tr = events x ++ tr' ∧ Runs (f (value x)) tr' out := by
  rw [runs_bind_of hp]
  constructor
  · rintro ⟨x, ⟨v, tr', hx, rfl, hf⟩ | ⟨e, hx, -⟩⟩
    · obtain rfl := Except.ok.inj hx
      exact ⟨x, tr', rfl, hf⟩
    · cases hx
  · rintro ⟨x, tr', rfl, hf⟩
    exact ⟨x, .inl ⟨_, tr', rfl, rfl, hf⟩⟩

/-- A coroutine whose value is passed on through a function. -/
theorem runs_map {f : α → β} {out : Except ε β} :
    Runs (p >>= fun v => pure (f v)) tr out ↔ ∃ r : Except ε α, Runs p tr r ∧ out = r.map f := by
  rw [runs_bind]
  constructor
  · rintro (⟨v, tr₁, tr₂, rfl, h, rfl, rfl⟩ | ⟨e, rfl, h⟩)
    · exact ⟨.ok v, by rwa [List.append_nil], rfl⟩
    · exact ⟨.error e, h, rfl⟩
  · rintro ⟨e | v, h, rfl⟩
    · exact .inr ⟨e, rfl, h⟩
    · exact .inl ⟨v, tr, [], (List.append_nil tr).symm, h, rfl, rfl⟩

theorem runs_finally {o : Op} : Runs (p.finally o) tr out ↔ ∃ tr' a, tr = tr' ++ [⟨o, a⟩] ∧ Runs p tr' out := by
  induction p generalizing tr with
  | ret v =>
      constructor
      · rintro ⟨a, tr', rfl, rfl, rfl⟩
        exact ⟨[], a, rfl, rfl, rfl⟩
      · rintro ⟨tr', a, rfl, rfl, rfl⟩
        exact ⟨a, [], rfl, rfl, rfl⟩
  | throw e =>
      constructor
      · rintro ⟨a, tr', rfl, rfl, rfl⟩
        exact ⟨[], a, rfl, rfl, rfl⟩
      · rintro ⟨tr', a, rfl, rfl, rfl⟩
        exact ⟨a, [], rfl, rfl, rfl⟩
  | await o' k ih =>
      constructor
      · rintro ⟨b, tr', rfl, h⟩
        obtain ⟨tr₁, a, rfl, hp⟩ := (ih b).mp h
        exact ⟨⟨o', b⟩ :: tr₁, a, rfl, b, tr₁, rfl, hp⟩
      · rintro ⟨tr', a, rfl, b, tr₁, rfl, hp⟩
        exact ⟨b, tr₁ ++ [⟨o, a⟩], rfl, (ih b).mpr ⟨tr₁, a, rfl, hp⟩⟩

theorem runs_attempt {out : Except ε' (Except ε α)} :
    Runs (p.attempt : Co Op Ans ε' _) tr out ↔ ∃ r, out = .ok r ∧ Runs p tr r := by
  induction p generalizing tr with
  | ret v =>
      constructor
      · rintro ⟨rfl, rfl⟩
        exact ⟨_, rfl, rfl, rfl⟩
      · rintro ⟨r, rfl, rfl, rfl⟩
        exact ⟨rfl, rfl⟩
  | throw e =>
      constructor
      · rintro ⟨rfl, rfl⟩
        exact ⟨_, rfl, rfl, rfl⟩
      · rintro ⟨r, rfl, rfl, rfl⟩
        exact ⟨rfl, rfl⟩
  | await o k ih =>
      constructor
      · rintro ⟨a, tr', rfl, h⟩
        obtain ⟨r, rfl, hp⟩ := (ih a).mp h
        exact ⟨r, rfl, a, tr', rfl, hp⟩
      · rintro ⟨r, rfl, a, tr', rfl, hp⟩
        exact ⟨a, tr', rfl, (ih a).mpr ⟨r, rfl, hp⟩⟩

end Rules

/-! ## What a coroutine awaits -/

section Always
variable {φ : List (Event Op Ans) → Op → Prop} {hist : List (Event Op Ans)}

/-- Each operation awaited satisfies `φ` of the events before it. -/
def Always (φ : List (Event Op Ans) → Op → Prop) : List (Event Op Ans) → Co Op Ans ε α → Prop
  | _, .ret _ => True
  | _, .throw _ => True
  | hist, .await o k => φ hist o ∧ ∀ a, Always φ (hist ++ [⟨o, a⟩]) (k a)

theorem Always.trace {p q : Co Op Ans ε α} {tr : List (Event Op Ans)} (h : Always φ hist p) (htr : Trace p tr q) :
    Always φ (hist ++ tr) q := by
  induction htr generalizing hist with
  | nil => rwa [List.append_nil]
  | cons a _ ih =>
      have := ih (h.2 a)
      rwa [List.append_assoc, List.singleton_append] at this

theorem Always.pure (v : α) : Always φ hist (pure v : Co Op Ans ε α) := trivial

theorem Always.throw (e : ε) : Always φ hist (.throw e : Co Op Ans ε α) := trivial

theorem Always.perform {o : Op} (h : φ hist o) : Always φ hist (perform o : Co Op Ans ε _) := ⟨h, fun _ => trivial⟩

/-- The second part is examined after each run of the first. -/
theorem Always.bind {p : Co Op Ans ε α} {f : α → Co Op Ans ε β} (hp : Always φ hist p)
    (hf : ∀ v tr, Runs p tr (.ok v) → Always φ (hist ++ tr) (f v)) : Always φ hist (p >>= f) := by
  induction p generalizing hist with
  | ret v =>
      have := hf v [] ⟨rfl, rfl⟩
      rwa [List.append_nil] at this
  | throw e => trivial
  | await o k ih =>
      refine ⟨hp.1, fun a => ih a (hp.2 a) fun v tr hv => ?_⟩
      have := hf v (⟨o, a⟩ :: tr) ⟨a, tr, rfl, hv⟩
      rwa [List.append_assoc, List.singleton_append]

theorem Always.finally {p : Co Op Ans ε α} {o : Op} (hp : Always φ hist p) (ho : ∀ hist, φ hist o) :
    Always φ hist (p.finally o) := by
  induction p generalizing hist with
  | ret v => exact ⟨ho _, fun _ => trivial⟩
  | throw e => exact ⟨ho _, fun _ => trivial⟩
  | await o' k ih => exact ⟨hp.1, fun a => ih a (hp.2 a)⟩

theorem Always.attempt {p : Co Op Ans ε α} (hp : Always φ hist p) :
    Always φ hist (p.attempt : Co Op Ans ε' _) := by
  induction p generalizing hist with
  | ret v => trivial
  | throw e => trivial
  | await o k ih => exact ⟨hp.1, fun a => ih a (hp.2 a)⟩

/-- What holds at every event of every run of a coroutine that can be answered holds of what it awaits. -/
theorem Always.of_runs (answer : (o : Op) → Ans o) {p : Co Op Ans ε α}
    (h : ∀ tr₁ ev tr₂ out, Runs p (tr₁ ++ ev :: tr₂) out → φ (hist ++ tr₁) ev.op) : Always φ hist p := by
  induction p generalizing hist with
  | ret v => trivial
  | throw e => trivial
  | await o k ih =>
      refine ⟨?_, fun a => ih a fun tr₁ ev tr₂ out hrun => ?_⟩
      · obtain ⟨tr, out, hrun⟩ := Runs.total answer (k (answer o))
        have hfirst := h [] ⟨o, answer o⟩ tr out ⟨answer o, tr, rfl, hrun⟩
        rwa [List.append_nil] at hfirst
      · have hlater := h (⟨o, a⟩ :: tr₁) ev tr₂ out ⟨a, _, rfl, hrun⟩
        rwa [List.append_assoc, List.singleton_append]

end Always

/-! ## What is thrown on -/

section Carries
variable {θ : Event Op Ans → ε → Prop} {p : Co Op Ans ε α}

/-- A throw among the events is what the coroutine ends in. -/
def Carries (θ : Event Op Ans → ε → Prop) (p : Co Op Ans ε α) : Prop :=
  ∀ tr out, Runs p tr out → ∀ ev ∈ tr, ∀ e, θ ev e → out = .error e

theorem Carries.pure (v : α) : Carries θ (pure v : Co Op Ans ε α) := by
  rintro tr out ⟨rfl, -⟩ ev hev
  cases hev

theorem Carries.throw (e : ε) : Carries θ (.throw e : Co Op Ans ε α) := by
  rintro tr out ⟨rfl, -⟩ ev hev
  cases hev

/-- A coroutine without throws among its events. -/
theorem Carries.of_always (h : Always (fun _ o => ∀ a e, ¬ θ ⟨o, a⟩ e) [] p) : Carries θ p := by
  generalize ([] : List (Event Op Ans)) = hist at h
  induction p generalizing hist with
  | ret v => exact Carries.pure v
  | throw e => exact Carries.throw e
  | await o k ih =>
      rintro tr out ⟨a, tr', rfl, hrun⟩ ev hev e hθ
      rcases List.mem_cons.mp hev with rfl | hev
      · exact absurd hθ (h.1 a e)
      · exact ih a _ (h.2 a) tr' out hrun ev hev e hθ

theorem Carries.bind {f : α → Co Op Ans ε β} (hp : Carries θ p) (hf : ∀ v, Carries θ (f v)) : Carries θ (p >>= f) := by
  intro tr out hrun ev hev e hθ
  rcases runs_bind.mp hrun with ⟨v, tr₁, tr₂, rfl, h₁, h₂⟩ | ⟨e', rfl, h₁⟩
  · rcases List.mem_append.mp hev with hev | hev
    · cases hp tr₁ _ h₁ ev hev e hθ
    · exact hf v tr₂ out h₂ ev hev e hθ
  · cases hp tr _ h₁ ev hev e hθ
    rfl

theorem Carries.finally {o : Op} (hp : Carries θ p) (ho : ∀ a e, ¬ θ ⟨o, a⟩ e) : Carries θ (p.finally o) := by
  intro tr out hrun ev hev e hθ
  obtain ⟨tr', a, rfl, h₁⟩ := runs_finally.mp hrun
  rcases List.mem_append.mp hev with hev | hev
  · exact hp tr' out h₁ ev hev e hθ
  · rw [List.mem_singleton.mp hev] at hθ
    exact absurd hθ (ho a e)

end Carries

/-! ## Two coroutines side by side -/

section Related
variable {α' β' : Type}

/-- Two events of the same operation with related answers. -/
inductive Event.Rel (T : (o : Op) → Ans o → Ans o → Prop) : Event Op Ans → Event Op Ans → Prop where
  | intro (o : Op) (a a' : Ans o) (h : T o a a') : Rel T ⟨o, a⟩ ⟨o, a'⟩

/-- Two outcomes that are both values or both throws, and related. -/
inductive OutcomeRel (R : α → α' → Prop) (E : ε → ε → Prop) : Except ε α → Except ε α' → Prop where
  | ok {v : α} {w : α'} (h : R v w) : OutcomeRel R E (.ok v) (.ok w)
  | error {e e' : ε} (h : E e e') : OutcomeRel R E (.error e) (.error e')

inductive Related (T : (o : Op) → Ans o → Ans o → Prop) (R : α → α' → Prop) (E : ε → ε → Prop) :
    Co Op Ans ε α → Co Op Ans ε α' → Prop where
  | ret {v : α} {w : α'} (h : R v w) : Related T R E (.ret v) (.ret w)
  | throw {e e' : ε} (h : E e e') : Related T R E (.throw e) (.throw e')
  | await (o : Op) {k : Ans o → Co Op Ans ε α} {k' : Ans o → Co Op Ans ε α'}
      (h : ∀ a a', T o a a' → Related T R E (k a) (k' a')) : Related T R E (.await o k) (.await o k')

variable {T : (o : Op) → Ans o → Ans o → Prop} {R : α → α' → Prop} {E : ε → ε → Prop} {p : Co Op Ans ε α}
  {q : Co Op Ans ε α'}

/-- **Runs with related answers have related outcomes.** -/
theorem Related.runs (h : Related T R E p q) {tr tr' : List (Event Op Ans)} {out : Except ε α} {out' : Except ε α'}
    (htr : List.Forall₂ (Event.Rel T) tr tr') (hp : Runs p tr out) (hq : Runs q tr' out') : OutcomeRel R E out out' := by
  induction h generalizing tr tr' with
  | ret h =>
      obtain ⟨-, rfl⟩ := hp
      obtain ⟨-, rfl⟩ := hq
      exact .ok h
  | throw h =>
      obtain ⟨-, rfl⟩ := hp
      obtain ⟨-, rfl⟩ := hq
      exact .error h
  | await o _ ih =>
      obtain ⟨a, tr₁, rfl, hp⟩ := hp
      obtain ⟨a', tr₁', rfl, hq⟩ := hq
      obtain ⟨⟨_, _, _, hT⟩, htr⟩ := List.forall₂_cons.mp htr
      exact ih a a' hT htr hp hq

/-- A run can be repeated with other answers. -/
theorem Related.exists_run (h : Related T R E p q) {f : (o : Op) → Ans o → Ans o} (hf : ∀ o a, T o a (f o a))
    {tr : List (Event Op Ans)} {out : Except ε α} (hp : Runs p tr out) :
    ∃ out', Runs q (tr.map fun ev => ⟨ev.op, f ev.op ev.ans⟩) out' := by
  induction h generalizing tr with
  | ret h =>
      obtain ⟨rfl, -⟩ := hp
      exact ⟨_, rfl, rfl⟩
  | throw h =>
      obtain ⟨rfl, -⟩ := hp
      exact ⟨_, rfl, rfl⟩
  | await o _ ih =>
      obtain ⟨a, tr', rfl, hp⟩ := hp
      obtain ⟨out', hq⟩ := ih a (f o a) (hf o a) hp
      exact ⟨out', f o a, _, rfl, hq⟩

/-- A coroutine all of whose answers are determined. -/
theorem Related.refl (hE : ∀ e, E e e) (h : Always (fun _ o => ∀ a a', T o a a' → a = a') [] p) :
    Related T Eq E p p := by
  generalize ([] : List (Event Op Ans)) = hist at h
  induction p generalizing hist with
  | ret v => exact .ret rfl
  | throw e => exact .throw (hE e)
  | await o k ih =>
      refine .await o fun a a' hT => ?_
      obtain rfl := h.1 a a' hT
      exact ih a _ (h.2 a)

theorem Related.pure {v : α} {w : α'} (h : R v w) : Related T R E (pure v : Co Op Ans ε α) (pure w) := .ret h

/-- A coroutine that begins with one operation. -/
theorem Related.perform_bind (o : Op) {f : Ans o → Co Op Ans ε α} {g : Ans o → Co Op Ans ε α'}
    (h : ∀ a a', T o a a' → Related T R E (f a) (g a')) : Related T R E (perform o >>= f) (perform o >>= g) := .await o h

theorem Related.bind {R' : β → β' → Prop} {f : α → Co Op Ans ε β} {g : α' → Co Op Ans ε β'}
    (h : Related T R E p q) (hf : ∀ v w, R v w → Related T R' E (f v) (g w)) :
    Related T R' E (p >>= f) (q >>= g) := by
  induction h with
  | ret h => exact hf _ _ h
  | throw h => exact .throw h
  | await o _ ih => exact .await o ih

theorem Related.finally (h : Related T R E p q) (o : Op) : Related T R E (p.finally o) (q.finally o) := by
  induction h with
  | ret h => exact .await o fun _ _ _ => .ret h
  | throw h => exact .await o fun _ _ _ => .throw h
  | await o' _ ih => exact .await o' ih

theorem Related.attempt {E' : ε' → ε' → Prop} (h : Related T R E p q) :
    Related T (OutcomeRel R E) E' p.attempt q.attempt := by
  induction h with
  | ret h => exact .ret (.ok h)
  | throw h => exact .ret (.error h)
  | await o _ ih => exact .await o ih

end Related

end Coroutine
