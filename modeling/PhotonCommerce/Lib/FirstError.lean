import Mathlib.Data.List.Forall2

/-!
# The first error of a list of steps

A program that reads or checks a list of things in order stops at the first one that fails.

* `errors f xs` : what goes wrong with the elements of `xs`, each on its own, in order; `head?_errors_iff`;
* `mapM_eq_ok_iff`, `mapM_eq_error_iff` : the loop succeeds with all results, or stops with the first error;
* `forM_eq_ok_iff`, `forM_eq_error_iff` : the same for a loop that only checks;
* `collect`, `collect_eq_iff` : what a loop has collected when it stops;
* `stage` : the errors of a stage that is entered only when the one before it has none.
-/

namespace FirstError

variable {ε α β γ : Type}

/-- What goes wrong with the elements of a list. -/
def errors (f : α → Except ε β) (xs : List α) : List ε :=
  xs.filterMap fun x => match f x with
    | .error e => some e
    | .ok _ => none

@[simp] theorem errors_nil (f : α → Except ε β) : errors f [] = [] := rfl

theorem errors_cons_ok {f : α → Except ε β} {x : α} {y : β} (h : f x = .ok y) (xs : List α) :
    errors f (x :: xs) = errors f xs := by
  rw [errors, List.filterMap_cons, h]
  rfl

theorem errors_cons_error {f : α → Except ε β} {x : α} {e : ε} (h : f x = .error e) (xs : List α) :
    errors f (x :: xs) = e :: errors f xs := by
  rw [errors, List.filterMap_cons, h]
  rfl

/-- The first error is that of an element before which all go well. -/
theorem head?_errors_iff {f : α → Except ε β} {xs : List α} {e : ε} : (errors f xs).head? = some e ↔
    ∃ l x r, xs = l ++ x :: r ∧ (∀ y ∈ l, ∃ b, f y = .ok b) ∧ f x = .error e := by
  induction xs with
  | nil => simp
  | cons x xs ih =>
      cases hx : f x with
      | error e' =>
          rw [errors_cons_error hx, List.head?_cons, Option.some.injEq]
          constructor
          · intro h
            exact ⟨[], x, xs, rfl, by simp, h ▸ hx⟩
          · intro h
            obtain ⟨l, y, r, hsplit, hl, hy⟩ := h
            cases l with
            | nil =>
                obtain ⟨rfl, -⟩ := List.cons.inj hsplit
                exact Except.error.inj (hx.symm.trans hy)
            | cons z l =>
                obtain ⟨rfl, -⟩ := List.cons.inj hsplit
                obtain ⟨b, hb⟩ := hl _ List.mem_cons_self
                rw [hx] at hb
                cases hb
      | ok b =>
          rw [errors_cons_ok hx, ih]
          constructor
          · intro h
            obtain ⟨l, y, r, rfl, hl, hy⟩ := h
            exact ⟨x :: l, y, r, rfl, List.forall_mem_cons.mpr ⟨⟨b, hx⟩, hl⟩, hy⟩
          · intro h
            obtain ⟨l, y, r, hsplit, hl, hy⟩ := h
            cases l with
            | nil =>
                obtain ⟨rfl, -⟩ := List.cons.inj hsplit
                rw [hx] at hy
                cases hy
            | cons z l =>
                obtain ⟨rfl, rfl⟩ := List.cons.inj hsplit
                exact ⟨l, y, r, rfl, fun w hw => hl w (List.mem_cons_of_mem _ hw), hy⟩

theorem bind_eq_ok_iff {x : Except ε β} {f : β → Except ε γ} {c : γ} :
    x >>= f = .ok c ↔ ∃ b, x = .ok b ∧ f b = .ok c := by
  cases x with
  | error e => simp [Bind.bind, Except.bind]
  | ok b => simp [Bind.bind, Except.bind]

theorem bind_eq_error_iff {x : Except ε β} {f : β → Except ε γ} {e : ε} :
    x >>= f = .error e ↔ x = .error e ∨ ∃ b, x = .ok b ∧ f b = .error e := by
  cases x with
  | error e => simp [Bind.bind, Except.bind]
  | ok b => simp [Bind.bind, Except.bind]

/-! ## Loops -/

/-- A loop that collects results succeeds with the result of every element. -/
theorem mapM_eq_ok_iff {f : α → Except ε β} {xs : List α} {ys : List β} :
    xs.mapM f = .ok ys ↔ List.Forall₂ (fun x y => f x = .ok y) xs ys := by
  induction xs generalizing ys with
  | nil =>
      rw [List.mapM_nil, List.forall₂_nil_left_iff]
      exact ⟨fun h => (Except.ok.inj h).symm, fun h => congrArg Except.ok h.symm⟩
  | cons x xs ih =>
      rw [List.mapM_cons, List.forall₂_cons_left_iff, bind_eq_ok_iff]
      constructor
      · intro h
        obtain ⟨y, hy, hrest⟩ := h
        obtain ⟨ys', hys', hend⟩ := bind_eq_ok_iff.mp hrest
        exact ⟨y, ys', hy, ih.mp hys', (Except.ok.inj hend).symm⟩
      · intro h
        obtain ⟨y, ys', hy, hys', rfl⟩ := h
        exact ⟨y, hy, bind_eq_ok_iff.mpr ⟨ys', ih.mpr hys', rfl⟩⟩

/-- It stops with the first error. -/
theorem mapM_eq_error_iff {f : α → Except ε β} {xs : List α} {e : ε} :
    xs.mapM f = .error e ↔ (errors f xs).head? = some e := by
  induction xs with
  | nil =>
      rw [List.mapM_nil]
      constructor
      · intro h
        cases h
      · intro h
        cases h
  | cons x xs ih =>
      rw [List.mapM_cons, bind_eq_error_iff]
      cases hx : f x with
      | error e' =>
          rw [errors_cons_error hx, List.head?_cons]
          simp
      | ok y =>
          rw [errors_cons_ok hx, ← ih]
          simp only [reduceCtorEq, false_or, Except.ok.injEq, exists_eq_left', bind_eq_error_iff]
          constructor
          · intro h
            rcases h with h | ⟨_, -, h⟩
            · exact h
            · cases h
          · exact Or.inl

theorem forM_eq_error_iff {f : α → Except ε Unit} {xs : List α} {e : ε} :
    xs.forM f = .error e ↔ (errors f xs).head? = some e := by
  induction xs with
  | nil =>
      constructor
      · intro h
        cases h
      · intro h
        cases h
  | cons x xs ih =>
      change (f x >>= fun _ => xs.forM f) = .error e ↔ _
      rw [bind_eq_error_iff]
      cases hx : f x with
      | error e' =>
          rw [errors_cons_error hx, List.head?_cons]
          simp
      | ok y =>
          rw [errors_cons_ok hx, ← ih]
          simp

theorem forM_eq_ok_iff {f : α → Except ε Unit} {xs : List α} :
    xs.forM f = .ok () ↔ ∀ x ∈ xs, f x = .ok () := by
  induction xs with
  | nil => exact ⟨fun _ x hx => absurd hx List.not_mem_nil, fun _ => rfl⟩
  | cons x xs ih =>
      change (f x >>= fun _ => xs.forM f) = .ok () ↔ _
      rw [bind_eq_ok_iff, List.forall_mem_cons, ← ih]
      exact ⟨fun ⟨_, hx, hrest⟩ => ⟨hx, hrest⟩, fun ⟨hx, hrest⟩ => ⟨_, hx, hrest⟩⟩

/-! ## What was collected before -/

/-- The results of a loop up to the first error, and that error. -/
def collect (f : α → Except ε β) : List α → List β × Option ε
  | [] => ([], none)
  | x :: xs =>
      match f x with
      | .error e => ([], some e)
      | .ok y => (y :: (collect f xs).1, (collect f xs).2)

theorem collect_snd (f : α → Except ε β) (xs : List α) : (collect f xs).2 = (errors f xs).head? := by
  induction xs with
  | nil => rfl
  | cons x xs ih =>
      cases hx : f x with
      | error e => rw [collect, hx, errors_cons_error hx, List.head?_cons]
      | ok y => rw [collect, hx, errors_cons_ok hx, ← ih]

/-- The elements a loop has not gone through: none, or from the first error on. -/
def Unread (f : α → Except ε β) : Option ε → List α → Prop
  | none, r => r = []
  | some e, r => ∃ x r', r = x :: r' ∧ f x = .error e

/-- The results are those of the elements before the first error. -/
theorem collect_eq_iff {f : α → Except ε β} {xs : List α} {ys : List β} {stop : Option ε} :
    collect f xs = (ys, stop) ↔
      ∃ l r, xs = l ++ r ∧ List.Forall₂ (fun x y => f x = .ok y) l ys ∧ Unread f stop r := by
  induction xs generalizing ys with
  | nil =>
      rw [collect, Prod.mk.injEq]
      constructor
      · intro h
        obtain ⟨rfl, rfl⟩ := h
        exact ⟨[], [], rfl, .nil, rfl⟩
      · intro h
        obtain ⟨l, r, hsplit, hl, hr⟩ := h
        obtain ⟨rfl, rfl⟩ := List.append_eq_nil_iff.mp hsplit.symm
        refine ⟨(List.forall₂_nil_left_iff.mp hl).symm, ?_⟩
        cases stop with
        | none => rfl
        | some e =>
            obtain ⟨x, r', hr, -⟩ := hr
            cases hr
  | cons x xs ih =>
      cases hx : f x with
      | error e =>
          rw [collect, hx, Prod.mk.injEq]
          constructor
          · intro h
            obtain ⟨rfl, rfl⟩ := h
            exact ⟨[], x :: xs, rfl, .nil, x, xs, rfl, hx⟩
          · intro h
            obtain ⟨l, r, hsplit, hl, hr⟩ := h
            cases hl with
            | nil =>
                obtain rfl : x :: xs = r := hsplit
                cases stop with
                | none => cases hr
                | some e' =>
                    obtain ⟨y, r', hcons, hy⟩ := hr
                    obtain ⟨rfl, -⟩ := List.cons.inj hcons
                    exact ⟨rfl, congrArg some (Except.error.inj (hx.symm.trans hy))⟩
            | cons hy _ =>
                obtain ⟨rfl, -⟩ := List.cons.inj hsplit
                rw [hx] at hy
                cases hy
      | ok y =>
          rw [collect, hx, Prod.mk.injEq]
          constructor
          · intro h
            obtain ⟨rfl, hstop⟩ := h
            obtain ⟨l, r, rfl, hl, hr⟩ := ih.mp (Prod.ext rfl hstop)
            exact ⟨x :: l, r, rfl, .cons hx hl, hr⟩
          · intro h
            obtain ⟨l, r, hsplit, hl, hr⟩ := h
            cases hl with
            | nil =>
                obtain rfl : x :: xs = r := hsplit
                cases stop with
                | none => cases hr
                | some e' =>
                    obtain ⟨z, r', hcons, hz⟩ := hr
                    obtain ⟨rfl, -⟩ := List.cons.inj hcons
                    rw [hx] at hz
                    cases hz
            | cons hz hl =>
                obtain ⟨rfl, rfl⟩ := List.cons.inj hsplit
                obtain rfl := Except.ok.inj (hx.symm.trans hz)
                have hrest := ih.mpr ⟨_, r, rfl, hl, hr⟩
                rw [hrest]
                exact ⟨rfl, rfl⟩

/-! ## Stages -/

/-- The errors of a stage, or those of the next one when it has none. -/
def stage (first : List ε) (next : List ε) : List ε := if first.isEmpty then next else first

@[simp] theorem stage_nil (next : List ε) : stage [] next = next := rfl

@[simp] theorem stage_cons (e : ε) (es next : List ε) : stage (e :: es) next = e :: es := rfl

/-- A program in two stages has the first error of its stages. -/
theorem stage_bind {x : Except ε β} {f : β → Except ε γ} {first next : List ε} {e : ε}
    (hx : ∀ e, x = .error e ↔ first.head? = some e) (hf : ∀ b, x = .ok b → (f b = .error e ↔ next.head? = some e)) :
    x >>= f = .error e ↔ (stage first next).head? = some e := by
  rw [bind_eq_error_iff]
  cases first with
  | nil =>
      cases x with
      | error e' => exact absurd ((hx e').mp rfl) (by simp)
      | ok b => simpa using hf b rfl
  | cons e' es =>
      have hfail := (hx e').mpr rfl
      rw [hfail]
      simp

end FirstError
