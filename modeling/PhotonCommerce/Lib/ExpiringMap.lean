import Mathlib.Logic.Function.Basic

/-!
# Maps whose entries expire

* `Slot`, `Store` : a value with an optional deadline under each key;
* `Store.set`, `Store.evict`, `Store.get` : write, forget, read at a time.
-/

namespace ExpiringMap

/-- A value, until its deadline if it has one. -/
structure Slot (V : Type) where
  value : V
  deadline : Option Nat

/-- The value is still there at a time. -/
def Slot.live {V : Type} (slot : Slot V) (time : Nat) : Bool :=
  match slot.deadline with
  | none => true
  | some deadline => time < deadline

abbrev Store (K V : Type) := K → Option (Slot V)

section Read
variable {K V : Type}

def Store.empty : Store K V := fun _ => none

/-- The value of a key at a time. -/
def Store.get (m : Store K V) (time : Nat) (key : K) : Option V :=
  (m key).bind fun slot => if slot.live time then some slot.value else none

theorem Store.get_eq_some_iff {m : Store K V} {time : Nat} {key : K} {v : V} :
    m.get time key = some v ↔ ∃ slot, m key = some slot ∧ slot.live time = true ∧ slot.value = v := by
  unfold Store.get
  simp only [Option.bind_eq_some_iff, Option.ite_none_right_eq_some, Option.some.injEq]

/-- What can be read at a time could be read before. -/
theorem Store.get_of_le {m : Store K V} {time time' : Nat} {key : K} {v : V} (hle : time ≤ time')
    (h : m.get time' key = some v) : m.get time key = some v := by
  obtain ⟨slot, hslot, hlive, rfl⟩ := Store.get_eq_some_iff.mp h
  refine Store.get_eq_some_iff.mpr ⟨slot, hslot, ?_, rfl⟩
  unfold Slot.live at hlive ⊢
  split at hlive
  · rfl
  · rw [decide_eq_true_eq] at hlive ⊢
    omega

end Read

section Write
variable {K V : Type} [DecidableEq K]

def Store.set (m : Store K V) (key : K) (slot : Slot V) : Store K V := Function.update m key (some slot)

def Store.evict (m : Store K V) (key : K) : Store K V := Function.update m key none

@[simp] theorem Store.set_self (m : Store K V) (key : K) (slot : Slot V) : m.set key slot key = some slot :=
  Function.update_self ..

@[simp] theorem Store.set_of_ne (m : Store K V) {key key' : K} (slot : Slot V) (h : key' ≠ key) :
    m.set key slot key' = m key' := Function.update_of_ne h ..

theorem Store.evict_eq_some {m : Store K V} {key key' : K} {slot : Slot V} (h : m.evict key key' = some slot) :
    m key' = some slot := by
  unfold Store.evict at h
  by_cases hkey : key' = key
  · subst hkey
    rw [Function.update_self] at h
    cases h
  · rwa [Function.update_of_ne hkey] at h

end Write

end ExpiringMap
