import Mathlib.Data.List.Basic

/-!
# Percent-decoding

* `decode` : `%` and two digits stand for a byte, every other byte for itself; no byte decodes to zero;
* `Decodes` : the same as a relation; `decodes_of_decode`;
* `countP_le`, `le_count` : decoding adds no bytes and takes away no byte that means itself;
* `decode_eq_self_iff` : only what has no `%` decodes to itself.
-/

namespace PercentCodec

/-- The byte `%`. -/
abbrev percent : UInt8 := 37

/-- The value of a hexadecimal digit of either case. -/
def hexDigit (b : UInt8) : Option UInt8 :=
  if 48 ≤ b ∧ b ≤ 57 then some (b - 48)
  else if 65 ≤ b ∧ b ≤ 70 then some (b - 55)
  else if 97 ≤ b ∧ b ≤ 102 then some (b - 87)
  else none

/-- The byte two digits spell; zero cannot be spelt. -/
def hexByte (hi lo : UInt8) : Option UInt8 := do
  let hi ← hexDigit hi
  let lo ← hexDigit lo
  if 16 * hi + lo = 0 then none else some (16 * hi + lo)

/-- The bytes an encoded text stands for. -/
def decode : List UInt8 → Option (List UInt8)
  | [] => some []
  | b :: src =>
      if b = percent then
        match src with
        | hi :: lo :: rest => do
            let c ← hexByte hi lo
            let bytes ← decode rest
            return c :: bytes
        | _ => none
      else (decode src).map (b :: ·)

theorem decode_literal {b : UInt8} (hb : b ≠ percent) (src : List UInt8) :
    decode (b :: src) = (decode src).map (b :: ·) := by
  rw [decode.eq_def]
  exact if_neg hb

theorem ne_zero_of_hexByte {hi lo c : UInt8} (h : hexByte hi lo = some c) : c ≠ 0 := by
  simp only [hexByte, Option.bind_eq_bind, Option.bind_eq_some_iff] at h
  obtain ⟨_, _, _, _, h⟩ := h
  split at h
  · cases h
  · next hne =>
      cases h
      exact hne

/-- Both bytes after `%` are digits. -/
theorem hexDigit_of_hexByte {hi lo c : UInt8} (h : hexByte hi lo = some c) :
    hexDigit hi ≠ none ∧ hexDigit lo ≠ none := by
  simp only [hexByte, Option.bind_eq_bind, Option.bind_eq_some_iff] at h
  obtain ⟨_, hhi, _, hlo, _⟩ := h
  rw [hhi, hlo]
  exact ⟨Option.some_ne_none _, Option.some_ne_none _⟩

/-! ## The relation -/

/-- `Decodes src bytes` : the text `src` stands for `bytes`. -/
inductive Decodes : List UInt8 → List UInt8 → Prop
  | nil : Decodes [] []
  | literal {b : UInt8} {src bytes : List UInt8} (hb : b ≠ percent) (h : Decodes src bytes) :
      Decodes (b :: src) (b :: bytes)
  | escape {hi lo c : UInt8} {src bytes : List UInt8} (hc : hexByte hi lo = some c) (h : Decodes src bytes) :
      Decodes (percent :: hi :: lo :: src) (c :: bytes)

theorem decodes_of_decode {src bytes : List UInt8} (h : decode src = some bytes) : Decodes src bytes := by
  match src with
  | [] =>
      cases h
      exact .nil
  | b :: src =>
      by_cases hb : b = percent
      · unfold decode at h
        rw [if_pos hb] at h
        split at h
        · next hi lo rest =>
            simp only [Option.bind_eq_bind, Option.bind_eq_some_iff] at h
            obtain ⟨c, hc, tail, hrest, heq⟩ := h
            cases heq
            rw [hb]
            exact .escape hc (decodes_of_decode hrest)
        · cases h
      · rw [decode_literal hb, Option.map_eq_some_iff] at h
        obtain ⟨tail, hsrc, rfl⟩ := h
        exact .literal hb (decodes_of_decode hsrc)

theorem decode_of_not_mem {src : List UInt8} (h : percent ∉ src) : decode src = some src := by
  induction src with
  | nil => rfl
  | cons b src ih =>
      rw [List.mem_cons, not_or] at h
      rw [decode_literal (Ne.symm h.1), ih h.2]
      rfl

namespace Decodes

variable {src bytes : List UInt8}

/-! ## What is kept and what is lost -/

/-- Decoding adds no byte of a kind that `%` is of. -/
theorem countP_le (h : Decodes src bytes) {p : UInt8 → Bool} (hp : p percent = true) :
    bytes.countP p ≤ src.countP p := by
  induction h with
  | nil => exact Nat.le_refl _
  | literal _ _ ih =>
      rw [List.countP_cons, List.countP_cons]
      omega
  | escape _ _ ih =>
      simp only [List.countP_cons, hp, if_true]
      split <;> omega

/-- Decoding takes away no byte that is neither `%` nor a digit. -/
theorem le_count (h : Decodes src bytes) {b : UInt8} (hb : b ≠ percent) (hdigit : hexDigit b = none) :
    src.count b ≤ bytes.count b := by
  induction h with
  | nil => exact Nat.le_refl _
  | literal _ _ ih =>
      rw [List.count_cons, List.count_cons]
      omega
  | @escape hi lo c src bytes hc _ ih =>
      obtain ⟨hhi, hlo⟩ := hexDigit_of_hexByte hc
      have hhib : hi ≠ b := fun heq => hhi (heq ▸ hdigit)
      have hlob : lo ≠ b := fun heq => hlo (heq ▸ hdigit)
      rw [List.count_cons_of_ne hb.symm, List.count_cons_of_ne hhib, List.count_cons_of_ne hlob, List.count_cons]
      omega

theorem length_le (h : Decodes src bytes) : bytes.length ≤ src.length := by
  have hcount := h.countP_le (p := fun _ => true) rfl
  simpa using hcount

/-- An escape is longer than the byte it stands for. -/
theorem length_lt (h : Decodes src bytes) (hmem : percent ∈ src) : bytes.length < src.length := by
  induction h with
  | nil => cases hmem
  | literal hb _ ih =>
      rcases List.mem_cons.mp hmem with heq | hmem
      · exact absurd heq.symm hb
      · exact Nat.succ_lt_succ (ih hmem)
  | escape _ h _ =>
      have hle := h.length_le
      simp only [List.length_cons]
      omega

/-- No byte decodes to zero. -/
theorem zero_not_mem (h : Decodes src bytes) (hsrc : 0 ∉ src) : 0 ∉ bytes := by
  induction h with
  | nil => exact hsrc
  | literal _ _ ih =>
      rw [List.mem_cons, not_or] at hsrc ⊢
      exact ⟨hsrc.1, ih hsrc.2⟩
  | escape hc _ ih =>
      simp only [List.mem_cons, not_or] at hsrc ⊢
      exact ⟨(ne_zero_of_hexByte hc).symm, ih hsrc.2.2.2⟩

theorem mem (h : Decodes src bytes) {b : UInt8} (hb : b ≠ percent) (hdigit : hexDigit b = none) (hmem : b ∈ src) :
    b ∈ bytes := by
  have hpos := List.count_pos_iff.mpr hmem
  exact List.count_pos_iff.mp (Nat.lt_of_lt_of_le hpos (h.le_count hb hdigit))

end Decodes

/-- **Only a text without `%` stands for itself.** -/
theorem decode_eq_self_iff {src : List UInt8} : decode src = some src ↔ percent ∉ src := by
  constructor
  · intro h hmem
    exact Nat.lt_irrefl _ ((decodes_of_decode h).length_lt hmem)
  · exact decode_of_not_mem

end PercentCodec
