import Mathlib

/-!
# Byte strings as numbers

* `value` : a byte string read big-endian;
* `append_lt_append` : a smaller number at the front of a byte string makes it lexicographically smaller.
-/

namespace BigEndian

/-- The number a byte string spells, most significant byte first. -/
def value : List UInt8 → Nat
  | [] => 0
  | b :: bs => b.toNat * 256 ^ bs.length + value bs

theorem value_lt (bs : List UInt8) : value bs < 256 ^ bs.length := by
  induction bs with
  | nil => exact Nat.one_pos
  | cons b bs ih =>
      have hb : b.toNat + 1 ≤ 256 := b.toNat_lt
      calc value (b :: bs) < b.toNat * 256 ^ bs.length + 256 ^ bs.length := Nat.add_lt_add_left ih _
        _ = (b.toNat + 1) * 256 ^ bs.length := by rw [Nat.add_mul, Nat.one_mul]
        _ ≤ 256 * 256 ^ bs.length := Nat.mul_le_mul_right _ hb
        _ = 256 ^ (b :: bs).length := by rw [List.length_cons, Nat.pow_succ, Nat.mul_comm]

/-- **Lexicographic order is numeric order**, whatever follows. -/
theorem append_lt_append {bs cs : List UInt8} (hlen : bs.length = cs.length) (hlt : value bs < value cs)
    (xs ys : List UInt8) : bs ++ xs < cs ++ ys := by
  induction bs generalizing cs with
  | nil =>
      rw [List.eq_nil_of_length_eq_zero hlen.symm] at hlt
      exact absurd hlt (Nat.lt_irrefl _)
  | cons b bs ih =>
      cases cs with
      | nil => cases hlen
      | cons c cs =>
          have htail : bs.length = cs.length := Nat.succ.inj hlen
          show b :: (bs ++ xs) < c :: (cs ++ ys)
          rw [List.cons_lt_cons_iff]
          rcases Nat.lt_trichotomy b.toNat c.toNat with hbc | hbc | hbc
          · exact .inl hbc
          · refine .inr ⟨UInt8.toNat_inj.mp hbc, ih htail ?_⟩
            rw [value, value, hbc, htail] at hlt
            omega
          · -- a larger first byte outweighs everything after it
            exfalso
            have hcs := value_lt cs
            have hle : (c.toNat + 1) * 256 ^ cs.length ≤ b.toNat * 256 ^ cs.length := Nat.mul_le_mul_right _ hbc
            rw [Nat.add_mul, Nat.one_mul] at hle
            rw [value, value, htail] at hlt
            omega

end BigEndian
