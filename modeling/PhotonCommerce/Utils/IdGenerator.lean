import PhotonCommerce.Lib.BigEndian
import PhotonCommerce.Utils.Util

/-!
# The layout of `GenerateUUID`

* `uuidV7` : the UUID of a time and three random words;
* `toNat_version`, `toNat_variant` : what the two masks leave of their bytes;
* `value_timestamp` : the first six bytes are the time;
* `printBytes_lt` : the printed form keeps the order of the bytes;
* `uuidBytes_eq_iff` : which bits of the time and of the random words the bytes carry.
-/

namespace PhotonCommerce.Utils
open Coroutine

/-- The UUID `GenerateUUID` prints. -/
def uuidV7 (timestamp : Nat) (rand1 rand2 rand3 : UInt32) : Uuid := ⟨uuidBytes timestamp rand1 rand2 rand3, rfl⟩

/-- The version nibble. -/
def Uuid.version (u : Uuid) : UInt8 := u.bytes.getD 6 0 >>> 4

/-- The variant bits. -/
def Uuid.variant (u : Uuid) : UInt8 := u.bytes.getD 8 0 >>> 6

/-! ## Bytes of words -/

theorem toNat_byte (r : UInt32) (k : UInt32) (hk : k.toNat < 32) :
    (r >>> k).toUInt8.toNat = r.toNat / 2 ^ k.toNat % 256 := by
  rw [UInt32.toNat_toUInt8, UInt32.toNat_shiftRight, Nat.mod_eq_of_lt hk, Nat.shiftRight_eq_div_pow]

/-- The version nibble over the low nibble of the byte. -/
theorem toNat_version (b : UInt8) : (b &&& 0x0F ||| 0x70).toNat = 0x70 + b.toNat % 16 := by
  have hall : ∀ n < 256, (UInt8.ofNat n &&& 0x0F ||| 0x70).toNat = 0x70 + n % 16 := by decide +kernel
  have h := hall b.toNat b.toNat_lt
  rwa [UInt8.ofNat_toNat] at h

/-- The variant bits over the low six bits of the byte. -/
theorem toNat_variant (b : UInt8) : (b &&& 0x3F ||| 0x80).toNat = 0x80 + b.toNat % 64 := by
  have hall : ∀ n < 256, (UInt8.ofNat n &&& 0x3F ||| 0x80).toNat = 0x80 + n % 64 := by decide +kernel
  have h := hall b.toNat b.toNat_lt
  rwa [UInt8.ofNat_toNat] at h

theorem and_retained (n : Nat) : n &&& 0x0FFF3FFF = n / 2 ^ 16 % 2 ^ 12 * 2 ^ 16 + n % 2 ^ 14 := by
  have hor : n &&& 0x0FFF3FFF = ((n >>> 16) &&& (2 ^ 12 - 1)) <<< 16 ||| (n &&& (2 ^ 14 - 1)) := by
    rw [Nat.shiftLeft_and_distrib, show 0x0FFF3FFF = (2 ^ 12 - 1) <<< 16 ||| (2 ^ 14 - 1) from rfl,
      Nat.and_or_distrib_left]
    apply Nat.eq_of_testBit_eq
    intro i
    simp only [Nat.testBit_or, Nat.testBit_and, Nat.testBit_shiftLeft, Nat.testBit_shiftRight]
    by_cases hi : 16 ≤ i
    · simp [hi]
    · simp [hi]
  have hlt : n % 2 ^ 14 < 2 ^ 16 := by omega
  rw [hor, Nat.and_two_pow_sub_one_eq_mod, Nat.and_two_pow_sub_one_eq_mod,
    ← Nat.shiftLeft_add_eq_or_of_lt hlt, Nat.shiftLeft_eq, Nat.shiftRight_eq_div_pow]

theorem version_uuidV7 (ts : Nat) (r₁ r₂ r₃ : UInt32) : (uuidV7 ts r₁ r₂ r₃).version = 7 := by
  show ((r₁ >>> 24).toUInt8 &&& 0x0F ||| 0x70) >>> 4 = 7
  apply UInt8.toNat_inj.mp
  rw [UInt8.toNat_shiftRight, toNat_version, Nat.shiftRight_eq_div_pow]
  simp only [UInt8.reduceToNat, Nat.reduceMod]
  omega

theorem variant_uuidV7 (ts : Nat) (r₁ r₂ r₃ : UInt32) : (uuidV7 ts r₁ r₂ r₃).variant = 0b10 := by
  show ((r₁ >>> 8).toUInt8 &&& 0x3F ||| 0x80) >>> 6 = 0b10
  apply UInt8.toNat_inj.mp
  rw [UInt8.toNat_shiftRight, toNat_variant, Nat.shiftRight_eq_div_pow]
  simp only [UInt8.reduceToNat, Nat.reduceMod]
  omega

/-! ## The time -/

/-- **The first six bytes are the time**, big-endian. -/
theorem value_timestamp (rand1 rand2 rand3 : UInt32) {timestamp : Nat} (h : timestamp < 2 ^ 48) :
    BigEndian.value ((uuidBytes timestamp rand1 rand2 rand3).take 6) = timestamp := by
  show BigEndian.value [.ofNat (timestamp >>> 40), .ofNat (timestamp >>> 32), .ofNat (timestamp >>> 24),
    .ofNat (timestamp >>> 16), .ofNat (timestamp >>> 8), .ofNat timestamp] = timestamp
  simp only [BigEndian.value, List.length_cons, List.length_nil, UInt8.toNat_ofNat', Nat.shiftRight_eq_div_pow]
  omega

/-- An earlier time makes smaller bytes. -/
theorem uuidBytes_lt {ts ts' : Nat} (h : ts < ts') (hts' : ts' < 2 ^ 48) (r₁ r₂ r₃ s₁ s₂ s₃ : UInt32) :
    uuidBytes ts r₁ r₂ r₃ < uuidBytes ts' s₁ s₂ s₃ := by
  rw [← List.take_append_drop 6 (uuidBytes ts r₁ r₂ r₃), ← List.take_append_drop 6 (uuidBytes ts' s₁ s₂ s₃)]
  have hlen : ((uuidBytes ts r₁ r₂ r₃).take 6).length = ((uuidBytes ts' s₁ s₂ s₃).take 6).length := rfl
  refine BigEndian.append_lt_append hlen ?_ _ _
  rw [value_timestamp _ _ _ (Nat.lt_trans h hts'), value_timestamp _ _ _ hts']
  exact h

/-! ## The printed form -/

theorem hexLower_lt : ∀ n < 16, ∀ m < n, hexLower m < hexLower n := by decide

/-- **Printing keeps the order** of byte strings of one length. -/
theorem printBytes_lt {bs cs : List UInt8} (hlen : bs.length = cs.length) (hlt : bs < cs) :
    printBytes bs < printBytes cs := by
  induction bs generalizing cs with
  | nil =>
      rw [List.eq_nil_of_length_eq_zero hlen.symm] at hlt
      exact absurd hlt (List.lt_irrefl _)
  | cons b bs ih =>
      cases cs with
      | nil => cases hlen
      | cons c cs =>
          have htail : bs.length = cs.length := Nat.succ.inj hlen
          have hb := b.toNat_lt
          have hc := c.toNat_lt
          rw [printBytes, printBytes, List.cons_lt_cons_iff, List.cons_lt_cons_iff]
          rcases List.cons_lt_cons_iff.mp hlt with hbc | ⟨rfl, hrest⟩
          · have hbc : b.toNat < c.toNat := hbc
            by_cases hhi : b.toNat / 16 < c.toNat / 16
            · exact .inl (hexLower_lt _ (by omega) _ hhi)
            · -- the same first digit, a smaller second one
              have hdiv : b.toNat / 16 = c.toNat / 16 := by omega
              exact .inr ⟨by rw [hdiv], .inl (hexLower_lt _ (by omega) _ (by omega))⟩
          · refine .inr ⟨rfl, .inr ⟨rfl, ?_⟩⟩
            rw [htail]
            exact List.append_left_lt (ih htail hrest)

theorem Uuid.toString_lt {u v : Uuid} (h : u.bytes < v.bytes) : u.toString < v.toString := by
  rw [String.lt_iff, Uuid.toString, Uuid.toString, String.toList_ofList, String.toList_ofList]
  exact printBytes_lt (u.size.trans v.size.symm) h

theorem Uuid.toString_inj {u v : Uuid} : u.toString = v.toString ↔ u.bytes = v.bytes := by
  constructor
  · intro h
    have hread := Uuid.ofString?_toString u
    rw [h, Uuid.ofString?_toString] at hread
    rw [Option.some.inj hread]
  · intro h
    rw [Uuid.toString, Uuid.toString, h]

/-! ## What the bytes carry -/

theorem timestamp_bytes_iff {ts ts' : Nat} (h : ts < 2 ^ 48) (h' : ts' < 2 ^ 48) :
    (UInt8.ofNat (ts >>> 40) = .ofNat (ts' >>> 40) ∧ UInt8.ofNat (ts >>> 32) = .ofNat (ts' >>> 32) ∧
      UInt8.ofNat (ts >>> 24) = .ofNat (ts' >>> 24) ∧ UInt8.ofNat (ts >>> 16) = .ofNat (ts' >>> 16) ∧
      UInt8.ofNat (ts >>> 8) = .ofNat (ts' >>> 8) ∧ UInt8.ofNat ts = .ofNat ts') ↔ ts = ts' := by
  simp only [← UInt8.toNat_inj, UInt8.toNat_ofNat', Nat.shiftRight_eq_div_pow]
  omega

/-- The first random word loses the bits under the version and the variant. -/
theorem rand1_bytes_iff {r s : UInt32} :
    (((r >>> 24).toUInt8 &&& 0x0F ||| 0x70 : UInt8) = (s >>> 24).toUInt8 &&& 0x0F ||| 0x70 ∧
      (r >>> 16).toUInt8 = (s >>> 16).toUInt8 ∧
      ((r >>> 8).toUInt8 &&& 0x3F ||| 0x80 : UInt8) = (s >>> 8).toUInt8 &&& 0x3F ||| 0x80 ∧
      r.toUInt8 = s.toUInt8) ↔ r &&& 0x0FFF3FFF = s &&& 0x0FFF3FFF := by
  have hhigh : ∀ n : Nat, n / 2 ^ 16 % 2 ^ 12 = n / 2 ^ 24 % 256 % 16 * 256 + n / 2 ^ 16 % 256 := by omega
  have hlow : ∀ n : Nat, n % 2 ^ 14 = n / 2 ^ 8 % 256 % 64 * 256 + n % 256 := by omega
  rw [← UInt32.toNat_inj, UInt32.toNat_and, UInt32.toNat_and, show (0x0FFF3FFF : UInt32).toNat = 0x0FFF3FFF from rfl,
    and_retained, and_retained, hhigh, hlow, hhigh s.toNat, hlow s.toNat]
  simp only [← UInt8.toNat_inj, toNat_version, toNat_variant, toNat_byte _ 24 (by decide), toNat_byte _ 16 (by decide),
    toNat_byte _ 8 (by decide), UInt32.toNat_toUInt8, UInt32.reduceToNat]
  omega

/-- The second random word is kept whole. -/
theorem rand2_bytes_iff {r s : UInt32} :
    ((r >>> 24).toUInt8 = (s >>> 24).toUInt8 ∧ (r >>> 16).toUInt8 = (s >>> 16).toUInt8 ∧
      (r >>> 8).toUInt8 = (s >>> 8).toUInt8 ∧ r.toUInt8 = s.toUInt8) ↔ r = s := by
  have hr := r.toNat_lt
  have hs := s.toNat_lt
  simp only [← UInt8.toNat_inj, ← UInt32.toNat_inj, toNat_byte _ 24 (by decide), toNat_byte _ 16 (by decide),
    toNat_byte _ 8 (by decide), UInt32.toNat_toUInt8, UInt32.reduceToNat]
  omega

/-- The upper half of the third random word is kept. -/
theorem rand3_bytes_iff {r s : UInt32} :
    ((r >>> 24).toUInt8 = (s >>> 24).toUInt8 ∧ (r >>> 16).toUInt8 = (s >>> 16).toUInt8) ↔ r >>> 16 = s >>> 16 := by
  have hr := r.toNat_lt
  have hs := s.toNat_lt
  simp only [← UInt8.toNat_inj, ← UInt32.toNat_inj, toNat_byte _ 24 (by decide), toNat_byte _ 16 (by decide),
    UInt32.toNat_shiftRight, UInt32.reduceToNat, Nat.reduceMod, Nat.shiftRight_eq_div_pow]
  omega

/-- **The bytes carry** the time, and of the random words all but six bits of the first and the lower half of the
third. -/
theorem uuidBytes_eq_iff {ts ts' : Nat} (h : ts < 2 ^ 48) (h' : ts' < 2 ^ 48) {r₁ r₂ r₃ s₁ s₂ s₃ : UInt32} :
    uuidBytes ts r₁ r₂ r₃ = uuidBytes ts' s₁ s₂ s₃ ↔
      ts = ts' ∧ r₁ &&& 0x0FFF3FFF = s₁ &&& 0x0FFF3FFF ∧ r₂ = s₂ ∧ r₃ >>> 16 = s₃ >>> 16 := by
  rw [← timestamp_bytes_iff h h', ← rand1_bytes_iff, ← rand2_bytes_iff, ← rand3_bytes_iff]
  simp only [uuidBytes, List.cons.injEq, and_true, and_assoc]

/-! ## Calls of `GenerateUUID` -/

/-- A call of `GenerateUUID` that reads a time, in milliseconds, draws three words and returns a string. -/
def IdGenerator.Generates (timestamp : Nat) (rand1 rand2 rand3 : UInt32) (id : String) : Prop :=
  ∃ t : Nat, t / 10 ^ 6 = timestamp ∧ Runs generateUUID
    [⟨.now, t⟩, ⟨.rand32, rand1⟩, ⟨.rand32, rand2⟩, ⟨.rand32, rand3⟩] (.ok id)

/-- **The runs of `GenerateUUID`**: one reading of the clock, three random words. -/
theorem IdGenerator.runs_generateUUID {tr : List Ev} {out : Except String String} : Runs generateUUID tr out ↔
    ∃ (t : Nat) (r₁ r₂ r₃ : UInt32), tr = [⟨.now, t⟩, ⟨.rand32, r₁⟩, ⟨.rand32, r₂⟩, ⟨.rand32, r₃⟩] ∧
      out = .ok (uuidV7 (t / 10 ^ 6) r₁ r₂ r₃).toString := by
  constructor
  · intro h
    obtain ⟨t, _, rfl, r₁, _, rfl, r₂, _, rfl, r₃, _, rfl, rfl, rfl⟩ := h
    exact ⟨t, r₁, r₂, r₃, rfl, rfl⟩
  · intro h
    obtain ⟨t, r₁, r₂, r₃, rfl, rfl⟩ := h
    exact ⟨t, _, rfl, r₁, _, rfl, r₂, _, rfl, r₃, _, rfl, rfl, rfl⟩

theorem IdGenerator.generates_iff {ts : Nat} {r₁ r₂ r₃ : UInt32} {id : String} :
    Generates ts r₁ r₂ r₃ id ↔ id = (uuidV7 ts r₁ r₂ r₃).toString := by
  unfold Generates
  constructor
  · intro h
    obtain ⟨t, rfl, hrun⟩ := h
    obtain ⟨t', r₁', r₂', r₃', htr, hout⟩ := runs_generateUUID.mp hrun
    cases htr
    exact Except.ok.inj hout
  · intro h
    have ht : ts * 10 ^ 6 / 10 ^ 6 = ts := Nat.mul_div_cancel ts (by decide)
    refine ⟨ts * 10 ^ 6, ht, runs_generateUUID.mpr ⟨ts * 10 ^ 6, r₁, r₂, r₃, rfl, ?_⟩⟩
    rw [ht, h]

/-- **A time-ordered UUID without loss.** Two calls return UUIDs of version 7 whose first 48 bits are the time; the
earlier one prints smaller, and they print the same exactly when the times and the 74 random bits agree. -/
theorem IdGenerator.generateUUID_ordered_lossless {ts ts' : Nat} (hts : ts < 2 ^ 48) (hts' : ts' < 2 ^ 48)
    (r₁ r₂ r₃ s₁ s₂ s₃ : UInt32) :
    ∃ id id' : Uuid, (∀ s, Generates ts r₁ r₂ r₃ s ↔ s = id.toString) ∧
      (∀ s, Generates ts' s₁ s₂ s₃ s ↔ s = id'.toString) ∧
      id.version = 7 ∧ id.variant = 0b10 ∧ BigEndian.value (id.bytes.take 6) = ts ∧
      (ts < ts' → id.toString < id'.toString) ∧
      (id.toString = id'.toString ↔
        ts = ts' ∧ r₁ &&& 0x0FFF3FFF = s₁ &&& 0x0FFF3FFF ∧ r₂ = s₂ ∧ r₃ >>> 16 = s₃ >>> 16) := by
  refine ⟨uuidV7 ts r₁ r₂ r₃, uuidV7 ts' s₁ s₂ s₃, fun s => generates_iff, fun s => generates_iff,
    version_uuidV7 _ _ _ _, variant_uuidV7 _ _ _ _, value_timestamp _ _ _ hts, fun hlt => ?_, ?_⟩
  · exact Uuid.toString_lt (uuidBytes_lt hlt hts' _ _ _ _ _ _)
  · rw [Uuid.toString_inj]
    exact uuidBytes_eq_iff hts hts'

/-- Two calls one millisecond apart that differ in a lost bit only. -/
theorem IdGenerator.generateUUID_ordered_lossless_next :
    ∃ id id' : Uuid, (∀ s, Generates 5 0x80000000 0 0 s ↔ s = id.toString) ∧
      (∀ s, Generates 6 0 0 0 s ↔ s = id'.toString) ∧ id.version = 7 ∧ id.toString < id'.toString := by
  obtain ⟨id, id', hid, hid', hversion, -, -, hlt, -⟩ :=
    generateUUID_ordered_lossless (show 5 < 2 ^ 48 by decide) (show 6 < 2 ^ 48 by decide) 0x80000000 0 0 0 0 0
  exact ⟨id, id', hid, hid', hversion, hlt (by decide)⟩

end PhotonCommerce.Utils
