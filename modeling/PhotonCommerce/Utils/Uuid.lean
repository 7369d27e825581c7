import Mathlib.Data.List.Basic

/-!
# Bytes in hexadecimal and UUIDs

* `hexEncode` : `CryptoPP::HexEncoder`, two upper-case digits a byte; `hexEncode_injective`;
* `Uuid`, `Uuid.toString` : `uuids::to_string`, which is also how PostgreSQL prints a UUID;
* `Uuid.ofString?` : the spellings PostgreSQL reads; `Uuid.ofString?_toString` : the printed form is one of them.
-/

namespace PhotonCommerce.Utils

/-! ## Hexadecimal digits -/

/-- The upper-case digit of a value below 16. -/
def hexUpper (n : Nat) : Char := if n < 10 then Char.ofNat (48 + n) else Char.ofNat (55 + n)

/-- The lower-case digit of a value below 16. -/
def hexLower (n : Nat) : Char := if n < 10 then Char.ofNat (48 + n) else Char.ofNat (87 + n)

/-- The value of a digit, `none` for what `isxdigit` rejects. -/
def hexValue (c : Char) : Option Nat :=
  if '0' ≤ c ∧ c ≤ '9' then some (c.toNat - 48)
  else if 'a' ≤ c ∧ c ≤ 'f' then some (c.toNat - 87)
  else if 'A' ≤ c ∧ c ≤ 'F' then some (c.toNat - 55)
  else none

theorem hexValue_hexUpper : ∀ n < 16, hexValue (hexUpper n) = some n := by decide

theorem hexValue_hexLower : ∀ n < 16, hexValue (hexLower n) = some n := by decide

theorem hexLower_ne_hyphen : ∀ n < 16, hexLower n ≠ '-' ∧ hexLower n ≠ '\x7b' := by decide

/-- The two digits of a byte are its value. -/
theorem ofNat_nibbles (b : UInt8) : UInt8.ofNat (16 * (b.toNat / 16) + b.toNat % 16) = b := by
  rw [Nat.div_add_mod]
  exact UInt8.ofNat_toNat

/-- `CryptoPP::HexEncoder`. -/
def hexEncode (bytes : List UInt8) : String :=
  String.ofList (bytes.flatMap fun b => [hexUpper (b.toNat / 16), hexUpper (b.toNat % 16)])

theorem length_hexEncode (bytes : List UInt8) : (hexEncode bytes).length = 2 * bytes.length := by
  simp only [hexEncode, String.length_ofList]
  induction bytes with
  | nil => rfl
  | cons b bytes ih =>
      rw [List.flatMap_cons, List.length_append, ih]
      simp only [List.length_cons, List.length_nil]
      omega

theorem hexUpper_inj {m n : Nat} (hm : m < 16) (hn : n < 16) (h : hexUpper m = hexUpper n) : m = n := by
  have := hexValue_hexUpper m hm
  rw [h, hexValue_hexUpper n hn] at this
  exact (Option.some.inj this).symm

/-- Different byte strings have different encodings. -/
theorem hexEncode_injective : Function.Injective hexEncode := by
  intro bs cs h
  have hlists := String.ofList_injective h
  clear h
  induction bs generalizing cs with
  | nil =>
      cases cs with
      | nil => rfl
      | cons c cs => cases hlists
  | cons b bs ih =>
      cases cs with
      | nil => cases hlists
      | cons c cs =>
          simp only [List.flatMap_cons, List.cons_append, List.nil_append, List.cons.injEq] at hlists
          obtain ⟨hhi, hlo, htail⟩ := hlists
          have hb := b.toNat_lt
          have hc := c.toNat_lt
          have hdiv := hexUpper_inj (by omega) (by omega) hhi
          have hmod := hexUpper_inj (by omega) (by omega) hlo
          have hbc : b = c := by
            rw [← ofNat_nibbles b, ← ofNat_nibbles c, hdiv, hmod]
          rw [hbc, ih htail]

/-! ## UUIDs -/

/-- `uuids::uuid`: sixteen bytes. -/
structure Uuid where
  bytes : List UInt8
  size : bytes.length = 16
  deriving DecidableEq

/-- The digits of the last `bytes.length` of the sixteen bytes, in groups of 8-4-4-4-12. -/
def printBytes : List UInt8 → List Char
  | [] => []
  | b :: bytes =>
      hexLower (b.toNat / 16) :: hexLower (b.toNat % 16) ::
        ((if bytes.length ∈ [12, 10, 8, 6] then ['-'] else []) ++ printBytes bytes)

/-- `uuids::to_string`. -/
def Uuid.toString (u : Uuid) : String := String.ofList (printBytes u.bytes)

/-- Skip a hyphen. -/
def skipHyphen : List Char → List Char
  | '-' :: src => src
  | src => src

/-- PostgreSQL reads the last `n` of the sixteen bytes: a hyphen may follow every second byte but the last. -/
def readBytes : Nat → List Char → Option (List UInt8 × List Char)
  | 0, src => some ([], src)
  | n + 1, hi :: lo :: src => do
      let hi ← hexValue hi
      let lo ← hexValue lo
      let (bytes, rest) ← readBytes n (if n % 2 = 0 ∧ 0 < n then skipHyphen src else src)
      return (UInt8.ofNat (16 * hi + lo) :: bytes, rest)
  | _ + 1, _ => none

theorem readBytes_length {n : Nat} {src rest : List Char} {bytes : List UInt8}
    (h : readBytes n src = some (bytes, rest)) : bytes.length = n := by
  induction n generalizing src bytes with
  | zero =>
      cases h
      rfl
  | succ n ih =>
      match src, h with
      | hi :: lo :: src, h =>
          simp only [readBytes, Option.bind_eq_bind, Option.bind_eq_some_iff, Option.pure_def] at h
          obtain ⟨a, -, b, -, ⟨bs, rest'⟩, hrec, heq⟩ := h
          cases heq
          rw [List.length_cons, ih hrec]

/-- The bytes of a UUID spelt in braces or not; nothing may follow. -/
def readUuid (src : List Char) : Option (List UInt8) :=
  match src with
  | '\x7b' :: src =>
      match readBytes 16 src with
      | some (bytes, ['\x7d']) => some bytes
      | _ => none
  | src =>
      match readBytes 16 src with
      | some (bytes, []) => some bytes
      | _ => none

theorem readUuid_length {src : List Char} {bytes : List UInt8} (h : readUuid src = some bytes) : bytes.length = 16 := by
  unfold readUuid at h
  split at h
  · split at h
    · next hread =>
        cases h
        exact readBytes_length hread
    · cases h
  · split at h
    · next hread =>
        cases h
        exact readBytes_length hread
    · cases h

/-- The UUID a text spells for PostgreSQL, `none` where its input function raises an error. -/
def Uuid.ofString? (text : String) : Option Uuid :=
  match h : readUuid text.toList with
  | some bytes => some ⟨bytes, readUuid_length h⟩
  | none => none

theorem readBytes_printBytes (bytes : List UInt8) (rest : List Char) :
    readBytes bytes.length (printBytes bytes ++ rest) = some (bytes, rest) := by
  induction bytes with
  | nil => rfl
  | cons b bytes ih =>
      have hb := b.toNat_lt
      have hskip : (if bytes.length % 2 = 0 ∧ 0 < bytes.length then
          skipHyphen ((if bytes.length ∈ [12, 10, 8, 6] then ['-'] else []) ++ printBytes bytes ++ rest)
          else (if bytes.length ∈ [12, 10, 8, 6] then ['-'] else []) ++ printBytes bytes ++ rest) =
          printBytes bytes ++ rest := by
        by_cases hmem : bytes.length ∈ [12, 10, 8, 6]
        · have heven : bytes.length % 2 = 0 ∧ 0 < bytes.length := by
            simp only [List.mem_cons, List.not_mem_nil, or_false] at hmem
            omega
          rw [if_pos heven, if_pos hmem]
          rfl
        · rw [if_neg hmem, List.nil_append]
          split_ifs with heven
          · -- the next byte begins with a digit, not with a hyphen
            cases bytes with
            | nil => exact absurd heven.2 (by simp)
            | cons c bytes =>
                have hc := c.toNat_lt
                have hne := (hexLower_ne_hyphen (c.toNat / 16) (by omega)).1
                rw [printBytes, List.cons_append, skipHyphen]
                intro src heq
                exact hne (List.cons.inj heq).1
          · rfl
      simp only [printBytes, List.cons_append, List.length_cons, readBytes,
        hexValue_hexLower (b.toNat / 16) (by omega), hexValue_hexLower (b.toNat % 16) (by omega), hskip, ih,
        Option.bind_eq_bind, Option.bind_some, Option.pure_def, ofNat_nibbles]

/-- **PostgreSQL reads what `to_string` prints.** -/
theorem Uuid.ofString?_toString (u : Uuid) : Uuid.ofString? u.toString = some u := by
  have hread : readBytes 16 (printBytes u.bytes) = some (u.bytes, []) := by
    have := readBytes_printBytes u.bytes []
    rwa [u.size, List.append_nil] at this
  have huuid : readUuid u.toString.toList = some u.bytes := by
    rw [Uuid.toString, String.toList_ofList]
    obtain ⟨bytes, size⟩ := u
    cases bytes with
    | nil => cases size
    | cons b bytes =>
        have hb := b.toNat_lt
        have hne := (hexLower_ne_hyphen (b.toNat / 16) (by omega)).2
        unfold readUuid
        split
        · next heq =>
            rw [printBytes] at heq
            exact absurd (List.cons.inj heq).1 hne
        · rw [hread]
  unfold Uuid.ofString?
  split
  · next bytes hbytes =>
      rw [huuid] at hbytes
      cases hbytes
      rfl
  · next hnone =>
      rw [huuid] at hnone
      cases hnone

end PhotonCommerce.Utils
