import Mathlib

/-!
# Integers in texts

* `Bytes`, `ascii` : texts by their bytes; `portText` : an integer as `fmt::format` prints it;
* `readInt` : what `as<int>` makes of the text of a scalar: it is read by a `std::stringstream` with neither `std::dec`
  nor `std::skipws`, and a text that is more than one number, or a number that `int` does not hold, is not accepted;
* `readInt_portText` : what was printed is read back, for every `int`.
-/

namespace PhotonCommerce.Config

/-- A `std::string` by its bytes. -/
abbrev Bytes := List UInt8

/-- The bytes of an ASCII text. -/
def ascii (s : String) : Bytes := s.toList.map fun c => UInt8.ofNat c.toNat

/-- `fmt::format("{}", port)`. -/
def portText (port : Int) : Bytes := ascii (toString port)

/-- The values of an `int`. -/
def FitsInt (n : Int) : Prop := -2 ^ 31 ≤ n ∧ n < 2 ^ 31

instance (n : Int) : Decidable (FitsInt n) := inferInstanceAs (Decidable (_ ∧ _))

/-! ## Reading -/

/-- `std::isspace` in the classic locale. -/
def isBlank (b : UInt8) : Bool := b.toNat = 32 || (9 ≤ b.toNat && b.toNat ≤ 13)

/-- The value of a hexadecimal digit in either case, 16 for other characters. -/
def digitVal (b : UInt8) : Nat :=
  if 48 ≤ b.toNat ∧ b.toNat ≤ 57 then b.toNat - 48
  else if 97 ≤ b.toNat ∧ b.toNat ≤ 102 then b.toNat - 87
  else if 65 ≤ b.toNat ∧ b.toNat ≤ 70 then b.toNat - 55
  else 16

/-- The sign in front of a number, and what follows it. -/
def signOf : Bytes → Bool × Bytes
  | [] => (false, [])
  | b :: src => if b = 45 then (true, src) else if b = 43 then (false, src) else (false, b :: src)

/-- The base of a number, and where its digits begin: `0x` begins a hexadecimal number, any other `0` an octal one. -/
def baseOf (src : Bytes) : Nat × Bytes :=
  if src.head? = some 48 then
    if src[1]? = some 120 ∨ src[1]? = some 88 then (16, src.drop 2) else (8, src)
  else (10, src)

/-- The value of the digits of a number. -/
def numberValue (base : Nat) (digits : Bytes) : Nat := digits.foldl (fun n b => base * n + digitVal b) 0

/-- `YAML::convert<int>::decode`: `stream >> std::noskipws >> n`, then `(stream >> std::ws).eof()`. -/
def readInt (text : Bytes) : Option Int :=
  let (negative, src) := signOf text
  let (base, src) := baseOf src
  let digits := src.takeWhile fun b => digitVal b < base
  let rest := src.dropWhile fun b => digitVal b < base
  let value : Int := numberValue base digits
  let n := if negative then -value else value
  if digits ≠ [] ∧ rest.all isBlank ∧ FitsInt n then some n else none

theorem fitsInt_of_readInt {text : Bytes} {n : Int} (h : readInt text = some n) : FitsInt n := by
  rcases hsign : signOf text with ⟨negative, src⟩
  rcases hbase : baseOf src with ⟨base, digits⟩
  simp only [readInt, hsign, hbase, Option.ite_none_right_eq_some, Option.some.injEq] at h
  obtain ⟨⟨-, -, hfits⟩, rfl⟩ := h
  exact hfits

/-! ## What was printed -/

/-- A natural number as it is printed. -/
def natText (m : Nat) : Bytes := (Nat.toDigits 10 m).map fun c => UInt8.ofNat c.toNat

theorem portText_eq (n : Int) : portText n = if 0 ≤ n then natText n.toNat else 45 :: natText (-n).toNat := by
  unfold portText ascii natText
  rw [Int.toString_eq_repr, Int.repr_eq_if]
  split_ifs
  · rw [Nat.toList_repr]
  · rw [String.toList_append, Nat.toList_repr]
    rfl

theorem toNat_of_isDigit {c : Char} (h : c.isDigit = true) :
    (UInt8.ofNat c.toNat).toNat = c.toNat ∧ 48 ≤ c.toNat ∧ c.toNat ≤ 57 := by
  simp only [Char.isDigit, Bool.and_eq_true, decide_eq_true_eq, ge_iff_le] at h
  have hlo : 48 ≤ c.toNat := UInt32.le_iff_toNat_le.mp h.1
  have hhi : c.toNat ≤ 57 := UInt32.le_iff_toNat_le.mp h.2
  exact ⟨UInt8.toNat_ofNat_of_lt (Nat.lt_of_le_of_lt hhi (by decide)), hlo, hhi⟩

/-- A printed digit. -/
theorem digitVal_of_isDigit {c : Char} (h : c.isDigit = true) :
    digitVal (UInt8.ofNat c.toNat) = c.toNat - 48 ∧ c.toNat - 48 < 10 := by
  obtain ⟨hbyte, hrange⟩ := toNat_of_isDigit h
  refine ⟨?_, by omega⟩
  rw [digitVal, hbyte, if_pos hrange]

theorem digitVal_of_mem {m : Nat} {b : UInt8} (h : b ∈ natText m) : digitVal b < 10 := by
  obtain ⟨c, hc, rfl⟩ := List.mem_map.mp h
  obtain ⟨hval, hlt⟩ := digitVal_of_isDigit (Nat.isDigit_of_mem_toDigits (by decide) (by decide) hc)
  rwa [hval]

theorem numberValue_natText (m : Nat) : numberValue 10 (natText m) = m := by
  have hfold : ∀ (cs : List Char) (init : Nat), (∀ c ∈ cs, c.isDigit = true) →
      (cs.map fun c => UInt8.ofNat c.toNat).foldl (fun n b => 10 * n + digitVal b) init =
        Nat.ofDigitChars 10 cs init := by
    intro cs
    induction cs with
    | nil => exact fun _ _ => Nat.ofDigitChars_nil.symm
    | cons c cs ih =>
        intro init hcs
        rw [List.map_cons, List.foldl_cons, Nat.ofDigitChars_cons, (digitVal_of_isDigit (hcs c (by simp))).1]
        exact ih _ fun c' hc' => hcs c' (by simp [hc'])
  rw [numberValue, natText, hfold _ _ fun c hc => Nat.isDigit_of_mem_toDigits (by decide) (by decide) hc]
  exact Nat.ofDigitChars_ten_toDigits

/-- A positive number does not begin with `0`. -/
theorem head?_natText {m : Nat} (h : 0 < m) : (natText m).head? ≠ some 48 := by
  induction m using Nat.strong_induction_on with
  | _ m ih =>
      unfold natText
      rw [Nat.toDigits_eq_if (by decide)]
      split_ifs with hm
      · interval_cases m <;> decide
      · have hne : (Nat.toDigits 10 (m / 10)).map (fun c => UInt8.ofNat c.toNat) ≠ [] := by simp
        rw [List.map_append, List.head?_append_of_ne_nil _ hne]
        exact ih (m / 10) (by omega) (by omega)

theorem signOf_natText (m : Nat) : signOf (natText m) = (false, natText m) := by
  cases htext : natText m with
  | nil => rfl
  | cons b src =>
      have hb : digitVal b < 10 := digitVal_of_mem (m := m) (by rw [htext]; exact List.mem_cons_self)
      have hminus : b ≠ 45 := by
        rintro rfl
        exact absurd hb (by decide)
      have hplus : b ≠ 43 := by
        rintro rfl
        exact absurd hb (by decide)
      rw [signOf, if_neg hminus, if_neg hplus]

theorem baseOf_natText {m : Nat} (h : 0 < m) : baseOf (natText m) = (10, natText m) := if_neg (head?_natText h)

/-- A number is read back with its sign. -/
theorem readInt_of_natText {m : Nat} {text : Bytes} {negative : Bool} (hsign : signOf text = (negative, natText m))
    (hfits : FitsInt (if negative then -(m : Int) else m)) :
    readInt text = some (if negative then -(m : Int) else m) := by
  rcases Nat.eq_zero_or_pos m with rfl | hm
  · simp only [readInt, hsign]
    cases negative <;> decide
  · have hall : ∀ b ∈ natText m, decide (digitVal b < 10) = true := fun b hb => decide_eq_true (digitVal_of_mem hb)
    have hne : natText m ≠ [] := by simp [natText]
    simp only [readInt, hsign, baseOf_natText hm, List.takeWhile_eq_self_iff.mpr hall,
      List.dropWhile_eq_nil_iff.mpr hall, numberValue_natText, List.all_nil]
    exact if_pos ⟨hne, trivial, hfits⟩

/-- **What was printed is read back.** -/
theorem readInt_portText {n : Int} (h : FitsInt n) : readInt (portText n) = some n := by
  rw [portText_eq]
  split_ifs with hn
  · have hcast : ((n.toNat : Nat) : Int) = n := Int.toNat_of_nonneg hn
    have hread := readInt_of_natText (m := n.toNat) (signOf_natText n.toNat) (by rw [hcast]; exact h)
    rw [hread, hcast]
    rfl
  · have hcast : -(((-n).toNat : Nat) : Int) = n := by rw [Int.toNat_of_nonneg (by omega), Int.neg_neg]
    have hread := @readInt_of_natText (-n).toNat (45 :: natText (-n).toNat) true rfl
      (by rw [hcast]; exact h)
    rw [hread, hcast]
    rfl

/-- Signs, bases and blanks. -/
example : readInt (ascii "-0x1F ") = some (-31) ∧ readInt (ascii "010") = some 8 ∧ readInt (ascii "08") = none ∧
    readInt (ascii " 8") = none ∧ readInt (ascii "2147483648") = none := by decide

end PhotonCommerce.Config
