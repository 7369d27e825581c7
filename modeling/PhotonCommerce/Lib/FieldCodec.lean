import Mathlib.Data.List.Basic

/-!
# Lists of strings as one string

* `encode`, `decode` : every character of a field is marked, every field is closed; `decode_encode`;
* `amendEncode`, `amendDecode` : a codec that uses a given text for one value; `amendDecode_amendEncode`.
-/

namespace FieldCodec

def encodeChars : List (List Char) → List Char
  | [] => []
  | field :: fields => field.flatMap (fun c => ['c', c]) ++ ';' :: encodeChars fields

/-- The fields of a text, with the field that is being read. -/
def decodeChars : List Char → List Char → Option (List (List Char))
  | [], _ => some []
  | ';' :: src, field => (decodeChars src []).map (field :: ·)
  | 'c' :: c :: src, field => decodeChars src (field ++ [c])
  | _, _ => none

theorem decodeChars_field (field acc src : List Char) :
    decodeChars (field.flatMap (fun c => ['c', c]) ++ ';' :: src) acc =
      (decodeChars src []).map ((acc ++ field) :: ·) := by
  induction field generalizing acc with
  | nil => simp [decodeChars]
  | cons c field ih => simp [decodeChars, ih]

theorem decodeChars_encodeChars (fields : List (List Char)) : decodeChars (encodeChars fields) [] = some fields := by
  induction fields with
  | nil => rfl
  | cons field fields ih =>
      rw [encodeChars, decodeChars_field, ih]
      rfl

/-- The fields as one text. -/
def encode (fields : List String) : String := String.ofList (encodeChars (fields.map String.toList))

def decode (text : String) : Option (List String) := (decodeChars text.toList []).map (·.map String.ofList)

theorem decode_encode (fields : List String) : decode (encode fields) = some fields := by
  simp [decode, encode, decodeChars_encodeChars]

/-- An encoded text begins with a mark, if it is not empty. -/
theorem encode_ne {fields : List String} {c : Char} {src : List Char} (hmark : c ≠ 'c') (hclose : c ≠ ';') :
    encode fields ≠ String.ofList (c :: src) := by
  intro h
  have hlist := String.ofList_injective h
  cases fields with
  | nil => cases hlist
  | cons field fields =>
      cases hfield : field.toList with
      | nil =>
          simp only [List.map_cons, hfield, encodeChars, List.flatMap_nil, List.nil_append] at hlist
          exact hclose (List.cons.inj hlist).1.symm
      | cons a as =>
          simp only [List.map_cons, hfield, encodeChars, List.flatMap_cons, List.cons_append] at hlist
          exact hmark (List.cons.inj hlist).1.symm

section Amend
variable {α : Type} (fields : α → List String) (read : List String → Option α) (x : α) (text : String)

/-- Encode the fields of a value, with a given text for one value. -/
def amendEncode (a : α) : String := if fields a = fields x then text else encode (fields a)

/-- Decode, with the given text for that value. -/
def amendDecode (t : String) : Option α := if t = text then some x else (decode t).bind read

variable {fields read x text}

theorem amendDecode_amendEncode {a : α} (ha : read (fields a) = some a) (hx : read (fields x) = some x)
    (htext : encode (fields a) ≠ text) : amendDecode read x text (amendEncode fields x text a) = some a := by
  unfold amendEncode
  by_cases heq : fields a = fields x
  · have hax : a = x := by
      rw [heq, hx] at ha
      exact (Option.some.inj ha).symm
    rw [if_pos heq, amendDecode, if_pos rfl, hax]
  · rw [if_neg heq, amendDecode, if_neg htext, decode_encode]
    exact ha

end Amend

end FieldCodec
