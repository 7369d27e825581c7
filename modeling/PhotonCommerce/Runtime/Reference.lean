import PhotonCommerce.Lib.FieldCodec
import PhotonCommerce.Runtime.World

/-!
# Libraries with known texts, and undisturbed runs

* `Libs.reference T` : libraries that give the texts `T` records at its inputs and stay lawful everywhere else;
* `World.answer` : the answer of every operation when nothing fails, random sources giving zeros;
* `exec_answer` : it is an answer the world may give, so that calls can be run to their end;
* `Texts.alice`, `JwtConfig.photon`, `World.alice` : one registration and one login on 2025-11-26 10:00:00 UTC.
-/

namespace PhotonCommerce
open Coroutine Interleaving Domain Infrastructure ExpiringMap

/-! ## Flat JSON objects as fields -/

/-- The integer a text spells in decimal. -/
def readInt (text : String) : Int :=
  let (negative, digits) := splitSign text.toList
  let value : Int := Nat.ofDigitChars 10 digits 0
  if negative then -value else value

theorem readInt_toString (n : Int) : readInt (toString n) = n := by
  rw [Int.toString_eq_repr, Int.repr_eq_if]
  unfold readInt
  split_ifs with hn
  · have hsign : splitSign (Nat.toDigits 10 n.toNat) = (false, Nat.toDigits 10 n.toNat) := by
      have := splitSign_toDigits n.toNat
      rwa [List.dropWhile_eq_self_iff.mpr] at this
      intro hlen
      exact (isDigit_not_isSpace (Nat.isDigit_of_mem_toDigits (by decide) (by decide) (List.getElem_mem hlen))).1 ▸
        Bool.false_ne_true
    simp only [Nat.toList_repr, hsign, Nat.ofDigitChars_ten_toDigits, Bool.false_eq_true, if_false]
    exact Int.toNat_of_nonneg hn
  · have hsign : splitSign ("-" ++ (-n).toNat.repr).toList = (true, Nat.toDigits 10 (-n).toNat) := by
      rw [String.toList_append, Nat.toList_repr]
      rfl
    simp only [hsign, Nat.ofDigitChars_ten_toDigits, if_true]
    omega

/-- A member of a flat object as three fields. -/
def memberFields : String × Json → List String
  | (key, .string s) => ["s", key, s]
  | (key, .numberInteger n) => ["n", key, toString n]
  | (key, _) => ["x", key, ""]

def membersOfFields : List String → Option (List (String × Json))
  | [] => some []
  | tag :: key :: text :: fields =>
      if tag = "s" then (membersOfFields fields).map ((key, .string text) :: ·)
      else if tag = "n" then (membersOfFields fields).map ((key, .numberInteger (readInt text)) :: ·)
      else none
  | _ => none

/-- Strings and integers only. -/
def Flat (members : List (String × Json)) : Prop :=
  ∀ m ∈ members, (∃ s, m.2 = .string s) ∨ ∃ n, m.2 = .numberInteger n

theorem membersOfFields_memberFields {members : List (String × Json)} (h : Flat members) :
    membersOfFields (members.flatMap memberFields) = some members := by
  induction members with
  | nil => rfl
  | cons m members ih =>
      have ih := ih fun m' hm' => h m' (List.mem_cons_of_mem _ hm')
      obtain ⟨key, v⟩ := m
      rcases h (key, v) List.mem_cons_self with ⟨s, hs⟩ | ⟨n, hn⟩
      · obtain rfl : v = .string s := hs
        simp [memberFields, membersOfFields, ih]
      · obtain rfl : v = .numberInteger n := hn
        simp only [List.flatMap_cons, memberFields, List.cons_append, List.nil_append, membersOfFields, ih,
          readInt_toString, Option.map_some]
        rfl

def jsonFields : Json → List String
  | .object members => members.flatMap memberFields
  | _ => ["x"]

def readJson (fields : List String) : Option Json := (membersOfFields fields).map .object

theorem readJson_jsonFields {members : List (String × Json)} (h : Flat members) :
    readJson (jsonFields (.object members)) = some (.object members) := by
  simp only [readJson, jsonFields, membersOfFields_memberFields h, Option.map_some]

theorem flat_toJson (u : User) : ∃ members, u.toJson = .object members ∧ Flat members := by
  refine ⟨_, rfl, fun m hm => ?_⟩
  simp only [List.mem_cons, List.not_mem_nil, or_false] at hm
  rcases hm with rfl | rfl | rfl | rfl | rfl | rfl | rfl | rfl | rfl <;> simp

theorem flat_tokenPayload (issuer userId : String) (iat exp : Int) : Flat (tokenPayload issuer userId iat exp) := by
  intro m hm
  simp only [tokenPayload, List.mem_cons, List.not_mem_nil, or_false] at hm
  rcases hm with rfl | rfl | rfl | rfl <;> simp

/-- What `sign` is given: secret, type and payload. -/
abbrev Signed := String × String × List (String × Json)

def tokenFields (t : Signed) : List String := t.1 :: t.2.1 :: t.2.2.flatMap memberFields

def readToken : List String → Option Signed
  | secret :: type :: fields => (membersOfFields fields).map fun payload => (secret, type, payload)
  | _ => none

theorem readToken_tokenFields {t : Signed} (h : Flat t.2.2) : readToken (tokenFields t) = some t := by
  simp only [readToken, tokenFields, membersOfFields_memberFields h, Option.map_some]

/-! ## The libraries -/

/-- A text that is no encoding of fields. -/
def plain (text : String) : Bool :=
  match text.toList with
  | [] => false
  | c :: _ => c ≠ 'c' && c ≠ ';'

theorem plain_append {text : String} (h : plain text = true) (rest : String) : plain (text ++ rest) = true := by
  unfold plain at h ⊢
  rw [String.toList_append]
  cases htext : text.toList with
  | nil =>
      rw [htext] at h
      cases h
  | cons c src =>
      rw [htext] at h
      exact h

theorem encode_ne_of_plain {text : String} (h : plain text = true) (fields : List String) :
    FieldCodec.encode fields ≠ text := by
  unfold plain at h
  split at h
  · cases h
  · next c src hlist =>
      simp only [Bool.and_eq_true, decide_eq_true_eq] at h
      rw [← String.ofList_toList (s := text), hlist]
      exact FieldCodec.encode_ne h.1 h.2

/-- The digest of one message, the JSON text of one user, the token of one payload, one printed time. -/
structure Texts where
  message : String
  digest : List UInt8
  digest_length : digest.length = 32
  user : User
  userText : String
  userText_plain : plain userText = true
  secret : String
  type : String
  payload : List (String × Json)
  payload_flat : Flat payload
  token : String
  token_plain : plain token = true
  timestamp : Int
  timestampText : String

/-- Libraries with the texts of `T`. -/
def Libs.reference (T : Texts) : Libs where
  sha256 m := if m = T.message then T.digest else List.replicate 32 0
  sha256_length m := by
    split
    · exact T.digest_length
    · exact List.length_replicate
  dump := FieldCodec.amendEncode jsonFields T.user.toJson T.userText
  parse := FieldCodec.amendDecode readJson T.user.toJson T.userText
  parse_dump u := by
    obtain ⟨members, hu, hflat⟩ := flat_toJson u
    obtain ⟨members', hu', hflat'⟩ := flat_toJson T.user
    refine FieldCodec.amendDecode_amendEncode ?_ ?_ ?_
    · rw [hu, readJson_jsonFields hflat]
    · rw [hu', readJson_jsonFields hflat']
    · rw [hu]
      exact encode_ne_of_plain T.userText_plain _
  outside width _ := -2 ^ (width - 1)
  sign secret type payload := FieldCodec.amendEncode tokenFields (T.secret, T.type, T.payload) T.token (secret, type, payload)
  decode text := (FieldCodec.amendDecode readToken (T.secret, T.type, T.payload) T.token text).map fun t => t.2.2
  decode_sign secret type issuer userId iat exp := by
    have hflat := flat_tokenPayload issuer userId iat exp
    rw [FieldCodec.amendDecode_amendEncode (readToken_tokenFields hflat) (readToken_tokenFields T.payload_flat)
      (encode_ne_of_plain T.token_plain _)]
    rfl
  signatureValid secret text :=
    match FieldCodec.amendDecode readToken (T.secret, T.type, T.payload) T.token text with
    | some t => t.1 = secret
    | none => false
  asDate
    | .numberInteger n => some (timePointOfSeconds n)
    | _ => none
  asDate_integer _ := rfl
  timestamptzOut t := if t = T.timestamp then T.timestampText else ""

/-! ## Undisturbed runs -/

/-- The answer to a statement when nothing fails. -/
def World.executed (L : Libs) (w : World) (stmt : Statement) (params : List String) :
    Except String (List PGresult) × World :=
  match w.users.execute L.timestamptzOut stmt params (w.time / 1000) with
  | .ok (rows, t) => (.ok [resultOf stmt rows], { w with users := t })
  | .error state => (.ok [⟨.fatalError, [], "", some state⟩], w)

/-- The answer to each operation when nothing fails; random sources give zeros. -/
def World.answer (L : Libs) : (o : Op) → World → Ans o × World
  | .now, w => (w.time, w)
  | .uniformDigit, w => (zeroDigit, w)
  | .rand32, w => ((0 : UInt32), w)
  | .generateBlock size, w => (zeroBlock size, w)
  | .redisSet key value ex, w => (.ok (), w.set key value ex)
  | .redisGet key, w => (.ok (w.reply key), w)
  | .getConnection, w => ((0 : Nat), w)
  | .returnConnection _, w => ((), w)
  | .execParams _ stmt params, w => w.executed L stmt params
  | .coSpawn _, w => ((), w)

theorem exec_answer (L : Libs) (F : Faults) (o : Op) (w : World) :
    exec L F o w (World.answer L o w).1 (World.answer L o w).2 := by
  cases o with
  | now => exact ⟨rfl, rfl⟩
  | redisSet key value ex => exact .inl ⟨rfl, .inl rfl⟩
  | redisGet key => exact ⟨rfl, .inl rfl⟩
  | execParams conn stmt params =>
      change DbExec L F w stmt params (w.executed L stmt params).1 (w.executed L stmt params).2
      unfold World.executed
      cases h : w.users.execute L.timestamptzOut stmt params (w.time / 1000) with
      | ok result => exact DbExec.done result.1 result.2 h
      | error state => exact DbExec.refused state "" h
  | uniformDigit => rfl
  | rand32 => rfl
  | generateBlock size => rfl
  | getConnection => rfl
  | returnConnection conn => rfl
  | coSpawn userId => rfl

/-- A world with an empty Redis and an empty table. -/
def World.fresh (time : Nat) : World := ⟨time, Store.empty, ⟨[], .nil, .nil, .nil⟩⟩

/-! ## One registration and one login -/

/-- A signing configuration with tokens for one hour. -/
def JwtConfig.photon : JwtConfig := ⟨"photon-secret", "photon", 3600⟩

/-- The user registered at that time with zeros for all random bits. -/
def User.alice : User where
  id := "019abf9b-0900-7000-8000-000000000000"
  phoneNumber := "13800000000"
  passwordHash := "D36B0C0B1C947F8AA680724629BE0D7F162F5AE9B6CE9F299884EE8DFB167E70"
  salt := "00000000000000000000000000000000"
  username := some "alice"
  email := some ""
  avatarUrl := some ""
  status := 0
  createdAt := timePointOfSeconds 1764151200
  deletedAt := none

def Texts.alice : Texts where
  message := "secret00000000000000000000000000000000"
  digest := [211, 107, 12, 11, 28, 148, 127, 138, 166, 128, 114, 70, 41, 190, 13, 127, 22, 47, 90, 233, 182, 206, 159,
    41, 152, 132, 238, 141, 251, 22, 126, 112]
  digest_length := rfl
  user := User.alice
  userText := "\x7b" ++ "\"avatar\":\"\",\"created_at\":1764151200,\"email\":\"\"," ++
    "\"id\":\"019abf9b-0900-7000-8000-000000000000\",\"phone\":\"13800000000\"," ++
    "\"pwd_hash\":\"D36B0C0B1C947F8AA680724629BE0D7F162F5AE9B6CE9F299884EE8DFB167E70\"," ++
    "\"salt\":\"00000000000000000000000000000000\",\"status\":0,\"username\":\"alice\"\x7d"
  userText_plain := plain_append (plain_append (plain_append (plain_append rfl _) _) _) _
  secret := "photon-secret"
  type := "JWS"
  payload := tokenPayload "photon" "019abf9b-0900-7000-8000-000000000000" 1764151200 1764154800
  payload_flat := flat_tokenPayload _ _ _ _
  token := "e" ++ "yJhbGciOiJIUzI1NiIsInR5cCI6IkpXUyJ9." ++
    "eyJleHAiOjE3NjQxNTQ4MDAsImlhdCI6MTc2NDE1MTIwMCwiaXNzIjoicGhvdG9uIiwidXNlcl9pZCI6" ++
    "IjAxOWFiZjliLTA5MDAtNzAwMC04MDAwLTAwMDAwMDAwMDAwMCJ9." ++
    "lllT86EDcl3gj9BXru_DkIvISBCyujgnOlRN8orQwKc"
  token_plain := plain_append (plain_append (plain_append (plain_append rfl _) _) _) _
  timestamp := 1764151200000000
  timestampText := "2025-11-26 10:00:00+00"

/-- The row of that user. -/
def Row.alice : Row where
  id := ⟨[1, 154, 191, 155, 9, 0, 112, 0, 128, 0, 0, 0, 0, 0, 0, 0], rfl⟩
  phoneNumber := ⟨"13800000000", by decide, by decide⟩
  username := some ⟨"alice", by decide, by decide⟩
  email := some ⟨"", by decide, by decide⟩
  passwordHash := ⟨"D36B0C0B1C947F8AA680724629BE0D7F162F5AE9B6CE9F299884EE8DFB167E70", by decide, by decide⟩
  salt := ⟨"00000000000000000000000000000000", by decide, by decide⟩
  avatarUrl := some ⟨"", by decide, by decide⟩
  status := 0
  createdAt := 1764151200000000
  deletedAt := none

/-- A world at that time with an empty Redis, in which the user is registered. -/
def World.alice : World :=
  ⟨1764151200 * 10 ^ 9, Store.empty, ⟨[Row.alice], List.nodup_singleton _, List.nodup_singleton _, List.nodup_nil⟩⟩

end PhotonCommerce
