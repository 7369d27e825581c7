import PhotonCommerce.Runtime.Reference
import PhotonCommerce.Storage.UserRepository

/-!
# What `FromJson` accepts and what it keeps

* `Thrown`, `Json.atThrow`, `Json.getStringThrow`, … : the accessors of `nlohmann::json` with what they throw;
* `User.fromJsonCatch` : `FromJson` with its `try` block; `User.fromJsonCatch_eq` : no exception leaves it;
* `User.wellTyped` : the JSON types `FromJson` lets through; `User.fromJson_of_wellTyped` : the user it returns then;
* `User.Reproduces` : the required members come back as they were read;
* `UserRepository.decode_dump_eq_iff`, `User.fromJson_exact_iff` : when the two ways round keep everything.
-/

namespace PhotonCommerce.Domain

/-! ## Exceptions -/

/-- What is thrown: a `json::exception` or anything else. -/
inductive Thrown where
  | json (what : String)
  | other (what : String)

namespace Json

/-- `type_name()`. -/
def typeName : Json → String
  | .null => "null"
  | .boolean _ => "boolean"
  | .numberInteger _ => "number"
  | .numberFloat _ => "number"
  | .string _ => "string"
  | .array _ => "array"
  | .object _ => "object"

/-- What `j.at(key)` says when there is no such member. -/
def atError (j : Json) (key : String) : String :=
  match j with
  | .object _ => "[json.exception.out_of_range.403] key '" ++ key ++ "' not found"
  | j => "[json.exception.type_error.304] cannot use at() with " ++ j.typeName

/-- `j.at(key)`. -/
def atThrow (j : Json) (key : String) : Except Thrown Json :=
  match j.at? key with
  | some v => .ok v
  | none => .error (.json (j.atError key))

/-- `get<std::string>()`. -/
def getStringThrow (j : Json) : Except Thrown String :=
  match j with
  | .string s => .ok s
  | j => .error (.json ("[json.exception.type_error.302] type must be string, but is " ++ j.typeName))

/-- `get<int>()` and `get<long long>()`. -/
def getIntegralThrow (outside : Outside) (width : Nat) (j : Json) : Except Thrown Int :=
  match j.getIntegral outside width with
  | some n => .ok n
  | none => .error (.json ("[json.exception.type_error.302] type must be number, but is " ++ j.typeName))

/-- `if (j.contains(key) && !j[key].empty()) field = j[key];`. -/
def optionalStringThrow (j : Json) (key : String) : Except Thrown (Option String) :=
  match j.at? key with
  | none => .ok none
  | some v => if v.empty then .ok none else (v.getStringThrow).map some

end Json

namespace User

/-- The body of the `try` block of `FromJson`. -/
def fromJsonTry (outside : Json.Outside) (j : Json) : Except Thrown User := do
  let id ← (← j.atThrow "id").getStringThrow
  let phoneNumber ← (← j.atThrow "phone").getStringThrow
  let passwordHash ← (← j.atThrow "pwd_hash").getStringThrow
  let salt ← (← j.atThrow "salt").getStringThrow
  let status ← (← j.atThrow "status").getIntegralThrow outside 32
  let username ← j.optionalStringThrow "username"
  let email ← j.optionalStringThrow "email"
  let avatarUrl ← j.optionalStringThrow "avatar"
  let ts ← (← j.atThrow "created_at").getIntegralThrow outside 64
  return {
    id, phoneNumber, passwordHash, salt, username, email, avatarUrl
    status := .ofInt status
    createdAt := timePointOfSeconds ts
    deletedAt := none }

/-- `FromJson` with `catch (const json::exception&)`. -/
def fromJsonCatch (outside : Json.Outside) (j : Json) : Except Thrown (Option User) :=
  match fromJsonTry outside j with
  | .ok u => .ok (some u)
  | .error (.json _) => .ok none
  | .error e => .error e

end User

/-! ### Only `json::exception` is thrown -/

/-- A computation with the result of an accessor that is `none` where this one throws a `json::exception`. -/
def Agrees {α : Type} (x : Except Thrown α) (y : Option α) : Prop :=
  match y with
  | some a => x = .ok a
  | none => ∃ what, x = .error (.json what)

theorem Agrees.bind {α β : Type} {x : Except Thrown α} {y : Option α} {f : α → Except Thrown β} {g : α → Option β}
    (hxy : Agrees x y) (hfg : ∀ a, Agrees (f a) (g a)) : Agrees (x >>= f) (y >>= g) := by
  cases y with
  | none =>
      obtain ⟨what, rfl⟩ := hxy
      exact ⟨what, rfl⟩
  | some a =>
      obtain rfl : x = .ok a := hxy
      exact hfg a

namespace Json

theorem agrees_at (j : Json) (key : String) : Agrees (j.atThrow key) (j.at? key) := by
  unfold atThrow
  cases j.at? key with
  | none => exact ⟨_, rfl⟩
  | some v => exact rfl

theorem agrees_getString (j : Json) : Agrees j.getStringThrow j.getString := by
  cases j with
  | string s => exact rfl
  | _ => exact ⟨_, rfl⟩

theorem agrees_getIntegral (outside : Outside) (width : Nat) (j : Json) :
    Agrees (j.getIntegralThrow outside width) (j.getIntegral outside width) := by
  unfold getIntegralThrow
  cases j.getIntegral outside width with
  | none => exact ⟨_, rfl⟩
  | some n => exact rfl

theorem agrees_optionalString (j : Json) (key : String) :
    Agrees (j.optionalStringThrow key) (j.optionalString key) := by
  unfold optionalStringThrow optionalString
  cases j.at? key with
  | none => exact rfl
  | some v =>
      show Agrees (if v.empty then _ else _) (if v.empty then _ else _)
      split
      · exact rfl
      · cases v with
        | string s => exact rfl
        | _ => exact ⟨_, rfl⟩

end Json

namespace User

theorem agrees_fromJson (outside : Json.Outside) (j : Json) : Agrees (fromJsonTry outside j) (fromJson outside j) := by
  unfold fromJsonTry fromJson
  refine (j.agrees_at _).bind fun v => (v.agrees_getString).bind fun id => ?_
  refine (j.agrees_at _).bind fun v => (v.agrees_getString).bind fun phoneNumber => ?_
  refine (j.agrees_at _).bind fun v => (v.agrees_getString).bind fun passwordHash => ?_
  refine (j.agrees_at _).bind fun v => (v.agrees_getString).bind fun salt => ?_
  refine (j.agrees_at _).bind fun v => (v.agrees_getIntegral outside 32).bind fun status => ?_
  refine (j.agrees_optionalString _).bind fun username => (j.agrees_optionalString _).bind fun email => ?_
  refine (j.agrees_optionalString _).bind fun avatarUrl => ?_
  exact (j.agrees_at _).bind fun v => (v.agrees_getIntegral outside 64).bind fun ts => rfl

/-- **No exception leaves `FromJson`.** -/
theorem fromJsonCatch_eq (outside : Json.Outside) (j : Json) : fromJsonCatch outside j = .ok (fromJson outside j) := by
  have h := agrees_fromJson outside j
  unfold fromJsonCatch
  cases hj : fromJson outside j with
  | none =>
      rw [hj] at h
      obtain ⟨what, hwhat⟩ := h
      rw [hwhat]
  | some u =>
      rw [hj] at h
      rw [show fromJsonTry outside j = .ok u from h]

end User

/-! ## The JSON types `FromJson` lets through -/

namespace Json

def isString : Json → Bool
  | .string _ => true
  | _ => false

/-- A number or a boolean. -/
def isArithmetic : Json → Bool
  | .boolean _ => true
  | .numberInteger _ => true
  | .numberFloat _ => true
  | _ => false

theorem getString_eq_some {j : Json} {s : String} (h : j.getString = some s) : j = .string s := by
  cases j with
  | string t => rw [Option.some.inj h]
  | _ => cases h

theorem isSome_getString (j : Json) : j.getString.isSome = j.isString := by
  cases j <;> rfl

theorem isSome_getIntegral (outside : Outside) (width : Nat) (j : Json) :
    (j.getIntegral outside width).isSome = j.isArithmetic := by
  cases j with
  | numberFloat q =>
      simp only [getIntegral, convert, isArithmetic]
      split_ifs <;> rfl
  | _ => rfl

/-- An optional member is a string, or counts as absent. -/
def optionalWellTyped (j : Json) (key : String) : Bool := (j.at? key).all fun v => v.empty || v.isString

theorem isSome_optionalString (j : Json) (key : String) :
    (j.optionalString key).isSome = j.optionalWellTyped key := by
  unfold optionalString optionalWellTyped
  cases j.at? key with
  | none => rfl
  | some v =>
      show (if v.empty then some none else v.getString.map some).isSome = (v.empty || v.isString)
      split
      · next hempty =>
          rw [hempty]
          rfl
      · next hempty => rw [Option.isSome_map, isSome_getString, eq_false_of_ne_true hempty, Bool.false_or]

end Json

namespace User

/-- Every member has a type `FromJson` accepts. -/
def wellTyped (j : Json) : Bool :=
  (j.at? "id").any Json.isString && (j.at? "phone").any Json.isString && (j.at? "pwd_hash").any Json.isString &&
    (j.at? "salt").any Json.isString && (j.at? "status").any Json.isArithmetic &&
    j.optionalWellTyped "username" && j.optionalWellTyped "email" && j.optionalWellTyped "avatar" &&
    (j.at? "created_at").any Json.isArithmetic

/-- The required members of a user that was read. -/
structure ReadFrom (outside : Json.Outside) (u : User) (j : Json) : Prop where
  id : j.at? "id" = some (.string u.id)
  phoneNumber : j.at? "phone" = some (.string u.phoneNumber)
  passwordHash : j.at? "pwd_hash" = some (.string u.passwordHash)
  salt : j.at? "salt" = some (.string u.salt)
  status : ∃ v n, j.at? "status" = some v ∧ v.getInt outside = some n ∧ u.status = .ofInt n
  createdAt : ∃ v ts, j.at? "created_at" = some v ∧ v.getLongLong outside = some ts ∧
    u.createdAt = timePointOfSeconds ts

/-- **What `FromJson` returns** comes from members of the accepted types. -/
theorem fromJson_some {outside : Json.Outside} {j : Json} {u : User} (h : fromJson outside j = some u) :
    wellTyped j = true ∧ u.ReadFrom outside j := by
  unfold fromJson at h
  obtain ⟨vid, id, hid, hid', h⟩ := member_eq_some h
  obtain ⟨vphone, phone, hphone, hphone', h⟩ := member_eq_some h
  obtain ⟨vhash, hash, hhash, hhash', h⟩ := member_eq_some h
  obtain ⟨vsalt, salt, hsalt, hsalt', h⟩ := member_eq_some h
  obtain ⟨vstatus, status, hstatus, hstatus', h⟩ := member_eq_some h
  obtain ⟨username, huser, h⟩ := Option.bind_eq_some_iff.mp h
  obtain ⟨email, hemail, h⟩ := Option.bind_eq_some_iff.mp h
  obtain ⟨avatar, havatar, h⟩ := Option.bind_eq_some_iff.mp h
  obtain ⟨vts, ts, hts, hts', h⟩ := member_eq_some h
  obtain rfl := Option.some.inj h
  obtain rfl := Json.getString_eq_some hid'
  obtain rfl := Json.getString_eq_some hphone'
  obtain rfl := Json.getString_eq_some hhash'
  obtain rfl := Json.getString_eq_some hsalt'
  refine ⟨?_, hid, hphone, hhash, hsalt, ⟨vstatus, status, hstatus, hstatus', rfl⟩, ⟨vts, ts, hts, hts', rfl⟩⟩
  have harith : vstatus.isArithmetic = true := by
    rw [← Json.isSome_getIntegral outside 32, show vstatus.getIntegral outside 32 = some status from hstatus',
      Option.isSome_some]
  have harith' : vts.isArithmetic = true := by
    rw [← Json.isSome_getIntegral outside 64, show vts.getIntegral outside 64 = some ts from hts', Option.isSome_some]
  simp only [wellTyped, hid, hphone, hhash, hsalt, hstatus, hts, Option.any_some, Json.isString, harith, harith',
    ← Json.isSome_optionalString, huser, hemail, havatar, Option.isSome_some, Bool.and_self]

/-- A member of an accepted type is read. -/
theorem exists_member {α : Type} {j : Json} {key : String} {get : Json → Option α} {accepts : Json → Bool}
    (hget : ∀ v, (get v).isSome = accepts v) (h : (j.at? key).any accepts = true) :
    ∃ v a, j.at? key = some v ∧ get v = some a := by
  cases hv : j.at? key with
  | none =>
      rw [hv] at h
      cases h
  | some v =>
      rw [hv, Option.any_some, ← hget] at h
      obtain ⟨a, ha⟩ := Option.isSome_iff_exists.mp h
      exact ⟨v, a, rfl, ha⟩

/-- **Members of the accepted types are read.** -/
theorem exists_fromJson (outside : Json.Outside) {j : Json} (h : wellTyped j = true) :
    ∃ u, fromJson outside j = some u := by
  simp only [wellTyped, Bool.and_eq_true, ← Json.isSome_optionalString, Option.isSome_iff_exists] at h
  obtain ⟨⟨⟨⟨⟨⟨⟨⟨hid, hphone⟩, hhash⟩, hsalt⟩, hstatus⟩, username, huser⟩, email, hemail⟩, avatar, havatar⟩, hts⟩ := h
  obtain ⟨vid, id, hid, hid'⟩ := exists_member Json.isSome_getString hid
  obtain ⟨vphone, phone, hphone, hphone'⟩ := exists_member Json.isSome_getString hphone
  obtain ⟨vhash, hash, hhash, hhash'⟩ := exists_member Json.isSome_getString hhash
  obtain ⟨vsalt, salt, hsalt, hsalt'⟩ := exists_member Json.isSome_getString hsalt
  obtain ⟨vstatus, status, hstatus, hstatus'⟩ := exists_member (Json.isSome_getIntegral outside 32) hstatus
  obtain ⟨vts, ts, hts, hts'⟩ := exists_member (Json.isSome_getIntegral outside 64) hts
  refine ⟨⟨id, phone, hash, salt, username, email, avatar, .ofInt status, timePointOfSeconds ts, none⟩, ?_⟩
  simp only [fromJson, Json.getInt, Json.getLongLong, hid, hid', hphone, hphone', hhash, hhash', hsalt, hsalt',
    hstatus, hstatus', huser, hemail, havatar, hts, hts', Option.bind_eq_bind, Option.bind_some, Option.pure_def]

/-! ## Reading and writing again -/

/-- Encoding the user again gives the required members as they stand in `j`. -/
def Reproduces (u : User) (j : Json) : Prop :=
  ∀ key ∈ ["id", "phone", "pwd_hash", "salt", "status", "created_at"], u.toJson.at? key = j.at? key

/-- The seconds of `created_at` fit a time point. -/
def ConversionFits (outside : Json.Outside) (j : Json) : Prop :=
  ∀ v ts, j.at? "created_at" = some v → v.getLongLong outside = some ts → -2 ^ 63 ≤ ts * 10 ^ 9 ∧ ts * 10 ^ 9 < 2 ^ 63

/-- The status and the time are integers that `ToJson` can write: 16 bits, and seconds whose nanoseconds are 64 bits. -/
def Representable (j : Json) : Prop :=
  ∃ status ts : Int, j.at? "status" = some (.numberInteger status) ∧ j.at? "created_at" = some (.numberInteger ts) ∧
    -2 ^ 15 ≤ status ∧ status < 2 ^ 15 ∧ -2 ^ 63 ≤ ts * 10 ^ 9 ∧ ts * 10 ^ 9 < 2 ^ 63

theorem toInt_ofInt_getInt {outside : Json.Outside} {status n : Int} (hlo : -2 ^ 15 ≤ status) (hhi : status < 2 ^ 15)
    (h : (Json.numberInteger status).getInt outside = some n) : (Int16.ofInt n).toInt = status := by
  obtain rfl : status.bmod (2 ^ 32) = n := Option.some.inj h
  rw [Int.bmod_eq_of_le (by omega) (by omega)]
  exact Int16.toInt_ofInt_of_le (by omega) (by omega)

theorem seconds_getLongLong {outside : Json.Outside} {seconds ts : Int} (hlo : -2 ^ 63 ≤ seconds * 10 ^ 9)
    (hhi : seconds * 10 ^ 9 < 2 ^ 63) (h : (Json.numberInteger seconds).getLongLong outside = some ts) :
    ts = seconds ∧ secondsOfTimePoint (timePointOfSeconds ts) = seconds := by
  obtain rfl : seconds.bmod (2 ^ 64) = ts := Option.some.inj h
  rw [Int.bmod_eq_of_le (by omega) (by omega)]
  refine ⟨rfl, ?_⟩
  rw [timePointOfSeconds, Int.bmod_eq_of_le (by omega) (by omega)]
  exact Int.mul_tdiv_cancel _ (by omega)

/-- What was read from a representable entry is written back as it was. -/
theorem reproduces_of_representable {outside : Json.Outside} {j : Json} {u : User} (hread : u.ReadFrom outside j)
    (h : Representable j) : u.Reproduces j ∧ ConversionFits outside j := by
  obtain ⟨status, seconds, hstatus, hseconds, hslo, hshi, hlo, hhi⟩ := h
  obtain ⟨v, n, hv, hn, hu⟩ := hread.status
  obtain rfl := Option.some.inj (hstatus.symm.trans hv)
  obtain ⟨v', ts, hv', hts, hu'⟩ := hread.createdAt
  obtain rfl := Option.some.inj (hseconds.symm.trans hv')
  obtain ⟨rfl, hback⟩ := seconds_getLongLong hlo hhi hts
  constructor
  · intro key hkey
    simp only [List.mem_cons, List.not_mem_nil, or_false] at hkey
    rcases hkey with rfl | rfl | rfl | rfl | rfl | rfl
    · exact hread.id.symm
    · exact hread.phoneNumber.symm
    · exact hread.passwordHash.symm
    · exact hread.salt.symm
    · rw [hstatus, ← toInt_ofInt_getInt hslo hshi hn, ← hu]
      rfl
    · rw [hseconds, ← hback, ← hu']
      rfl
  · intro v ts' hv hts'
    rw [hseconds] at hv
    obtain rfl := Option.some.inj hv
    obtain ⟨rfl, -⟩ := seconds_getLongLong hlo hhi hts'
    exact ⟨hlo, hhi⟩

/-- What is written back as it was is representable. -/
theorem representable_of_reproduces {outside : Json.Outside} {j : Json} {u : User} (hread : u.ReadFrom outside j)
    (h : u.Reproduces j) : Representable j := by
  obtain ⟨-, ts, -, -, hcreated⟩ := hread.createdAt
  have hlo := Int16.le_toInt u.status
  have hhi := Int16.toInt_lt u.status
  have hrange := timePointOfSeconds_bounds ts
  rw [← hcreated] at hrange
  obtain ⟨hmin, hmax⟩ := secondsOfTimePoint_bounds u.createdAt
  exact ⟨u.status.toInt, secondsOfTimePoint u.createdAt, (h "status" (by simp)).symm, (h "created_at" (by simp)).symm,
    hlo, hhi, by omega, by omega⟩

/-- **`FromJson` and `ToJson`.** `FromJson` throws nothing; what it returns is written back as it was read, with no
overflow, exactly when an entry of the accepted types has a 16-bit integer status and an integer time in range, whatever
the undefined conversions give. -/
theorem fromJson_exact_iff (outside : Json.Outside) (j : Json) :
    (∃ r, fromJsonCatch outside j = .ok r ∧ ∀ u, r = some u → u.Reproduces j ∧ ConversionFits outside j) ↔
      (wellTyped j = true → Representable j) := by
  rw [fromJsonCatch_eq]
  constructor
  · intro h htyped
    obtain ⟨r, hr, hrep⟩ := h
    obtain ⟨u, hu⟩ := exists_fromJson outside htyped
    rw [hu] at hr
    exact representable_of_reproduces (fromJson_some hu).2 (hrep u (Except.ok.inj hr).symm).1
  · intro h
    refine ⟨_, rfl, fun u hu => ?_⟩
    obtain ⟨htyped, hread⟩ := fromJson_some hu
    exact reproduces_of_representable hread (h htyped)

/-- An entry whose status is not a 16-bit number. -/
def overflowingStatus : Json :=
  .object [("created_at", .numberInteger 1764151200), ("id", .string "019abf9b-0900-7000-8000-000000000000"),
    ("phone", .string "13800000000"), ("pwd_hash", .string "hash"), ("salt", .string "salt"),
    ("status", .numberInteger 65536)]

/-- It is read as a normal user, and written back with another status. -/
theorem fromJson_overflowingStatus : ∃ u, (∀ outside, fromJsonCatch outside overflowingStatus = .ok (some u)) ∧
    u.status = .normal ∧ ¬ u.Reproduces overflowingStatus := by
  refine ⟨⟨"019abf9b-0900-7000-8000-000000000000", "13800000000", "hash", "salt", none, none, none, 0,
    timePointOfSeconds 1764151200, none⟩, fun outside => ?_, rfl, fun h => ?_⟩
  · rw [fromJsonCatch_eq]
    rfl
  · have hstatus := h "status" (by simp)
    simp [toJson, overflowingStatus, Json.at?, List.lookup] at hstatus

end User

end PhotonCommerce.Domain

namespace PhotonCommerce.Infrastructure
open Domain

/-! ## Writing and reading again -/

namespace UserRepository

theorem timePointOfSeconds_secondsOfTimePoint {tp : Int} (hlo : -2 ^ 63 ≤ tp) (hhi : tp < 2 ^ 63)
    (hwhole : 10 ^ 9 ∣ tp) : timePointOfSeconds (secondsOfTimePoint tp) = tp := by
  rw [timePointOfSeconds, secondsOfTimePoint, Int.tdiv_mul_cancel hwhole]
  exact Int.bmod_eq_of_le (by omega) (by omega)

theorem some_getD_eq_iff {o : Option String} : some (o.getD "") = o ↔ o.isSome = true := by
  cases o <;> simp

/-- **The round trip of a user** with whole seconds and no deletion time keeps every field exactly when its three
optional fields are there: an absent one is written as the empty string, and a JSON string is never `empty()`. -/
theorem decode_dump_eq_iff (L : Libs) (u : User) (hlo : -2 ^ 63 ≤ u.createdAt) (hhi : u.createdAt < 2 ^ 63)
    (hwhole : 10 ^ 9 ∣ u.createdAt) (hdeleted : u.deletedAt = none) :
    decode L (L.dump u.toJson) = some u ↔
      u.username.isSome = true ∧ u.email.isSome = true ∧ u.avatarUrl.isSome = true := by
  have hcached : decode L (L.dump u.toJson) = some u.cached := by
    rw [decode, L.parse_dump, Option.bind_some, User.fromJson_toJson L.outside u hlo hhi]
  rw [hcached, Option.some.injEq, ← some_getD_eq_iff, ← some_getD_eq_iff, ← some_getD_eq_iff]
  unfold User.cached
  rw [timePointOfSeconds_secondsOfTimePoint hlo hhi hwhole, ← hdeleted]
  obtain ⟨id, phone, hash, salt, username, email, avatarUrl, status, createdAt, deletedAt⟩ := u
  simp only [User.mk.injEq, true_and, and_true]

/-- A user with all three comes back as it was. -/
theorem decode_dump_full : ∃ u : User, u.username = some "alice" ∧ u.email = some "alice@photon.shop" ∧
    decode (Libs.reference Texts.alice) ((Libs.reference Texts.alice).dump u.toJson) = some u :=
  ⟨User.alice.updateProfile none (some "alice@photon.shop") (some "alice.png"), rfl, rfl,
    (decode_dump_eq_iff (Libs.reference Texts.alice)
      (User.alice.updateProfile none (some "alice@photon.shop") (some "alice.png"))
      (by decide) (by decide) (by decide) rfl).mpr ⟨rfl, rfl, rfl⟩⟩

/-- A user as `Create` makes it does not. -/
theorem decode_dump_created : ∃ u : User, u = User.create "019abf9b-0900-7000-8000-000000000000" "13800000000" "hash"
      "salt" ∧ u.username = none ∧ u.email = none ∧ u.avatarUrl = none ∧ u.createdAt = 0 ∧ u.deletedAt = none ∧
    ∀ L : Libs, decode L (L.dump u.toJson) ≠ some u := by
  refine ⟨_, rfl, rfl, rfl, rfl, rfl, rfl, fun L h => ?_⟩
  rw [decode, L.parse_dump, Option.bind_some, User.fromJson_toJson L.outside _ (by decide) (by decide)] at h
  exact absurd (congrArg User.username (Option.some.inj h)) (by decide)

end UserRepository

end PhotonCommerce.Infrastructure
