import Mathlib

/-!
# `User` and its JSON form

* `Json` : the values of `nlohmann::json`, with the accessors `FromJson` uses; an accessor that throws a
  `json::exception` is `none`;
* `Json.convert` : what a conversion to an integer type comes to; where the language leaves it undefined, `getIntegral`
  gives an arbitrary result (`Json.Outside`), over which everything is stated;
* `User`, `User.create`, `User.updateProfile`; `User.Sound` : what holds of every user the code builds;
* `User.toJson`, `User.fromJson` : the codec of the user cache;
* `User.view` : the fields of a user with an absent username, email or avatar read as the empty string and
  `created_at` in whole seconds; `User.fromJson_toJson` : the codec keeps it.

A time point counts nanoseconds in 64 bits.
-/

namespace PhotonCommerce.Domain

/-! ## JSON values -/

/-- `nlohmann::json`: the members of an object in key order, as `std::map` keeps them. -/
inductive Json where
  | null
  | boolean (value : Bool)
  | numberInteger (value : Int)
  | numberFloat (value : Rat)
  | string (value : String)
  | array (elements : List Json)
  | object (members : List (String × Json))

namespace Json

/-- `j.at(key)`. -/
def at? (j : Json) (key : String) : Option Json :=
  match j with
  | .object members => members.lookup key
  | _ => none

/-- `get<std::string>()`. -/
def getString : Json → Option String
  | .string s => some s
  | _ => none

/-- What `get<T>()` of an integer type comes to. -/
inductive Conversion where
  | value (n : Int)
  | throws
  | undefined
  deriving DecidableEq, Repr

/-- The arithmetic conversion of a number or a boolean to an integer type of `2 ^ width` values. An integer wraps; a
float is cut to its whole part, and the conversion is undefined when the type does not hold that. -/
def convert (width : Nat) : Json → Conversion
  | .numberInteger n => .value (n.bmod (2 ^ width))
  | .numberFloat q =>
      let n := q.num.tdiv q.den
      if -2 ^ (width - 1) ≤ n ∧ n < 2 ^ (width - 1) then .value n else .undefined
  | .boolean b => .value (if b then 1 else 0)
  | _ => .throws

/-- What an undefined conversion gives, by the width of the type and the value: anything. -/
abbrev Outside := Nat → Json → Int

/-- The result of a conversion, wherever it is undefined what `outside` says. -/
def getIntegral (outside : Outside) (width : Nat) (j : Json) : Option Int :=
  match j.convert width with
  | .value n => some n
  | .undefined => some (outside width j)
  | .throws => none

/-- `get<int>()`. -/
def getInt (outside : Outside) : Json → Option Int := getIntegral outside 32

/-- `get<long long>()`. -/
def getLongLong (outside : Outside) : Json → Option Int := getIntegral outside 64

/-- `empty()`: null, and arrays and objects without elements. -/
def empty : Json → Bool
  | .null => true
  | .array elements => elements.isEmpty
  | .object members => members.isEmpty
  | _ => false

/-- `if (j.contains(key) && !j[key].empty()) field = j[key];` for an optional string field. -/
def optionalString (j : Json) (key : String) : Option (Option String) :=
  match j.at? key with
  | none => some none
  | some v => if v.empty then some none else v.getString.map some

end Json

/-! ## Time points -/

/-- `system_clock::time_point(seconds(s))`. -/
def timePointOfSeconds (s : Int) : Int := (s * 10 ^ 9).bmod (2 ^ 64)

/-- `duration_cast<seconds>(tp.time_since_epoch()).count()`. -/
def secondsOfTimePoint (tp : Int) : Int := tp.tdiv (10 ^ 9)

/-- A count of seconds is between zero and its time point. -/
theorem secondsOfTimePoint_bounds (tp : Int) :
    min 0 tp ≤ secondsOfTimePoint tp * 10 ^ 9 ∧ secondsOfTimePoint tp * 10 ^ 9 ≤ max 0 tp := by
  unfold secondsOfTimePoint
  obtain ⟨n, rfl | rfl⟩ := tp.eq_nat_or_neg
  · rw [show (10 ^ 9 : Int) = ((1000000000 : Nat) : Int) from rfl, ← Int.ofNat_tdiv]
    omega
  · rw [Int.neg_tdiv, show (10 ^ 9 : Int) = ((1000000000 : Nat) : Int) from rfl, ← Int.ofNat_tdiv]
    omega

/-- Whole seconds survive the way through a count of seconds. -/
theorem secondsOfTimePoint_timePointOfSeconds {tp : Int} (hlo : -2 ^ 63 ≤ tp) (hhi : tp < 2 ^ 63) :
    secondsOfTimePoint (timePointOfSeconds (secondsOfTimePoint tp)) = secondsOfTimePoint tp := by
  obtain ⟨hmin, hmax⟩ := secondsOfTimePoint_bounds tp
  rw [timePointOfSeconds, Int.bmod_eq_of_le (by omega) (by omega)]
  exact Int.mul_tdiv_cancel _ (by omega)

theorem timePointOfSeconds_bounds (s : Int) : -2 ^ 63 ≤ timePointOfSeconds s ∧ timePointOfSeconds s < 2 ^ 63 := by
  have hlo := Int.le_bmod (x := s * 10 ^ 9) (m := 2 ^ 64) (by omega)
  have hhi := Int.bmod_lt (x := s * 10 ^ 9) (m := 2 ^ 64) (by omega)
  unfold timePointOfSeconds
  omega

/-! ## Users -/

/-- `UserStatus`, a 16-bit enumeration: the named values are 0 (normal), 1 (frozen), 2 (inactive), 99 (deleted). -/
abbrev UserStatus := Int16

/-- `UserStatus::NORMAL`. -/
def UserStatus.normal : UserStatus := 0

/-- `UserStatus::DELETED`. -/
def UserStatus.deleted : UserStatus := 99

structure User where
  id : String
  phoneNumber : String
  passwordHash : String
  salt : String
  username : Option String
  email : Option String
  avatarUrl : Option String
  status : UserStatus
  createdAt : Int
  deletedAt : Option Int
  deriving DecidableEq, Repr

namespace User

/-- `User::Create`: `created_at` keeps its default until the database sets it. -/
def create (id phone pwdHash salt : String) : User :=
  ⟨id, phone, pwdHash, salt, none, none, none, .normal, 0, none⟩

/-- The time of creation is counted in 64 bits, and a user with an instant of deletion has the status for it. -/
structure Sound (u : User) : Prop where
  lo : -2 ^ 63 ≤ u.createdAt
  hi : u.createdAt < 2 ^ 63
  deleted : u.deletedAt.isSome = true → u.status = .deleted

theorem sound_create (id phone pwdHash salt : String) : (create id phone pwdHash salt).Sound where
  lo := show (-2 ^ 63 : Int) ≤ 0 by decide
  hi := show (0 : Int) < 2 ^ 63 by decide
  deleted := nofun

/-- `User::UpdateProfile`. -/
def updateProfile (u : User) (username email avatarUrl : Option String) : User :=
  { u with
    username := username.orElse fun _ => u.username
    email := email.orElse fun _ => u.email
    avatarUrl := avatarUrl.orElse fun _ => u.avatarUrl }

/-- `User::ToJson`. -/
def toJson (u : User) : Json :=
  .object [
    ("avatar", .string (u.avatarUrl.getD "")),
    ("created_at", .numberInteger (secondsOfTimePoint u.createdAt)),
    ("email", .string (u.email.getD "")),
    ("id", .string u.id),
    ("phone", .string u.phoneNumber),
    ("pwd_hash", .string u.passwordHash),
    ("salt", .string u.salt),
    ("status", .numberInteger u.status.toInt),
    ("username", .string (u.username.getD ""))]

/-- `User::FromJson`. -/
def fromJson (outside : Json.Outside) (j : Json) : Option User := do
  let id ← (← j.at? "id").getString
  let phoneNumber ← (← j.at? "phone").getString
  let passwordHash ← (← j.at? "pwd_hash").getString
  let salt ← (← j.at? "salt").getString
  let status ← (← j.at? "status").getInt outside
  let username ← j.optionalString "username"
  let email ← j.optionalString "email"
  let avatarUrl ← j.optionalString "avatar"
  let ts ← (← j.at? "created_at").getLongLong outside
  return {
    id, phoneNumber, passwordHash, salt, username, email, avatarUrl
    status := .ofInt status
    createdAt := timePointOfSeconds ts
    deletedAt := none }

/-- A member that is looked up and then read. -/
theorem member_eq_some {α β : Type} {j : Json} {key : String} {get : Json → Option α} {f : α → Option β} {b : β}
    (h : (j.at? key >>= fun v => get v >>= f) = some b) :
    ∃ v a, j.at? key = some v ∧ get v = some a ∧ f a = some b := by
  obtain ⟨v, hv, h⟩ := Option.bind_eq_some_iff.mp h
  obtain ⟨a, ha, h⟩ := Option.bind_eq_some_iff.mp h
  exact ⟨v, a, hv, ha, h⟩

theorem sound_of_fromJson {outside : Json.Outside} {j : Json} {u : User} (h : fromJson outside j = some u) :
    u.Sound := by
  unfold fromJson at h
  obtain ⟨-, id, -, -, h⟩ := member_eq_some h
  obtain ⟨-, phoneNumber, -, -, h⟩ := member_eq_some h
  obtain ⟨-, passwordHash, -, -, h⟩ := member_eq_some h
  obtain ⟨-, salt, -, -, h⟩ := member_eq_some h
  obtain ⟨-, status, -, -, h⟩ := member_eq_some h
  obtain ⟨username, -, h⟩ := Option.bind_eq_some_iff.mp h
  obtain ⟨email, -, h⟩ := Option.bind_eq_some_iff.mp h
  obtain ⟨avatarUrl, -, h⟩ := Option.bind_eq_some_iff.mp h
  obtain ⟨-, ts, -, -, h⟩ := member_eq_some h
  obtain rfl := Option.some.inj h
  obtain ⟨hlo, hhi⟩ := timePointOfSeconds_bounds ts
  exact ⟨hlo, hhi, nofun⟩

/-- A user as it comes back from its JSON form. -/
def cached (u : User) : User :=
  { u with
    username := some (u.username.getD "")
    email := some (u.email.getD "")
    avatarUrl := some (u.avatarUrl.getD "")
    createdAt := timePointOfSeconds (secondsOfTimePoint u.createdAt)
    deletedAt := none }

theorem secondsOfTimePoint_bmod {tp : Int} (hlo : -2 ^ 63 ≤ tp) (hhi : tp < 2 ^ 63) :
    (secondsOfTimePoint tp).bmod (2 ^ 64) = secondsOfTimePoint tp := by
  obtain ⟨hmin, hmax⟩ := secondsOfTimePoint_bounds tp
  exact Int.bmod_eq_of_le (by omega) (by omega)

/-- **The codec.** A user written by `ToJson` is read back by `FromJson`, every field as `cached` says. -/
theorem fromJson_toJson (outside : Json.Outside) (u : User) (hlo : -2 ^ 63 ≤ u.createdAt)
    (hhi : u.createdAt < 2 ^ 63) : fromJson outside u.toJson = some u.cached := by
  -- `simp` evaluates the power
  have hts : (secondsOfTimePoint u.createdAt).bmod 18446744073709551616 = secondsOfTimePoint u.createdAt :=
    secondsOfTimePoint_bmod hlo hhi
  simp [fromJson, toJson, cached, Json.at?, Json.getString, Json.getInt, Json.getLongLong, Json.getIntegral,
    Json.convert, Json.optionalString, Json.empty, List.lookup, hts]

/-- What a client can see of a user, and what a login uses of it. -/
structure View where
  id : String
  phoneNumber : String
  passwordHash : String
  salt : String
  username : String
  email : String
  avatarUrl : String
  status : UserStatus
  createdAtSeconds : Int
  deletedAt : Option Int
  deriving DecidableEq, Repr

def view (u : User) : View :=
  ⟨u.id, u.phoneNumber, u.passwordHash, u.salt, u.username.getD "", u.email.getD "", u.avatarUrl.getD "", u.status,
    secondsOfTimePoint u.createdAt, u.deletedAt⟩

theorem view_cached (u : User) (hlo : -2 ^ 63 ≤ u.createdAt) (hhi : u.createdAt < 2 ^ 63)
    (hdel : u.deletedAt = none) : u.cached.view = u.view := by
  simp only [view, cached, Option.getD_some, hdel, secondsOfTimePoint_timePointOfSeconds hlo hhi]

end User

end PhotonCommerce.Domain
