import PhotonCommerce.Runtime.Effects

/-!
# `UserDao`

* `stoi`, `parsePostgresTimestamp` : how `MapRowToUser` reads numbers and times;
* `asyncExecParams` : a statement on a connection, its failures thrown or returned;
* `UserDao.createUser`, `getUserById`, `getUserByPhoneNumber` : each takes a connection, runs one statement and gives
  the connection back on every way out;
* `UserDao.runs_createUser`, `runs_selectUser` : the three operations a DAO call awaits and what it makes of the
  answer.
-/

namespace PhotonCommerce.Infrastructure
open Coroutine Domain

/-! ## Decoding -/

/-- `std::stoi`, with the text of the exception it throws. -/
def stoi (s : String) : Except String Int :=
  let (negative, src) := splitSign (s.toList.dropWhile isSpace)
  let digits := src.takeWhile Char.isDigit
  if digits = [] then .error "stoi"
  else
    let value : Int := Nat.ofDigitChars 10 digits 0
    let n := if negative then -value else value
    if -2 ^ 31 ≤ n ∧ n < 2 ^ 31 then .ok n else .error "stoi"

/-- Up to `n` digits of a number that `strptime` reads, as long as the value stays within reach of `hi`. -/
def readDigits (hi : Nat) : Nat → Nat → List Char → Nat × List Char
  | n + 1, value, c :: src =>
      if value * 10 ≤ hi ∧ c.isDigit then readDigits hi n (value * 10 + (c.toNat - '0'.toNat)) src
      else (value, c :: src)
  | _, value, src => (value, src)

/-- A number field of `strptime`: at least one digit, at most `n`, between `lo` and `hi`. -/
def getNumber (lo hi n : Nat) (src : List Char) : Option (Nat × List Char) :=
  match src.dropWhile isSpace with
  | [] => none
  | c :: src =>
      if c.isDigit then
        let (value, rest) := readDigits hi n 0 (c :: src)
        if lo ≤ value ∧ value ≤ hi then some (value, rest) else none
      else none

/-- A character of the format that is not a conversion. -/
def matchChar (c : Char) : List Char → Option (List Char)
  | [] => none
  | c' :: src => if c' = c then some src else none

/-- The fields of `std::tm`. -/
structure Tm where
  year : Nat
  month : Nat
  day : Nat
  hour : Nat
  minute : Nat
  second : Nat
  deriving DecidableEq, Repr

/-- `strptime(src, "%Y-%m-%d %H:%M:%S", &tm)`. -/
def strptime (src : List Char) : Option Tm := do
  let (year, src) ← getNumber 0 9999 4 src
  let (month, src) ← getNumber 1 12 2 (← matchChar '-' src)
  let (day, src) ← getNumber 1 31 2 (← matchChar '-' src)
  let (hour, src) ← getNumber 0 23 2 (src.dropWhile isSpace)
  let (minute, src) ← getNumber 0 59 2 (← matchChar ':' src)
  let (second, _) ← getNumber 0 61 2 (← matchChar ':' src)
  return ⟨year, month, day, hour, minute, second⟩

/-- Days from 1970-01-01 in the proleptic Gregorian calendar. -/
def daysFromCivil (y m d : Int) : Int :=
  let y := if m ≤ 2 then y - 1 else y
  let era := y / 400
  let yearOfEra := y % 400
  let dayOfYear := (153 * (m + if m ≤ 2 then 9 else -3) + 2) / 5 + d - 1
  let dayOfEra := yearOfEra * 365 + yearOfEra / 4 - yearOfEra / 100 + dayOfYear
  era * 146097 + dayOfEra - 719468

/-- `timegm`. -/
def timegm (tm : Tm) : Int :=
  daysFromCivil tm.year tm.month tm.day * 86400 + tm.hour * 3600 + tm.minute * 60 + tm.second

/-- `UserDao::ParsePostgresTimestamp`. -/
def parsePostgresTimestamp (timestamp : String) : Int :=
  if timestamp.isEmpty then timePointOfSeconds 0
  else
    match strptime timestamp.toList with
    | none => timePointOfSeconds 0
    | some tm => timePointOfSeconds (timegm tm)

theorem parsePostgresTimestamp_bounds (timestamp : String) :
    -2 ^ 63 ≤ parsePostgresTimestamp timestamp ∧ parsePostgresTimestamp timestamp < 2 ^ 63 := by
  unfold parsePostgresTimestamp
  split_ifs
  · exact timePointOfSeconds_bounds 0
  · split
    · exact timePointOfSeconds_bounds 0
    · exact timePointOfSeconds_bounds _

/-- `stoi` reads what `std::to_string` or the database prints. -/
theorem stoi_toString {n : Int} (hlo : -2 ^ 31 ≤ n) (hhi : n < 2 ^ 31) : stoi (toString n) = .ok n := by
  rw [Int.toString_eq_repr, Int.repr_eq_if]
  unfold stoi
  split_ifs with hn
  · simp only [Nat.toList_repr, splitSign_toDigits, takeWhile_toDigits, Nat.toDigits_ne_nil, if_false,
      Nat.ofDigitChars_ten_toDigits, Bool.false_eq_true]
    rw [Int.toNat_of_nonneg hn, if_pos ⟨hlo, hhi⟩]
  · have hsign : splitSign (("-" ++ (-n).toNat.repr).toList.dropWhile isSpace) =
        (true, Nat.toDigits 10 (-n).toNat) := by
      rw [String.toList_append, Nat.toList_repr]
      rfl
    simp only [hsign, takeWhile_toDigits, Nat.toDigits_ne_nil, if_false, Nat.ofDigitChars_ten_toDigits, if_true]
    rw [Int.toNat_of_nonneg (by omega), Int.neg_neg, if_pos ⟨hlo, hhi⟩]

/-! ## The statements -/

/-- `PQConnection::AsyncExecParams`. -/
def asyncExecParams (conn : Nat) (stmt : Statement) (params : List String) :
    Prog (Except DbError (Option PGresult)) := do
  match ← execParams conn stmt params with
  | .error what => .throw what
  | .ok results => return mapResultToExpected (fetchRawResult results)

namespace UserDao

/-- `UserDao::MapRowToUser`. -/
def mapRowToUser (res : PGresult) (row : Nat) : Except String User := do
  let optional (col : Nat) : Option String := if res.getIsNull row col then none else some (res.getValue row col)
  let status ← stoi (res.getValue row 7)
  return {
    id := res.getValue row 0
    phoneNumber := res.getValue row 1
    username := optional 2
    email := optional 3
    passwordHash := res.getValue row 4
    salt := res.getValue row 5
    avatarUrl := optional 6
    status := .ofInt status
    createdAt := parsePostgresTimestamp (res.getValue row 8)
    deletedAt := none }

/-- Whatever stands in the row. -/
theorem sound_of_mapRowToUser {res : PGresult} {row : Nat} {u : User} (h : mapRowToUser res row = .ok u) : u.Sound := by
  unfold mapRowToUser at h
  cases hstatus : stoi (res.getValue row 7) with
  | error what => simp [hstatus, bind, Except.bind] at h
  | ok status =>
      simp only [hstatus, bind, Except.bind, pure, Except.pure, Except.ok.injEq] at h
      rw [← h]
      exact ⟨(parsePostgresTimestamp_bounds _).1, (parsePostgresTimestamp_bounds _).2, nofun⟩

/-- The columns of the `INSERT`. -/
def insertColumns : List Column :=
  [.id, .phoneNumber, .username, .email, .passwordHash, .salt, .avatarUrl, .status]

/-- The parameters of the `INSERT`. -/
def insertParams (user : User) : List String :=
  [user.id, user.phoneNumber, user.username.getD "", user.email.getD "", user.passwordHash, user.salt,
    user.avatarUrl.getD "", toString user.status.toInt]

/-- `UserDao::CreateUser`. -/
def createUser (user : User) : Prog (Except DbError Unit) := do
  let conn ← getConnection
  Co.finally (do
    match ← asyncExecParams conn (.insertInto insertColumns) (insertParams user) with
    | .error e => return .error e
    | .ok _ => return .ok ()) (.returnConnection conn)

/-- The row of an inserted user, its texts as the columns take them. -/
theorem ofParams_insertParams {user : User} {uuid : Utils.Uuid} {now : Int} {r : Row}
    (h : Row.ofParams insertColumns (insertParams user) now = .ok r) (hid : user.id = uuid.toString) :
    r.id = uuid ∧ Varchar.ofParam 20 user.phoneNumber = some r.phoneNumber ∧
      (∃ v, r.username = some v ∧ Varchar.ofParam 64 (user.username.getD "") = some v) ∧
      (∃ v, r.email = some v ∧ Varchar.ofParam 128 (user.email.getD "") = some v) ∧
      Varchar.ofParam 256 user.passwordHash = some r.passwordHash ∧ Varchar.ofParam 64 user.salt = some r.salt ∧
      (∃ v, r.avatarUrl = some v ∧ Varchar.ofParam 512 (user.avatarUrl.getD "") = some v) ∧
      smallintOfParam (toString user.status.toInt) = .ok r.status ∧ r.deletedAt = none := by
  obtain ⟨huuid, hphone, husername, hemail, hhash, hsalt, havatar, hstatus, hdel⟩ := Row.ofParams_eq_ok h
  refine ⟨?_, varcharNotNull_eq_ok hphone, varcharOf_eq_ok husername, varcharOf_eq_ok hemail,
    varcharNotNull_eq_ok hhash, varcharNotNull_eq_ok hsalt, varcharOf_eq_ok havatar, hstatus, hdel⟩
  change uuidOf (some user.id) = .ok r.id at huuid
  simp only [uuidOf, hid, cStr_of_nulFree (nulFree_toString uuid), Utils.Uuid.ofString?_toString] at huuid
  exact (Except.ok.inj huuid).symm

/-- The columns of the two `SELECT`s. -/
def selectColumns : List Column :=
  [.id, .phoneNumber, .username, .email, .passwordHash, .salt, .avatarUrl, .status, .createdAt]

/-- The two lookups, which differ in the column of their `WHERE`. -/
def selectUser (key : Key) (param : String) : Prog (Except DbError (Option User)) := do
  let conn ← getConnection
  Co.finally (do
    match ← asyncExecParams conn (.selectWhere selectColumns key) [param] with
    | .error e => return .error e
    | .ok result =>
        if pqNtuples result = 0 then return .ok none
        else
          match result.map fun res => mapRowToUser res 0 with
          | some (.ok user) => return .ok (some user)
          | some (.error what) => .throw what
          | none => return .ok none) (.returnConnection conn)

/-- `UserDao::GetUserById`. -/
def getUserById (id : String) : Prog (Except DbError (Option User)) := selectUser .id id

/-- `UserDao::GetUserByPhoneNumber`. -/
def getUserByPhoneNumber (phoneNumber : String) : Prog (Except DbError (Option User)) :=
  selectUser .phoneNumber phoneNumber

/-- The user of a row. -/
def userOfRow (timestamptzOut : Int → String) (r : Row) : User where
  id := r.id.toString
  phoneNumber := r.phoneNumber.text
  passwordHash := r.passwordHash.text
  salt := r.salt.text
  username := r.username.map Varchar.text
  email := r.email.map Varchar.text
  avatarUrl := r.avatarUrl.map Varchar.text
  status := r.status
  createdAt := parsePostgresTimestamp (timestamptzOut r.createdAt)
  deletedAt := none

/-- **Decoding.** `MapRowToUser` gives back the row a `SELECT` of `selectColumns` printed. -/
theorem mapRowToUser_fields (timestamptzOut : Int → String) (r : Row) (res : PGresult)
    (hres : res.rows = [selectColumns.map (r.field timestamptzOut)]) :
    mapRowToUser res 0 = .ok (userOfRow timestamptzOut r) := by
  have hlo := Int16.le_toInt r.status
  have hhi := Int16.toInt_lt r.status
  have hstatus : stoi (toString r.status.toInt) = .ok r.status.toInt := stoi_toString (by omega) (by omega)
  have hopt : ∀ o : Option String, (if o.isNone = true then none else some (o.getD "")) = o := by
    intro o
    cases o <;> rfl
  simp only [mapRowToUser, PGresult.getIsNull, PGresult.getValue, PGresult.field, hres, selectColumns, List.map_cons,
    List.map_nil, List.getElem?_cons_zero, List.getElem?_cons_succ, Option.bind_some, Option.join_some, Row.field,
    Option.getD_some, hstatus, hopt]
  simp only [bind, Except.bind, pure, Except.pure, userOfRow, Int16.ofInt_toInt]

theorem sound_userOfRow (timestamptzOut : Int → String) (r : Row) : (userOfRow timestamptzOut r).Sound where
  lo := (parsePostgresTimestamp_bounds _).1
  hi := (parsePostgresTimestamp_bounds _).2
  deleted := nofun

/-! ## Runs -/

/-- What `CreateUser` makes of the answer to its statement. -/
def createOutcome : Except String (List PGresult) → Except String (Except DbError Unit)
  | .error what => .error what
  | .ok results =>
      match execResult results with
      | .error e => .ok (.error e)
      | .ok _ => .ok (.ok ())

theorem createOutcome_of_isError {res : PGresult} (h : res.status.isError = true) :
    createOutcome (.ok [res]) ≠ .ok (.ok ()) := by
  simp [createOutcome, execResult_singleton_error h]

/-- What a lookup makes of the answer to its statement. -/
def selectOutcome : Except String (List PGresult) → Except String (Except DbError (Option User))
  | .error what => .error what
  | .ok results =>
      match execResult results with
      | .error e => .ok (.error e)
      | .ok result =>
          if pqNtuples result = 0 then .ok (.ok none)
          else
            match result.map fun res => mapRowToUser res 0 with
            | some (.ok user) => .ok (.ok (some user))
            | some (.error what) => .error what
            | none => .ok (.ok none)

/-- The events of a DAO call. -/
def callEvents (conn : Nat) (stmt : Statement) (params : List String) (a : Except String (List PGresult)) : List Ev :=
  [⟨.getConnection, conn⟩, ⟨.execParams conn stmt params, a⟩, ⟨.returnConnection conn, ()⟩]

theorem runs_asyncExecParams {conn : Nat} {stmt : Statement} {params : List String} {tr : List Ev}
    {out : Except String (Except DbError (Option PGresult))} :
    Runs (asyncExecParams conn stmt params) tr out ↔ ∃ a : Except String (List PGresult),
      tr = [⟨.execParams conn stmt params, a⟩] ∧ out = a.map execResult := by
  unfold asyncExecParams
  rw [runs_execParams_bind]
  constructor
  · rintro ⟨a, tr', rfl, h⟩
    cases a with
    | error what =>
        obtain ⟨rfl, rfl⟩ := h
        exact ⟨_, rfl, rfl⟩
    | ok results =>
        obtain ⟨rfl, rfl⟩ := h
        exact ⟨_, rfl, rfl⟩
  · rintro ⟨a, rfl, rfl⟩
    cases a with
    | error what => exact ⟨_, _, rfl, rfl, rfl⟩
    | ok results => exact ⟨_, _, rfl, rfl, rfl⟩

/-- **A DAO call**: it takes a connection, awaits its statement, gives the connection back, and its outcome is a
function of the answer. -/
theorem runs_call {α : Type} {stmt : Statement} {params : List String} {tr : List Ev}
    {body : Except DbError (Option PGresult) → Prog α} {out : Except String α}
    {outcome : Except String (List PGresult) → Except String α} (herr : ∀ what, outcome (.error what) = .error what)
    (hbody : ∀ results tr out, Runs (body (execResult results)) tr out ↔ tr = [] ∧ out = outcome (.ok results)) :
    Runs (do
      let conn ← getConnection
      Co.finally (do
        let result ← asyncExecParams conn stmt params
        body result) (.returnConnection conn)) tr out ↔
      ∃ conn a, tr = callEvents conn stmt params a ∧ out = outcome a := by
  simp only [runs_getConnection_bind, runs_finally]
  simp only [runs_bind, runs_asyncExecParams]
  constructor
  · rintro ⟨conn, tr', rfl, tr₁, ⟨⟩, rfl, ⟨v, _, tr₂, rfl, ⟨a, rfl, hv⟩, h⟩ | ⟨e, rfl, a, rfl, hv⟩⟩
    · cases a with
      | error what => cases hv
      | ok results =>
          obtain rfl := Except.ok.inj hv
          obtain ⟨rfl, rfl⟩ := (hbody results _ _).mp h
          exact ⟨conn, _, rfl, rfl⟩
    · cases a with
      | error what =>
          obtain rfl := Except.error.inj hv
          exact ⟨conn, _, rfl, (herr _).symm⟩
      | ok results => cases hv
  · rintro ⟨conn, a, rfl, rfl⟩
    refine ⟨conn, _, rfl, [⟨.execParams conn stmt params, a⟩], (), rfl, ?_⟩
    cases a with
    | error what => exact .inr ⟨what, herr what, _, rfl, rfl⟩
    | ok results => exact .inl ⟨_, _, [], rfl, ⟨_, rfl, rfl⟩, (hbody results _ _).mpr ⟨rfl, rfl⟩⟩

theorem runs_createUser {user : User} {tr : List Ev} {out : Except String (Except DbError Unit)} :
    Runs (createUser user) tr out ↔ ∃ conn a,
      tr = callEvents conn (.insertInto insertColumns) (insertParams user) a ∧ out = createOutcome a := by
  refine runs_call (fun what => rfl) fun results tr out => ?_
  simp only [createOutcome]
  cases execResult results with
  | error e => exact runs_pure
  | ok res => exact runs_pure

theorem runs_selectUser {key : Key} {param : String} {tr : List Ev}
    {out : Except String (Except DbError (Option User))} :
    Runs (selectUser key param) tr out ↔ ∃ conn a,
      tr = callEvents conn (.selectWhere selectColumns key) [param] a ∧ out = selectOutcome a := by
  refine runs_call (fun what => rfl) fun results tr out => ?_
  simp only [selectOutcome]
  cases execResult results with
  | error e => exact runs_pure
  | ok result =>
      dsimp only
      by_cases hzero : pqNtuples result = 0
      · rw [if_pos hzero, if_pos hzero]
        exact runs_pure
      · rw [if_neg hzero, if_neg hzero]
        split
        · exact runs_pure
        · exact runs_throw
        · exact runs_pure

/-! ## What is awaited -/

theorem always_call {α : Type} {φ : List Ev → Op → Prop} {hist : List Ev} {stmt : Statement} {params : List String}
    {body : Except DbError (Option PGresult) → Prog α} (hφ : OnWrites φ)
    (hexec : ∀ conn, φ (hist ++ [⟨.getConnection, conn⟩]) (.execParams conn stmt params))
    (hbody : ∀ hist result, Always φ hist (body result)) :
    Always φ hist (do
      let conn ← getConnection
      Co.finally (do
        let result ← asyncExecParams conn stmt params
        body result) (.returnConnection conn)) := by
  refine ⟨hφ _ _ rfl rfl, fun conn => ?_⟩
  refine Always.finally (Always.bind ⟨hexec conn, fun a => ?_⟩ fun v tr _ => hbody _ v) fun hist => hφ _ _ rfl rfl
  change Except String (List PGresult) at a
  cases a <;> trivial

theorem always_createUser {φ : List Ev → Op → Prop} {hist : List Ev} {user : User} (hφ : OnWrites φ)
    (hexec : ∀ conn, φ (hist ++ [⟨.getConnection, conn⟩])
      (.execParams conn (.insertInto insertColumns) (insertParams user))) : Always φ hist (createUser user) := by
  refine always_call hφ hexec fun hist result => ?_
  cases result <;> exact Always.pure _

theorem always_selectUser {φ : List Ev → Op → Prop} {hist : List Ev} {key : Key} {param : String} (hφ : OnWrites φ) :
    Always φ hist (selectUser key param) := by
  refine always_call hφ (fun conn => hφ _ _ rfl rfl) fun hist result => ?_
  cases result with
  | error e => exact Always.pure _
  | ok result =>
      dsimp only
      split
      · exact Always.pure _
      · split
        · exact Always.pure _
        · exact Always.throw _
        · exact Always.pure _

end UserDao

end PhotonCommerce.Infrastructure
