import PhotonCommerce.Service.Model
import PhotonCommerce.Utils.Util

/-!
# `BasicUserService`

* `BasicUserService.register`, `getUserInfo` : over any user repository;
* `runs_register` : the three awaits of a registration and what each answer leads to.
-/

namespace PhotonCommerce.Service
open Coroutine Domain Utils Infrastructure

namespace BasicUserService
variable (L : Libs) (repo : IUserRepository)

/-- The user a registration creates. -/
def newUser (req : RegisterRequest) (userId salt : String) : User :=
  (User.create userId req.phoneNumber (SecurityUtil.hashPassword L req.password salt) salt).updateProfile
    (some req.username) none none

/-- `BasicUserService::Register`. -/
def register (req : RegisterRequest) : Prog RegisterResponse := do
  let code ← VerificationCodeRepository.getCode .userRegister req.phoneNumber
  if code ≠ some req.code then return { status := ⟨.verificationCodeMismatch, "验证码错误"⟩ }
  else do
    match ← repo.getUserByPhoneNumber req.phoneNumber with
    | .error _ => return { status := ⟨.internalError, "Database Error"⟩ }
    | .ok (some _) => return { status := ⟨.userAlreadyExists, "该手机号已注册"⟩ }
    | .ok none => do
        let userId ← IdGenerator.generateUUID
        let salt ← SecurityUtil.generateSalt
        match ← repo.createUser (newUser L req userId salt) with
        | .error _ => return { status := ⟨.internalError, "注册失败"⟩ }
        | .ok _ => return ⟨.ok, userId⟩

/-- The response to a user found. -/
def userInfo (user : User) : GetUserInfoResponse :=
  ⟨.ok, user.id, user.username.getD "", user.email.getD "", user.avatarUrl.getD "", user.phoneNumber⟩

/-- `BasicUserService::GetUserInfo`. -/
def getUserInfo (userId : String) : Prog GetUserInfoResponse := do
  match ← repo.getUserById userId with
  | .error _ => return { status := ⟨.internalError, "查询失败"⟩ }
  | .ok none => return { status := ⟨.userNotFound, "用户不存在"⟩ }
  | .ok (some user) => return userInfo user

/-! ## Runs -/

/-- What a registration draws: the time and the random numbers of the id, the bytes of the salt. -/
structure Draw where
  now : Nat
  rand1 : UInt32
  rand2 : UInt32
  rand3 : UInt32
  block : { bytes : List UInt8 // bytes.length = 16 }

namespace Draw

def events (d : Draw) : List Ev :=
  [⟨.now, d.now⟩, ⟨.rand32, d.rand1⟩, ⟨.rand32, d.rand2⟩, ⟨.rand32, d.rand3⟩, ⟨.generateBlock 16, d.block⟩]

def uuid (d : Draw) : Uuid := ⟨uuidBytes (d.now / 10 ^ 6) d.rand1 d.rand2 d.rand3, rfl⟩

def salt (d : Draw) : String := hexEncode d.block.val

theorem length_salt (d : Draw) : d.salt.length = 32 := by
  unfold salt
  rw [length_hexEncode, d.block.property]

end Draw

/-- The key of a registration code. -/
def codeKey (phoneNumber : String) : String := "verify_code:register:" ++ phoneNumber

/-- What `Register` makes of a lookup that did not come back empty. -/
def refusal : Except String (Except DbError (Option User)) → Except String RegisterResponse
  | .error what => .error what
  | .ok (.error _) => .ok { status := ⟨.internalError, "Database Error"⟩ }
  | .ok (.ok _) => .ok { status := ⟨.userAlreadyExists, "该手机号已注册"⟩ }

/-- What `Register` makes of the outcome of its `INSERT`. -/
def registration (userId : String) : Except String (Except DbError Unit) → Except String RegisterResponse
  | .error what => .error what
  | .ok (.error _) => .ok { status := ⟨.internalError, "注册失败"⟩ }
  | .ok (.ok _) => .ok ⟨.ok, userId⟩

/-- The events of a registration up to its lookup. -/
def lookupEvents (phoneNumber : String) (a : Except String RedisReply) (conn : Nat)
    (b : Except String (List PGresult)) : List Ev :=
  ⟨.redisGet (codeKey phoneNumber), a⟩ ::
    UserDao.callEvents conn (.selectWhere UserDao.selectColumns .phoneNumber) [phoneNumber] b

/-- The events of a registration after its lookup. -/
def insertEvents (req : RegisterRequest) (d : Draw) (conn : Nat) (c : Except String (List PGresult)) : List Ev :=
  d.events ++ UserDao.callEvents conn (.insertInto UserDao.insertColumns)
    (UserDao.insertParams (newUser L req d.uuid.toString d.salt)) c

/-- **The runs of `Register`**: it stops at the code, at the lookup, or at the `INSERT`. -/
inductive Registers (req : RegisterRequest) : List Ev → Except String RegisterResponse → Prop where
  | mismatch (a : Except String RedisReply) (ha : answerValue a ≠ some req.code) :
      Registers req [⟨.redisGet (codeKey req.phoneNumber), a⟩]
        (.ok { status := ⟨.verificationCodeMismatch, "验证码错误"⟩ })
  | refused (a : Except String RedisReply) (conn : Nat) (b : Except String (List PGresult))
      (ha : answerValue a = some req.code) (hb : UserDao.selectOutcome b ≠ .ok (.ok none)) :
      Registers req (lookupEvents req.phoneNumber a conn b) (refusal (UserDao.selectOutcome b))
  | inserted (a : Except String RedisReply) (conn : Nat) (b : Except String (List PGresult)) (d : Draw) (conn' : Nat)
      (c : Except String (List PGresult)) (ha : answerValue a = some req.code)
      (hb : UserDao.selectOutcome b = .ok (.ok none)) :
      Registers req (lookupEvents req.phoneNumber a conn b ++ insertEvents L req d conn' c)
        (registration d.uuid.toString (UserDao.createOutcome c))

theorem isInsert_of_mem_lookupEvents {phoneNumber : String} {a : Except String RedisReply} {conn : Nat}
    {b : Except String (List PGresult)} {ev : Ev} (h : ev ∈ lookupEvents phoneNumber a conn b) :
    ev.op.isInsert = false := by
  simp only [lookupEvents, UserDao.callEvents, List.mem_cons, List.not_mem_nil, or_false] at h
  rcases h with rfl | rfl | rfl | rfl <;> rfl

/-- The `INSERT` of a registration is one of its events, and no other event is an `INSERT`. -/
theorem eq_of_mem_insertEvents {req : RegisterRequest} {d : Draw} {conn : Nat} {c : Except String (List PGresult)}
    {ev : Ev} (h : ev ∈ insertEvents L req d conn c) (hins : ev.op.isInsert = true) :
    ev = ⟨.execParams conn (.insertInto UserDao.insertColumns)
      (UserDao.insertParams (newUser L req d.uuid.toString d.salt)), c⟩ := by
  simp only [insertEvents, Draw.events, UserDao.callEvents, List.mem_append, List.mem_cons, List.not_mem_nil,
    or_false] at h
  rcases h with (rfl | rfl | rfl | rfl | rfl) | rfl | rfl | rfl
  all_goals first
    | rfl
    | cases hins

section Register
variable {L} {req : RegisterRequest} {tr : List Ev} {out : Except String RegisterResponse}

theorem runs_createUser {user : User} {tr : List Ev} {out : Except String (Except DbError Unit)} :
    Runs ((userRepository L).createUser user) tr out ↔ ∃ x : Nat × Except String (List PGresult),
      tr = UserDao.callEvents x.1 (.insertInto UserDao.insertColumns) (UserDao.insertParams user) x.2 ∧
        out = UserDao.createOutcome x.2 := by
  rw [Prod.exists]
  exact UserDao.runs_createUser

/-- The part of a registration after its lookup came back empty. -/
theorem runs_insert : Runs (do
      let userId ← IdGenerator.generateUUID
      let salt ← SecurityUtil.generateSalt
      match ← (userRepository L).createUser (newUser L req userId salt) with
      | .error _ => return { status := ⟨.internalError, "注册失败"⟩ }
      | .ok _ => return ⟨.ok, userId⟩) tr out ↔
    ∃ d conn c, tr = insertEvents L req d conn c ∧ out = registration d.uuid.toString (UserDao.createOutcome c) := by
  constructor
  · intro h
    obtain ⟨t, r₁, r₂, r₃, tr₂, rfl, h₂⟩ := IdGenerator.runs_generateUUID_bind.mp h
    obtain ⟨block, tr₃, rfl, h₃⟩ := SecurityUtil.runs_generateSalt_bind.mp h₂
    obtain ⟨⟨conn, c⟩, ⟨v, tr₄, hc, rfl, h₄⟩ | ⟨what, hc, rfl, rfl⟩⟩ := (runs_bind_of fun _ _ => runs_createUser).mp h₃
    · refine ⟨⟨t, r₁, r₂, r₃, block⟩, conn, c, ?_⟩
      rw [show UserDao.createOutcome c = _ from hc]
      cases v with
      | error e =>
          obtain ⟨rfl, rfl⟩ := h₄
          exact ⟨rfl, rfl⟩
      | ok u =>
          obtain ⟨rfl, rfl⟩ := h₄
          exact ⟨rfl, rfl⟩
    · refine ⟨⟨t, r₁, r₂, r₃, block⟩, conn, c, rfl, ?_⟩
      rw [show UserDao.createOutcome c = _ from hc]
      rfl
  · rintro ⟨d, conn, c, rfl, rfl⟩
    refine IdGenerator.runs_generateUUID_bind.mpr ⟨d.now, d.rand1, d.rand2, d.rand3, _, rfl, ?_⟩
    refine SecurityUtil.runs_generateSalt_bind.mpr ⟨d.block, _, rfl, ?_⟩
    refine (runs_bind_of fun _ _ => runs_createUser).mpr ⟨(conn, c), ?_⟩
    cases UserDao.createOutcome c with
    | error what => exact .inr ⟨what, rfl, rfl, rfl⟩
    | ok v =>
        refine .inl ⟨v, [], rfl, (List.append_nil _).symm, ?_⟩
        cases v with
        | error e => exact ⟨rfl, rfl⟩
        | ok u => exact ⟨rfl, rfl⟩

theorem runs_getUserByPhoneNumber {phoneNumber : String} {tr : List Ev}
    {out : Except String (Except DbError (Option User))} :
    Runs ((userRepository L).getUserByPhoneNumber phoneNumber) tr out ↔ ∃ x : Nat × Except String (List PGresult),
      tr = UserDao.callEvents x.1 (.selectWhere UserDao.selectColumns .phoneNumber) [phoneNumber] x.2 ∧
        out = UserDao.selectOutcome x.2 := by
  rw [Prod.exists]
  exact UserDao.runs_selectUser

theorem Registers.refused_of {a : Except String RedisReply} {conn : Nat} {b : Except String (List PGresult)}
    {outcome : Except String (Except DbError (Option User))} (ha : answerValue a = some req.code)
    (hb : UserDao.selectOutcome b = outcome) (hout : outcome ≠ .ok (.ok none)) :
    Registers L req (lookupEvents req.phoneNumber a conn b) (refusal outcome) := by
  subst hb
  exact Registers.refused a conn b ha hout

/-- **The runs of `Register`.** -/
theorem runs_register : Runs (register L (userRepository L) req) tr out ↔ Registers L req tr out := by
  have hcode : ∀ tr out, Runs (VerificationCodeRepository.getCode .userRegister req.phoneNumber) tr out ↔
      ∃ a : Except String RedisReply, tr = [⟨.redisGet (codeKey req.phoneNumber), a⟩] ∧ out = .ok (answerValue a) :=
    fun _ _ => VerificationCodeRepository.runs_getCode rfl
  constructor
  · intro h
    -- a run stops at the first await whose answer ends the registration
    obtain ⟨a, tr₁, rfl, h₁⟩ := (runs_bind_ok hcode).mp h
    by_cases ha : answerValue a = some req.code
    · rw [if_neg (not_not.mpr ha)] at h₁
      obtain ⟨⟨conn, b⟩, ⟨v, tr₂, hb, rfl, h₂⟩ | ⟨what, hb, rfl, rfl⟩⟩ :=
        (runs_bind_of fun _ _ => runs_getUserByPhoneNumber).mp h₁
      · dsimp only at hb
        match v, hb, h₂ with
        | .error e, hb, h₂ =>
            obtain ⟨rfl, rfl⟩ := h₂
            exact Registers.refused_of ha hb (by simp)
        | .ok (some user), hb, h₂ =>
            obtain ⟨rfl, rfl⟩ := h₂
            exact Registers.refused_of ha hb (by simp)
        | .ok none, hb, h₂ =>
            obtain ⟨d, conn', c, rfl, rfl⟩ := runs_insert.mp h₂
            exact Registers.inserted a conn b d conn' c ha hb
      · dsimp only at hb
        exact Registers.refused_of ha hb (by simp)
    · rw [if_pos ha] at h₁
      obtain ⟨rfl, rfl⟩ := h₁
      exact Registers.mismatch a ha
  · intro h
    cases h with
    | mismatch a ha =>
        refine (runs_bind_ok hcode).mpr ⟨a, [], rfl, ?_⟩
        rw [if_pos ha]
        exact ⟨rfl, rfl⟩
    | refused a conn b ha hb =>
        refine (runs_bind_ok hcode).mpr ⟨a, _, rfl, ?_⟩
        rw [if_neg (not_not.mpr ha)]
        refine (runs_bind_of fun _ _ => runs_getUserByPhoneNumber).mpr ⟨(conn, b), ?_⟩
        match hout : UserDao.selectOutcome b with
        | .error what => exact .inr ⟨what, rfl, rfl, rfl⟩
        | .ok (.error e) => exact .inl ⟨.error e, [], rfl, (List.append_nil _).symm, rfl, rfl⟩
        | .ok (.ok (some user)) => exact .inl ⟨.ok (some user), [], rfl, (List.append_nil _).symm, rfl, rfl⟩
        | .ok (.ok none) => exact absurd hout hb
    | inserted a conn b d conn' c ha hb =>
        refine (runs_bind_ok hcode).mpr ⟨a, _, rfl, ?_⟩
        rw [if_neg (not_not.mpr ha)]
        refine (runs_bind_of fun _ _ => runs_getUserByPhoneNumber).mpr ⟨(conn, b), .inl ⟨.ok none, _, hb, rfl, ?_⟩⟩
        exact runs_insert.mpr ⟨d, conn', c, rfl, rfl⟩

/-- The success of a registration is that of its `INSERT`. -/
theorem registration_success_iff {userId : String} {outcome : Except String (Except DbError Unit)} :
    (∃ response, registration userId outcome = .ok response ∧ response.status.code = .success) ↔
      outcome = .ok (.ok ()) := by
  match outcome with
  | .error what => simp [registration]
  | .ok (.error e) => simp [registration]
  | .ok (.ok ()) => simp [registration, CommonStatus.ok]

/-- **`Register` and its code.** It reads the code first; it answers with a mismatch exactly when what it read is not the
code presented, and then has done nothing else. -/
theorem Registers.code (h : Registers L req tr out) :
    ∃ (a : Except String RedisReply) (tr' : List Ev), tr = ⟨.redisGet (codeKey req.phoneNumber), a⟩ :: tr' ∧
      (answerValue a ≠ some req.code → tr' = [] ∧ out = .ok { status := ⟨.verificationCodeMismatch, "验证码错误"⟩ }) ∧
      (answerValue a = some req.code → ∀ response, out = .ok response →
        response.status.code ≠ .verificationCodeMismatch) := by
  cases h with
  | mismatch a ha => exact ⟨a, [], rfl, fun _ => ⟨rfl, rfl⟩, fun h => absurd h ha⟩
  | refused a conn b ha hb =>
      refine ⟨a, _, rfl, fun h => absurd ha h, fun _ response hout => ?_⟩
      match UserDao.selectOutcome b, hout with
      | .ok (.error e), hout =>
          cases hout
          exact nofun
      | .ok (.ok user), hout =>
          cases hout
          exact nofun
  | inserted a conn b d conn' c ha hb =>
      refine ⟨a, _, rfl, fun h => absurd ha h, fun _ response hout => ?_⟩
      match UserDao.createOutcome c, hout with
      | .ok (.error e), hout =>
          cases hout
          exact nofun
      | .ok (.ok user), hout =>
          cases hout
          exact nofun

/-- A registration ends as `CreateUser` makes of the answer to its `INSERT`. -/
theorem Registers.out_of_isInsert (h : Registers L req tr out) {ev : Ev} (hmem : ev ∈ tr)
    (hins : ev.op.isInsert = true) : ∃ conn params c userId,
      ev = ⟨.execParams conn (.insertInto UserDao.insertColumns) params, c⟩ ∧
        out = registration userId (UserDao.createOutcome c) := by
  cases h with
  | mismatch a ha =>
      rw [List.mem_singleton.mp hmem] at hins
      cases hins
  | refused a conn b ha hb =>
      rw [isInsert_of_mem_lookupEvents hmem] at hins
      cases hins
  | inserted a conn b d conn' c ha hb =>
      rcases List.mem_append.mp hmem with hmem | hmem
      · rw [isInsert_of_mem_lookupEvents hmem] at hins
        cases hins
      · exact ⟨conn', _, c, d.uuid.toString, eq_of_mem_insertEvents L hmem hins, rfl⟩

/-- **A successful registration** had its code, found nobody, and its `INSERT` succeeded. -/
theorem Registers.success {response : RegisterResponse} (h : Registers L req tr (.ok response))
    (hok : response.status.code = .success) : ∃ a conn b d conn' c,
      tr = lookupEvents req.phoneNumber a conn b ++ insertEvents L req d conn' c ∧
      UserDao.createOutcome c = .ok (.ok ()) ∧ response.userId = d.uuid.toString := by
  generalize hout : Except.ok response = out at h
  cases h with
  | mismatch a ha =>
      rw [Except.ok.inj hout] at hok
      cases hok
  | refused a conn b ha hb =>
      match UserDao.selectOutcome b, hout with
      | .error what, hout => cases hout
      | .ok (.error e), hout =>
          rw [Except.ok.inj hout] at hok
          cases hok
      | .ok (.ok user), hout =>
          rw [Except.ok.inj hout] at hok
          cases hok
  | inserted a conn b d conn' c ha hb =>
      have hc := registration_success_iff.mp ⟨response, hout.symm, hok⟩
      rw [hc] at hout
      exact ⟨a, conn, b, d, conn', c, rfl, hc, by rw [Except.ok.inj hout]⟩

end Register

/-! ## `GetUserInfo` -/

/-- `GetUserInfo` after its lookup. -/
def infoAnswer : Except DbError (Option User) → Prog GetUserInfoResponse
  | .error _ => return { status := ⟨.internalError, "查询失败"⟩ }
  | .ok none => return { status := ⟨.userNotFound, "用户不存在"⟩ }
  | .ok (some user) => return userInfo user

theorem getUserInfo_eq (userId : String) : getUserInfo repo userId = repo.getUserById userId >>= infoAnswer := rfl

/-- `GetUserInfo` looks at a user's view only. -/
theorem userInfo_view {u u' : User} (h : u.view = u'.view) : userInfo u = userInfo u' := by
  simp only [User.view, User.View.mk.injEq] at h
  obtain ⟨hid, hphone, -, -, husername, hemail, havatar, -⟩ := h
  simp only [userInfo, hid, hphone, husername, hemail, havatar]

/-- **A successful `GetUserInfo`** found the user it tells about. -/
theorem runs_getUserInfo {userId : String} {tr : List Ev} {response : GetUserInfoResponse}
    (h : Runs (getUserInfo repo userId) tr (.ok response)) (hok : response.status.code = .success) :
    ∃ user, Runs (repo.getUserById userId) tr (.ok (.ok (some user))) ∧ response = userInfo user := by
  rw [getUserInfo_eq] at h
  rcases runs_bind.mp h with ⟨v, tr₁, tr₂, rfl, hget, hrest⟩ | ⟨e, he, -⟩
  · match v, hget, hrest with
    | .error e, _, hrest =>
        cases hrest.2
        cases hok
    | .ok none, _, hrest =>
        cases hrest.2
        cases hok
    | .ok (some user), hget, hrest =>
        obtain ⟨rfl, hout⟩ := hrest
        exact ⟨user, by rwa [List.append_nil], Except.ok.inj hout⟩
  · cases he

/-! ## What is awaited -/

section Always
variable {L} {φ : List Ev → Op → Prop} {hist : List Ev}

/-- The only write of `Register` is its `INSERT`. -/
theorem always_register {req : RegisterRequest} (hφ : OnWrites φ)
    (hins : ∀ hist conn params, φ hist (.execParams conn (.insertInto UserDao.insertColumns) params)) :
    Always φ hist (register L (userRepository L) req) := by
  refine (VerificationCodeRepository.always_getCode fun _ _ => hφ _ _ rfl rfl).bind fun code tr _ => ?_
  split_ifs
  · exact Always.pure _
  · refine (UserDao.always_selectUser hφ).bind fun v tr _ => ?_
    match v with
    | .error e => exact Always.pure _
    | .ok (some user) => exact Always.pure _
    | .ok none =>
        refine Always.bind (p := IdGenerator.generateUUID) ?_ fun userId tr _ => ?_
        · exact ⟨hφ _ _ rfl rfl, fun _ => ⟨hφ _ _ rfl rfl, fun _ => ⟨hφ _ _ rfl rfl, fun _ =>
            ⟨hφ _ _ rfl rfl, fun _ => trivial⟩⟩⟩⟩
        · refine Always.bind (p := SecurityUtil.generateSalt) ⟨hφ _ _ rfl rfl, fun _ => trivial⟩ fun salt tr _ => ?_
          refine (UserDao.always_createUser hφ fun conn => hins _ conn _).bind fun v tr _ => ?_
          cases v <;> exact Always.pure _

theorem always_getUserInfo {userId : String} (hget : ∀ hist, Always φ hist (repo.getUserById userId)) :
    Always φ hist (getUserInfo repo userId) := by
  refine (hget hist).bind fun v tr _ => ?_
  match v with
  | .error e => exact Always.pure _
  | .ok none => exact Always.pure _
  | .ok (some user) => exact Always.pure _

end Always

end BasicUserService

end PhotonCommerce.Service
