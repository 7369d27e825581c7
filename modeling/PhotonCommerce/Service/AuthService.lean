import PhotonCommerce.Service.Model
import PhotonCommerce.Utils.Util

/-!
# `AuthService`

* `AuthService.sendCode`, `loginByCode`, `loginByPassword` : over any user repository;
* `runs_loginByCode`, `runs_loginByPassword` : what a login that succeeded has awaited;
* `runs_storeCode`, `runs_sendCode_checked` : the runs of `SendCode`, its answer decided by its lookup alone;
* `runs_loginByCode_code` : `LoginByCode` up to the check of its code;
* `always_sendCode` : the only write is that of the code.
-/

namespace PhotonCommerce.Service
open Coroutine Domain Utils Infrastructure

namespace AuthService
variable (L : Libs) (cfg : JwtConfig) (repo : IUserRepository)

/-- The end of `SendCode`: a six-digit code, stored for five minutes. -/
def storeCode (req : SendCodeRequest) : Prog CommonStatus := do
  let code ← CodeGenerator.generate 6
  VerificationCodeRepository.saveCode req.usage req.phoneNumber code 300
  return .ok

/-- `AuthService::SendCode`. -/
def sendCode (req : SendCodeRequest) : Prog CommonStatus :=
  let checked : Prog CommonStatus := do
    match ← repo.getUserByPhoneNumber req.phoneNumber with
    | .error _ => return ⟨.internalError, "系统内部错误"⟩
    | .ok none => return .ok
    | .ok (some _) => storeCode req
  match req.usage with
  | .userRegister => storeCode req
  | .userLogin => checked
  | .resetPassword => checked
  | .other _ => return ⟨.invalidArgument, "发送验证码用途不明"⟩

/-- `AuthService::LoginByCode`. -/
def loginByCode (req : LoginByCodeRequest) : Prog LoginResult := do
  let code ← VerificationCodeRepository.getCode .userLogin req.phoneNumber
  if code ≠ some req.code then return { status := ⟨.verificationCodeMismatch, "验证码错误"⟩ }
  else do
    match ← repo.getUserByPhoneNumber req.phoneNumber with
    | .error _ => return { status := ⟨.internalError, "DB Error"⟩ }
    | .ok none => return { status := ⟨.userNotFound, "该手机号未注册"⟩ }
    | .ok (some user) => do
        let token ← JwtUtil.generateToken L cfg user.id
        return ⟨.ok, token, user.id⟩

/-- `AuthService::LoginByPassword`. -/
def loginByPassword (req : LoginByPasswordRequest) : Prog LoginResult := do
  match ← repo.getUserById req.userId with
  | .error _ => return { status := ⟨.internalError, "DB Error"⟩ }
  | .ok none => return { status := ⟨.userNotFound, "ID不存在"⟩ }
  | .ok (some user) =>
      if SecurityUtil.verifyPassword L req.password user.salt user.passwordHash then do
        let token ← JwtUtil.generateToken L cfg user.id
        return ⟨.ok, token, user.id⟩
      else return { status := ⟨.passwordIncorrect, "密码错误"⟩ }

/-! ## Runs -/

/-- `LoginByPassword` after its lookup. -/
def passwordAnswer (password : String) : Except DbError (Option User) → Prog LoginResult
  | .error _ => return { status := ⟨.internalError, "DB Error"⟩ }
  | .ok none => return { status := ⟨.userNotFound, "ID不存在"⟩ }
  | .ok (some user) =>
      if SecurityUtil.verifyPassword L password user.salt user.passwordHash then do
        let token ← JwtUtil.generateToken L cfg user.id
        return ⟨.ok, token, user.id⟩
      else return { status := ⟨.passwordIncorrect, "密码错误"⟩ }

theorem loginByPassword_eq (req : LoginByPasswordRequest) :
    loginByPassword L cfg repo req = repo.getUserById req.userId >>= passwordAnswer L cfg req.password := rfl

/-- `LoginByPassword` looks at a user's view only. -/
theorem passwordAnswer_view {password : String} {u u' : User} (h : u.view = u'.view) :
    passwordAnswer L cfg password (.ok (some u)) = passwordAnswer L cfg password (.ok (some u')) := by
  have hid : u.id = u'.id := congrArg User.View.id h
  have hsalt : u.salt = u'.salt := congrArg User.View.salt h
  have hhash : u.passwordHash = u'.passwordHash := congrArg User.View.passwordHash h
  simp only [passwordAnswer, hid, hsalt, hhash]

/-- The result of a login for a user at a time. -/
def loggedIn (userId : String) (now : Nat) : LoginResult := ⟨.ok, JwtUtil.tokenAt L cfg userId now, userId⟩

section Login
variable {L cfg} {tr : List Ev}

/-- The end of `LoginByPassword` for a user found. -/
theorem runs_passwordAnswer {password : String} {user : User} {out : Except String LoginResult} :
    Runs (passwordAnswer L cfg password (.ok (some user))) tr out ↔
      (SecurityUtil.hashPassword L password user.salt = user.passwordHash ∧
        ∃ t : Nat, tr = [⟨.now, t⟩] ∧ out = .ok (loggedIn L cfg user.id t)) ∨
      (SecurityUtil.hashPassword L password user.salt ≠ user.passwordHash ∧ tr = [] ∧
        out = .ok { status := ⟨.passwordIncorrect, "密码错误"⟩ }) := by
  simp only [passwordAnswer]
  by_cases hpwd : SecurityUtil.hashPassword L password user.salt = user.passwordHash
  · rw [if_pos ((SecurityUtil.verifyPassword_iff L _ _ _).mpr hpwd), JwtUtil.runs_generateToken_bind]
    constructor
    · rintro ⟨t, tr', rfl, rfl, rfl⟩
      exact .inl ⟨hpwd, t, rfl, rfl⟩
    · rintro (⟨-, t, rfl, rfl⟩ | ⟨hne, -⟩)
      · exact ⟨t, [], rfl, rfl, rfl⟩
      · exact absurd hpwd hne
  · rw [if_neg fun h => hpwd ((SecurityUtil.verifyPassword_iff L _ _ _).mp h), runs_pure]
    constructor
    · exact fun h => .inr ⟨hpwd, h⟩
    · rintro (⟨h, -⟩ | ⟨-, h⟩)
      · exact absurd h hpwd
      · exact h

/-- **A successful `LoginByPassword`** found a user and its password hash matched. -/
theorem runs_loginByPassword {req : LoginByPasswordRequest} {result : LoginResult}
    (h : Runs (loginByPassword L cfg repo req) tr (.ok result)) (hok : result.status.code = .success) :
    ∃ tr₁ user t, tr = tr₁ ++ [⟨.now, t⟩] ∧ Runs (repo.getUserById req.userId) tr₁ (.ok (.ok (some user))) ∧
      SecurityUtil.hashPassword L req.password user.salt = user.passwordHash ∧ result = loggedIn L cfg user.id t := by
  rw [loginByPassword_eq] at h
  rcases runs_bind.mp h with ⟨v, tr₁, tr₂, rfl, hget, hrest⟩ | ⟨e, he, -⟩
  · match v, hget, hrest with
    | .error e, _, hrest =>
        cases hrest.2
        cases hok
    | .ok none, _, hrest =>
        cases hrest.2
        cases hok
    | .ok (some user), hget, hrest =>
        rcases runs_passwordAnswer.mp hrest with ⟨hpwd, t, rfl, hout⟩ | ⟨-, -, hout⟩
        · cases hout
          exact ⟨tr₁, user, t, rfl, hget, hpwd, rfl⟩
        · cases hout
          cases hok
  · cases he

/-- The key of a login code. -/
def codeKey (phoneNumber : String) : String := "verify_code:login:" ++ phoneNumber

/-- **A successful `LoginByCode`** read its code and found a user by the phone number. -/
theorem runs_loginByCode {req : LoginByCodeRequest} {result : LoginResult}
    (h : Runs (loginByCode L cfg (userRepository L) req) tr (.ok result)) (hok : result.status.code = .success) :
    ∃ (a : Except String RedisReply) (conn : Nat) (b : Except String (List PGresult)) (user : User) (t : Nat),
      tr = ⟨.redisGet (codeKey req.phoneNumber), a⟩ ::
        (UserDao.callEvents conn (.selectWhere UserDao.selectColumns .phoneNumber) [req.phoneNumber] b ++
          [⟨.now, t⟩]) ∧
      answerValue a = some req.code ∧ UserDao.selectOutcome b = .ok (.ok (some user)) ∧
      result = loggedIn L cfg user.id t := by
  obtain ⟨a, tr₁, rfl, h₁⟩ := (runs_bind_ok fun _ _ => VerificationCodeRepository.runs_getCode rfl).mp h
  by_cases ha : answerValue a = some req.code
  · rw [if_neg (not_not.mpr ha)] at h₁
    rcases runs_bind.mp h₁ with ⟨v, tr₂, tr₃, rfl, hfind, h₃⟩ | ⟨e, he, -⟩
    · obtain ⟨conn, b, rfl, hb⟩ := UserDao.runs_selectUser.mp hfind
      match v, hb, h₃ with
      | .error e, _, h₃ =>
          cases h₃.2
          cases hok
      | .ok none, _, h₃ =>
          cases h₃.2
          cases hok
      | .ok (some user), hb, h₃ =>
          obtain ⟨t, tr₄, rfl, rfl, hout⟩ := (JwtUtil.runs_generateToken_bind L cfg).mp h₃
          cases hout
          exact ⟨a, conn, b, user, t, rfl, ha, hb.symm, rfl⟩
    · cases he
  · rw [if_pos ha] at h₁
    cases h₁.2
    cases hok

/-- **`LoginByCode` and its code.** It reads the code first; it answers with a mismatch exactly when what it read is not
the code presented, and then has done nothing else. -/
theorem runs_loginByCode_code {req : LoginByCodeRequest} {out : Except String LoginResult}
    (h : Runs (loginByCode L cfg (userRepository L) req) tr out) :
    ∃ (a : Except String RedisReply) (tr' : List Ev), tr = ⟨.redisGet (codeKey req.phoneNumber), a⟩ :: tr' ∧
      (answerValue a ≠ some req.code → tr' = [] ∧ out = .ok { status := ⟨.verificationCodeMismatch, "验证码错误"⟩ }) ∧
      (answerValue a = some req.code → ∀ result, out = .ok result →
        result.status.code ≠ .verificationCodeMismatch) := by
  obtain ⟨a, tr', rfl, h'⟩ := (runs_bind_ok fun _ _ => VerificationCodeRepository.runs_getCode rfl).mp h
  refine ⟨a, tr', rfl, fun ha => ?_, fun ha result hout => ?_⟩
  · rw [if_pos ha] at h'
    exact h'
  · subst hout
    rw [if_neg (not_not.mpr ha)] at h'
    rcases runs_bind.mp h' with ⟨v, tr₁, tr₂, rfl, -, hrest⟩ | ⟨e, he, -⟩
    · match v, hrest with
      | .error e, hrest =>
          cases hrest.2
          exact nofun
      | .ok none, hrest =>
          cases hrest.2
          exact nofun
      | .ok (some user), hrest =>
          obtain ⟨t, tr₃, rfl, rfl, hout⟩ := (JwtUtil.runs_generateToken_bind L cfg).mp hrest
          cases hout
          exact nofun
    · cases he

end Login

section SendCode
variable {L} {req : SendCodeRequest} {tr : List Ev} {out : Except String CommonStatus}

/-- The events that store a code: six digits, one `SET`. -/
def storeEvents (keyPrefix phoneNumber : String) (digits : List (Fin 10)) (a : Except String Unit) : List Ev :=
  digits.map (fun digit => ⟨.uniformDigit, digit⟩) ++
    [⟨.redisSet (keyPrefix ++ phoneNumber) (spell "" digits) (some 300), a⟩]

/-- **The end of `SendCode`** draws a code, stores it and answers success whatever became of the `SET`. -/
theorem runs_storeCode {keyPrefix : String}
    (hp : VerificationCodeRepository.getKeyPrefixForUsage req.usage = .ok keyPrefix) :
    Runs (storeCode req) tr out ↔
      ∃ digits a, digits.length = 6 ∧ tr = storeEvents keyPrefix req.phoneNumber digits a ∧ out = .ok .ok := by
  constructor
  · intro h
    rcases runs_bind.mp h with ⟨code, tr₁, tr₂, rfl, hgen, hrest⟩ | ⟨e, -, hgen⟩
    · obtain ⟨digits, hlen, rfl, hcode⟩ := runs_generateDigits_iff.mp hgen
      obtain rfl := Except.ok.inj hcode
      rcases runs_bind.mp hrest with ⟨u, tr₃, tr₄, rfl, hsave, rfl, rfl⟩ | ⟨e, -, hsave⟩
      · obtain ⟨-, a, rfl⟩ := (VerificationCodeRepository.runs_saveCode hp).mp hsave
        exact ⟨digits, a, hlen, by simp [storeEvents], rfl⟩
      · cases ((VerificationCodeRepository.runs_saveCode hp).mp hsave).1
    · obtain ⟨digits, -, -, hcode⟩ := runs_generateDigits_iff.mp hgen
      cases hcode
  · rintro ⟨digits, a, hlen, rfl, rfl⟩
    refine Runs.bind (runs_generateDigits_iff.mpr ⟨digits, hlen, rfl, rfl⟩) (runs_bind.mpr (.inl ?_))
    exact ⟨(), _, [], (List.append_nil _).symm, (VerificationCodeRepository.runs_saveCode hp).mpr ⟨rfl, a, rfl⟩,
      rfl, rfl⟩

/-- What `SendCode` answers to its lookup. -/
def lookupAnswer : Except String (Except DbError (Option User)) → Except String CommonStatus
  | .error what => .error what
  | .ok (.error _) => .ok ⟨.internalError, "系统内部错误"⟩
  | .ok (.ok _) => .ok .ok

/-- **`SendCode` for a login or a password reset** answers by its lookup alone, whether or not it found a user; a code
is stored for a user found. -/
theorem runs_sendCode_checked {keyPrefix : String} (husage : req.usage = .userLogin ∨ req.usage = .resetPassword)
    (hp : VerificationCodeRepository.getKeyPrefixForUsage req.usage = .ok keyPrefix)
    (h : Runs (sendCode (userRepository L) req) tr out) :
    ∃ conn b tr', tr = UserDao.callEvents conn (.selectWhere UserDao.selectColumns .phoneNumber) [req.phoneNumber] b ++
        tr' ∧
      out = lookupAnswer (UserDao.selectOutcome b) ∧
      ∀ user, UserDao.selectOutcome b = .ok (.ok (some user)) →
        ∃ digits a, digits.length = 6 ∧ tr' = storeEvents keyPrefix req.phoneNumber digits a := by
  have hchecked : Runs (do
      match ← (userRepository L).getUserByPhoneNumber req.phoneNumber with
      | .error _ => return ⟨.internalError, "系统内部错误"⟩
      | .ok none => return .ok
      | .ok (some _) => storeCode req) tr out := by
    unfold sendCode at h
    rcases husage with hu | hu <;> simpa only [hu] using h
  rcases runs_bind.mp hchecked with ⟨v, tr₁, tr₂, rfl, hfind, hrest⟩ | ⟨e, rfl, hfind⟩
  · obtain ⟨conn, b, rfl, hb⟩ := UserDao.runs_selectUser.mp hfind
    refine ⟨conn, b, tr₂, rfl, ?_⟩
    rw [← hb]
    match v, hrest with
    | .error e, hrest => exact ⟨hrest.2, fun user hu => by cases hu⟩
    | .ok none, hrest => exact ⟨hrest.2, fun user hu => by cases hu⟩
    | .ok (some user), hrest =>
        obtain ⟨digits, a, hlen, rfl, rfl⟩ := (runs_storeCode hp).mp hrest
        exact ⟨rfl, fun _ _ => ⟨digits, a, hlen, rfl⟩⟩
  · obtain ⟨conn, b, rfl, hb⟩ := UserDao.runs_selectUser.mp hfind
    refine ⟨conn, b, [], (List.append_nil _).symm, ?_⟩
    rw [← hb]
    exact ⟨rfl, fun user hu => by cases hu⟩

end SendCode

/-! ## What is awaited -/

section Always
variable {L cfg} {φ : List Ev → Op → Prop} {hist : List Ev}

theorem always_storeCode {req : SendCodeRequest} (hφ : OnWrites φ)
    (hset : ∀ hist keyPrefix code, VerificationCodeRepository.getKeyPrefixForUsage req.usage = .ok keyPrefix →
      φ hist (.redisSet (keyPrefix ++ req.phoneNumber) code (some 300))) : Always φ hist (storeCode req) :=
  (always_generateDigits hφ 6 "").bind fun code _ _ =>
    (VerificationCodeRepository.always_saveCode fun keyPrefix hp => hset _ keyPrefix code hp).bind fun _ _ _ =>
      Always.pure _

/-- The only write of `SendCode` is its code, for five minutes. -/
theorem always_sendCode {req : SendCodeRequest} (hφ : OnWrites φ)
    (hset : ∀ hist keyPrefix code, VerificationCodeRepository.getKeyPrefixForUsage req.usage = .ok keyPrefix →
      φ hist (.redisSet (keyPrefix ++ req.phoneNumber) code (some 300))) :
    Always φ hist (sendCode (userRepository L) req) := by
  have hchecked : ∀ hist, Always φ hist (do
      match ← (userRepository L).getUserByPhoneNumber req.phoneNumber with
      | .error _ => return ⟨.internalError, "系统内部错误"⟩
      | .ok none => return .ok
      | .ok (some _) => storeCode req) := by
    refine fun hist => (UserDao.always_selectUser hφ).bind fun v tr _ => ?_
    match v with
    | .error e => exact Always.pure _
    | .ok none => exact Always.pure _
    | .ok (some user) => exact always_storeCode hφ hset
  unfold sendCode
  cases req.usage with
  | userRegister => exact always_storeCode hφ hset
  | userLogin => exact hchecked hist
  | resetPassword => exact hchecked hist
  | other value => exact Always.pure _

theorem always_generateToken (hφ : OnWrites φ) (userId : String) : Always φ hist (JwtUtil.generateToken L cfg userId) :=
  ⟨hφ _ _ rfl rfl, fun _ => trivial⟩

theorem always_loginByCode {req : LoginByCodeRequest} (hφ : OnWrites φ) :
    Always φ hist (loginByCode L cfg (userRepository L) req) := by
  refine (VerificationCodeRepository.always_getCode fun _ _ => hφ _ _ rfl rfl).bind fun code tr _ => ?_
  split_ifs
  · exact Always.pure _
  · refine (UserDao.always_selectUser hφ).bind fun v tr _ => ?_
    match v with
    | .error e => exact Always.pure _
    | .ok none => exact Always.pure _
    | .ok (some user) => exact (always_generateToken hφ user.id).bind fun _ _ _ => Always.pure _

theorem always_loginByPassword {req : LoginByPasswordRequest} (hφ : OnWrites φ)
    (hget : ∀ hist, Always φ hist (repo.getUserById req.userId)) :
    Always φ hist (loginByPassword L cfg repo req) := by
  rw [loginByPassword_eq]
  refine (hget hist).bind fun v tr _ => ?_
  match v with
  | .error e => exact Always.pure _
  | .ok none => exact Always.pure _
  | .ok (some user) =>
      simp only [passwordAnswer]
      split_ifs
      · exact (always_generateToken hφ user.id).bind fun _ _ _ => Always.pure _
      · exact Always.pure _

end Always

end AuthService

end PhotonCommerce.Service
