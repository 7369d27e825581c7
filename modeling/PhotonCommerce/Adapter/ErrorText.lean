import PhotonCommerce.Adapter.Endpoints
import PhotonCommerce.Runtime.Reference

/-!
# Whether the text of an error reaches the client

* `Ans.withoutText` : an answer of PostgreSQL or Redis without the text of its error; two runs differ only in such
  texts when their events are equal without them;
* `TextRel E` : answers that differ only in texts, where the texts of thrown exceptions are related by `E`;
* `related_*` : with such answers every function of the service goes the same way; a `DbError` or `RedisError` keeps
  its text to itself, an exception carries it on;
* `Throws` : a thrown text is the outcome of the coroutine it is thrown in;
* `text_hidden_iff` : no other texts change what an RPC gives to `Finish` exactly when no statement of it threw.
-/

namespace PhotonCommerce
open Coroutine Domain Infrastructure

def RedisReply.withoutText : RedisReply → RedisReply
  | .adapterError _ => .adapterError ""
  | .simpleError _ => .simpleError ""
  | .blobError _ => .blobError ""
  | reply => reply

def Infrastructure.PGresult.withoutText (res : PGresult) : PGresult := { res with errorMessage := "" }

/-- The answer without the text of its error. -/
def Ans.withoutText : (o : Op) → Ans o → Ans o
  | .redisSet _ _ _ => fun (a : Except String Unit) => a.mapError fun _ => ""
  | .redisGet _ => fun (a : Except String RedisReply) => (a.map RedisReply.withoutText).mapError fun _ => ""
  | .execParams _ _ _ => fun (a : Except String (List PGresult)) =>
      (a.map (List.map PGresult.withoutText)).mapError fun _ => ""
  | .now => id
  | .uniformDigit => id
  | .rand32 => id
  | .generateBlock _ => id
  | .getConnection => id
  | .returnConnection _ => id
  | .coSpawn _ => id

/-- The event without the text of its error. -/
def withoutText (ev : Ev) : Ev := ⟨ev.op, Ans.withoutText ev.op ev.ans⟩

/-- A statement that ended in an exception. -/
def Threw (ev : Ev) (what : String) : Prop :=
  ∃ conn stmt params, ev = ⟨.execParams conn stmt params, (.error what : Except String (List PGresult))⟩

/-- Results equal up to the texts of their errors. -/
def SameResults (results results' : List PGresult) : Prop :=
  results.map PGresult.withoutText = results'.map PGresult.withoutText

/-- Answers equal up to the texts of their errors, those of exceptions related by `E`. -/
def TextRel (E : String → String → Prop) : (o : Op) → Ans o → Ans o → Prop
  | .execParams _ _ _ => fun (a a' : Except String (List PGresult)) => OutcomeRel SameResults E a a'
  | o => fun a a' => Ans.withoutText o a = Ans.withoutText o a'

/-! ## With other texts the service goes the same way -/

/-- The same value, or both an error. -/
def SameValue {ε α : Type} (r r' : Except ε α) : Prop := r.toOption = r'.toOption

theorem SameValue.cases {ε α : Type} {r r' : Except ε (Option α)} (h : SameValue r r') :
    (∃ e e', r = .error e ∧ r' = .error e') ∨ (r = .ok none ∧ r' = .ok none) ∨
      ∃ v, r = .ok (some v) ∧ r' = .ok (some v) := by
  match r, r' with
  | .error e, .error e' => exact .inl ⟨e, e', rfl, rfl⟩
  | .error e, .ok _ => cases h
  | .ok _, .error e' => cases h
  | .ok none, .ok none => exact .inr (.inl ⟨rfl, rfl⟩)
  | .ok none, .ok (some v') => cases h
  | .ok (some v), .ok none => cases h
  | .ok (some v), .ok (some v') =>
      cases h
      exact .inr (.inr ⟨v, rfl, rfl⟩)

namespace Infrastructure
variable {E : String → String → Prop} (hE : ∀ e, E e e)

theorem RedisClient.related_set (key value : String) (expiry : Int) :
    Related (TextRel E) SameValue E (RedisClient.set key value expiry) (RedisClient.set key value expiry) := by
  refine Related.perform_bind (Op.redisSet key value _) fun (a a' : Except String Unit) h => ?_
  change a.mapError _ = a'.mapError _ at h
  cases a <;> cases a' <;> first | exact Related.pure rfl | cases h

/-- `GET` keeps the text of its error to itself. -/
theorem RedisClient.related_get (key : String) :
    Related (TextRel E) SameValue E (RedisClient.get key) (RedisClient.get key) := by
  refine Related.perform_bind (Op.redisGet key) fun (a a' : Except String RedisReply) h => ?_
  change (a.map _).mapError _ = (a'.map _).mapError _ at h
  cases a with
  | error what =>
      cases a' with
      | error what' => exact Related.pure rfl
      | ok reply' => cases h
  | ok reply =>
      cases a' with
      | error what' => cases h
      | ok reply' =>
          have hreply : reply.withoutText = reply'.withoutText := Except.ok.inj h
          refine Related.pure ?_
          cases reply <;> cases reply' <;> cases hreply <;> rfl

theorem VerificationCodeRepository.related_saveCode (usage : CodeUsage) (target code : String) (expiry : Int) :
    Related (TextRel E) Eq E (saveCode usage target code expiry) (saveCode usage target code expiry) := by
  unfold saveCode
  cases getKeyPrefixForUsage usage with
  | error e => exact Related.pure rfl
  | ok keyPrefix => exact (RedisClient.related_set _ _ _).bind fun _ _ _ => Related.pure rfl

theorem VerificationCodeRepository.related_getCode (usage : CodeUsage) (target : String) :
    Related (TextRel E) Eq E (getCode usage target) (getCode usage target) := by
  unfold getCode
  cases getKeyPrefixForUsage usage with
  | error e => exact Related.pure rfl
  | ok keyPrefix =>
      refine (RedisClient.related_get _).bind fun v w h => ?_
      obtain ⟨e, e', rfl, rfl⟩ | ⟨rfl, rfl⟩ | ⟨value, rfl, rfl⟩ := h.cases <;> exact Related.pure rfl

/-- Results equal up to texts, or both an error. -/
def SameResult (r r' : Except DbError (Option PGresult)) : Prop :=
  SameValue (r.map (Option.map PGresult.withoutText)) (r'.map (Option.map PGresult.withoutText))

/-- The results decide between value and error without a look at the texts. -/
theorem sameResult_execResult {results results' : List PGresult} (h : SameResults results results') :
    SameResult (execResult results) (execResult results') := by
  unfold execResult
  rw [fetchRawResult_eq, fetchRawResult_eq]
  cases results with
  | nil =>
      cases results' with
      | nil => rfl
      | cons res' rest' => cases h
  | cons res rest =>
      cases results' with
      | nil => cases h
      | cons res' rest' =>
          have hres : res.withoutText = res'.withoutText := (List.cons.inj h).1
          have hstatus : res.status = res'.status := (congrArg PGresult.status hres :)
          simp only [List.head?_cons, mapResultToExpected, hstatus]
          split_ifs
          · rfl
          · exact congrArg (fun r => some (some r)) hres
          · rfl

theorem related_asyncExecParams (conn : Nat) (stmt : Statement) (params : List String) :
    Related (TextRel E) SameResult E (asyncExecParams conn stmt params) (asyncExecParams conn stmt params) := by
  refine Related.perform_bind (Op.execParams conn stmt params) fun (a a' : Except String (List PGresult)) h => ?_
  cases h with
  | error h => exact Related.throw h
  | ok h => exact Related.pure (sameResult_execResult h)

namespace UserDao

theorem related_createUser (user : User) :
    Related (TextRel E) SameValue E (createUser user) (createUser user) := by
  refine Related.perform_bind Op.getConnection fun (conn conn' : Nat) h => ?_
  obtain rfl : conn = conn' := h
  refine Related.finally ((related_asyncExecParams _ _ _).bind fun v w hvw => ?_) _
  cases v <;> cases w <;> first | exact Related.pure rfl | cases hvw

include hE

theorem related_selectUser (key : Key) (param : String) :
    Related (TextRel E) SameValue E (selectUser key param) (selectUser key param) := by
  refine Related.perform_bind Op.getConnection fun (conn conn' : Nat) h => ?_
  obtain rfl : conn = conn' := h
  refine Related.finally ((related_asyncExecParams _ _ _).bind fun v w hvw => ?_) _
  match v, w with
  | .error e, .error e' => exact Related.pure rfl
  | .error e, .ok _ => cases hvw
  | .ok _, .error e' => cases hvw
  | .ok none, .ok none => exact Related.pure rfl
  | .ok none, .ok (some res') => cases hvw
  | .ok (some res), .ok none => cases hvw
  | .ok (some res), .ok (some res') =>
      have hres : res.withoutText = res'.withoutText := Option.some.inj (Option.some.inj hvw)
      have hntuples : pqNtuples (some res) = pqNtuples (some res') := (congrArg (fun r => r.rows.length) hres :)
      have huser : mapRowToUser res 0 = mapRowToUser res' 0 := by
        change mapRowToUser res.withoutText 0 = mapRowToUser res'.withoutText 0
        rw [hres]
      simp only [hntuples, Option.map_some, huser]
      by_cases hempty : pqNtuples (some res') = 0
      · rw [if_pos hempty]
        exact Related.pure rfl
      · rw [if_neg hempty]
        cases mapRowToUser res' 0 with
        | error what => exact Related.throw (hE what)
        | ok user => exact Related.pure rfl

end UserDao

namespace UserRepository
variable (L : Libs)
include hE

theorem related_queryAndFill (id : String) :
    Related (TextRel E) SameValue E (queryAndFill L id) (queryAndFill L id) := by
  refine (UserDao.related_selectUser hE .id id).bind fun v w h => ?_
  obtain ⟨e, e', rfl, rfl⟩ | ⟨rfl, rfl⟩ | ⟨user, rfl, rfl⟩ := h.cases
  · exact Related.pure rfl
  · exact Related.pure rfl
  · exact (RedisClient.related_set _ _ _).bind fun _ _ _ => Related.pure rfl

theorem related_getUserById (id : String) :
    Related (TextRel E) SameValue E (getUserById L id) (getUserById L id) := by
  refine (RedisClient.related_get _).bind fun v w h => ?_
  obtain ⟨e, e', rfl, rfl⟩ | ⟨rfl, rfl⟩ | ⟨value, rfl, rfl⟩ := h.cases
  · exact related_queryAndFill hE L id
  · exact related_queryAndFill hE L id
  · dsimp only
    cases decode L value with
    | none => exact related_queryAndFill hE L id
    | some user => exact Related.pure rfl

end UserRepository

end Infrastructure

namespace Utils
variable {E : String → String → Prop} (hE : ∀ e, E e e)
include hE

theorem related_generateDigits (n : Nat) (code : String) :
    Related (TextRel E) Eq E (generateDigits n code) (generateDigits n code) := by
  refine Related.refl hE (Always.of_runs Ans.default fun tr₁ ev tr₂ out hrun a a' h => ?_)
  have hop : ev.op = .uniformDigit := runs_generateDigits hrun ev (by simp)
  revert a a' h
  rw [hop]
  exact fun _ _ h => h

theorem related_generateUUID : Related (TextRel E) Eq E IdGenerator.generateUUID IdGenerator.generateUUID :=
  Related.refl hE ⟨fun _ _ h => h, fun _ => ⟨fun _ _ h => h, fun _ => ⟨fun _ _ h => h, fun _ =>
    ⟨fun _ _ h => h, fun _ => trivial⟩⟩⟩⟩

theorem related_generateSalt : Related (TextRel E) Eq E SecurityUtil.generateSalt SecurityUtil.generateSalt :=
  Related.refl hE ⟨fun _ _ h => h, fun _ => trivial⟩

theorem related_generateToken (L : Libs) (cfg : JwtConfig) (userId : String) :
    Related (TextRel E) Eq E (JwtUtil.generateToken L cfg userId) (JwtUtil.generateToken L cfg userId) :=
  Related.refl hE ⟨fun _ _ h => h, fun _ => trivial⟩

end Utils

namespace Service
open Utils
variable {E : String → String → Prop} (hE : ∀ e, E e e) (L : Libs) (cfg : JwtConfig)
include hE

namespace AuthService

theorem related_storeCode (req : SendCodeRequest) : Related (TextRel E) Eq E (storeCode req) (storeCode req) := by
  refine (related_generateDigits hE 6 "").bind ?_
  rintro code - rfl
  exact (VerificationCodeRepository.related_saveCode _ _ _ _).bind fun _ _ _ => Related.pure rfl

theorem related_sendCode (req : SendCodeRequest) :
    Related (TextRel E) Eq E (sendCode (userRepository L) req) (sendCode (userRepository L) req) := by
  unfold sendCode
  cases req.usage with
  | userRegister => exact related_storeCode hE req
  | userLogin | resetPassword =>
      refine (UserDao.related_selectUser hE _ _).bind fun v w h => ?_
      obtain ⟨e, e', rfl, rfl⟩ | ⟨rfl, rfl⟩ | ⟨user, rfl, rfl⟩ := h.cases
      · exact Related.pure rfl
      · exact Related.pure rfl
      · exact related_storeCode hE req
  | other value => exact Related.pure rfl

theorem related_loginByCode (req : LoginByCodeRequest) : Related (TextRel E) Eq E
    (loginByCode L cfg (userRepository L) req) (loginByCode L cfg (userRepository L) req) := by
  refine (VerificationCodeRepository.related_getCode _ _).bind ?_
  rintro code - rfl
  split_ifs
  · exact Related.pure rfl
  · refine (UserDao.related_selectUser hE _ _).bind fun v w h => ?_
    obtain ⟨e, e', rfl, rfl⟩ | ⟨rfl, rfl⟩ | ⟨user, rfl, rfl⟩ := h.cases
    · exact Related.pure rfl
    · exact Related.pure rfl
    · exact (related_generateToken hE L cfg _).bind fun _ _ h => Related.pure (h ▸ rfl)

theorem related_loginByPassword (req : LoginByPasswordRequest) : Related (TextRel E) Eq E
    (loginByPassword L cfg (userRepository L) req) (loginByPassword L cfg (userRepository L) req) := by
  refine (UserRepository.related_getUserById hE L _).bind fun v w h => ?_
  obtain ⟨e, e', rfl, rfl⟩ | ⟨rfl, rfl⟩ | ⟨user, rfl, rfl⟩ := h.cases
  · exact Related.pure rfl
  · exact Related.pure rfl
  · dsimp only
    split_ifs
    · exact (related_generateToken hE L cfg _).bind fun _ _ h => Related.pure (h ▸ rfl)
    · exact Related.pure rfl

end AuthService

namespace BasicUserService

theorem related_register (req : RegisterRequest) : Related (TextRel E) Eq E
    (register L (userRepository L) req) (register L (userRepository L) req) := by
  refine (VerificationCodeRepository.related_getCode _ _).bind ?_
  rintro code - rfl
  split_ifs
  · exact Related.pure rfl
  · refine (UserDao.related_selectUser hE _ _).bind fun v w h => ?_
    obtain ⟨e, e', rfl, rfl⟩ | ⟨rfl, rfl⟩ | ⟨user, rfl, rfl⟩ := h.cases
    · exact Related.pure rfl
    · refine (related_generateUUID hE).bind ?_
      rintro userId - rfl
      refine (related_generateSalt hE).bind ?_
      rintro salt - rfl
      refine (UserDao.related_createUser _).bind fun v w h => ?_
      cases v <;> cases w <;> first | exact Related.pure rfl | cases h
    · exact Related.pure rfl

theorem related_getUserInfo (userId : String) : Related (TextRel E) Eq E
    (getUserInfo (userRepository L) userId) (getUserInfo (userRepository L) userId) := by
  refine (UserRepository.related_getUserById hE L _).bind fun v w h => ?_
  obtain ⟨e, e', rfl, rfl⟩ | ⟨rfl, rfl⟩ | ⟨user, rfl, rfl⟩ := h.cases <;> exact Related.pure rfl

end BasicUserService

end Service

namespace Adapter
open Service
variable {E : String → String → Prop} (hE : ∀ e, E e e) (L : Libs) (cfg : JwtConfig)
include hE

theorem related_callService (request : Request) (userId : String) : Related (TextRel E) Eq E
    (callService L cfg (userRepository L) request userId) (callService L cfg (userRepository L) request userId) := by
  cases request with
  | register username password phoneNumber code =>
      exact (BasicUserService.related_register hE L _).bind fun _ _ h => Related.pure (h ▸ rfl)
  | sendCode phoneNumber usage =>
      exact (AuthService.related_sendCode hE L _).bind fun _ _ h => Related.pure (h ▸ rfl)
  | loginByPassword user password =>
      exact (AuthService.related_loginByPassword hE L cfg _).bind fun _ _ h => Related.pure (h ▸ rfl)
  | loginByCode phoneNumber code =>
      exact (AuthService.related_loginByCode hE L cfg _).bind fun _ _ h => Related.pure (h ▸ rfl)
  | getUserInfo => exact (BasicUserService.related_getUserInfo hE L _).bind fun _ _ h => Related.pure (h ▸ rfl)

theorem related_runSpecificLogic (request : Request) (userId : String) : Related (TextRel E) Eq E
    (runSpecificLogic L cfg (userRepository L) request userId)
    (runSpecificLogic L cfg (userRepository L) request userId) :=
  (related_callService hE L cfg request userId).bind fun _ _ h => Related.pure (h ▸ rfl)

/-- The same reply and status, or two exceptions with related texts. -/
def SameReply (E : String → String → Prop) (x y : Reply × GrpcStatus) : Prop :=
  x = y ∨ ∃ what what', E what what' ∧ x = onLogicFinished (.error what) ∧ y = onLogicFinished (.error what')

theorem related_runLogic (request : Request) (userId : String) : Related (TextRel E) (SameReply E) E
    (runLogic L cfg (userRepository L) request userId) (runLogic L cfg (userRepository L) request userId) := by
  refine Related.perform_bind (Op.coSpawn userId) fun _ _ _ => ?_
  refine (related_runSpecificLogic hE L cfg request userId).attempt.bind fun v w h => ?_
  cases h with
  | ok h => exact Related.pure (.inl (h ▸ rfl))
  | error h => exact Related.pure (.inr ⟨_, _, h, rfl, rfl⟩)

/-- **An RPC with other error texts.** -/
theorem related_serve (request : Request) (md : Metadata) : Related (TextRel E) (SameReply E) E
    (serve L cfg (userRepository L) request md) (serve L cfg (userRepository L) request md) := by
  have hauth : Related (TextRel E) Eq E (performAuthentication L cfg md) (performAuthentication L cfg md) := by
    refine Related.refl hE (Always.of_runs Ans.default fun tr₁ ev tr₂ out hrun a a' h => ?_)
    have hop : ev.op = .now := (runs_performAuthentication hrun).1 ev (by simp)
    revert a a' h
    rw [hop]
    exact fun _ _ h => h
  unfold serve
  split_ifs
  · refine hauth.bind ?_
    rintro v - rfl
    cases v with
    | error status => exact Related.pure (.inl rfl)
    | ok userId => exact related_runLogic hE L cfg request userId
  · exact related_runLogic hE L cfg request ""

end Adapter

/-! ## A thrown text is carried to the end -/

theorem not_threw {o : Op} (h : ∀ conn stmt params, o ≠ .execParams conn stmt params) (a : Ans o) (what : String) :
    ¬ Threw ⟨o, a⟩ what := by
  rintro ⟨conn, stmt, params, heq⟩
  exact h conn stmt params (congrArg Event.op heq)

/-- An operation that is no statement. -/
theorem carries_perform_bind {α : Type} {o : Op} (ho : ∀ conn stmt params, o ≠ .execParams conn stmt params)
    {f : Ans o → Prog α} (hf : ∀ a, Carries Threw (f a)) : Carries Threw (perform o >>= f) := by
  refine Carries.bind (p := perform o) (Carries.of_always ?_) hf
  exact ⟨not_threw ho, fun _ => trivial⟩

namespace Infrastructure

theorem carries_asyncExecParams (conn : Nat) (stmt : Statement) (params : List String) :
    Carries Threw (asyncExecParams conn stmt params) := by
  rintro tr out hrun ev hev what ⟨conn', stmt', params', rfl⟩
  obtain ⟨a, tr', rfl, hrest⟩ := runs_execParams_bind.mp hrun
  cases a with
  | error what' =>
      obtain ⟨rfl, rfl⟩ := hrest
      cases List.mem_singleton.mp hev
      rfl
  | ok results =>
      obtain ⟨rfl, -⟩ := hrest
      cases List.mem_singleton.mp hev

theorem RedisClient.carries_set (key value : String) (expiry : Int) : Carries Threw (set key value expiry) :=
  Carries.of_always (RedisClient.always_set (not_threw nofun))

theorem RedisClient.carries_get (key : String) : Carries Threw (get key) :=
  Carries.of_always (RedisClient.always_get (not_threw nofun))

theorem VerificationCodeRepository.carries_saveCode (usage : CodeUsage) (target code : String) (expiry : Int) :
    Carries Threw (saveCode usage target code expiry) :=
  Carries.of_always (always_saveCode fun _ _ => not_threw nofun)

theorem VerificationCodeRepository.carries_getCode (usage : CodeUsage) (target : String) :
    Carries Threw (getCode usage target) := Carries.of_always (always_getCode fun _ _ => not_threw nofun)

namespace UserDao

theorem carries_selectUser (key : Key) (param : String) : Carries Threw (selectUser key param) := by
  refine carries_perform_bind (o := .getConnection) nofun fun conn => ?_
  refine ((carries_asyncExecParams _ _ _).bind fun v => ?_).finally (not_threw nofun)
  cases v with
  | error e => exact Carries.pure _
  | ok result =>
      dsimp only
      split_ifs
      · exact Carries.pure _
      · split
        · exact Carries.pure _
        · exact Carries.throw _
        · exact Carries.pure _

theorem carries_createUser (user : User) : Carries Threw (createUser user) := by
  refine carries_perform_bind (o := .getConnection) nofun fun conn => ?_
  refine ((carries_asyncExecParams _ _ _).bind fun v => ?_).finally (not_threw nofun)
  cases v <;> exact Carries.pure _

end UserDao

namespace UserRepository
variable (L : Libs)

theorem carries_queryAndFill (id : String) : Carries Threw (queryAndFill L id) := by
  refine (UserDao.carries_selectUser .id id).bind fun v => ?_
  match v with
  | .error e => exact Carries.pure _
  | .ok none => exact Carries.pure _
  | .ok (some user) => exact (RedisClient.carries_set _ _ _).bind fun _ => Carries.pure _

theorem carries_getUserById (id : String) : Carries Threw (getUserById L id) := by
  refine (RedisClient.carries_get _).bind fun v => ?_
  match v with
  | .error e => exact carries_queryAndFill L id
  | .ok none => exact carries_queryAndFill L id
  | .ok (some value) =>
      dsimp only
      cases decode L value with
      | none => exact carries_queryAndFill L id
      | some user => exact Carries.pure _

end UserRepository

end Infrastructure

namespace Service
open Utils
variable (L : Libs) (cfg : JwtConfig)

theorem carries_generateToken (userId : String) : Carries Threw (JwtUtil.generateToken L cfg userId) :=
  Carries.of_always ⟨not_threw nofun, fun _ => trivial⟩

namespace AuthService

theorem carries_storeCode (req : SendCodeRequest) : Carries Threw (storeCode req) := by
  refine Carries.bind (Carries.of_always (Always.of_runs Ans.default fun tr₁ ev tr₂ out hrun => ?_)) fun code =>
    (VerificationCodeRepository.carries_saveCode _ _ _ _).bind fun _ => Carries.pure _
  rw [runs_generateDigits hrun ev (by simp)]
  exact not_threw nofun

theorem carries_sendCode (req : SendCodeRequest) : Carries Threw (sendCode (userRepository L) req) := by
  unfold sendCode
  cases req.usage with
  | userRegister => exact carries_storeCode req
  | userLogin | resetPassword =>
      refine (UserDao.carries_selectUser _ _).bind fun v => ?_
      match v with
      | .error e => exact Carries.pure _
      | .ok none => exact Carries.pure _
      | .ok (some user) => exact carries_storeCode req
  | other value => exact Carries.pure _

theorem carries_loginByCode (req : LoginByCodeRequest) :
    Carries Threw (loginByCode L cfg (userRepository L) req) := by
  refine (VerificationCodeRepository.carries_getCode _ _).bind fun code => ?_
  split_ifs
  · exact Carries.pure _
  · refine (UserDao.carries_selectUser _ _).bind fun v => ?_
    match v with
    | .error e => exact Carries.pure _
    | .ok none => exact Carries.pure _
    | .ok (some user) => exact (carries_generateToken L cfg _).bind fun _ => Carries.pure _

theorem carries_loginByPassword (req : LoginByPasswordRequest) :
    Carries Threw (loginByPassword L cfg (userRepository L) req) := by
  refine (UserRepository.carries_getUserById L _).bind fun v => ?_
  match v with
  | .error e => exact Carries.pure _
  | .ok none => exact Carries.pure _
  | .ok (some user) =>
      dsimp only
      split_ifs
      · exact (carries_generateToken L cfg _).bind fun _ => Carries.pure _
      · exact Carries.pure _

end AuthService

namespace BasicUserService

theorem carries_register (req : RegisterRequest) : Carries Threw (register L (userRepository L) req) := by
  refine (VerificationCodeRepository.carries_getCode _ _).bind fun code => ?_
  split_ifs
  · exact Carries.pure _
  · refine (UserDao.carries_selectUser _ _).bind fun v => ?_
    match v with
    | .error e => exact Carries.pure _
    | .ok (some user) => exact Carries.pure _
    | .ok none =>
        refine Carries.bind (p := IdGenerator.generateUUID) ?_ fun userId => ?_
        · exact Carries.of_always ⟨not_threw nofun, fun _ => ⟨not_threw nofun, fun _ => ⟨not_threw nofun, fun _ =>
            ⟨not_threw nofun, fun _ => trivial⟩⟩⟩⟩
        · refine Carries.bind (p := SecurityUtil.generateSalt) ?_ fun salt => ?_
          · exact Carries.of_always ⟨not_threw nofun, fun _ => trivial⟩
          · refine (UserDao.carries_createUser _).bind fun v => ?_
            cases v <;> exact Carries.pure _

theorem carries_getUserInfo (userId : String) : Carries Threw (getUserInfo (userRepository L) userId) := by
  refine (UserRepository.carries_getUserById L _).bind fun v => ?_
  match v with
  | .error e => exact Carries.pure _
  | .ok none => exact Carries.pure _
  | .ok (some user) => exact Carries.pure _

end BasicUserService

end Service

namespace Adapter
open Service
variable (L : Libs) (cfg : JwtConfig)

theorem carries_callService (request : Request) (userId : String) :
    Carries Threw (callService L cfg (userRepository L) request userId) := by
  cases request with
  | register username password phoneNumber code =>
      exact (BasicUserService.carries_register L _).bind fun _ => Carries.pure _
  | sendCode phoneNumber usage => exact (AuthService.carries_sendCode L _).bind fun _ => Carries.pure _
  | loginByPassword user password => exact (AuthService.carries_loginByPassword L cfg _).bind fun _ => Carries.pure _
  | loginByCode phoneNumber code => exact (AuthService.carries_loginByCode L cfg _).bind fun _ => Carries.pure _
  | getUserInfo => exact (BasicUserService.carries_getUserInfo L _).bind fun _ => Carries.pure _

theorem carries_runSpecificLogic (request : Request) (userId : String) :
    Carries Threw (runSpecificLogic L cfg (userRepository L) request userId) :=
  (carries_callService L cfg request userId).bind fun _ => Carries.pure _

variable {L cfg} {request : Request} {md : Metadata} {tr : List Ev}

/-- **The text of an exception is the message of the gRPC status.** -/
theorem serve_threw {out : Except String (Reply × GrpcStatus)}
    (hrun : Runs (serve L cfg (userRepository L) request md) tr out) {ev : Ev} {what : String} (hev : ev ∈ tr)
    (hthrew : Threw ev what) : out = .ok (default, ⟨.internal, what⟩) := by
  have hnow : ∀ tr' r, Runs (performAuthentication L cfg md) tr' r → ev ∉ tr' := by
    intro tr' r hauth hmem
    obtain ⟨conn, stmt, params, rfl⟩ := hthrew
    cases (runs_performAuthentication hauth).1 _ hmem
  rcases runs_serve hrun with ⟨status, -, hauth, -⟩ | ⟨tr₀, userId, tr₁, result, rfl, hauth, hlogic, rfl⟩
  · exact absurd hev (hnow _ _ hauth)
  · rcases List.mem_append.mp hev with hev | hev
    · unfold AuthenticatedAs at hauth
      split_ifs at hauth
      · exact absurd hev (hnow _ _ hauth)
      · rw [hauth.1] at hev
        cases hev
    · rcases List.mem_cons.mp hev with rfl | hev
      · exact absurd hthrew (not_threw (o := .coSpawn userId) nofun () what)
      · rw [carries_runSpecificLogic L cfg request userId tr₁ result hlogic ev hev what hthrew]
        rfl

/-! ## Two runs that differ in texts only -/

theorem rel_of_withoutText {ev ev' : Ev} (h : withoutText ev = withoutText ev') (hev : ∀ what, ¬ Threw ev what) :
    Event.Rel (TextRel Eq) ev ev' := by
  obtain ⟨o, a⟩ := ev
  obtain ⟨o', a'⟩ := ev'
  obtain rfl : o = o' := congrArg Event.op h
  have ha : Ans.withoutText o a = Ans.withoutText o a' := eq_of_heq (Event.mk.inj h).2
  refine ⟨o, a, a', ?_⟩
  cases o with
  | execParams conn stmt params =>
      change Except String (List PGresult) at a a'
      cases a with
      | error what => exact absurd ⟨conn, stmt, params, rfl⟩ (hev what)
      | ok results =>
          cases a' with
          | error what' => cases ha
          | ok results' => exact .ok (Except.ok.inj ha)
  | _ => exact ha

theorem forall₂_of_withoutText {tr tr' : List Ev} (h : tr.map withoutText = tr'.map withoutText)
    (htr : ∀ ev ∈ tr, ∀ what, ¬ Threw ev what) : List.Forall₂ (Event.Rel (TextRel Eq)) tr tr' := by
  induction tr generalizing tr' with
  | nil =>
      rw [List.map_eq_nil_iff.mp h.symm]
      exact .nil
  | cons ev tr ih =>
      obtain ⟨ev', tr₁, rfl, hev, hrest⟩ := List.map_eq_cons_iff.mp h.symm
      exact .cons (rel_of_withoutText hev.symm (htr ev List.mem_cons_self))
        (ih hrest.symm fun e he => htr e (List.mem_cons_of_mem _ he))

/-- Another text for every exception of a statement. -/
def Ans.otherText : (o : Op) → Ans o → Ans o
  | .execParams _ _ _ => fun (a : Except String (List PGresult)) => a.mapError fun what => what ++ "!"
  | _ => id

theorem textRel_otherText (o : Op) (a : Ans o) : TextRel (fun _ _ => True) o a (Ans.otherText o a) := by
  cases o with
  | execParams conn stmt params =>
      change Except String (List PGresult) at a
      cases a with
      | error what => exact .error trivial
      | ok results => exact .ok rfl
  | _ => rfl

theorem withoutText_otherText (ev : Ev) : withoutText ⟨ev.op, Ans.otherText ev.op ev.ans⟩ = withoutText ev := by
  obtain ⟨o, a⟩ := ev
  cases o with
  | execParams conn stmt params =>
      change Except String (List PGresult) at a
      cases a <;> rfl
  | _ => rfl

variable (L cfg request md)

/-- **The texts of internal errors stay hidden exactly when no statement throws.** Of an RPC that ended, every run that
differs only in the texts of the errors of PostgreSQL and Redis gives the same reply and status to `Finish` if and only
if no statement of the RPC ended in an exception (a failed send, wait or consume). -/
theorem text_hidden_iff {tr : List Ev} {reply : Reply} {status : GrpcStatus}
    (h : Runs (serve L cfg (userRepository L) request md) tr (.ok (reply, status))) :
    (∀ tr' reply' status', tr'.map withoutText = tr.map withoutText →
      Runs (serve L cfg (userRepository L) request md) tr' (.ok (reply', status')) →
        reply' = reply ∧ status' = status) ↔ ∀ ev ∈ tr, ∀ what, ¬ Threw ev what := by
  constructor
  · intro hsame ev hev what hthrew
    obtain ⟨out', hrun'⟩ := (related_serve (fun _ => trivial) L cfg request md).exists_run textRel_otherText h
    -- the same run, with another text of the exception
    have hmem : (⟨ev.op, Ans.otherText ev.op ev.ans⟩ : Ev) ∈ tr.map fun ev => ⟨ev.op, Ans.otherText ev.op ev.ans⟩ :=
      List.mem_map_of_mem hev
    have hout := serve_threw h hev hthrew
    have hthrew' : Threw ⟨ev.op, Ans.otherText ev.op ev.ans⟩ (what ++ "!") := by
      obtain ⟨conn, stmt, params, rfl⟩ := hthrew
      exact ⟨conn, stmt, params, rfl⟩
    have hout' := serve_threw hrun' hmem hthrew'
    subst hout'
    obtain ⟨-, hstatus⟩ := hsame _ _ _ (by simp [withoutText_otherText]) hrun'
    cases hout
    have hlen := congrArg String.length (congrArg GrpcStatus.message hstatus)
    simp at hlen
  · intro htr tr' reply' status' htext hrun'
    have hrel := (related_serve (fun _ => rfl) L cfg request md).runs (forall₂_of_withoutText htext.symm htr) h hrun'
    cases hrel with
    | ok hreply =>
        rcases hreply with hreply | ⟨what, what', rfl, hx, hy⟩
        · cases hreply
          exact ⟨rfl, rfl⟩
        · cases hx.trans hy.symm
          exact ⟨rfl, rfl⟩

/-- A `SendCode` whose lookup was answered so. -/
def lookedUp (b : Except String (List PGresult)) : List Ev :=
  ⟨.coSpawn "", ()⟩ :: UserDao.callEvents 0 (.selectWhere UserDao.selectColumns .phoneNumber) ["13800000000"] b

theorem runs_unsent (what : String) :
    Runs (serve L cfg (userRepository L) (.sendCode "13800000000" 2) []) (lookedUp (.error what))
      (.ok (default, ⟨.internal, what⟩)) := by
  have hlookup : Runs (UserDao.selectUser .phoneNumber "13800000000") _ (.error what) :=
    UserDao.runs_selectUser.mpr ⟨0, .error what, rfl, rfl⟩
  have hsend : Runs (AuthService.sendCode (userRepository L) ⟨"13800000000", .userLogin⟩) _ (.error what) :=
    runs_bind.mpr (.inr ⟨what, rfl, hlookup⟩)
  have hlogic : Runs (runSpecificLogic L cfg (userRepository L) (.sendCode "13800000000" 2) "")
      (UserDao.callEvents 0 (.selectWhere UserDao.selectColumns .phoneNumber) ["13800000000"] (.error what))
      (.error what) := by
    rw [runSpecificLogic_sendCode]
    exact runs_map.mpr ⟨_, hsend, rfl⟩
  have hauth : AuthenticatedAs L cfg (.sendCode "13800000000" 2) [] [] "" := ⟨rfl, rfl⟩
  exact runs_serve_of hauth hlogic

/-- The text of a failed send reaches the client. -/
theorem text_shown : ¬ ∀ (L : Libs) (cfg : JwtConfig) (request : Request) (md : Metadata) (tr tr' : List Ev)
    (reply reply' : Reply) (status status' : GrpcStatus), tr'.map withoutText = tr.map withoutText →
      Runs (serve L cfg (userRepository L) request md) tr (.ok (reply, status)) →
      Runs (serve L cfg (userRepository L) request md) tr' (.ok (reply', status')) →
        reply' = reply ∧ status' = status := by
  intro h
  have h₁ := runs_unsent (.reference .alice) .photon "Failed to send query: no connection to the server"
  have h₂ := runs_unsent (.reference .alice) .photon "Failed to send query: connection not open"
  have hsame : (lookedUp (.error "Failed to send query: connection not open")).map withoutText =
      (lookedUp (.error "Failed to send query: no connection to the server")).map withoutText := rfl
  have hstatus := (h _ _ _ _ _ _ _ _ _ _ hsame h₁ h₂).2
  exact absurd (congrArg GrpcStatus.message hstatus) (by decide)

/-- A lookup that the database cancelled. -/
def cancelled : Except String (List PGresult) :=
  .ok [⟨.fatalError, [], "ERROR: canceling statement due to user request", some "57014"⟩]

theorem runs_cancelled : Runs (serve L cfg (userRepository L) (.sendCode "13800000000" 2) []) (lookedUp cancelled)
    (.ok ({ status := some ⟨1000, "系统内部错误"⟩ }, .OK)) := by
  have hlookup : Runs (UserDao.selectUser .phoneNumber "13800000000") _ _ :=
    UserDao.runs_selectUser.mpr ⟨0, cancelled, rfl, rfl⟩
  have hsend : Runs (AuthService.sendCode (userRepository L) ⟨"13800000000", .userLogin⟩) _
      (.ok ⟨.internalError, "系统内部错误"⟩) :=
    runs_bind.mpr (.inl ⟨_, _, [], (List.append_nil _).symm, hlookup, rfl, rfl⟩)
  have hlogic : Runs (runSpecificLogic L cfg (userRepository L) (.sendCode "13800000000" 2) "")
      (UserDao.callEvents 0 (.selectWhere UserDao.selectColumns .phoneNumber) ["13800000000"] cancelled)
      (.ok { status := some ⟨1000, "系统内部错误"⟩ }) := by
    rw [runSpecificLogic_sendCode]
    exact runs_map.mpr ⟨_, hsend, rfl⟩
  have hauth : AuthenticatedAs L cfg (.sendCode "13800000000" 2) [] [] "" := ⟨rfl, rfl⟩
  exact runs_serve_of hauth hlogic

/-- Whatever the database says when it cancels the lookup, the client gets the same answer. -/
theorem text_hidden_iff_cancelled :
    Runs (serve (.reference .alice) .photon (userRepository (.reference .alice)) (.sendCode "13800000000" 2) [])
      (lookedUp cancelled) (.ok ({ status := some ⟨1000, "系统内部错误"⟩ }, .OK)) ∧
    ∀ tr' reply' status', tr'.map withoutText = (lookedUp cancelled).map withoutText →
      Runs (serve (.reference .alice) .photon (userRepository (.reference .alice)) (.sendCode "13800000000" 2) []) tr'
        (.ok (reply', status')) →
      reply' = { status := some ⟨1000, "系统内部错误"⟩ } ∧ status' = .OK := by
  refine ⟨runs_cancelled _ _, (text_hidden_iff _ _ _ _ (runs_cancelled _ _)).mpr fun ev hev what hthrew => ?_⟩
  obtain ⟨conn, stmt, params, rfl⟩ := hthrew
  simp only [lookedUp, cancelled, UserDao.callEvents, List.mem_cons, List.not_mem_nil, or_false] at hev
  rcases hev with hev | hev | hev | hev <;> cases hev

end Adapter

end PhotonCommerce
