import PhotonCommerce.Adapter.CallData
import PhotonCommerce.Service.AuthService
import PhotonCommerce.Service.BasicUserService

/-!
# The five endpoints

* `Request`, `Reply` : the messages of the RPCs;
* `performAuthentication` : the `authorization` header and its token;
* `callService`, `fillReply` : the two halves of the `RunSpecificLogic` of each `CallData` type: the call of its
  business service, and the writes of the result into `reply_`, field by field; `runSpecificLogic` : both, on a fresh
  reply;
* `serve` : one RPC from its delivery to `Finish`: authentication where required, the coroutine, its completion
  handler;
* `endpoints` : the services and these writes as the `Logic` of the `CallData` objects; `finishes_endpoints_iff` : the
  objects answer with it what `serve` does.
-/

namespace PhotonCommerce.Adapter
open Coroutine Domain Utils Infrastructure Service

/-- The request messages. -/
inductive Request where
  | register (username password phoneNumber code : String)
  | sendCode (phoneNumber : String) (usage : Int)
  | loginByPassword (userId password : String)
  | loginByCode (phoneNumber code : String)
  | getUserInfo
  deriving DecidableEq, Repr

/-- The endpoint of a request. -/
def Request.rpc : Request → Rpc
  | .register .. => .register
  | .sendCode .. => .sendCode
  | .loginByPassword .. => .loginByPassword
  | .loginByCode .. => .loginByCode
  | .getUserInfo => .getUserInfo

/-- `proto::v1::CommonStatus`. -/
structure StatusMessage where
  code : Int
  message : String
  deriving DecidableEq, Repr

/-- The user of a `GetUserInfoResponse`. -/
structure UserMessage where
  userId : String
  username : String
  email : String
  avatarUrl : String
  phoneNumber : String
  deriving DecidableEq, Repr

/-- The fields of the reply messages; a field that was not set has its default. -/
structure Reply where
  status : Option StatusMessage := none
  userId : String := ""
  token : String := ""
  user : Option UserMessage := none
  deriving DecidableEq, Repr

/-- The status code of a reply. -/
def Reply.code (reply : Reply) : Option Int := reply.status.map StatusMessage.code

/-- The metadata of an RPC. -/
abbrev Metadata := List (String × String)

instance : Inhabited Reply := ⟨{}⟩

instance : Inhabited Request := ⟨.getUserInfo⟩

/-- `status->set_code(...); status->set_message(...);`. -/
def statusMessage (status : CommonStatus) : StatusMessage := ⟨status.code.value, status.message⟩

/-- The text without a leading `Bearer `. -/
def stripBearer (value : String) : String :=
  if "Bearer ".toList <+: value.toList then String.ofList (value.toList.drop 7) else value

/-- The token of the `authorization` header. -/
def bearerToken (md : Metadata) : Option String := (md.lookup "authorization").map stripBearer

theorem code_eq_success {reply : Reply} {status : CommonStatus} (h : reply.status = some (statusMessage status)) :
    reply.code = some 0 ↔ status.code = .success := by
  simp only [Reply.code, h, Option.map_some, statusMessage, Option.some.injEq, ErrorCode.value_eq_zero]

section Endpoints
variable (L : Libs) (cfg : JwtConfig)

/-- `CallData::PerformAuthentication`. -/
def performAuthentication (md : Metadata) : Prog (Except GrpcStatus String) := do
  match bearerToken md with
  | none => return .error ⟨.unauthenticated, "Missing Authorization Header"⟩
  | some token =>
      match ← JwtUtil.verifyToken L cfg token with
      | .error _ => return .error ⟨.unauthenticated, "Invalid Token"⟩
      | .ok userId => return .ok userId

/-- What the business service of an endpoint answers. -/
inductive ServiceResult where
  | register (response : RegisterResponse)
  | sendCode (response : CommonStatus)
  | login (result : LoginResult)
  | getUserInfo (response : GetUserInfoResponse)

/-- The `co_await` of the business service in `RunSpecificLogic`. -/
def callService (repo : IUserRepository) (request : Request) (userId : String) : Prog ServiceResult :=
  match request with
  | .register username password phoneNumber code => do
      let response ← BasicUserService.register L repo ⟨username, password, phoneNumber, code⟩
      return .register response
  | .sendCode phoneNumber usage => do
      let response ← AuthService.sendCode repo ⟨phoneNumber, .ofInt usage⟩
      return .sendCode response
  | .loginByPassword user password => do
      let result ← AuthService.loginByPassword L cfg repo ⟨user, password⟩
      return .login result
  | .loginByCode phoneNumber code => do
      let result ← AuthService.loginByCode L cfg repo ⟨phoneNumber, code⟩
      return .login result
  | .getUserInfo => do
      let response ← BasicUserService.getUserInfo repo userId
      return .getUserInfo response

/-- `auto* status = reply_.mutable_status();` and its two fields. -/
def Reply.setStatus (reply : Reply) (status : CommonStatus) : Reply :=
  { reply with status := some (statusMessage status) }

/-- What `RunSpecificLogic` writes into `reply_`. Token and user are written on success only; a field that is not
written keeps what it held. -/
def fillReply : ServiceResult → Reply → Reply
  | .register response, reply => { reply.setStatus response.status with userId := response.userId }
  | .sendCode response, reply => reply.setStatus response
  | .login result, reply => { reply.setStatus result.status with
      token := if result.status.code = .success then result.token else reply.token }
  | .getUserInfo response, reply => { reply.setStatus response.status with
      user := if response.status.code = .success then
          some ⟨response.userId, response.username, response.email, response.avatarUrl, response.phoneNumber⟩
        else reply.user }

/-- `RunSpecificLogic` of each endpoint, on a fresh reply. -/
def runSpecificLogic (repo : IUserRepository) (request : Request) (userId : String) : Prog Reply := do
  let result ← callService L cfg repo request userId
  return fillReply result default

/-- The reply of `Register`. -/
def registerReply (response : RegisterResponse) : Reply := fillReply (.register response) default

/-- The reply of `SendCode`. -/
def sendCodeReply (response : CommonStatus) : Reply := fillReply (.sendCode response) default

/-- The reply of the two logins. -/
def loginReply (result : LoginResult) : Reply := fillReply (.login result) default

/-- The reply of `GetUserInfo`. -/
def getUserInfoReply (response : GetUserInfoResponse) : Reply := fillReply (.getUserInfo response) default

theorem loginReply_token {result : LoginResult} (h : result.status.code = .success) :
    (loginReply result).token = result.token := if_pos h

theorem getUserInfoReply_user {response : GetUserInfoResponse} {user : UserMessage}
    (h : (getUserInfoReply response).user = some user) : response.status.code = .success ∧
      user = ⟨response.userId, response.username, response.email, response.avatarUrl, response.phoneNumber⟩ := by
  have hite : (if response.status.code = .success then
      some ⟨response.userId, response.username, response.email, response.avatarUrl, response.phoneNumber⟩
    else none : Option UserMessage) = some user := h
  rw [Option.ite_none_right_eq_some, Option.some.injEq] at hite
  exact ⟨hite.1, hite.2.symm⟩

section Equations
variable (repo : IUserRepository) (userId : String)

theorem runSpecificLogic_register (username password phoneNumber code : String) :
    runSpecificLogic L cfg repo (.register username password phoneNumber code) userId = (do
      let response ← BasicUserService.register L repo ⟨username, password, phoneNumber, code⟩
      return registerReply response) := Co.bind_assoc _ _ _

theorem runSpecificLogic_sendCode (phoneNumber : String) (usage : Int) :
    runSpecificLogic L cfg repo (.sendCode phoneNumber usage) userId = (do
      let response ← AuthService.sendCode repo ⟨phoneNumber, .ofInt usage⟩
      return sendCodeReply response) := Co.bind_assoc _ _ _

theorem runSpecificLogic_loginByPassword (user password : String) :
    runSpecificLogic L cfg repo (.loginByPassword user password) userId = (do
      let result ← AuthService.loginByPassword L cfg repo ⟨user, password⟩
      return loginReply result) := Co.bind_assoc _ _ _

theorem runSpecificLogic_loginByCode (phoneNumber code : String) :
    runSpecificLogic L cfg repo (.loginByCode phoneNumber code) userId = (do
      let result ← AuthService.loginByCode L cfg repo ⟨phoneNumber, code⟩
      return loginReply result) := Co.bind_assoc _ _ _

theorem runSpecificLogic_getUserInfo : runSpecificLogic L cfg repo .getUserInfo userId = (do
    let response ← BasicUserService.getUserInfo repo userId
    return getUserInfoReply response) := Co.bind_assoc _ _ _

end Equations

/-- The business coroutine and its completion handler, `OnLogicFinished`. -/
def runLogic (repo : IUserRepository) (request : Request) (userId : String) : Prog (Reply × GrpcStatus) := do
  coSpawn userId
  match ← (runSpecificLogic L cfg repo request userId).attempt with
  | .ok reply => return (reply, .OK)
  | .error what => return (default, ⟨.internal, what⟩)

/-- One RPC: the reply and the status given to `responder_.Finish`. -/
def serve (repo : IUserRepository) (request : Request) (md : Metadata) : Prog (Reply × GrpcStatus) := do
  if request.rpc.kRequiresAuth then
    match ← performAuthentication L cfg md with
    | .error status => return (default, status)
    | .ok userId => runLogic L cfg repo request userId
  else runLogic L cfg repo request ""

/-! ## Runs -/

/-- What `OnLogicFinished` gives to `Finish`. -/
def onLogicFinished : Except String Reply → Reply × GrpcStatus
  | .ok reply => (reply, .OK)
  | .error what => (default, ⟨.internal, what⟩)

variable {L cfg} {repo : IUserRepository} {request : Request} {md : Metadata} {userId : String} {tr : List Ev}

theorem runs_runLogic {out : Except String (Reply × GrpcStatus)} :
    Runs (runLogic L cfg repo request userId) tr out ↔ ∃ tr' result, tr = ⟨.coSpawn userId, ()⟩ :: tr' ∧
      Runs (runSpecificLogic L cfg repo request userId) tr' result ∧ out = .ok (onLogicFinished result) := by
  unfold runLogic
  rw [runs_coSpawn_bind]
  constructor
  · rintro ⟨tr', rfl, h⟩
    rcases runs_bind.mp h with ⟨v, tr₁, tr₂, rfl, hlogic, hrest⟩ | ⟨e, -, hlogic⟩
    · obtain ⟨r, hv, hr⟩ := runs_attempt.mp hlogic
      obtain rfl := Except.ok.inj hv
      cases v with
      | ok reply =>
          obtain ⟨rfl, rfl⟩ := hrest
          exact ⟨tr₁, _, by rw [List.append_nil], hr, rfl⟩
      | error what =>
          obtain ⟨rfl, rfl⟩ := hrest
          exact ⟨tr₁, _, by rw [List.append_nil], hr, rfl⟩
    · obtain ⟨r, hv, -⟩ := runs_attempt.mp hlogic
      cases hv
  · rintro ⟨tr', result, rfl, h, rfl⟩
    refine ⟨tr', rfl, ?_⟩
    rw [← List.append_nil tr']
    refine Runs.bind (runs_attempt.mpr ⟨result, rfl, h⟩) ?_
    cases result <;> exact ⟨rfl, rfl⟩

/-- `PerformAuthentication` reads the clock only and never throws; when it passes, the token of the header did. -/
theorem runs_performAuthentication {out : Except String (Except GrpcStatus String)}
    (h : Runs (performAuthentication L cfg md) tr out) :
    (∀ ev ∈ tr, ev.op = .now) ∧ ∃ r, out = .ok r ∧ ∀ userId, r = .ok userId →
      ∃ token, bearerToken md = some token ∧ Runs (JwtUtil.verifyToken L cfg token) tr (.ok (.ok userId)) := by
  unfold performAuthentication at h
  cases htoken : bearerToken md with
  | none =>
      simp only [htoken] at h
      obtain ⟨rfl, rfl⟩ := h
      exact ⟨by simp, _, rfl, fun userId hr => by cases hr⟩
  | some token =>
      simp only [htoken] at h
      rcases runs_bind.mp h with ⟨v, tr₁, tr₂, rfl, hverify, hrest⟩ | ⟨e, -, hverify⟩
      · have hnow := (JwtUtil.runs_verifyToken hverify).1
        cases v with
        | error e =>
            obtain ⟨rfl, rfl⟩ := hrest
            exact ⟨by rwa [List.append_nil], _, rfl, fun userId hr => by cases hr⟩
        | ok name =>
            obtain ⟨rfl, rfl⟩ := hrest
            refine ⟨by rwa [List.append_nil], _, rfl, fun userId hr => ⟨token, rfl, ?_⟩⟩
            rw [List.append_nil, ← Except.ok.inj hr]
            exact hverify
      · obtain ⟨-, r, hr, -⟩ := JwtUtil.runs_verifyToken hverify
        cases hr

/-- Who an RPC runs as: nobody, or the user its authentication gave. -/
def AuthenticatedAs (L : Libs) (cfg : JwtConfig) (request : Request) (md : Metadata) (tr : List Ev) (userId : String) :
    Prop :=
  if request.rpc.kRequiresAuth then Runs (performAuthentication L cfg md) tr (.ok (.ok userId))
  else tr = [] ∧ userId = ""

/-- **The runs of an RPC.** It always ends in `Finish`: with the error of its authentication, or with what became of
its coroutine. -/
theorem runs_serve {out : Except String (Reply × GrpcStatus)} (h : Runs (serve L cfg repo request md) tr out) :
    (∃ status, request.rpc.kRequiresAuth = true ∧ Runs (performAuthentication L cfg md) tr (.ok (.error status)) ∧
      out = .ok (default, status)) ∨
    ∃ tr₀ userId tr₁ result, tr = tr₀ ++ ⟨.coSpawn userId, ()⟩ :: tr₁ ∧ AuthenticatedAs L cfg request md tr₀ userId ∧
      Runs (runSpecificLogic L cfg repo request userId) tr₁ result ∧ out = .ok (onLogicFinished result) := by
  unfold serve at h
  by_cases hauth : request.rpc.kRequiresAuth = true
  · rw [if_pos hauth] at h
    rcases runs_bind.mp h with ⟨v, tr₁, tr₂, rfl, hperform, hrest⟩ | ⟨e, -, hperform⟩
    · cases v with
      | error status =>
          obtain ⟨rfl, rfl⟩ := hrest
          exact .inl ⟨status, hauth, by rwa [List.append_nil], rfl⟩
      | ok userId =>
          obtain ⟨tr', result, rfl, hlogic, rfl⟩ := runs_runLogic.mp hrest
          exact .inr ⟨tr₁, userId, tr', result, rfl, by rwa [AuthenticatedAs, if_pos hauth], hlogic, rfl⟩
    · obtain ⟨-, r, hr, -⟩ := runs_performAuthentication hperform
      cases hr
  · rw [if_neg hauth] at h
    obtain ⟨tr', result, rfl, hlogic, rfl⟩ := runs_runLogic.mp h
    exact .inr ⟨[], "", tr', result, rfl, by rw [AuthenticatedAs, if_neg hauth]; exact ⟨rfl, rfl⟩, hlogic, rfl⟩

/-- An RPC whose authentication failed. -/
theorem runs_serve_denied {error : GrpcStatus} (hreq : request.rpc.kRequiresAuth = true)
    (hauth : Runs (performAuthentication L cfg md) tr (.ok (.error error))) :
    Runs (serve L cfg repo request md) tr (.ok (default, error)) := by
  unfold serve
  rw [if_pos hreq, ← List.append_nil tr]
  exact hauth.bind ⟨rfl, rfl⟩

/-- An RPC whose logic ran. -/
theorem runs_serve_of {tr₀ tr₁ : List Ev} {result : Except String Reply}
    (hauth : AuthenticatedAs L cfg request md tr₀ userId)
    (hlogic : Runs (runSpecificLogic L cfg repo request userId) tr₁ result) :
    Runs (serve L cfg repo request md) (tr₀ ++ ⟨.coSpawn userId, ()⟩ :: tr₁) (.ok (onLogicFinished result)) := by
  have hrun : Runs (runLogic L cfg repo request userId) (⟨.coSpawn userId, ()⟩ :: tr₁)
      (.ok (onLogicFinished result)) := runs_runLogic.mpr ⟨tr₁, result, rfl, hlogic, rfl⟩
  unfold serve AuthenticatedAs at *
  by_cases hreq : request.rpc.kRequiresAuth = true
  · rw [if_pos hreq] at hauth ⊢
    exact hauth.bind hrun
  · rw [if_neg hreq] at hauth ⊢
    obtain ⟨rfl, rfl⟩ := hauth
    exact hrun

/-- The services and the writes of their results as the logic of the `CallData` objects. -/
def endpoints (L : Libs) (cfg : JwtConfig) : Logic Request ServiceResult Reply Metadata where
  performAuthentication md result := ∃ tr, Runs (performAuthentication L cfg md) tr (.ok result)
  performAuthentication_total md := by
    obtain ⟨tr, out, h⟩ := Runs.total Ans.default (performAuthentication L cfg md)
    obtain ⟨-, r, rfl, -⟩ := runs_performAuthentication h
    exact ⟨r, tr, h⟩
  callService _ request userId result :=
    ∃ tr, Runs (callService L cfg (userRepository L) request userId) tr result
  callService_total _ request userId := by
    obtain ⟨tr, out, h⟩ := Runs.total Ans.default (callService L cfg (userRepository L) request userId)
    exact ⟨out, tr, h⟩
  fillReply _ := fillReply

/-- What `HandleProcess` may decide about an object's RPC, and what `Finish` may then be given. -/
def CallData.Finishes {Req Res Rep Md : Type} (E : Logic Req Res Rep Md) (d : CallData Req Rep Md)
    (answer : Rep × GrpcStatus) : Prop :=
  ∃ decision, (if d.rpc.kRequiresAuth then E.performAuthentication d.ctx_ decision else decision = .ok "") ∧
    match decision with
    | .error err => answer = (d.reply_, err)
    | .ok userId => ∃ result, E.callService d.rpc d.request_ userId result ∧
        answer = d.onLogicFinished E.fillReply result

/-- Who an RPC may run as. -/
theorem exists_authenticatedAs_iff : (∃ tr, AuthenticatedAs L cfg request md tr userId) ↔
    if request.rpc.kRequiresAuth then (endpoints L cfg).performAuthentication md (.ok userId)
    else (.ok userId : Except GrpcStatus String) = .ok "" := by
  unfold AuthenticatedAs
  by_cases hreq : request.rpc.kRequiresAuth = true
  · simp only [hreq, if_true]
    rfl
  · simp [hreq]

/-- **The runs of `serve` are what the `CallData` objects do**: with the services as its logic, an object that carries a
request and no reply finishes with an answer exactly when a run of `serve` ends with it. -/
theorem finishes_endpoints_iff {d : CallData Request Reply Metadata} (hrpc : d.rpc = d.request_.rpc)
    (hreply : d.reply_ = default) {answer : Reply × GrpcStatus} :
    d.Finishes (endpoints L cfg) answer ↔
      ∃ tr, Runs (serve L cfg (userRepository L) d.request_ d.ctx_) tr (.ok answer) := by
  have hfinish : ∀ result, d.onLogicFinished (endpoints L cfg).fillReply result =
      onLogicFinished (result.map (fillReply · default)) := by
    intro result
    cases result <;> simp only [CallData.onLogicFinished, onLogicFinished, hreply, endpoints, Except.map]
  constructor
  · rintro ⟨decision | userId, hauth, hrest⟩
    · obtain rfl : answer = (d.reply_, decision) := hrest
      by_cases hreq : d.rpc.kRequiresAuth = true
      · rw [if_pos hreq] at hauth
        obtain ⟨tr, hrun⟩ := hauth
        rw [hrpc] at hreq
        exact ⟨tr, hreply ▸ runs_serve_denied hreq hrun⟩
      · rw [if_neg hreq] at hauth
        cases hauth
    · obtain ⟨result, ⟨tr₁, hlogic⟩, rfl⟩ := hrest
      rw [hrpc] at hauth
      obtain ⟨tr₀, hauth₀⟩ := exists_authenticatedAs_iff.mpr hauth
      rw [hfinish]
      exact ⟨_, runs_serve_of hauth₀ (runs_map.mpr ⟨result, hlogic, rfl⟩)⟩
  · rintro ⟨tr, hrun⟩
    rcases runs_serve hrun with ⟨status, hreq, hauth, hout⟩ | ⟨tr₀, userId, tr₁, result, rfl, hauth, hlogic, hout⟩
    · refine ⟨.error status, ?_, ?_⟩
      · rw [hrpc, if_pos hreq]
        exact ⟨tr, hauth⟩
      · rw [hreply]
        exact Except.ok.inj hout
    · obtain ⟨result, hservice, rfl⟩ := runs_map.mp hlogic
      refine ⟨.ok userId, ?_, result, ⟨tr₁, hservice⟩, ?_⟩
      · rw [hrpc]
        exact exists_authenticatedAs_iff.mp ⟨tr₀, hauth⟩
      · rw [hfinish]
        exact Except.ok.inj hout

/-! ## What is awaited -/

/-- The writes of an RPC are those of its service. -/
theorem always_serve {φ : List Ev → Op → Prop} (hφ : OnWrites φ)
    (hlogic : ∀ hist userId, Always φ hist (runSpecificLogic L cfg repo request userId)) :
    Always φ [] (serve L cfg repo request md) := by
  have hrun : ∀ hist userId, Always φ hist (runLogic L cfg repo request userId) := by
    refine fun hist userId => ⟨hφ _ _ rfl rfl, fun _ => (hlogic _ userId).attempt.bind fun v tr _ => ?_⟩
    cases v <;> exact Always.pure _
  have hverify : Always φ [] (performAuthentication L cfg md) := by
    refine Always.of_runs Ans.default fun tr₁ ev tr₂ out hrun => ?_
    have hop : ev.op = .now := (runs_performAuthentication hrun).1 ev (by simp)
    rw [hop]
    exact hφ _ _ rfl rfl
  unfold serve
  split_ifs
  · refine hverify.bind fun v tr _ => ?_
    cases v with
    | error status => exact Always.pure _
    | ok userId => exact hrun _ userId
  · exact hrun _ _

end Endpoints

end PhotonCommerce.Adapter
