import PhotonCommerce.Adapter.Endpoints
import PhotonCommerce.Lib.AwaitBound

/-!
# How much an RPC awaits

* `Request.awaits` : a bound for each endpoint;
* `within_serve` : an RPC awaits no more, whatever it is answered; one lemma for each function.
-/

namespace PhotonCommerce.Adapter
open Coroutine Domain Utils Infrastructure Service

/-- A bound of what an RPC awaits: clocks, random numbers, Redis, and three operations for each statement. -/
def Request.awaits : Request → Nat
  | .register .. => 13
  | .sendCode .. => 11
  | .loginByPassword .. => 7
  | .loginByCode .. => 6
  | .getUserInfo => 8

section Functions
variable {L : Libs} {cfg : JwtConfig}

theorem within_createUser (user : User) : Within (UserDao.createUser user) 3 := by
  refine Within.of_runs Ans.default fun tr out h => ?_
  obtain ⟨conn, a, rfl, -⟩ := UserDao.runs_createUser.mp h
  exact Nat.le_refl 3

theorem within_selectUser (key : Key) (param : String) : Within (UserDao.selectUser key param) 3 := by
  refine Within.of_runs Ans.default fun tr out h => ?_
  obtain ⟨conn, a, rfl, -⟩ := UserDao.runs_selectUser.mp h
  exact Nat.le_refl 3

theorem within_set (key value : String) (expiry : Int) : Within (RedisClient.set key value expiry) 1 := by
  have hset : ∀ ex, Within (redisSet key value ex) 1 := fun ex => Within.perform _
  refine (hset _).bind (n := 0) fun a => ?_
  cases a <;> exact Within.pure _

theorem within_get (key : String) : Within (RedisClient.get key) 1 := by
  have hget : Within (redisGet key) 1 := Within.perform _
  refine hget.bind (n := 0) fun a => ?_
  cases a <;> exact Within.pure _

theorem within_saveCode (usage : CodeUsage) (target code : String) (expiry : Int) :
    Within (VerificationCodeRepository.saveCode usage target code expiry) 1 := by
  unfold VerificationCodeRepository.saveCode
  split
  · exact Within.pure _
  · exact (within_set _ _ _).bind (n := 0) fun _ => Within.pure _

theorem within_getCode (usage : CodeUsage) (target : String) :
    Within (VerificationCodeRepository.getCode usage target) 1 := by
  unfold VerificationCodeRepository.getCode
  split
  · exact Within.pure _
  · refine (within_get _).bind (n := 0) fun v => ?_
    cases v <;> exact Within.pure _

theorem within_getUserById (id : String) : Within (UserRepository.getUserById L id) 5 := by
  have hquery : Within (UserRepository.queryAndFill L id) 4 := by
    refine (within_selectUser _ _).bind (n := 1) fun v => ?_
    match v with
    | .error e => exact Within.pure _
    | .ok none => exact Within.pure _
    | .ok (some user) => exact (within_set _ _ _).bind (n := 0) fun _ => Within.pure _
  refine (within_get _).bind (n := 4) fun v => ?_
  match v with
  | .error e => exact hquery
  | .ok none => exact hquery
  | .ok (some value) =>
      dsimp only
      cases UserRepository.decode L value with
      | none => exact hquery
      | some user => exact Within.pure _

theorem within_generate (length : Nat) : Within (CodeGenerator.generate length) length := by
  refine Within.of_runs Ans.default fun tr out h => ?_
  obtain ⟨digits, hlen, rfl, -⟩ := runs_generateDigits_iff.mp h
  rw [List.length_map]
  exact Nat.le_of_eq hlen

theorem within_generateToken (userId : String) : Within (JwtUtil.generateToken L cfg userId) 1 :=
  fun _ => Within.pure _

/-- The token's time is read twice. -/
theorem within_verifyToken (token : String) : Within (JwtUtil.verifyToken L cfg token) 2 := by
  have hnow : Within now 1 := Within.perform _
  have hdecoded : ∀ decoded, Within (JwtUtil.verifyDecoded L cfg token decoded) 1 := by
    refine fun decoded => hnow.bind (n := 0) fun t => ?_
    split_ifs
    · cases decoded.lookup "user_id" with
      | none => exact Within.pure _
      | some claim =>
          dsimp only
          cases claim.getString <;> exact Within.pure _
    · exact Within.pure _
  unfold JwtUtil.verifyToken
  cases L.decode token with
  | none => exact Within.pure _
  | some decoded =>
      dsimp only
      cases decoded.lookup "exp" with
      | none => exact (hdecoded decoded).mono (by omega)
      | some claim =>
          refine hnow.bind (n := 1) fun t => ?_
          cases L.asDate claim with
          | none => exact Within.pure _
          | some exp =>
              dsimp only
              split_ifs
              · exact Within.pure _
              · exact hdecoded decoded

theorem within_sendCode (req : SendCodeRequest) : Within (AuthService.sendCode (userRepository L) req) 10 := by
  have hstore : Within (AuthService.storeCode req) 7 :=
    (within_generate 6).bind fun code => (within_saveCode _ _ _ _).bind (n := 0) fun _ => Within.pure _
  unfold AuthService.sendCode
  cases req.usage with
  | userRegister => exact hstore.mono (by omega)
  | userLogin | resetPassword =>
      refine (within_selectUser _ _).bind (n := 7) fun v => ?_
      match v with
      | .error e => exact Within.pure _
      | .ok none => exact Within.pure _
      | .ok (some user) => exact hstore
  | other value => exact Within.pure _

theorem within_loginByCode (req : LoginByCodeRequest) :
    Within (AuthService.loginByCode L cfg (userRepository L) req) 5 := by
  refine (within_getCode _ _).bind (n := 4) fun code => ?_
  split_ifs
  · exact Within.pure _
  · refine (within_selectUser _ _).bind (n := 1) fun v => ?_
    match v with
    | .error e => exact Within.pure _
    | .ok none => exact Within.pure _
    | .ok (some user) => exact (within_generateToken _).bind (n := 0) fun _ => Within.pure _

theorem within_loginByPassword (req : LoginByPasswordRequest) :
    Within (AuthService.loginByPassword L cfg (userRepository L) req) 6 := by
  refine (within_getUserById _).bind (n := 1) fun v => ?_
  match v with
  | .error e => exact Within.pure _
  | .ok none => exact Within.pure _
  | .ok (some user) =>
      dsimp only
      split_ifs
      · exact (within_generateToken _).bind (n := 0) fun _ => Within.pure _
      · exact Within.pure _

theorem within_register (req : RegisterRequest) :
    Within (BasicUserService.register L (userRepository L) req) 12 := by
  have hnow : Within now 1 := Within.perform _
  have hrand : Within rand32 1 := Within.perform _
  have hblock : Within (generateBlock 16) 1 := Within.perform _
  have huuid : Within IdGenerator.generateUUID 4 :=
    hnow.bind fun _ => hrand.bind fun _ => hrand.bind fun _ => hrand.bind (n := 0) fun _ => Within.pure _
  have hsalt : Within SecurityUtil.generateSalt 1 := hblock.bind (n := 0) fun _ => Within.pure _
  refine (within_getCode _ _).bind (n := 11) fun code => ?_
  split_ifs
  · exact Within.pure _
  · refine (within_selectUser _ _).bind (n := 8) fun v => ?_
    match v with
    | .error e => exact Within.pure _
    | .ok (some user) => exact Within.pure _
    | .ok none =>
        refine huuid.bind fun userId => hsalt.bind fun salt => (within_createUser _).bind (n := 0) fun w => ?_
        cases w <;> exact Within.pure _

theorem within_getUserInfo (userId : String) :
    Within (BasicUserService.getUserInfo (userRepository L) userId) 5 := by
  refine (within_getUserById _).bind (n := 0) fun v => ?_
  match v with
  | .error e => exact Within.pure _
  | .ok none => exact Within.pure _
  | .ok (some user) => exact Within.pure _

/-- What a business service may await: all but `co_spawn` and the check of the token. -/
theorem within_callService (request : Request) (userId : String) :
    Within (callService L cfg (userRepository L) request userId)
      (request.awaits - if request.rpc.kRequiresAuth then 3 else 1) := by
  cases request with
  | register username password phoneNumber code => exact (within_register _).bind (n := 0) fun _ => Within.pure _
  | sendCode phoneNumber usage => exact (within_sendCode _).bind (n := 0) fun _ => Within.pure _
  | loginByPassword user password => exact (within_loginByPassword _).bind (n := 0) fun _ => Within.pure _
  | loginByCode phoneNumber code => exact (within_loginByCode _).bind (n := 0) fun _ => Within.pure _
  | getUserInfo => exact (within_getUserInfo _).bind (n := 0) fun _ => Within.pure _

/-- `RunSpecificLogic` awaits nothing else. -/
theorem within_runSpecificLogic (request : Request) (userId : String) :
    Within (runSpecificLogic L cfg (userRepository L) request userId)
      (request.awaits - if request.rpc.kRequiresAuth then 3 else 1) :=
  (within_callService request userId).bind (n := 0) fun _ => Within.pure _

/-- **An RPC awaits a bounded number of operations**, whatever it is answered. -/
theorem within_serve (request : Request) (md : Metadata) :
    Within (serve L cfg (userRepository L) request md) request.awaits := by
  have hspawn : ∀ userId, Within (coSpawn userId) 1 := fun userId => Within.perform _
  have hrun : ∀ userId, Within (runLogic L cfg (userRepository L) request userId)
      (1 + (request.awaits - if request.rpc.kRequiresAuth then 3 else 1)) := by
    refine fun userId => (hspawn userId).bind fun _ =>
      (within_runSpecificLogic request userId).attempt.bind (n := 0) fun v => ?_
    cases v <;> exact Within.pure _
  have hauth : Within (performAuthentication L cfg md) 2 := by
    unfold performAuthentication
    cases bearerToken md with
    | none => exact Within.pure _
    | some token =>
        refine (within_verifyToken token).bind (n := 0) fun v => ?_
        cases v <;> exact Within.pure _
  unfold serve
  by_cases hreq : request.rpc.kRequiresAuth = true
  · rw [if_pos hreq] at hrun ⊢
    have hsum : 2 + (1 + (request.awaits - 3)) = request.awaits := by
      cases request with
      | getUserInfo => rfl
      | _ => cases hreq
    rw [← hsum]
    refine hauth.bind fun v => ?_
    cases v with
    | error status => exact Within.pure _
    | ok userId => exact hrun userId
  · rw [if_neg hreq] at hrun ⊢
    have hpos : 1 ≤ request.awaits := by cases request <;> simp [Request.awaits]
    exact (hrun "").mono (by omega)

end Functions

end PhotonCommerce.Adapter
