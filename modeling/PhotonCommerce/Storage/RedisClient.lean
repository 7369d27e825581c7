import PhotonCommerce.Runtime.Effects

/-!
# `RedisClient` and `VerificationCodeRepository`

* `RedisClient.set`, `RedisClient.get` : the commands, with every failure turned into a `RedisError`;
* `VerificationCodeRepository.saveCode`, `getCode` : codes under a prefix for each usage.

The connection a command goes to (`GetNextConnection`) does not change its effect and is left out.
-/

namespace PhotonCommerce.Infrastructure
open Coroutine

/-- `RedisErrorType`. -/
inductive RedisErrorType where
  | systemError
  | commandError
  | protocolError
  deriving DecidableEq, Repr

structure RedisError where
  type : RedisErrorType
  message : String
  deriving DecidableEq, Repr

namespace RedisClient

/-- `RedisClient::Set` with an expiry in seconds: `EX` only when it is positive. -/
def set (key value : String) (expiry : Int) : Prog (Except RedisError Unit) := do
  match ← redisSet key value (if expiry > 0 then some expiry else none) with
  | .ok _ => return .ok ()
  | .error what => return .error ⟨.systemError, "SET exception: " ++ what ++ " (Key: " ++ key ++ ")"⟩

/-- `RedisClient::ExtractResult`. -/
def extractResult (result : RedisReply) (commandName keyContext : String) : Except RedisError (Option String) :=
  match result with
  | .adapterError diagnostic =>
      .error ⟨.systemError,
        "Redis " ++ commandName ++ " failed. Error: " ++ diagnostic ++ ". Context: " ++ keyContext⟩
  | .blobString value => .ok (some value)
  | .simpleString value => .ok (some value)
  | .null => .ok none
  | .simpleError value =>
      .error ⟨.commandError, "Redis " ++ commandName ++ " Command Error: " ++ value ++ ". Context: " ++ keyContext⟩
  | .blobError value =>
      .error ⟨.commandError, "Redis " ++ commandName ++ " Command Error: " ++ value ++ ". Context: " ++ keyContext⟩
  | .other dataType =>
      .error ⟨.protocolError, "Redis " ++ commandName ++ " Protocol Error: Unexpected type " ++ toString dataType ++
        ". Context: " ++ keyContext⟩

/-- `RedisClient::Get`. -/
def get (key : String) : Prog (Except RedisError (Option String)) := do
  match ← redisGet key with
  | .ok reply => return extractResult reply "GET" key
  | .error what => return .error ⟨.systemError, "GET exception: " ++ what ++ " (Key: " ++ key ++ ")"⟩

end RedisClient

/-! ## Verification codes -/

/-- `CodeUsage`: the three usages and the other values an integer can be cast to. -/
inductive CodeUsage where
  | userRegister
  | userLogin
  | resetPassword
  | other (value : Int)
  deriving DecidableEq, Repr

/-- `static_cast<CodeUsage>`. -/
def CodeUsage.ofInt (n : Int) : CodeUsage :=
  if n = 1 then .userRegister else if n = 2 then .userLogin else if n = 3 then .resetPassword else .other n

namespace VerificationCodeRepository

/-- `VerificationCodeRepository::GetKeyPrefixForUsage`, with the text it throws. -/
def getKeyPrefixForUsage : CodeUsage → Except String String
  | .userRegister => .ok "verify_code:register:"
  | .userLogin => .ok "verify_code:login:"
  | .resetPassword => .ok "verify_code:reset_pwd:"
  | .other _ => .error "Unknown CodeUsage"

/-- `VerificationCodeRepository::SaveCode`. -/
def saveCode (usage : CodeUsage) (target code : String) (expiry : Int) : Prog Unit := do
  match getKeyPrefixForUsage usage with
  | .error _ => return ()
  | .ok keyPrefix => do
      let _ ← RedisClient.set (keyPrefix ++ target) code expiry
      return ()

/-- `VerificationCodeRepository::GetCode`. -/
def getCode (usage : CodeUsage) (target : String) : Prog (Option String) := do
  match getKeyPrefixForUsage usage with
  | .error _ => return none
  | .ok keyPrefix => do
      match ← RedisClient.get (keyPrefix ++ target) with
      | .error _ => return none
      | .ok value => return value

end VerificationCodeRepository

/-! ## Runs -/

namespace RedisClient
variable {key value : String} {expiry : Int} {tr : List Ev}

theorem runs_set {out : Except String (Except RedisError Unit)} (h : Runs (set key value expiry) tr out) :
    ∃ a : Except String Unit, tr = [⟨.redisSet key value (if expiry > 0 then some expiry else none), a⟩] := by
  obtain ⟨a, tr', rfl, hend⟩ := runs_redisSet_bind.mp h
  cases a with
  | ok =>
      obtain ⟨rfl, -⟩ := hend
      exact ⟨_, rfl⟩
  | error what =>
      obtain ⟨rfl, -⟩ := hend
      exact ⟨_, rfl⟩

/-- `Get` gives the text of the reply, nothing for a miss, an error for everything else. -/
theorem runs_get {out : Except String (Except RedisError (Option String))} (h : Runs (get key) tr out) :
    ∃ a : Except String RedisReply, tr = [⟨.redisGet key, a⟩] ∧
      ((∃ e, out = .ok (.error e) ∧ answerValue a = none) ∨ out = .ok (.ok (answerValue a))) := by
  obtain ⟨a, tr', rfl, hend⟩ := runs_redisGet_bind.mp h
  cases a with
  | error what =>
      obtain ⟨rfl, hout⟩ := hend
      exact ⟨_, rfl, .inl ⟨_, hout, rfl⟩⟩
  | ok reply =>
      obtain ⟨rfl, hout⟩ := hend
      refine ⟨_, rfl, ?_⟩
      cases reply with
      | blobString => exact .inr hout
      | simpleString => exact .inr hout
      | null => exact .inr hout
      | adapterError => exact .inl ⟨_, hout, rfl⟩
      | simpleError => exact .inl ⟨_, hout, rfl⟩
      | blobError => exact .inl ⟨_, hout, rfl⟩
      | other => exact .inl ⟨_, hout, rfl⟩

theorem always_set {φ : List Ev → Op → Prop} {hist : List Ev}
    (h : φ hist (.redisSet key value (if expiry > 0 then some expiry else none))) :
    Always φ hist (set key value expiry) := by
  refine ⟨h, fun a => ?_⟩
  change Except String Unit at a
  cases a <;> trivial

theorem always_get {φ : List Ev → Op → Prop} {hist : List Ev} (h : φ hist (.redisGet key)) :
    Always φ hist (get key) := by
  refine ⟨h, fun a => ?_⟩
  change Except String RedisReply at a
  cases a <;> trivial

end RedisClient

namespace VerificationCodeRepository
variable {usage : CodeUsage} {keyPrefix target code : String} {expiry : Int} {tr : List Ev}

theorem runs_saveCode {out : Except String Unit} (hp : getKeyPrefixForUsage usage = .ok keyPrefix) :
    Runs (saveCode usage target code expiry) tr out ↔ out = .ok () ∧ ∃ a : Except String Unit,
      tr = [⟨.redisSet (keyPrefix ++ target) code (if expiry > 0 then some expiry else none), a⟩] := by
  simp only [saveCode, hp]
  constructor
  · intro h
    rcases runs_bind.mp h with ⟨v, tr₁, tr₂, rfl, hset, rfl, rfl⟩ | ⟨e, -, hset⟩
    · obtain ⟨a, rfl⟩ := RedisClient.runs_set hset
      exact ⟨rfl, a, rfl⟩
    · obtain ⟨a, tr', -, hend⟩ := runs_redisSet_bind.mp hset
      cases a <;> cases hend.2
  · rintro ⟨rfl, a, rfl⟩
    refine ⟨a, [], rfl, ?_⟩
    cases a <;> exact ⟨rfl, rfl⟩

/-- `GetCode` gives what the `GET` of its key brings back. -/
theorem runs_getCode {out : Except String (Option String)} (hp : getKeyPrefixForUsage usage = .ok keyPrefix) :
    Runs (getCode usage target) tr out ↔ ∃ a : Except String RedisReply,
      tr = [⟨.redisGet (keyPrefix ++ target), a⟩] ∧ out = .ok (answerValue a) := by
  simp only [getCode, hp]
  constructor
  · rintro ⟨a, tr', rfl, h⟩
    change Except String RedisReply at a
    refine ⟨a, ?_⟩
    cases a with
    | error what =>
        obtain ⟨rfl, rfl⟩ := h
        exact ⟨rfl, rfl⟩
    | ok reply => cases reply <;> obtain ⟨rfl, rfl⟩ := h <;> exact ⟨rfl, rfl⟩
  · rintro ⟨a, rfl, rfl⟩
    refine ⟨a, [], rfl, ?_⟩
    cases a with
    | error what => exact ⟨rfl, rfl⟩
    | ok reply => cases reply <;> exact ⟨rfl, rfl⟩

theorem always_saveCode {φ : List Ev → Op → Prop} {hist : List Ev}
    (h : ∀ keyPrefix, getKeyPrefixForUsage usage = .ok keyPrefix →
      φ hist (.redisSet (keyPrefix ++ target) code (if expiry > 0 then some expiry else none))) :
    Always φ hist (saveCode usage target code expiry) := by
  unfold saveCode
  cases hp : getKeyPrefixForUsage usage with
  | error e => exact Always.pure ()
  | ok keyPrefix => exact (RedisClient.always_set (h keyPrefix hp)).bind fun v tr _ => Always.pure ()

theorem always_getCode {φ : List Ev → Op → Prop} {hist : List Ev}
    (h : ∀ keyPrefix, getKeyPrefixForUsage usage = .ok keyPrefix → φ hist (.redisGet (keyPrefix ++ target))) :
    Always φ hist (getCode usage target) := by
  unfold getCode
  cases hp : getKeyPrefixForUsage usage with
  | error e => exact Always.pure none
  | ok keyPrefix =>
      refine (RedisClient.always_get (h keyPrefix hp)).bind fun v tr _ => ?_
      cases v with
      | error e => exact Always.pure none
      | ok value => exact Always.pure value

end VerificationCodeRepository

end PhotonCommerce.Infrastructure
