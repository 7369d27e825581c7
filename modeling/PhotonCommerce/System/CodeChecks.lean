import Mathlib
import PhotonCommerce.Lib.Execution
import PhotonCommerce.System.Server

/-!
# What a wrong-code answer means

* `Answered`, `answered_iff` : the `GET`s that `RedisClient::Get` does not report as an error;
* `readExec` : what operations may do when Redis answers a `GET` with what it stores or not at all;
* `CodeCheck` : the two services that check a code, `CodeCheck.runs` : the `GET` they begin with;
* `Truthful` : a mismatch is about the stored code, a failed read is an internal error;
* `truthful_iff` : the services are truthful exactly when the `GET` was answered.
-/

namespace PhotonCommerce.System
open Coroutine Infrastructure Service ExpiringMap

/-! ## Reading the store -/

/-- Redis answered a `GET` with a text or with nothing. -/
def Answered : Except String RedisReply → Prop
  | .ok (.blobString _) => True
  | .ok (.simpleString _) => True
  | .ok .null => True
  | _ => False

/-- Every other answer, an exception included, is an error of `RedisClient::Get`. -/
theorem answered_iff {key : String} {a : Except String RedisReply}
    {out : Except String (Except RedisError (Option String))}
    (h : Runs (RedisClient.get key) [⟨.redisGet key, a⟩] out) : Answered a ↔ ∃ value, out = .ok (.ok value) := by
  obtain ⟨a', tr', htr, hend⟩ := runs_redisGet_bind.mp h
  cases htr
  cases a with
  | error what =>
      refine iff_of_false id fun hvalue => ?_
      obtain ⟨value, rfl⟩ := hvalue
      cases hend.2
  | ok reply =>
      cases reply with
      | blobString value => exact iff_of_true trivial ⟨_, hend.2⟩
      | simpleString value => exact iff_of_true trivial ⟨_, hend.2⟩
      | null => exact iff_of_true trivial ⟨_, hend.2⟩
      | _ =>
          refine iff_of_false id fun hvalue => ?_
          obtain ⟨value, rfl⟩ := hvalue
          cases hend.2

theorem answered_reply (w : World) (key : String) : Answered (.ok (w.reply key)) := by
  unfold World.reply
  cases w.redis.get w.time key <;> exact trivial

/-- What operations may answer and do where a `GET` that is answered brings back what is stored. -/
def readExec (L : Libs) (F : Faults) : (o : Op) → World → Ans o → World → Prop
  | .redisGet key, w, a, w' => w' = w ∧ (a = .ok (w.reply key) ∨ (F.redis = true ∧ ¬ Answered a))
  | o, w, a, w' => exec L F o w a w'

theorem exists_readExec (L : Libs) (F : Faults) (o : Op) (w : World) : ∃ a w', readExec L F o w a w' := by
  have h := exec_answer L F o w
  refine ⟨(World.answer L o w).1, (World.answer L o w).2, ?_⟩
  cases o with
  | redisGet key => exact ⟨rfl, .inl rfl⟩
  | _ => exact h

/-! ## The services that check a code -/

inductive CodeCheck where
  | register (req : RegisterRequest)
  | loginByCode (req : LoginByCodeRequest)

namespace CodeCheck

/-- The service, with the status it answers. -/
def run (L : Libs) (cfg : JwtConfig) : CodeCheck → Prog CommonStatus
  | .register req => do
      let response ← BasicUserService.register L (userRepository L) req
      return response.status
  | .loginByCode req => do
      let result ← AuthService.loginByCode L cfg (userRepository L) req
      return result.status

/-- The key of the code for the service's usage and the request's phone number. -/
def key : CodeCheck → String
  | .register req => BasicUserService.codeKey req.phoneNumber
  | .loginByCode req => AuthService.codeKey req.phoneNumber

/-- The code presented. -/
def code : CodeCheck → String
  | .register req => req.code
  | .loginByCode req => req.code

variable {L : Libs} {cfg : JwtConfig} {tr : List Ev} {out : Except String CommonStatus}

/-- **Both services read the code first** and answer with a mismatch exactly when what they read is not the code
presented. -/
theorem runs (c : CodeCheck) (h : Runs (c.run L cfg) tr out) :
    ∃ (a : Except String RedisReply) (rest : List Ev), tr = ⟨.redisGet c.key, a⟩ :: rest ∧
      (answerValue a ≠ some c.code → out = .ok ⟨.verificationCodeMismatch, "验证码错误"⟩) ∧
      (answerValue a = some c.code → ∀ status, out = .ok status → status.code ≠ .verificationCodeMismatch) := by
  cases c with
  | register req =>
      obtain ⟨result, hrun, rfl⟩ := runs_map.mp h
      obtain ⟨a, rest, rfl, hne, heq⟩ := (BasicUserService.runs_register.mp hrun).code
      refine ⟨a, rest, rfl, fun ha => by rw [(hne ha).2]; rfl, fun ha status hstatus => ?_⟩
      cases result with
      | error what => cases hstatus
      | ok response =>
          cases hstatus
          exact heq ha response rfl
  | loginByCode req =>
      obtain ⟨result, hrun, rfl⟩ := runs_map.mp h
      obtain ⟨a, rest, rfl, hne, heq⟩ := AuthService.runs_loginByCode_code hrun
      refine ⟨a, rest, rfl, fun ha => by rw [(hne ha).2]; rfl, fun ha status hstatus => ?_⟩
      cases result with
      | error what => cases hstatus
      | ok response =>
          cases hstatus
          exact heq ha response rfl

end CodeCheck

/-! ## Truthful answers -/

/-- Where the store held `stored` when it was read: a mismatch is answered only to another code, and a read that
failed is an internal error. -/
structure Truthful (presented : String) (stored : Option String) (a : Except String RedisReply)
    (out : Except String CommonStatus) : Prop where
  mismatch : ∀ status, out = .ok status → status.code = .verificationCodeMismatch →
    Answered a ∧ stored ≠ some presented
  failed : ¬ Answered a → ∀ status, out = .ok status → status.code = .internalError

section
variable {L : Libs} {cfg : JwtConfig} {F : Faults} {drift : World → World → Prop} {w w' : World} {tr : List Ev}
  {out : Except String CommonStatus}

theorem answerValue_of_not_answered {a : Except String RedisReply} (h : ¬ Answered a) : answerValue a = none := by
  cases a with
  | error what => rfl
  | ok reply =>
      cases reply with
      | blobString value => exact absurd trivial h
      | simpleString value => exact absurd trivial h
      | _ => rfl

/-- A read that failed is answered as a wrong code. -/
theorem not_truthful {presented : String} {stored : Option String} {a : Except String RedisReply} (ha : ¬ Answered a) :
    ¬ Truthful presented stored a (.ok ⟨.verificationCodeMismatch, "验证码错误"⟩) := by
  intro h
  exact ha (h.mismatch _ rfl rfl).1

/-- A read of the stored code decides by it. -/
theorem truthful_of_reply {u : World} {c : CodeCheck}
    (hmatch : answerValue (.ok (u.reply c.key)) = some c.code →
      ∀ status, out = .ok status → status.code ≠ .verificationCodeMismatch) :
    Truthful c.code (u.redis.get u.time c.key) (.ok (u.reply c.key)) out where
  mismatch status hout hstatus := by
    refine ⟨answered_reply u c.key, fun hstored => ?_⟩
    rw [← answerValue_reply] at hstored
    exact hmatch hstored status hout hstatus
  failed hfailed := absurd (answered_reply u c.key) hfailed

end

/-- **A wrong-code answer means a wrong code** exactly when Redis answered: whatever is stored, whatever else happens
and however Redis fails, each of the services ends and is truthful about the code stored when it read the store if and
only if the read was answered. -/
theorem truthful_iff (L : Libs) (cfg : JwtConfig) (F : Faults) (drift : World → World → Prop) (c : CodeCheck)
    (w : World) :
    (∃ tr out w', Runs (c.run L cfg) tr out ∧ Executes (readExec L F) drift w tr w') ∧
    ∀ tr out w', Runs (c.run L cfg) tr out → Executes (readExec L F) drift w tr w' →
      ∃ (u : World) (a : Except String RedisReply) (rest : List Ev), tr = ⟨.redisGet c.key, a⟩ :: rest ∧
        Relation.ReflTransGen drift w u ∧ (a = .ok (u.reply c.key) ∨ (F.redis = true ∧ ¬ Answered a)) ∧
        (Truthful c.code (u.redis.get u.time c.key) a out ↔ Answered a) := by
  refine ⟨exists_executes (exists_readExec L F) _ w, fun tr out w' hrun hexec => ?_⟩
  obtain ⟨a, rest, rfl, hmiss, hmatch⟩ := c.runs hrun
  obtain ⟨u, v, hu, ⟨-, hread⟩, -⟩ :=
    hexec.cons (I := Relation.ReflTransGen drift w) (fun _ _ hstep hw => hw.tail hstep) .refl
  refine ⟨u, a, rest, rfl, hu, hread, ?_⟩
  rcases hread with rfl | ⟨-, hfailed⟩
  · exact iff_of_true (truthful_of_reply hmatch) (answered_reply u c.key)
  · have hnone : answerValue a ≠ some c.code := by
      rw [answerValue_of_not_answered hfailed]
      exact nofun
    rw [hmiss hnone]
    exact iff_of_false (not_truthful hfailed) hfailed

theorem get_set (w : World) (key value : String) :
    (w.set key value (some 300)).redis.get (w.set key value (some 300)).time key = some value := by
  refine Store.get_eq_some_iff.mpr ⟨_, World.set_redis_self w key value (some 300), ?_, rfl⟩
  have hlt : w.time < w.time + (300 : Int).toNat * 10 ^ 9 := by omega
  exact decide_eq_true hlt

/-- The code stored for a registration is presented, Redis cannot be reached, and the answer is that the code is
wrong. -/
theorem stored_code_refused : ∃ (w : World) (tr : List Ev) (w' : World),
    w.redis.get w.time (BasicUserService.codeKey "13800000000") = some "000000" ∧
    Runs (CodeCheck.run (Libs.reference Texts.alice) .photon
      (.register ⟨"alice", "secret", "13800000000", "000000"⟩)) tr (.ok ⟨.verificationCodeMismatch, "验证码错误"⟩) ∧
    Executes (readExec (Libs.reference Texts.alice) ⟨true, false, false⟩) (fun _ _ => False) w tr w' := by
  have hrun : Runs (BasicUserService.register (Libs.reference Texts.alice)
      (userRepository (Libs.reference Texts.alice)) ⟨"alice", "secret", "13800000000", "000000"⟩)
      [⟨.redisGet (BasicUserService.codeKey "13800000000"),
        (.error "Connection reset by peer" : Except String RedisReply)⟩] _ :=
    BasicUserService.runs_register.mpr (.mismatch (.error "Connection reset by peer") nofun)
  obtain ⟨w, hw⟩ : ∃ w : World, w.redis.get w.time (BasicUserService.codeKey "13800000000") = some "000000" :=
    ⟨_, get_set .alice _ _⟩
  exact ⟨w, _, w, hw, runs_map.mpr ⟨_, hrun, rfl⟩, .step ⟨rfl, .inr ⟨rfl, id⟩⟩ (.done w)⟩

end PhotonCommerce.System
