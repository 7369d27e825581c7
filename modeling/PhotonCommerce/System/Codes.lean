import PhotonCommerce.System.Authentication
import PhotonCommerce.System.Registration

/-!
# Verification codes over whole runs

* `served_sendCode` : what a `SendCode` that has ended ran through;
* `code_stored` : the `SET` of a `SendCode` that answered success for a user or a registration;
* `code_usable` : once that `SET` took effect, every `GET` of the next 300 seconds brings the code back;
* `code_shown` : a login that succeeded presented the code stored last, and logging in leaves Redis alone;
* `no_enumeration` : the answers about a phone number do not depend on whether it is registered.
-/

namespace PhotonCommerce.System
open Coroutine Interleaving Transition Domain Utils Infrastructure Service Adapter ExpiringMap

section Served
variable {L : Libs} {cfg : JwtConfig} {F : Faults} {S : Setup Op Ans World Call String Outcome} {s : ServerState}
  {tid : Nat} {phoneNumber : String} {usage : Int} {md : Metadata} {reply : Reply} {status : GrpcStatus}

theorem served_sendCode (hS : Hosts L cfg F S) (hs : Reachable S.system s)
    (hth : s.threads[tid]? = some ⟨.rpc (.sendCode phoneNumber usage) md, .ret (.rpc reply status)⟩) :
    ∃ tr out, events s.log tid = ⟨.coSpawn "", ()⟩ :: tr ∧
      Runs (AuthService.sendCode (userRepository L) ⟨phoneNumber, .ofInt usage⟩) tr out ∧
      (reply, status) = onLogicFinished (out.map sendCodeReply) := by
  obtain ⟨tr, result, hev, hlogic, hout⟩ := served_logic hS hs hth rfl
  rw [runSpecificLogic_sendCode] at hlogic
  obtain ⟨out, hrun, rfl⟩ := runs_map.mp hlogic
  exact ⟨tr, out, hev, hrun, hout⟩

/-- A `SendCode` that answered success. -/
theorem sendCode_success {out : Except String CommonStatus}
    (h : (reply, status) = onLogicFinished (out.map sendCodeReply))
    (hsucc : reply.code = some 0) : ∃ result, out = .ok result ∧ result.code = .success := by
  cases out with
  | error what =>
      obtain rfl : reply = default := congrArg Prod.fst h
      cases hsucc
  | ok result =>
      obtain rfl : reply = { status := some (statusMessage result) } := congrArg Prod.fst h
      exact ⟨result, rfl, (code_eq_success rfl).mp hsucc⟩

end Served

/-! ## What was stored can be used -/

/-- The digit an event drew. -/
def drawnDigit : Ev → Option (Fin 10)
  | ⟨.uniformDigit, digit⟩ => some digit
  | _ => none

/-- The code a call generated. -/
def generated (s : ServerState) (tid : Nat) : String := spell "" ((events s.log tid).filterMap drawnDigit)

/-- The key of the code for a usage and a phone number. -/
def codeKeyOf (usage : Int) (phoneNumber : String) : Option String :=
  (VerificationCodeRepository.getKeyPrefixForUsage (.ofInt usage)).toOption.map (· ++ phoneNumber)

/-- The phone number has a live row whenever the call does something. -/
def RegisteredDuring (s : ServerState) (tid : Nat) (phoneNumber : String) : Prop :=
  ∀ q ∈ s.log, q.tid = tid → ∃ row, q.pre.users.find .phoneNumber phoneNumber = .ok (some row)

/-- The entry at which a call issued the `SET` of its code, and what came after it. -/
def StoredAt (s : ServerState) (tid : Nat) (key : String) (e : LogEntry) (r : List LogEntry) : Prop :=
  (∃ l, s.log = l ++ e :: r) ∧ e.tid = tid ∧ e.op = .redisSet key (generated s tid) (some 300)

section Stored
variable {L : Libs} {cfg : JwtConfig} {F : Faults} {S : Setup Op Ans World Call String Outcome} {s : ServerState}
  {tid : Nat} {phoneNumber : String} {usage : Int} {reply : Reply} {status : GrpcStatus}

theorem filterMap_storeEvents (keyPrefix : String) (digits : List (Fin 10)) (a : Except String Unit) :
    (AuthService.storeEvents keyPrefix phoneNumber digits a).filterMap drawnDigit = digits := by
  simp only [AuthService.storeEvents, List.filterMap_append, List.filterMap_map]
  have hset : [(⟨.redisSet (keyPrefix ++ phoneNumber) (spell "" digits) (some 300), a⟩ : Ev)].filterMap drawnDigit =
    [] := rfl
  rw [hset, List.append_nil]
  exact List.filterMap_some

/-- The `SET` among the events of a call that ends with the storing of a code. -/
theorem storedAt_of_events (hs : Reachable S.system s) (tr₀ : List Ev) {keyPrefix : String} {digits : List (Fin 10)}
    {a : Except String Unit} (htr₀ : tr₀.filterMap drawnDigit = [])
    (hev : events s.log tid = tr₀ ++ AuthService.storeEvents keyPrefix phoneNumber digits a) :
    ∃ e r, StoredAt s tid (keyPrefix ++ phoneNumber) e r := by
  have hcode : generated s tid = spell "" digits := by
    rw [generated, hev, List.filterMap_append, htr₀, filterMap_storeEvents, List.nil_append]
  rw [AuthService.storeEvents, ← List.append_assoc] at hev
  obtain ⟨l, pre, post, r, hlog, -, -, -⟩ := Setup.entry hs (List.append_nil _).symm _ hev
  exact ⟨_, r, ⟨l, hlog⟩, rfl, by rw [hcode]⟩

/-- **A `SendCode` that answered success** for a registration, or for a login with a registered phone number, issued the
`SET` of the code it generated. -/
theorem code_stored (hS : Hosts L cfg F S) (hs : Reachable S.system s)
    (hend : Ended s tid (.sendCode phoneNumber usage) reply status) (hsucc : reply.code = some 0)
    (husage : usage = 1 ∨ usage = 2 ∧ RegisteredDuring s tid phoneNumber) :
    ∃ key e r, codeKeyOf usage phoneNumber = some key ∧ StoredAt s tid key e r := by
  obtain ⟨md, hth⟩ := hend
  obtain ⟨tr, out, hev, hrun, hout⟩ := served_sendCode hS hs hth
  obtain ⟨result, rfl, hok⟩ := sendCode_success hout hsucc
  rcases husage with rfl | ⟨rfl, hreg⟩
  · have hstore : Runs (AuthService.storeCode ⟨phoneNumber, .userRegister⟩) tr (.ok result) := hrun
    obtain ⟨digits, a, -, rfl, -⟩ := (AuthService.runs_storeCode rfl).mp hstore
    obtain ⟨e, r, hstored⟩ := storedAt_of_events hs [⟨.coSpawn "", ()⟩] rfl hev
    exact ⟨_, e, r, rfl, hstored⟩
  · obtain ⟨conn, b, tr', rfl, hanswer, hfound⟩ := AuthService.runs_sendCode_checked (.inl rfl) rfl hrun
    -- the lookup found the row of the phone number
    have hsplit : events s.log tid = [⟨.coSpawn "", ()⟩, ⟨.getConnection, conn⟩] ++
        ⟨.execParams conn (.selectWhere UserDao.selectColumns .phoneNumber) [phoneNumber], b⟩ ::
          (⟨.returnConnection conn, ()⟩ :: tr') := by
      rw [hev, UserDao.callEvents]
      rfl
    obtain ⟨l, pre, post, r, hlog, hexec, -, -⟩ := Setup.entry hs (List.append_nil _).symm _ hsplit
    rw [hS.exec] at hexec
    obtain ⟨row, hrow⟩ := hreg _ (hlog ▸ List.mem_append_right l List.mem_cons_self) rfl
    have hb : ∃ user, UserDao.selectOutcome b = .ok (.ok user) := by
      generalize UserDao.selectOutcome b = found at hanswer
      cases found with
      | error what => cases hanswer
      | ok answered =>
          cases answered with
          | error e =>
              cases hanswer
              cases hok
          | ok user => exact ⟨user, rfl⟩
    obtain ⟨user, hb⟩ := hb
    obtain ⟨row', hfind, -, rfl⟩ := find_of_selectOutcome hexec hb
    rw [hrow] at hfind
    obtain rfl := Except.ok.inj hfind
    obtain ⟨digits, a, -, rfl⟩ := hfound _ hb
    obtain ⟨e, r, hstored⟩ := storedAt_of_events hs (⟨.coSpawn "", ()⟩ :: UserDao.callEvents conn
      (.selectWhere UserDao.selectColumns .phoneNumber) [phoneNumber] b) rfl hev
    exact ⟨_, e, r, rfl, hstored⟩

end Stored

/-- The call of a thread, if it has ended, passed its check of the code under the key. -/
def CodeAccepted (s : ServerState) (tid : Nat) (key code : String) : Prop :=
  (∀ phoneNumber reply status, key = AuthService.codeKey phoneNumber →
    Ended s tid (.loginByCode phoneNumber code) reply status → reply.code ≠ some 3002) ∧
  ∀ username password phoneNumber reply status, key = BasicUserService.codeKey phoneNumber →
    Ended s tid (.register username password phoneNumber code) reply status → reply.code ≠ some 3002

/-- The code under the key can be used for 300 seconds from an entry on: until another one is stored, every `GET` of the
key that Redis answers brings it back, and a call that presents it passes its check. -/
def Usable (s : ServerState) (key code : String) (e : LogEntry) (r : List LogEntry) : Prop :=
  ∀ r₁ g r₂, r = r₁ ++ g :: r₂ → (∀ e' ∈ r₁, ∀ value ex, e'.op ≠ .redisSet key value ex) →
    g.pre.time < e.pre.time + 300 * 10 ^ 9 →
    g.toEvent = ⟨.redisGet key, (.ok (g.pre.reply key) : Except String RedisReply)⟩ →
    g.pre.reply key = .blobString code ∧ CodeAccepted s g.tid key code

section Usable
variable {L : Libs} {cfg : JwtConfig} {F : Faults} {S : Setup Op Ans World Call String Outcome} {s : ServerState}
  {tid : Nat} {phoneNumber key code : String} {usage : Int} {reply : Reply} {status : GrpcStatus} {g : LogEntry}

/-- A call whose one `GET` was answered with the code. -/
theorem answered_of_get {a : Except String RedisReply} {tr : List Ev} (hg : g ∈ s.log)
    (hget : g.toEvent = ⟨.redisGet key, (.ok (.blobString code) : Except String RedisReply)⟩)
    (hev : events s.log g.tid = ⟨.coSpawn "", ()⟩ :: ⟨.redisGet key, a⟩ :: tr)
    (hend : answerValue a ≠ some code → tr = []) : answerValue a = some code := by
  by_contra ha
  have hmem : g.toEvent ∈ events s.log g.tid := mem_events.mpr ⟨g, hg, rfl, rfl⟩
  rw [hev, hend ha, hget] at hmem
  rcases List.mem_cons.mp hmem with heq | hmem
  · cases heq
  · cases List.mem_singleton.mp hmem
    exact ha rfl

theorem code_eq_mismatch {reply : Reply} {status : CommonStatus} (h : reply.status = some (statusMessage status))
    (hcode : reply.code = some 3002) : status.code = .verificationCodeMismatch := by
  simp only [Reply.code, h, Option.map_some, statusMessage, Option.some.injEq] at hcode
  cases hstatus : status.code <;> simp [hstatus, ErrorCode.value] at hcode ⊢

theorem codeAccepted_of_get (hS : Hosts L cfg F S) (hs : Reachable S.system s) (hg : g ∈ s.log)
    (hget : g.toEvent = ⟨.redisGet key, (.ok (.blobString code) : Except String RedisReply)⟩) :
    CodeAccepted s g.tid key code := by
  refine ⟨?_, ?_⟩
  · intro phoneNumber reply status hkey hend hcode
    subst hkey
    obtain ⟨md, hth⟩ := hend
    obtain ⟨tr, out, hev, hrun, hout⟩ := served_loginByCode hS hs hth
    obtain ⟨a, tr', rfl, hmis, hpass⟩ := AuthService.runs_loginByCode_code hrun
    have ha := answered_of_get hg hget hev fun h => (hmis h).1
    cases out with
    | error what =>
        obtain rfl : reply = default := congrArg Prod.fst hout
        cases hcode
    | ok result =>
        obtain rfl : reply = loginReply result := congrArg Prod.fst hout
        exact hpass ha result rfl (code_eq_mismatch rfl hcode)
  · intro username password phoneNumber reply status hkey hend hcode
    subst hkey
    obtain ⟨md, hth⟩ := hend
    obtain ⟨tr, out, hev, hreg, hout⟩ := served_register_of hS hs hth
    obtain ⟨a, tr', rfl, hmis, hpass⟩ := hreg.code
    have ha := answered_of_get hg hget hev fun h => (hmis h).1
    cases out with
    | error what =>
        obtain rfl : reply = default := congrArg Prod.fst hout
        cases hcode
    | ok response =>
        obtain rfl : reply = registerReply response := congrArg Prod.fst hout
        exact hpass ha response rfl (code_eq_mismatch rfl hcode)

theorem redis_of_env_never {w w' : World} (h : env .never w w') : w'.redis = w.redis := by
  rcases h with ⟨time, -, rfl⟩ | ⟨hredis, -⟩
  · rfl
  · cases hredis

/-- **A reported code is a usable code, when it was stored.** Redis commands may fail in any pattern, keys do not vanish
on their own. A `SendCode` that answered success, for a registration or for a login with a registered phone number,
issued the `SET` of the code it generated; if that `SET` took effect, the code can be used for the next 300 seconds. -/
theorem code_usable {init : World → Prop} {admits : ServerState → Call → Prop}
    (hs : Reachable (serverIn L cfg F init (env .never) admits).system s)
    (hend : Ended s tid (.sendCode phoneNumber usage) reply status) (hsucc : reply.code = some 0)
    (husage : usage = 1 ∨ usage = 2 ∧ RegisteredDuring s tid phoneNumber) :
    ∃ key e r, codeKeyOf usage phoneNumber = some key ∧ StoredAt s tid key e r ∧
      (e.post = e.pre.set key (generated s tid) (some 300) → Usable s key (generated s tid) e r) := by
  have hS := hosts_serverIn L cfg F init (env .never) admits
  obtain ⟨key, e, r, hkey, hstored⟩ := code_stored hS hs hend hsucc husage
  refine ⟨key, e, r, hkey, hstored, fun hset r₁ g r₂ hr hother htime hget => ?_⟩
  obtain ⟨⟨l, hlog⟩, htid, hop⟩ := hstored
  have hlog' : s.log = (l ++ e :: r₁) ++ g :: r₂ := by simp [hlog, hr]
  have hslot := redis_stays hS.exec (fun w w' hw => congrFun (redis_of_env_never hw) key) hs _ _ _ hlog' l e r₁ rfl hset
    hother
  have hvalue : g.pre.redis.get g.pre.time key = some (generated s tid) := by
    refine Store.get_eq_some_iff.mpr ⟨_, hslot, ?_, rfl⟩
    simpa [slotOf, Slot.live] using htime
  have hreply : g.pre.reply key = .blobString (generated s tid) := by
    rw [World.reply, hvalue]
  rw [hreply] at hget
  exact ⟨hreply, codeAccepted_of_get hS hs (by simp [hlog']) hget⟩

end Usable

/-- In the state after a code was sent and a phone number registered with it, the code was usable. -/
theorem code_usable_registered :
    ∃ key e r, codeKeyOf 1 "13800000000" = some key ∧ StoredAt registered 0 key e r ∧
      Usable registered key (generated registered 0) e r := by
  have hs : Reachable (serverIn (Libs.reference Texts.alice) .photon .never (fun w => w.redis = Store.empty)
    (env .never) fun _ _ => True).system registered := reachable_registered
  have hend : Ended registered 0 (.sendCode "13800000000" 1) { status := some ⟨0, "操作成功"⟩ } .OK :=
    ⟨[], thread_of_finished (by decide +kernel)⟩
  obtain ⟨key, e, r, hkey, hstored, huse⟩ := code_usable hs hend rfl (.inl rfl)
  refine ⟨key, e, r, hkey, hstored, huse ?_⟩
  obtain ⟨⟨l, hlog⟩, htid, hop⟩ := hstored
  have hexec := Setup.executed hs e (by simp [hlog])
  obtain ⟨⟨o, a⟩, tid, pre, post⟩ := e
  obtain rfl : o = _ := hop
  rcases hexec with ⟨hset, -⟩ | ⟨-, hF, -⟩
  · exact hset
  · cases hF

/-- The code of six zeros. -/
def zeros : List (Fin 10) := [zeroDigit, zeroDigit, zeroDigit, zeroDigit, zeroDigit, zeroDigit]

/-- Redis may fail, and forgets nothing. -/
def faulty : Setup Op Ans World Call String Outcome :=
  serverIn (Libs.reference Texts.alice) .photon ⟨true, false, false⟩ (fun w => w.redis = Store.empty) (env .never)
    fun _ _ => True

/-- A `SendCode` whose `SET` fails without effect. -/
def unsavedEvents : List Ev :=
  ⟨.coSpawn "", ()⟩ :: AuthService.storeEvents "verify_code:register:" "13800000000" zeros
    (.error "Connection reset by peer")

/-- A `Register` with the code, which it does not find. -/
def missedEvents : List Ev :=
  [⟨.coSpawn "", ()⟩, ⟨.redisGet "verify_code:register:13800000000", (.ok .null : Except String RedisReply)⟩]

/-- The code was reported as sent. -/
def reported : ServerState where
  world := unregistered.world
  log := unsavedEvents.map (⟨·, 0, unregistered.world, unregistered.world⟩)
  threads := [⟨.rpc (.sendCode "13800000000" 1) [], .ret (.rpc { status := some ⟨0, "操作成功"⟩ } .OK)⟩]

/-- It is not there. -/
def unsaved : ServerState where
  world := unregistered.world
  log := reported.log ++ missedEvents.map (⟨·, 1, unregistered.world, unregistered.world⟩)
  threads := reported.threads ++ [⟨.rpc (.register "alice" "secret" "13800000000" (spell "" zeros)) [],
    .ret (.rpc { status := some ⟨3002, "验证码错误"⟩ } .OK)⟩]

theorem authenticatedAs_nobody {L : Libs} {cfg : JwtConfig} {request : Request}
    (hreq : request.rpc.kRequiresAuth = false) (md : Metadata) : AuthenticatedAs L cfg request md [] "" := by
  rw [AuthenticatedAs, hreq]
  exact ⟨rfl, rfl⟩

theorem reachable_reported : Reachable faulty.system reported := by
  have hinit : Reachable faulty.system unregistered := Reachable.of_init ⟨rfl, rfl, rfl⟩
  have hstore : Runs (AuthService.storeCode ⟨"13800000000", .userRegister⟩)
      (AuthService.storeEvents "verify_code:register:" "13800000000" zeros (.error "Connection reset by peer"))
      (.ok .ok) := (AuthService.runs_storeCode rfl).mpr ⟨zeros, _, rfl, rfl, rfl⟩
  have hlogic : Runs (runSpecificLogic (Libs.reference Texts.alice) .photon
      (userRepository (Libs.reference Texts.alice)) (.sendCode "13800000000" 1) "")
      (AuthService.storeEvents "verify_code:register:" "13800000000" zeros (.error "Connection reset by peer"))
      (.ok { status := some ⟨0, "操作成功"⟩ }) := by
    rw [runSpecificLogic_sendCode]
    exact runs_map.mpr ⟨_, hstore, rfl⟩
  have hrun : Runs (faulty.prog (.rpc (.sendCode "13800000000" 1) [])) unsavedEvents
      (.ok (.rpc { status := some ⟨0, "操作成功"⟩ } .OK)) :=
    runs_rpc (runs_serve_of (authenticatedAs_nobody rfl []) hlogic)
  have hstill : ∀ ev ∈ unsavedEvents, faulty.exec ev.op unregistered.world ev.ans unregistered.world := by
    intro ev hev
    rcases List.mem_cons.mp hev with rfl | hev
    · rfl
    rcases List.mem_append.mp hev with hev | hev
    · obtain ⟨digit, -, rfl⟩ := List.mem_map.mp hev
      rfl
    · rw [List.mem_singleton.mp hev]
      exact .inr ⟨rfl, rfl, _, rfl⟩
  obtain ⟨_, hcall⟩ := Setup.run_call hstill hrun trivial
  exact hinit.run hcall

theorem reachable_unsaved : Reachable faulty.system unsaved := by
  have hcheck : Runs (BasicUserService.register (Libs.reference Texts.alice)
      (userRepository (Libs.reference Texts.alice)) ⟨"alice", "secret", "13800000000", spell "" zeros⟩)
      [⟨.redisGet "verify_code:register:13800000000", (.ok .null : Except String RedisReply)⟩] _ :=
    BasicUserService.runs_register.mpr (.mismatch (.ok .null) nofun)
  have hlogic : Runs (runSpecificLogic (Libs.reference Texts.alice) .photon
      (userRepository (Libs.reference Texts.alice)) (.register "alice" "secret" "13800000000" (spell "" zeros)) "")
      [⟨.redisGet "verify_code:register:13800000000", (.ok .null : Except String RedisReply)⟩]
      (.ok { status := some ⟨3002, "验证码错误"⟩ }) := by
    rw [runSpecificLogic_register]
    exact runs_map.mpr ⟨_, hcheck, rfl⟩
  have hrun : Runs (faulty.prog (.rpc (.register "alice" "secret" "13800000000" (spell "" zeros)) [])) missedEvents
      (.ok (.rpc { status := some ⟨3002, "验证码错误"⟩ } .OK)) :=
    runs_rpc (runs_serve_of (authenticatedAs_nobody rfl []) hlogic)
  have hstill : ∀ ev ∈ missedEvents, faulty.exec ev.op reported.world ev.ans reported.world := by
    intro ev hev
    rcases List.mem_cons.mp hev with rfl | hev
    · rfl
    · rw [List.mem_singleton.mp hev]
      exact ⟨rfl, .inl rfl⟩
  obtain ⟨_, hcall⟩ := Setup.run_call hstill hrun trivial
  exact reachable_reported.run hcall

/-- A code whose `SET` failed is reported as sent and is refused when it is presented at once. -/
theorem code_lost : ¬ ∀ s, Reachable faulty.system s → ∀ tid phoneNumber usage reply status,
    Ended s tid (.sendCode phoneNumber usage) reply status → reply.code = some 0 →
    (usage = 1 ∨ usage = 2 ∧ RegisteredDuring s tid phoneNumber) →
    ∀ key e r, codeKeyOf usage phoneNumber = some key → StoredAt s tid key e r →
      Usable s key (generated s tid) e r := by
  intro h
  have hstored : StoredAt unsaved 0 "verify_code:register:13800000000" ⟨⟨.redisSet "verify_code:register:13800000000"
      (spell "" zeros) (some 300), (.error "Connection reset by peer" : Except String Unit)⟩, 0, unregistered.world,
      unregistered.world⟩ (missedEvents.map (⟨·, 1, unregistered.world, unregistered.world⟩)) :=
    ⟨⟨(⟨.coSpawn "", ()⟩ :: zeros.map (⟨.uniformDigit, ·⟩)).map (⟨·, 0, unregistered.world, unregistered.world⟩), rfl⟩,
      rfl, rfl⟩
  have huse := h unsaved reachable_unsaved 0 "13800000000" 1 _ _ ⟨[], rfl⟩ rfl (.inl rfl) _ _ _ rfl hstored
  have hother : ∀ e' ∈ [(⟨⟨.coSpawn "", ()⟩, 1, unregistered.world, unregistered.world⟩ : LogEntry)], ∀ value ex,
      e'.op ≠ .redisSet "verify_code:register:13800000000" value ex := by
    intro e' he' value ex heq
    rw [List.mem_singleton.mp he'] at heq
    cases heq
  have htime : unregistered.world.time < unregistered.world.time + 300 * 10 ^ 9 := by omega
  have hreply := (huse [_] ⟨⟨.redisGet "verify_code:register:13800000000", (.ok .null : Except String RedisReply)⟩, 1,
    unregistered.world, unregistered.world⟩ [] rfl hother htime rfl).1
  cases hreply

/-! ## Codes are not consumed -/

/-- The logins by code with a phone number that answered success. -/
def successfulLogins (s : ServerState) (phoneNumber : String) : Nat :=
  s.threads.countP fun
    | ⟨.rpc (.loginByCode phoneNumber' _) _, .ret (.rpc reply _)⟩ => phoneNumber' == phoneNumber && reply.code == some 0
    | _ => false

/-- The `SET`s of login codes for a phone number. -/
def storedCodes (s : ServerState) (phoneNumber : String) : Nat :=
  s.log.countP fun e => match e.op with
    | .redisSet key _ _ => key == AuthService.codeKey phoneNumber
    | _ => false

section Shown
variable {L : Libs} {cfg : JwtConfig} {F : Faults} {admits : ServerState → Call → Prop} {s : ServerState} {tid : Nat}
  {phoneNumber code : String}

/-- A login by code sets nothing in Redis. -/
theorem redis_of_loginByCode (hs : Reachable (server L cfg F admits).system s) {e : LogEntry} (he : e ∈ s.log)
    {th : Thread Op Ans Call String Outcome} {md : Metadata} (hth : s.threads[e.tid]? = some th)
    (hcall : th.call = .rpc (.loginByCode phoneNumber code) md) : e.post.redis = e.pre.redis := by
  obtain ⟨l, r, hlog⟩ := List.append_of_mem he
  have hwrites : OnWrites fun _ o => o.isRedisSet = false := fun _ _ ho _ => ho
  have halways : Always (fun _ o => o.isRedisSet = false) [] (Call.run L cfg th.call) := by
    rw [hcall]
    refine Always.bind (always_serve hwrites fun hist userId => ?_) fun _ _ _ => Always.pure _
    rw [runSpecificLogic_loginByCode]
    exact (AuthService.always_loginByCode hwrites).bind fun _ _ _ => Always.pure _
  exact exec_redis (Setup.executed hs e he) (Setup.awaits hs hlog hth halways)

/-- **A login needs the code stored last**, within its 300 seconds, and leaves it there. -/
theorem code_shown (hs : Reachable (server L cfg F admits).system s) :
    (∀ tid phoneNumber code reply status, Ended s tid (.loginByCode phoneNumber code) reply status →
      reply.code = some 0 →
      ∃ l w m g r, s.log = l ++ w :: m ++ g :: r ∧ g.tid = tid ∧ g.op = .redisGet (AuthService.codeKey phoneNumber) ∧
        (∃ th md, s.threads[w.tid]? = some th ∧ th.call = .rpc (.sendCode phoneNumber 2) md) ∧
        w.op = .redisSet (AuthService.codeKey phoneNumber) code (some 300) ∧
        Untouched (AuthService.codeKey phoneNumber) m ∧ g.pre.time < w.pre.time + 300 * 10 ^ 9) ∧
    ∀ e ∈ s.log, ∀ th phoneNumber code md, s.threads[e.tid]? = some th →
      th.call = .rpc (.loginByCode phoneNumber code) md → e.post.redis = e.pre.redis := by
  refine ⟨?_, fun e he th phoneNumber code md hth hcall => redis_of_loginByCode hs he hth hcall⟩
  intro tid phoneNumber code reply status hend hsucc
  obtain ⟨md, hth⟩ := hend
  obtain ⟨l, e, row, ⟨⟨r, hlog⟩, -⟩, phoneNumber', code', hreq, -, l₁, w, m, g, r₁, rfl, hsent⟩ :=
    loginByCode_issued hs hth hsucc
  cases hreq
  exact ⟨l₁, w, m, g, r₁ ++ e :: r, by simp [hlog], hsent⟩

end Shown

/-- The state after a code was sent to a registered phone number and used for two logins. -/
def replayed : ServerState :=
  after (Libs.reference Texts.alice) .photon
    (after (Libs.reference Texts.alice) .photon
      (after (Libs.reference Texts.alice) .photon ⟨.alice, [], []⟩ (.rpc (.sendCode "13800000000" 2) []))
      (.rpc (.loginByCode "13800000000" "000000") []))
    (.rpc (.loginByCode "13800000000" "000000") [])

theorem reachable_replayed :
    Reachable (server (Libs.reference Texts.alice) .photon .never fun _ _ => True).system replayed := by
  have hS := hosts_server (Libs.reference Texts.alice) .photon .never fun _ _ => True
  exact reachable_after hS (reachable_after hS (reachable_after hS (reachable_start rfl) trivial) trivial) trivial

theorem code_shown_replayed :
    (∃ reply status, Ended replayed 2 (.loginByCode "13800000000" "000000") reply status ∧ reply.code = some 0) ∧
      ∃ l w m g r, replayed.log = l ++ w :: m ++ g :: r ∧ g.tid = 2 ∧
        w.op = .redisSet (AuthService.codeKey "13800000000") "000000" (some 300) := by
  have hfin : finished? replayed 2 = some (.loginByCode "13800000000" "000000", [],
      { status := some ⟨0, "操作成功"⟩, token := Texts.alice.token }, .OK) := by decide +kernel
  have hend : Ended replayed 2 (.loginByCode "13800000000" "000000") _ _ := ⟨_, thread_of_finished hfin⟩
  obtain ⟨l, w, m, g, r, hlog, htid, -, -, hop, -⟩ := (code_shown reachable_replayed).1 2 _ _ _ _ hend rfl
  exact ⟨⟨_, _, hend, rfl⟩, l, w, m, g, r, hlog, htid, hop⟩

/-- Two logins succeed with one code. -/
theorem code_replayed : ¬ ∀ s, Reachable (server (Libs.reference Texts.alice) .photon .never fun _ _ => True).system s →
    ∀ phoneNumber, successfulLogins s phoneNumber ≤ storedCodes s phoneNumber := by
  intro h
  exact absurd (h replayed reachable_replayed "13800000000") (by decide +kernel)

/-! ## The answers about a phone number -/

/-- The requests about the codes of a phone number: codes for a login or a password reset, and logins. -/
def CodeRequest (phoneNumber : String) (request : Request) : Prop :=
  request = .sendCode phoneNumber 2 ∨ request = .sendCode phoneNumber 3 ∨ ∃ code, request = .loginByCode phoneNumber code

/-- At the entry a login with the phone number reads its code, and the one stored is the one it presents. -/
def guessed (s : ServerState) (phoneNumber : String) (e : LogEntry) : Bool :=
  match e.op, s.threads[e.tid]? with
  | .redisGet _, some ⟨.rpc (.loginByCode phoneNumber' code) _, _⟩ =>
      phoneNumber' == phoneNumber && e.pre.redis.get e.pre.time (AuthService.codeKey phoneNumber) == some code
  | _, _ => false

/-- How the statement of an entry failed, when it is a lookup of the phone number: with an exception, with an error or
not at all. -/
def lookupFailure (phoneNumber : String) (e : LogEntry) : Option (Except String Bool) :=
  match e.toEvent with
  | ⟨.execParams _ (.selectWhere _ .phoneNumber) params, a⟩ =>
      if params = [phoneNumber] then some (a.map fun results => (execResult results).isOk) else none
  | _ => none

/-- The lookups of the phone number by one call fail alike in the two runs. -/
def SameFailures (s s' : ServerState) (phoneNumber : String) : Prop :=
  ∀ e ∈ s.log, ∀ e' ∈ s'.log, e.tid = e'.tid → (lookupFailure phoneNumber e).isSome = true →
    (lookupFailure phoneNumber e').isSome = true → lookupFailure phoneNumber e = lookupFailure phoneNumber e'

section Enumeration
variable {L : Libs} {cfg : JwtConfig} {F : Faults} {S : Setup Op Ans World Call String Outcome} {s : ServerState}
  {tid : Nat} {phoneNumber code : String} {usage : Int} {reply : Reply} {status : GrpcStatus}

/-- What `SendCode` answers depends on how its lookup failed and not on what it found. -/
theorem lookupAnswer_of_exec {w w' : World} {key : Key} {p : String} {a : Except String (List PGresult)}
    (h : DbExec L F w (.selectWhere UserDao.selectColumns key) [p] a w') :
    AuthService.lookupAnswer (UserDao.selectOutcome a) = (a.map fun results => (execResult results).isOk).map
      fun ok => if ok then .ok else ⟨.internalError, "系统内部错误"⟩ := by
  cases h with
  | done rows t h =>
      obtain ⟨-, row, -, rfl⟩ := execute_select h
      have hok : UserDao.selectOutcome (found L key row) = _ := selectOutcome_found row
      unfold found at hok
      rw [hok]
      rfl
  | refused state message h => rfl
  | failed res hF h =>
      simp only [UserDao.selectOutcome, execResult_singleton_error h]
      simp [AuthService.lookupAnswer, Except.map, execResult_singleton_error h, Except.isOk, Except.toBool]
  | threw what hF => rfl
  | lost what rows t hF h => rfl

/-- A `SendCode` for a login or a password reset that has ended, and its lookup. -/
theorem sendCode_answer (hS : Hosts L cfg F S) (hs : Reachable S.system s) (husage : usage = 2 ∨ usage = 3)
    (hend : Ended s tid (.sendCode phoneNumber usage) reply status) :
    ∃ e ∈ s.log, ∃ failure, e.tid = tid ∧ lookupFailure phoneNumber e = some failure ∧
      (reply, status) = onLogicFinished (failure.map fun ok =>
        { status := some (statusMessage (if ok then .ok else ⟨.internalError, "系统内部错误"⟩)) }) := by
  obtain ⟨md, hth⟩ := hend
  obtain ⟨tr, out, hev, hrun, hout⟩ := served_sendCode hS hs hth
  have hchecked : ∃ conn b tr', tr = UserDao.callEvents conn (.selectWhere UserDao.selectColumns .phoneNumber)
      [phoneNumber] b ++ tr' ∧ out = AuthService.lookupAnswer (UserDao.selectOutcome b) := by
    rcases husage with rfl | rfl
    · obtain ⟨conn, b, tr', htr, hanswer, -⟩ := AuthService.runs_sendCode_checked (.inl rfl) rfl hrun
      exact ⟨conn, b, tr', htr, hanswer⟩
    · obtain ⟨conn, b, tr', htr, hanswer, -⟩ := AuthService.runs_sendCode_checked (.inr rfl) rfl hrun
      exact ⟨conn, b, tr', htr, hanswer⟩
  obtain ⟨conn, b, tr', rfl, rfl⟩ := hchecked
  have hmem : (⟨.execParams conn (.selectWhere UserDao.selectColumns .phoneNumber) [phoneNumber], b⟩ : Ev) ∈
      events s.log tid := by
    rw [hev]
    simp [UserDao.callEvents]
  obtain ⟨pre, post, he, hexec⟩ := Setup.executed_event hs hmem
  rw [hS.exec] at hexec
  refine ⟨_, he, _, rfl, if_pos rfl, ?_⟩
  rw [hout, lookupAnswer_of_exec hexec]
  cases b <;> rfl

/-- A login by a code that is not the one stored is refused. -/
theorem loginByCode_answer (hS : Hosts L cfg F S) (hs : Reachable S.system s)
    (hmiss : ∀ e ∈ s.log, guessed s phoneNumber e = false)
    (hend : Ended s tid (.loginByCode phoneNumber code) reply status) :
    reply = { status := some ⟨3002, "验证码错误"⟩ } ∧ status = .OK := by
  obtain ⟨md, hth⟩ := hend
  obtain ⟨tr, out, hev, hrun, hout⟩ := served_loginByCode hS hs hth
  obtain ⟨a, tr', rfl, hmis, -⟩ := AuthService.runs_loginByCode_code hrun
  have hmem : (⟨.redisGet (AuthService.codeKey phoneNumber), a⟩ : Ev) ∈ events s.log tid := by
    rw [hev]
    simp
  obtain ⟨pre, post, he, hexec⟩ := Setup.executed_event hs hmem
  rw [hS.exec] at hexec
  have hne : answerValue a ≠ some code := by
    intro ha
    rcases hexec.2 with hreply | ⟨-, hnone⟩
    · rw [hreply, answerValue_reply] at ha
      have hno := hmiss _ he
      simp [guessed, hth, ha] at hno
    · exact absurd (hnone.symm.trans ha) nofun
  obtain ⟨-, rfl⟩ := hmis hne
  exact ⟨congrArg Prod.fst hout, congrArg Prod.snd hout⟩

/-- **No enumeration.** Take two runs over any worlds, in particular with a phone number registered in one and not in
the other, and with any failures of Redis. If no login guesses the code stored for the phone number, in neither run, and
the lookups of a call that both runs answer fail alike, then every request about the codes of the phone number that has
ended in both is answered alike: reply and gRPC status. -/
theorem no_enumeration {F' : Faults} {init init' : World → Prop} {env env' : World → World → Prop}
    {admits admits' : ServerState → Call → Prop} {s' : ServerState}
    (hs : Reachable (serverIn L cfg F init env admits).system s)
    (hs' : Reachable (serverIn L cfg F' init' env' admits').system s')
    (hmiss : ∀ e ∈ s.log, guessed s phoneNumber e = false) (hmiss' : ∀ e ∈ s'.log, guessed s' phoneNumber e = false)
    (hfail : SameFailures s s' phoneNumber) {request : Request} (hreq : CodeRequest phoneNumber request)
    {reply' : Reply} {status' : GrpcStatus} (hend : Ended s tid request reply status)
    (hend' : Ended s' tid request reply' status') : reply = reply' ∧ status = status' := by
  have hS := hosts_serverIn L cfg F init env admits
  have hS' := hosts_serverIn L cfg F' init' env' admits'
  have hsend : ∀ usage : Int, usage = 2 ∨ usage = 3 → request = .sendCode phoneNumber usage →
      reply = reply' ∧ status = status' := by
    rintro usage husage rfl
    obtain ⟨e, he, failure, htid, hfailure, hout⟩ := sendCode_answer hS hs husage hend
    obtain ⟨e', he', failure', htid', hfailure', hout'⟩ := sendCode_answer hS' hs' husage hend'
    have hsame := hfail e he e' he' (htid.trans htid'.symm) (by rw [hfailure]; rfl) (by rw [hfailure']; rfl)
    rw [hfailure, hfailure'] at hsame
    obtain rfl := Option.some.inj hsame
    have heq := hout.trans hout'.symm
    exact ⟨congrArg Prod.fst heq, congrArg Prod.snd heq⟩
  rcases hreq with hreq | hreq | ⟨code, rfl⟩
  · exact hsend 2 (.inl rfl) hreq
  · exact hsend 3 (.inr rfl) hreq
  · obtain ⟨rfl, rfl⟩ := loginByCode_answer hS hs hmiss hend
    obtain ⟨rfl, rfl⟩ := loginByCode_answer hS' hs' hmiss' hend'
    exact ⟨rfl, rfl⟩

end Enumeration

/-- A code is asked for and guessed wrong. -/
def asked (w : World) : ServerState :=
  after (Libs.reference Texts.alice) .photon
    (after (Libs.reference Texts.alice) .photon ⟨w, [], []⟩ (.rpc (.sendCode "13800000000" 2) []))
    (.rpc (.loginByCode "13800000000" "123456") [])

theorem reachable_asked {w : World} (hw : w.redis = Store.empty) :
    Reachable (server (Libs.reference Texts.alice) .photon .never fun _ _ => True).system (asked w) := by
  have hS := hosts_server (Libs.reference Texts.alice) .photon .never fun _ _ => True
  exact reachable_after hS (reachable_after hS (reachable_start hw) trivial) trivial

theorem no_enumeration_asked :
    World.alice.users.find .phoneNumber "13800000000" = .ok (some Row.alice) ∧
      unregistered.world.users.find .phoneNumber "13800000000" = .ok none ∧
      ∃ reply status reply' status', Ended (asked .alice) 0 (.sendCode "13800000000" 2) reply status ∧
        Ended (asked unregistered.world) 0 (.sendCode "13800000000" 2) reply' status' ∧
        reply = reply' ∧ status = status' := by
  have hs : Reachable (serverIn (Libs.reference Texts.alice) .photon .never (fun w => w.redis = Store.empty)
    (env .never) fun _ _ => True).system (asked .alice) := reachable_asked rfl
  have hs' : Reachable (serverIn (Libs.reference Texts.alice) .photon .never (fun w => w.redis = Store.empty)
    (env .never) fun _ _ => True).system (asked unregistered.world) := reachable_asked rfl
  have hend : Ended (asked .alice) 0 (.sendCode "13800000000" 2) { status := some ⟨0, "操作成功"⟩ } .OK :=
    ⟨[], thread_of_finished (by decide +kernel)⟩
  have hend' : Ended (asked unregistered.world) 0 (.sendCode "13800000000" 2) { status := some ⟨0, "操作成功"⟩ } .OK :=
    ⟨[], thread_of_finished (by decide +kernel)⟩
  have hfail : SameFailures (asked .alice) (asked unregistered.world) "13800000000" := by
    unfold SameFailures
    decide +kernel
  refine ⟨by rfl, by rfl, _, _, _, _, hend, hend', ?_⟩
  exact no_enumeration hs hs' (by decide +kernel) (by decide +kernel) hfail (.inl rfl) hend hend'

end PhotonCommerce.System
