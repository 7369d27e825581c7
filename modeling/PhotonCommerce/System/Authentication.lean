import PhotonCommerce.System.CacheTransparency

/-!
# Who gets whose data

* `Issued`, `Unforgeable` : a token that verifies was returned by a login;
* `ByPassword`, `ByCode` : what a login has checked;
* `login_issued` : the token of a login that succeeded is for the user of a row it has checked;
* `authenticated` : the data a `GetUserInfo` returns were logged in for, in time.
-/

namespace PhotonCommerce.System
open Coroutine Interleaving Transition Domain Utils Infrastructure Service Adapter ExpiringMap

/-- The two logins. -/
def IsLogin (request : Request) : Prop :=
  (∃ userId password, request = .loginByPassword userId password) ∨ ∃ phoneNumber code, request = .loginByCode phoneNumber code

/-- The token was returned by a login. -/
def Issued (s : ServerState) (token : String) : Prop :=
  ∃ tid request reply status, Ended s tid request reply status ∧ IsLogin request ∧ reply.code = some 0 ∧
    reply.token = token

/-- A token of a request whose signature verifies was issued before. -/
def Unforgeable (L : Libs) (cfg : JwtConfig) (s : ServerState) (call : Call) : Prop :=
  ∀ request md token, call = .rpc request md → bearerToken md = some token →
    L.signatureValid cfg.secretKey token = true → Issued s token

/-- A login by a password whose hash is that of the row. -/
def ByPassword (L : Libs) (request : Request) (row : Row) : Prop :=
  ∃ userId password, request = .loginByPassword userId password ∧
    SecurityUtil.hashPassword L password row.salt.text = row.passwordHash.text

/-- A login by a code, in the entries before its token was made: its lookup of the phone number found the row, and its
code is the one most recently stored by a `SendCode` for logins with that number, less than 300 seconds before. -/
def ByCode (s : ServerState) (tid : Nat) (l : List LogEntry) (request : Request) (row : Row) : Prop :=
  ∃ phoneNumber code, request = .loginByCode phoneNumber code ∧
    (∃ q ∈ l, q.tid = tid ∧
      (∃ conn, q.op = .execParams conn (.selectWhere UserDao.selectColumns .phoneNumber) [phoneNumber]) ∧
      q.pre.users.find .phoneNumber phoneNumber = .ok (some row)) ∧
    ∃ l₁ w m g r₁, l = l₁ ++ w :: m ++ g :: r₁ ∧ g.tid = tid ∧ g.op = .redisGet (AuthService.codeKey phoneNumber) ∧
      (∃ th md, s.threads[w.tid]? = some th ∧ th.call = .rpc (.sendCode phoneNumber 2) md) ∧
      w.op = .redisSet (AuthService.codeKey phoneNumber) code (some 300) ∧
      Untouched (AuthService.codeKey phoneNumber) m ∧ g.pre.time < w.pre.time + 300 * 10 ^ 9

section Logins
variable {L : Libs} {cfg : JwtConfig} {F : Faults} {admits : ServerState → Call → Prop} {s : ServerState} {tid : Nat}
  {userId password phoneNumber code : String} {md : Metadata} {reply : Reply} {status : GrpcStatus}

theorem served_loginByPassword {S : Setup Op Ans World Call String Outcome} (hS : Hosts L cfg F S)
    (hs : Reachable S.system s)
    (hth : s.threads[tid]? = some ⟨.rpc (.loginByPassword userId password) md, .ret (.rpc reply status)⟩) :
    ∃ tr out, events s.log tid = ⟨.coSpawn "", ()⟩ :: tr ∧
      Runs (AuthService.loginByPassword L cfg (userRepository L) ⟨userId, password⟩) tr out ∧
      (reply, status) = onLogicFinished (out.map loginReply) := by
  obtain ⟨tr, result, hev, hlogic, hout⟩ := served_logic hS hs hth rfl
  rw [runSpecificLogic_loginByPassword] at hlogic
  obtain ⟨out, hrun, rfl⟩ := runs_map.mp hlogic
  exact ⟨tr, out, hev, hrun, hout⟩

theorem served_loginByCode {S : Setup Op Ans World Call String Outcome} (hS : Hosts L cfg F S)
    (hs : Reachable S.system s)
    (hth : s.threads[tid]? = some ⟨.rpc (.loginByCode phoneNumber code) md, .ret (.rpc reply status)⟩) :
    ∃ tr out, events s.log tid = ⟨.coSpawn "", ()⟩ :: tr ∧
      Runs (AuthService.loginByCode L cfg (userRepository L) ⟨phoneNumber, code⟩) tr out ∧
      (reply, status) = onLogicFinished (out.map loginReply) := by
  obtain ⟨tr, result, hev, hlogic, hout⟩ := served_logic hS hs hth rfl
  rw [runSpecificLogic_loginByCode] at hlogic
  obtain ⟨out, hrun, rfl⟩ := runs_map.mp hlogic
  exact ⟨tr, out, hev, hrun, hout⟩

/-- A login that succeeded. -/
theorem success_of_login {out : Except String LoginResult}
    (h : (reply, status) = onLogicFinished (out.map loginReply)) (hsucc : reply.code = some 0) :
    ∃ result, out = .ok result ∧ result.status.code = .success ∧ reply.token = result.token := by
  cases out with
  | error what =>
      obtain rfl : reply = default := congrArg Prod.fst h
      cases hsucc
  | ok result =>
      obtain rfl : reply = loginReply result := congrArg Prod.fst h
      have hok : result.status.code = .success := (code_eq_success rfl).mp hsucc
      exact ⟨result, rfl, hok, loginReply_token hok⟩

/-- The code usage of an integer is that of a login exactly for 2. -/
theorem ofInt_eq_userLogin {n : Int} (h : CodeUsage.ofInt n = .userLogin) : n = 2 := by
  unfold CodeUsage.ofInt at h
  split_ifs at h
  assumption

/-- **Where a login code comes from.** A text read under the key of a login code was stored there by a `SendCode` for a
login with that phone number, less than 300 seconds before, and nothing has been stored since. -/
theorem loginCode_sent (hs : Reachable (server L cfg F admits).system s) {l r : List LogEntry} {g : LogEntry}
    (hlog : s.log = l ++ g :: r) (hget : g.pre.redis.get g.pre.time (AuthService.codeKey phoneNumber) = some code) :
    ∃ l₁ w m, l = l₁ ++ w :: m ∧
      (∃ th md, s.threads[w.tid]? = some th ∧ th.call = .rpc (.sendCode phoneNumber 2) md) ∧
      w.op = .redisSet (AuthService.codeKey phoneNumber) code (some 300) ∧
      Untouched (AuthService.codeKey phoneNumber) m ∧ g.pre.time < w.pre.time + 300 * 10 ^ 9 := by
  obtain ⟨slot, hslot, hlive, rfl⟩ := Store.get_eq_some_iff.mp hget
  obtain ⟨l₁, w, m, value, ex, rfl, hop, rfl, hunt⟩ := (redis_written hs).2 l g r hlog _ _ hslot
  have hlog' : s.log = l₁ ++ w :: (m ++ g :: r) := by simp [hlog]
  obtain ⟨th, hth, hwrites⟩ := Setup.always (S := server L cfg F admits) Call.always_run hs hlog'
  have hp : VerificationCodeRepository.getKeyPrefixForUsage .userLogin = .ok "verify_code:login:" := rfl
  rcases hwrites _ _ _ hop with ⟨phoneNumber', usage, md, keyPrefix, hcall, hp', hkey, rfl⟩ |
      ⟨hist, id, conn, b, user, hkey, -⟩
  · obtain ⟨husage, rfl⟩ := UserRepository.codeKey_injective hp hp' hkey
    obtain rfl := ofInt_eq_userLogin husage.symm
    refine ⟨l₁, w, m, rfl, ⟨th, md, hth, hcall⟩, hop, hunt, ?_⟩
    simpa [slotOf, Slot.live] using hlive
  · exact absurd hkey (UserRepository.codeKey_ne_cacheKey hp phoneNumber id)

/-- The entry at which a login made its token, and the row it made it for. -/
def MintedAt (L : Libs) (cfg : JwtConfig) (s : ServerState) (tid : Nat) (token : String) (l : List LogEntry)
    (e : LogEntry) (row : Row) : Prop :=
  (∃ r, s.log = l ++ e :: r) ∧ e.tid = tid ∧ e.op = .now ∧ row ∈ e.pre.users.rows ∧
    token = JwtUtil.tokenAt L cfg row.id.toString e.pre.time

theorem loginByPassword_issued (hs : Reachable (server L cfg F admits).system s)
    (hth : s.threads[tid]? = some ⟨.rpc (.loginByPassword userId password) md, .ret (.rpc reply status)⟩)
    (hsucc : reply.code = some 0) :
    ∃ l e row, MintedAt L cfg s tid reply.token l e row ∧ ByPassword L (.loginByPassword userId password) row := by
  obtain ⟨tr, out, hev, hlogin, hout⟩ := served_loginByPassword (hosts_server L cfg F admits) hs hth
  obtain ⟨result, rfl, hok, htoken⟩ := success_of_login hout hsucc
  obtain ⟨tr₂, user, now, rfl, hget, hpwd, rfl⟩ := AuthService.runs_loginByPassword _ hlogin hok
  have hsplit : events s.log tid = [⟨.coSpawn "", ()⟩] ++ tr₂ ++ [⟨.now, now⟩] := hev
  obtain ⟨l₁, e₁, r₁, tr', tr'', hlog₁, -, hl₁, rfl, hcase⟩ := getUserById_instant hs hsplit hget
  obtain ⟨l, pre, post, r, hlog, ⟨hnow, -⟩, hl, -⟩ := Setup.entry hs (List.append_nil _).symm _ hsplit
  have hlt : (events l₁ tid).length < (events l tid).length := by
    rw [hl₁, hl]
    simp
  obtain ⟨m, rfl⟩ := split_lt tid (hlog₁ ▸ hlog) hlt
  rcases hcase with ⟨_, heq, row, found, hfind, rfl, hview⟩ | ⟨conn, b, -, -, hfail⟩
  · cases heq
    obtain ⟨row, rfl, hrow⟩ := Option.map_eq_some_iff.mp hview.symm
    have hid : row.id.toString = user.id := congrArg User.View.id hrow
    have hsalt : row.salt.text = user.salt := congrArg User.View.salt hrow
    have hhash : row.passwordHash.text = user.passwordHash := congrArg User.View.passwordHash hrow
    have hmem := List.IsPrefix.subset (later_pre hs hlog (List.mem_append_right l₁ List.mem_cons_self)).2
      (UsersTable.mem_of_find hfind).1
    refine ⟨_, _, row, ⟨⟨r, hlog⟩, rfl, rfl, hmem, ?_⟩, userId, password, rfl, ?_⟩
    · rw [htoken, hid]
      exact congrArg (JwtUtil.tokenAt L cfg user.id) hnow
    · rw [hsalt, hhash]
      exact hpwd
  · exact absurd rfl (hfail _)

theorem loginByCode_issued (hs : Reachable (server L cfg F admits).system s)
    (hth : s.threads[tid]? = some ⟨.rpc (.loginByCode phoneNumber code) md, .ret (.rpc reply status)⟩)
    (hsucc : reply.code = some 0) :
    ∃ l e row, MintedAt L cfg s tid reply.token l e row ∧ ByCode s tid l (.loginByCode phoneNumber code) row := by
  obtain ⟨tr, out, hev, hlogin, hout⟩ := served_loginByCode (hosts_server L cfg F admits) hs hth
  obtain ⟨result, rfl, hok, htoken⟩ := success_of_login hout hsucc
  obtain ⟨a, conn, b, user, now, rfl, ha, hb, rfl⟩ := AuthService.runs_loginByCode hlogin hok
  -- the code check, the lookup and the token, in this order
  obtain ⟨lg, preg, postg, rg, hlogg, ⟨-, hreply⟩, hlg, -⟩ :=
    Setup.entry hs (List.append_nil _).symm [⟨.coSpawn "", ()⟩] hev
  obtain ⟨lq, preq, postq, rq, hlogq, hexecq, hlq, -⟩ := Setup.entry hs (List.append_nil _).symm
    [⟨.coSpawn "", ()⟩, ⟨.redisGet (AuthService.codeKey phoneNumber), a⟩, ⟨.getConnection, conn⟩] hev
  obtain ⟨l, pre, post, r, hlog, ⟨hnow, -⟩, hl, -⟩ := Setup.entry hs (List.append_nil _).symm
    (⟨.coSpawn "", ()⟩ :: ⟨.redisGet (AuthService.codeKey phoneNumber), a⟩ ::
      UserDao.callEvents conn (.selectWhere UserDao.selectColumns .phoneNumber) [phoneNumber] b) hev
  obtain ⟨mg, hmg⟩ := split_lt tid (hlogg ▸ hlog) (by rw [hlg, hl]; simp)
  obtain ⟨mq, hmq⟩ := split_lt tid (hlogq ▸ hlog) (by rw [hlq, hl]; simp [UserDao.callEvents])
  obtain ⟨row, hfind, -, huser⟩ := find_of_selectOutcome hexecq hb
  obtain ⟨row, rfl, rfl⟩ := Option.map_eq_some_iff.mp huser.symm
  have hget : preg.redis.get preg.time (AuthService.codeKey phoneNumber) = some code := by
    rcases hreply with rfl | ⟨-, hnone⟩
    · rw [answerValue_reply] at ha
      exact ha
    · rw [hnone] at ha
      cases ha
  obtain ⟨l₁, w, m, rfl, hsent, hop, hunt, htime⟩ := loginCode_sent hs hlogg hget
  have hmemq : (⟨⟨.execParams conn (.selectWhere UserDao.selectColumns .phoneNumber) [phoneNumber], b⟩, tid, preq,
      postq⟩ : LogEntry) ∈ l := hmq ▸ List.mem_append_right lq List.mem_cons_self
  have hmem := List.IsPrefix.subset (later_pre hs hlog hmemq).2 (UsersTable.mem_of_find hfind).1
  refine ⟨l, _, row, ⟨⟨r, hlog⟩, rfl, rfl, hmem, ?_⟩, phoneNumber, code, rfl, ⟨_, hmemq, rfl, ⟨conn, rfl⟩, hfind⟩,
    l₁, w, m, _, mg, hmg, rfl, rfl, hsent, hop, hunt, htime⟩
  rw [htoken]
  exact congrArg (JwtUtil.tokenAt L cfg row.id.toString) hnow

end Logins

section Authentication
variable {L : Libs} {cfg : JwtConfig} {F : Faults} {s : ServerState} {tid : Nat}

theorem login_issued {admits : ServerState → Call → Prop} (hs : Reachable (server L cfg F admits).system s)
    {request : Request} {reply : Reply} {status : GrpcStatus} (hended : Ended s tid request reply status)
    (hlogin : IsLogin request) (hsucc : reply.code = some 0) :
    ∃ l e row, MintedAt L cfg s tid reply.token l e row ∧ (ByPassword L request row ∨ ByCode s tid l request row) := by
  obtain ⟨md, hth⟩ := hended
  rcases hlogin with ⟨userId, password, rfl⟩ | ⟨phoneNumber, code, rfl⟩
  · obtain ⟨l, e, row, hminted, hby⟩ := loginByPassword_issued hs hth hsucc
    exact ⟨l, e, row, hminted, .inl hby⟩
  · obtain ⟨l, e, row, hminted, hby⟩ := loginByCode_issued hs hth hsucc
    exact ⟨l, e, row, hminted, .inr hby⟩

/-- The sender of a code stays the sender. -/
theorem ByCode.run {admits : ServerState → Call → Prop} {t : ServerState} {ls : List (Label Call)}
    (hrun : Run (server L cfg F admits).system s ls t) {l : List LogEntry} {request : Request} {row : Row}
    (h : ByCode s tid l request row) : ByCode t tid l request row := by
  obtain ⟨phoneNumber, code, hreq, hfind, l₁, w, m, g, r₁, hl, htid, hop, ⟨th, md, hth, hcall⟩, hrest⟩ := h
  obtain ⟨th', hth', hcall'⟩ := Setup.call_persists hrun hth
  exact ⟨phoneNumber, code, hreq, hfind, l₁, w, m, g, r₁, hl, htid, hop, ⟨th', md, hth', hcall'.trans hcall⟩, hrest⟩

/-- The user a `GetUserInfo` tells about has the id it runs for. -/
theorem userId_of_getUserInfo {admits : ServerState → Call → Prop} (hs : Reachable (server L cfg F admits).system s)
    {uuid : Uuid} {tr₀ tr₁ : List Ev} (hev : events s.log tid = tr₀ ++ ⟨.coSpawn uuid.toString, ()⟩ :: tr₁)
    {result : Except String Reply} {reply : Reply} {status : GrpcStatus}
    (hlogic : Runs (runSpecificLogic L cfg (userRepository L) .getUserInfo uuid.toString) tr₁ result)
    (hout : (reply, status) = onLogicFinished result) {user : UserMessage} (huser : reply.user = some user) :
    user.userId = uuid.toString := by
  rw [runSpecificLogic_getUserInfo] at hlogic
  rcases runs_bind.mp hlogic with ⟨response, tr, tr₂, rfl, hinfo, rfl, rfl⟩ | ⟨what, rfl, -⟩
  · obtain rfl : reply = getUserInfoReply response := congrArg Prod.fst hout
    obtain ⟨hok, rfl⟩ := getUserInfoReply_user huser
    obtain ⟨found, hget, rfl⟩ := BasicUserService.runs_getUserInfo _ hinfo hok
    have hsplit : events s.log tid = (tr₀ ++ [⟨.coSpawn uuid.toString, ()⟩]) ++ tr ++ [] := by
      rw [hev]
      simp
    obtain ⟨l, e, r, tr', tr'', -, -, -, -, ⟨_, heq, row, user, hfind, rfl, hview⟩ | ⟨conn, b, -, -, hfail⟩⟩ :=
      getUserById_instant hs hsplit hget
    · cases heq
      obtain ⟨row, rfl, hrow⟩ := Option.map_eq_some_iff.mp hview.symm
      have hid := UsersTable.ofString_of_find hfind
      rw [cStr_of_nulFree (nulFree_toString uuid), Uuid.ofString?_toString] at hid
      have huuid : uuid = row.id := Option.some.inj hid
      rw [huuid]
      exact (congrArg User.View.id hrow).symm
    · exact absurd rfl (hfail _)
  · obtain rfl : reply = default := congrArg Prod.fst hout
    cases huser

/-- **Authentication is sound.** When a `GetUserInfo` has returned the data of a user, a login ended before with a token
for the row of that user: it had read the clock at a time whose sum with the lifetime of tokens, in whole seconds, is not
before any reading of the clock by the verification, which reads it, and it had checked a password of that row or the latest code sent
to a phone number of that row. -/
theorem authenticated (hs : Reachable (server L cfg F (Unforgeable L cfg)).system s) {reply : Reply}
    {status : GrpcStatus} (hended : Ended s tid .getUserInfo reply status) (hsucc : reply.code = some 0)
    {user : UserMessage} (huser : reply.user = some user) :
    ∃ tid' request reply' status' l e r row, Ended s tid' request reply' status' ∧ reply'.code = some 0 ∧
      s.log = l ++ e :: r ∧ e.tid = tid' ∧ e.op = .now ∧ (∀ e' ∈ l, e'.tid ≠ tid) ∧
      (∃ v ∈ s.log, v.tid = tid ∧ v.op = .now) ∧
      (∀ v ∈ s.log, v.tid = tid → v.op = .now →
        (v.pre.time : Int) ≤ (e.pre.time + cfg.expirationSeconds.toInt * 10 ^ 9) / 10 ^ 9 * 10 ^ 9) ∧
      row ∈ e.pre.users.rows ∧ row.id.toString = user.userId ∧
      (ByPassword L request row ∨ ByCode s tid' l request row) := by
  obtain ⟨md, hth⟩ := hended
  rcases runs_serve (served hs hth) with ⟨error, -, -, hout⟩ | ⟨tr₀, name, tr₁, result, hev, hauth, hlogic, hout⟩
  · cases hout
    cases hsucc
  obtain ⟨hnows, r₀, hr₀, hpass⟩ := runs_performAuthentication hauth
  obtain rfl := Except.ok.inj hr₀
  obtain ⟨token, hbearer, hverify⟩ := hpass name rfl
  -- the token was issued in the state in which the call was invoked
  obtain ⟨s₀, ls, hs₀, hadm, hrun, hlen⟩ := Setup.invoked hs hth
  obtain ⟨-, _, heq, hvalid⟩ := JwtUtil.runs_verifyToken hverify
  obtain rfl := Except.ok.inj heq
  obtain ⟨-, -, hsig, -, -, -⟩ := hvalid name rfl
  obtain ⟨tid', request, reply', status', hended', hlogin, hsucc', rfl⟩ := hadm _ md token rfl hbearer hsig
  obtain ⟨l, e, row, ⟨⟨r, hlog⟩, htid', hop, hrow, htoken⟩, hby⟩ := login_issued hs₀ hended' hlogin hsucc'
  rw [htoken] at hverify
  obtain ⟨rfl, ⟨now, hread⟩, hexp⟩ := JwtUtil.runs_verifyToken_tokenAt hverify
  obtain ⟨⟨rest, hext⟩, -⟩ := Setup.extends hrun
  have hlog' : s.log = l ++ e :: (r ++ rest) := by rw [hext, hlog, List.append_assoc]; rfl
  have hearly : ∀ e' ∈ s₀.log, e'.tid ≠ tid := fun e' he' => by
    have := (Setup.traced hs₀).lt he'
    omega
  refine ⟨tid', request, reply', status', l, e, r ++ rest, row, ?_, hsucc', hlog', htid', hop, ?_, ?_, ?_, hrow, ?_,
    hby.imp_right (ByCode.run hrun)⟩
  · obtain ⟨md', hth'⟩ := hended'
    exact ⟨md', Setup.ret_persists hrun hth'⟩
  · exact fun e' he' => hearly e' (by rw [hlog]; exact List.mem_append_left _ he')
  · obtain ⟨v, hv, htid, hev'⟩ := mem_events.mp (show (⟨.now, now⟩ : Ev) ∈ events s.log tid by
      rw [hev]
      exact List.mem_append_left _ hread)
    exact ⟨v, hv, htid, congrArg Event.op hev'⟩
  · rintro ⟨⟨o, a⟩, _, pre, post⟩ hv rfl rfl
    obtain ⟨hnow, -⟩ : a = pre.time ∧ post = pre := Setup.executed hs _ hv
    have hle : e.pre.time ≤ pre.time := by
      obtain ⟨lv, rv, hlogv⟩ := List.append_of_mem hv
      rcases split_order (hlog' ▸ hlogv) with ⟨-, rfl⟩ | ⟨m, rfl⟩ | ⟨m, rfl⟩
      · exact absurd rfl (hearly _ (by rw [hlog]; simp))
      · exact (later_pre hs hlogv (by simp)).1
      · exact absurd rfl (hearly _ (by rw [hlog]; simp))
    have hmem := mem_events.mpr ⟨_, hv, rfl, rfl⟩
    rw [hev, List.mem_append, List.mem_cons] at hmem
    rcases hmem with hmem | heq | hmem
    · exact JwtUtil.le_of_le_expiresAt hle (hnow ▸ hexp a hmem)
    · cases heq
    · cases isStorage_getUserInfo hlogic _ hmem
  · exact (userId_of_getUserInfo hs hev hlogic (Except.ok.inj hout) huser).symm

end Authentication

/-- A registered user logs in. -/
def loggedIn : ServerState :=
  after (Libs.reference Texts.alice) .photon ⟨.alice, [], []⟩
    (.rpc (.loginByPassword "019abf9b-0900-7000-8000-000000000000" "secret") [])

/-- The user asks for the own data with the token. -/
def shown : ServerState :=
  after (Libs.reference Texts.alice) .photon loggedIn (.rpc .getUserInfo [("authorization", Texts.alice.token)])

theorem authenticated_shown :
    ∃ tid' request reply' status' l e r row, Ended shown tid' request reply' status' ∧ reply'.code = some 0 ∧
      shown.log = l ++ e :: r ∧ e.tid = tid' ∧ row ∈ e.pre.users.rows ∧
      row.id.toString = "019abf9b-0900-7000-8000-000000000000" ∧
      (ByPassword (Libs.reference Texts.alice) request row ∨ ByCode shown tid' l request row) := by
  have hS := hosts_server (Libs.reference Texts.alice) .photon .never (Unforgeable (Libs.reference Texts.alice) .photon)
  have hlogin : Reachable (server (Libs.reference Texts.alice) .photon .never
      (Unforgeable (Libs.reference Texts.alice) .photon)).system loggedIn := by
    refine reachable_after hS (reachable_start rfl) fun request md token hcall htoken _ => ?_
    cases hcall
    cases htoken
  have hfin : finished? loggedIn 0 = some (.loginByPassword "019abf9b-0900-7000-8000-000000000000" "secret", [],
      { status := some ⟨0, "操作成功"⟩, token := Texts.alice.token }, .OK) := by decide +kernel
  have hbearer : bearerToken [("authorization", Texts.alice.token)] = some Texts.alice.token := by decide +kernel
  have hshow : Reachable (server (Libs.reference Texts.alice) .photon .never
      (Unforgeable (Libs.reference Texts.alice) .photon)).system shown := by
    refine reachable_after hS hlogin fun request md token hcall htoken _ => ?_
    cases hcall
    rw [hbearer] at htoken
    obtain rfl := Option.some.inj htoken
    exact ⟨0, _, _, _, ⟨[], thread_of_finished hfin⟩, .inl ⟨_, _, rfl⟩, rfl, rfl⟩
  have hshown : finished? shown 1 = some (.getUserInfo, [("authorization", Texts.alice.token)],
      { status := some ⟨0, "操作成功"⟩
        user := some ⟨"019abf9b-0900-7000-8000-000000000000", "alice", "", "", "13800000000"⟩ }, .OK) := by
    decide +kernel
  obtain ⟨tid', request, reply', status', l, e, r, row, hended, hcode, hlog, htid, -, -, -, -, hrow, hid, hby⟩ :=
    authenticated hshow ⟨_, thread_of_finished hshown⟩ rfl rfl
  exact ⟨tid', request, reply', status', l, e, r, row, hended, hcode, hlog, htid, hrow, hid, hby⟩

end PhotonCommerce.System
