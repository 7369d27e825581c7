import PhotonCommerce.Adapter.Endpoints
import PhotonCommerce.Runtime.Reference

/-!
# The running server

* `Call`, `Outcome` : the RPCs, and the two lookups of the repository as calls of their own;
* `server` : every interleaving of calls over one world; `serverIn` : the same over worlds that start or change
  otherwise; `Hosts` : what the two have in common;
* `Call.Writes` : which `SET`s a call may await;
* `select_exec` : what the statement of a lookup brings back;
* `cache_source` : every entry of the user cache was read from the table by a lookup before;
* `cache_agrees` : every entry of the user cache is the row of its id;
* `getUserById_instant` : a lookup answers the table at an instant of the call, or its own DAO call failed.
-/

namespace PhotonCommerce.System
open Coroutine Interleaving Transition Domain Infrastructure Service Adapter ExpiringMap

inductive Call where
  | rpc (request : Request) (md : Metadata)
  | getUserById (id : String)
  | getUserByPhoneNumber (phoneNumber : String)

inductive Outcome where
  | rpc (reply : Reply) (status : GrpcStatus)
  | user (result : Except DbError (Option User))

def Call.run (L : Libs) (cfg : JwtConfig) : Call → Prog Outcome
  | .rpc request md => do
      let (reply, status) ← serve L cfg (userRepository L) request md
      return .rpc reply status
  | .getUserById id => do
      let result ← (userRepository L).getUserById id
      return .user result
  | .getUserByPhoneNumber phoneNumber => do
      let result ← (userRepository L).getUserByPhoneNumber phoneNumber
      return .user result

abbrev ServerState := State Op Ans World Call String Outcome

/-- Every interleaving of the calls, each invoked when `admits` allows it. -/
def server (L : Libs) (cfg : JwtConfig) (F : Faults) (admits : ServerState → Call → Prop) :
    Setup Op Ans World Call String Outcome := setup L F (Call.run L cfg) admits

/-- The calls over worlds that start with `init` and on their own change by `env`. -/
def serverIn (L : Libs) (cfg : JwtConfig) (F : Faults) (init : World → Prop) (env : World → World → Prop)
    (admits : ServerState → Call → Prop) : Setup Op Ans World Call String Outcome where
  init := init
  exec := exec L F
  env := env
  prog := Call.run L cfg
  admits := admits

/-- The setup runs the calls with the operations of the world. -/
structure Hosts (L : Libs) (cfg : JwtConfig) (F : Faults) (S : Setup Op Ans World Call String Outcome) : Prop where
  exec : S.exec = exec L F
  prog : S.prog = Call.run L cfg

theorem hosts_server (L : Libs) (cfg : JwtConfig) (F : Faults) (admits : ServerState → Call → Prop) :
    Hosts L cfg F (server L cfg F admits) := ⟨rfl, rfl⟩

theorem hosts_serverIn (L : Libs) (cfg : JwtConfig) (F : Faults) (init : World → Prop) (env : World → World → Prop)
    (admits : ServerState → Call → Prop) : Hosts L cfg F (serverIn L cfg F init env admits) := ⟨rfl, rfl⟩

/-- The RPC of a thread has ended with a reply and a status. -/
def Ended (s : ServerState) (tid : Nat) (request : Request) (reply : Reply) (status : GrpcStatus) : Prop :=
  ∃ md, s.threads[tid]? = some ⟨.rpc request md, .ret (.rpc reply status)⟩

section Served
variable {L : Libs} {cfg : JwtConfig} {F : Faults} {admits : ServerState → Call → Prop} {s : ServerState} {tid : Nat}
  {request : Request} {md : Metadata} {reply : Reply} {status : GrpcStatus}

/-- An RPC that has ended ran through `serve`. -/
theorem served_of {S : Setup Op Ans World Call String Outcome} (hS : Hosts L cfg F S) (hs : Reachable S.system s)
    (hth : s.threads[tid]? = some ⟨.rpc request md, .ret (.rpc reply status)⟩) :
    Runs (serve L cfg (userRepository L) request md) (events s.log tid) (.ok (reply, status)) := by
  have hrun := Setup.ended hs hth
  rw [hS.prog] at hrun
  rcases runs_bind.mp hrun with ⟨⟨reply', status'⟩, tr₁, tr₂, htr, hserve, rfl, hout⟩ | ⟨e, he, -⟩
  · cases hout
    rw [htr, List.append_nil]
    exact hserve
  · cases he

theorem served (hs : Reachable (server L cfg F admits).system s)
    (hth : s.threads[tid]? = some ⟨.rpc request md, .ret (.rpc reply status)⟩) :
    Runs (serve L cfg (userRepository L) request md) (events s.log tid) (.ok (reply, status)) :=
  served_of (hosts_server L cfg F admits) hs hth

theorem runs_rpc {tr : List Ev} (h : Runs (serve L cfg (userRepository L) request md) tr (.ok (reply, status))) :
    Runs (Call.run L cfg (.rpc request md)) tr (.ok (.rpc reply status)) := by
  refine runs_bind.mpr (.inl ⟨(reply, status), tr, [], (List.append_nil tr).symm, h, ?_⟩)
  exact ⟨rfl, rfl⟩

/-- An RPC without authentication that has ended ran through its business logic. -/
theorem served_logic {S : Setup Op Ans World Call String Outcome} (hS : Hosts L cfg F S) (hs : Reachable S.system s)
    (hth : s.threads[tid]? = some ⟨.rpc request md, .ret (.rpc reply status)⟩)
    (hreq : request.rpc.kRequiresAuth = false) :
    ∃ tr result, events s.log tid = ⟨.coSpawn "", ()⟩ :: tr ∧
      Runs (runSpecificLogic L cfg (userRepository L) request "") tr result ∧
      (reply, status) = onLogicFinished result := by
  rcases runs_serve (served_of hS hs hth) with ⟨error, hauth, -, -⟩ | ⟨tr₀, userId, tr, result, hev, hauth, hlogic, hout⟩
  · rw [hreq] at hauth
    cases hauth
  · rw [AuthenticatedAs, hreq] at hauth
    obtain ⟨rfl, rfl⟩ := hauth
    exact ⟨tr, result, hev, hlogic, Except.ok.inj hout⟩

/-- An RPC does not throw. -/
theorem running_or_ended (hs : Reachable (server L cfg F admits).system s) {todo : Prog Outcome}
    (hth : s.threads[tid]? = some ⟨.rpc request md, todo⟩) :
    (∃ o k, todo = .await o k) ∨ ∃ reply status, todo = .ret (.rpc reply status) := by
  have htr := (Setup.traced hs).trace tid _ hth
  cases todo with
  | await o k => exact .inl ⟨o, k, rfl⟩
  | ret v =>
      rcases runs_bind.mp htr.runs_ret with ⟨⟨reply, status⟩, tr₁, tr₂, -, -, -, hout⟩ | ⟨e, he, -⟩
      · cases hout
        exact .inr ⟨reply, status, rfl⟩
      · cases he
  | throw what =>
      rcases runs_bind.mp htr.runs_throw with ⟨v, tr₁, tr₂, -, -, -, hout⟩ | ⟨e, -, hserve⟩
      · cases hout
      · rcases runs_serve hserve with ⟨error, -, -, hout⟩ | ⟨tr₀, userId, tr₁, result, -, -, -, hout⟩ <;> cases hout

/-- The RPC of a thread, when it has ended, and what it ended with. -/
def finished? (s : ServerState) (tid : Nat) : Option (Request × Metadata × Reply × GrpcStatus) :=
  match s.threads[tid]? with
  | some ⟨.rpc request md, .ret (.rpc reply status)⟩ => some (request, md, reply, status)
  | _ => none

theorem thread_of_finished (h : finished? s tid = some (request, md, reply, status)) :
    s.threads[tid]? = some ⟨.rpc request md, .ret (.rpc reply status)⟩ := by
  unfold finished? at h
  split at h
  · next hth =>
      cases h
      exact hth
  · cases h

/-- The state after a call that nothing disturbs. -/
def after (L : Libs) (cfg : JwtConfig) (s : ServerState) (call : Call) : ServerState :=
  s.complete (server L cfg .never fun _ _ => True) (World.answer L) call

end Served

section After
variable {L : Libs} {cfg : JwtConfig} {F : Faults} {S : Setup Op Ans World Call String Outcome} {s : ServerState}
  {call : Call}

theorem run_after (hS : Hosts L cfg F S) (hadm : S.admits s call) : ∃ ls, Run S.system s ls (after L cfg s call) := by
  have hanswer : ∀ o w, S.exec o w (World.answer L o w).1 (World.answer L o w).2 := by
    rw [hS.exec]
    exact exec_answer L F
  have hcomplete : after L cfg s call = s.complete S (World.answer L) call := by
    unfold after State.complete
    rw [hS.prog]
    rfl
  rw [hcomplete]
  exact Setup.run_complete hanswer hadm

theorem reachable_after (hS : Hosts L cfg F S) (hs : Reachable S.system s) (hadm : S.admits s call) :
    Reachable S.system (after L cfg s call) := by
  obtain ⟨ls, hrun⟩ := run_after hS hadm
  exact hs.run hrun

/-- A world with an empty Redis, before any call. -/
theorem reachable_start {admits : ServerState → Call → Prop} {w : World} (hw : w.redis = Store.empty) :
    Reachable (server L cfg F admits).system ⟨w, [], []⟩ := Reachable.of_init ⟨hw, rfl, rfl⟩

end After

/-! ## What is written to Redis -/

/-- The `SET` of a `SendCode`. -/
def CodeSave (call : Call) (key : String) (ex : Option Int) : Prop :=
  ∃ phoneNumber usage md keyPrefix, call = .rpc (.sendCode phoneNumber usage) md ∧
    VerificationCodeRepository.getKeyPrefixForUsage (.ofInt usage) = .ok keyPrefix ∧ key = keyPrefix ++ phoneNumber ∧
    ex = some 300

/-- The back-fill of the user that the call's own lookup has just found. -/
def CacheFill (L : Libs) (hist : List Ev) (key value : String) : Prop :=
  ∃ hist' id conn b user, key = UserRepository.cacheKey id ∧
    hist = hist' ++ UserDao.callEvents conn (.selectWhere UserDao.selectColumns .id) [id] b ∧
    UserDao.selectOutcome b = .ok (.ok (some user)) ∧ value = L.dump user.toJson

/-- What a call may write to Redis. -/
def Call.Writes (L : Libs) (call : Call) (hist : List Ev) (o : Op) : Prop :=
  ∀ key value ex, o = .redisSet key value ex → CodeSave call key ex ∨ CacheFill L hist key value

section Writes
variable {L : Libs} {cfg : JwtConfig}

theorem Call.onWrites (call : Call) : OnWrites (call.Writes L) := by
  rintro hist o ho - key value ex rfl
  cases ho

theorem Call.always_getUserById (call : Call) (hist : List Ev) (id : String) :
    Always (call.Writes L) hist ((userRepository L).getUserById id) := by
  refine UserRepository.always_getUserById call.onWrites fun hist conn b user hb key value ex heq => .inr ?_
  cases heq
  exact ⟨hist, id, conn, b, user, rfl, rfl, hb, rfl⟩

theorem Call.always_run (call : Call) : Always (call.Writes L) [] (call.run L cfg) := by
  cases call with
  | getUserById id => exact (Call.always_getUserById _ _ id).bind fun _ _ _ => Always.pure _
  | getUserByPhoneNumber phoneNumber =>
      exact (UserDao.always_selectUser (Call.onWrites _)).bind fun _ _ _ => Always.pure _
  | rpc request md =>
      refine Always.bind (always_serve (Call.onWrites _) fun hist userId => ?_) fun _ _ _ => Always.pure _
      refine Always.bind ?_ fun _ _ _ => Always.pure _
      cases request with
      | register username password phoneNumber code =>
          refine (BasicUserService.always_register (Call.onWrites _) ?_).bind fun _ _ _ => Always.pure _
          intro hist conn params key value ex heq
          cases heq
      | sendCode phoneNumber usage =>
          refine (AuthService.always_sendCode (Call.onWrites _) ?_).bind fun _ _ _ => Always.pure _
          intro hist keyPrefix code hp key value ex heq
          cases heq
          exact .inl ⟨phoneNumber, usage, md, keyPrefix, rfl, hp, rfl, rfl⟩
      | loginByPassword user password =>
          exact (AuthService.always_loginByPassword _ (Call.onWrites _)
            fun hist => Call.always_getUserById _ hist _).bind fun _ _ _ => Always.pure _
      | loginByCode phoneNumber code =>
          exact (AuthService.always_loginByCode (Call.onWrites _)).bind fun _ _ _ => Always.pure _
      | getUserInfo =>
          exact (BasicUserService.always_getUserInfo _ fun hist => Call.always_getUserById _ hist _).bind
            fun _ _ _ => Always.pure _

end Writes

/-! ## Lookups -/

section Lookups
variable {L : Libs} {F : Faults} {w w' : World} {key : Key} {p : String}
  {a : Except String (List PGresult)}

/-- The answer to a lookup that found the row, or none. -/
def found (L : Libs) (key : Key) (row : Option Row) : Except String (List PGresult) :=
  .ok [resultOf (.selectWhere UserDao.selectColumns key)
    (row.toList.map fun r => UserDao.selectColumns.map (r.field L.timestamptzOut))]

/-- The DAO decodes the row that was found. -/
theorem selectOutcome_found (row : Option Row) :
    UserDao.selectOutcome (found L key row) = .ok (.ok (row.map (UserDao.userOfRow L.timestamptzOut))) := by
  simp only [found, UserDao.selectOutcome, resultOf]
  rw [execResult_singleton_ok rfl]
  cases row with
  | none => rfl
  | some r =>
      have hrow := UserDao.mapRowToUser_fields L.timestamptzOut r
        ⟨.tuplesOk, (some r).toList.map fun r => UserDao.selectColumns.map (r.field L.timestamptzOut), "", none⟩ rfl
      have hntuples : pqNtuples (some ⟨.tuplesOk,
        (some r).toList.map fun r => UserDao.selectColumns.map (r.field L.timestamptzOut), "", none⟩) = 1 := rfl
      simp only [hntuples, Nat.one_ne_zero, if_false, Option.map_some, hrow]

/-- **What a lookup brings back**: the row of the table, or a failure. -/
theorem select_exec (h : DbExec L F w (.selectWhere UserDao.selectColumns key) [p] a w') :
    (∃ row, w.users.find key p = .ok row ∧ a = found L key row) ∨
    (∃ e, UserDao.selectOutcome a = .ok (.error e)) ∨ ∃ what, UserDao.selectOutcome a = .error what := by
  cases h with
  | done rows t h =>
      obtain ⟨-, r, hfind, rfl⟩ := execute_select h
      exact .inl ⟨r, hfind, rfl⟩
  | refused state message h => exact .inr (.inl ⟨_, rfl⟩)
  | failed res hF h =>
      refine .inr (.inl ⟨⟨.sqlExecutionError, res.errorMessage, res.sqlState.getD ""⟩, ?_⟩)
      simp only [UserDao.selectOutcome, execResult_singleton_error h]
  | threw what hF => exact .inr (.inr ⟨what, rfl⟩)
  | lost what rows t hF h => exact .inr (.inr ⟨what, rfl⟩)

/-- A lookup that found something found the row of the table. -/
theorem find_of_selectOutcome (h : DbExec L F w (.selectWhere UserDao.selectColumns key) [p] a w')
    {user : Option User} (ha : UserDao.selectOutcome a = .ok (.ok user)) :
    ∃ row, w.users.find key p = .ok row ∧ a = found L key row ∧
      user = row.map (UserDao.userOfRow L.timestamptzOut) := by
  rcases select_exec h with ⟨row, hfind, rfl⟩ | ⟨e, he⟩ | ⟨what, he⟩
  · rw [selectOutcome_found] at ha
    exact ⟨row, hfind, rfl, (Except.ok.inj (Except.ok.inj ha)).symm⟩
  · rw [he] at ha
    cases ha
  · rw [he] at ha
    cases ha

/-- A lookup that the database answers brings back the row. -/
theorem select_exec_answered (hdbError : F.dbError = false) (hdbLost : F.dbLost = false)
    (h : DbExec L F w (.selectWhere UserDao.selectColumns key) [p] a w') {row : Option Row}
    (hfind : w.users.find key p = .ok row) : a = found L key row := by
  cases h with
  | done rows t h =>
      obtain ⟨-, r, hr, rfl⟩ := execute_select h
      rw [show w.users.find key p = .ok r from hr] at hfind
      cases hfind
      rfl
  | refused state message h =>
      simp only [UsersTable.execute, List.getD_cons_zero, hfind] at h
      cases h
  | failed res hF h => cases hdbError.symm.trans hF
  | threw what hF => cases hdbError.symm.trans hF
  | lost what rows t hF h => cases hdbLost.symm.trans hF

/-- A key the database cannot read fails the lookup. -/
theorem select_exec_refused (hdbError : F.dbError = false) (hdbLost : F.dbLost = false)
    (h : DbExec L F w (.selectWhere UserDao.selectColumns key) [p] a w') {state : SqlState}
    (hfind : w.users.find key p = .error state) : ∃ e, UserDao.selectOutcome a = .ok (.error e) := by
  cases h with
  | done rows t h =>
      obtain ⟨-, r, hr, rfl⟩ := execute_select h
      rw [show w.users.find key p = .ok r from hr] at hfind
      cases hfind
  | refused state message h => exact ⟨_, rfl⟩
  | failed res hF h => cases hdbError.symm.trans hF
  | threw what hF => cases hdbError.symm.trans hF
  | lost what rows t hF h => cases hdbLost.symm.trans hF

/-- Without faults a lookup brings back the row. -/
theorem select_exec_never (h : DbExec L .never w (.selectWhere UserDao.selectColumns key) [p] a w') {row : Option Row}
    (hfind : w.users.find key p = .ok row) : a = found L key row := select_exec_answered rfl rfl h hfind

/-- A lookup can be answered by the row of the table. -/
theorem exec_found {row : Option Row} (h : w.users.find key p = .ok row) :
    DbExec L F w (.selectWhere UserDao.selectColumns key) [p] (found L key row) w := by
  refine DbExec.done _ w.users ?_
  simp only [UsersTable.execute, List.getD_cons_zero, h]
  rfl

end Lookups

/-! ## The user cache -/

section Cache
variable {L : Libs} {cfg : JwtConfig} {F : Faults} {admits : ServerState → Call → Prop} {s : ServerState} {tid : Nat}
  {id : String}

theorem cacheKey_injective {id id' : String} (h : UserRepository.cacheKey id = UserRepository.cacheKey id') : id = id' :=
  (String.append_right_inj "user:info:").mp h

/-- What the codec of the cache makes of a row. -/
theorem decode_dump_userOfRow (row : Row) :
    UserRepository.decode L (L.dump (UserDao.userOfRow L.timestamptzOut row).toJson) =
      some (UserDao.userOfRow L.timestamptzOut row).cached := by
  obtain ⟨hlo, hhi, -⟩ := UserDao.sound_userOfRow L.timestamptzOut row
  simp only [UserRepository.decode, L.parse_dump, Option.bind_some, User.fromJson_toJson L.outside _ hlo hhi]

theorem view_cached_userOfRow (row : Row) :
    (UserDao.userOfRow L.timestamptzOut row).cached.view = (UserDao.userOfRow L.timestamptzOut row).view := by
  obtain ⟨hlo, hhi, -⟩ := UserDao.sound_userOfRow L.timestamptzOut row
  exact User.view_cached _ hlo hhi rfl

/-- What an entry of the cache was written with is a row that a lookup of the id had found. -/
theorem cache_written {S : Setup Op Ans World Call String Outcome} (hS : Hosts L cfg F S) (hs : Reachable S.system s)
    {l r : List LogEntry} (hlog : s.log = l ++ r) {slot : Slot String}
    (hwritten : WrittenBy l (UserRepository.cacheKey id) slot) :
    ∃ q ∈ l, ∃ conn row, q.op = .execParams conn (.selectWhere UserDao.selectColumns .id) [id] ∧
      q.pre.users.find .id id = .ok (some row) ∧
      UserRepository.decode L slot.value = some (UserDao.userOfRow L.timestamptzOut row).cached := by
  obtain ⟨l', e', r', value, ex, rfl, hop, rfl, -⟩ := hwritten
  have hlog' : s.log = l' ++ e' :: (r' ++ r) := by simp [hlog]
  have hwrites : ∀ call, Always (call.Writes L) [] (S.prog call) := by
    rw [hS.prog]
    exact Call.always_run
  obtain ⟨th, -, hwrite⟩ := Setup.always hwrites hs hlog'
  rcases hwrite _ _ _ hop with ⟨phoneNumber, usage, md, keyPrefix, -, hp, hkey, -⟩ |
      ⟨hist, id', conn, b, user, hkey, hev, hb, rfl⟩
  · exact absurd hkey.symm (UserRepository.codeKey_ne_cacheKey hp phoneNumber id)
  · obtain rfl := cacheKey_injective hkey
    -- the lookup whose user is written back comes before the `SET`
    obtain ⟨l₁, pre, post, r₁, rfl, hexec, -, -⟩ :=
      Setup.entry hs hlog' (hist ++ [⟨.getConnection, conn⟩]) (by rw [hev, UserDao.callEvents, List.append_assoc]; rfl)
    rw [hS.exec] at hexec
    obtain ⟨row, hfind, -, huser⟩ := find_of_selectOutcome hexec hb
    obtain ⟨row, rfl, rfl⟩ := Option.map_eq_some_iff.mp huser.symm
    exact ⟨_, List.mem_append_left _ (List.mem_append_right l₁ List.mem_cons_self), conn, row, rfl, hfind,
      decode_dump_userOfRow row⟩

/-- **Where the cache comes from.** Where Redis is empty at first and only operations set its keys, what the cache holds
for an id is a row that a lookup of the id found before. -/
theorem cache_source {S : Setup Op Ans World Call String Outcome} (hS : Hosts L cfg F S)
    (hinit : ∀ w, S.init w → w.redis = Store.empty)
    (henv : ∀ w w' key slot, S.env w w' → w'.redis key = some slot → w.redis key = some slot)
    (hs : Reachable S.system s) {l r : List LogEntry} {e : LogEntry} (hlog : s.log = l ++ e :: r) {slot : Slot String}
    (hslot : e.pre.redis (UserRepository.cacheKey id) = some slot) :
    ∃ q ∈ l, ∃ conn row, q.op = .execParams conn (.selectWhere UserDao.selectColumns .id) [id] ∧
      q.pre.users.find .id id = .ok (some row) ∧
      UserRepository.decode L slot.value = some (UserDao.userOfRow L.timestamptzOut row).cached := by
  have hunset : ∀ w, S.init w → w.redis (UserRepository.cacheKey id) = none := fun w hw => by
    rw [hinit w hw]
    rfl
  exact cache_written hS hs hlog
    ((redis_written_of hS.exec hunset (fun w w' slot => henv w w' _ slot) hs).2 l e r hlog _ hslot)

/-- **The cache agrees with the table.** Before every entry of the log, what the cache holds for an id is the row the
table has for it. -/
theorem cache_agrees (hs : Reachable (server L cfg F admits).system s) {l r : List LogEntry} {e : LogEntry}
    (hlog : s.log = l ++ e :: r) {slot : Slot String} (hslot : e.pre.redis (UserRepository.cacheKey id) = some slot) :
    ∃ row, e.pre.users.find .id id = .ok (some row) ∧
      UserRepository.decode L slot.value = some (UserDao.userOfRow L.timestamptzOut row).cached := by
  obtain ⟨q, hq, conn, row, -, hfind, hdec⟩ := cache_source (hosts_server L cfg F admits) (fun _ hw => hw)
    (fun _ _ _ _ => redis_of_env) hs hlog hslot
  exact ⟨row, (later_pre hs hlog hq).2.find hfind, hdec⟩

/-- What a lookup of an id reports is what a table has. -/
def Answers (L : Libs) (t : UsersTable) (id : String) (result : Except DbError (Option User)) : Prop :=
  ∃ row user, t.find .id id = .ok row ∧ result = .ok user ∧
    user.map User.view = row.map fun r => (UserDao.userOfRow L.timestamptzOut r).view

/-- **A lookup through the cache** reports the table before one of the call's own entries, or what its own failed DAO
call reports. -/
theorem getUserById_instant (hs : Reachable (server L cfg F admits).system s) {tr₁ tr tr₂ : List Ev}
    (hev : events s.log tid = tr₁ ++ tr ++ tr₂) {out : Except String (Except DbError (Option User))}
    (hrun : Runs (UserRepository.getUserById L id) tr out) :
    ∃ l e r tr' tr'', s.log = l ++ e :: r ∧ e.tid = tid ∧ events l tid = tr₁ ++ tr' ∧ tr = tr' ++ e.toEvent :: tr'' ∧
      ((∃ result, out = .ok result ∧ Answers L e.pre.users id result) ∨
        ∃ conn b, e.toEvent = ⟨.execParams conn (.selectWhere UserDao.selectColumns .id) [id], b⟩ ∧
          out = UserDao.selectOutcome b ∧ ∀ user, out ≠ .ok (.ok user)) := by
  rcases UserRepository.runs_getUserById hrun with ⟨a, value, user, rfl, ha, hdec, rfl⟩ |
      ⟨a, conn, b, fill, rfl, rfl, -⟩
  · obtain ⟨l, pre, post, r, hlog, hexec, hl, -⟩ :=
      Setup.entry hs (List.append_nil _).symm tr₁ (by rw [hev, List.append_assoc]; rfl)
    refine ⟨l, _, r, [], [], hlog, rfl, by rw [hl, List.append_nil], rfl, .inl ⟨_, rfl, ?_⟩⟩
    -- a reply with a text is the live slot of the key
    obtain ⟨-, rfl | ⟨-, hnone⟩⟩ := hexec
    · rw [answerValue_reply] at ha
      obtain ⟨slot, hslot, -, rfl⟩ := Store.get_eq_some_iff.mp ha
      obtain ⟨row, hfind, hcached⟩ := cache_agrees hs hlog hslot
      rw [hdec] at hcached
      obtain rfl := Option.some.inj hcached
      exact ⟨some row, _, hfind, rfl, congrArg some (view_cached_userOfRow row)⟩
    · rw [hnone] at ha
      cases ha
  · have hsplit : events s.log tid = (tr₁ ++ [⟨.redisGet (UserRepository.cacheKey id), a⟩, ⟨.getConnection, conn⟩]) ++
        ⟨.execParams conn (.selectWhere UserDao.selectColumns .id) [id], b⟩ ::
          (⟨.returnConnection conn, ()⟩ :: (fill ++ tr₂)) := by
      rw [hev, UserDao.callEvents]
      simp
    obtain ⟨l, pre, post, r, hlog, hexec, hl, -⟩ := Setup.entry hs (List.append_nil _).symm _ hsplit
    refine ⟨l, _, r, _, _, hlog, rfl, hl, rfl, ?_⟩
    by_cases hout : ∃ user, UserDao.selectOutcome b = .ok (.ok user)
    · obtain ⟨user, hb⟩ := hout
      obtain ⟨row, hfind, -, rfl⟩ := find_of_selectOutcome hexec hb
      refine .inl ⟨_, hb, row, _, hfind, rfl, ?_⟩
      rw [Option.map_map]
      rfl
    · exact .inr ⟨conn, b, rfl, rfl, fun user hb => hout ⟨user, hb⟩⟩

end Cache

end PhotonCommerce.System
