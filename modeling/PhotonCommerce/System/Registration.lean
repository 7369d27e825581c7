import PhotonCommerce.System.Server

/-!
# What registrations do to the world

* `insert_success`, `insert_exec` : the `INSERT` of a registration adds its row or fails;
* `Registered` : the row of a registration;
* `inserted_entry`, `register_entry` : a registration issues its `INSERT` at one entry of the log, and one that succeeded
  added its row there;
* `register_effect` : one success for each phone number, exactly that row, nothing otherwise.
-/

namespace PhotonCommerce.System
open Coroutine Interleaving Transition Domain Utils Infrastructure Service Adapter

/-- The row of a user registered with a username, a password, a phone number, an id and a salt. -/
structure Registered (L : Libs) (username password phoneNumber userId salt : String) (row : Row) : Prop where
  id : row.id.toString = userId
  phoneNumber : row.phoneNumber.text = phoneNumber
  username : row.username.map Varchar.text = some username
  email : row.email.map Varchar.text = some ""
  passwordHash : row.passwordHash.text = SecurityUtil.hashPassword L password salt
  salt : row.salt.text = salt
  avatarUrl : row.avatarUrl.map Varchar.text = some ""
  status : row.status = 0
  deletedAt : row.deletedAt = none

section Insert
variable {L : Libs} {F : Faults} {w w' : World} {columns : List Column} {params : List String}
  {a : Except String (List PGresult)}

/-- An `INSERT` that reports success added the row. -/
theorem insert_success (h : DbExec L F w (.insertInto columns) params a w')
    (hok : UserDao.createOutcome a = .ok (.ok ())) : ∃ row, ∃ hrow : w.users.Admits row,
      Row.ofParams columns params (w.time / 1000) = .ok row ∧ w' = { w with users := w.users.add row hrow } := by
  cases h with
  | done rows t h =>
      simp only [UsersTable.execute] at h
      cases hins : w.users.insert columns params (w.time / 1000) with
      | error state =>
          rw [hins] at h
          cases h
      | ok t' =>
          rw [hins] at h
          cases h
          obtain ⟨row, hrow, hof, rfl⟩ := UsersTable.insert_eq_ok hins
          exact ⟨row, hrow, hof, rfl⟩
  | refused state message h => exact absurd hok (UserDao.createOutcome_of_isError rfl)
  | failed res hF h => exact absurd hok (UserDao.createOutcome_of_isError h)
  | threw what hF => cases hok
  | lost what rows t hF h => cases hok

/-- **An `INSERT`** whose errors mean that it did nothing reports success exactly when it added the row. -/
theorem insert_exec (hF : F.dbLost = false) (h : DbExec L F w (.insertInto columns) params a w') :
    (UserDao.createOutcome a = .ok (.ok ()) ∧ ∃ row, ∃ hrow : w.users.Admits row,
      Row.ofParams columns params (w.time / 1000) = .ok row ∧ w' = { w with users := w.users.add row hrow }) ∨
    (UserDao.createOutcome a ≠ .ok (.ok ()) ∧ w' = w) := by
  by_cases hok : UserDao.createOutcome a = .ok (.ok ())
  · exact .inl ⟨hok, insert_success h hok⟩
  · refine .inr ⟨hok, ?_⟩
    cases h with
    | done rows t h => exact absurd rfl hok
    | refused state message h => rfl
    | failed res hF h => rfl
    | threw what hF => rfl
    | lost what rows t hlost h =>
        rw [hF] at hlost
        cases hlost

/-- The row of a registration whose texts fit their columns. -/
theorem registered_of_ofParams {username password phoneNumber code : String} {d : BasicUserService.Draw} {now : Int}
    {row : Row} (h : Row.ofParams UserDao.insertColumns (UserDao.insertParams (BasicUserService.newUser L
      ⟨username, password, phoneNumber, code⟩ d.uuid.toString d.salt)) now = .ok row)
    (hname : NulFree username) (hnamelen : username.length ≤ 64) (hphone : NulFree phoneNumber)
    (hphonelen : phoneNumber.length ≤ 20) :
    Registered L username password phoneNumber d.uuid.toString d.salt row := by
  obtain ⟨hid, hp, ⟨name, hr, hn⟩, ⟨email, hre, he⟩, hhash, hsalt, ⟨avatar, hra, ha⟩, hstatus, hdel⟩ :=
    UserDao.ofParams_insertParams h rfl
  have hzero : smallintOfParam (toString (0 : Int16).toInt) = .ok 0 := by decide
  have hhashlen := SecurityUtil.length_hashPassword L password d.salt
  have hsaltlen := d.length_salt
  refine ⟨by rw [hid], Varchar.text_of_fits hp hphone hphonelen, ?_, ?_, ?_, ?_, ?_, ?_, hdel⟩
  · rw [hr, Option.map_some]
    exact congrArg some (Varchar.text_of_fits hn hname hnamelen)
  · rw [hre, Option.map_some]
    exact congrArg some (Varchar.text_of_fits he (by simp [NulFree]) (Nat.zero_le _))
  · exact Varchar.text_of_fits hhash (nulFree_hexEncode _) (le_of_eq_of_le hhashlen (by omega))
  · exact Varchar.text_of_fits hsalt (nulFree_hexEncode _) (le_of_eq_of_le hsaltlen (by omega))
  · rw [hra, Option.map_some]
    exact congrArg some (Varchar.text_of_fits ha (by simp [NulFree]) (Nat.zero_le _))
  · change smallintOfParam (toString (0 : Int16).toInt) = .ok row.status at hstatus
    rw [hzero] at hstatus
    exact (Except.ok.inj hstatus).symm

end Insert

section Runs
variable {L : Libs} {cfg : JwtConfig} {F : Faults} {admits : ServerState → Call → Prop} {s : ServerState} {tid : Nat}
  {username password phoneNumber code : String} {md : Metadata} {reply : Reply} {status : GrpcStatus}

/-- A `Register` RPC that has ended ran through its service. -/
theorem served_register_of {S : Setup Op Ans World Call String Outcome} (hS : Hosts L cfg F S) (hs : Reachable S.system s)
    (hth : s.threads[tid]? = some ⟨.rpc (.register username password phoneNumber code) md, .ret (.rpc reply status)⟩) :
    ∃ tr out, events s.log tid = ⟨.coSpawn "", ()⟩ :: tr ∧
      BasicUserService.Registers L ⟨username, password, phoneNumber, code⟩ tr out ∧
      (reply, status) = onLogicFinished (out.map registerReply) := by
  obtain ⟨tr, result, hev, hlogic, hout⟩ := served_logic hS hs hth rfl
  rw [runSpecificLogic_register] at hlogic
  obtain ⟨out, hrun, rfl⟩ := runs_map.mp hlogic
  exact ⟨tr, out, hev, BasicUserService.runs_register.mp hrun, hout⟩

theorem served_register (hs : Reachable (server L cfg F admits).system s)
    (hth : s.threads[tid]? = some ⟨.rpc (.register username password phoneNumber code) md, .ret (.rpc reply status)⟩) :
    ∃ tr out, events s.log tid = ⟨.coSpawn "", ()⟩ :: tr ∧
      BasicUserService.Registers L ⟨username, password, phoneNumber, code⟩ tr out ∧
      (reply, status) = onLogicFinished (out.map registerReply) :=
  served_register_of (hosts_server L cfg F admits) hs hth

theorem success_of_reply {out : Except String RegisterResponse}
    (h : (reply, status) = onLogicFinished (out.map registerReply)) (hsucc : reply.code = some 0) :
    ∃ response, out = .ok response ∧ response.status.code = .success ∧ reply = registerReply response := by
  cases out with
  | error what =>
      obtain rfl : reply = default := congrArg Prod.fst h
      cases hsucc
  | ok response =>
      obtain rfl : reply = registerReply response := congrArg Prod.fst h
      exact ⟨response, rfl, (code_eq_success rfl).mp hsucc, rfl⟩

/-- The events of a registration up to the answer to its `INSERT`. -/
def beforeInsert (phoneNumber : String) (a : Except String RedisReply) (conn : Nat) (b : Except String (List PGresult))
    (d : BasicUserService.Draw) (conn' : Nat) : List Ev :=
  ⟨.coSpawn "", ()⟩ :: (BasicUserService.lookupEvents phoneNumber a conn b ++ d.events ++ [⟨.getConnection, conn'⟩])

theorem isInsert_beforeInsert {a : Except String RedisReply} {conn : Nat} {b : Except String (List PGresult)}
    {d : BasicUserService.Draw} {conn' : Nat} :
    ∀ ev ∈ beforeInsert phoneNumber a conn b d conn', ev.op.isInsert = false := by
  intro ev hev
  simp only [beforeInsert, BasicUserService.Draw.events, List.mem_cons, List.mem_append, List.not_mem_nil,
    or_false] at hev
  rcases hev with rfl | (hev | rfl | rfl | rfl | rfl | rfl) | rfl
  · rfl
  · exact BasicUserService.isInsert_of_mem_lookupEvents hev
  all_goals rfl

/-- The parameters of the `INSERT` of a registration. -/
def insertParamsOf (L : Libs) (username password phoneNumber code : String) (d : BasicUserService.Draw) : List String :=
  UserDao.insertParams (BasicUserService.newUser L ⟨username, password, phoneNumber, code⟩ d.uuid.toString d.salt)

/-- **A registration that came to its `INSERT`** issued it at one entry, and its other entries are no `INSERT`s. -/
theorem inserted_entry {S : Setup Op Ans World Call String Outcome} (hS : Hosts L cfg F S) (hs : Reachable S.system s)
    {a : Except String RedisReply} {conn : Nat} {b : Except String (List PGresult)} {d : BasicUserService.Draw}
    {conn' : Nat} {c : Except String (List PGresult)}
    (hev : events s.log tid = ⟨.coSpawn "", ()⟩ :: (BasicUserService.lookupEvents phoneNumber a conn b ++
      BasicUserService.insertEvents L ⟨username, password, phoneNumber, code⟩ d conn' c)) :
    ∃ l e r, s.log = l ++ e :: r ∧ e.tid = tid ∧
      e.op = .execParams conn' (.insertInto UserDao.insertColumns) (insertParamsOf L username password phoneNumber code d) ∧
      DbExec L F e.pre (.insertInto UserDao.insertColumns) (insertParamsOf L username password phoneNumber code d) c
        e.post ∧
      ∀ e' ∈ l ++ r, e'.tid = tid → e'.op.isInsert = false := by
  have hsplit : events s.log tid = beforeInsert phoneNumber a conn b d conn' ++
      ⟨.execParams conn' (.insertInto UserDao.insertColumns) (insertParamsOf L username password phoneNumber code d),
        c⟩ :: [⟨.returnConnection conn', ()⟩] := by
    rw [hev]
    simp [beforeInsert, BasicUserService.insertEvents, UserDao.callEvents, insertParamsOf]
  obtain ⟨l, pre, post, r, hlog, hexec, hl, hr⟩ := Setup.entry hs (List.append_nil _).symm _ hsplit
  rw [hS.exec] at hexec
  refine ⟨l, _, r, hlog, rfl, rfl, hexec, fun e' he' htid => ?_⟩
  rcases List.mem_append.mp he' with h | h
  · exact isInsert_beforeInsert e'.toEvent (hl ▸ mem_events.mpr ⟨e', h, htid, rfl⟩)
  · have := mem_events.mpr ⟨e', h, htid, rfl⟩
    rw [hr, List.mem_singleton] at this
    rw [show e'.op = .returnConnection conn' from congrArg Event.op this]
    rfl

/-- **A registration that succeeded** inserted its row at one entry, and its other entries are no `INSERT`s. -/
theorem register_entry (hs : Reachable (server L cfg F admits).system s)
    (hth : s.threads[tid]? = some ⟨.rpc (.register username password phoneNumber code) md, .ret (.rpc reply status)⟩)
    (hsucc : reply.code = some 0) :
    ∃ l e r, ∃ d : BasicUserService.Draw, ∃ row, ∃ hrow : e.pre.users.Admits row, s.log = l ++ e :: r ∧ e.tid = tid ∧
      e.post = { e.pre with users := e.pre.users.add row hrow } ∧
      Row.ofParams UserDao.insertColumns (UserDao.insertParams (BasicUserService.newUser L
        ⟨username, password, phoneNumber, code⟩ d.uuid.toString d.salt)) (e.pre.time / 1000) = .ok row ∧
      reply.userId = d.uuid.toString ∧ (⟨.generateBlock 16, d.block⟩ : Ev) ∈ events s.log tid ∧
      ∀ e' ∈ l ++ r, e'.tid = tid → e'.op.isInsert = false := by
  obtain ⟨tr, out, hev, hreg, hfin⟩ := served_register hs hth
  obtain ⟨response, rfl, hok, hreply⟩ := success_of_reply hfin hsucc
  obtain ⟨a, conn, b, d, conn', c, rfl, hc, huser⟩ := hreg.success hok
  obtain ⟨l, e, r, hlog, htid, -, hexec, hother⟩ := inserted_entry (hosts_server L cfg F admits) hs hev
  obtain ⟨row, hrow, hof, hpost⟩ := insert_success hexec hc
  refine ⟨l, e, r, d, row, hrow, hlog, htid, hpost, hof, by rw [hreply]; exact huser, ?_, hother⟩
  rw [hev]
  simp [BasicUserService.insertEvents, BasicUserService.Draw.events]

/-- The phone number of an inserted row is what its column makes of the requested one. -/
theorem phoneNumber_of_ofParams {d : BasicUserService.Draw} {now : Int} {row : Row}
    (h : Row.ofParams UserDao.insertColumns (UserDao.insertParams (BasicUserService.newUser L
      ⟨username, password, phoneNumber, code⟩ d.uuid.toString d.salt)) now = .ok row) :
    Varchar.ofParam 20 phoneNumber = some row.phoneNumber :=
  (UserDao.ofParams_insertParams h rfl).2.1

/-- No row with the phone number of an earlier one is added. -/
theorem phoneNumber_ne_of_before (hs : Reachable (server L cfg F admits).system s) {l r m : List LogEntry}
    {e₁ e₂ : LogEntry} (hlog : s.log = (l ++ e₁ :: m) ++ e₂ :: r) {row₁ row₂ : Row}
    {hrow₁ : e₁.pre.users.Admits row₁} (hpost : e₁.post = { e₁.pre with users := e₁.pre.users.add row₁ hrow₁ })
    (hrow₂ : e₂.pre.users.Admits row₂) : row₁.phoneNumber ≠ row₂.phoneNumber := by
  intro heq
  have hgrows := ((setup_later hs).2 _ _ _ hlog e₁ (by simp)).2
  have hmem : row₁ ∈ e₂.pre.users.rows := by
    refine List.IsPrefix.subset hgrows ?_
    rw [hpost]
    simp [UsersTable.add]
  exact hrow₂.1.2 (List.mem_map.mpr ⟨row₁, hmem, by rw [heq]⟩)

/-- **At most one registration of a phone number succeeds.** -/
theorem register_unique (hs : Reachable (server L cfg F admits).system s) {tid' : Nat}
    {username' password' code' : String} {md' : Metadata} {reply' : Reply} {status' : GrpcStatus}
    (hth : s.threads[tid]? = some ⟨.rpc (.register username password phoneNumber code) md, .ret (.rpc reply status)⟩)
    (hsucc : reply.code = some 0)
    (hth' : s.threads[tid']? = some ⟨.rpc (.register username' password' phoneNumber code') md',
      .ret (.rpc reply' status')⟩) (hsucc' : reply'.code = some 0) : tid = tid' := by
  obtain ⟨l₁, e₁, r₁, d₁, row₁, hrow₁, hlog₁, htid₁, hpost₁, hof₁, -⟩ := register_entry hs hth hsucc
  obtain ⟨l₂, e₂, r₂, d₂, row₂, hrow₂, hlog₂, htid₂, hpost₂, hof₂, -⟩ := register_entry hs hth' hsucc'
  have hphone : row₁.phoneNumber = row₂.phoneNumber := by
    have h := phoneNumber_of_ofParams hof₁
    rw [phoneNumber_of_ofParams hof₂] at h
    exact (Option.some.inj h).symm
  rcases split_order (hlog₁ ▸ hlog₂) with ⟨-, rfl⟩ | ⟨m, rfl⟩ | ⟨m, rfl⟩
  · rw [← htid₁, ← htid₂]
  · exact absurd hphone (phoneNumber_ne_of_before hs hlog₂ hpost₁ hrow₂)
  · exact absurd hphone.symm (phoneNumber_ne_of_before hs hlog₁ hpost₂ hrow₁)

/-- A registration that did not succeed left the table alone. -/
theorem register_unchanged (hF : F.dbLost = false) (hs : Reachable (server L cfg F admits).system s)
    (hth : s.threads[tid]? = some ⟨.rpc (.register username password phoneNumber code) md, .ret (.rpc reply status)⟩)
    (hfail : reply.code ≠ some 0) : ∀ e ∈ s.log, e.tid = tid → e.post.users = e.pre.users := by
  intro e he htid
  have hexec := Setup.executed hs e he
  cases hins : e.op.isInsert with
  | false => exact exec_users hexec hins
  | true =>
      obtain ⟨tr, out, hev, hreg, hfin⟩ := served_register hs hth
      have hmem := mem_events.mpr ⟨e, he, htid, rfl⟩
      rw [hev] at hmem
      rcases List.mem_cons.mp hmem with heq | hmem
      · rw [show e.op = .coSpawn "" from congrArg Event.op heq] at hins
        cases hins
      · obtain ⟨conn, params, c, userId, heq, rfl⟩ := hreg.out_of_isInsert hmem hins
        obtain ⟨ev, tid', pre, post⟩ := e
        obtain rfl : ev = _ := heq
        rcases insert_exec hF hexec with ⟨hc, -⟩ | ⟨-, hsame⟩
        · rw [hc] at hfin
          rw [show reply = registerReply ⟨.ok, userId⟩ from congrArg Prod.fst hfin] at hfail
          exact absurd rfl hfail
        · exact congrArg World.users hsame

/-- A registration writes nothing to Redis and keeps every row. -/
theorem register_frame (hs : Reachable (server L cfg F admits).system s) {e : LogEntry} (he : e ∈ s.log)
    {todo : Prog Outcome}
    (hth : s.threads[e.tid]? = some ⟨.rpc (.register username password phoneNumber code) md, todo⟩) :
    e.pre.users.rows <+: e.post.users.rows ∧ e.post.redis = e.pre.redis := by
  obtain ⟨l, r, hlog⟩ := List.append_of_mem he
  have hexec := Setup.executed hs e he
  refine ⟨(exec_frame hexec).2, exec_redis hexec ?_⟩
  have hφ : OnWrites fun _ o => o.isRedisSet = false := fun hist o ho _ => ho
  refine Setup.awaits (φ := fun _ o => o.isRedisSet = false) hs hlog hth ?_
  refine Always.bind (always_serve hφ fun hist userId => ?_) fun _ _ _ => Always.pure _
  rw [runSpecificLogic_register]
  exact (BasicUserService.always_register hφ fun _ _ _ => rfl).bind fun _ _ _ => Always.pure _

/-- **The effect of `Register`.** In every interleaving in which a statement's error means that it did nothing: for each
phone number at most one registration succeeds; one that succeeds with texts that fit their columns has added exactly
its row; one that ends otherwise has left the table alone; and none changes an existing row or a Redis key. -/
theorem register_effect (hF : F.dbLost = false) (hs : Reachable (server L cfg F admits).system s) :
    (∀ phoneNumber tid username password code reply status tid' username' password' code' reply' status',
      Ended s tid (.register username password phoneNumber code) reply status →
      Ended s tid' (.register username' password' phoneNumber code') reply' status' →
      reply.code = some 0 → reply'.code = some 0 → tid = tid') ∧
    (∀ tid username password phoneNumber code reply status,
      Ended s tid (.register username password phoneNumber code) reply status →
      (reply.code = some 0 → NulFree username → username.length ≤ 64 → NulFree phoneNumber → phoneNumber.length ≤ 20 →
        ∃ l e r row block, s.log = l ++ e :: r ∧ e.tid = tid ∧ e.post.users.rows = e.pre.users.rows ++ [row] ∧
          (⟨.generateBlock 16, block⟩ : Ev) ∈ events s.log tid ∧
          Registered L username password phoneNumber reply.userId (hexEncode block.val) row ∧
          ∀ e' ∈ l ++ r, e'.tid = tid → e'.post.users = e'.pre.users) ∧
      (reply.code ≠ some 0 → ∀ e ∈ s.log, e.tid = tid → e.post.users = e.pre.users)) ∧
    ∀ e ∈ s.log, ∀ th username password phoneNumber code md, s.threads[e.tid]? = some th →
      th.call = .rpc (.register username password phoneNumber code) md →
      e.pre.users.rows <+: e.post.users.rows ∧ e.post.redis = e.pre.redis := by
  refine ⟨?_, ?_, ?_⟩
  · intro phoneNumber tid username password code reply status tid' username' password' code' reply' status' hend hend'
      hsucc hsucc'
    obtain ⟨md, hth⟩ := hend
    obtain ⟨md', hth'⟩ := hend'
    exact register_unique hs hth hsucc hth' hsucc'
  · intro tid username password phoneNumber code reply status hend
    obtain ⟨md, hth⟩ := hend
    refine ⟨fun hsucc hname hnamelen hphone hphonelen => ?_, register_unchanged hF hs hth⟩
    obtain ⟨l, e, r, d, row, hrow, hlog, htid, hpost, hof, huser, hblock, hother⟩ := register_entry hs hth hsucc
    refine ⟨l, e, r, row, d.block, hlog, htid, by rw [hpost]; rfl, hblock, ?_, fun e' he' htid' => ?_⟩
    · rw [huser]
      exact registered_of_ofParams hof hname hnamelen hphone hphonelen
    · have hmem : e' ∈ s.log := by
        rw [hlog]
        rcases List.mem_append.mp he' with h | h
        · exact List.mem_append_left _ h
        · exact List.mem_append_right _ (List.mem_cons_of_mem _ h)
      exact exec_users (Setup.executed hs e' hmem) (hother e' he' htid')
  · rintro e he ⟨call, todo⟩ username password phoneNumber code md hth rfl
    exact register_frame hs he hth

end Runs

/-! ## One registration -/

/-- A world without users, at 2025-11-26 10:00:00 UTC. -/
def unregistered : ServerState := ⟨.fresh (1764151200 * 10 ^ 9), [], []⟩

/-- A code is sent to a phone number, which is registered with it. -/
def registered : ServerState :=
  after (Libs.reference Texts.alice) .photon
    (after (Libs.reference Texts.alice) .photon unregistered (.rpc (.sendCode "13800000000" 1) []))
    (.rpc (.register "alice" "secret" "13800000000" "000000") [])

theorem reachable_registered :
    Reachable (server (Libs.reference Texts.alice) .photon .never fun _ _ => True).system registered := by
  have hS := hosts_server (Libs.reference Texts.alice) .photon .never fun _ _ => True
  exact reachable_after hS (reachable_after hS (reachable_start rfl) trivial) trivial

/-- The reply to the registration. -/
def registeredReply : Reply :=
  { status := some ⟨0, "操作成功"⟩, userId := "019abf9b-0900-7000-8000-000000000000" }

theorem ended_registered :
    Ended registered 1 (.register "alice" "secret" "13800000000" "000000") registeredReply .OK :=
  ⟨[], thread_of_finished (by decide +kernel)⟩

theorem register_effect_registered :
    ∃ l e r row block, registered.log = l ++ e :: r ∧ e.tid = 1 ∧ e.post.users.rows = e.pre.users.rows ++ [row] ∧
      (⟨.generateBlock 16, block⟩ : Ev) ∈ events registered.log 1 ∧
      Registered (Libs.reference Texts.alice) "alice" "secret" "13800000000" "019abf9b-0900-7000-8000-000000000000"
        (hexEncode block.val) row := by
  have h := (register_effect rfl reachable_registered).2.1 1 _ _ _ _ _ _ ended_registered
  obtain ⟨l, e, r, row, block, hlog, htid, hpost, hblock, hrow, -⟩ :=
    h.1 rfl (by decide) (by decide) (by decide) (by decide)
  exact ⟨l, e, r, row, block, hlog, htid, hpost, hblock, hrow⟩

end PhotonCommerce.System
