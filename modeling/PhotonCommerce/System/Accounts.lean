import PhotonCommerce.System.Authentication
import PhotonCommerce.System.Registration

/-!
# Whose account is entered

* `phone_verified` : the account a code leads to has the phone number the code was sent to, up to its first NUL;
* `shared` : the server over a table that others change as well;
* `RecordOf` : the entry at which the record that a call uses was read from the table;
* `login_record` : the token of a login is for the row of such a record;
* `login_live` : which was not deleted then.
-/

namespace PhotonCommerce.System
open Coroutine Interleaving Transition Domain Utils Infrastructure Service Adapter ExpiringMap

/-! ## One phone number -/

section Phone
variable {L : Libs} {cfg : JwtConfig} {F : Faults} {admits : ServerState → Call → Prop} {s : ServerState}

/-- **The code verified and the account entered** belong to one phone number exactly when it has no NUL; a phone number
is registered as it was sent exactly when, besides, it fits its column. -/
theorem phone_verified (hs : Reachable (server L cfg F admits).system s) :
    (∀ tid phoneNumber code reply status, Ended s tid (.loginByCode phoneNumber code) reply status →
      reply.code = some 0 →
      ∃ l e row, MintedAt L cfg s tid reply.token l e row ∧ ByCode s tid l (.loginByCode phoneNumber code) row ∧
        (row.phoneNumber.text = phoneNumber ↔ NulFree phoneNumber)) ∧
    ∀ tid username password phoneNumber code reply status,
      Ended s tid (.register username password phoneNumber code) reply status → reply.code = some 0 →
      ∃ l e r row, s.log = l ++ e :: r ∧ e.tid = tid ∧ e.post.users.rows = e.pre.users.rows ++ [row] ∧
        row.id.toString = reply.userId ∧
        (row.phoneNumber.text = phoneNumber ↔ NulFree phoneNumber ∧ phoneNumber.length ≤ 20) := by
  refine ⟨?_, ?_⟩
  · intro tid phoneNumber code reply status hend hsucc
    obtain ⟨md, hth⟩ := hend
    obtain ⟨l, e, row, hminted, hby⟩ := loginByCode_issued hs hth hsucc
    refine ⟨l, e, row, hminted, hby, ?_⟩
    obtain ⟨_, _, hreq, ⟨q, -, -, -, hfind⟩, -⟩ := hby
    cases hreq
    exact UsersTable.phoneNumber_eq_iff_of_find hfind
  · intro tid username password phoneNumber code reply status hend hsucc
    obtain ⟨md, hth⟩ := hend
    obtain ⟨l, e, r, d, row, hrow, hlog, htid, hpost, hof, huser, -, -⟩ := register_entry hs hth hsucc
    have hid : row.id = d.uuid := (UserDao.ofParams_insertParams hof rfl).1
    exact ⟨l, e, r, row, hlog, htid, by rw [hpost]; rfl, by rw [hid, huser],
      Varchar.text_eq_iff (phoneNumber_of_ofParams hof)⟩

end Phone

/-- A phone number whose characters up to a NUL are another one. -/
def disguised : String := "13800000000\x00x"

/-- The state after a code was sent to such a phone number, with the one it begins with registered, and used. -/
def entered : ServerState :=
  after (Libs.reference Texts.alice) .photon
    (after (Libs.reference Texts.alice) .photon ⟨.alice, [], []⟩ (.rpc (.sendCode disguised 2) []))
    (.rpc (.loginByCode disguised "000000") [])

theorem reachable_entered :
    Reachable (server (Libs.reference Texts.alice) .photon .never fun _ _ => True).system entered := by
  have hS := hosts_server (Libs.reference Texts.alice) .photon .never fun _ _ => True
  exact reachable_after hS (reachable_after hS (reachable_start rfl) trivial) trivial

theorem finished_entered : finished? entered 1 = some (.loginByCode disguised "000000", [],
    { status := some ⟨0, "操作成功"⟩, token := Texts.alice.token }, .OK) := by decide +kernel

theorem phone_verified_entered : ∃ l e row, MintedAt (Libs.reference Texts.alice) .photon entered 1 Texts.alice.token l e row ∧
    (row.phoneNumber.text = disguised ↔ NulFree disguised) := by
  obtain ⟨l, e, row, hminted, -, hphone⟩ :=
    (phone_verified reachable_entered).1 1 _ _ _ _ ⟨[], thread_of_finished finished_entered⟩ rfl
  exact ⟨l, e, row, hminted, hphone⟩

/-- The code of one phone number opens the account of another. -/
theorem phone_confused : ¬ ∀ s, Reachable (server (Libs.reference Texts.alice) .photon .never fun _ _ => True).system s →
    ∀ tid phoneNumber code reply status, Ended s tid (.loginByCode phoneNumber code) reply status →
      reply.code = some 0 → ∀ l e row, MintedAt (Libs.reference Texts.alice) .photon s tid reply.token l e row →
        ByCode s tid l (.loginByCode phoneNumber code) row → row.phoneNumber.text = phoneNumber := by
  intro h
  have hth := thread_of_finished finished_entered
  obtain ⟨l, e, row, hminted, hby⟩ := loginByCode_issued reachable_entered hth rfl
  have hphone := h entered reachable_entered 1 _ _ _ _ ⟨[], hth⟩ rfl l e row hminted hby
  have hnul : NulFree disguised := hphone ▸ row.phoneNumber.nulFree
  exact absurd hnul (by decide)

/-! ## Which rows may log in -/

/-- The world's own steps when others, too, write to the table of users. -/
def sharedEnv (F : Faults) (w w' : World) : Prop := env F w w' ∨ ∃ users, w' = { w with users := users }

/-- The server over a table that others change as well. -/
def shared (L : Libs) (cfg : JwtConfig) (F : Faults) (admits : ServerState → Call → Prop) :
    Setup Op Ans World Call String Outcome := serverIn L cfg F (fun w => w.redis = Store.empty) (sharedEnv F) admits

/-- At the entry the record that a call uses was read from the table: by the call's own lookup, or by one whose record
the call then found in the cache. -/
def RecordOf (L : Libs) (s : ServerState) (tid : Nat) (q : LogEntry) (row : Row) : Prop :=
  (∃ conn key p, q.op = .execParams conn (.selectWhere UserDao.selectColumns key) [p] ∧
    q.pre.users.find key p = .ok (some row)) ∧
  (q.tid = tid ∨ ∃ l g r id value, s.log = l ++ g :: r ∧ q ∈ l ∧ g.tid = tid ∧
    g.op = .redisGet (UserRepository.cacheKey id) ∧ g.pre.reply (UserRepository.cacheKey id) = .blobString value ∧
    UserRepository.decode L value = some (UserDao.userOfRow L.timestamptzOut row).cached)

/-- The token is for the user of the row. -/
def TokenFor (L : Libs) (cfg : JwtConfig) (s : ServerState) (tid : Nat) (token : String) (row : Row) : Prop :=
  ∃ now, (⟨.now, now⟩ : Ev) ∈ events s.log tid ∧ token = JwtUtil.tokenAt L cfg row.id.toString now

section Records
variable {L : Libs} {cfg : JwtConfig} {F : Faults} {admits : ServerState → Call → Prop} {s : ServerState} {tid : Nat}
  {id : String}

theorem redis_of_sharedEnv {w w' : World} {key : String} {slot : Slot String} (h : sharedEnv F w w')
    (hslot : w'.redis key = some slot) : w.redis key = some slot := by
  rcases h with h | ⟨users, rfl⟩
  · exact redis_of_env h hslot
  · exact hslot

/-- The record of a user found by a statement of the call. -/
theorem record_of_select (hs : Reachable (shared L cfg F admits).system s) {conn : Nat} {key : Key} {p : String}
    {b : Except String (List PGresult)} {user : User}
    (hmem : (⟨.execParams conn (.selectWhere UserDao.selectColumns key) [p], b⟩ : Ev) ∈ events s.log tid)
    (hb : UserDao.selectOutcome b = .ok (.ok (some user))) :
    ∃ q ∈ s.log, ∃ row, RecordOf L s tid q row ∧ row.id.toString = user.id := by
  obtain ⟨pre, post, he, hexec⟩ := Setup.executed_event hs hmem
  obtain ⟨row, hfind, -, huser⟩ := find_of_selectOutcome hexec hb
  obtain ⟨row, rfl, rfl⟩ := Option.map_eq_some_iff.mp huser.symm
  exact ⟨_, he, row, ⟨⟨conn, key, p, rfl, hfind⟩, .inl rfl⟩, rfl⟩

/-- The record of a user found by the cached lookup of the call. -/
theorem record_of_getUserById (hs : Reachable (shared L cfg F admits).system s) {tr₁ tr tr₂ : List Ev}
    (hev : events s.log tid = tr₁ ++ tr ++ tr₂) {user : User}
    (hrun : Runs (UserRepository.getUserById L id) tr (.ok (.ok (some user)))) :
    ∃ q ∈ s.log, ∃ row, RecordOf L s tid q row ∧ row.id.toString = user.id := by
  rcases UserRepository.runs_getUserById hrun with ⟨a, value, user', rfl, ha, hdec, hout⟩ |
      ⟨a, conn, b, fill, rfl, hb, -⟩
  · obtain rfl : user = user' := Option.some.inj (Except.ok.inj (Except.ok.inj hout))
    obtain ⟨l, pre, post, r, hlog, hexec, -, -⟩ :=
      Setup.entry hs (List.append_nil _).symm tr₁ (by rw [hev, List.append_assoc]; rfl)
    obtain ⟨-, rfl | ⟨-, hnone⟩⟩ := hexec
    · rw [answerValue_reply] at ha
      have hreply : pre.reply (UserRepository.cacheKey id) = .blobString value := by rw [World.reply, ha]
      obtain ⟨slot, hslot, -, rfl⟩ := Store.get_eq_some_iff.mp ha
      obtain ⟨q, hq, conn, row, hop, hfind, hcached⟩ := cache_source (hosts_serverIn L cfg F _ _ admits)
        (fun _ hw => hw) (fun _ _ _ _ => redis_of_sharedEnv) hs hlog hslot
      have huser : user = (UserDao.userOfRow L.timestamptzOut row).cached :=
        Option.some.inj (hdec.symm.trans hcached)
      refine ⟨q, by rw [hlog]; exact List.mem_append_left _ hq, row, ⟨⟨conn, .id, id, hop, hfind⟩, .inr ?_⟩, ?_⟩
      · exact ⟨l, _, r, id, _, hlog, hq, rfl, rfl, hreply, hcached⟩
      · rw [huser]
        exact (congrArg User.View.id (view_cached_userOfRow (L := L) row)).symm
    · rw [hnone] at ha
      cases ha
  · have hmem : (⟨.execParams conn (.selectWhere UserDao.selectColumns .id) [id], b⟩ : Ev) ∈ events s.log tid := by
      rw [hev]
      simp [UserDao.callEvents]
    exact record_of_select hs hmem hb.symm

/-- **The token of a login** is for the row of the record that the login used. -/
theorem login_record (hs : Reachable (shared L cfg F admits).system s) {request : Request} {reply : Reply}
    {status : GrpcStatus} (hend : Ended s tid request reply status) (hlogin : IsLogin request)
    (hsucc : reply.code = some 0) :
    ∃ q ∈ s.log, ∃ row, RecordOf L s tid q row ∧ TokenFor L cfg s tid reply.token row := by
  have hS : Hosts L cfg F (shared L cfg F admits) := hosts_serverIn L cfg F _ _ admits
  obtain ⟨md, hth⟩ := hend
  rcases hlogin with ⟨userId, password, rfl⟩ | ⟨phoneNumber, code, rfl⟩
  · obtain ⟨tr, out, hev, hrun, hout⟩ := served_loginByPassword hS hs hth
    obtain ⟨result, rfl, hok, htoken⟩ := success_of_login hout hsucc
    obtain ⟨tr₁, user, now, rfl, hget, -, rfl⟩ := AuthService.runs_loginByPassword _ hrun hok
    have hsplit : events s.log tid = [⟨.coSpawn "", ()⟩] ++ tr₁ ++ [⟨.now, now⟩] := hev
    obtain ⟨q, hq, row, hrecord, hid⟩ := record_of_getUserById hs hsplit hget
    refine ⟨q, hq, row, hrecord, now, by rw [hsplit]; simp, ?_⟩
    rw [htoken, hid]
    rfl
  · obtain ⟨tr, out, hev, hrun, hout⟩ := served_loginByCode hS hs hth
    obtain ⟨result, rfl, hok, htoken⟩ := success_of_login hout hsucc
    obtain ⟨a, conn, b, user, now, rfl, -, hb, rfl⟩ := AuthService.runs_loginByCode hrun hok
    have hmem : (⟨.execParams conn (.selectWhere UserDao.selectColumns .phoneNumber) [phoneNumber], b⟩ : Ev) ∈
        events s.log tid := by
      rw [hev]
      simp [UserDao.callEvents]
    obtain ⟨q, hq, row, hrecord, hid⟩ := record_of_select hs hmem hb
    refine ⟨q, hq, row, hrecord, now, by rw [hev]; simp, ?_⟩
    rw [htoken, hid]
    rfl

/-- **Deleted accounts cannot log in.** Over any table, which others may change at any time: when a login succeeded, by
password or by code, its token is for a row that was not deleted at the entry at which the record it used was read. -/
theorem login_live (hs : Reachable (shared L cfg F admits).system s) {request : Request} {reply : Reply}
    {status : GrpcStatus} (hend : Ended s tid request reply status) (hlogin : IsLogin request)
    (hsucc : reply.code = some 0) :
    ∃ q ∈ s.log, ∃ row, RecordOf L s tid q row ∧ TokenFor L cfg s tid reply.token row ∧ row ∈ q.pre.users.rows ∧
      row.deletedAt = none := by
  obtain ⟨q, hq, row, hrecord, htoken⟩ := login_record hs hend hlogin hsucc
  obtain ⟨⟨conn, key, p, hop, hfind⟩, -⟩ := id hrecord
  exact ⟨q, hq, row, hrecord, htoken, UsersTable.mem_of_find hfind⟩

end Records

/-- A user whose account is frozen. -/
def frozenRow : Row := { Row.alice with status := 1 }

/-- The table has that user only. -/
def frozen : ServerState :=
  ⟨⟨1764151200 * 10 ^ 9, Store.empty, ⟨[frozenRow], List.nodup_singleton _, List.nodup_singleton _, List.nodup_nil⟩⟩,
    [], []⟩

/-- The user logs in. -/
def thawed : ServerState :=
  after (Libs.reference Texts.alice) .photon frozen
    (.rpc (.loginByPassword "019abf9b-0900-7000-8000-000000000000" "secret") [])

theorem reachable_thawed :
    Reachable (shared (Libs.reference Texts.alice) .photon .never fun _ _ => True).system thawed := by
  have hinit : Reachable (shared (Libs.reference Texts.alice) .photon .never fun _ _ => True).system frozen :=
    Reachable.of_init ⟨rfl, rfl, rfl⟩
  exact reachable_after (hosts_serverIn (Libs.reference Texts.alice) .photon .never _ _ _) hinit trivial

theorem finished_thawed : finished? thawed 0 = some (.loginByPassword "019abf9b-0900-7000-8000-000000000000" "secret", [],
    { status := some ⟨0, "操作成功"⟩, token := Texts.alice.token }, .OK) := by decide +kernel

theorem login_live_thawed : ∃ q ∈ thawed.log, ∃ row, RecordOf (Libs.reference Texts.alice) thawed 0 q row ∧
    TokenFor (Libs.reference Texts.alice) .photon thawed 0 Texts.alice.token row ∧ row ∈ q.pre.users.rows ∧
    row.deletedAt = none :=
  login_live reachable_thawed ⟨[], thread_of_finished finished_thawed⟩ (.inl ⟨_, _, rfl⟩) rfl

/-- A frozen account is logged in to. -/
theorem login_frozen : ¬ ∀ s, Reachable (shared (Libs.reference Texts.alice) .photon .never fun _ _ => True).system s →
    ∀ tid request reply status, Ended s tid request reply status → IsLogin request → reply.code = some 0 →
      ∀ q ∈ s.log, ∀ row, RecordOf (Libs.reference Texts.alice) s tid q row →
        TokenFor (Libs.reference Texts.alice) .photon s tid reply.token row →
        ¬ (row.status = 1 ∨ row.status = 99 ∨ row.deletedAt ≠ none) := by
  intro h
  have hend : Ended thawed 0 _ _ _ := ⟨[], thread_of_finished finished_thawed⟩
  obtain ⟨q, hq, row, hrecord, htoken⟩ := login_record reachable_thawed hend (.inl ⟨_, _, rfl⟩) rfl
  obtain ⟨⟨conn, key, p, hop, hfind⟩, -⟩ := id hrecord
  have hrows : ∀ q ∈ thawed.log, q.pre.users.rows = [frozenRow] := by decide +kernel
  have hrow := (UsersTable.mem_of_find hfind).1
  rw [hrows q hq, List.mem_singleton] at hrow
  refine h thawed reachable_thawed 0 _ _ _ hend (.inl ⟨_, _, rfl⟩) rfl q hq row hrecord htoken (.inl ?_)
  rw [hrow]
  rfl

end PhotonCommerce.System
