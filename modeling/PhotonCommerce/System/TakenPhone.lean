import PhotonCommerce.System.Registration

/-!
# Phone numbers that are taken

* `Accepted`, `ReportsTaken` : what a registration is to answer;
* `ofParams_fits` : texts that fit their columns make a row;
* `insert_never` : without failures the `INSERT` of a registration adds its row exactly when the phone number is free;
* `taken_reported` : a registration reports a taken phone number as such exactly when its `INSERT` does not meet it.
-/

namespace PhotonCommerce.System
open Coroutine Interleaving Transition Domain Utils Infrastructure Service Adapter ExpiringMap

/-- An `INSERT` of the call added a row. -/
def Accepted (s : ServerState) (tid : Nat) : Prop :=
  ∃ e ∈ s.log, e.tid = tid ∧ e.op.isInsert = true ∧ ∃ row, e.post.users.rows = e.pre.users.rows ++ [row]

/-- The reply is a success when the call's `INSERT` was accepted, and that the user exists in every other case. -/
def ReportsTaken (s : ServerState) (tid : Nat) (reply : Reply) : Prop :=
  (reply.code = some 0 ↔ Accepted s tid) ∧ (¬ Accepted s tid → reply.code = some 2002)

/-- When the call reads its registration code, it is the one it presents. -/
def CodePassed (s : ServerState) (tid : Nat) (phoneNumber code : String) : Prop :=
  ∀ e ∈ s.log, e.tid = tid → e.op = .redisGet (BasicUserService.codeKey phoneNumber) →
    e.pre.redis.get e.pre.time (BasicUserService.codeKey phoneNumber) = some code

/-- The id an operation inserts. -/
def insertedId : Op → Option String
  | .execParams _ (.insertInto _) params => params.head?
  | _ => none

/-- No row has the id that the call inserts. -/
def NoCollision (s : ServerState) (tid : Nat) : Prop :=
  ∀ e ∈ s.log, e.tid = tid → ∀ row ∈ e.pre.users.rows, insertedId e.op ≠ some row.id.toString

/-- No row, live or deleted, has the phone number when the call issues its `INSERT`. -/
def FreeAtInsert (s : ServerState) (tid : Nat) (phoneNumber : String) : Prop :=
  ∀ e ∈ s.log, e.tid = tid → e.op.isInsert = true → ∀ row ∈ e.pre.users.rows, row.phoneNumber.text ≠ phoneNumber

section Insert
variable {L : Libs} {w w' : World} {username password phoneNumber code : String} {d : BasicUserService.Draw}

/-- Texts that fit their columns make a row. -/
theorem ofParams_fits (L : Libs) (password code : String) (d : BasicUserService.Draw) (hname : NulFree username)
    (hnamelen : username.length ≤ 64) (hphone : NulFree phoneNumber) (hphonelen : phoneNumber.length ≤ 20) (now : Int) :
    ∃ row, Row.ofParams UserDao.insertColumns (insertParamsOf L username password phoneNumber code d) now = .ok row := by
  have hid : uuidOf (some d.uuid.toString) = .ok d.uuid := by
    simp only [uuidOf, cStr_of_nulFree (nulFree_toString d.uuid), Uuid.ofString?_toString]
  have hempty : NulFree "" := by decide
  have hhash : (SecurityUtil.hashPassword L password d.salt).length ≤ 256 := by
    rw [SecurityUtil.length_hashPassword]
    omega
  have hsalt : d.salt.length ≤ 64 := by
    rw [d.length_salt]
    omega
  have hstatus : statusOf (some (toString (0 : Int16).toInt)) = .ok 0 := by decide
  exact ⟨_, Row.ofParams_of_ok (r := ⟨d.uuid, _, _, _, _, _, _, 0, now, none⟩) hid
    (varcharNotNull_of_fits hphone hphonelen) (varcharOf_of_fits hname hnamelen)
    (varcharOf_of_fits hempty (Nat.zero_le _)) (varcharNotNull_of_fits (nulFree_hexEncode _) hhash)
    (varcharNotNull_of_fits (nulFree_hexEncode _) hsalt) (varcharOf_of_fits hempty (Nat.zero_le _)) hstatus⟩

/-- The schema has room for the row of a registration whose id and phone number are new. -/
theorem admits_of_free (hname : NulFree username) (hnamelen : username.length ≤ 64) (hphone : NulFree phoneNumber)
    (hphonelen : phoneNumber.length ≤ 20) (hid : ∀ row ∈ w.users.rows, row.id ≠ d.uuid)
    (hfree : ∀ row ∈ w.users.rows, row.phoneNumber.text ≠ phoneNumber) {now : Int} {row : Row}
    (hof : Row.ofParams UserDao.insertColumns (insertParamsOf L username password phoneNumber code d) now = .ok row) : w.users.Admits row := by
  have hreg := registered_of_ofParams hof hname hnamelen hphone hphonelen
  refine ⟨⟨fun hmem => ?_, fun hmem => ?_⟩, fun e he => ?_⟩
  · obtain ⟨row', hrow', heq⟩ := List.mem_map.mp hmem
    exact hid row' hrow' (heq.trans (UserDao.ofParams_insertParams hof rfl).1)
  · obtain ⟨row', hrow', heq⟩ := List.mem_map.mp hmem
    exact hfree row' hrow' (heq.trans hreg.phoneNumber)
  · -- the empty email is not in the partial index
    simp [Row.indexedEmail, hreg.email] at he

/-- **Without failures** the `INSERT` of a registration whose texts fit and whose id is new adds its row when no row has
the phone number, and is answered by an error when one has. -/
theorem insert_never {c : Except String (List PGresult)} (hname : NulFree username) (hnamelen : username.length ≤ 64)
    (hphone : NulFree phoneNumber) (hphonelen : phoneNumber.length ≤ 20)
    (hid : ∀ row ∈ w.users.rows, row.id ≠ d.uuid)
    (h : DbExec L .never w (.insertInto UserDao.insertColumns) (insertParamsOf L username password phoneNumber code d) c w') :
    (UserDao.createOutcome c = .ok (.ok ()) ∧ (∃ row, w'.users.rows = w.users.rows ++ [row]) ∧
      ∀ row ∈ w.users.rows, row.phoneNumber.text ≠ phoneNumber) ∨
    (∃ e, UserDao.createOutcome c = .ok (.error e)) ∧ w' = w ∧
      ∃ row ∈ w.users.rows, row.phoneNumber.text = phoneNumber := by
  rcases insert_exec rfl h with ⟨hok, row, hadm, hof, rfl⟩ | ⟨hne, hsame⟩
  · refine .inl ⟨hok, ⟨row, rfl⟩, fun row' hrow' heq => hadm.1.2 (List.mem_map.mpr ⟨row', hrow', ?_⟩)⟩
    exact heq.trans (registered_of_ofParams hof hname hnamelen hphone hphonelen).phoneNumber.symm
  · cases h with
    | done rows t h => exact absurd rfl hne
    | refused state message h =>
        refine .inr ⟨⟨_, rfl⟩, rfl, ?_⟩
        by_contra hfree
        push Not at hfree
        obtain ⟨row, hof⟩ := ofParams_fits L password code d hname hnamelen hphone hphonelen (w.time / 1000)
        have hadm := admits_of_free hname hnamelen hphone hphonelen hid hfree hof
        simp only [UsersTable.execute, UsersTable.insert_of_admits hof hadm] at h
        cases h
    | failed res hF h => cases hF
    | threw what hF => cases hF
    | lost what rows t hF h => cases hF

end Insert

section Taken
variable {L : Libs} {cfg : JwtConfig} {admits : ServerState → Call → Prop} {s : ServerState} {tid : Nat}
  {username password phoneNumber code : String} {reply : Reply} {status : GrpcStatus}

/-- Without failures a lookup by phone number brings back the row or nothing. -/
theorem selectOutcome_never {w w' : World} {a : Except String (List PGresult)}
    (h : DbExec L .never w (.selectWhere UserDao.selectColumns .phoneNumber) [phoneNumber] a w') :
    ∃ user, UserDao.selectOutcome a = .ok (.ok user) := by
  rw [select_exec_never h rfl]
  exact ⟨_, selectOutcome_found _⟩

/-- The code that a call reads when nothing fails. -/
theorem answerValue_of_codePassed (hs : Reachable (server L cfg .never admits).system s)
    (hcode : CodePassed s tid phoneNumber code) {a : Except String RedisReply}
    (hmem : (⟨.redisGet (BasicUserService.codeKey phoneNumber), a⟩ : Ev) ∈ events s.log tid) :
    answerValue a = some code := by
  obtain ⟨pre, post, he, hexec⟩ := Setup.executed_event hs hmem
  have hget : pre.redis.get pre.time (BasicUserService.codeKey phoneNumber) = some code := hcode _ he rfl rfl
  obtain ⟨-, hreply | ⟨hF, -⟩⟩ := hexec
  · rw [hreply, answerValue_reply]
    exact hget
  · cases hF

/-- A call that issued no `INSERT` and answered that the user exists. -/
theorem reportsTaken_of_found (h : ∀ ev ∈ events s.log tid, ev.op.isInsert = false) (hreply : reply.code = some 2002)
    (phoneNumber : String) : ReportsTaken s tid reply ↔ FreeAtInsert s tid phoneNumber := by
  have hnone : ∀ e ∈ s.log, e.tid = tid → e.op.isInsert ≠ true := by
    intro e he htid
    rw [h _ (mem_events.mpr ⟨e, he, htid, rfl⟩)]
    exact Bool.false_ne_true
  have hno : ¬ Accepted s tid := fun ⟨e, he, htid, hins, _⟩ => hnone e he htid hins
  constructor
  · exact fun _ e he htid hins => absurd hins (hnone e he htid)
  · refine fun _ => ⟨⟨fun hok => ?_, fun hacc => absurd hacc hno⟩, fun _ => hreply⟩
    rw [hreply] at hok
    cases hok

/-- The one entry at which a call issued its `INSERT`. -/
structure InsertsAt (s : ServerState) (tid : Nat) (e : LogEntry) : Prop where
  mem : e ∈ s.log
  tid_eq : e.tid = tid
  isInsert : e.op.isInsert = true
  only : ∀ e' ∈ s.log, e'.tid = tid → e'.op.isInsert = true → e' = e

theorem insertsAt_of_log {l r : List LogEntry} {e : LogEntry} (hlog : s.log = l ++ e :: r) (htid : e.tid = tid)
    (hins : e.op.isInsert = true) (hother : ∀ e' ∈ l ++ r, e'.tid = tid → e'.op.isInsert = false) :
    InsertsAt s tid e := by
  refine ⟨hlog ▸ List.mem_append_right l List.mem_cons_self, htid, hins, fun e' he' htid' hins' => ?_⟩
  by_contra hne
  have hmem : e' ∈ l ++ r := by
    rw [hlog, List.mem_append, List.mem_cons] at he'
    rcases he' with h | h | h
    · exact List.mem_append_left r h
    · exact absurd h hne
    · exact List.mem_append_right l h
  rw [hother e' hmem htid'] at hins'
  cases hins'

/-- An `INSERT` that added a row, answered with success. -/
theorem reportsTaken_of_added {e : LogEntry} (he : InsertsAt s tid e)
    (hrow : ∃ row, e.post.users.rows = e.pre.users.rows ++ [row])
    (hfree : ∀ row ∈ e.pre.users.rows, row.phoneNumber.text ≠ phoneNumber) (hreply : reply.code = some 0) :
    ReportsTaken s tid reply ↔ FreeAtInsert s tid phoneNumber := by
  have hacc : Accepted s tid := ⟨e, he.mem, he.tid_eq, he.isInsert, hrow⟩
  constructor
  · intro _ e' he' htid' hins'
    rw [he.only e' he' htid' hins']
    exact hfree
  · exact fun _ => ⟨⟨fun _ => hacc, fun _ => hreply⟩, fun h => absurd hacc h⟩

/-- An `INSERT` that met the phone number, answered otherwise than that the user exists. -/
theorem reportsTaken_of_met {e : LogEntry} (he : InsertsAt s tid e) (hsame : e.post = e.pre) {row : Row}
    (hrow : row ∈ e.pre.users.rows) (htaken : row.phoneNumber.text = phoneNumber) (hreply : reply.code ≠ some 2002) :
    ReportsTaken s tid reply ↔ FreeAtInsert s tid phoneNumber := by
  have hno : ¬ Accepted s tid := by
    intro hacc
    obtain ⟨e', he', htid', hins', row', hrow'⟩ := hacc
    rw [he.only e' he' htid' hins', hsame] at hrow'
    simp at hrow'
  constructor
  · exact fun h => absurd (h.2 hno) hreply
  · exact fun h => absurd htaken (h e he.mem he.tid_eq he.isInsert row hrow)

/-- **A taken phone number is reported as taken exactly when the `INSERT` does not meet it.** In every interleaving
without failures, for a registration that has its code and whose texts fit and whose id is new. -/
theorem taken_reported (hs : Reachable (server L cfg .never admits).system s)
    (hend : Ended s tid (.register username password phoneNumber code) reply status)
    (hcode : CodePassed s tid phoneNumber code) (hname : NulFree username) (hnamelen : username.length ≤ 64)
    (hphone : NulFree phoneNumber) (hphonelen : phoneNumber.length ≤ 20) (hid : NoCollision s tid) :
    ReportsTaken s tid reply ↔ FreeAtInsert s tid phoneNumber := by
  obtain ⟨md, hth⟩ := hend
  obtain ⟨tr, out, hev, hreg, hout⟩ := served_register hs hth
  cases hreg with
  | mismatch a ha =>
      have hmem : (⟨.redisGet (BasicUserService.codeKey phoneNumber), a⟩ : Ev) ∈ events s.log tid := by
        rw [hev]
        simp
      exact absurd (answerValue_of_codePassed hs hcode hmem) ha
  | refused a conn b ha hb =>
      have hmem : (⟨.execParams conn (.selectWhere UserDao.selectColumns .phoneNumber) [phoneNumber], b⟩ : Ev) ∈
          events s.log tid := by
        rw [hev]
        simp [BasicUserService.lookupEvents, UserDao.callEvents]
      obtain ⟨pre, post, he, hexec⟩ := Setup.executed_event hs hmem
      obtain ⟨user, huser⟩ := selectOutcome_never hexec
      rw [huser] at hout
      obtain rfl : reply = _ := congrArg Prod.fst hout
      refine reportsTaken_of_found (fun ev hev' => ?_) rfl phoneNumber
      rw [hev] at hev'
      rcases List.mem_cons.mp hev' with rfl | hev'
      · rfl
      · exact BasicUserService.isInsert_of_mem_lookupEvents hev'
  | inserted a conn b d conn' c ha hb =>
      obtain ⟨l, e, r, hlog, htid, hop, hexec, hother⟩ := inserted_entry (hosts_server L cfg .never admits) hs hev
      have he : InsertsAt s tid e := insertsAt_of_log hlog htid (by rw [hop]; rfl) hother
      have hnew : ∀ row ∈ e.pre.users.rows, row.id ≠ d.uuid := by
        intro row hrow heq
        refine hid e he.mem htid row hrow ?_
        rw [hop, heq]
        rfl
      rcases insert_never hname hnamelen hphone hphonelen hnew hexec with ⟨hok, hrow, hfree⟩ |
          ⟨⟨err, herr⟩, hsame, row, hrow, htaken⟩
      · rw [hok] at hout
        obtain rfl : reply = _ := congrArg Prod.fst hout
        exact reportsTaken_of_added he hrow hfree rfl
      · rw [herr] at hout
        obtain rfl : reply = _ := congrArg Prod.fst hout
        refine reportsTaken_of_met he hsame hrow htaken fun hphone => ?_
        cases hphone

end Taken

theorem taken_reported_registered : ReportsTaken registered 1 registeredReply := by
  have hlog : ∀ e ∈ registered.log, e.tid = 1 →
      (e.op = .redisGet (BasicUserService.codeKey "13800000000") →
        e.pre.redis.get e.pre.time (BasicUserService.codeKey "13800000000") = some "000000") ∧
      (∀ row ∈ e.pre.users.rows, insertedId e.op ≠ some row.id.toString) ∧
      (e.op.isInsert = true → ∀ row ∈ e.pre.users.rows, row.phoneNumber.text ≠ "13800000000") := by decide +kernel
  have hcode : CodePassed registered 1 "13800000000" "000000" := fun e he htid => (hlog e he htid).1
  have hid : NoCollision registered 1 := fun e he htid => (hlog e he htid).2.1
  have hfree : FreeAtInsert registered 1 "13800000000" := fun e he htid => (hlog e he htid).2.2
  exact (taken_reported reachable_registered ended_registered hcode (by decide) (by decide) (by decide) (by decide)
    hid).mpr hfree

/-- A user who was deleted. -/
def deletedRow : Row :=
  { Row.alice with id := ⟨List.replicate 16 0, rfl⟩, deletedAt := some 0 }

/-- The table has that user only. -/
def deleted : ServerState :=
  ⟨⟨1764151200 * 10 ^ 9, Store.empty, ⟨[deletedRow], List.nodup_singleton _, List.nodup_singleton _, List.nodup_nil⟩⟩,
    [], []⟩

/-- The phone number is to be registered again. -/
def reregistered : ServerState :=
  after (Libs.reference Texts.alice) .photon
    (after (Libs.reference Texts.alice) .photon deleted (.rpc (.sendCode "13800000000" 1) []))
    (.rpc (.register "alice" "secret" "13800000000" "000000") [])

theorem reachable_reregistered :
    Reachable (server (Libs.reference Texts.alice) .photon .never fun _ _ => True).system reregistered := by
  have hS := hosts_server (Libs.reference Texts.alice) .photon .never fun _ _ => True
  exact reachable_after hS (reachable_after hS (reachable_start rfl) trivial) trivial

/-- The phone number of a deleted user is reported as an internal error. -/
theorem taken_unreported : ¬ ∀ s, Reachable (server (Libs.reference Texts.alice) .photon .never fun _ _ => True).system s →
    ∀ tid username password phoneNumber code reply status,
      Ended s tid (.register username password phoneNumber code) reply status → CodePassed s tid phoneNumber code →
      NulFree username → username.length ≤ 64 → NulFree phoneNumber → phoneNumber.length ≤ 20 → NoCollision s tid →
      ReportsTaken s tid reply := by
  intro h
  have hend : Ended reregistered 1 (.register "alice" "secret" "13800000000" "000000")
      { status := some ⟨1000, "注册失败"⟩ } .OK := ⟨[], thread_of_finished (by decide +kernel)⟩
  have hlog : ∀ e ∈ reregistered.log,
      (e.op = .redisGet (BasicUserService.codeKey "13800000000") →
        e.pre.redis.get e.pre.time (BasicUserService.codeKey "13800000000") = some "000000") ∧
      (∀ row ∈ e.pre.users.rows, insertedId e.op ≠ some row.id.toString) ∧
      e.post.users.rows = [deletedRow] ∧ e.pre.users.rows = [deletedRow] := by decide +kernel
  have hcode : CodePassed reregistered 1 "13800000000" "000000" := fun e he _ => (hlog e he).1
  have hid : NoCollision reregistered 1 := fun e he _ => (hlog e he).2.1
  have hreport := h reregistered reachable_reregistered 1 _ _ _ _ _ _ hend hcode (by decide) (by decide) (by decide)
    (by decide) hid
  have hno : ¬ Accepted reregistered 1 := by
    intro hacc
    obtain ⟨e, he, -, -, row, hrow⟩ := hacc
    rw [(hlog e he).2.2.1, (hlog e he).2.2.2] at hrow
    cases hrow
  cases hreport.2 hno

end PhotonCommerce.System
