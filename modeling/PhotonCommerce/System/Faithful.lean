import PhotonCommerce.System.CacheTransparency
import PhotonCommerce.System.Registration

/-!
# A registration is found again

* `after_insert` : a call invoked after a registration finds the row in the table at each of its entries;
* `getUserById_registered` : so it does through the cache;
* `register_faithful` : what the calls invoked after a registration answer, when Redis and the database work.
-/

namespace PhotonCommerce.System
open Coroutine Interleaving Transition Domain Utils Infrastructure Service Adapter

/-- The thread has not come to its end. -/
def Running (th : Thread Op Ans Call String Outcome) : Prop := ∃ o k, th.todo = .await o k

section After
variable {L : Libs} {cfg : JwtConfig} {F : Faults} {admits : ServerState → Call → Prop} {s t : ServerState}
  {ls : List (Label Call)} {tid' : Nat}

/-- **The row of a registration is there** before every entry of a call invoked later. -/
theorem after_insert (hs : Reachable (server L cfg F admits).system s)
    (hrun : Run (server L cfg F admits).system s ls t) {e e' : LogEntry} {row : Row} (he : e ∈ s.log)
    (hrow : row ∈ e.post.users.rows) (hlen : s.threads.length ≤ tid') {l' r' : List LogEntry}
    (hlog' : t.log = l' ++ e' :: r') (htid' : e'.tid = tid') : row ∈ e'.pre.users.rows := by
  obtain ⟨⟨rest, hext⟩, -⟩ := Setup.extends hrun
  obtain ⟨l, r, hlog⟩ := List.append_of_mem he
  have hlate : e' ∉ s.log := fun hmem => absurd ((Setup.traced hs).lt hmem) (by omega)
  have hbefore : e ∈ l' := by
    have hsplit : l ++ e :: (r ++ rest) = l' ++ e' :: r' := by rw [← hlog', hext, hlog, List.append_assoc]; rfl
    rcases split_order hsplit with ⟨-, rfl⟩ | ⟨m, rfl⟩ | ⟨m, rfl⟩
    · exact absurd he hlate
    · simp
    · exact absurd (by simp [hlog]) hlate
  exact List.IsPrefix.subset ((setup_later (hs.run hrun)).2 l' e' r' hlog' e hbefore).2 hrow

end After

section Found
variable {L : Libs} {cfg : JwtConfig} {admits : ServerState → Call → Prop} {t : ServerState} {tid' : Nat} {row : Row}

/-- The row is in the table before every entry of the thread. -/
def Sees (t : ServerState) (tid' : Nat) (row : Row) : Prop :=
  row.deletedAt = none ∧ ∀ l' e' r', t.log = l' ++ e' :: r' → e'.tid = tid' → row ∈ e'.pre.users.rows

/-- A thread that sees a row finds it by its id, in the cache or in the table. -/
theorem getUserById_registered (ht : Reachable (server L cfg .never admits).system t) (hrow : Sees t tid' row)
    {tr₁ tr tr₂ : List Ev} (hev : events t.log tid' = tr₁ ++ tr ++ tr₂)
    {out : Except String (Except DbError (Option User))}
    (hrun : Runs (UserRepository.getUserById L row.id.toString) tr out) :
    ∃ user, out = .ok (.ok (some user)) ∧ user.view = (UserDao.userOfRow L.timestamptzOut row).view := by
  obtain ⟨l, ⟨ev, tid, pre, post⟩, r, tr', tr'', hlog, htid, -, -, hcase⟩ := getUserById_instant ht hev hrun
  have hfind := UsersTable.find_id (hrow.2 l _ r hlog htid) hrow.1
  rcases hcase with ⟨result, rfl, row', user, hfind', rfl, hview⟩ | ⟨conn, b, rfl, rfl, hfail⟩
  · rw [hfind] at hfind'
    cases hfind'
    obtain ⟨user, rfl, huser⟩ := Option.map_eq_some_iff.mp hview
    exact ⟨user, rfl, huser⟩
  · have hexec := Setup.executed ht _ (hlog ▸ List.mem_append_right l List.mem_cons_self)
    have hb : b = found L .id (some row) := select_exec_never hexec hfind
    rw [hb, selectOutcome_found] at hfail
    exact absurd rfl (hfail _)

/-- An RPC that looks up the id of a row it sees answers for the user of the row. -/
theorem served_lookup (ht : Reachable (server L cfg .never admits).system t) (hrow : Sees t tid' row)
    {request : Request} {userId : String} {k : Except DbError (Option User) → Prog Reply}
    (hk : lookupOf L cfg request userId = some (row.id.toString, k)) {tr₀ tr₁ : List Ev}
    (hev : events t.log tid' = tr₀ ++ ⟨.coSpawn userId, ()⟩ :: tr₁) {result : Except String Reply}
    (hlogic : Runs (runSpecificLogic L cfg (userRepository L) request userId) tr₁ result) :
    ∃ tr₂, (∀ ev ∈ tr₂, ev ∈ events t.log tid') ∧
      Runs (k (.ok (some (UserDao.userOfRow L.timestamptzOut row)))) tr₂ result := by
  rw [runSpecificLogic_eq hk] at hlogic
  have hsplit : ∀ tr tr₂, tr₁ = tr ++ tr₂ → events t.log tid' = (tr₀ ++ [⟨.coSpawn userId, ()⟩]) ++ tr ++ tr₂ := by
    rintro tr tr₂ rfl
    rw [hev]
    simp
  rcases runs_bind.mp hlogic with ⟨v, tr, tr₂, htr, hget, hrest⟩ | ⟨what, -, hget⟩
  · obtain ⟨user, hout, hview⟩ := getUserById_registered ht hrow (hsplit tr tr₂ htr) hget
    cases hout
    refine ⟨tr₂, fun ev hmem => ?_, ?_⟩
    · rw [hsplit tr tr₂ htr]
      exact List.mem_append_right _ hmem
    · have hsame : viewOf (.ok (some (UserDao.userOfRow L.timestamptzOut row))) = viewOf (.ok (some user)) := by
        simp only [viewOf, Except.map, Option.map_some, hview]
      rw [lookupOf_view hk hsame]
      exact hrest
  · obtain ⟨user, hout, -⟩ := getUserById_registered ht hrow (hsplit tr₁ [] (List.append_nil _).symm) hget
    cases hout

/-- A `GetUserInfo` that was handed over for a user runs for that user. -/
theorem served_getUserInfo {F : Faults} (ht : Reachable (server L cfg F admits).system t) {md : Metadata} {reply : Reply}
    {status : GrpcStatus} (hth : t.threads[tid']? = some ⟨.rpc .getUserInfo md, .ret (.rpc reply status)⟩)
    {userId : String} (hspawn : (⟨.coSpawn userId, ()⟩ : Ev) ∈ events t.log tid') :
    ∃ tr₀ tr₁ result, events t.log tid' = tr₀ ++ ⟨.coSpawn userId, ()⟩ :: tr₁ ∧
      Runs (performAuthentication L cfg md) tr₀ (.ok (.ok userId)) ∧
      Runs (runSpecificLogic L cfg (userRepository L) .getUserInfo userId) tr₁ result ∧
      (reply, status) = onLogicFinished result := by
  have hnow : ∀ {tr out}, Runs (performAuthentication L cfg md) tr out → (⟨.coSpawn userId, ()⟩ : Ev) ∉ tr := by
    intro tr out h hmem
    cases (runs_performAuthentication h).1 _ hmem
  rcases runs_serve (served ht hth) with ⟨error, -, hauth, -⟩ | ⟨tr₀, userId', tr₁, result, hev, hauth, hlogic, hout⟩
  · exact absurd hspawn (hnow hauth)
  · rw [hev, List.mem_append, List.mem_cons] at hspawn
    rcases hspawn with hmem | heq | hmem
    · exact absurd hmem (hnow hauth)
    · cases heq
      exact ⟨tr₀, tr₁, result, hev, hauth, hlogic, Except.ok.inj hout⟩
    · cases isStorage_getUserInfo hlogic _ hmem

end Found

section Faithful
variable {L : Libs} {cfg : JwtConfig} {admits : ServerState → Call → Prop} {s t : ServerState} {tid tid' : Nat}
  {row : Row} {username password phoneNumber code userId salt : String} {md : Metadata} {todo : Prog Outcome}

/-- The info of a registered user. -/
theorem userInfo_registered (hreg : Registered L username password phoneNumber userId salt row) :
    BasicUserService.userInfo (UserDao.userOfRow L.timestamptzOut row) =
      ⟨.ok, userId, username, "", "", phoneNumber⟩ := by
  simp only [BasicUserService.userInfo, UserDao.userOfRow, hreg.id, hreg.phoneNumber, hreg.username, hreg.email,
    hreg.avatarUrl, Option.getD_some]

theorem getUserInfo_registered (ht : Reachable (server L cfg .never admits).system t) (hrow : Sees t tid' row)
    (hreg : Registered L username password phoneNumber userId salt row)
    (hth : t.threads[tid']? = some ⟨.rpc .getUserInfo md, todo⟩)
    (hspawn : (⟨.coSpawn userId, ()⟩ : Ev) ∈ events t.log tid') :
    (∃ o k, todo = .await o k) ∨ todo = .ret (.rpc
      { status := some (statusMessage .ok), user := some ⟨userId, username, "", "", phoneNumber⟩ } .OK) := by
  refine (running_or_ended ht hth).imp_right ?_
  rintro ⟨reply, status, rfl⟩
  obtain ⟨tr₀, tr₁, result, hev, -, hlogic, hout⟩ := served_getUserInfo ht hth hspawn
  obtain ⟨tr₂, -, hrun⟩ := served_lookup ht hrow (by rw [hreg.id]; rfl) hev hlogic
  simp only [BasicUserService.infoAnswer, userInfo_registered hreg] at hrun
  obtain ⟨-, rfl⟩ := hrun
  cases hout
  rfl

theorem getUserByPhoneNumber_registered (ht : Reachable (server L cfg .never admits).system t)
    (hrow : Sees t tid' row) (hreg : Registered L username password phoneNumber userId salt row)
    (hth : t.threads[tid']? = some ⟨.getUserByPhoneNumber phoneNumber, todo⟩) :
    (∃ o k, todo = .await o k) ∨ ∃ user, todo = .ret (.user (.ok (some user))) ∧ user.id = userId := by
  have hfound : ∀ {tr out}, events t.log tid' = tr → Runs (UserDao.getUserByPhoneNumber phoneNumber) tr out →
      out = .ok (.ok (some (UserDao.userOfRow L.timestamptzOut row))) := by
    intro tr out hev hrun
    obtain ⟨conn, a, rfl, rfl⟩ := UserDao.runs_selectUser.mp hrun
    obtain ⟨l, pre, post, r, hlog, hexec, -, -⟩ :=
      Setup.entry ht (List.append_nil _).symm [⟨.getConnection, conn⟩] hev
    have hfind := UsersTable.find_phoneNumber (hrow.2 l _ r hlog rfl) hrow.1
    rw [hreg.phoneNumber] at hfind
    rw [select_exec_never hexec hfind, selectOutcome_found]
    rfl
  have htr := (Setup.traced ht).trace tid' _ hth
  cases todo with
  | await o k => exact .inl ⟨o, k, rfl⟩
  | ret v =>
      rcases runs_bind.mp htr.runs_ret with ⟨result, tr₁, tr₂, hev, hget, rfl, hout⟩ | ⟨e, he, -⟩
      · cases hout
        rw [List.append_nil] at hev
        cases hfound hev hget
        exact .inr ⟨_, rfl, hreg.id⟩
      · cases he
  | throw what =>
      rcases runs_bind.mp htr.runs_throw with ⟨result, tr₁, tr₂, -, -, -, hout⟩ | ⟨e, -, hget⟩
      · cases hout
      · cases hfound rfl hget

theorem loginByPassword_registered (ht : Reachable (server L cfg .never admits).system t) (hrow : Sees t tid' row)
    (hreg : Registered L username password phoneNumber userId salt row) {P : String}
    (hth : t.threads[tid']? = some ⟨.rpc (.loginByPassword userId P) md, todo⟩) :
    (∃ o k, todo = .await o k) ∨
    (L.sha256 (P ++ salt) = L.sha256 (password ++ salt) ∧ ∃ now : Nat, (⟨.now, now⟩ : Ev) ∈ events t.log tid' ∧
      todo = .ret (.rpc { status := some (statusMessage .ok), token := JwtUtil.tokenAt L cfg userId now } .OK)) ∨
    (L.sha256 (P ++ salt) ≠ L.sha256 (password ++ salt) ∧
      todo = .ret (.rpc { status := some (statusMessage ⟨.passwordIncorrect, "密码错误"⟩) } .OK)) := by
  refine (running_or_ended ht hth).imp_right ?_
  rintro ⟨reply, status, rfl⟩
  rcases runs_serve (served ht hth) with ⟨error, hreq, -, -⟩ | ⟨tr₀, userId', tr₁, result, hev, -, hlogic, hout⟩
  · cases hreq
  obtain ⟨tr₂, hmem, hrun⟩ := served_lookup ht hrow (by rw [hreg.id]; rfl) hev hlogic
  rcases runs_bind.mp hrun with ⟨v, tr, tr₃, rfl, hanswer, rfl, rfl⟩ | ⟨what, -, hanswer⟩
  · rcases AuthService.runs_passwordAnswer.mp hanswer with ⟨hpwd, now, rfl, hv⟩ | ⟨hpwd, rfl, hv⟩
    · refine .inl ⟨?_, now, hmem _ (by simp), ?_⟩
      · rw [← SecurityUtil.hashPassword_eq_iff, ← hreg.passwordHash, ← hreg.salt]
        exact hpwd
      · cases hv
        cases hout
        simp only [UserDao.userOfRow, AuthService.loggedIn, hreg.id]
        rfl
    · refine .inr ⟨fun heq => hpwd ?_, ?_⟩
      · change SecurityUtil.hashPassword L P row.salt.text = row.passwordHash.text
        rw [hreg.salt, hreg.passwordHash]
        exact (SecurityUtil.hashPassword_eq_iff L _ _ _).mpr heq
      · cases hv
        cases hout
        rfl
  · rcases AuthService.runs_passwordAnswer.mp hanswer with ⟨-, now, -, hv⟩ | ⟨-, -, hv⟩ <;> cases hv

/-- **A registration is faithful.** After a `Register` that succeeded with texts that fit their columns, whatever other
calls do: `GetUserInfo` run for the new user id answers with what was registered, the phone number leads to the id, and
`LoginByPassword` succeeds exactly with a password of the same digest. -/
theorem register_faithful (hs : Reachable (server L cfg .never admits).system s) {reply : Reply} {status : GrpcStatus}
    (hended : Ended s tid (.register username password phoneNumber code) reply status) (hsucc : reply.code = some 0)
    (hname : NulFree username) (hnamelen : username.length ≤ 64) (hphone : NulFree phoneNumber)
    (hphonelen : phoneNumber.length ≤ 20) :
    ∃ row ∈ s.world.users.rows, Registered L username password phoneNumber reply.userId row.salt.text row ∧
      (∀ P, (L.sha256 (P ++ row.salt.text) = L.sha256 (password ++ row.salt.text) →
          P ++ row.salt.text = password ++ row.salt.text) →
        (L.sha256 (P ++ row.salt.text) = L.sha256 (password ++ row.salt.text) ↔ P = password)) ∧
      ∀ ls t, Run (server L cfg .never admits).system s ls t → ∀ tid' th, s.threads.length ≤ tid' →
        t.threads[tid']? = some th →
        (∀ md, th.call = .rpc .getUserInfo md → (⟨.coSpawn reply.userId, ()⟩ : Ev) ∈ events t.log tid' →
          Running th ∨ th.todo = .ret (.rpc { status := some (statusMessage .ok)
                                              user := some ⟨reply.userId, username, "", "", phoneNumber⟩ } .OK)) ∧
        (th.call = .getUserByPhoneNumber phoneNumber →
          Running th ∨ ∃ user, th.todo = .ret (.user (.ok (some user))) ∧ user.id = reply.userId) ∧
        ∀ P md, th.call = .rpc (.loginByPassword reply.userId P) md →
          Running th ∨
          (L.sha256 (P ++ row.salt.text) = L.sha256 (password ++ row.salt.text) ∧
            ∃ now : Nat, (⟨.now, now⟩ : Ev) ∈ events t.log tid' ∧
              th.todo = .ret (.rpc { status := some (statusMessage .ok)
                                     token := JwtUtil.tokenAt L cfg reply.userId now } .OK)) ∨
          (L.sha256 (P ++ row.salt.text) ≠ L.sha256 (password ++ row.salt.text) ∧
            th.todo = .ret (.rpc { status := some (statusMessage ⟨.passwordIncorrect, "密码错误"⟩) } .OK)) := by
  obtain ⟨md, hth⟩ := hended
  obtain ⟨l, e, r, d, row, hadm, hlog, -, hpost, hof, huser, -, -⟩ := register_entry hs hth hsucc
  have hreg : Registered L username password phoneNumber reply.userId row.salt.text row := by
    have h := registered_of_ofParams hof hname hnamelen hphone hphonelen
    rw [huser, h.salt]
    exact h
  have hmem : e ∈ s.log := by simp [hlog]
  have hrow : row ∈ e.post.users.rows := by
    rw [hpost]
    simp [UsersTable.add]
  refine ⟨row, List.IsPrefix.subset ((setup_later hs).1 e hmem).2 hrow, hreg, fun P hcoll => ⟨fun heq => ?_, ?_⟩, ?_⟩
  · exact (String.append_left_inj _).mp (hcoll heq)
  · rintro rfl
    rfl
  · rintro ls t hrun tid' ⟨call, todo⟩ hlen hth'
    have ht := hs.run hrun
    have hsees : Sees t tid' row :=
      ⟨hreg.deletedAt, fun l' e' r' hlog' htid' => after_insert hs hrun hmem hrow hlen hlog' htid'⟩
    refine ⟨?_, ?_, ?_⟩
    · rintro md' rfl hspawn
      exact getUserInfo_registered ht hsees hreg hth' hspawn
    · rintro rfl
      exact getUserByPhoneNumber_registered ht hsees hreg hth'
    · rintro P md' rfl
      exact loginByPassword_registered ht hsees hreg hth'

end Faithful

/-- The user registered in `registered` logs in. -/
def registeredLogin : ServerState :=
  after (Libs.reference Texts.alice) .photon registered
    (.rpc (.loginByPassword "019abf9b-0900-7000-8000-000000000000" "secret") [])

theorem register_faithful_registered :
    ∃ row ∈ registered.world.users.rows,
      Registered (Libs.reference Texts.alice) "alice" "secret" "13800000000" "019abf9b-0900-7000-8000-000000000000"
        row.salt.text row ∧
      ∃ now : Nat, (⟨.now, now⟩ : Ev) ∈ events registeredLogin.log 2 ∧ Texts.alice.token =
        JwtUtil.tokenAt (Libs.reference Texts.alice) .photon "019abf9b-0900-7000-8000-000000000000" now := by
  obtain ⟨row, hrow, hreg, -, hlater⟩ := register_faithful reachable_registered ended_registered rfl (by decide)
    (by decide) (by decide) (by decide)
  have hS := hosts_server (Libs.reference Texts.alice) .photon .never fun _ _ => True
  obtain ⟨ls, hrun⟩ : ∃ ls, Run _ registered ls registeredLogin := run_after hS trivial
  have hfin : finished? registeredLogin 2 = some (.loginByPassword "019abf9b-0900-7000-8000-000000000000" "secret", [],
      { status := some ⟨0, "操作成功"⟩, token := Texts.alice.token }, .OK) := by decide +kernel
  refine ⟨row, hrow, hreg, ?_⟩
  rcases (hlater ls _ hrun 2 _ (by decide +kernel) (thread_of_finished hfin)).2.2 "secret" [] rfl with
    ⟨o, k, h⟩ | ⟨-, now, hnow, h⟩ | ⟨-, h⟩
  · cases h
  · have htoken := congrArg Reply.token (Outcome.rpc.inj (Co.ret.inj h)).1
    dsimp only [registeredReply] at htoken
    exact ⟨now, hnow, htoken⟩
  · cases h

end PhotonCommerce.System
