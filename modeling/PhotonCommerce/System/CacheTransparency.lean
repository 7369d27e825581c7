import PhotonCommerce.System.Server

/-!
# The cache is transparent

* `lookupOf` : `LoginByPassword` and `GetUserInfo` are one lookup and what is made of it, which depends on the view of
  the user only;
* `cache_transparent` : in every run, with any failures, a lookup reports the table at an instant of the call or its own
  DAO call failed, and the two RPCs answer as they would without the cache.
-/

namespace PhotonCommerce.System
open Coroutine Interleaving Transition Domain Infrastructure Service Adapter

section Views
variable (L : Libs) (cfg : JwtConfig)

/-- What a lookup shows. -/
def viewOf (result : Except DbError (Option User)) : Except DbError (Option User.View) :=
  result.map (Option.map User.view)

/-- The id that a request looks up and what it makes of the lookup. -/
def lookupOf (request : Request) (userId : String) :
    Option (String × (Except DbError (Option User) → Prog Reply)) :=
  match request with
  | .loginByPassword user password => some (user, fun found => do
      let result ← AuthService.passwordAnswer L cfg password found
      return loginReply result)
  | .getUserInfo => some (userId, fun found => do
      let result ← BasicUserService.infoAnswer found
      return getUserInfoReply result)
  | _ => none

variable {L cfg} {request : Request} {userId id : String} {k : Except DbError (Option User) → Prog Reply}

theorem runSpecificLogic_eq (h : lookupOf L cfg request userId = some (id, k)) (repo : IUserRepository) :
    runSpecificLogic L cfg repo request userId = repo.getUserById id >>= k := by
  cases request with
  | loginByPassword user password =>
      cases h
      rw [runSpecificLogic_loginByPassword]
      exact Co.bind_assoc _ _ _
  | getUserInfo =>
      cases h
      rw [runSpecificLogic_getUserInfo]
      exact Co.bind_assoc _ _ _
  | _ => cases h

/-- Lookups that show the same are answered the same. -/
theorem lookupOf_view (h : lookupOf L cfg request userId = some (id, k)) {v v' : Except DbError (Option User)}
    (hv : viewOf v = viewOf v') : k v = k v' := by
  match v, v', hv with
  | .error e, .error e', hv =>
      cases Except.error.inj hv
      rfl
  | .ok none, .ok none, _ => rfl
  | .ok (some u), .ok (some u'), hv =>
      have hview : u.view = u'.view := Option.some.inj (Except.ok.inj hv)
      cases request with
      | loginByPassword user password =>
          cases h
          simp only [AuthService.passwordAnswer_view L cfg hview]
      | getUserInfo =>
          cases h
          simp only [BasicUserService.infoAnswer, BasicUserService.userInfo_view hview]
      | _ => cases h

/-- The logic of `GetUserInfo` awaits storage only. -/
theorem isStorage_getUserInfo {tr : List Ev} {result : Except String Reply}
    (h : Runs (runSpecificLogic L cfg (userRepository L) .getUserInfo userId) tr result) :
    ∀ ev ∈ tr, ev.op.isStorage = true := by
  rw [runSpecificLogic_eq rfl] at h
  rcases runs_bind.mp h with ⟨v, tr₁, tr₂, rfl, hget, hrest⟩ | ⟨what, -, hget⟩
  · have hnil : tr₂ = [] := by
      match v, hrest with
      | .error e, hrest => exact hrest.1
      | .ok none, hrest => exact hrest.1
      | .ok (some user), hrest => exact hrest.1
    rw [hnil, List.append_nil]
    exact UserRepository.isStorage_getUserById hget
  · exact UserRepository.isStorage_getUserById hget

end Views

section Transparency
variable {L : Libs} {cfg : JwtConfig} {F : Faults} {admits : ServerState → Call → Prop} {s : ServerState} {tid : Nat}
  {request : Request} {md : Metadata} {reply : Reply} {status : GrpcStatus}

/-- The DAO in place of the cached lookup: the same view, from an answer of the call's own or of the table before one
of its entries. -/
theorem uncached (hs : Reachable (server L cfg F admits).system s) {id : String} {tr₁ tr tr₂ : List Ev}
    (hev : events s.log tid = tr₁ ++ tr ++ tr₂) {out : Except String (Except DbError (Option User))}
    (hrun : Runs (UserRepository.getUserById L id) tr out) :
    ∃ conn b, out.map viewOf = (UserDao.selectOutcome b).map viewOf ∧
      ((⟨.execParams conn (.selectWhere UserDao.selectColumns .id) [id], b⟩ : Ev) ∈ events s.log tid ∨
        ∃ e ∈ s.log, e.tid = tid ∧ DbExec L .never e.pre (.selectWhere UserDao.selectColumns .id) [id] b e.pre) := by
  obtain ⟨l, e, r, tr', tr'', hlog, htid, -, htr, ⟨result, rfl, row, user, hfind, rfl, hview⟩ | ⟨conn, b, he, rfl, -⟩⟩ :=
    getUserById_instant hs hev hrun
  · refine ⟨0, found L .id row, ?_, .inr ⟨e, by simp [hlog], htid, exec_found hfind⟩⟩
    rw [selectOutcome_found]
    simp only [Except.map, viewOf, hview, Option.map_map]
    rfl
  · refine ⟨conn, b, rfl, .inl ?_⟩
    rw [hev, htr, he]
    simp

/-- A coroutine that begins with a lookup, with the DAO in place of the cache. -/
theorem runs_uncached (hs : Reachable (server L cfg F admits).system s) {userId id : String}
    {k : Except DbError (Option User) → Prog Reply} (hk : lookupOf L cfg request userId = some (id, k))
    {tr₀ tr : List Ev} (hev : events s.log tid = tr₀ ++ tr) {result : Except String Reply}
    (hrun : Runs (UserRepository.getUserById L id >>= k) tr result) :
    ∃ conn b tr₂, Runs (UserDao.getUserById id >>= k)
        (UserDao.callEvents conn (.selectWhere UserDao.selectColumns .id) [id] b ++ tr₂) result ∧
      (∀ ev ∈ tr₂, ev ∈ tr) ∧
      ((⟨.execParams conn (.selectWhere UserDao.selectColumns .id) [id], b⟩ : Ev) ∈ events s.log tid ∨
        ∃ e ∈ s.log, e.tid = tid ∧ DbExec L .never e.pre (.selectWhere UserDao.selectColumns .id) [id] b e.pre) := by
  have hdao : ∀ conn b, Runs (UserDao.getUserById id)
      (UserDao.callEvents conn (.selectWhere UserDao.selectColumns .id) [id] b) (UserDao.selectOutcome b) :=
    fun conn b => UserDao.runs_selectUser.mpr ⟨conn, b, rfl, rfl⟩
  rcases runs_bind.mp hrun with ⟨v, trc, tr₂, rfl, hget, hrest⟩ | ⟨what, rfl, hget⟩
  · obtain ⟨conn, b, hview, hdb⟩ := uncached hs (by rw [hev, List.append_assoc]) hget
    refine ⟨conn, b, tr₂, ?_, fun ev hmem => List.mem_append_right _ hmem, hdb⟩
    have hcall := hdao conn b
    cases hb : UserDao.selectOutcome b with
    | error what =>
        rw [hb] at hview
        cases hview
    | ok v' =>
        rw [hb] at hview hcall
        rw [lookupOf_view hk (Except.ok.inj hview)] at hrest
        exact hcall.bind hrest
  · have hsplit : events s.log tid = tr₀ ++ tr ++ [] := by rw [hev, List.append_nil]
    obtain ⟨conn, b, hview, hdb⟩ := uncached hs hsplit hget
    refine ⟨conn, b, [], ?_, by simp, hdb⟩
    have hcall := hdao conn b
    cases hb : UserDao.selectOutcome b with
    | ok v' =>
        rw [hb] at hview
        cases hview
    | error what' =>
        rw [hb] at hview hcall
        obtain rfl := Except.error.inj hview
        rw [List.append_nil]
        exact runs_bind.mpr (.inr ⟨what, rfl, hcall⟩)

/-- An RPC that looks up a user answers as without the cache. -/
theorem served_uncached (hs : Reachable (server L cfg F admits).system s)
    (hlookup : ∀ userId, ∃ id k, lookupOf L cfg request userId = some (id, k))
    (hth : s.threads[tid]? = some ⟨.rpc request md, .ret (.rpc reply status)⟩) :
    ∃ tr, Runs (serve L cfg userDaoRepository request md) tr (.ok (reply, status)) ∧
      ∀ ev ∈ tr, ev ∈ events s.log tid ∨ ∃ e ∈ s.log, e.tid = tid ∧ exec L .never ev.op e.pre ev.ans e.pre := by
  rcases runs_serve (served hs hth) with ⟨error, hreq, hauth, hout⟩ |
      ⟨tr₀, userId, tr₁, result, hev, hauth, hlogic, hout⟩
  · cases hout
    exact ⟨_, runs_serve_denied hreq hauth, fun ev hmem => .inl hmem⟩
  · obtain ⟨id, k, hk⟩ := hlookup userId
    have hrun : Runs (UserRepository.getUserById L id >>= k) tr₁ result := by
      rw [runSpecificLogic_eq hk] at hlogic
      exact hlogic
    have hsplit : events s.log tid = (tr₀ ++ [⟨.coSpawn userId, ()⟩]) ++ tr₁ := by
      rw [hev, List.append_assoc]
      rfl
    obtain ⟨conn, b, tr₂, hdao, htr₂, hdb⟩ := runs_uncached hs hk hsplit hrun
    have hlogic' : Runs (runSpecificLogic L cfg userDaoRepository request userId)
        (UserDao.callEvents conn (.selectWhere UserDao.selectColumns .id) [id] b ++ tr₂) result := by
      rw [runSpecificLogic_eq hk]
      exact hdao
    refine ⟨_, hout ▸ runs_serve_of hauth hlogic', fun ev hmem => ?_⟩
    -- some entry of the call, at which the connection operations may happen
    obtain ⟨e₀, he₀, htid₀, -⟩ : ∃ e ∈ s.log, e.tid = tid ∧ e.toEvent = ⟨.coSpawn userId, ()⟩ :=
      mem_events.mp (by rw [hev]; simp)
    simp only [UserDao.callEvents, List.cons_append, List.nil_append, List.mem_append, List.mem_cons] at hmem
    rcases hmem with hmem | rfl | rfl | rfl | rfl | hmem
    · exact .inl (by rw [hev]; exact List.mem_append_left _ hmem)
    · exact .inl (by rw [hev]; simp)
    · exact .inr ⟨e₀, he₀, htid₀, rfl⟩
    · exact hdb
    · exact .inr ⟨e₀, he₀, htid₀, rfl⟩
    · exact .inl (by rw [hev]; exact List.mem_append_right _ (List.mem_cons_of_mem _ (htr₂ ev hmem)))

/-- **Cache transparency.** -/
theorem cache_transparent (hs : Reachable (server L cfg F admits).system s) :
    (∀ tid id tr₁ tr tr₂ out, events s.log tid = tr₁ ++ tr ++ tr₂ → Runs ((userRepository L).getUserById id) tr out →
      (∀ user, out = .ok (.ok user) → ∃ e ∈ s.log, e.tid = tid ∧ e.toEvent ∈ tr ∧ ∃ row,
        e.pre.users.find .id id = .ok row ∧
        user.map User.view = row.map fun r => (UserDao.userOfRow L.timestamptzOut r).view) ∧
      ((∀ user, out ≠ .ok (.ok user)) → ∃ conn b,
        (⟨.execParams conn (.selectWhere UserDao.selectColumns .id) [id], b⟩ : Ev) ∈ tr ∧
        out = UserDao.selectOutcome b)) ∧
    ∀ tid request md reply status, (request = .getUserInfo ∨ ∃ user password, request = .loginByPassword user password) →
      s.threads[tid]? = some ⟨.rpc request md, .ret (.rpc reply status)⟩ →
      ∃ tr, Runs (serve L cfg userDaoRepository request md) tr (.ok (reply, status)) ∧
        ∀ ev ∈ tr, ev ∈ events s.log tid ∨ ∃ e ∈ s.log, e.tid = tid ∧ exec L .never ev.op e.pre ev.ans e.pre := by
  refine ⟨fun tid id tr₁ tr tr₂ out hev hrun => ?_, fun tid request md reply status hreq hth => ?_⟩
  · obtain ⟨l, e, r, tr', tr'', hlog, htid, -, htr,
      ⟨result, rfl, row, user, hfind, rfl, hview⟩ | ⟨conn, b, he, rfl, hfail⟩⟩ := getUserById_instant hs hev hrun
    · refine ⟨fun user' hout => ?_, fun hfail => absurd rfl (hfail user)⟩
      cases hout
      exact ⟨e, by simp [hlog], htid, by simp [htr], row, hfind, hview⟩
    · refine ⟨fun user hout => absurd hout (hfail user), fun _ => ⟨conn, b, ?_, rfl⟩⟩
      rw [htr, he]
      simp
  · refine served_uncached hs ?_ hth
    rcases hreq with rfl | ⟨user, password, rfl⟩
    · exact fun userId => ⟨_, _, rfl⟩
    · exact fun userId => ⟨_, _, rfl⟩

end Transparency

/-- A registered user is looked up, which fills the cache, and logs in, which reads it. -/
def lookedUp : ServerState :=
  after (Libs.reference Texts.alice) .photon
    (after (Libs.reference Texts.alice) .photon ⟨.alice, [], []⟩ (.getUserById "019abf9b-0900-7000-8000-000000000000"))
    (.rpc (.loginByPassword "019abf9b-0900-7000-8000-000000000000" "secret") [])

theorem cache_transparent_lookedUp :
    ∃ tr, Runs (serve (Libs.reference Texts.alice) .photon userDaoRepository
        (.loginByPassword "019abf9b-0900-7000-8000-000000000000" "secret") []) tr
        (.ok ({ status := some ⟨0, "操作成功"⟩, token := Texts.alice.token }, .OK)) ∧
      ∀ ev ∈ tr, ev ∈ events lookedUp.log 1 ∨
        ∃ e ∈ lookedUp.log, e.tid = 1 ∧ exec (Libs.reference Texts.alice) .never ev.op e.pre ev.ans e.pre := by
  have hS := hosts_server (Libs.reference Texts.alice) .photon .never fun _ _ => True
  have hs : Reachable (server (Libs.reference Texts.alice) .photon .never fun _ _ => True).system lookedUp :=
    reachable_after hS (reachable_after hS (reachable_start rfl) trivial) trivial
  have hfin : finished? lookedUp 1 = some (.loginByPassword "019abf9b-0900-7000-8000-000000000000" "secret", [],
      { status := some ⟨0, "操作成功"⟩, token := Texts.alice.token }, .OK) := by decide +kernel
  exact (cache_transparent hs).2 1 _ [] _ _ (.inr ⟨_, _, rfl⟩) (thread_of_finished hfin)

end PhotonCommerce.System
