import PhotonCommerce.Runtime.Reference
import PhotonCommerce.Storage.UserRepository

/-!
# The verification codes as a map with expiry

Calls of the two repositories share one Redis and are interleaved in any way.

* `RepoCall`, `repositories` : the calls and their system;
* `latestSave` : the latest `SaveCode` of a usage and a target in a log, by its call, not by its key;
* `codeAt` : what a map with expiry holds for it at a time;
* `getCode_eq_codeAt` : this is what `GetCode` returns; no other call changes it.
-/

namespace PhotonCommerce.Infrastructure
open Coroutine Interleaving Transition Domain ExpiringMap VerificationCodeRepository

/-- The calls that read or write Redis. -/
inductive RepoCall where
  | saveCode (usage : CodeUsage) (target code : String) (expiry : Int)
  | getCode (usage : CodeUsage) (target : String)
  | getUserById (id : String)

inductive RepoResult where
  | saved
  | code (value : Option String)
  | user (result : Except DbError (Option User))

def RepoCall.run (L : Libs) : RepoCall → Prog RepoResult
  | .saveCode usage target code expiry => do
      VerificationCodeRepository.saveCode usage target code expiry
      return .saved
  | .getCode usage target => do
      let value ← VerificationCodeRepository.getCode usage target
      return .code value
  | .getUserById id => do
      let result ← UserRepository.getUserById L id
      return .user result

/-- Every interleaving of the calls. -/
def repositories (L : Libs) (F : Faults) : Setup Op Ans World RepoCall String RepoResult :=
  setup L F (RepoCall.run L) fun _ _ => True

abbrev RepoState := State Op Ans World RepoCall String RepoResult

/-- A `SaveCode` that took effect: when, the code and its expiry in seconds. -/
structure Save where
  time : Nat
  code : String
  expiry : Int
  deriving DecidableEq, Repr

/-- The entry as a `SaveCode` of a usage and a target. -/
def saveOf (calls : List RepoCall) (usage : CodeUsage) (target : String) (e : LogEntry) : Option Save :=
  match calls[e.tid]? with
  | some (.saveCode usage' target' code expiry) =>
      if usage' = usage ∧ target' = target then some ⟨e.pre.time, code, expiry⟩ else none
  | _ => none

/-- The latest `SaveCode` of a usage and a target. -/
def latestSave (calls : List RepoCall) (log : List LogEntry) (usage : CodeUsage) (target : String) : Option Save :=
  log.reverse.findSome? (saveOf calls usage target)

/-- The code until `expiry` seconds have passed. -/
def Save.within (save : Save) (time : Nat) : Option String :=
  if (time : Int) < save.time + save.expiry * 10 ^ 9 then some save.code else none

/-- The code of a save at a time: an expiry that is not positive is none. -/
def Save.codeAt (save : Save) (time : Nat) : Option String :=
  if save.expiry > 0 then save.within time else some save.code

/-- The calls of a state, by thread id. -/
def calls (s : RepoState) : List RepoCall := s.threads.map Thread.call

/-! ## Which call writes what -/

section Awaits
variable {L : Libs}

/-- What each call may await. -/
def RepoCall.Awaits : RepoCall → List Ev → Op → Prop
  | .saveCode usage target code expiry, _, o => ∃ keyPrefix, getKeyPrefixForUsage usage = .ok keyPrefix ∧
      o = .redisSet (keyPrefix ++ target) code (if expiry > 0 then some expiry else none)
  | .getCode _ _, _, o => o.isRedisSet = false
  | .getUserById id, _, o => ∀ key value ex, o = .redisSet key value ex → key = UserRepository.cacheKey id

theorem RepoCall.always_run (call : RepoCall) : Always call.Awaits [] (call.run L) := by
  cases call with
  | saveCode usage target code expiry =>
      exact (always_saveCode fun keyPrefix hp => ⟨keyPrefix, hp, rfl⟩).bind fun _ _ _ => Always.pure _
  | getCode usage target => exact (always_getCode fun keyPrefix hp => rfl).bind fun _ _ _ => Always.pure _
  | getUserById id =>
      have hφ : OnWrites (RepoCall.getUserById id).Awaits := by
        rintro hist o ho - key value ex rfl
        cases ho
      refine (UserRepository.always_getUserById hφ fun hist conn b user _ => ?_).bind fun _ _ _ => Always.pure _
      rintro key value ex heq
      cases heq
      rfl

end Awaits

section Simulation
variable {L : Libs} {F : Faults} {s : RepoState} {usage : CodeUsage} {keyPrefix target : String}

/-- The call of an entry awaited it. -/
theorem call_awaits (hs : Reachable (repositories L F).system s) {e : LogEntry} (he : e ∈ s.log) :
    ∃ call hist, (calls s)[e.tid]? = some call ∧ call.Awaits hist e.op := by
  obtain ⟨l, r, hlog⟩ := List.append_of_mem he
  obtain ⟨th, hth, hφ⟩ := Setup.always (S := repositories L F) RepoCall.always_run hs hlog
  exact ⟨th.call, _, by rw [calls, List.getElem?_map, hth]; rfl, hφ⟩

theorem saveOf_eq_some {calls : List RepoCall} {e : LogEntry} {save : Save}
    (h : saveOf calls usage target e = some save) :
    calls[e.tid]? = some (.saveCode usage target save.code save.expiry) ∧ save.time = e.pre.time := by
  unfold saveOf at h
  split at h
  · next heq =>
      obtain ⟨⟨rfl, rfl⟩, hsave⟩ := Option.ite_none_right_eq_some.mp h
      obtain rfl := Option.some.inj hsave
      exact ⟨heq, rfl⟩
  · cases h

/-- **A save writes its key**, with the expiry only when it is positive. -/
theorem op_of_saveOf (hs : Reachable (repositories L F).system s) {e : LogEntry} (he : e ∈ s.log)
    (hp : getKeyPrefixForUsage usage = .ok keyPrefix) {save : Save} (h : saveOf (calls s) usage target e = some save) :
    e.op = .redisSet (keyPrefix ++ target) save.code (if save.expiry > 0 then some save.expiry else none) := by
  obtain ⟨call, hist, hcall, hφ⟩ := call_awaits hs he
  rw [(saveOf_eq_some h).1] at hcall
  obtain rfl := Option.some.inj hcall
  obtain ⟨keyPrefix', hp', hop⟩ := hφ
  rw [hp] at hp'
  obtain rfl := Except.ok.inj hp'
  exact hop

/-- **Only a save of the usage and the target writes their key.** -/
theorem saveOf_of_op (hs : Reachable (repositories L F).system s) {e : LogEntry} (he : e ∈ s.log)
    (hp : getKeyPrefixForUsage usage = .ok keyPrefix) {value : String} {ex : Option Int}
    (hop : e.op = .redisSet (keyPrefix ++ target) value ex) :
    ∃ expiry, saveOf (calls s) usage target e = some ⟨e.pre.time, value, expiry⟩ ∧
      ex = if expiry > 0 then some expiry else none := by
  obtain ⟨call, hist, hcall, hφ⟩ := call_awaits hs he
  rw [hop] at hφ
  cases call with
  | getCode usage' target' => cases hφ
  | getUserById id => exact absurd (hφ _ _ _ rfl) (UserRepository.codeKey_ne_cacheKey hp target id)
  | saveCode usage' target' code expiry =>
      obtain ⟨keyPrefix', hp', heq⟩ := hφ
      obtain ⟨hkey, hcode, hex⟩ := Op.redisSet.inj heq
      obtain ⟨rfl, rfl⟩ := UserRepository.codeKey_injective hp hp' hkey
      refine ⟨expiry, ?_, hex⟩
      simp only [saveOf, hcall, and_self, if_true, hcode]

/-- The slot that holds a save. -/
def Save.slot (save : Save) : Slot String :=
  slotOf save.time save.code (if save.expiry > 0 then some save.expiry else none)

theorem Save.get_slot (save : Save) (time : Nat) :
    (if save.slot.live time then some save.slot.value else none) = save.codeAt time := by
  unfold Save.slot Save.codeAt Save.within slotOf
  by_cases hpos : save.expiry > 0
  · have hlive : (time < save.time + save.expiry.toNat * 10 ^ 9) ↔
        (time : Int) < save.time + save.expiry * 10 ^ 9 := by omega
    simp only [if_pos hpos, Option.map_some, Slot.live, decide_eq_true_eq, hlive]
  · simp only [if_neg hpos, Option.map_none, Slot.live, if_true]

theorem untouched_of_saveOf (hs : Reachable (repositories L F).system s)
    (hp : getKeyPrefixForUsage usage = .ok keyPrefix) {r : List LogEntry} (hr : ∀ e ∈ r, e ∈ s.log)
    (h : ∀ e ∈ r, saveOf (calls s) usage target e = none) : Untouched (keyPrefix ++ target) r := by
  intro e he value ex hop
  obtain ⟨expiry, hsave, -⟩ := saveOf_of_op hs (hr e he) hp hop
  rw [h e he] at hsave
  cases hsave

/-- **Simulation.** Before every entry the key of a usage and a target holds the latest save of them. -/
theorem redis_eq_latestSave (hF : F.redis = false) (hs : Reachable (repositories L F).system s)
    (hp : getKeyPrefixForUsage usage = .ok keyPrefix) (target : String) {l r : List LogEntry} {g : LogEntry}
    (hlog : s.log = l ++ g :: r) :
    g.pre.redis (keyPrefix ++ target) = (latestSave (calls s) l usage target).map Save.slot := by
  have hmem : ∀ e ∈ l, e ∈ s.log := fun e he => hlog ▸ List.mem_append_left _ he
  cases hsave : latestSave (calls s) l usage target with
  | none =>
      have hnone := List.findSome?_eq_none_iff.mp hsave
      cases hslot : g.pre.redis (keyPrefix ++ target) with
      | none => rfl
      | some slot =>
          obtain ⟨l', e, r', value, ex, rfl, hop, -, -⟩ := (redis_written hs).2 l g r hlog _ _ hslot
          obtain ⟨expiry, h, -⟩ := saveOf_of_op hs (hmem e (by simp)) hp hop
          rw [hnone e (by simp)] at h
          cases h
  | some save =>
      obtain ⟨l₁, e, l₂, hl, he, hlater⟩ := List.findSome?_eq_some_iff.mp hsave
      have hsplit : l = l₂.reverse ++ e :: l₁.reverse := by
        rw [← List.reverse_reverse l, hl]
        simp
      have hunt : Untouched (keyPrefix ++ target) l₁.reverse :=
        untouched_of_saveOf hs hp (fun e' he' => hmem e' (by rw [hsplit]; simp [List.mem_reverse.mp he']))
          fun e' he' => hlater e' (List.mem_reverse.mp he')
      rw [redis_latest hF hs l g r hlog _ e _ _ _ _ hsplit
        (op_of_saveOf hs (hmem e (by simp [hsplit])) hp he) hunt, ← (saveOf_eq_some he).2]
      rfl

/-! ## `GetCode` -/

/-- A `GetCode` waits for its `GET`, or has returned what it brought back. -/
theorem trace_getCode (hp : getKeyPrefixForUsage usage = .ok keyPrefix) {tr : List Ev} {q : Prog RepoResult}
    (h : Trace ((RepoCall.getCode usage target).run L) tr q) :
    (tr = [] ∧ q = (RepoCall.getCode usage target).run L) ∨
      ∃ a : Except String RedisReply, tr = [⟨.redisGet (keyPrefix ++ target), a⟩] ∧ q = .ret (.code (answerValue a)) := by
  simp only [RepoCall.run, getCode, hp] at h ⊢
  cases h with
  | nil => exact .inl ⟨rfl, rfl⟩
  | cons a h =>
      refine .inr ⟨a, ?_⟩
      change Except String RedisReply at a
      cases a with
      | error what =>
          cases h
          exact ⟨rfl, rfl⟩
      | ok reply => cases reply <;> cases h <;> exact ⟨rfl, rfl⟩

/-- The usages with a key prefix. -/
def CodeUsage.named : List CodeUsage := [.userRegister, .userLogin, .resetPassword]

theorem CodeUsage.keyPrefix_of_named (h : usage ∈ CodeUsage.named) : ∃ k, getKeyPrefixForUsage usage = .ok k := by
  simp only [CodeUsage.named, List.mem_cons, List.not_mem_nil, or_false] at h
  rcases h with rfl | rfl | rfl <;> exact ⟨_, rfl⟩

/-- **`GetCode` reads a map with expiry.** In every interleaving with Redis at work, a `GetCode` has not begun or has
returned what the latest `SaveCode` of its usage and target before its `GET` is worth at that time, and no entry of
another call touches the key. -/
theorem getCode_eq_codeAt (hF : F.redis = false) (hs : Reachable (repositories L F).system s)
    (hu : usage ∈ CodeUsage.named) :
    (∀ tid th, s.threads[tid]? = some th → th.call = .getCode usage target →
      (th.todo = th.call.run L ∧ ∀ e ∈ s.log, e.tid ≠ tid) ∨
      ∃ l g r, s.log = l ++ g :: r ∧ g.tid = tid ∧ (∀ e ∈ l ++ r, e.tid ≠ tid) ∧
        th.todo = .ret (.code ((latestSave (calls s) l usage target).bind fun save => save.codeAt g.pre.time))) ∧
    ∀ e ∈ s.log, saveOf (calls s) usage target e = none → ∀ keyPrefix, getKeyPrefixForUsage usage = .ok keyPrefix →
      e.post.redis (keyPrefix ++ target) = e.pre.redis (keyPrefix ++ target) := by
  obtain ⟨keyPrefix, hp⟩ := CodeUsage.keyPrefix_of_named hu
  refine ⟨fun tid th hth hcall => ?_, fun e he hsave keyPrefix' hp' => ?_⟩
  · have htr := (Setup.traced hs).trace tid th hth
    obtain ⟨call, todo⟩ := th
    obtain rfl : call = .getCode usage target := hcall
    rcases trace_getCode hp htr with ⟨hnil, htodo⟩ | ⟨a, hev, htodo⟩
    · exact .inl ⟨htodo, tid_ne_of_events_eq_nil hnil⟩
    · obtain ⟨l, pre, post, r, hlog, ⟨-, ha | ⟨hredis, -⟩⟩, hl, hr⟩ := Setup.entry hs (List.append_nil _).symm [] hev
      · refine .inr ⟨l, _, r, hlog, rfl, fun e he => ?_, ?_⟩
        · exact (List.mem_append.mp he).elim (tid_ne_of_events_eq_nil hl e) (tid_ne_of_events_eq_nil hr e)
        · have hpre := redis_eq_latestSave hF hs hp target hlog
          rw [htodo, ha, answerValue_reply, Store.get, hpre]
          cases latestSave (calls s) l usage target with
          | none => rfl
          | some save => exact congrArg (fun c => Co.ret (RepoResult.code c)) (save.get_slot pre.time)
      · rw [hF] at hredis
        cases hredis
  · rcases entry_redis (Setup.executed hs e he) (keyPrefix' ++ target) with ⟨value, ex, hop, -⟩ | ⟨hsame, -⟩
    · obtain ⟨expiry, h, -⟩ := saveOf_of_op hs he hp' hop
      rw [hsave] at h
      cases h
    · exact hsame

end Simulation

/-! ## A code without expiry -/

/-- The state after a call that nothing disturbs. -/
def repoAfter (s : RepoState) (call : RepoCall) : RepoState :=
  s.complete (repositories (Libs.reference Texts.alice) .never) (World.answer (Libs.reference Texts.alice)) call

theorem run_repoAfter (s : RepoState) (call : RepoCall) :
    ∃ ls, Run (repositories (Libs.reference Texts.alice) .never).system s ls (repoAfter s call) :=
  Setup.run_complete (exec_answer _ _) trivial

/-- A code is saved with an expiry of some seconds and read at the same time. -/
def savedAndRead (expiry : Int) : RepoState :=
  repoAfter (repoAfter ⟨.fresh 0, [], []⟩ (.saveCode .userLogin "13800000000" "000000" expiry))
    (.getCode .userLogin "13800000000")

theorem reachable_savedAndRead (expiry : Int) :
    Reachable (repositories (Libs.reference Texts.alice) .never).system (savedAndRead expiry) := by
  have hinit : Reachable (repositories (Libs.reference Texts.alice) .never).system ⟨.fresh 0, [], []⟩ :=
    Reachable.of_init ⟨rfl, rfl, rfl⟩
  obtain ⟨_, hsave⟩ := run_repoAfter ⟨.fresh 0, [], []⟩ (.saveCode .userLogin "13800000000" "000000" expiry)
  obtain ⟨_, hread⟩ := run_repoAfter _ (.getCode .userLogin "13800000000")
  exact (hinit.run hsave).run hread

theorem getCode_eq_codeAt_saved :
    ∃ l g r, (savedAndRead 300).log = l ++ g :: r ∧ g.tid = 1 ∧
      some "000000" = (latestSave (calls (savedAndRead 300)) l .userLogin "13800000000").bind fun save =>
        save.codeAt g.pre.time := by
  have h := (getCode_eq_codeAt rfl (reachable_savedAndRead 300) (by decide)).1 1
    ⟨.getCode .userLogin "13800000000", .ret (.code (some "000000"))⟩ rfl rfl
  rcases h with ⟨h, -⟩ | ⟨l, g, r, hlog, htid, -, h⟩
  · cases h
  · exact ⟨l, g, r, hlog, htid, RepoResult.code.inj (Co.ret.inj h)⟩

/-- A code saved for no seconds at all is still returned. -/
theorem getCode_ne_within : ¬ ∀ tid v,
    (savedAndRead 0).threads[tid]? = some ⟨.getCode .userLogin "13800000000", .ret v⟩ →
    ∃ l g r, (savedAndRead 0).log = l ++ g :: r ∧ g.tid = tid ∧
      v = .code ((latestSave (calls (savedAndRead 0)) l .userLogin "13800000000").bind fun save =>
        save.within g.pre.time) := by
  intro h
  obtain ⟨l, g, r, hlog, htid, hv⟩ := h 1 (.code (some "000000")) rfl
  match l, hlog, hv with
  | [], hlog, _ =>
      have hg := (List.cons.inj hlog).1
      rw [← hg] at htid
      cases htid
  | [e], hlog, hv =>
      obtain ⟨he, hrest⟩ := List.cons.inj hlog
      have hg := (List.cons.inj hrest).1
      rw [← he, ← hg] at hv
      cases hv
  | e :: e' :: l, hlog, _ =>
      have hlen : (savedAndRead 0).log.length = 2 := rfl
      rw [hlog, List.length_append, List.length_cons, List.length_cons, List.length_cons] at hlen
      omega

end PhotonCommerce.Infrastructure
