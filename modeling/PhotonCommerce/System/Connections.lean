import PhotonCommerce.Adapter.Bracketed
import PhotonCommerce.Persistence.Fairness
import PhotonCommerce.System.Server

/-!
# The calls and the connection pool

`server` lets `GetConnection` answer any connection at once. Here it is the pool that answers: a call posts its request,
has its strand turn, waits, resumes; the destructor of its `PooledConnection` posts the return.

* `Pooled` : the server and the pool; the client of a call is its thread id;
* `Pooled.system` : every interleaving of calls, strand turns, resumptions and returns;
* `Pooled.reachable_calls`, `Pooled.reachable_pool` : both sides run as they do alone;
* `Pooled.Linked` : what the pool says a call holds is what the log of the call says;
* `no_hold_and_wait` : no call waits while it holds a connection, and every waiter can be served.
-/

namespace PhotonCommerce.System
open Coroutine Interleaving Transition Domain Infrastructure Service Adapter

/-- The calls of the server and the pool they take their connections from. -/
structure Pooled where
  calls : ServerState
  pool : Pool

inductive PooledLabel where
  | invoke (call : Call)
  | env
  | advance (tid : Nat)
  | pool (lab : PoolLabel)

/-- A call goes on with an answer. -/
def proceed (s : ServerState) (tid : Nat) (call : Call) (ev : Ev) (todo : Prog Outcome) (w : World) : ServerState :=
  ⟨w, s.log ++ [⟨ev, tid, s.world, w⟩], s.threads.set tid ⟨call, todo⟩⟩

/-- The call is suspended in `GetConnection`. -/
def Pool.Pending (p : Pool) (tid : Nat) : Prop := tid ∈ p.posted ∨ tid ∈ p.waiters ∨ ∃ conn, (tid, conn) ∈ p.handed

/-- One step of a call, of the strand or of the world. -/
inductive Pooled.Step (L : Libs) (cfg : JwtConfig) (F : Faults) (admits : ServerState → Call → Prop) :
    Pooled → PooledLabel → Pooled → Prop where
  | invoke (s : ServerState) (p : Pool) (call : Call) (h : admits s call) :
      Step L cfg F admits ⟨s, p⟩ (.invoke call) ⟨{ s with threads := s.threads ++ [⟨call, call.run L cfg⟩] }, p⟩
  | env (s : ServerState) (p : Pool) (w : World) (h : env F s.world w) :
      Step L cfg F admits ⟨s, p⟩ .env ⟨{ s with world := w }, p⟩
  /-- Every operation but `GetConnection` and the return. -/
  | advance (s : ServerState) (p : Pool) (tid : Nat) (call : Call) (o : Op) (k : Ans o → Prog Outcome) (a : Ans o)
      (w : World) (ht : s.threads[tid]? = some ⟨call, .await o k⟩) (hget : o ≠ .getConnection)
      (hret : ∀ conn, o ≠ .returnConnection conn) (h : exec L F o s.world a w) :
      Step L cfg F admits ⟨s, p⟩ (.advance tid) ⟨proceed s tid call ⟨o, a⟩ (k a) w, p⟩
  /-- `GetConnection` posts the call to the strand. -/
  | getConnection (s : ServerState) (p q : Pool) (tid : Nat) (call : Call) (k : Nat → Prog Outcome)
      (ht : s.threads[tid]? = some ⟨call, .await .getConnection k⟩) (hpend : ¬ Pool.Pending p tid)
      (h : Pool.Step p (.getConnection tid) q) :
      Step L cfg F admits ⟨s, p⟩ (.pool (.getConnection tid)) ⟨s, q⟩
  /-- The strand turn of a call that finds `pool_` empty. -/
  | wait (s : ServerState) (p q : Pool) (tid : Nat) (hpool : p.pool_ = []) (h : Pool.Step p (.getTurn tid) q) :
      Step L cfg F admits ⟨s, p⟩ (.pool (.getTurn tid)) ⟨s, q⟩
  /-- The strand turn of a call that takes the front of `pool_` and goes on with it. -/
  | take (s : ServerState) (p q : Pool) (tid : Nat) (call : Call) (k : Nat → Prog Outcome) (conn : ConnId)
      (rest : List ConnId) (ht : s.threads[tid]? = some ⟨call, .await .getConnection k⟩) (hpool : p.pool_ = conn :: rest)
      (h : Pool.Step p (.getTurn tid) q) :
      Step L cfg F admits ⟨s, p⟩ (.pool (.getTurn tid))
        ⟨proceed s tid call ⟨.getConnection, conn⟩ (k conn) s.world, q⟩
  /-- A woken call goes on with the connection it was handed. -/
  | resume (s : ServerState) (p q : Pool) (tid : Nat) (call : Call) (k : Nat → Prog Outcome) (conn : ConnId)
      (ht : s.threads[tid]? = some ⟨call, .await .getConnection k⟩) (h : Pool.Step p (.resume tid conn) q) :
      Step L cfg F admits ⟨s, p⟩ (.pool (.resume tid conn))
        ⟨proceed s tid call ⟨.getConnection, conn⟩ (k conn) s.world, q⟩
  /-- The destructor of the `PooledConnection` posts the return. -/
  | release (s : ServerState) (p q : Pool) (tid : Nat) (call : Call) (conn : ConnId) (k : Unit → Prog Outcome)
      (ht : s.threads[tid]? = some ⟨call, .await (.returnConnection conn) k⟩) (h : Pool.Step p (.release tid conn) q) :
      Step L cfg F admits ⟨s, p⟩ (.pool (.release tid conn))
        ⟨proceed s tid call ⟨.returnConnection conn, ()⟩ (k ()) s.world, q⟩
  | returnTurn (s : ServerState) (p q : Pool) (conn : ConnId) (h : Pool.Step p (.returnTurn conn) q) :
      Step L cfg F admits ⟨s, p⟩ (.pool (.returnTurn conn)) ⟨s, q⟩

/-- The server over a pool of `n` connections. -/
def Pooled.system (L : Libs) (cfg : JwtConfig) (F : Faults) (admits : ServerState → Call → Prop) (n : Nat) :
    Lts Pooled PooledLabel where
  init x := (server L cfg F admits).system.init x.calls ∧ x.pool = Pool.init n
  step := Pooled.Step L cfg F admits

section Sides
variable {L : Libs} {cfg : JwtConfig} {F : Faults} {admits : ServerState → Call → Prop} {n : Nat} {x y : Pooled}
  {lab : PooledLabel}

/-- A step of the whole is a step of the server or leaves it alone. -/
theorem Pooled.Step.calls (h : Pooled.Step L cfg F admits x lab y) :
    y.calls = x.calls ∨ ∃ lab', (server L cfg F admits).Step x.calls lab' y.calls := by
  cases h with
  | invoke s p call h => exact .inr ⟨_, Setup.Step.invoke s call h⟩
  | env s p w h => exact .inr ⟨_, Setup.Step.env s w h⟩
  | advance s p tid call o k a w ht hget hret h => exact .inr ⟨_, Setup.Step.advance s tid call o k a w ht h⟩
  | getConnection s p q tid call k ht hpend h => exact .inl rfl
  | wait s p q tid hpool h => exact .inl rfl
  | take s p q tid call k conn rest ht hpool h =>
      exact .inr ⟨_, Setup.Step.advance s tid call .getConnection k conn s.world ht rfl⟩
  | resume s p q tid call k conn ht h =>
      exact .inr ⟨_, Setup.Step.advance s tid call .getConnection k conn s.world ht rfl⟩
  | release s p q tid call conn k ht h =>
      exact .inr ⟨_, Setup.Step.advance s tid call (.returnConnection conn) k () s.world ht rfl⟩
  | returnTurn s p q conn h => exact .inl rfl

/-- A step of the whole is a step of the pool or leaves it alone. -/
theorem Pooled.Step.pool (h : Pooled.Step L cfg F admits x lab y) :
    y.pool = x.pool ∨ ∃ lab', Pool.Step x.pool lab' y.pool := by
  cases h with
  | invoke s p call h => exact .inl rfl
  | env s p w h => exact .inl rfl
  | advance s p tid call o k a w ht hget hret h => exact .inl rfl
  | getConnection s p q tid call k ht hpend h => exact .inr ⟨_, h⟩
  | wait s p q tid hpool h => exact .inr ⟨_, h⟩
  | take s p q tid call k conn rest ht hpool h => exact .inr ⟨_, h⟩
  | resume s p q tid call k conn ht h => exact .inr ⟨_, h⟩
  | release s p q tid call conn k ht h => exact .inr ⟨_, h⟩
  | returnTurn s p q conn h => exact .inr ⟨_, h⟩

/-- The calls over the pool are calls of the server. -/
theorem Pooled.reachable_calls (h : Reachable (Pooled.system L cfg F admits n) x) :
    Reachable (server L cfg F admits).system x.calls := by
  refine h.invariant (I := fun x => Reachable (server L cfg F admits).system x.calls) ?_ ?_
  · exact fun x hx => Reachable.of_init hx.1
  · intro x lab y hx hstep
    rcases Pooled.Step.calls hstep with heq | ⟨lab', hstep'⟩
    · rwa [heq]
    · exact hx.step hstep'

/-- The pool serves the calls as it serves any clients. -/
theorem Pooled.reachable_pool (h : Reachable (Pooled.system L cfg F admits n) x) :
    Reachable (Pool.system n) x.pool := by
  refine h.invariant (I := fun x => Reachable (Pool.system n) x.pool) ?_ ?_
  · exact fun x hx => Reachable.of_init hx.2
  · intro x lab y hx hstep
    rcases Pooled.Step.pool hstep with heq | ⟨lab', hstep'⟩
    · rwa [heq]
    · exact hx.step hstep'

end Sides

/-! ## What the log says and what the pool says -/

section Linked
variable {L : Libs} {cfg : JwtConfig} {F : Faults} {admits : ServerState → Call → Prop} {n : Nat} {x y : Pooled}
  {lab : PooledLabel}

/-- Every call is orderly. -/
theorem orderly_run (call : Call) : Orderly (call.run L cfg) := by
  cases call with
  | rpc request md => exact (orderly_serve request md).bind fun _ => .pure _
  | getUserById id => exact (orderly_getUserById id).bind fun _ => .pure _
  | getUserByPhoneNumber phoneNumber => exact (orderly_selectUser _ _).bind fun _ => .pure _

/-- What a call awaits, the connections it holds allow. -/
theorem allowed_of_await {s : ServerState} (hs : Reachable (server L cfg F admits).system s) {tid : Nat} {call : Call}
    {o : Op} {k : Ans o → Prog Outcome} (ht : s.threads[tid]? = some ⟨call, .await o k⟩) :
    Allowed (holding (events s.log tid)) o := by
  have htrace := (Setup.traced hs).trace tid _ ht
  have horderly : Orderly (call.run L cfg) := orderly_run call
  exact (horderly.always.trace htrace).1

/-- A call that has ended holds nothing. -/
theorem holding_of_ended {s : ServerState} (hs : Reachable (server L cfg F admits).system s) {tid : Nat}
    (ht : ∀ call o k, s.threads[tid]? ≠ some ⟨call, .await o k⟩) : holding (events s.log tid) = [] := by
  cases hth : s.threads[tid]? with
  | none => rw [(Setup.traced hs).events_eq_nil (List.getElem?_eq_none_iff.mp hth)]; rfl
  | some th =>
      obtain ⟨call, todo⟩ := th
      have htrace := (Setup.traced hs).trace tid _ hth
      cases todo with
      | await o k => exact absurd hth (ht call o k)
      | ret v => exact (orderly_run call _ _ htrace.runs_ret).holding_eq_nil
      | throw e => exact (orderly_run call _ _ htrace.runs_throw).holding_eq_nil

/-- The connections the pool counts as held by a client. -/
def Pool.heldBy (p : Pool) (tid : Nat) : List ConnId := (p.held.filter fun y => y.1 = tid).map Prod.snd

/-- The pool and the log agree on what each call holds; a call that is pending in the pool awaits a connection, and is
pending once. -/
structure Pooled.Linked (x : Pooled) : Prop where
  held : ∀ tid, Pool.heldBy x.pool tid = holding (events x.calls.log tid)
  pending : ∀ tid, Pool.Pending x.pool tid → ∃ call k, x.calls.threads[tid]? = some ⟨call, .await .getConnection k⟩
  once : (x.pool.posted ++ x.pool.waiters ++ x.pool.handed.map Prod.fst).Nodup

theorem Pool.pending_iff {p : Pool} {tid : Nat} :
    Pool.Pending p tid ↔ tid ∈ p.posted ++ p.waiters ++ p.handed.map Prod.fst := by
  simp [Pool.Pending]

/-- The log of a call that went on. -/
theorem events_proceed_self (s : ServerState) (tid : Nat) (call : Call) (ev : Ev) (todo : Prog Outcome) (w : World) :
    events (proceed s tid call ev todo w).log tid = events s.log tid ++ [ev] := by
  rw [proceed, events_append]
  congr 1
  exact events_singleton_self _

theorem events_proceed_of_ne (s : ServerState) {tid tid' : Nat} (call : Call) (ev : Ev) (todo : Prog Outcome) (w : World)
    (h : tid ≠ tid') : events (proceed s tid call ev todo w).log tid' = events s.log tid' := by
  rw [proceed, events_append, events_singleton_of_ne h, List.append_nil]

/-- A call goes on with an answer: what the others hold and await does not change. -/
theorem Pooled.Linked.proceed {s : ServerState} {p q : Pool} (hlink : Pooled.Linked ⟨s, p⟩) {tid : Nat} {call : Call}
    {ev : Ev} {todo : Prog Outcome} {w : World}
    (hself : Pool.heldBy q tid = holdsAfter (holding (events s.log tid)) ev)
    (hother : ∀ tid', tid ≠ tid' → Pool.heldBy q tid' = Pool.heldBy p tid') (hnone : ¬ Pool.Pending q tid)
    (hpend : ∀ tid', Pool.Pending q tid' → Pool.Pending p tid')
    (honce : (q.posted ++ q.waiters ++ q.handed.map Prod.fst).Nodup) :
    Pooled.Linked ⟨proceed s tid call ev todo w, q⟩ where
  held tid' := by
    by_cases heq : tid = tid'
    · subst heq
      rw [hself, events_proceed_self, holding_concat]
    · rw [events_proceed_of_ne _ _ _ _ _ heq]
      exact (hother tid' heq).trans (hlink.held tid')
  pending tid' h := by
    have hne : tid ≠ tid' := by
      rintro rfl
      exact hnone h
    obtain ⟨call', k, hth⟩ := hlink.pending tid' (hpend tid' h)
    exact ⟨call', k, by rw [System.proceed, List.getElem?_set_ne hne]; exact hth⟩
  once := honce

theorem holdsAfter_of_ne {held : List Nat} {o : Op} {a : Ans o} (hget : o ≠ .getConnection)
    (hret : ∀ conn, o ≠ .returnConnection conn) : holdsAfter held ⟨o, a⟩ = held := by
  cases o with
  | getConnection => exact absurd rfl hget
  | returnConnection conn => exact absurd rfl (hret conn)
  | _ => rfl

theorem Pool.heldBy_concat {p q : Pool} {tid : Nat} {conn : ConnId} (h : q.held = p.held ++ [(tid, conn)]) (tid' : Nat) :
    Pool.heldBy q tid' = if tid = tid' then Pool.heldBy p tid' ++ [conn] else Pool.heldBy p tid' := by
  unfold Pool.heldBy
  rw [h, List.filter_append, List.map_append]
  split_ifs with heq
  · simp [heq]
  · simp [heq]

/-- A release takes away the one connection the client holds. -/
theorem Pool.heldBy_release {p q : Pool} {tid : Nat} {conn : ConnId} {l r : List (Client × ConnId)}
    (hp : p.held = l ++ (tid, conn) :: r) (hq : q.held = l ++ r) (hone : Pool.heldBy p tid = [conn]) (tid' : Nat) :
    Pool.heldBy q tid' = if tid = tid' then [] else Pool.heldBy p tid' := by
  unfold Pool.heldBy at *
  rw [hp, List.filter_append, List.map_append] at hone ⊢
  rw [hq, List.filter_append, List.map_append]
  split_ifs with heq
  · subst heq
    simp only [List.filter_cons, decide_true, if_true, List.map_cons] at hone
    have hlen := congrArg List.length hone
    simp only [List.length_append, List.length_cons, List.length_nil] at hlen
    rw [List.eq_nil_of_length_eq_zero (l := List.map Prod.snd (l.filter _)) (by omega),
      List.eq_nil_of_length_eq_zero (l := List.map Prod.snd (r.filter _)) (by omega)]
    rfl
  · simp [heq]

/-- The pool moves clients about and nobody goes on. -/
theorem Pooled.Linked.shuffle {s : ServerState} {p q : Pool} (hlink : Pooled.Linked ⟨s, p⟩) (hheld : q.held = p.held)
    (hperm : (q.posted ++ q.waiters ++ q.handed.map Prod.fst).Perm (p.posted ++ p.waiters ++ p.handed.map Prod.fst)) :
    Pooled.Linked ⟨s, q⟩ where
  held tid := by
    rw [show Pool.heldBy q tid = Pool.heldBy p tid by rw [Pool.heldBy, hheld, Pool.heldBy]]
    exact hlink.held tid
  pending tid h := hlink.pending tid (by rw [Pool.pending_iff] at h ⊢; exact hperm.mem_iff.mp h)
  once := hperm.nodup_iff.mpr hlink.once

/-- A pending client gets its connection and goes on. -/
theorem Pooled.Linked.serve {s : ServerState} {p q : Pool} (hlink : Pooled.Linked ⟨s, p⟩) {tid : Nat} {call : Call}
    {k : Nat → Prog Outcome} {conn : ConnId} (hheld : q.held = p.held ++ [(tid, conn)])
    (hperm : (p.posted ++ p.waiters ++ p.handed.map Prod.fst).Perm
      (tid :: (q.posted ++ q.waiters ++ q.handed.map Prod.fst))) :
    Pooled.Linked ⟨System.proceed s tid call ⟨.getConnection, conn⟩ (k conn) s.world, q⟩ := by
  obtain ⟨hnone, honce⟩ := List.nodup_cons.mp (hperm.nodup_iff.mp hlink.once)
  refine hlink.proceed ?_ (fun tid' hne => ?_) (fun h => hnone (Pool.pending_iff.mp h)) (fun tid' h => ?_) honce
  · rw [Pool.heldBy_concat hheld, if_pos rfl, hlink.held tid]
    exact (List.concat_eq_append).symm
  · rw [Pool.heldBy_concat hheld, if_neg hne]
  · rw [Pool.pending_iff] at h ⊢
    exact hperm.mem_iff.mpr (List.mem_cons_of_mem _ h)

/-- **Each step keeps the pool and the log in agreement.** -/
theorem Pooled.Linked.step (hs : Reachable (server L cfg F admits).system x.calls) (hlink : x.Linked)
    (hstep : Pooled.Step L cfg F admits x lab y) : y.Linked := by
  cases hstep with
  | invoke s p call h =>
      refine ⟨hlink.held, fun tid hpend => ?_, hlink.once⟩
      obtain ⟨call', k, hth⟩ := hlink.pending tid hpend
      exact ⟨call', k, by rw [List.getElem?_append_left (List.getElem?_eq_some_iff.mp hth).1]; exact hth⟩
  | env s p w h => exact ⟨hlink.held, hlink.pending, hlink.once⟩
  | advance s p tid call o k a w ht hget hret h =>
      refine hlink.proceed ?_ (fun _ _ => rfl) (fun hpend => ?_) (fun _ h => h) hlink.once
      · rw [holdsAfter_of_ne hget hret]
        exact hlink.held tid
      · obtain ⟨call', k', hth⟩ := hlink.pending tid hpend
        rw [show s.threads[tid]? = _ from ht] at hth
        cases hth
        exact hget rfl
  | getConnection s p q tid call k ht hpend h =>
      cases h.move with
      | getConnection client =>
          refine ⟨hlink.held, fun tid' hpend' => ?_, ?_⟩
          · by_cases heq : tid' = tid
            · subst heq
              exact ⟨call, k, ht⟩
            · refine hlink.pending tid' ?_
              rw [Pool.pending_iff] at hpend' ⊢
              simpa [heq] using hpend'
          · rw [Pool.pending_iff] at hpend
            have hperm : (p.posted ++ [tid] ++ p.waiters ++ p.handed.map Prod.fst).Perm
                (tid :: (p.posted ++ p.waiters ++ p.handed.map Prod.fst)) := by
              simp only [List.append_assoc]
              exact List.perm_middle
            exact hperm.nodup_iff.mpr (List.nodup_cons.mpr ⟨hpend, hlink.once⟩)
  | wait s p q tid hpool h =>
      cases h.move with
      | take l r client conn rest hp hpool' =>
          rw [hpool] at hpool'
          cases hpool'
      | wait l r client hp hpool' =>
          refine hlink.shuffle rfl ?_
          rw [hp]
          simp only [List.append_assoc, List.cons_append, List.nil_append]
          refine List.Perm.append_left l ?_
          rw [← List.append_assoc, ← List.append_assoc r]
          exact List.perm_middle
  | take s p q tid call k conn rest ht hpool h =>
      cases h.move with
      | wait l r client hp hpool' =>
          rw [hpool] at hpool'
          cases hpool'
      | take l r client conn' rest' hp hpool' =>
          obtain ⟨rfl, -⟩ := List.cons.inj (hpool.symm.trans hpool')
          refine hlink.serve rfl ?_
          rw [hp]
          simp only [List.append_assoc, List.cons_append]
          exact List.perm_middle
  | resume s p q tid call k conn ht h =>
      cases h.move with
      | resume l r client conn' hh =>
          refine hlink.serve rfl ?_
          rw [hh, List.map_append, List.map_cons, List.map_append]
          simp only [← List.append_assoc]
          exact List.perm_middle
  | release s p q tid call conn k ht h =>
      have hholding : holding (events s.log tid) = [conn] := allowed_of_await hs ht
      cases h.move with
      | release l r client conn' hh =>
          have hone : Pool.heldBy p tid = [conn] := (hlink.held tid).trans hholding
          refine hlink.proceed ?_ (fun tid' hne => ?_) (fun hpend => ?_) (fun _ h => h) hlink.once
          · rw [Pool.heldBy_release hh rfl hone, if_pos rfl, hholding]
            exact (List.erase_cons_head conn []).symm
          · rw [Pool.heldBy_release hh rfl hone, if_neg hne]
          · obtain ⟨call', k', hth⟩ := hlink.pending tid hpend
            rw [show s.threads[tid]? = _ from ht] at hth
            cases hth
  | returnTurn s p q conn h =>
      cases h.move with
      | store l r conn' hr hwait => exact ⟨hlink.held, hlink.pending, hlink.once⟩
      | handOver l r client conn' rest hr hwait =>
          refine hlink.shuffle rfl ?_
          rw [hwait, List.map_append, List.map_singleton]
          simp only [List.append_assoc, List.cons_append]
          refine List.Perm.append_left p.posted ?_
          rw [← List.append_assoc]
          exact List.perm_append_singleton _ _

theorem Pooled.linked (h : Reachable (Pooled.system L cfg F admits n) x) : x.Linked := by
  refine (h.invariant (I := fun x => Reachable (server L cfg F admits).system x.calls ∧ x.Linked) ?_ ?_).2
  · rintro x ⟨⟨hworld, hlog, hthreads⟩, hpool⟩
    refine ⟨Reachable.of_init ⟨hworld, hlog, hthreads⟩, ?_, ?_, ?_⟩
    · intro tid
      rw [hpool, Pool.init_eq, hlog]
      rfl
    · intro tid hpend
      rw [Pool.pending_iff, hpool, Pool.init_eq] at hpend
      cases hpend
    · rw [hpool, Pool.init_eq]
      exact List.nodup_nil
  · rintro x lab y ⟨hs, hlink⟩ hstep
    refine ⟨?_, hlink.step hs hstep⟩
    rcases Pooled.Step.calls hstep with heq | ⟨lab', hstep'⟩
    · rwa [heq]
    · exact hs.step hstep'

/-- **A call that holds a connection** awaits a statement on it or gives it back. -/
theorem Pooled.holder_awaits (h : Reachable (Pooled.system L cfg F admits n) x) {tid : Nat} {conn : ConnId}
    (hheld : (tid, conn) ∈ x.pool.held) :
    Pool.heldBy x.pool tid = [conn] ∧ ∃ call o k, x.calls.threads[tid]? = some ⟨call, .await o k⟩ ∧
      ((∃ stmt params, o = .execParams conn stmt params) ∨ o = .returnConnection conn) := by
  have hs := Pooled.reachable_calls h
  have hlink := (Pooled.linked h).held tid
  have hmem : conn ∈ Pool.heldBy x.pool tid :=
    List.mem_map.mpr ⟨(tid, conn), List.mem_filter.mpr ⟨hheld, decide_eq_true rfl⟩, rfl⟩
  have hne : holding (events x.calls.log tid) ≠ [] := by
    intro hnil
    rw [hlink, hnil] at hmem
    cases hmem
  by_contra hcon
  refine hne (holding_of_ended hs fun call o k hth => hcon ?_)
  -- the connections held allow what is awaited: with none of them only the statement and the return
  have hallowed := allowed_of_await hs hth
  have hconn : ∀ c, holding (events x.calls.log tid) = [c] → c = conn := by
    intro c hc
    rw [hlink, hc] at hmem
    exact (List.mem_singleton.mp hmem).symm
  cases o with
  | execParams c stmt params =>
      obtain rfl := hconn c hallowed
      exact ⟨hlink.trans hallowed, call, _, k, hth, .inl ⟨stmt, params, rfl⟩⟩
  | returnConnection c =>
      obtain rfl := hconn c hallowed
      exact ⟨hlink.trans hallowed, call, _, k, hth, .inr rfl⟩
  | _ => exact absurd hallowed hne

/-! ## Nobody waits forever for nothing -/

theorem Pool.step_handOver {p : Pool} {l r : List ConnId} {conn : ConnId} {client : Client} {rest : List Client}
    (hr : p.returning = l ++ conn :: r) (hwait : p.waiters = client :: rest) :
    Pool.Step p (.returnTurn conn)
      { p with returning := l ++ r, waiters := rest, handed := p.handed ++ [(client, conn)] } := by
  have hstep := Pool.Step.returnTurn p l r conn hr
  rwa [Pool.returnTurn, hwait] at hstep

/-- A holder can give its connection back without anybody leaving the queue. -/
theorem Pooled.gives_back (h : Reachable (Pooled.system L cfg F admits n) x) {tid : Nat} {conn : ConnId}
    (hheld : (tid, conn) ∈ x.pool.held) {call : Call} {todo : Prog Outcome}
    (hth : x.calls.threads[tid]? = some ⟨call, todo⟩) :
    ∃ labs y, Run (Pooled.system L cfg F admits n) x labs y ∧ conn ∈ y.pool.returning ∧
      y.pool.waiters = x.pool.waiters := by
  -- on the rest of the call, which awaits statements until it gives the connection back
  induction todo generalizing x with
  | ret v =>
      obtain ⟨-, call', o, k, hth', -⟩ := Pooled.holder_awaits h hheld
      rw [hth] at hth'
      cases hth'
  | throw e =>
      obtain ⟨-, call', o, k, hth', -⟩ := Pooled.holder_awaits h hheld
      rw [hth] at hth'
      cases hth'
  | await o k ih =>
      obtain ⟨hone, call', o', k', hth', ho⟩ := Pooled.holder_awaits h hheld
      rw [hth] at hth'
      cases hth'
      obtain ⟨s, p⟩ := x
      rcases ho with ⟨stmt, params, rfl⟩ | rfl
      · have hstep : Pooled.Step L cfg F admits ⟨s, p⟩ (.advance tid)
            ⟨System.proceed s tid call ⟨_, (World.answer L (.execParams conn stmt params) s.world).1⟩
              (k (World.answer L (.execParams conn stmt params) s.world).1)
              (World.answer L (.execParams conn stmt params) s.world).2, p⟩ :=
          .advance s p tid call _ k _ _ hth (fun heq => by cases heq) (fun _ heq => by cases heq) (exec_answer L F _ _)
        obtain ⟨labs, y, hrun, hret, hwait⟩ := ih _ (h.step hstep) hheld
          (List.getElem?_set_self (List.getElem?_eq_some_iff.mp hth).1)
        exact ⟨_, y, Run.head hstep hrun, hret, hwait⟩
      · obtain ⟨l, r, hsplit⟩ := List.append_of_mem hheld
        have hstep : Pooled.Step L cfg F admits ⟨s, p⟩ (.pool (.release tid conn)) _ :=
          .release s p _ tid call conn k hth (Pool.Step.release p l r tid conn hsplit)
        exact ⟨_, _, Run.single hstep, List.mem_append_right _ (List.mem_singleton_self _), rfl⟩

/-- A connection on its way back reaches the first waiter. -/
theorem Pooled.hands_over (h : Reachable (Pooled.system L cfg F admits n) x) {conn : ConnId}
    (hret : conn ∈ x.pool.returning) {client : Client} {rest : List Client} (hwait : x.pool.waiters = client :: rest) :
    ∃ labs y, Run (Pooled.system L cfg F admits n) x labs y ∧ (client, conn) ∈ y.pool.held ∧ y.pool.waiters = rest := by
  obtain ⟨s, p⟩ := x
  obtain ⟨l, r, hsplit⟩ := List.append_of_mem hret
  obtain ⟨call, k, hth⟩ := (Pooled.linked h).pending client (.inr (.inl (by rw [hwait]; exact List.mem_cons_self)))
  have hturn : Pooled.Step L cfg F admits ⟨s, p⟩ (.pool (.returnTurn conn)) _ :=
    .returnTurn s p _ conn (Pool.step_handOver hsplit hwait)
  have hresume : Pooled.Step L cfg F admits ⟨s, _⟩ (.pool (.resume client conn)) _ :=
    .resume s _ _ client call k conn hth (Pool.Step.resume
      { p with returning := l ++ r, waiters := rest, handed := p.handed ++ [(client, conn)] } p.handed [] client conn rfl)
  exact ⟨_, _, Run.head hturn (Run.single hresume), List.mem_append_right _ (List.mem_singleton_self _), rfl⟩

/-- While somebody waits no connection is idle. -/
theorem Pooled.busy_of_waiting (h : Reachable (Pooled.system L cfg F admits n) x) (hwait : x.pool.waiters ≠ [])
    {conn : ConnId} (hconn : conn < n) :
    (∃ tid, (tid, conn) ∈ x.pool.held) ∨ conn ∈ x.pool.returning ∨ ∃ tid, (tid, conn) ∈ x.pool.handed := by
  have hpool : x.pool.pool_ = [] := by
    by_contra hne
    exact hwait (Pool.conserving_of_reachable (Pooled.reachable_pool h) hne)
  have hocc := Pool.occurrences_of_reachable (Pooled.reachable_pool h) conn
  rw [if_pos hconn, Pool.occurrences_eq, Pool.places, hpool, List.nil_append] at hocc
  have hmem := List.count_pos_iff.mp (Nat.lt_of_lt_of_eq Nat.zero_lt_one hocc.symm)
  simpa [or_assoc] using hmem

/-- **The first waiter can be served**, whoever has the connections. -/
theorem Pooled.serves_first (h : Reachable (Pooled.system L cfg F admits n) x) (hn : 0 < n) {client : Client}
    {rest : List Client} (hwait : x.pool.waiters = client :: rest) :
    ∃ labs y conn, Run (Pooled.system L cfg F admits n) x labs y ∧ (client, conn) ∈ y.pool.held ∧
      y.pool.waiters = rest := by
  have hheldcase : ∀ {x tid}, Reachable (Pooled.system L cfg F admits n) x → (tid, 0) ∈ x.pool.held →
      x.pool.waiters = client :: rest → ∃ labs y conn, Run (Pooled.system L cfg F admits n) x labs y ∧
        (client, conn) ∈ y.pool.held ∧ y.pool.waiters = rest := by
    intro x tid h hheld hwait
    obtain ⟨-, call, o, k, hth, -⟩ := Pooled.holder_awaits h hheld
    obtain ⟨labs, y, hrun, hret, hwait'⟩ := Pooled.gives_back h hheld hth
    obtain ⟨labs', z, hrun', hserved, hrest⟩ := Pooled.hands_over (h.run hrun) hret (hwait'.trans hwait)
    exact ⟨_, z, 0, hrun.trans hrun', hserved, hrest⟩
  rcases Pooled.busy_of_waiting h (by rw [hwait]; exact List.cons_ne_nil _ _) hn with
    ⟨tid, hheld⟩ | hret | ⟨tid, hhanded⟩
  · exact hheldcase h hheld hwait
  · obtain ⟨labs, y, hrun, hserved, hrest⟩ := Pooled.hands_over h hret hwait
    exact ⟨labs, y, 0, hrun, hserved, hrest⟩
  · obtain ⟨s, p⟩ := x
    obtain ⟨l, r, hsplit⟩ := List.append_of_mem hhanded
    obtain ⟨call, k, hth⟩ := (Pooled.linked h).pending tid (.inr (.inr ⟨0, hhanded⟩))
    have hresume : Pooled.Step L cfg F admits ⟨s, p⟩ (.pool (.resume tid 0)) _ :=
      .resume s p _ tid call k 0 hth (Pool.Step.resume p l r tid 0 hsplit)
    obtain ⟨labs, y, conn, hrun, hserved, hrest⟩ :=
      hheldcase (h.step hresume) (List.mem_append_right _ (List.mem_singleton_self _)) hwait
    exact ⟨_, y, conn, Run.head hresume hrun, hserved, hrest⟩

/-- **Every waiter can be served.** -/
theorem Pooled.serves (h : Reachable (Pooled.system L cfg F admits n) x) (hn : 0 < n) {i : Nat} {client : Client}
    (hwait : x.pool.waiters[i]? = some client) :
    ∃ labs y conn, Run (Pooled.system L cfg F admits n) x labs y ∧ (client, conn) ∈ y.pool.held := by
  induction i generalizing x with
  | zero =>
      cases hw : x.pool.waiters with
      | nil =>
          rw [hw] at hwait
          cases hwait
      | cons first rest =>
          rw [hw] at hwait
          obtain rfl := Option.some.inj hwait
          obtain ⟨labs, y, conn, hrun, hserved, -⟩ := Pooled.serves_first h hn hw
          exact ⟨labs, y, conn, hrun, hserved⟩
  | succ i ih =>
      cases hw : x.pool.waiters with
      | nil =>
          rw [hw] at hwait
          cases hwait
      | cons first rest =>
          obtain ⟨labs, y, conn, hrun, -, hrest⟩ := Pooled.serves_first h hn hw
          have hnext : y.pool.waiters[i]? = some client := by
            rw [hrest]
            rwa [hw, List.getElem?_cons_succ] at hwait
          obtain ⟨labs', z, conn', hrun', hserved⟩ := ih (h.run hrun) hnext
          exact ⟨_, z, conn', hrun.trans hrun', hserved⟩

/-- **No hold and wait.** For every pool size and every interleaving: a call holds at most one connection; a call that
holds one is not pending in the pool and awaits its statement or the return, so that it awaits neither `GetConnection`
nor Redis; while somebody waits, each connection is held by such a call or on its way back; and everybody who waits can
be served. -/
theorem no_hold_and_wait (h : Reachable (Pooled.system L cfg F admits n) x) :
    (∀ tid, (x.pool.held.filter fun y => y.1 = tid).length ≤ 1) ∧
    (∀ tid conn, (tid, conn) ∈ x.pool.held →
      tid ∉ x.pool.posted ∧ tid ∉ x.pool.waiters ∧ (∀ conn', (tid, conn') ∉ x.pool.handed) ∧
      ∃ call o k, x.calls.threads[tid]? = some ⟨call, .await o k⟩ ∧
        ((∃ stmt params, o = .execParams conn stmt params) ∨ o = .returnConnection conn)) ∧
    (x.pool.waiters ≠ [] → ∀ conn < n, (∃ tid, (tid, conn) ∈ x.pool.held ∧ ¬ Pool.Pending x.pool tid) ∨
      conn ∈ x.pool.returning ∨ ∃ tid, (tid, conn) ∈ x.pool.handed) ∧
    ∀ tid ∈ x.pool.waiters, 0 < n → ∃ labs y conn, Run (Pooled.system L cfg F admits n) x labs y ∧
      (tid, conn) ∈ y.pool.held := by
  have hnotpending : ∀ tid conn, (tid, conn) ∈ x.pool.held → ¬ Pool.Pending x.pool tid := by
    intro tid conn hheld hpend
    obtain ⟨-, call, o, k, hth, ho⟩ := Pooled.holder_awaits h hheld
    obtain ⟨call', k', hth'⟩ := (Pooled.linked h).pending tid hpend
    rw [hth] at hth'
    cases hth'
    rcases ho with ⟨stmt, params, ho⟩ | ho <;> cases ho
  refine ⟨fun tid => ?_, fun tid conn hheld => ?_, fun hwait conn hconn => ?_, fun tid hwait hn => ?_⟩
  · by_contra hlen
    obtain ⟨⟨tid', conn⟩, hmem⟩ := List.exists_mem_of_length_pos (l := x.pool.held.filter fun y => y.1 = tid) (by omega)
    obtain ⟨hheld, heq⟩ := List.mem_filter.mp hmem
    obtain rfl : tid' = tid := of_decide_eq_true heq
    have hone := congrArg List.length (Pooled.holder_awaits h hheld).1
    rw [Pool.heldBy, List.length_map] at hone
    exact hlen (Nat.le_of_eq hone)
  · have hnot := hnotpending tid conn hheld
    obtain ⟨-, hawait⟩ := Pooled.holder_awaits h hheld
    exact ⟨fun hp => hnot (.inl hp), fun hw => hnot (.inr (.inl hw)), fun c hc => hnot (.inr (.inr ⟨c, hc⟩)), hawait⟩
  · rcases Pooled.busy_of_waiting h hwait hconn with ⟨tid, hheld⟩ | hret | hhanded
    · exact .inl ⟨tid, hheld, hnotpending tid conn hheld⟩
    · exact .inr (.inl hret)
    · exact .inr (.inr hhanded)
  · obtain ⟨i, hi⟩ := List.mem_iff_getElem?.mp hwait
    exact Pooled.serves h hn hi

end Linked

/-- One connection and two lookups: the first has taken the connection, the second waits for it. -/
theorem no_hold_and_wait_two : ∃ x : Pooled, x.pool.held = [(0, 0)] ∧ x.pool.waiters = [1] ∧
    ∃ labs y conn, Run (Pooled.system (Libs.reference Texts.alice) .photon .never (fun _ _ => True) 1) x labs y ∧
      (1, conn) ∈ y.pool.held := by
  have h₀ : Reachable (Pooled.system (Libs.reference Texts.alice) .photon .never (fun _ _ => True) 1)
      ⟨⟨.fresh 0, [], []⟩, Pool.init 1⟩ := Reachable.of_init ⟨⟨rfl, rfl, rfl⟩, rfl⟩
  have h₁ := h₀.step (.invoke _ _ (.getUserByPhoneNumber "13800000000") trivial)
  have h₂ := h₁.step (.invoke _ _ (.getUserByPhoneNumber "13800000000") trivial)
  have h₃ := h₂.step (.getConnection _ _ _ 0 _ _ rfl (by simp [Pool.Pending, Pool.init, Pool.empty]) (.getConnection _ 0))
  have h₄ := h₃.step (.getConnection _ _ _ 1 _ _ rfl (by simp [Pool.Pending, Pool.init, Pool.empty]) (.getConnection _ 1))
  have h₅ := h₄.step (.take _ _ _ 0 _ _ 0 [] rfl rfl (.getTurn _ [] [1] 0 rfl))
  have h₆ := h₅.step (.wait _ _ _ 1 rfl (.getTurn _ [] [] 1 rfl))
  exact ⟨_, rfl, rfl, (no_hold_and_wait h₆).2.2.2 1 (List.mem_singleton_self 1) Nat.zero_lt_one⟩

end PhotonCommerce.System
