import PhotonCommerce.Adapter.AwaitBounds
import PhotonCommerce.Lib.Ranking
import PhotonCommerce.System.Connections

/-!
# Every call ends

* `Pooled.rank` : what the calls may still await, and how far each is on its way through the pool;
* `Pooled.Step.rank` : every step of a call or of the strand lowers it;
* `Pooled.canWork` : as long as a call has not ended, a call or the strand can take a step;
* `Pooled.finishes` : without new calls the ones there are end, after a bounded number of steps in any order.
-/

namespace PhotonCommerce.System
open Coroutine Interleaving Transition Domain Infrastructure Service Adapter

/-- A step of a call or of the strand. -/
def PooledLabel.works : PooledLabel → Bool
  | .advance _ => true
  | .pool _ => true
  | _ => false

/-- The steps that pending clients have already made: one to the strand, one to the waiters, one to a connection. -/
def Pool.advanced (p : Pool) : Nat := p.posted.length + 2 * p.waiters.length + 3 * p.handed.length

/-- What the threads may still do: four steps for each operation. -/
noncomputable def todoRank (threads : List (Thread Op Ans Call String Outcome)) : Nat :=
  (threads.map fun th => 4 * awaitsLeft th.todo).sum

/-- How far the calls are from their ends. -/
noncomputable def Pooled.rank (x : Pooled) : Nat :=
  todoRank x.calls.threads + 3 * x.calls.threads.length + x.pool.returning.length - Pool.advanced x.pool

section Rank
variable {L : Libs} {cfg : JwtConfig} {F : Faults} {admits : ServerState → Call → Prop} {n : Nat} {x y : Pooled}
  {lab : PooledLabel}

/-- No call awaits more than a registration. -/
theorem within_run (call : Call) : Within (call.run L cfg) 13 := by
  cases call with
  | rpc request md =>
      refine ((within_serve request md).bind (n := 0) fun _ => Within.pure _).mono ?_
      cases request <;> simp [Request.awaits]
  | getUserById id => exact ((within_getUserById id).bind (n := 0) fun _ => Within.pure _).mono (by omega)
  | getUserByPhoneNumber phoneNumber =>
      exact ((within_selectUser _ _).bind (n := 0) fun _ => Within.pure _).mono (by omega)

theorem within_todo {s : ServerState} (hs : Reachable (server L cfg F admits).system s) {tid : Nat} {call : Call}
    {todo : Prog Outcome} (ht : s.threads[tid]? = some ⟨call, todo⟩) : Within todo 13 :=
  ((within_run call).trace ((Setup.traced hs).trace tid _ ht)).2.mono (by omega)

theorem todoRank_set {threads : List (Thread Op Ans Call String Outcome)} {tid : Nat}
    {th : Thread Op Ans Call String Outcome} (ht : threads[tid]? = some th)
    (th' : Thread Op Ans Call String Outcome) :
    todoRank (threads.set tid th') + 4 * awaitsLeft th.todo = todoRank threads + 4 * awaitsLeft th'.todo := by
  unfold todoRank
  induction threads generalizing tid with
  | nil => cases ht
  | cons first rest ih =>
      cases tid with
      | zero =>
          obtain rfl := Option.some.inj ht
          simp only [List.set_cons_zero, List.map_cons, List.sum_cons]
          omega
      | succ tid =>
          have hrest := ih ht
          simp only [List.set_cons_succ, List.map_cons, List.sum_cons]
          omega

/-- A call that goes on has less to do. -/
theorem todoRank_proceed {s : ServerState} (hs : Reachable (server L cfg F admits).system s) {tid : Nat} {call : Call}
    {o : Op} {k : Ans o → Prog Outcome} (ht : s.threads[tid]? = some ⟨call, .await o k⟩) (a : Ans o) (w : World) :
    todoRank (proceed s tid call ⟨o, a⟩ (k a) w).threads + 4 ≤ todoRank s.threads := by
  have hset := todoRank_set ht ⟨call, k a⟩
  have hlt := awaitsLeft_lt (within_todo hs ht) a
  rw [proceed]
  dsimp only at hset ⊢
  omega

/-- A client is pending once, and is a call. -/
theorem Pooled.Linked.pending_le (hlink : x.Linked) :
    x.pool.posted.length + x.pool.waiters.length + x.pool.handed.length ≤ x.calls.threads.length := by
  have hsub : x.pool.posted ++ x.pool.waiters ++ x.pool.handed.map Prod.fst ⊆ List.range x.calls.threads.length := by
    intro tid htid
    obtain ⟨call, k, hth⟩ := hlink.pending tid (Pool.pending_iff.mpr htid)
    exact List.mem_range.mpr (List.getElem?_eq_some_iff.mp hth).1
  have hlen := (hlink.once.subperm hsub).length_le
  simpa only [List.length_append, List.length_map, List.length_range] using hlen

theorem Pooled.Linked.advanced_le (hlink : x.Linked) : Pool.advanced x.pool ≤ 3 * x.calls.threads.length := by
  have hle := hlink.pending_le
  unfold Pool.advanced
  omega

/-- **A step of a call or of the strand lowers the rank**, and the world does not raise it. -/
theorem Pooled.Step.rank (hreach : Reachable (Pooled.system L cfg F admits n) x)
    (hstep : Pooled.Step L cfg F admits x lab y) (hcall : ∀ call, lab ≠ .invoke call) :
    y.rank + (if lab.works then 1 else 0) ≤ x.rank := by
  have hs := Pooled.reachable_calls hreach
  have hx := (Pooled.linked hreach).advanced_le
  have hy := (Pooled.linked (hreach.step hstep)).advanced_le
  cases hstep with
  | invoke s p call h => exact absurd rfl (hcall call)
  | env s p w h => exact Nat.le_refl _
  | advance s p tid call o k a w ht hget hret h =>
      have htodo := todoRank_proceed hs ht a w
      simp only [Pooled.rank, PooledLabel.works, if_true, proceed, List.length_set] at hx htodo ⊢
      omega
  | getConnection s p q tid call k ht hpend h =>
      cases h.move with
      | getConnection client =>
          simp only [Pooled.rank, PooledLabel.works, if_true, Pool.advanced, List.length_append, List.length_singleton]
            at hx hy ⊢
          omega
  | wait s p q tid hpool h =>
      cases h.move with
      | take l r client conn rest hp hpool' =>
          rw [hpool] at hpool'
          cases hpool'
      | wait l r client hp hpool' =>
          simp only [Pooled.rank, PooledLabel.works, if_true, Pool.advanced, hp, List.length_append, List.length_cons,
            List.length_nil] at hx hy ⊢
          omega
  | take s p q tid call k conn rest ht hpool h =>
      have htodo := todoRank_proceed hs ht conn s.world
      cases h.move with
      | wait l r client hp hpool' =>
          rw [hpool] at hpool'
          cases hpool'
      | take l r client conn' rest' hp hpool' =>
          simp only [Pooled.rank, PooledLabel.works, if_true, Pool.advanced, hp, proceed, List.length_set,
            List.length_append, List.length_cons] at hx hy htodo ⊢
          omega
  | resume s p q tid call k conn ht h =>
      have htodo := todoRank_proceed hs ht conn s.world
      cases h.move with
      | resume l r client conn' hh =>
          simp only [Pooled.rank, PooledLabel.works, if_true, Pool.advanced, hh, proceed, List.length_set,
            List.length_append, List.length_cons] at hx hy htodo ⊢
          omega
  | release s p q tid call conn k ht h =>
      have htodo := todoRank_proceed hs ht () s.world
      cases h.move with
      | release l r client conn' hh =>
          simp only [Pooled.rank, PooledLabel.works, if_true, Pool.advanced, proceed, List.length_set,
            List.length_append, List.length_singleton] at hx hy htodo ⊢
          omega
  | returnTurn s p q conn h =>
      cases h.move with
      | store l r conn' hr hwait =>
          simp only [Pooled.rank, PooledLabel.works, if_true, Pool.advanced, hr, List.length_append, List.length_cons]
            at hx hy ⊢
          omega
      | handOver l r client conn' rest hr hwait =>
          simp only [Pooled.rank, PooledLabel.works, if_true, Pool.advanced, hr, hwait, List.length_append,
            List.length_cons, List.length_nil] at hx hy ⊢
          omega

/-- At most all connections are on their way back. -/
theorem Pooled.returning_le (h : Reachable (Pooled.system L cfg F admits n) x) : x.pool.returning.length ≤ n := by
  have hp := Pooled.reachable_pool h
  have hnodup : x.pool.returning.Nodup := by
    refine (Pool.places_nodup hp).sublist ?_
    unfold Pool.places
    exact (List.sublist_append_right _ _).trans (List.sublist_append_left _ _)
  have hsub : x.pool.returning ⊆ List.range n := by
    intro conn hconn
    have hocc := Pool.occurrences_of_reachable hp conn
    have hpos := List.count_pos_iff.mpr hconn
    unfold Pool.occurrences at hocc
    refine List.mem_range.mpr (Decidable.byContradiction fun hge => ?_)
    rw [if_neg hge] at hocc
    omega
  simpa only [List.length_range] using (hnodup.subperm hsub).length_le

theorem Pooled.rank_le (h : Reachable (Pooled.system L cfg F admits n) x) :
    x.rank ≤ 55 * x.calls.threads.length + n := by
  have hret := Pooled.returning_le h
  have htodo : todoRank x.calls.threads ≤ (x.calls.threads.map fun _ => 52).sum := by
    refine List.sum_le_sum fun th hth => ?_
    obtain ⟨tid, htid⟩ := List.mem_iff_getElem?.mp hth
    have hle := (within_todo (Pooled.reachable_calls h) htid).awaitsLeft_le
    omega
  rw [List.map_const', List.sum_replicate, smul_eq_mul] at htodo
  unfold Pooled.rank
  omega

/-! ## Nobody is stuck -/

/-- A call that awaits anything but the pool can be answered. -/
theorem Pooled.answers (x : Pooled) {tid : Nat} {call : Call} {o : Op} {k : Ans o → Prog Outcome}
    (ht : x.calls.threads[tid]? = some ⟨call, .await o k⟩) (hget : o ≠ .getConnection)
    (hret : ∀ conn, o ≠ .returnConnection conn) :
    ∃ lab z, lab.works = true ∧ Pooled.Step L cfg F admits x lab z :=
  ⟨.advance tid, _, rfl, .advance x.calls x.pool tid call o k _ _ ht hget hret (exec_answer L F o x.calls.world)⟩

/-- A call that holds a connection can go on. -/
theorem Pooled.holder_works (h : Reachable (Pooled.system L cfg F admits n) x) {tid : Nat} {conn : ConnId}
    (hheld : (tid, conn) ∈ x.pool.held) : ∃ lab z, lab.works = true ∧ Pooled.Step L cfg F admits x lab z := by
  obtain ⟨-, call, o, k, hth, ho⟩ := Pooled.holder_awaits h hheld
  rcases ho with ⟨stmt, params, rfl⟩ | rfl
  · exact Pooled.answers x hth (by simp) (by simp)
  · obtain ⟨l, r, hsplit⟩ := List.append_of_mem hheld
    exact ⟨_, _, rfl, .release x.calls x.pool _ tid call conn k hth (Pool.Step.release x.pool l r tid conn hsplit)⟩

/-- A client that was handed a connection can resume. -/
theorem Pooled.handed_works (h : Reachable (Pooled.system L cfg F admits n) x) {tid : Nat} {conn : ConnId}
    (hhanded : (tid, conn) ∈ x.pool.handed) : ∃ lab z, lab.works = true ∧ Pooled.Step L cfg F admits x lab z := by
  obtain ⟨call, k, hth⟩ := (Pooled.linked h).pending tid (.inr (.inr ⟨conn, hhanded⟩))
  obtain ⟨l, r, hsplit⟩ := List.append_of_mem hhanded
  exact ⟨_, _, rfl, .resume x.calls x.pool _ tid call k conn hth (Pool.Step.resume x.pool l r tid conn hsplit)⟩

/-- **As long as a call has not ended, a call or the strand can take a step.** -/
theorem Pooled.canWork (h : Reachable (Pooled.system L cfg F admits n) x) (hn : 0 < n) {tid : Nat} {call : Call}
    {o : Op} {k : Ans o → Prog Outcome} (ht : x.calls.threads[tid]? = some ⟨call, .await o k⟩) :
    ∃ lab z, lab.works = true ∧ Pooled.Step L cfg F admits x lab z := by
  cases o with
  | getConnection =>
      by_cases hpend : Pool.Pending x.pool tid
      · rcases hpend with hposted | hwaits | ⟨conn, hhanded⟩
        · obtain ⟨l, r, hsplit⟩ := List.append_of_mem hposted
          have hturn := Pool.Step.getTurn x.pool l r tid hsplit
          cases hpool : x.pool.pool_ with
          | nil => exact ⟨_, _, rfl, .wait x.calls x.pool _ tid hpool hturn⟩
          | cons conn rest => exact ⟨_, _, rfl, .take x.calls x.pool _ tid call k conn rest ht hpool hturn⟩
        · -- somebody has connection 0, or it is on its way
          rcases Pooled.busy_of_waiting h (List.ne_nil_of_mem hwaits) hn with ⟨tid', hheld⟩ | hret | ⟨tid', hhanded⟩
          · exact Pooled.holder_works h hheld
          · obtain ⟨l, r, hsplit⟩ := List.append_of_mem hret
            exact ⟨_, _, rfl, .returnTurn x.calls x.pool _ 0 (Pool.Step.returnTurn x.pool l r 0 hsplit)⟩
          · exact Pooled.handed_works h hhanded
        · exact Pooled.handed_works h hhanded
      · exact ⟨_, _, rfl, .getConnection x.calls x.pool _ tid call k ht hpend (Pool.Step.getConnection x.pool tid)⟩
  | returnConnection conn =>
      -- it is in the log, so that the pool counts it as held
      have hone : holding (events x.calls.log tid) = [conn] := allowed_of_await (Pooled.reachable_calls h) ht
      have hmem : conn ∈ Pool.heldBy x.pool tid := by
        rw [(Pooled.linked h).held tid, hone]
        exact List.mem_singleton_self conn
      obtain ⟨⟨tid', conn'⟩, hfilter, rfl⟩ := List.mem_map.mp hmem
      exact Pooled.holder_works h (List.mem_filter.mp hfilter).1
  | now => exact Pooled.answers x ht (by simp) (by simp)
  | uniformDigit => exact Pooled.answers x ht (by simp) (by simp)
  | rand32 => exact Pooled.answers x ht (by simp) (by simp)
  | generateBlock size => exact Pooled.answers x ht (by simp) (by simp)
  | redisSet key value ex => exact Pooled.answers x ht (by simp) (by simp)
  | redisGet key => exact Pooled.answers x ht (by simp) (by simp)
  | execParams conn stmt params => exact Pooled.answers x ht (by simp) (by simp)
  | coSpawn userId => exact Pooled.answers x ht (by simp) (by simp)

/-- **Every call ends.** From every reachable state of the server over a pool of at least one connection, whatever the
operations answer and in whatever order calls, strand and world go on: without new calls there are at most 55 more
steps for each call and one for each connection, and as long as a call has not ended one of them can be taken. -/
theorem Pooled.finishes (h : Reachable (Pooled.system L cfg F admits n) x) (hn : 0 < n) {labs : List PooledLabel}
    (hrun : Run (Pooled.system L cfg F admits n) x labs y) (hlabs : ∀ lab ∈ labs, ∀ call, lab ≠ .invoke call) :
    labs.countP PooledLabel.works ≤ 55 * x.calls.threads.length + n ∧
    ∀ (tid : Nat) (call : Call) (o : Op) (k : Ans o → Prog Outcome),
      y.calls.threads[tid]? = some ⟨call, .await o k⟩ → ∃ lab z, lab.works = true ∧ Pooled.Step L cfg F admits y lab z := by
  refine ⟨?_, fun tid call o k ht => Pooled.canWork (h.run hrun) hn ht⟩
  have hcount : labs.countP PooledLabel.works + y.rank ≤ x.rank := hrun.countP_le
    (I := Reachable (Pooled.system L cfg F admits n)) (P := fun lab => ∀ call, lab ≠ .invoke call)
    (fun _ _ _ _ hs hstep => hs.step hstep) (fun _ _ _ hl hs hstep => Pooled.Step.rank hs hstep hl) hlabs h
  have hle := Pooled.rank_le h
  omega

end Rank

/-- One connection and two lookups, of which the second waits for the first. -/
theorem Pooled.finishes_two : ∃ x : Pooled, x.pool.waiters = [1] ∧ ∃ lab z, PooledLabel.works lab = true ∧
    Pooled.Step (Libs.reference Texts.alice) .photon .never (fun _ _ => True) x lab z := by
  have h₀ : Reachable (Pooled.system (Libs.reference Texts.alice) .photon .never (fun _ _ => True) 1)
      ⟨⟨.fresh 0, [], []⟩, Pool.init 1⟩ := Reachable.of_init ⟨⟨rfl, rfl, rfl⟩, rfl⟩
  have h₁ := h₀.step (.invoke _ _ (.getUserByPhoneNumber "13800000000") trivial)
  have h₂ := h₁.step (.invoke _ _ (.getUserByPhoneNumber "13800000000") trivial)
  have h₃ := h₂.step (.getConnection _ _ _ 0 _ _ rfl (by simp [Pool.Pending, Pool.init, Pool.empty]) (.getConnection _ 0))
  have h₄ := h₃.step (.getConnection _ _ _ 1 _ _ rfl (by simp [Pool.Pending, Pool.init, Pool.empty]) (.getConnection _ 1))
  have h₅ := h₄.step (.take _ _ _ 0 _ _ 0 [] rfl rfl (.getTurn _ [] [1] 0 rfl))
  have h₆ := h₅.step (.wait _ _ _ 1 rfl (.getTurn _ [] [] 1 rfl))
  exact ⟨_, rfl, (Pooled.finishes h₆ Nat.zero_lt_one (Run.refl _) (by simp)).2 1 _ _ _ rfl⟩

end PhotonCommerce.System
