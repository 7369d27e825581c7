import PhotonCommerce.Persistence.AsyncConnectionPool

/-!
# `AsyncConnectionPool`: no lost wake-up, no overtaking

* `Pool.assigns` : whom a strand turn gives a connection to;
* `PoolHistory` : the pool with the `GetConnection` turns that ran and the assignments made, both in order;
* `PoolHistory.exists_run` : every run of the pool has its history;
* `Pool.Conserving` : `pool_` is empty while somebody waits;
* `Pool.served_in_order` : the clients served so far, then the waiting ones, are the clients in the order of
  their turns.
-/

namespace PhotonCommerce.Infrastructure
open Transition

/-- `pool_` holds something only while nobody waits. -/
def Pool.Conserving (p : Pool) : Prop := p.pool_ ≠ [] → p.waiters = []

/-- The client a strand turn gives a connection to, with that connection: the caller of `GetConnection`, from `pool_`,
or the first waiting receiver, from `try_send`. -/
def Pool.assigns (p : Pool) : PoolLabel → List (Client × ConnId)
  | .getTurn client => p.pool_.head?.toList.map fun conn => (client, conn)
  | .returnTurn conn => p.waiters.head?.toList.map fun client => (client, conn)
  | _ => []

/-- The client whose `GetConnection` turn it is. -/
def PoolLabel.turn : PoolLabel → List Client
  | .getTurn client => [client]
  | _ => []

/-- The pool, the turns of `GetConnection` and the assignments up to now. -/
structure PoolHistory where
  pool : Pool
  turns : List Client
  assigned : List (Client × ConnId)
  deriving DecidableEq, Repr

/-- After `Init`. -/
def PoolHistory.init (n : Nat) : PoolHistory := ⟨Pool.init n, [], []⟩

/-- A step of the pool, recorded. -/
inductive PoolHistory.Step : PoolHistory → PoolLabel → PoolHistory → Prop where
  | record (h : PoolHistory) (lab : PoolLabel) (p : Pool) (hstep : Pool.Step h.pool lab p) :
      Step h lab ⟨p, h.turns ++ lab.turn, h.assigned ++ h.pool.assigns lab⟩

def PoolHistory.system (n : Nat) : Lts PoolHistory PoolLabel where
  init h := h = PoolHistory.init n
  step := PoolHistory.Step

/-- **Everything a step of the pool can do**, with the two decisions made on the strand. -/
inductive Pool.Move (p : Pool) : PoolLabel → Pool → Prop where
  | getConnection (client : Client) : Move p (.getConnection client) { p with posted := p.posted ++ [client] }
  | take (l r) (client : Client) (conn : ConnId) (rest) (hp : p.posted = l ++ client :: r)
      (hpool : p.pool_ = conn :: rest) :
      Move p (.getTurn client) { p with posted := l ++ r, pool_ := rest, held := p.held ++ [(client, conn)] }
  | wait (l r) (client : Client) (hp : p.posted = l ++ client :: r) (hpool : p.pool_ = []) :
      Move p (.getTurn client) { p with posted := l ++ r, waiters := p.waiters ++ [client] }
  | resume (l r) (client : Client) (conn : ConnId) (hh : p.handed = l ++ (client, conn) :: r) :
      Move p (.resume client conn) { p with handed := l ++ r, held := p.held ++ [(client, conn)] }
  | release (l r) (client : Client) (conn : ConnId) (hh : p.held = l ++ (client, conn) :: r) :
      Move p (.release client conn) { p with held := l ++ r, returning := p.returning ++ [conn] }
  | handOver (l r) (client : Client) (conn : ConnId) (rest) (hr : p.returning = l ++ conn :: r)
      (hwait : p.waiters = client :: rest) :
      Move p (.returnTurn conn)
        { p with returning := l ++ r, waiters := rest, handed := p.handed ++ [(client, conn)] }
  | store (l r) (conn : ConnId) (hr : p.returning = l ++ conn :: r) (hwait : p.waiters = []) :
      Move p (.returnTurn conn) { p with returning := l ++ r, pool_ := p.pool_ ++ [conn] }

theorem Pool.Step.move {p q : Pool} {lab : PoolLabel} (h : Pool.Step p lab q) : p.Move lab q := by
  obtain ⟨pool, posted, waiters, handed, held, returning⟩ := p
  cases h with
  | getConnection client => exact .getConnection client
  | resume l r client conn hh => exact .resume l r client conn hh
  | release l r client conn hh => exact .release l r client conn hh
  | getTurn l r client hp =>
      cases pool with
      | nil => exact .wait l r client hp rfl
      | cons conn rest => exact .take l r client conn rest hp rfl
  | returnTurn l r conn hr =>
      cases waiters with
      | nil => exact .store l r conn hr rfl
      | cons client rest => exact .handOver l r client conn rest hr rfl

section Runs
variable {n : Nat}

/-- Every run of the pool has its history. -/
theorem PoolHistory.exists_run {p q : Pool} {labs : List PoolLabel} (hrun : Run (Pool.system n) p labs q)
    (turns : List Client) (assigned : List (Client × ConnId)) :
    ∃ assigned', Run (PoolHistory.system n) ⟨p, turns, assigned⟩ labs
      ⟨q, turns ++ labs.flatMap PoolLabel.turn, assigned'⟩ := by
  induction hrun with
  | refl =>
      refine ⟨assigned, ?_⟩
      rw [List.flatMap_nil, List.append_nil]
      exact Run.refl _
  | tail _ hstep ih =>
      rename_i t u ls lab _
      obtain ⟨assigned', hrun⟩ := ih
      refine ⟨assigned' ++ t.assigns lab, ?_⟩
      rw [List.flatMap_append, List.flatMap_singleton, ← List.append_assoc]
      exact hrun.tail (PoolHistory.Step.record _ _ _ hstep)

/-- **A waiter and an idle connection never meet.** -/
theorem Pool.Move.conserving {p q : Pool} {lab : PoolLabel} (h : p.Conserving) (hmove : p.Move lab q) :
    q.Conserving := by
  cases hmove with
  | getConnection client => exact h
  | resume l r client conn hh => exact h
  | release l r client conn hh => exact h
  | take l r client conn rest hp hpool => exact fun _ => h (by rw [hpool]; exact List.cons_ne_nil _ _)
  | wait l r client hp hpool => exact fun hne => absurd hpool hne
  | store l r conn hr hwait => exact fun _ => hwait
  | handOver l r client conn rest hr hwait =>
      intro hne
      have hnil := h hne
      rw [hwait] at hnil
      cases hnil

theorem Pool.conserving_of_reachable {p : Pool} (h : Reachable (Pool.system n) p) : p.Conserving := by
  refine h.invariant (I := Pool.Conserving) ?_ fun p lab q hp hstep => Pool.Move.conserving hp (Pool.Step.move hstep)
  rintro p rfl _
  rw [Pool.init_eq]
  rfl

/-- The clients served, then the waiting ones, are the clients in the order of their turns, and who has a connection
was served. -/
structure PoolHistory.InOrder (h : PoolHistory) : Prop where
  conserving : h.pool.Conserving
  order : h.assigned.map Prod.fst ++ h.pool.waiters = h.turns
  served : ∀ x ∈ h.pool.held ++ h.pool.handed, x ∈ h.assigned

theorem Pool.Move.order {p q : Pool} {lab : PoolLabel} {turns served : List Client} (hcons : p.Conserving)
    (hmove : p.Move lab q) (h : served ++ p.waiters = turns) :
    served ++ (p.assigns lab).map Prod.fst ++ q.waiters = turns ++ lab.turn := by
  subst h
  cases hmove with
  | getConnection client => simp [Pool.assigns, PoolLabel.turn]
  | resume l r client conn hh => simp [Pool.assigns, PoolLabel.turn]
  | release l r client conn hh => simp [Pool.assigns, PoolLabel.turn]
  | take l r client conn rest hp hpool =>
      -- nobody waits, so that the client does not overtake anybody
      have hwait : p.waiters = [] := hcons (by rw [hpool]; exact List.cons_ne_nil _ _)
      simp [Pool.assigns, PoolLabel.turn, hpool, hwait]
  | wait l r client hp hpool => simp [Pool.assigns, PoolLabel.turn, hpool]
  | store l r conn hr hwait => simp [Pool.assigns, PoolLabel.turn, hwait]
  | handOver l r client conn rest hr hwait => simp [Pool.assigns, PoolLabel.turn, hwait]

/-- Who has a connection after a step had it before, or was given it by the step. -/
theorem Pool.Move.served {p q : Pool} {lab : PoolLabel} (hmove : p.Move lab q) {x : Client × ConnId}
    (hx : x ∈ q.held ++ q.handed) : x ∈ p.held ++ p.handed ∨ x ∈ p.assigns lab := by
  cases hmove with
  | getConnection client => exact .inl hx
  | wait l r client hp hpool => exact .inl hx
  | store l r conn hr hwait => exact .inl hx
  | resume l r client conn hh =>
      rw [hh]
      simp only [List.mem_append, List.mem_cons, List.not_mem_nil, or_false] at hx ⊢
      tauto
  | release l r client conn hh =>
      rw [hh]
      simp only [List.mem_append, List.mem_cons] at hx ⊢
      tauto
  | take l r client conn rest hp hpool =>
      simp only [List.mem_append, List.mem_cons, List.not_mem_nil, or_false, Pool.assigns, hpool, List.head?_cons,
        Option.toList_some, List.map_cons, List.map_nil] at hx ⊢
      tauto
  | handOver l r client conn rest hr hwait =>
      simp only [List.mem_append, List.mem_cons, List.not_mem_nil, or_false, Pool.assigns, hwait, List.head?_cons,
        Option.toList_some, List.map_cons, List.map_nil] at hx ⊢
      tauto

theorem PoolHistory.InOrder.step {h h' : PoolHistory} {lab : PoolLabel} (hI : h.InOrder)
    (hstep : PoolHistory.Step h lab h') : h'.InOrder := by
  cases hstep with
  | record p hstep =>
      refine ⟨hstep.move.conserving hI.conserving, ?_, fun x hx => ?_⟩
      · rw [List.map_append]
        exact hstep.move.order hI.conserving hI.order
      · rcases hstep.move.served hx with hold | hnew
        · exact List.mem_append_left _ (hI.served x hold)
        · exact List.mem_append_right _ hnew

theorem PoolHistory.inOrder_init (n : Nat) : (PoolHistory.init n).InOrder where
  conserving := Pool.conserving_of_reachable (n := n) (Reachable.of_init rfl)
  order := by simp [PoolHistory.init, Pool.init_eq, Pool.empty]
  served := by simp [PoolHistory.init, Pool.init_eq, Pool.empty]

/-- **Work conservation and first come, first served.** In every run of the pool, `pool_` holds something only while
nobody waits. Its history assigns connections to clients in an order that, followed by the clients that wait, is the
order of the `GetConnection` turns: the client of the `k`-th turn has the `k`-th assignment, or waits behind those
before it. Whoever has a connection was assigned it. -/
theorem Pool.served_in_order (n : Nat) (labs : List PoolLabel) (p : Pool)
    (hrun : Run (Pool.system n) (Pool.init n) labs p) :
    (p.pool_ ≠ [] → p.waiters = []) ∧
    ∃ assigned, Run (PoolHistory.system n) (PoolHistory.init n) labs ⟨p, labs.flatMap PoolLabel.turn, assigned⟩ ∧
      assigned.map Prod.fst ++ p.waiters = labs.flatMap PoolLabel.turn ∧
      (∀ (k : Nat) (client : Client), (labs.flatMap PoolLabel.turn)[k]? = some client →
        (k < assigned.length ∧ ∃ conn, assigned[k]? = some (client, conn)) ∨
        (assigned.length ≤ k ∧ p.waiters[k - assigned.length]? = some client)) ∧
      ∀ x ∈ p.held ++ p.handed, x ∈ assigned := by
  obtain ⟨assigned, hhist⟩ := PoolHistory.exists_run hrun [] []
  have hI := hhist.invariant (I := PoolHistory.InOrder) (fun _ _ _ h hstep => h.step hstep) (PoolHistory.inOrder_init n)
  have horder : assigned.map Prod.fst ++ p.waiters = labs.flatMap PoolLabel.turn := hI.order
  refine ⟨hI.conserving, assigned, hhist, horder, fun k client hk => ?_, hI.served⟩
  rw [← horder] at hk
  by_cases hlt : k < assigned.length
  · rw [List.getElem?_append_left (by simpa using hlt), List.getElem?_map, Option.map_eq_some_iff] at hk
    obtain ⟨⟨client', conn⟩, hget, rfl⟩ := hk
    exact .inl ⟨hlt, conn, hget⟩
  · rw [List.getElem?_append_right (by simpa using hlt), List.length_map] at hk
    exact .inr ⟨Nat.le_of_not_lt hlt, hk⟩

end Runs

theorem Pool.served_in_order_handOver :
    ∃ assigned : List (Client × ConnId), assigned.map Prod.fst = [0, 1] ∧ (1, 0) ∈ assigned := by
  obtain ⟨-, assigned, -, horder, -, hserved⟩ := Pool.served_in_order 1 _ _ Pool.run_handOver
  rw [Pool.handOver, List.append_nil] at horder
  exact ⟨assigned, horder, hserved (1, 0) (by decide)⟩

end PhotonCommerce.Infrastructure
