import PhotonCommerce.Lib.Transition
import Mathlib.Data.List.Nodup
import Mathlib.Data.List.Range

/-!
# `AsyncConnectionPool`: who owns each connection

A `GetConnection` call posts itself to the strand; its turn there either takes the front of `pool_` or suspends on
`waiters_channel_`. Destroying a `PooledConnection` posts a `ReturnConnection` task; its turn hands the connection to
the first suspended receiver, which resumes later, or puts it back into `pool_`.

* `Pool.init n` : the pool after `Init`, with the connections `0, …, n - 1`;
* `Pool.getTurn`, `Pool.returnTurn` : the two strand turns;
* `Pool.system n` : every order of posting, strand turns, resumptions and releases;
* `Pool.conserved` : in every reachable state each of the `n` connections is at exactly one place.

The strand runs one task at a time in any order of the posted ones; a client is one `GetConnection` call.
-/

namespace PhotonCommerce.Infrastructure
open Transition

abbrev ConnId := Nat
abbrev Client := Nat

/-- The pool, its clients and its strand. -/
structure Pool where
  /-- The idle connections. -/
  pool_ : List ConnId
  /-- `GetConnection` calls posted to the strand. -/
  posted : List Client
  /-- Calls suspended in `waiters_channel_.async_receive`, in order of arrival. -/
  waiters : List Client
  /-- Receivers that `try_send` has woken and that have not resumed yet. -/
  handed : List (Client × ConnId)
  /-- `PooledConnection`s held by clients. -/
  held : List (Client × ConnId)
  /-- `ReturnConnection` tasks posted to the strand. -/
  returning : List ConnId
  deriving DecidableEq, Repr

def Pool.empty : Pool := ⟨[], [], [], [], [], []⟩

/-- `AsyncConnectionPool::Init`: connect and `push_back`, `pool_size` times. -/
def Pool.init (poolSize : Nat) : Pool :=
  (List.range poolSize).foldl (fun p conn => { p with pool_ := p.pool_ ++ [conn] }) Pool.empty

/-- The strand turn of `GetConnection`. -/
def Pool.getTurn (p : Pool) (client : Client) : Pool :=
  match p.pool_ with
  | conn :: rest => { p with pool_ := rest, held := p.held ++ [(client, conn)] }
  | [] => { p with waiters := p.waiters ++ [client] }

/-- The strand turn of `ReturnConnection`: `try_send` succeeds exactly when a receiver is waiting. -/
def Pool.returnTurn (p : Pool) (conn : ConnId) : Pool :=
  match p.waiters with
  | client :: rest => { p with waiters := rest, handed := p.handed ++ [(client, conn)] }
  | [] => { p with pool_ := p.pool_ ++ [conn] }

/-- The labels of the pool's steps. -/
inductive PoolLabel where
  | getConnection (client : Client)
  | getTurn (client : Client)
  | resume (client : Client) (conn : ConnId)
  | release (client : Client) (conn : ConnId)
  | returnTurn (conn : ConnId)
  deriving DecidableEq, Repr

/-- One step of a client or of the strand. -/
inductive Pool.Step : Pool → PoolLabel → Pool → Prop where
  | getConnection (p : Pool) (client : Client) :
      Step p (.getConnection client) { p with posted := p.posted ++ [client] }
  | getTurn (p : Pool) (l r) (client : Client) (hp : p.posted = l ++ client :: r) :
      Step p (.getTurn client) (Pool.getTurn { p with posted := l ++ r } client)
  /-- The woken receiver resumes and returns its `PooledConnection`. -/
  | resume (p : Pool) (l r) (client : Client) (conn : ConnId) (hh : p.handed = l ++ (client, conn) :: r) :
      Step p (.resume client conn) { p with handed := l ++ r, held := p.held ++ [(client, conn)] }
  /-- `ConnectionReleaser::operator()`: the `PooledConnection` is destroyed and `ReturnConnection` posts its task. -/
  | release (p : Pool) (l r) (client : Client) (conn : ConnId) (hh : p.held = l ++ (client, conn) :: r) :
      Step p (.release client conn) { p with held := l ++ r, returning := p.returning ++ [conn] }
  | returnTurn (p : Pool) (l r) (conn : ConnId) (hr : p.returning = l ++ conn :: r) :
      Step p (.returnTurn conn) (Pool.returnTurn { p with returning := l ++ r } conn)

/-- The pool of size `n` after `Init`. -/
def Pool.system (n : Nat) : Lts Pool PoolLabel where
  init p := p = Pool.init n
  step := Pool.Step

/-! ## Where a connection is -/

/-- Everything the four places hold: `pool_`, the clients, the pending `ReturnConnection` tasks, the hand-overs. -/
def Pool.places (p : Pool) : List ConnId :=
  p.pool_ ++ p.held.map Prod.snd ++ p.returning ++ p.handed.map Prod.snd

/-- How often connection `c` occurs at the four places. -/
def Pool.occurrences (p : Pool) (c : ConnId) : Nat :=
  p.pool_.count c + (p.held.map Prod.snd).count c + p.returning.count c + (p.handed.map Prod.snd).count c

theorem Pool.occurrences_eq (p : Pool) (c : ConnId) : p.occurrences c = p.places.count c := by
  simp only [Pool.occurrences, Pool.places, List.count_append]

theorem Pool.init_eq (n : Nat) : Pool.init n = { Pool.empty with pool_ := List.range n } := by
  have hfold : ∀ (cs : List ConnId) (p : Pool),
      cs.foldl (fun p conn => { p with pool_ := p.pool_ ++ [conn] }) p = { p with pool_ := p.pool_ ++ cs } := by
    intro cs
    induction cs with
    | nil => intro p; simp
    | cons c cs ih => intro p; simp [List.foldl_cons, ih]
  rw [Pool.init, hfold]
  simp [Pool.empty]

theorem Pool.occurrences_init (n : Nat) (c : ConnId) : (Pool.init n).occurrences c = if c < n then 1 else 0 := by
  rw [Pool.init_eq]
  simp only [Pool.occurrences, Pool.empty, List.map_nil, List.count_nil, Nat.add_zero]
  split_ifs with hc
  · exact List.count_eq_one_of_mem List.nodup_range (List.mem_range.mpr hc)
  · exact List.count_eq_zero.mpr fun hmem => hc (List.mem_range.mp hmem)

/-- The take-or-wait decision loses nothing. -/
theorem Pool.occurrences_getTurn (p : Pool) (client : Client) (c : ConnId) :
    (p.getTurn client).occurrences c = p.occurrences c := by
  unfold Pool.getTurn
  split
  · next conn rest hpool =>
      simp only [Pool.occurrences, hpool, List.map_append, List.map_cons, List.map_nil, List.count_append,
        List.count_cons, List.count_nil]
      omega
  · rfl

/-- The give-or-store decision puts the connection at exactly one place. -/
theorem Pool.occurrences_returnTurn (p : Pool) (conn c : ConnId) :
    (p.returnTurn conn).occurrences c = p.occurrences c + if conn = c then 1 else 0 := by
  unfold Pool.returnTurn
  split
  · simp only [Pool.occurrences, List.map_append, List.map_cons, List.map_nil, List.count_append, List.count_cons,
      List.count_nil, beq_iff_eq]
    omega
  · simp only [Pool.occurrences, List.count_append, List.count_cons, List.count_nil, beq_iff_eq]
    omega

/-- **No step loses or duplicates a connection.** -/
theorem Pool.Step.occurrences {p q : Pool} {lab : PoolLabel} (h : Pool.Step p lab q) (c : ConnId) :
    q.occurrences c = p.occurrences c := by
  cases h with
  | getConnection => rfl
  | getTurn l r client hp => exact Pool.occurrences_getTurn _ _ _
  | resume l r client conn hh =>
      simp only [Pool.occurrences, hh, List.map_append, List.map_cons, List.map_nil, List.count_append,
        List.count_cons, List.count_nil]
      omega
  | release l r client conn hh =>
      simp only [Pool.occurrences, hh, List.map_append, List.map_cons, List.count_append, List.count_cons,
        List.count_nil]
      omega
  | returnTurn l r conn hr =>
      rw [Pool.occurrences_returnTurn]
      simp only [Pool.occurrences, hr, List.count_append, List.count_cons, beq_iff_eq]
      omega

theorem Pool.occurrences_of_reachable {n : Nat} {p : Pool} (h : Reachable (Pool.system n) p) (c : ConnId) :
    p.occurrences c = if c < n then 1 else 0 := by
  refine h.invariant (I := fun p => p.occurrences c = if c < n then 1 else 0) ?_ ?_
  · rintro p rfl
    exact Pool.occurrences_init n c
  · intro p lab q hp hstep
    exact (hstep.occurrences c).trans hp

/-- No connection is at two places, or twice at one. -/
theorem Pool.places_nodup {n : Nat} {p : Pool} (h : Reachable (Pool.system n) p) : p.places.Nodup := by
  refine List.nodup_iff_count_le_one.mpr fun c => ?_
  rw [← Pool.occurrences_eq, Pool.occurrences_of_reachable h c]
  split_ifs <;> omega

/-- **Conservation and exclusivity.** In every reachable state each of the `n` connections occurs exactly once among
`pool_`, the held `PooledConnection`s, the pending `ReturnConnection` tasks and the hand-overs, nothing else occurs
there, and two clients that hold the same connection are the same holder. -/
theorem Pool.conserved (n : Nat) (p : Pool) (h : Reachable (Pool.system n) p) :
    (∀ c, p.pool_.count c + (p.held.map Prod.snd).count c + p.returning.count c + (p.handed.map Prod.snd).count c =
      if c < n then 1 else 0) ∧
    ∀ (i j : Nat) (g g' : Client) (c : ConnId), p.held[i]? = some (g, c) → p.held[j]? = some (g', c) → i = j := by
  refine ⟨fun c => Pool.occurrences_of_reachable h c, fun i j g g' c hi hj => ?_⟩
  have hnodup : (p.held.map Prod.snd).Nodup := by
    refine (Pool.places_nodup h).sublist ?_
    unfold Pool.places
    refine List.Sublist.trans ?_ (List.sublist_append_left _ _)
    exact List.Sublist.trans (List.sublist_append_right _ _) (List.sublist_append_left _ _)
  have hi' : (p.held.map Prod.snd)[i]? = some c := by rw [List.getElem?_map, hi]; rfl
  have hj' : (p.held.map Prod.snd)[j]? = some c := by rw [List.getElem?_map, hj]; rfl
  have hlt : i < (p.held.map Prod.snd).length := (List.getElem?_eq_some_iff.mp hi').1
  exact (List.getElem?_inj hlt hnodup).mp (hi'.trans hj'.symm)

/-- One connection, handed by the first client's release to the second, suspended one. -/
def Pool.handOver : Pool := ⟨[], [], [], [(1, 0)], [], []⟩

/-- The steps to `Pool.handOver`. -/
def Pool.handOverLabels : List PoolLabel :=
  [.getConnection 0, .getConnection 1, .getTurn 0, .getTurn 1, .release 0 0, .returnTurn 0]

theorem Pool.run_handOver : Run (Pool.system 1) (Pool.init 1) Pool.handOverLabels Pool.handOver := by
  have h₁ := (Run.refl (S := Pool.system 1) (Pool.init 1)).tail (Step.getConnection _ 0)
  have h₂ := h₁.tail (Step.getConnection _ 1)
  have h₃ := h₂.tail (Step.getTurn _ [] [1] 0 rfl)
  have h₄ := h₃.tail (Step.getTurn _ [] [] 1 rfl)
  have h₅ := h₄.tail (Step.release _ [] [] 0 0 rfl)
  exact h₅.tail (Step.returnTurn _ [] [] 0 rfl)

theorem Pool.reachable_handOver : Reachable (Pool.system 1) Pool.handOver := ⟨_, _, rfl, Pool.run_handOver⟩

theorem Pool.conserved_handOver : Reachable (Pool.system 1) Pool.handOver ∧
    ∀ c, Pool.handOver.pool_.count c + (Pool.handOver.held.map Prod.snd).count c + Pool.handOver.returning.count c +
      (Pool.handOver.handed.map Prod.snd).count c = if c < 1 then 1 else 0 :=
  ⟨Pool.reachable_handOver, (Pool.conserved 1 Pool.handOver Pool.reachable_handOver).1⟩

end PhotonCommerce.Infrastructure
