import PhotonCommerce.Persistence.AsyncConnectionPool
import PhotonCommerce.Persistence.PqConnection

/-!
# Which connections the pool hands out

A DAO call takes a `PooledConnection`, runs one `AsyncExecParams` on it and destroys it, also when `AsyncExecParams`
throws: the deleter returns the connection on every exit.

* `PqState` : a connection is idle, busy with a query, or broken (`CONNECTION_BAD`);
* `ExecPhase`, `ExecStep` : where `AsyncExecParams` stands and its steps, each with its failures;
* `Session.system n` : every interleaving of the pool's steps with the calls on the held connections;
* `ExecLabel.benign` : the steps that do not leave a query unfinished or a connection broken;
* `Session.usable` : in a run of benign steps every connection in `pool_` or handed to a waiter is idle.

A throw out of the wait or of `PQconsumeInput`, or a dropped connection, puts an unusable connection back into
`pool_`: `Session.not_usable`.
-/

namespace PhotonCommerce.Infrastructure
open Transition

/-- A libpq connection. -/
inductive PqState where
  | idle
  | busy
  | broken
  deriving DecidableEq, Repr

/-- Where the `AsyncExecParams` call on a held connection stands. -/
inductive ExecPhase where
  /-- `GetConnection` has returned; next `SendQuery`. -/
  | acquired
  /-- In the `async_wait` of `AwaitResponse`. -/
  | awaiting
  /-- The wait has returned; next `PQconsumeInput`. -/
  | readable
  /-- In the loop of `FetchRawResult`, with the result kept so far. -/
  | fetching (finalResult : Option PGresult)
  | returned (result : Except DbError (Option PGresult))
  | threw (what : String)
  deriving DecidableEq

/-- `AsyncExecParams` has been left, by return or by exception. -/
def ExecPhase.left : ExecPhase → Bool
  | .returned _ => true
  | .threw _ => true
  | _ => false

/-- The labels of the steps of `AsyncExecParams`. -/
inductive ExecLabel where
  | sendQuery
  | sendFails (message : String)
  | wait
  | waitThrows (what : String)
  | consumeFails (message : String)
  | stillBusy
  | notBusy
  | getResult (res : PGresult)
  | getNull
  | dropped
  deriving DecidableEq

/-- One step of `AsyncExecParams` on a connection. -/
inductive ExecStep : ExecPhase × PqState → ExecLabel → ExecPhase × PqState → Prop where
  | sendQuery : ExecStep (.acquired, .idle) .sendQuery (.awaiting, .busy)
  /-- `PQsendQueryParams` returns 0: always on a connection that is not idle. -/
  | sendFails (state : PqState) (message : String) :
      ExecStep (.acquired, state) (.sendFails message) (.threw ("Failed to send query: " ++ message), state)
  | wait (state : PqState) : ExecStep (.awaiting, state) .wait (.readable, state)
  | waitThrows (state : PqState) (what : String) :
      ExecStep (.awaiting, state) (.waitThrows what) (.threw what, state)
  | consumeFails (state after : PqState) (message : String) (h : after = state ∨ after = .broken) :
      ExecStep (.readable, state) (.consumeFails message) (.threw ("Failed to consume input: " ++ message), after)
  /-- `PQisBusy` is 1: the loop of `AwaitResponse` goes on. -/
  | stillBusy (state : PqState) : ExecStep (.readable, state) .stillBusy (.awaiting, state)
  | notBusy (state : PqState) : ExecStep (.readable, state) .notBusy (.fetching none, state)
  | getResult (state : PqState) (finalResult : Option PGresult) (res : PGresult) :
      ExecStep (.fetching finalResult, state) (.getResult res) (.fetching (keepFirst finalResult res), state)
  /-- The terminating null: a connection that is not broken is idle again. -/
  | getNull (state : PqState) (finalResult : Option PGresult) :
      ExecStep (.fetching finalResult, state) .getNull
        (.returned (mapResultToExpected finalResult), if state = .broken then .broken else .idle)
  /-- The server drops the connection. -/
  | dropped (phase : ExecPhase) (state : PqState) : ExecStep (phase, state) .dropped (phase, .broken)

/-- The pool with its connections and the calls on the held ones. -/
structure Session where
  pool : Pool
  conn : ConnId → PqState
  phase : ConnId → ExecPhase

/-- After `Init`: every connection is connected and idle. -/
def Session.init (n : Nat) : Session := ⟨Pool.init n, fun _ => .idle, fun _ => .acquired⟩

/-- The connection whose `GetConnection` call returns in a step. -/
def PoolLabel.acquires (p : Pool) : PoolLabel → Option ConnId
  | .getTurn _ => p.pool_.head?
  | .resume _ conn => some conn
  | _ => none

/-- The labels of a session. -/
inductive SessionLabel where
  | pool (lab : PoolLabel)
  | exec (conn : ConnId) (lab : ExecLabel)
  deriving DecidableEq

/-- One step: of the pool, or of the call on a held connection. A `PooledConnection` is destroyed when its call has
been left. -/
inductive Session.Step : Session → SessionLabel → Session → Prop where
  | pool (s : Session) (lab : PoolLabel) (q : Pool) (hstep : Pool.Step s.pool lab q)
      (hleft : ∀ client conn, lab = .release client conn → (s.phase conn).left = true) :
      Step s (.pool lab)
        { s with pool := q, phase := fun c => if lab.acquires s.pool = some c then .acquired else s.phase c }
  | exec (s : Session) (c : ConnId) (lab : ExecLabel) (phase : ExecPhase) (state : PqState)
      (hheld : c ∈ s.pool.held.map Prod.snd) (hstep : ExecStep (s.phase c, s.conn c) lab (phase, state)) :
      Step s (.exec c lab)
        { s with conn := Function.update s.conn c state, phase := Function.update s.phase c phase }

def Session.system (n : Nat) : Lts Session SessionLabel where
  init s := s = Session.init n
  step := Session.Step

/-- The steps that leave no query unfinished and break no connection. -/
def ExecLabel.benign : ExecLabel → Bool
  | .waitThrows _ => false
  | .consumeFails _ => false
  | .dropped => false
  | _ => true

def SessionLabel.benign : SessionLabel → Bool
  | .pool _ => true
  | .exec _ lab => lab.benign

/-! ## The invariant -/

/-- The state of a held connection at each point of its call. -/
def ExecPhase.expects : ExecPhase → PqState
  | .acquired => .idle
  | .awaiting => .busy
  | .readable => .busy
  | .fetching _ => .busy
  | .returned _ => .idle
  | .threw _ => .idle

theorem ExecPhase.expects_of_left {phase : ExecPhase} (h : phase.left = true) : phase.expects = .idle := by
  cases phase with
  | returned => rfl
  | threw => rfl
  | acquired => cases h
  | awaiting => cases h
  | readable => cases h
  | fetching => cases h

/-- A benign step keeps the connection in the state its phase expects. -/
theorem ExecStep.expects {phase phase' : ExecPhase} {state state' : PqState} {lab : ExecLabel}
    (h : ExecStep (phase, state) lab (phase', state')) (hb : lab.benign = true) (hstate : state = phase.expects) :
    state' = phase'.expects := by
  cases h with
  | sendQuery => rfl
  | sendFails => exact hstate
  | wait => exact hstate
  | waitThrows => cases hb
  | consumeFails => cases hb
  | stillBusy => exact hstate
  | notBusy => exact hstate
  | getResult => exact hstate
  | getNull => subst hstate; rfl
  | dropped => cases hb

/-- Held connections are in the state their call expects, the others are idle. -/
structure Session.Inv (n : Nat) (s : Session) : Prop where
  reachable : Reachable (Pool.system n) s.pool
  held : ∀ c ∈ s.pool.held.map Prod.snd, s.conn c = (s.phase c).expects
  free : ∀ c, c ∉ s.pool.held.map Prod.snd → s.conn c = .idle

/-- The connections a pool step makes held, and the one it releases. -/
theorem Pool.Step.mem_held {p q : Pool} {lab : PoolLabel} (h : Pool.Step p lab q) (hp : p.places.Nodup) (c : ConnId) :
    (c ∈ q.held.map Prod.snd ↔ lab.acquires p = some c ∨ (c ∈ p.held.map Prod.snd ∧ ∀ g, lab ≠ .release g c)) ∧
    (lab.acquires p = some c → c ∉ p.held.map Prod.snd) := by
  simp only [Pool.places, List.nodup_append, List.append_assoc] at hp
  cases h with
  | getConnection client => simp [PoolLabel.acquires]
  | getTurn l r client hl =>
      simp only [Pool.getTurn, PoolLabel.acquires]
      cases hpool : p.pool_ with
      | nil => simp
      | cons conn rest =>
          rw [hpool] at hp
          have hc : conn ∉ p.held.map Prod.snd := fun hmem =>
            hp.2.2 conn List.mem_cons_self conn (List.mem_append_left _ hmem) rfl
          refine ⟨?_, fun heq => ?_⟩
          · simp [or_comm, eq_comm]
          · obtain rfl : conn = c := by simpa using heq
            exact hc
  | resume l r client conn hh =>
      refine ⟨by simp [PoolLabel.acquires, or_comm, eq_comm], fun heq hmem => ?_⟩
      obtain rfl : conn = c := by simpa [PoolLabel.acquires] using heq
      refine hp.2.1.2.2 conn hmem conn (List.mem_append_right _ ?_) rfl
      simp [hh]
  | release l r client conn hh =>
      have hheld := hp.2.1.1
      rw [hh] at hheld
      simp only [List.map_append, List.map_cons, List.nodup_append, List.nodup_cons, List.mem_cons] at hheld
      refine ⟨?_, fun heq => by simp [PoolLabel.acquires] at heq⟩
      rw [hh]
      simp only [PoolLabel.acquires, List.map_append, List.map_cons, List.mem_append, List.mem_cons,
        PoolLabel.release.injEq, reduceCtorEq, false_or, ne_eq]
      constructor
      · rintro (hl | hr)
        · refine ⟨Or.inl hl, ?_⟩
          rintro g ⟨-, rfl⟩
          exact hheld.2.2 conn hl conn (Or.inl rfl) rfl
        · refine ⟨Or.inr (Or.inr hr), ?_⟩
          rintro g ⟨-, rfl⟩
          exact hheld.2.1.1 hr
      · rintro ⟨hl | rfl | hr, hne⟩
        · exact Or.inl hl
        · exact absurd ⟨rfl, rfl⟩ (hne client)
        · exact Or.inr hr
  | returnTurn l r conn hr =>
      refine ⟨?_, fun heq => by simp [PoolLabel.acquires] at heq⟩
      simp only [Pool.returnTurn, PoolLabel.acquires]
      split <;> simp

theorem Session.Inv.init (n : Nat) : (Session.init n).Inv n where
  reachable := Reachable.of_init rfl
  held c hc := by simp [Session.init, Pool.init_eq, Pool.empty] at hc
  free c _ := rfl

/-- **Benign steps keep the invariant.** -/
theorem Session.Inv.step {n : Nat} {s t : Session} {lab : SessionLabel} (h : s.Inv n) (hstep : Session.Step s lab t)
    (hb : lab.benign = true) : t.Inv n := by
  cases hstep with
  | pool lab q hp hleft =>
      have hmem := fun c => hp.mem_held (Pool.places_nodup h.reachable) c
      refine ⟨h.reachable.step hp, fun c hc => ?_, fun c hc => ?_⟩
      · rcases (hmem c).1.mp hc with hacq | ⟨hheld, -⟩
        · simp only [hacq, if_true]
          exact h.free c ((hmem c).2 hacq)
        · have hacq : lab.acquires s.pool ≠ some c := fun hacq => (hmem c).2 hacq hheld
          simp only [hacq, if_false]
          exact h.held c hheld
      · by_cases hheld : c ∈ s.pool.held.map Prod.snd
        · -- the connection was held before: it is the one released, by a call that has been left
          have hrel : ∃ g, lab = .release g c := by
            by_contra hno
            push Not at hno
            exact hc ((hmem c).1.mpr (Or.inr ⟨hheld, hno⟩))
          obtain ⟨g, rfl⟩ := hrel
          exact (h.held c hheld).trans (ExecPhase.expects_of_left (hleft g c rfl))
        · exact h.free c hheld
  | exec c lab phase state hheld hexec =>
      refine ⟨h.reachable, fun c' hc' => ?_, fun c' hc' => ?_⟩
      · by_cases hcc : c' = c
        · subst hcc
          simp only [Function.update_self]
          exact hexec.expects hb (h.held c' hheld)
        · simp only [Function.update_of_ne hcc]
          exact h.held c' hc'
      · have hcc : c' ≠ c := fun heq => hc' (heq ▸ hheld)
        simp only [Function.update_of_ne hcc]
        exact h.free c' hc'

/-! ## Usable connections -/

/-- What `GetConnection` owes its callers: every connection in `pool_` or on its way to a waiter, and every one that
a call is about to send on, is idle. -/
structure Session.Usable (s : Session) : Prop where
  pool_ : ∀ c ∈ s.pool.pool_, s.conn c = .idle
  handed : ∀ c ∈ s.pool.handed.map Prod.snd, s.conn c = .idle
  acquired : ∀ c ∈ s.pool.held.map Prod.snd, s.phase c = .acquired → s.conn c = .idle

theorem Session.Inv.isUsable {n : Nat} {s : Session} (h : s.Inv n) : s.Usable := by
  have hp := Pool.places_nodup h.reachable
  simp only [Pool.places, List.nodup_append, List.append_assoc] at hp
  refine ⟨fun c hc => h.free c fun hheld => ?_, fun c hc => h.free c fun hheld => ?_, fun c hc hphase => ?_⟩
  · exact hp.2.2 c hc c (List.mem_append_left _ hheld) rfl
  · exact hp.2.1.2.2 c hheld c (List.mem_append_right _ hc) rfl
  · rw [h.held c hc, hphase]
    rfl

/-- **Usable connections.** For every pool size and every run in which no wait throws, no `PQconsumeInput` fails and
no connection is dropped (whatever the server answers and whichever sends fail), every state reached hands out idle
connections only. -/
theorem Session.usable (n : Nat) (labs : List SessionLabel) (s : Session)
    (hrun : Run (Session.system n) (Session.init n) labs s) (hbenign : ∀ lab ∈ labs, lab.benign = true) :
    s.Usable := by
  have hkept : ∀ s lab t, lab.benign = true → Session.Inv n s → (Session.system n).step s lab t → t.Inv n :=
    fun s lab t hb h hstep => h.step hstep hb
  exact (hrun.invariant_of hkept hbenign (Session.Inv.init n)).isUsable

/-- One statement answered by an error result, whose connection is back in `pool_`. -/
theorem Session.usable_after_error : ∃ labs s, Run (Session.system 1) (Session.init 1) labs s ∧
    s.pool.pool_ = [0] ∧ s.phase 0 = .returned (.error ⟨.sqlExecutionError, "duplicate key", "23505"⟩) ∧ s.Usable := by
  have h₀ : Run (Session.system 1) (Session.init 1) [] _ := Run.refl _
  have h₁ := h₀.tail (Step.pool _ (.getConnection 0) _ (Pool.Step.getConnection _ 0) (by simp))
  have h₂ := h₁.tail (Step.pool _ (.getTurn 0) _ (Pool.Step.getTurn _ [] [] 0 rfl) (by simp))
  have h₃ := h₂.tail (Step.exec _ 0 .sendQuery .awaiting .busy (by decide) ExecStep.sendQuery)
  have h₄ := h₃.tail (Step.exec _ 0 .wait .readable .busy (by decide) (ExecStep.wait _))
  have h₅ := h₄.tail (Step.exec _ 0 .notBusy (.fetching none) .busy (by decide) (ExecStep.notBusy _))
  have h₆ := h₅.tail (Step.exec _ 0 (.getResult ⟨.fatalError, [], "duplicate key", some "23505"⟩) _ _ (by decide)
    (ExecStep.getResult _ none _))
  have h₇ := h₆.tail (Step.exec _ 0 .getNull _ .idle (by decide) (ExecStep.getNull .busy _))
  have h₈ := h₇.tail (Step.pool _ (.release 0 0) _ (Pool.Step.release _ [] [] 0 0 rfl) (by rintro _ _ ⟨⟩; rfl))
  have h₉ := h₈.tail (Step.pool _ (.returnTurn 0) _ (Pool.Step.returnTurn _ [] [] 0 rfl) (by simp))
  exact ⟨_, _, h₉, rfl, rfl, Session.usable 1 _ _ h₉ (by decide)⟩

/-! ## A failure that reaches a later request -/

/-- The wait throws after the statement has been sent; the deleter puts the busy connection back into `pool_`. -/
theorem Session.reachable_busy : ∃ s, Reachable (Session.system 1) s ∧ s.pool.pool_ = [0] ∧ s.conn 0 = .busy := by
  have h₀ : Reachable (Session.system 1) (Session.init 1) := Reachable.of_init rfl
  have h₁ := h₀.step (Step.pool _ (.getConnection 0) _ (Pool.Step.getConnection _ 0) (by simp))
  have h₂ := h₁.step (Step.pool _ (.getTurn 0) _ (Pool.Step.getTurn _ [] [] 0 rfl) (by simp))
  have h₃ := h₂.step (Step.exec _ 0 .sendQuery .awaiting .busy (by decide) ExecStep.sendQuery)
  have h₄ := h₃.step (Step.exec _ 0 (.waitThrows "read error") (.threw "read error") .busy (by decide)
    (ExecStep.waitThrows _ _))
  have h₅ := h₄.step (Step.pool _ (.release 0 0) _ (Pool.Step.release _ [] [] 0 0 rfl) (by rintro _ _ ⟨⟩; rfl))
  have h₆ := h₅.step (Step.pool _ (.returnTurn 0) _ (Pool.Step.returnTurn _ [] [] 0 rfl) (by simp))
  exact ⟨_, h₆, rfl, rfl⟩

theorem Session.not_usable :
    ¬ ∀ (n : Nat) (s : Session), 0 < n → Reachable (Session.system n) s → s.Usable := by
  intro hall
  obtain ⟨s, hs, hpool, hbusy⟩ := Session.reachable_busy
  have hidle := (hall 1 s Nat.one_pos hs).pool_ 0 (by simp [hpool])
  rw [hbusy] at hidle
  cases hidle

end PhotonCommerce.Infrastructure
