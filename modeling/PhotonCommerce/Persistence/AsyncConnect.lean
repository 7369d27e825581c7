import Mathlib.Data.List.Basic

/-!
# `AsyncConnect` and libpq's polling protocol

libpq asks its caller to wait, before each `PQconnectPoll`, until the descriptor `PQsocket` returns is ready for what
the previous call asked for, and for writing before the first one.

* `Polling`, `Poll`, `Connecting` : how libpq answers during one connection attempt;
* `asyncConnect` : the waits and polls of `AsyncConnect`, and how it ends;
* `WaitsBefore` : every poll comes after the wait the protocol asks for;
* `FollowsProtocol` : the waits, when it returns and throws, and the descriptor it leaves in `socket_`;
* `loopFollows_iff`, `follows_iff` : no attempt follows it that polls at all; after its first poll one does exactly
  when libpq keeps its descriptor.
-/

namespace PhotonCommerce.Infrastructure

/-! ## libpq -/

/-- `PostgresPollingStatusType`. -/
inductive Polling where
  | failed
  | reading
  | writing
  | ok
  | active
  deriving DecidableEq, Repr

/-- What a descriptor is waited for. -/
inductive Readiness where
  | waitRead
  | waitWrite
  deriving DecidableEq, Repr

/-- What an answer asks the caller to wait for. -/
def Polling.asks : Polling → Option Readiness
  | .reading => some .waitRead
  | .writing => some .waitWrite
  | _ => none

/-- A call of `PQconnectPoll`: its answer and what `PQsocket` returns after it. -/
structure Poll where
  answer : Polling
  socket : Int
  deriving DecidableEq, Repr

/-- libpq during one attempt. -/
structure Connecting where
  /-- `PQsocket` after `PQconnectStart`; `none` when that gives null or `CONNECTION_BAD`. -/
  start : Option Int
  /-- The calls of `PQconnectPoll` that can be made; each of them answers. -/
  polls : List Poll
  polls_ne : polls ≠ []
  /-- `PQerrorMessage`. -/
  errorMessage : String

/-! ## `AsyncConnect` -/

/-- What `AsyncConnect` does with the descriptor and with libpq. -/
inductive ConnectEvent where
  | asyncWait (socket : Int) (ready : Readiness)
  | poll (p : Poll)
  deriving DecidableEq, Repr

/-- How `AsyncConnect` stands: left, or in a wait. -/
inductive ConnectOutcome where
  | returned
  | threw (what : String)
  | suspended
  deriving DecidableEq, Repr

/-- The loop of `PQConnection::AsyncConnect`, with the descriptor in `socket_`. -/
def connectLoop (errorMessage : String) (socket_ : Int) : List Poll → List ConnectEvent × ConnectOutcome
  | [] => ([], .suspended)
  | p :: polls =>
      match p.answer with
      | .writing =>
          let (events, outcome) := connectLoop errorMessage socket_ polls
          (.poll p :: .asyncWait socket_ .waitWrite :: events, outcome)
      | .reading =>
          let (events, outcome) := connectLoop errorMessage socket_ polls
          (.poll p :: .asyncWait socket_ .waitRead :: events, outcome)
      | .ok => ([.poll p], .returned)
      | .failed => ([.poll p], .threw ("Async connection failed: " ++ errorMessage))
      | .active => ([.poll p], .threw ("Async connection failed: " ++ errorMessage))

/-- `PQConnection::AsyncConnect`: `socket_` is assigned once, after `PQconnectStart`. -/
def asyncConnect (c : Connecting) : List ConnectEvent × ConnectOutcome :=
  match c.start with
  | none => ([], .threw ("Connection failed: " ++ c.errorMessage))
  | some socket => connectLoop c.errorMessage socket c.polls

/-! ## The protocol -/

/-- Every poll comes right after a wait on the current descriptor for what was asked. -/
def WaitsBefore (socket : Int) (asked : Option Readiness) (waited : Option (Int × Readiness)) :
    List ConnectEvent → Prop
  | [] => True
  | .asyncWait s ready :: events => WaitsBefore socket asked (some (s, ready)) events
  | .poll p :: events =>
      (∃ ready, asked = some ready ∧ waited = some (socket, ready)) ∧ WaitsBefore p.socket p.answer.asks none events

/-- What `PQsocket` returns after some events. -/
def currentSocket (socket : Int) : List ConnectEvent → Int
  | [] => socket
  | .asyncWait _ _ :: events => currentSocket socket events
  | .poll p :: events => currentSocket p.socket events

/-- A poll with this answer was made. -/
def Answered (events : List ConnectEvent) (answer : Polling) : Prop := ∃ p, .poll p ∈ events ∧ p.answer = answer

/-- How an attempt has to end, and with which descriptor. -/
structure EndsWell (c : Connecting) : Prop where
  returns : (asyncConnect c).2 = .returned ↔ Answered (asyncConnect c).1 .ok
  throws : (∃ what, (asyncConnect c).2 = .threw what) ↔ c.start = none ∨ Answered (asyncConnect c).1 .failed
  current : ∀ socket, c.start = some socket → (asyncConnect c).2 = .returned →
    currentSocket socket (asyncConnect c).1 = socket

/-- **The polling protocol**, with a wait before the first poll too. -/
structure FollowsProtocol (c : Connecting) : Prop extends EndsWell c where
  waits : ∀ socket, c.start = some socket → WaitsBefore socket (some .waitWrite) none (asyncConnect c).1

/-- The protocol after the first poll. -/
structure FollowsAfterFirst (c : Connecting) : Prop extends EndsWell c where
  waits : ∀ socket, c.start = some socket →
    WaitsBefore socket (some .waitWrite) (some (socket, .waitWrite)) (asyncConnect c).1

/-- libpq keeps its descriptor up to the next poll or the answer `PGRES_POLLING_OK`, and gives no answer that is not
in use. -/
def KeepsSocket (socket : Int) : List Poll → Prop
  | [] => True
  | p :: polls =>
      match p.answer with
      | .writing => (polls ≠ [] → p.socket = socket) ∧ KeepsSocket socket polls
      | .reading => (polls ≠ [] → p.socket = socket) ∧ KeepsSocket socket polls
      | .ok => p.socket = socket
      | .failed => True
      | .active => False

/-! ## Runs -/

section Loop
variable (errorMessage : String) (socket : Int) (polls : List Poll)

/-- What a poll does to the rest of the loop: it ends it, or a wait for what it asked comes next. -/
theorem connectLoop_cons (p : Poll) : (∃ ready, p.answer.asks = some ready ∧
      connectLoop errorMessage socket (p :: polls) =
        (.poll p :: .asyncWait socket ready :: (connectLoop errorMessage socket polls).1,
          (connectLoop errorMessage socket polls).2)) ∨
    (p.answer = .ok ∧ connectLoop errorMessage socket (p :: polls) = ([.poll p], .returned)) ∨
    ((p.answer = .failed ∨ p.answer = .active) ∧ connectLoop errorMessage socket (p :: polls) =
      ([.poll p], .threw ("Async connection failed: " ++ errorMessage))) := by
  obtain ⟨answer, s⟩ := p
  cases answer with
  | writing => exact .inl ⟨.waitWrite, rfl, rfl⟩
  | reading => exact .inl ⟨.waitRead, rfl, rfl⟩
  | ok => exact .inr (.inl ⟨rfl, rfl⟩)
  | failed => exact .inr (.inr ⟨.inl rfl, rfl⟩)
  | active => exact .inr (.inr ⟨.inr rfl, rfl⟩)

variable {errorMessage socket polls}

theorem answered_cons_of_asks {p : Poll} {ready : Readiness} {events : List ConnectEvent} {answer : Polling}
    (hasks : p.answer.asks = some ready) (hanswer : answer.asks = none) :
    Answered (.poll p :: .asyncWait socket ready :: events) answer ↔ Answered events answer := by
  constructor
  · intro h
    obtain ⟨q, hq, hqa⟩ := h
    simp only [List.mem_cons, ConnectEvent.poll.injEq, reduceCtorEq, false_or] at hq
    rcases hq with rfl | hq
    · rw [hqa, hanswer] at hasks
      cases hasks
    · exact ⟨q, hq, hqa⟩
  · intro h
    obtain ⟨q, hq, hqa⟩ := h
    exact ⟨q, List.mem_cons_of_mem _ (List.mem_cons_of_mem _ hq), hqa⟩

theorem answered_singleton {p : Poll} {answer : Polling} : Answered [.poll p] answer ↔ p.answer = answer := by
  simp [Answered]

/-- What the protocol asks of the loop when the wait it comes from was on `socket_` and the descriptor is `current`. -/
structure LoopFollows (errorMessage : String) (socket_ current : Int) (asked : Readiness) (polls : List Poll) :
    Prop where
  waits : WaitsBefore current (some asked) (some (socket_, asked)) (connectLoop errorMessage socket_ polls).1
  returns : (connectLoop errorMessage socket_ polls).2 = .returned ↔
    Answered (connectLoop errorMessage socket_ polls).1 .ok
  throws : (∃ what, (connectLoop errorMessage socket_ polls).2 = .threw what) ↔
    Answered (connectLoop errorMessage socket_ polls).1 .failed
  current : (connectLoop errorMessage socket_ polls).2 = .returned →
    currentSocket current (connectLoop errorMessage socket_ polls).1 = socket_

theorem waited_iff {current : Int} {asked : Readiness} :
    (∃ ready, some asked = some ready ∧ some (socket, asked) = some (current, ready)) ↔ current = socket := by
  simp [eq_comm]

/-- A poll that asks for a wait leaves the rest of the loop with the descriptor of that moment. -/
theorem loopFollows_cons_of_asks {p : Poll} {ready asked : Readiness} {current : Int}
    (hasks : p.answer.asks = some ready)
    (hloop : connectLoop errorMessage socket (p :: polls) =
      (.poll p :: .asyncWait socket ready :: (connectLoop errorMessage socket polls).1,
        (connectLoop errorMessage socket polls).2)) :
    LoopFollows errorMessage socket current asked (p :: polls) ↔
      current = socket ∧ LoopFollows errorMessage socket p.socket ready polls := by
  constructor
  · intro h
    obtain ⟨hwaits, hreturns, hthrows, hcurrent⟩ := h
    rw [hloop] at hwaits hreturns hthrows hcurrent
    obtain ⟨hwaited, hwaits⟩ := hwaits
    rw [hasks] at hwaits
    rw [answered_cons_of_asks hasks rfl] at hreturns hthrows
    exact ⟨waited_iff.mp hwaited, hwaits, hreturns, hthrows, hcurrent⟩
  · intro h
    obtain ⟨rfl, hwaits, hreturns, hthrows, hcurrent⟩ := h
    refine ⟨?_, ?_, ?_, ?_⟩
    · rw [hloop]
      refine ⟨waited_iff.mpr rfl, ?_⟩
      rw [hasks]
      exact hwaits
    · rw [hloop, answered_cons_of_asks hasks rfl]
      exact hreturns
    · rw [hloop, answered_cons_of_asks hasks rfl]
      exact hthrows
    · rw [hloop]
      exact hcurrent

/-- **The loop follows the protocol** exactly while libpq keeps the descriptor `socket_` was assigned. -/
theorem loopFollows_iff {current : Int} {asked : Readiness} :
    LoopFollows errorMessage socket current asked polls ↔
      (polls ≠ [] → current = socket) ∧ KeepsSocket socket polls := by
  induction polls generalizing current asked with
  | nil =>
      refine ⟨fun _ => ⟨fun h => absurd rfl h, trivial⟩, fun _ => ⟨trivial, ?_, ?_, ?_⟩⟩
      · simp [connectLoop, Answered]
      · simp [connectLoop, Answered]
      · simp [connectLoop]
  | cons p polls ih =>
      rcases connectLoop_cons errorMessage socket polls p with ⟨ready, hasks, hloop⟩ | ⟨hok, hloop⟩ | ⟨hfail, hloop⟩
      · have hkeeps : KeepsSocket socket (p :: polls) ↔
            (polls ≠ [] → p.socket = socket) ∧ KeepsSocket socket polls := by
          cases hp : p.answer with
          | writing => simp only [KeepsSocket, hp]
          | reading => simp only [KeepsSocket, hp]
          | ok | failed | active => simp [Polling.asks, hp] at hasks
        rw [loopFollows_cons_of_asks hasks hloop, ih, hkeeps]
        simp
      · have hkeeps : KeepsSocket socket (p :: polls) ↔ p.socket = socket := by simp only [KeepsSocket, hok]
        rw [hkeeps]
        constructor
        · intro h
          obtain ⟨hwaits, -, -, hcurrent⟩ := h
          rw [hloop] at hwaits hcurrent
          exact ⟨fun _ => waited_iff.mp hwaits.1, hcurrent rfl⟩
        · intro h
          refine ⟨?_, ?_, ?_, ?_⟩
          · rw [hloop]
            exact ⟨waited_iff.mpr (h.1 (List.cons_ne_nil _ _)), trivial⟩
          · simp [hloop, answered_singleton, hok]
          · simp [hloop, answered_singleton, hok]
          · rw [hloop]
            exact fun _ => h.2
      · have hkeeps : KeepsSocket socket (p :: polls) ↔ p.answer = .failed := by
          rcases hfail with hfailed | hactive
          · simp only [KeepsSocket, hfailed]
          · simp [KeepsSocket, hactive]
        rw [hkeeps]
        constructor
        · intro h
          obtain ⟨hwaits, -, hthrows, -⟩ := h
          rw [hloop] at hwaits hthrows
          exact ⟨fun _ => waited_iff.mp hwaits.1, answered_singleton.mp (hthrows.mp ⟨_, rfl⟩)⟩
        · intro h
          refine ⟨?_, ?_, ?_, ?_⟩
          · rw [hloop]
            exact ⟨waited_iff.mpr (h.1 (List.cons_ne_nil _ _)), trivial⟩
          · simp [hloop, answered_singleton, h.2]
          · simp [hloop, answered_singleton, h.2]
          · simp [hloop]

/-- The first poll comes before every wait. -/
theorem not_waitsBefore (h : polls ≠ []) (asked : Option Readiness) :
    ¬ WaitsBefore socket asked none (connectLoop errorMessage socket polls).1 := by
  cases polls with
  | nil => exact absurd rfl h
  | cons p polls =>
      rcases connectLoop_cons errorMessage socket polls p with ⟨ready, -, hloop⟩ | ⟨-, hloop⟩ | ⟨-, hloop⟩
      all_goals
        rw [hloop]
        intro hwaits
        obtain ⟨⟨ready, -, hnone⟩, -⟩ := hwaits
        cases hnone

end Loop

theorem endsWell_of_failed {c : Connecting} (h : c.start = none) : EndsWell c := by
  refine ⟨?_, ?_, ?_⟩
  · simp [asyncConnect, h, Answered]
  · simp [asyncConnect, h]
  · intro socket hstart
    rw [h] at hstart
    cases hstart

/-- After the first poll the claim on an attempt is the one on its loop. -/
theorem followsAfterFirst_iff_loop {c : Connecting} {socket : Int} (hstart : c.start = some socket) :
    FollowsAfterFirst c ↔ LoopFollows c.errorMessage socket socket .waitWrite c.polls := by
  have hrun : asyncConnect c = connectLoop c.errorMessage socket c.polls := by rw [asyncConnect, hstart]
  constructor
  · intro h
    obtain ⟨⟨hreturns, hthrows, hcurrent⟩, hwaits⟩ := h
    rw [hrun, hstart] at hthrows
    rw [hrun] at hreturns
    refine ⟨?_, hreturns, ?_, ?_⟩
    · rw [← hrun]
      exact hwaits socket hstart
    · rw [hthrows]
      simp
    · rw [← hrun]
      exact hcurrent socket hstart
  · intro h
    obtain ⟨hwaits, hreturns, hthrows, hcurrent⟩ := h
    rw [← hrun] at hwaits hreturns hthrows hcurrent
    refine ⟨⟨hreturns, ?_, fun s hs => ?_⟩, fun s hs => ?_⟩
    · rw [hthrows, hstart]
      simp
    · obtain rfl := Option.some.inj (hstart.symm.trans hs)
      exact hcurrent
    · obtain rfl := Option.some.inj (hstart.symm.trans hs)
      exact hwaits

/-- **`AsyncConnect` and the polling protocol.** Only an attempt that fails at `PQconnectStart` follows it: the first
poll is never waited for. After its first poll an attempt follows it exactly when libpq keeps the descriptor. -/
theorem follows_iff (c : Connecting) : (FollowsProtocol c ↔ c.start = none) ∧
    (∀ socket, c.start = some socket → (FollowsAfterFirst c ↔ KeepsSocket socket c.polls)) := by
  constructor
  · constructor
    · intro h
      cases hstart : c.start with
      | none => rfl
      | some socket =>
          have hwaits := h.waits socket hstart
          rw [asyncConnect, hstart] at hwaits
          exact absurd hwaits (not_waitsBefore c.polls_ne _)
    · intro h
      refine ⟨endsWell_of_failed h, fun socket hstart => ?_⟩
      rw [h] at hstart
      cases hstart
  · intro socket hstart
    rw [followsAfterFirst_iff_loop hstart, loopFollows_iff]
    exact and_iff_right fun _ => rfl

/-- An attempt in which libpq changes to a second address. -/
def secondAddress : Connecting where
  start := some 7
  polls := [⟨.writing, 7⟩, ⟨.writing, 8⟩, ⟨.reading, 8⟩, ⟨.ok, 8⟩]
  polls_ne := by decide
  errorMessage := ""

/-- The first poll comes at once, the waits stay on the first descriptor, and so does `socket_`. -/
theorem secondAddress_not_follows :
    asyncConnect secondAddress = ([.poll ⟨.writing, 7⟩, .asyncWait 7 .waitWrite, .poll ⟨.writing, 8⟩,
      .asyncWait 7 .waitWrite, .poll ⟨.reading, 8⟩, .asyncWait 7 .waitRead, .poll ⟨.ok, 8⟩], .returned) ∧
    currentSocket 7 (asyncConnect secondAddress).1 = 8 ∧ ¬ FollowsProtocol secondAddress := by
  refine ⟨rfl, rfl, fun h => ?_⟩
  exact absurd (h.current 7 rfl rfl) (by decide)

end PhotonCommerce.Infrastructure
