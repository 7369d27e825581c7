import PhotonCommerce.Lib.FirstError
import PhotonCommerce.Lib.Rotation
import PhotonCommerce.Lib.Transition
import PhotonCommerce.Storage.RedisClient

/-!
# The connections of `RedisClient`

* `RedisClient.make`, `RedisClient.ping`, `RedisClient.init` : the pool of connections at the start of the program;
  `RedisClient.init_eq_error_iff` : the first connection that does not answer `PONG` stops it;
* `RedisPool` : the counter of `GetNextConnection` and the calls of `Set` and `Get` under way;
* `RedisPool.system` : every interleaving of the calls with the strands of the connections;
* `RedisPool.balanced` : each call is at one place, on the connection of its turn, and the connections share the calls.
-/

namespace PhotonCommerce.Infrastructure
open FirstError Transition

/-! ## The start -/

namespace RedisClient

/-- The constructor of `RedisClient`: how many connections it makes. -/
def make (poolSize : Int) : Except String Nat :=
  if poolSize ≤ 0 then .error ("Invalid Redis pool size: " ++ toString poolSize ++ ". Must be positive.")
  else .ok poolSize.toNat

/-- `RedisClient::Ping`, with what `async_exec` gives or throws. -/
def ping (answer : Except String RedisReply) : Except RedisError Unit :=
  match answer with
  | .error what => .error ⟨.systemError, "Redis PING exception: " ++ what⟩
  | .ok reply =>
      match extractResult reply "PING" "Init" with
      | .error e => .error e
      | .ok value =>
          if value = some "PONG" then .ok ()
          else .error ⟨.protocolError, "Redis PING protocol error. Expected 'PONG', got '" ++ value.getD "NULL" ++ "'"⟩

/-- The text `Init` throws for connection `i`. -/
def initFailed (i : Nat) (e : RedisError) : String :=
  "Redis Pool Init failed at connection [" ++ toString i ++ "]: " ++ e.message

/-- `RedisClient::Init`, with the answers of the connections: they are pinged in order. -/
def init (answers : List (Except String RedisReply)) : Except String Unit :=
  answers.zipIdx.forM fun p => (ping p.1).mapError (initFailed p.2)

/-- A connection answers as it should: `PONG`, as a simple or as a blob string. -/
def Pong (answer : Except String RedisReply) : Prop :=
  answer = .ok (.simpleString "PONG") ∨ answer = .ok (.blobString "PONG")

theorem ping_eq_ok_iff {answer : Except String RedisReply} : ping answer = .ok () ↔ Pong answer := by
  unfold ping Pong
  cases answer with
  | error what => simp
  | ok reply =>
      cases reply with
      | simpleString value =>
          simp only [extractResult, Option.some.injEq]
          split_ifs with h
          · simp [h]
          · simp [h]
      | blobString value =>
          simp only [extractResult, Option.some.injEq]
          split_ifs with h
          · simp [h]
          · simp [h]
      | _ => simp [extractResult]

theorem ping_mapError_eq_ok_iff {answer : Except String RedisReply} {i : Nat} :
    (ping answer).mapError (initFailed i) = .ok () ↔ Pong answer := by
  rw [← ping_eq_ok_iff]
  cases ping answer with
  | error e => simp [Except.mapError]
  | ok u => simp [Except.mapError]

/-- **The first connection that does not answer stops the start**: the text names it and says why; the connections
before it have answered, those after it are not asked. -/
theorem init_eq_error_iff {answers : List (Except String RedisReply)} {what : String} :
    init answers = .error what ↔ ∃ l answer r e, answers = l ++ answer :: r ∧ (∀ a ∈ l, Pong a) ∧
      ping answer = .error e ∧ what = initFailed l.length e := by
  rw [init, forM_eq_error_iff, head?_errors_iff]
  constructor
  · intro h
    obtain ⟨l, ⟨answer, i⟩, r, hsplit, hl, hanswer⟩ := h
    -- the index of a connection is how many come before it
    have hlist : answers = l.map Prod.fst ++ answer :: r.map Prod.fst := by
      have hmap := congrArg (List.map Prod.fst) hsplit
      rw [List.zipIdx_map_fst] at hmap
      simpa using hmap
    have hi : i = l.length := by
      have hmem : answers.zipIdx[l.length]? = some (answer, i) := by rw [hsplit]; simp
      rw [List.getElem?_zipIdx, Option.map_eq_some_iff] at hmem
      obtain ⟨a, -, hpair⟩ := hmem
      have hidx := congrArg Prod.snd hpair
      simpa using hidx.symm
    cases hping : ping answer with
    | ok u => simp [hping, Except.mapError] at hanswer
    | error e =>
        simp only [hping, Except.mapError, Except.error.injEq] at hanswer
        refine ⟨_, answer, _, e, hlist, ?_, hping, ?_⟩
        · intro a ha
          obtain ⟨p, hp, rfl⟩ := List.mem_map.mp ha
          obtain ⟨u, hu⟩ := hl p hp
          exact ping_mapError_eq_ok_iff.mp hu
        · rw [List.length_map, ← hi, hanswer]
  · intro h
    obtain ⟨l, answer, r, e, rfl, hl, hanswer, rfl⟩ := h
    refine ⟨l.zipIdx, (answer, l.length), r.zipIdx (l.length + 1), ?_, fun p hp => ⟨(), ?_⟩, ?_⟩
    · rw [List.zipIdx_append, List.zipIdx_cons, Nat.zero_add]
    · exact ping_mapError_eq_ok_iff.mpr (hl _ (List.mem_of_getElem? (List.mem_zipIdx_iff_getElem?.mp hp)))
    · simp only [hanswer, Except.mapError]

end RedisClient

/-! ## The turns of the connections -/

/-- A call of `Set` or `Get`. -/
abbrev RedisRequest := Nat

/-- The counter and the calls that have taken a connection, each with its index. -/
structure RedisPool where
  /-- `request_counter_`, a `size_t`. -/
  requestCounter_ : UInt64
  /-- Calls that have taken a connection and not yet posted to its strand. -/
  chosen : List (RedisRequest × Nat)
  /-- Calls posted to the strand of their connection, in order. -/
  posted : List (RedisRequest × Nat)
  /-- Calls in `async_exec`. -/
  executing : List (RedisRequest × Nat)
  /-- Calls that were answered. -/
  answered : List (RedisRequest × Nat)
  deriving DecidableEq

def RedisPool.fresh : RedisPool := ⟨0, [], [], [], []⟩

/-- `RedisClient::GetNextConnection` on `size` connections: the index, and the counter after `fetch_add`. -/
def RedisPool.getNextConnection (size : Nat) (requestCounter_ : UInt64) : Nat × UInt64 :=
  (requestCounter_.toNat % size, requestCounter_ + 1)

inductive RedisPoolLabel where
  | getNextConnection (request : RedisRequest)
  | post (request : RedisRequest)
  | asyncExec (request : RedisRequest)
  | answer (request : RedisRequest)
  deriving DecidableEq, Repr

/-- One step of a call or of a strand. -/
inductive RedisPool.Step (size : Nat) : RedisPool → RedisPoolLabel → RedisPool → Prop where
  | getNextConnection (p : RedisPool) (request : RedisRequest) :
      Step size p (.getNextConnection request) { p with
        requestCounter_ := (RedisPool.getNextConnection size p.requestCounter_).2
        chosen := p.chosen ++ [(request, (RedisPool.getNextConnection size p.requestCounter_).1)] }
  | post (p : RedisPool) (l r) (request : RedisRequest) (conn : Nat) (hp : p.chosen = l ++ (request, conn) :: r) :
      Step size p (.post request) { p with chosen := l ++ r, posted := p.posted ++ [(request, conn)] }
  /-- The strand of a connection runs the calls posted to it in order. -/
  | asyncExec (p : RedisPool) (l r) (request : RedisRequest) (conn : Nat) (hp : p.posted = l ++ (request, conn) :: r)
      (hfirst : ∀ c ∈ l, c.2 ≠ conn) :
      Step size p (.asyncExec request) { p with posted := l ++ r, executing := p.executing ++ [(request, conn)] }
  | answer (p : RedisPool) (l r) (request : RedisRequest) (conn : Nat)
      (hp : p.executing = l ++ (request, conn) :: r) :
      Step size p (.answer request) { p with executing := l ++ r, answered := p.answered ++ [(request, conn)] }

/-- The calls on `size` connections. -/
def RedisPool.system (size : Nat) : Lts RedisPool RedisPoolLabel where
  init p := p = .fresh
  step := RedisPool.Step size

/-- All calls, wherever they stand. -/
def RedisPool.calls (p : RedisPool) : List (RedisRequest × Nat) := p.chosen ++ p.posted ++ p.executing ++ p.answered

/-- The call that takes a connection in a step. -/
def RedisPoolLabel.request : RedisPoolLabel → List RedisRequest
  | .getNextConnection request => [request]
  | _ => []

/-- Calls in the order of their turns, each with the connection of its turn. -/
def byTurn (size : Nat) (requests : List RedisRequest) : List (RedisRequest × Nat) :=
  requests.zipIdx.map fun p => (p.1, Rotation.slot (2 ^ 64) size p.2)

section Balanced
variable {size : Nat} {p q : RedisPool} {lab : RedisPoolLabel}

/-- A step moves a call or adds one. -/
theorem RedisPool.Step.calls (h : RedisPool.Step size p lab q) :
    q.calls.Perm (p.calls ++ lab.request.map fun r => (r, p.requestCounter_.toNat % size)) := by
  refine List.perm_iff_count.mpr fun c => ?_
  cases h with
  | getNextConnection request =>
      simp only [RedisPool.calls, RedisPool.getNextConnection, RedisPoolLabel.request, List.map_cons, List.map_nil,
        List.count_append]
      omega
  | post l r request conn hp =>
      simp only [RedisPool.calls, hp, RedisPoolLabel.request, List.map_nil, List.count_append, List.count_cons,
        List.count_nil]
      omega
  | asyncExec l r request conn hp hfirst =>
      simp only [RedisPool.calls, hp, RedisPoolLabel.request, List.map_nil, List.count_append, List.count_cons,
        List.count_nil]
      omega
  | answer l r request conn hp =>
      simp only [RedisPool.calls, hp, RedisPoolLabel.request, List.map_nil, List.count_append, List.count_cons,
        List.count_nil]
      omega

/-- The counter counts the turns, in 64 bits. -/
theorem RedisPool.Step.counter (h : RedisPool.Step size p lab q) :
    q.requestCounter_.toNat = (p.requestCounter_.toNat + lab.request.length) % 2 ^ 64 := by
  have hlt : p.requestCounter_.toNat % 2 ^ 64 = p.requestCounter_.toNat :=
    Nat.mod_eq_of_lt (UInt64.toNat_lt p.requestCounter_)
  cases h with
  | getNextConnection request => exact UInt64.toNat_add p.requestCounter_ 1
  | post l r request conn hp => exact hlt.symm
  | asyncExec l r request conn hp hfirst => exact hlt.symm
  | answer l r request conn hp => exact hlt.symm

theorem byTurn_concat (requests : List RedisRequest) (r : RedisRequest) : byTurn size (requests ++ [r]) =
    byTurn size requests ++ [(r, requests.length % 2 ^ 64 % size)] := by
  simp [byTurn, List.zipIdx_append, Rotation.slot]

/-- Along a run each call takes the connection of its turn. -/
theorem RedisPool.run_calls {labs : List RedisPoolLabel} (hrun : Run (RedisPool.system size) .fresh labs p) :
    p.calls.Perm (byTurn size (labs.flatMap RedisPoolLabel.request)) ∧
      p.requestCounter_.toNat = (labs.flatMap RedisPoolLabel.request).length % 2 ^ 64 := by
  induction hrun with
  | refl => exact ⟨List.Perm.refl _, rfl⟩
  | tail _ hstep ih =>
      obtain ⟨hcalls, hcounter⟩ := ih
      rw [List.flatMap_append, List.flatMap_singleton]
      refine ⟨?_, ?_⟩
      · refine (RedisPool.Step.calls hstep).trans ((hcalls.append_right _).trans (List.Perm.of_eq ?_))
        rw [hcounter]
        cases hstep with
        | getNextConnection request => exact (byTurn_concat _ _).symm
        | post l r request conn hp => simp [RedisPoolLabel.request]
        | asyncExec l r request conn hp hfirst => simp [RedisPoolLabel.request]
        | answer l r request conn hp => simp [RedisPoolLabel.request]
      · rw [RedisPool.Step.counter hstep, hcounter, Nat.mod_add_mod, List.length_append]

/-- How many of the calls have taken connection `i`. -/
def RedisPool.load (p : RedisPool) (i : Nat) : Nat := p.calls.countP fun c => c.2 = i

theorem countP_byTurn (requests : List RedisRequest) (i : Nat) :
    (byTurn size requests).countP (fun c => c.2 = i) = Rotation.load (2 ^ 64) size requests.length i := by
  have hturns : List.range requests.length = requests.zipIdx.map Prod.snd := by
    rw [List.zipIdx_map_snd, List.range_eq_range']
  rw [byTurn, List.countP_map, Rotation.load, hturns, List.countP_map]
  exact List.countP_congr fun p _ => Iff.rfl

/-- **The connections take turns.** In every run of any number of concurrent calls on `size` connections, each call
that has taken a connection is at exactly one place, on the connection of its turn; two connections have been taken
equally often up to one call, and one more for every time the 64-bit counter has wrapped, and up to one call for ever
when `size` is a power of two. -/
theorem RedisPool.balanced {labs : List RedisPoolLabel} (hrun : Run (RedisPool.system size) .fresh labs p) :
    p.calls.Perm (byTurn size (labs.flatMap RedisPoolLabel.request)) ∧
    (∀ i < size, ∀ j < size, p.load i ≤ p.load j + p.calls.length / 2 ^ 64 + 1) ∧
    (size ∣ 2 ^ 64 → ∀ i < size, ∀ j < size, p.load i ≤ p.load j + 1) := by
  obtain ⟨hcalls, -⟩ := RedisPool.run_calls hrun
  have hload : ∀ i, p.load i = Rotation.load (2 ^ 64) size p.calls.length i := by
    intro i
    rw [RedisPool.load, hcalls.countP_eq, countP_byTurn, hcalls.length_eq]
    simp [byTurn]
  refine ⟨hcalls, fun i hi j hj => ?_, fun hdvd i hi j hj => ?_⟩
  · rw [hload, hload]
    exact Rotation.load_le (by decide) hi hj
  · rw [hload, hload]
    exact Rotation.load_le_of_dvd (by decide) hdvd hi hj

/-- Two calls on two connections. -/
theorem RedisPool.balanced_two : ∃ p : RedisPool, p.calls.Perm [(7, 0), (8, 1)] ∧ p.load 0 ≤ p.load 1 + 1 := by
  have hrun : Run (RedisPool.system 2) .fresh [.getNextConnection 7, .getNextConnection 8]
      ⟨2, [(7, 0), (8, 1)], [], [], []⟩ :=
    ((Run.refl (S := RedisPool.system 2) .fresh).tail (.getNextConnection .fresh 7)).tail
      (.getNextConnection ⟨1, [(7, 0)], [], [], []⟩ 8)
  obtain ⟨hcalls, -, hload⟩ := RedisPool.balanced hrun
  exact ⟨_, hcalls, hload (by decide) 0 (by decide) 1 (by decide)⟩

end Balanced

end PhotonCommerce.Infrastructure
