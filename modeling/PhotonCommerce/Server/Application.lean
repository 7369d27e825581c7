import PhotonCommerce.Adapter.Ticket
import PhotonCommerce.Persistence.AsyncConnectionPool
import PhotonCommerce.Server.Shutdown
import PhotonCommerce.Server.Startup

/-!
# `Application`: how the program comes up and goes down

What is thrown in `Run` destroys the `Application` and ends the program with `-1`.

* `Application` : the thread pool, the connection pool and the server; `Application.destroy` : its destructor;
* `main` : what the program does and where it comes to;
* `main_serves_iff`, `main_serves` : when the server comes to serve, and from which states of its parts;
* `main_limits` : the limits in the configuration file bound the RPCs it serves;
* `main_listens_iff` : what has been done when `BuildAndStart` is called;
* `main_undefined_iff` : what becomes of a port that cannot be opened;
* `main_exits_iff`, `main_exits` : when the program ends, and what it leaves.
-/

namespace PhotonCommerce.Server
open Adapter Config Infrastructure FirstError Transition

/-! ## The parts of the program -/

variable {Req Res Rep Md : Type}

/-- `Application`. -/
structure Application (Req Rep Md : Type) where
  threadPool_ : AsioThreadPool
  dbPool_ : Pool
  /-- `StartServer` has been called. -/
  listening : Bool
  server_ : Adapter.Server Req Rep Md

/-- After the constructor. -/
def Application.fresh : Application Req Rep Md := ⟨.fresh, .empty, false, .empty⟩

/-- `UserServiceServer::Shutdown` with no worker thread: the queue is drained. -/
def Application.shutdown (a : Application Req Rep Md) : Application Req Rep Md :=
  if a.listening then { a with server_ := { a.server_ with serverDown := true, cqDown := true, cq := [] } } else a

/-- `AsioThreadPool::Stop`, with all threads joined. -/
def Application.stopThreadPool (a : Application Req Rep Md) : Application Req Rep Md :=
  if a.threadPool_.workGuard_ then
    { a with threadPool_ := { a.threadPool_.stop with asioThreads_ := [], caller := .outside } }
  else a

/-- `Application::~Application`; `none` when it has worker threads to join. -/
def Application.destroy (a : Application Req Rep Md) : Option (Application Req Rep Md) :=
  if a.server_.workers = 0 then some a.shutdown.stopThreadPool else none

/-- Where the program comes to. -/
inductive Ending (Req Rep Md : Type) where
  /-- `main` returns `code`, with a text on `std::cerr`. -/
  | exits (code : Int) (cerr : String) (left : Application Req Rep Md)
  | serves (a : Application Req Rep Md)
  /-- `init_future.get()` waits. -/
  | waits (a : Application Req Rep Md)
  /-- The destructor joins worker threads. -/
  | joins (a : Application Req Rep Md)
  | undefined

/-- `main` leaves the scope of the `Application`. -/
def Application.leave (a : Application Req Rep Md) (code : Int) (cerr : String) : Ending Req Rep Md :=
  match a.destroy with
  | some left => .exits code cerr left
  | none => .joins a

/-- What `catch` writes to `std::cerr`. -/
def criticalError (what : String) : String := "CRITICAL ERROR: " ++ what

/-- Where `main` comes to once `Run` has stopped. -/
def Application.ending (a : Application Req Rep Md) : Option Stop → Ending Req Rep Md
  | none => a.leave 0 ""
  | some (.threw what) => a.leave (-1) (criticalError what)
  | some .waits => .waits a
  | some .undefined => .undefined
  | some .serves => .serves a

section Ending
variable {a b : Application Req Rep Md} {code code' : Int} {cerr cerr' : String} {e : Stop}

theorem Application.leave_ne_serves : a.leave code cerr ≠ .serves b := by
  unfold Application.leave
  split <;> simp

theorem Application.ending_eq_serves {stop : Option Stop} :
    a.ending stop = .serves b ↔ stop = some .serves ∧ a = b := by
  rcases stop with _ | e
  · simpa [Application.ending] using Application.leave_ne_serves
  · cases e with
    | threw what => simpa [Application.ending] using Application.leave_ne_serves
    | waits => simp [Application.ending]
    | undefined => simp [Application.ending]
    | serves => simp [Application.ending]

theorem Application.leave_ne_undefined : a.leave code cerr ≠ .undefined := by
  unfold Application.leave
  split <;> simp

theorem Application.ending_eq_undefined : a.ending (some e) = .undefined ↔ e = .undefined := by
  cases e with
  | threw what => simpa [Application.ending] using Application.leave_ne_undefined
  | waits => simp [Application.ending]
  | undefined => simp [Application.ending]
  | serves => simp [Application.ending]

theorem Application.leave_eq_exits :
    a.leave code cerr = .exits code' cerr' b ↔ code = code' ∧ cerr = cerr' ∧ a.server_.workers = 0 ∧
      a.shutdown.stopThreadPool = b := by
  unfold Application.leave Application.destroy
  by_cases hw : a.server_.workers = 0
  · simp [hw]
  · simp [hw]

theorem Application.ending_eq_exits : a.ending (some e) = .exits code cerr b ↔
    ∃ what, e = .threw what ∧ code = -1 ∧ cerr = criticalError what ∧ a.server_.workers = 0 ∧
      a.shutdown.stopThreadPool = b := by
  cases e with
  | threw what =>
      rw [Application.ending, Application.leave_eq_exits]
      constructor
      · intro h
        obtain ⟨rfl, rfl, hw, hb⟩ := h
        exact ⟨what, rfl, rfl, rfl, hw, hb⟩
      · intro h
        obtain ⟨_, heq, rfl, rfl, hw, hb⟩ := h
        obtain rfl := Stop.threw.inj heq
        exact ⟨rfl, rfl, hw, hb⟩
  | waits => simp [Application.ending]
  | undefined => simp [Application.ending]
  | serves => simp [Application.ending]

@[simp] theorem Application.stopThreadPool_server : a.stopThreadPool.server_ = a.server_ := by
  unfold Application.stopThreadPool
  split <;> rfl

@[simp] theorem Application.stopThreadPool_listening : a.stopThreadPool.listening = a.listening := by
  unfold Application.stopThreadPool
  split <;> rfl

@[simp] theorem Application.shutdown_listening : a.shutdown.listening = a.listening := by
  unfold Application.shutdown
  split <;> rfl

@[simp] theorem Application.shutdown_threadPool : a.shutdown.threadPool_ = a.threadPool_ := by
  unfold Application.shutdown
  split <;> rfl

/-- The thread pool is stopped. -/
theorem Application.run_stopThreadPool {hwConc : Nat} (h : a.threadPool_ = .fresh ∨
    ∃ n ≤ threadCount hwConc, a.threadPool_ = AsioThreadPool.fresh.run n) :
    (∃ labs, Run (AsioThreadPool.system hwConc) .fresh labs a.stopThreadPool.threadPool_) ∧
      a.stopThreadPool.threadPool_.asioThreads_ = [] ∧ a.stopThreadPool.threadPool_.workGuard_ = false := by
  unfold Application.stopThreadPool
  rcases h with h | ⟨n, hn, h⟩
  · have hguard : a.threadPool_.workGuard_ = false := by rw [h]; rfl
    rw [if_neg (by simp [hguard]), h]
    exact ⟨⟨[], Run.refl _⟩, rfl, rfl⟩
  · have hguard : a.threadPool_.workGuard_ = true := by rw [h]; rfl
    rw [if_pos hguard, h]
    obtain ⟨labs, hrun⟩ := AsioThreadPool.run_stop_ends hn
    exact ⟨⟨labs, hrun⟩, rfl, rfl⟩

end Ending

/-! ## `main` -/

variable [Inhabited Req] [Inhabited Rep] [Inhabited Md]

/-- One round of `CallDataManager::Start`. -/
def seedOne (s : Adapter.Server Req Rep Md) (rpc : Rpc) : Adapter.Server Req Rep Md :=
  Server.issue { s with objects := s.objects ++ [CallData.make rpc] } .request s.objects.length

/-- What an action that comes out well changes. -/
def AppAction.apply (a : Application Req Rep Md) :
    AppAction → Application Req Rep Md
  | .workGuard => { a with threadPool_ := { a.threadPool_ with workGuard_ := true } }
  | .asioThread _ =>
      { a with threadPool_ := { a.threadPool_ with asioThreads_ := a.threadPool_.asioThreads_ ++ [.running] } }
  | .ping _ => a
  | .connect i => { a with dbPool_ := { a.dbPool_ with pool_ := a.dbPool_.pool_ ++ [i] } }
  | .buildAndStart => { a with listening := true }
  | .seed rpc => { a with server_ := seedOne a.server_ rpc }
  | .workerThread _ => { a with server_ := { a.server_ with workers := a.server_.workers + 1 } }
  | .wait => a

/-- The parts after some actions. -/
def Application.after (a : Application Req Rep Md) (actions : List AppAction) : Application Req Rep Md :=
  actions.foldl AppAction.apply a

/-- `main`: what `Run` gets done, and where the program comes to. -/
def main (env : Surroundings) : List AppAction × Ending Req Rep Md :=
  match construct env with
  | .error what => ([], .exits (-1) (criticalError what) .fresh)
  | .ok config =>
      let (done, stop) := performed env (applicationRun env.hardwareConcurrency config)
      (done, (Application.fresh.after done).ending stop)

/-! ## What the actions change -/

/-- The server with an object seeded for each of `rpcs`. -/
def seeded (rpcs : List Rpc) : Adapter.Server Req Rep Md :=
  { (Server.empty : Adapter.Server Req Rep Md) with
    objects := rpcs.map CallData.make
    cq := (List.range rpcs.length).map fun o => (.request, o) }

/-- The parts when `server_->Run()` is called. -/
def Application.connected (hwConc : Nat) (config : AppConfig) : Application Req Rep Md where
  threadPool_ := AsioThreadPool.fresh.run (threadCount hwConc)
  dbPool_ := Pool.init config.dbPoolConfig.poolSize.toNat
  listening := false
  server_ := .empty

/-- What the actions of `Run` leave when `server_->Wait()` is called; the steps that worker threads and handlers take in
the meantime are left out. -/
def Application.serving (hwConc : Nat) (config : AppConfig) : Application Req Rep Md :=
  { (Application.connected hwConc config : Application Req Rep Md) with
    listening := true
    server_ := { seeded (seeds config.rpcLimitsConfig) with workers := config.serverConfig.workerThreads.toNat } }

section After
variable {hwConc : Nat} {config : AppConfig} (a : Application Req Rep Md)

@[simp] theorem Application.after_nil : a.after [] = a := rfl

theorem Application.after_cons (x : AppAction) (actions : List AppAction) :
    a.after (x :: actions) = (x.apply a).after actions := rfl

theorem Application.after_append (l r : List AppAction) : a.after (l ++ r) = (a.after l).after r :=
  List.foldl_append

theorem Application.after_concat (l : List AppAction) (x : AppAction) : a.after (l ++ [x]) = x.apply (a.after l) :=
  a.after_append l [x]

theorem Application.after_asioThreads (n : Nat) : a.after ((List.range n).map .asioThread) =
    { a with threadPool_ := { a.threadPool_ with
      asioThreads_ := a.threadPool_.asioThreads_ ++ List.replicate n .running } } := by
  induction n with
  | zero => simp
  | succ n ih =>
      rw [List.range_succ, List.map_append, List.map_singleton, Application.after_concat, ih, List.replicate_succ',
        ← List.append_assoc]
      rfl

theorem Application.after_pings (n : Nat) : a.after ((List.range n).map .ping) = a := by
  induction n with
  | zero => rfl
  | succ n ih =>
      rw [List.range_succ, List.map_append, List.map_singleton, Application.after_concat, ih]
      rfl

theorem Application.after_connects (n : Nat) : a.after ((List.range n).map .connect) =
    { a with dbPool_ := { a.dbPool_ with pool_ := a.dbPool_.pool_ ++ List.range n } } := by
  induction n with
  | zero => simp
  | succ n ih =>
      rw [List.range_succ, List.map_append, List.map_singleton, Application.after_concat, ih, ← List.append_assoc]
      rfl

theorem seeded_concat (rpcs : List Rpc) (rpc : Rpc) :
    (seeded (rpcs ++ [rpc]) : Adapter.Server Req Rep Md) = seedOne (seeded rpcs) rpc := by
  rw [seedOne, Server.issue_of_up _ _ _ (by rfl)]
  simp [seeded, List.range_succ]

theorem Application.after_seeds (h : a.server_ = .empty) (rpcs : List Rpc) :
    a.after (rpcs.map .seed) = { a with server_ := seeded rpcs } := by
  induction rpcs using List.reverseRecOn with
  | nil =>
      rw [List.map_nil, Application.after_nil, show (seeded [] : Adapter.Server Req Rep Md) = .empty from rfl, ← h]
  | append_singleton rpcs rpc ih =>
      rw [List.map_append, List.map_singleton, Application.after_concat, ih, seeded_concat]
      rfl

theorem Application.after_workerThreads (n : Nat) : a.after ((List.range n).map .workerThread) =
    { a with server_ := { a.server_ with workers := a.server_.workers + n } } := by
  induction n with
  | zero => rfl
  | succ n ih =>
      rw [List.range_succ, List.map_append, List.map_singleton, Application.after_concat, ih]
      rfl

theorem Application.after_infrastructureRun : (.fresh : Application Req Rep Md).after (infrastructureRun hwConc config) =
    .connected hwConc config := by
  simp only [infrastructureRun, threadPoolRun, redisInit, dbPoolInit, List.cons_append, Application.after_cons,
    Application.after_append, Application.after_asioThreads, Application.after_pings, Application.after_connects]
  simp [Application.connected, Application.fresh, AppAction.apply, AsioThreadPool.run, AsioThreadPool.fresh,
    Pool.init_eq, Pool.empty]

theorem Application.after_beforeWait : (.fresh : Application Req Rep Md).after (beforeWait hwConc config) =
    .serving hwConc config := by
  rw [beforeWait, Application.after_append, Application.after_infrastructureRun, Application.after_cons,
    Application.after_append, Application.after_seeds _ rfl, startListeningThread, Application.after_workerThreads]
  simp [Application.serving, Application.connected, AppAction.apply, seeded, Server.empty]

end After

/-! ## The server comes to serve -/

section Serves
variable {env : Surroundings} {done : List AppAction}

/-- `main` comes to the first action that does not come out well. -/
theorem main_of_stop {s : Settings} (hs : env.Configured s) {x : AppAction} {rest : List AppAction} {e : Stop}
    (hsplit : applicationRun env.hardwareConcurrency (s.config env.hardwareConcurrency) = done ++ x :: rest)
    (hdone : ∀ y ∈ done, y.perform env = .ok ()) (hx : x.perform env = .error e) :
    main env = (done, ((.fresh : Application Req Rep Md).after done).ending (some e)) := by
  have hrun : performed env (applicationRun env.hardwareConcurrency (s.config env.hardwareConcurrency)) =
      (done, some e) := performed_eq_iff.mpr ⟨x :: rest, hsplit, hdone, x, rest, rfl, hx⟩
  simp only [main, construct_eq_load, load_configured_iff.mpr ⟨s, hs, rfl⟩, hrun]

variable (Req Rep Md) in
theorem main_of_configured {s : Settings} (hs : env.Configured s) : ∃ done x rest e,
    applicationRun env.hardwareConcurrency (s.config env.hardwareConcurrency) = done ++ x :: rest ∧
    (∀ y ∈ done, y.perform env = .ok ()) ∧ x.perform env = .error e ∧
    main env = (done, ((.fresh : Application Req Rep Md).after done).ending (some e)) := by
  obtain ⟨done, stop, hrun⟩ : ∃ done stop,
      performed env (applicationRun env.hardwareConcurrency (s.config env.hardwareConcurrency)) = (done, stop) :=
    ⟨_, _, rfl⟩
  obtain ⟨rest, hsplit, hdone, hrest⟩ := performed_eq_iff.mp hrun
  cases stop with
  | none =>
      obtain rfl : rest = [] := hrest
      -- `server_->Wait()` does not return
      have hwait := hdone .wait (by rw [← List.append_nil done, ← hsplit, applicationRun_eq]; simp)
      cases hwait
  | some e =>
      obtain ⟨x, rest', rfl, hx⟩ := hrest
      exact ⟨done, x, rest', e, hsplit, hdone, hx, main_of_stop hs hsplit hdone hx⟩

variable (Req Rep Md) in
/-- The constructor throws, or some action does not come out well. -/
theorem main_cases (env : Surroundings) :
    (∃ what, AppConfig.load env.hardwareConcurrency env.file = .error what ∧
      main env = ([], (.exits (-1) (criticalError what) .fresh : Ending Req Rep Md))) ∨
    ∃ s done x rest e, env.Configured s ∧
      applicationRun env.hardwareConcurrency (s.config env.hardwareConcurrency) = done ++ x :: rest ∧
      (∀ y ∈ done, y.perform env = .ok ()) ∧ x.perform env = .error e ∧
      main env = (done, ((.fresh : Application Req Rep Md).after done).ending (some e)) := by
  cases hload : AppConfig.load env.hardwareConcurrency env.file with
  | error what => exact .inl ⟨what, rfl, by simp only [main, construct_eq_load, hload]⟩
  | ok config =>
      obtain ⟨s, hs, -⟩ := load_configured_iff.mp hload
      obtain ⟨done, x, rest, e, h⟩ := main_of_configured Req Rep Md hs
      exact .inr ⟨s, done, x, rest, e, hs, h⟩

/-- All that the server needs to serve with the settings. -/
structure Surroundings.Complete (env : Surroundings) (s : Settings) : Prop
    extends env.Up (s.config env.hardwareConcurrency) where
  configured : env.Configured s
  port : env.buildAndStart = true
  workerThreads : ∀ i < (s.config env.hardwareConcurrency).serverConfig.workerThreads.toNat,
    env.workerThread i = .ok ()

theorem Surroundings.Complete.serves {s : Settings} (h : env.Complete s) : (main env).2 =
    .serves (.serving env.hardwareConcurrency (s.config env.hardwareConcurrency) : Application Req Rep Md) := by
  rw [main_of_stop h.configured applicationRun_eq ((beforeWait_iff h.port).mpr ⟨h.toUp, h.workerThreads⟩)
    (show AppAction.wait.perform env = .error .serves by simp [AppAction.perform, h.port]),
    Application.after_beforeWait]
  rfl

theorem complete_of_serves {a : Application Req Rep Md} (h : (main env).2 = .serves a) :
    ∃ s, env.Complete s ∧ a = .serving env.hardwareConcurrency (s.config env.hardwareConcurrency) := by
  rcases main_cases Req Rep Md env with ⟨what, -, hmain⟩ | hmain
  · rw [hmain] at h
    cases h
  · obtain ⟨s, done, x, rest, e, hs, hsplit, hdone, hx, hmain⟩ := hmain
    rw [hmain] at h
    obtain ⟨he, rfl⟩ := Application.ending_eq_serves.mp h
    obtain rfl := Option.some.inj he
    -- it is `server_->Wait()` that `main` stops at
    obtain ⟨rfl, hbuild⟩ : x = .wait ∧ env.buildAndStart = true := by
      have hstop := perform_canStop hx
      cases x with
      | wait => exact ⟨rfl, hstop⟩
      | _ => exact hstop.elim
    rw [applicationRun_eq] at hsplit
    obtain ⟨rfl, -⟩ := (List.append_cons_inj_of_notMem wait_notMem_beforeWait List.not_mem_nil).mp hsplit
    obtain ⟨hup, hworkers⟩ := (beforeWait_iff hbuild).mp hdone
    exact ⟨s, ⟨hup, hs, hbuild, hworkers⟩, Application.after_beforeWait⟩

/-- **The server comes to serve** exactly when every part comes up: the configuration file has settings that pass every
check, the threads can be created, every Redis connection answers `PONG`, every attempt to connect to PostgreSQL
succeeds and the port can be opened. Its parts are then as the configuration asks. -/
theorem main_serves_iff {a : Application Req Rep Md} : (main env).2 = .serves a ↔
    ∃ s, env.Complete s ∧ a = .serving env.hardwareConcurrency (s.config env.hardwareConcurrency) := by
  constructor
  · exact complete_of_serves
  · intro h
    obtain ⟨s, hs, rfl⟩ := h
    exact hs.serves

theorem run_seeded (L : Logic Req Res Rep Md) (rpcs : List Rpc) :
    Run (Adapter.Server.system L) .empty (rpcs.map .seed) (seeded rpcs) := by
  induction rpcs using List.reverseRecOn with
  | nil => exact Run.refl _
  | append_singleton rpcs rpc ih =>
      rw [List.map_append, List.map_singleton, seeded_concat]
      exact ih.tail (.seed _ rpc rfl rfl)

theorem count_seeds (limits : RpcLimitsConfig) (rpc : Rpc) : (seeds limits).count rpc = (limitOf limits rpc).toNat := by
  simp only [seeds, List.count_append, List.count_replicate]
  cases rpc with
  | _ => simp [limitOf]

theorem limitOf_pos (s : RpcLimitsSettings) (rpc : Rpc) : 0 < limitOf s.limits rpc := by
  cases rpc with
  | register => exact s.register_pos
  | sendCode => exact s.sendCode_pos
  | loginByPassword => exact s.loginPw_pos
  | loginByCode => exact s.loginCode_pos
  | getUserInfo => exact s.getUserInfo_pos

/-- Each kind of request has its objects. -/
theorem mem_seeds (s : RpcLimitsSettings) (rpc : Rpc) : rpc ∈ seeds s.limits := by
  have hpos := limitOf_pos s rpc
  have hcount := count_seeds s.limits rpc
  exact List.count_pos_iff.mp (by omega)

theorem seeded_object {rpcs : List Rpc} {rpc : Rpc} (h : rpc ∈ rpcs) :
    ∃ o d, (seeded rpcs : Adapter.Server Req Rep Md).objects[o]? = some d ∧ d.rpc = rpc ∧
      (.request, o) ∈ (seeded rpcs : Adapter.Server Req Rep Md).cq := by
  obtain ⟨o, ho⟩ := List.mem_iff_getElem?.mp h
  refine ⟨o, CallData.make rpc, by simp [seeded, ho], rfl, ?_⟩
  exact List.mem_map_of_mem (List.mem_range.mpr (List.getElem?_eq_some_iff.mp ho).1)

theorem workerThreads_pos (s : Settings) (hwConc : Nat) :
    0 < (s.config hwConc).serverConfig.workerThreads.toNat := by
  change 0 < Int.toNat (if s.server.workerThreads = 0 then autoCpuCores hwConc else s.server.workerThreads)
  have hnonneg := s.server.workerThreads_nonneg
  unfold autoCpuCores
  split_ifs <;> omega

/-- The server that serves has been seeded, then given its worker threads. -/
theorem run_serving (L : Logic Req Res Rep Md) (hwConc : Nat) (config : AppConfig) :
    Run (Adapter.Server.system L) .empty ((seeds config.rpcLimitsConfig).map .seed ++
      [.startListeningThread config.serverConfig.workerThreads.toNat])
      (Application.serving hwConc config : Application Req Rep Md).server_ :=
  (run_seeded L _).tail (.startListeningThread _ _ rfl rfl)

/-- **Its parts begin where their own systems do**: as `Run` leaves them, without the steps of the worker threads and
handlers it has started, the connection pool is as after `Init` and not empty, an object for each kind of request is
registered on the completion queue, there are worker threads to take them, and the thread pool runs. -/
theorem main_serves {a : Application Req Rep Md} (L : Logic Req Res Rep Md) (h : (main env).2 = .serves a) :
    (∃ n, 0 < n ∧ a.dbPool_ = Pool.init n) ∧
    (∃ (rpcs : List Rpc) (workers : Nat), 0 < workers ∧
      Run (Adapter.Server.system L) .empty (rpcs.map .seed ++ [.startListeningThread workers]) a.server_) ∧
    (∀ rpc, ∃ o d, a.server_.objects[o]? = some d ∧ d.rpc = rpc ∧ (.request, o) ∈ a.server_.cq) ∧
    Run (AsioThreadPool.system env.hardwareConcurrency) .fresh [.run (threadCount env.hardwareConcurrency)]
      a.threadPool_ := by
  obtain ⟨s, -, rfl⟩ := complete_of_serves h
  refine ⟨⟨_, ?_, rfl⟩, ⟨_, _, workerThreads_pos s _, run_serving L _ _⟩,
    fun rpc => seeded_object (mem_seeds s.rpcLimits rpc), ?_⟩
  · change 0 < s.db.poolSize.toNat
    have hpos := s.db.poolSize_range.1
    omega
  · exact Run.single (AsioThreadPool.Step.run .fresh _ rfl (Nat.le_refl _))

/-- **The limits in the configuration file hold of the server**: as long as its completion queue is not shut down, and
however the RPCs and the threads interleave, each kind of RPC has as many objects waiting and under way as the file
says. No more RPCs of the kind are served at a time, and no object is ever lost. -/
theorem main_limits {a : Application Req Rep Md} {L : Logic Req Res Rep Md} {labs : List (Label Req Res Md)}
    {t : Adapter.Server Req Rep Md} (h : (main env).2 = .serves a) (hrun : Run (Adapter.Server.system L) a.server_ labs t)
    (hup : t.cqDown = false) :
    ∃ config, AppConfig.load env.hardwareConcurrency env.file = .ok config ∧ ∀ rpc,
      0 < limitOf config.rpcLimitsConfig rpc ∧
      ((t.registered rpc + t.underWay rpc : Nat) : Int) = limitOf config.rpcLimitsConfig rpc := by
  obtain ⟨s, hs, rfl⟩ := complete_of_serves h
  refine ⟨_, load_configured_iff.mpr ⟨s, hs.configured, rfl⟩, fun rpc => ?_⟩
  have hpos : 0 < limitOf (s.config env.hardwareConcurrency).rpcLimitsConfig rpc := limitOf_pos s.rpcLimits rpc
  -- after the worker threads are started nothing more is seeded
  have hseeded := (Server.run_seeded_of_workers hrun (workerThreads_pos s _)).2
  have hlimits := Server.limits ((run_serving L _ _).trans hrun) hup rpc
  rw [List.flatMap_append, hseeded, List.append_nil, flatMap_seeded, count_seeds] at hlimits
  refine ⟨hpos, ?_⟩
  rw [hlimits]
  exact Int.toNat_of_nonneg (Int.le_of_lt hpos)

end Serves

/-- A machine of one thread on which everything comes up if Redis gives the answer to the first `PING`. -/
def Surroundings.small (answer : RedisReply) : Surroundings where
  hardwareConcurrency := 1
  file := .ok Settings.small.file
  asioThread _ := .ok ()
  ping _ := some (.ok answer)
  connecting _ := ⟨some 7, [⟨.ok, 7⟩], List.cons_ne_nil _ _, ""⟩
  buildAndStart := true
  workerThread _ := .ok ()

theorem Surroundings.small_configured (answer : RedisReply) : (Surroundings.small answer).Configured Settings.small :=
  ⟨_, rfl, Settings.small.standIn_file⟩

theorem Surroundings.small_complete : (Surroundings.small (.simpleString "PONG")).Complete Settings.small where
  asioThreads _ _ := rfl
  redis _ _ := ⟨_, rfl, .inl rfl⟩
  postgres _ _ := rfl
  configured := Surroundings.small_configured _
  port := rfl
  workerThreads _ _ := rfl

/-- What it comes to serve with. -/
def Application.small : Application Unit Unit Unit := .serving 1 (Settings.small.config 1)

theorem Application.small_serves :
    (main (Surroundings.small (.simpleString "PONG"))).2 = .serves Application.small :=
  Surroundings.small_complete.serves

theorem main_serves_small : (main (Surroundings.small (.simpleString "PONG"))).2 = .serves Application.small ∧
    (∃ n, 0 < n ∧ Application.small.dbPool_ = Pool.init n) ∧
    (∀ rpc, ∃ o d, Application.small.server_.objects[o]? = some d ∧ d.rpc = rpc ∧
      (.request, o) ∈ Application.small.server_.cq) ∧
    Run (AsioThreadPool.system 1) .fresh [.run (threadCount 1)] Application.small.threadPool_ := by
  have h := main_serves Logic.trivial Application.small_serves
  exact ⟨Application.small_serves, h.1, h.2.2⟩

/-- The server of the small machine, once its worker thread has taken the first RPC. -/
def Application.smallTaken : Adapter.Server Unit Unit Unit :=
  { Application.small.server_ with
    cq := [(.request, 1), (.request, 2), (.request, 3), (.request, 4)]
    handlers := [(0, .proceed true)] }

theorem Application.run_smallTaken : Run (Adapter.Server.system Logic.trivial) Application.small.server_
    [.deliver .request 0 true ((), ())] Application.smallTaken :=
  Run.single (Server.Step.deliver Application.small.server_ []
    [(.request, 1), (.request, 2), (.request, 3), (.request, 4)] .request 0 true ((), ()) rfl (by decide) (by decide))

theorem main_limits_small : (main (Surroundings.small (.simpleString "PONG"))).2 = .serves Application.small ∧
    Run (Adapter.Server.system Logic.trivial) Application.small.server_ [.deliver .request 0 true ((), ())]
      Application.smallTaken ∧
    (∃ config, AppConfig.load 1 (.ok Settings.small.file) = .ok config ∧
      ((Application.smallTaken.registered .register + Application.smallTaken.underWay .register : Nat) : Int) =
        limitOf config.rpcLimitsConfig .register) ∧
    Application.smallTaken.registered .register = 0 ∧ Application.smallTaken.underWay .register = 1 := by
  obtain ⟨config, hload, hlimits⟩ := main_limits Application.small_serves Application.run_smallTaken rfl
  exact ⟨Application.small_serves, Application.run_smallTaken, ⟨config, hload, (hlimits .register).2⟩,
    by decide, by decide⟩

/-! ## `BuildAndStart` is called -/

section Listens
variable {env : Surroundings} {l : List AppAction}

/-- **`BuildAndStart` is called**, whether it gives a server or not, exactly when the configuration file has settings
that pass every check, every thread of the `AsioThreadPool` runs, every Redis connection has answered `PONG` and every
connection to PostgreSQL is in the pool; nothing else has been done by then. -/
theorem main_listens_iff : (∃ r, (main env : List AppAction × Ending Req Rep Md).1 = l ++ .buildAndStart :: r) ↔
    ∃ s, env.Configured s ∧ env.Up (s.config env.hardwareConcurrency) ∧
      l = infrastructureRun env.hardwareConcurrency (s.config env.hardwareConcurrency) ∧
      (.fresh : Application Req Rep Md).after l =
        .connected env.hardwareConcurrency (s.config env.hardwareConcurrency) := by
  constructor
  · intro h
    obtain ⟨r, hl⟩ := h
    rcases main_cases Req Rep Md env with ⟨what, -, hmain⟩ | hmain
    · rw [hmain] at hl
      simp at hl
    · obtain ⟨s, done, x, rest, e, hs, hsplit, hdone, hx, hmain⟩ := hmain
      rw [hmain] at hl
      obtain rfl : done = l ++ .buildAndStart :: r := hl
      rw [applicationRun, List.append_assoc, List.cons_append] at hsplit
      obtain ⟨rfl, -⟩ := (List.append_cons_inj_of_notMem buildAndStart_notMem_infrastructureRun
        buildAndStart_notMem_serverRun).mp hsplit
      refine ⟨s, hs, infrastructureRun_iff.mp fun y hy => hdone y (List.mem_append_left _ hy), rfl, ?_⟩
      exact Application.after_infrastructureRun
  · intro h
    obtain ⟨s, hs, hup, rfl, -⟩ := h
    obtain ⟨done, x, rest, e, hsplit, -, hx, hmain⟩ := main_of_configured Req Rep Md hs
    rw [applicationRun, List.append_cons] at hsplit
    obtain ⟨m, rfl, -⟩ := done_of_notMem hsplit fun hmem => by
      rcases List.mem_append.mp hmem with hmem | hmem
      · rw [infrastructureRun_iff.mpr hup x hmem] at hx
        cases hx
      · rw [List.mem_singleton.mp hmem] at hx
        cases hx
    rw [hmain]
    exact ⟨m, by simp⟩

/-- **A port that cannot be opened is not reported**: once the rest has come up, the objects are seeded on a server that
`BuildAndStart` has destroyed. -/
theorem main_undefined_iff : (main env : List AppAction × Ending Req Rep Md).2 = .undefined ↔
    ∃ s, env.Configured s ∧ env.Up (s.config env.hardwareConcurrency) ∧ env.buildAndStart = false := by
  constructor
  · intro h
    rcases main_cases Req Rep Md env with ⟨what, -, hmain⟩ | hmain
    · rw [hmain] at h
      cases h
    · obtain ⟨s, done, x, rest, e, hs, hsplit, hdone, hx, hmain⟩ := hmain
      rw [hmain] at h
      obtain rfl := Application.ending_eq_undefined.mp h
      have hstop := perform_canStop hx
      -- only seeding and waiting stop so, and they come last
      have hmem : x ∉ infrastructureRun env.hardwareConcurrency (s.config env.hardwareConcurrency) ∧
          env.buildAndStart = false := by
        cases x with
        | seed rpc => exact ⟨fun hmem => by simpa using mem_infrastructureRun hmem, hstop⟩
        | wait => exact ⟨fun hmem => by simpa using mem_infrastructureRun hmem, hstop⟩
        | _ => exact hstop.elim
      obtain ⟨m, rfl, -⟩ := done_of_notMem hsplit hmem.1
      exact ⟨s, hs, infrastructureRun_iff.mp fun y hy => hdone y (List.mem_append_left _ hy), hmem.2⟩
  · intro h
    obtain ⟨s, hs, hup, hbuild⟩ := h
    obtain ⟨actions, hactions⟩ := serverRun_eq_cons s env.hardwareConcurrency
    have hsplit : applicationRun env.hardwareConcurrency (s.config env.hardwareConcurrency) =
        (infrastructureRun env.hardwareConcurrency (s.config env.hardwareConcurrency) ++ [.buildAndStart]) ++
          .seed .register :: actions := by
      rw [applicationRun, hactions, List.append_assoc]
      rfl
    have hdone : ∀ y ∈ infrastructureRun env.hardwareConcurrency (s.config env.hardwareConcurrency) ++
        [.buildAndStart], y.perform env = .ok () := by
      intro y hy
      rcases List.mem_append.mp hy with hy | hy
      · exact infrastructureRun_iff.mpr hup y hy
      · rw [List.mem_singleton.mp hy]
        rfl
    have hseed : (AppAction.seed .register).perform env = .error .undefined := by simp [AppAction.perform, hbuild]
    rw [main_of_stop hs hsplit hdone hseed]
    rfl

end Listens

/-! ## The program ends -/

section Exits
variable {env : Surroundings} {config : AppConfig} {hwConc : Nat} {l : List AppAction} {a : Application Req Rep Md}

@[simp] theorem seedOne_workers (s : Adapter.Server Req Rep Md) (rpc : Rpc) :
    (seedOne s rpc).workers = s.workers := by
  unfold seedOne Server.issue
  split <;> rfl

@[simp] theorem seedOne_serverDown (s : Adapter.Server Req Rep Md) (rpc : Rpc) :
    (seedOne s rpc).serverDown = s.serverDown := by
  unfold seedOne Server.issue
  split <;> rfl

theorem Application.workers_after : (a.after l).server_.workers = 0 ↔
    a.server_.workers = 0 ∧ ∀ i, .workerThread i ∉ l := by
  induction l generalizing a with
  | nil => simp
  | cons x l ih =>
      rw [Application.after_cons, ih]
      cases x with
      | workerThread i =>
          constructor
          · intro h
            exact absurd h.1 (Nat.succ_ne_zero _)
          · intro h
            exact absurd List.mem_cons_self (h.2 i)
      | seed rpc => simp [AppAction.apply]
      | _ => simp [AppAction.apply]

/-- With no worker thread, the actions seed the server. -/
theorem Application.run_after (L : Logic Req Res Rep Md) (hw : ∀ i, .workerThread i ∉ l) :
    ∃ labs, Run (Adapter.Server.system L) .empty labs ((.fresh : Application Req Rep Md).after l).server_ ∧
      ((.fresh : Application Req Rep Md).after l).server_.serverDown = false := by
  induction l using List.reverseRecOn with
  | nil => exact ⟨[], Run.refl _, rfl⟩
  | append_singleton l x ih =>
      have hl : ∀ i, .workerThread i ∉ l := fun i hmem => hw i (List.mem_append_left _ hmem)
      obtain ⟨labs, hrun, hdown⟩ := ih hl
      rw [Application.after_concat]
      cases x with
      | workerThread i => exact absurd (by simp) (hw i)
      | seed rpc =>
          have hzero : ((.fresh : Application Req Rep Md).after l).server_.workers = 0 :=
            Application.workers_after.mpr ⟨rfl, hl⟩
          exact ⟨_, hrun.tail (.seed _ rpc hzero hdown), (seedOne_serverDown _ rpc).trans hdown⟩
      | _ => exact ⟨labs, hrun, hdown⟩

/-- What is done before `BuildAndStart` does not touch the server. -/
theorem Application.server_after (h : ∀ x ∈ l, x ∈ infrastructureRun env.hardwareConcurrency config) :
    (a.after l).server_ = a.server_ := by
  induction l generalizing a with
  | nil => rfl
  | cons x l ih =>
      obtain ⟨hx, hl⟩ := List.forall_mem_cons.mp h
      rw [Application.after_cons, ih hl]
      rcases mem_infrastructureRun hx with rfl | ⟨i, rfl⟩ | ⟨i, rfl⟩ | ⟨i, rfl⟩ <;> rfl

/-- The thread of the pool that an action starts. -/
def AppAction.started : AppAction → List PoolThread
  | .asioThread _ => [.running]
  | _ => []

/-- The thread pool after some actions. -/
theorem Application.threadPool_after : ((.fresh : Application Req Rep Md).after l).threadPool_ =
    { AsioThreadPool.fresh with
      workGuard_ := decide (.workGuard ∈ l)
      asioThreads_ := l.flatMap AppAction.started } := by
  induction l using List.reverseRecOn with
  | nil => rfl
  | append_singleton l x ih =>
      rw [Application.after_concat, List.flatMap_append, List.flatMap_singleton]
      cases x with
      | workGuard => simp [AppAction.apply, ih, AppAction.started]
      | asioThread i => simp [AppAction.apply, ih, AppAction.started]
      | _ => simp [AppAction.apply, ih, AppAction.started]

theorem Application.listening_after :
    (a.after l).listening = (a.listening || decide (.buildAndStart ∈ l)) := by
  induction l generalizing a with
  | nil => simp
  | cons x l ih =>
      rw [Application.after_cons, ih]
      cases x with
      | buildAndStart => simp [AppAction.apply]
      | _ => simp [AppAction.apply]

/-- The thread pool at any time of `Run`. -/
theorem Application.threadPool_of_prefix {hwConc : Nat} {done rest : List AppAction}
    (hsplit : applicationRun hwConc config = done ++ rest) :
    ((.fresh : Application Req Rep Md).after done).threadPool_ = .fresh ∨
    ∃ n ≤ threadCount hwConc, ((.fresh : Application Req Rep Md).after done).threadPool_ = AsioThreadPool.fresh.run n := by
  rw [Application.threadPool_after]
  cases done with
  | nil => exact .inl rfl
  | cons x done =>
      have hall : (applicationRun hwConc config).flatMap AppAction.started =
          List.replicate (threadCount hwConc) .running := by
        have hthreads : ∀ ns : List Nat, (ns.map .asioThread).flatMap AppAction.started =
            List.replicate ns.length .running := by
          intro ns
          rw [List.flatMap_map, ← List.map_const', List.map_eq_flatMap]
          rfl
        rw [applicationRun, infrastructureRun, threadPoolRun, List.flatMap_append, List.flatMap_append,
          List.flatMap_append, List.flatMap_cons, hthreads, List.length_range]
        simp [redisInit, dbPoolInit, serverRun, startListeningThread, AppAction.started, List.flatMap_eq_nil_iff]
      obtain ⟨rfl, -⟩ := List.cons.inj hsplit
      have hstarted := (List.prefix_append (.workGuard :: done) rest).flatMap AppAction.started
      rw [← hsplit, hall, List.prefix_replicate_iff] at hstarted
      refine .inr ⟨_, hstarted.1, ?_⟩
      rw [hstarted.2]
      simp [AsioThreadPool.run, AsioThreadPool.fresh]

/-- A server without worker threads is shut down and drained. -/
theorem Application.run_shutdown (L : Logic Req Res Rep Md) {labs : List (Label Req Res Md)}
    (hrun : Run (Adapter.Server.system L) .empty labs a.server_) (hw : a.server_.workers = 0)
    (hlistening : a.listening = false → a.server_.cq = []) :
    (∃ labs, Run (Adapter.Server.system L) .empty labs a.shutdown.server_) ∧ a.shutdown.server_.cq = [] ∧
      (a.listening = true → a.shutdown.server_.cqDown = true) := by
  unfold Application.shutdown
  by_cases h : a.listening = true
  · rw [if_pos h]
    have hdown : Run (Adapter.Server.system L) .empty (labs ++ [.shutdownServer] ++ [.shutdownCq])
        { a.server_ with serverDown := true, cqDown := true } :=
      (hrun.tail (.shutdownServer a.server_)).tail (.shutdownCq _ rfl)
    obtain ⟨drains, hdrains⟩ := Server.drain_all (L := L)
      (s := { a.server_ with serverDown := true, cqDown := true }) hw rfl
    exact ⟨⟨_, hdown.trans hdrains⟩, rfl, fun _ => rfl⟩
  · rw [if_neg h]
    exact ⟨⟨labs, hrun⟩, hlistening (by simpa using h), fun hl => absurd hl h⟩

/-- **The program ends in order.** When it ends, with a server that has been seeded or not, the completion queue is
drained and, where there is one, shut down, and every thread of the pool has been joined: server and thread pool have
come there by a run of their own from their first state. -/
theorem main_exits {code : Int} {cerr : String} (L : Logic Req Res Rep Md)
    (h : (main env).2 = .exits code cerr a) :
    ((∃ labs, Run (Adapter.Server.system L) .empty labs a.server_) ∧ a.server_.cq = [] ∧
      (a.listening = true → a.server_.cqDown = true)) ∧
    (∃ labs, Run (AsioThreadPool.system env.hardwareConcurrency) .fresh labs a.threadPool_) ∧
      a.threadPool_.asioThreads_ = [] ∧ a.threadPool_.workGuard_ = false := by
  rcases main_cases Req Rep Md env with ⟨what, -, hmain⟩ | hmain
  · rw [hmain] at h
    obtain ⟨-, -, rfl⟩ := (Ending.exits.injEq ..).mp h
    exact ⟨⟨⟨[], Run.refl _⟩, rfl, fun h => by cases h⟩, ⟨[], Run.refl _⟩, rfl, rfl⟩
  · obtain ⟨s, done, x, rest, e, -, hsplit, -, -, hmain⟩ := hmain
    rw [hmain] at h
    obtain ⟨what, -, -, -, hw, rfl⟩ := Application.ending_eq_exits.mp h
    obtain ⟨labs, hrun, -⟩ := Application.run_after L (Application.workers_after.mp hw).2
    have hserver := Application.run_shutdown L hrun hw fun hlistening => by
      -- `BuildAndStart` has not been called: nothing has been seeded
      have hnot : .buildAndStart ∉ done := by simpa [Application.listening_after, Application.fresh] using hlistening
      rw [applicationRun] at hsplit
      obtain ⟨m, hm, -⟩ := done_of_notMem hsplit.symm hnot
      rw [Application.server_after fun y hy => by rw [hm]; exact List.mem_append_left _ hy]
      rfl
    have hpool := Application.run_stopThreadPool (a := ((.fresh : Application Req Rep Md).after done).shutdown) (by
      rw [Application.shutdown_threadPool]
      exact Application.threadPool_of_prefix hsplit)
    refine ⟨?_, hpool⟩
    rw [Application.stopThreadPool_server, Application.stopThreadPool_listening, Application.shutdown_listening]
    exact hserver

end Exits

/-- What the small machine leaves when Redis does not answer `PONG`. -/
def Application.smallLeft : Application Unit Unit Unit :=
  (Application.fresh.after [.workGuard, .asioThread 0]).shutdown.stopThreadPool

theorem main_exits_small :
    (main (Surroundings.small .null)).2 = .exits (-1)
      ("CRITICAL ERROR: Redis Pool Init failed at connection [0]: " ++
        "Redis PING protocol error. Expected 'PONG', got 'NULL'") Application.smallLeft ∧
    (∃ labs, Run (AsioThreadPool.system 1) .fresh labs Application.smallLeft.threadPool_) ∧
    Application.smallLeft.server_.cq = [] ∧ Application.smallLeft.threadPool_.asioThreads_ = [] ∧
    Application.smallLeft.threadPool_.workGuard_ = false := by
  have hsplit : applicationRun 1 (Settings.small.config 1) = [.workGuard, .asioThread 0] ++ .ping 0 :: .connect 0 ::
      .buildAndStart :: serverRun (Settings.small.config 1) := rfl
  have hdone : ∀ x ∈ [AppAction.workGuard, .asioThread 0], x.perform (Surroundings.small .null) = .ok () := by
    simp [AppAction.perform, Surroundings.small, Except.mapError]
  have hx : (AppAction.ping 0).perform (Surroundings.small .null) = .error (.threw (RedisClient.initFailed 0
      ⟨.protocolError, "Redis PING protocol error. Expected 'PONG', got 'NULL'"⟩)) := rfl
  have hmain : (main (Surroundings.small .null)).2 = .exits (-1)
      ("CRITICAL ERROR: Redis Pool Init failed at connection [0]: " ++
        "Redis PING protocol error. Expected 'PONG', got 'NULL'") Application.smallLeft := by
    rw [main_of_stop (Surroundings.small_configured .null) hsplit hdone hx]
    rfl
  have h := main_exits Logic.trivial hmain
  exact ⟨hmain, h.2.1, h.1.2.1, h.2.2⟩

end PhotonCommerce.Server
