import PhotonCommerce.Config.Loading
import PhotonCommerce.Persistence.AsyncConnect
import PhotonCommerce.Server.AsioThreadPool
import PhotonCommerce.Storage.RedisPool
import PhotonCommerce.Adapter.CallData

/-!
# What `Application::Run` does

`main` constructs an `Application` and calls `Run`, which starts the thread pool, connects to Redis and PostgreSQL and
runs the server.

* `Surroundings` : what the program finds when it is started;
* `construct` : the constructor of `Application`; `construct_eq_load` : it throws what `AppConfig` throws;
* `AppAction`, `applicationRun` : what `Run` does, one thing after the other; `AppAction.perform` : how it comes out;
* `performed`, `performed_eq_iff` : what gets done, up to the first thing that does not come out well;
  `performed_redisInit` : for Redis it is what `RedisClient::Init` comes to.
-/

namespace PhotonCommerce.Server
open Adapter Config Infrastructure FirstError Transition

/-! ## What the program finds -/

/-- What the program finds when it is started. -/
structure Surroundings where
  /-- `std::thread::hardware_concurrency()`. -/
  hardwareConcurrency : Nat
  /-- What `YAML::LoadFile` gives or throws for the configuration file. -/
  file : Except Thrown Node
  /-- Whether thread `i` of the `AsioThreadPool` can be created, or what `std::thread` throws. -/
  asioThread : Nat → Except String Unit
  /-- What `async_exec` gives or throws for the `PING` of connection `i`, if it ends. -/
  ping : Nat → Option (Except String RedisReply)
  /-- libpq during the attempt of connection `i`. -/
  connecting : Nat → Connecting
  /-- `BuildAndStart` gives a server, not a null pointer. -/
  buildAndStart : Bool
  /-- Whether worker thread `i` can be created, or what `std::thread` throws. -/
  workerThread : Nat → Except String Unit

/-- The settings stand in the configuration file. -/
def Surroundings.Configured (env : Surroundings) (s : Settings) : Prop :=
  ∃ root, env.file = .ok root ∧ s.StandIn root

/-! ## The constructor -/

/-- The constructor of `Application`: the configuration, or what is thrown. -/
def construct (env : Surroundings) : Except String AppConfig := do
  let config ← AppConfig.load env.hardwareConcurrency env.file
  let _ ← RedisClient.make config.redisConfig.poolSize
  if config.dbPoolConfig.poolSize ≤ 0 then .error "Pool size must be positive." else .ok config

section Construct
variable {env : Surroundings} {config : AppConfig}

theorem load_configured_iff : AppConfig.load env.hardwareConcurrency env.file = .ok config ↔
    ∃ s, env.Configured s ∧ config = s.config env.hardwareConcurrency := by
  unfold Surroundings.Configured
  cases env.file with
  | error e => simp [AppConfig.load, Except.mapError, Bind.bind, Except.bind]
  | ok root =>
      simp only [Except.ok.injEq, exists_eq_left', ← AppConfig.parse_eq_ok_iff]
      change (AppConfig.parse env.hardwareConcurrency root).mapError _ = _ ↔ _
      cases AppConfig.parse env.hardwareConcurrency root with
      | error e => simp [Except.mapError]
      | ok c => simp [Except.mapError]

/-- What passes the checks of `AppConfig` passes those of the constructors. -/
theorem construct_eq_load (env : Surroundings) :
    construct env = AppConfig.load env.hardwareConcurrency env.file := by
  unfold construct
  cases h : AppConfig.load env.hardwareConcurrency env.file with
  | error what => rfl
  | ok config =>
      obtain ⟨s, -, rfl⟩ := load_configured_iff.mp h
      have hredis : RedisClient.make (s.config env.hardwareConcurrency).redisConfig.poolSize =
          .ok s.redis.poolSize.toNat := if_neg (Int.not_le.mpr s.redis.poolSize_range.1)
      have hdb : ¬ (s.config env.hardwareConcurrency).dbPoolConfig.poolSize ≤ 0 :=
        Int.not_le.mpr s.db.poolSize_range.1
      simp only [hredis, if_neg hdb, Bind.bind, Except.bind]

end Construct

/-! ## What `Run` does -/

/-- Why the thread of `main` does not go on. -/
inductive Stop where
  | threw (what : String)
  /-- `init_future.get()` waits for an answer that does not come. -/
  | waits
  /-- A call on the server that `BuildAndStart` has destroyed, or through the null `server_`. -/
  | undefined
  /-- `server_->Wait()`. -/
  | serves
  deriving DecidableEq, Repr

/-- What `Application::Run` does. -/
inductive AppAction where
  /-- `work_guard_.emplace`. -/
  | workGuard
  /-- `asio_threads_.emplace_back`. -/
  | asioThread (i : Nat)
  /-- `Ping` in `RedisClient::Init`. -/
  | ping (i : Nat)
  /-- `AsyncConnect` and `push_back` in `AsyncConnectionPool::Init`. -/
  | connect (i : Nat)
  /-- `AddCompletionQueue` and `BuildAndStart`. -/
  | buildAndStart
  /-- One round of `CallDataManager::Start`. -/
  | seed (rpc : Rpc)
  /-- `worker_threads_.emplace_back`. -/
  | workerThread (i : Nat)
  /-- `server_->Wait()`. -/
  | wait
  deriving DecidableEq, Repr

/-- How an action comes out. -/
def AppAction.perform (env : Surroundings) : AppAction → Except Stop Unit
  | .workGuard => .ok ()
  | .asioThread i => (env.asioThread i).mapError .threw
  | .ping i =>
      match env.ping i with
      | none => .error .waits
      | some answer => (RedisClient.ping answer).mapError fun e => .threw (RedisClient.initFailed i e)
  | .connect i =>
      match (asyncConnect (env.connecting i)).2 with
      | .returned => .ok ()
      | .threw what => .error (.threw what)
      | .suspended => .error .waits
  | .buildAndStart => .ok ()
  -- the gRPC services still point to the server they were registered with, which is gone if `BuildAndStart` gave null
  | .seed _ => if env.buildAndStart then .ok () else .error .undefined
  | .workerThread i => (env.workerThread i).mapError .threw
  | .wait => .error (if env.buildAndStart then .serves else .undefined)

/-- `AsioThreadPool::Run` on the new pool. -/
def threadPoolRun (hwConc : Nat) : List AppAction := .workGuard :: (List.range (threadCount hwConc)).map .asioThread

/-- `RedisClient::Init`. -/
def redisInit (config : RedisConfig) : List AppAction := (List.range config.poolSize.toNat).map .ping

/-- `AsyncConnectionPool::Init`. -/
def dbPoolInit (config : DbPoolConfig) : List AppAction := (List.range config.poolSize.toNat).map .connect

/-- The objects of `UserServiceServer::SeedCallData`. -/
def seeds (limits : RpcLimitsConfig) : List Rpc :=
  List.replicate limits.registerNum.toNat .register ++ List.replicate limits.sendCodeNum.toNat .sendCode ++
    List.replicate limits.loginPwNum.toNat .loginByPassword ++ List.replicate limits.loginCodeNum.toNat .loginByCode ++
    List.replicate limits.getUserInfoNum.toNat .getUserInfo

/-- The limit of a kind of RPC. -/
def limitOf (limits : RpcLimitsConfig) : Rpc → Int
  | .register => limits.registerNum
  | .sendCode => limits.sendCodeNum
  | .loginByPassword => limits.loginPwNum
  | .loginByCode => limits.loginCodeNum
  | .getUserInfo => limits.getUserInfoNum

/-- `UserServiceServer::StartListeningThread`. -/
def startListeningThread (config : ServerConfig) : List AppAction :=
  (List.range config.workerThreads.toNat).map .workerThread

/-- `UserServiceServer::Run` after `StartServer`. -/
def serverRun (config : AppConfig) : List AppAction :=
  (seeds config.rpcLimitsConfig).map .seed ++ startListeningThread config.serverConfig ++ [.wait]

/-- `Application::Run` up to `server_->Run()`. -/
def infrastructureRun (hwConc : Nat) (config : AppConfig) : List AppAction :=
  threadPoolRun hwConc ++ redisInit config.redisConfig ++ dbPoolInit config.dbPoolConfig

/-- `Application::Run`. -/
def applicationRun (hwConc : Nat) (config : AppConfig) : List AppAction :=
  infrastructureRun hwConc config ++ .buildAndStart :: serverRun config

/-- What `Run` does before `server_->Wait()`. -/
def beforeWait (hwConc : Nat) (config : AppConfig) : List AppAction :=
  infrastructureRun hwConc config ++
    .buildAndStart :: ((seeds config.rpcLimitsConfig).map .seed ++ startListeningThread config.serverConfig)

/-- What `Run` gets done, and why it stops. -/
def performed (env : Surroundings) (actions : List AppAction) : List AppAction × Option Stop :=
  collect (fun x => (x.perform env).map fun _ => x) actions

/-! ## How an action comes out -/

section Perform
variable {env : Surroundings} {i : Nat}

theorem mapError_eq_ok_iff {x : Except String Unit} {f : String → Stop} : x.mapError f = .ok () ↔ x = .ok () := by
  cases x with
  | error what => simp [Except.mapError]
  | ok u => simp [Except.mapError]

theorem mapError_eq_error {α : Type} {x : Except α Unit} {f : α → Stop} {e : Stop} (h : x.mapError f = .error e) :
    ∃ what, f what = e := by
  cases x with
  | error what => exact ⟨what, Except.error.inj h⟩
  | ok u => cases h

theorem perform_asioThread : (AppAction.asioThread i).perform env = .ok () ↔ env.asioThread i = .ok () :=
  mapError_eq_ok_iff

theorem perform_workerThread : (AppAction.workerThread i).perform env = .ok () ↔ env.workerThread i = .ok () :=
  mapError_eq_ok_iff

theorem perform_ping : (AppAction.ping i).perform env = .ok () ↔
    ∃ answer, env.ping i = some answer ∧ RedisClient.Pong answer := by
  simp only [AppAction.perform]
  cases env.ping i with
  | none => simp
  | some answer =>
      simp only [Option.some.injEq, exists_eq_left', ← RedisClient.ping_eq_ok_iff]
      cases RedisClient.ping answer with
      | error e => simp [Except.mapError]
      | ok u => simp [Except.mapError]

theorem perform_connect : (AppAction.connect i).perform env = .ok () ↔
    (asyncConnect (env.connecting i)).2 = .returned := by
  simp only [AppAction.perform]
  cases (asyncConnect (env.connecting i)).2 with
  | returned => simp
  | threw what => simp
  | suspended => simp

theorem perform_seed {rpc : Rpc} : (AppAction.seed rpc).perform env = .ok () ↔ env.buildAndStart = true := by
  unfold AppAction.perform
  split_ifs with h
  · simp [h]
  · simp [h]

/-- What an action can stop with. -/
def AppAction.CanStop (env : Surroundings) : AppAction → Stop → Prop
  | .asioThread _, .threw _ => True
  | .ping _, .threw _ => True
  | .ping _, .waits => True
  | .connect _, .threw _ => True
  | .connect _, .waits => True
  | .seed _, .undefined => env.buildAndStart = false
  | .workerThread _, .threw _ => True
  | .wait, .serves => env.buildAndStart = true
  | .wait, .undefined => env.buildAndStart = false
  | _, _ => False

theorem perform_canStop {x : AppAction} {e : Stop} (h : x.perform env = .error e) : x.CanStop env e := by
  cases x with
  | workGuard => cases h
  | buildAndStart => cases h
  | asioThread i =>
      obtain ⟨what, rfl⟩ := mapError_eq_error h
      trivial
  | workerThread i =>
      obtain ⟨what, rfl⟩ := mapError_eq_error h
      trivial
  | ping i =>
      simp only [AppAction.perform] at h
      split at h
      · obtain rfl := Except.error.inj h
        trivial
      · obtain ⟨what, rfl⟩ := mapError_eq_error h
        trivial
  | connect i =>
      simp only [AppAction.perform] at h
      split at h
      · cases h
      · obtain rfl := Except.error.inj h
        trivial
      · obtain rfl := Except.error.inj h
        trivial
  | seed rpc =>
      simp only [AppAction.perform] at h
      split_ifs at h with hb
      obtain rfl := Except.error.inj h
      simpa [AppAction.CanStop] using hb
  | wait =>
      obtain rfl := Except.error.inj h
      split_ifs with hb
      · exact hb
      · simpa [AppAction.CanStop] using hb

end Perform

/-! ## What gets done -/

/-- What `Run` needs before it calls `server_->Run()`. -/
structure Surroundings.Up (env : Surroundings) (config : AppConfig) : Prop where
  asioThreads : ∀ i < threadCount env.hardwareConcurrency, env.asioThread i = .ok ()
  redis : ∀ i < config.redisConfig.poolSize.toNat, ∃ answer, env.ping i = some answer ∧ RedisClient.Pong answer
  postgres : ∀ i < config.dbPoolConfig.poolSize.toNat, (asyncConnect (env.connecting i)).2 = .returned

section Done
variable {env : Surroundings} {config : AppConfig} {hwConc : Nat} {x : AppAction}
  {actions done l r rest : List AppAction} {stop : Option Stop}

theorem infrastructureRun_iff : (∀ x ∈ infrastructureRun env.hardwareConcurrency config, x.perform env = .ok ()) ↔
    env.Up config := by
  simp only [infrastructureRun, threadPoolRun, redisInit, dbPoolInit, List.forall_mem_append, List.forall_mem_cons,
    List.forall_mem_map, List.mem_range, perform_asioThread, perform_ping, perform_connect]
  constructor
  · intro h
    obtain ⟨⟨⟨-, hthreads⟩, hredis⟩, hpostgres⟩ := h
    exact ⟨hthreads, hredis, hpostgres⟩
  · intro h
    exact ⟨⟨⟨rfl, h.asioThreads⟩, h.redis⟩, h.postgres⟩

theorem beforeWait_iff (hbuild : env.buildAndStart = true) :
    (∀ x ∈ beforeWait env.hardwareConcurrency config, x.perform env = .ok ()) ↔
      env.Up config ∧ ∀ i < config.serverConfig.workerThreads.toNat, env.workerThread i = .ok () := by
  simp only [beforeWait, startListeningThread, List.forall_mem_append, List.forall_mem_cons, List.forall_mem_map,
    infrastructureRun_iff, List.mem_range, perform_workerThread, perform_seed]
  constructor
  · intro h
    obtain ⟨hup, -, -, hworkers⟩ := h
    exact ⟨hup, hworkers⟩
  · intro h
    exact ⟨h.1, rfl, fun _ _ => hbuild, h.2⟩

/-- What gets done are the actions before the first that does not come out well. -/
theorem performed_eq_iff : performed env actions = (done, stop) ↔
    ∃ rest, actions = done ++ rest ∧ (∀ x ∈ done, x.perform env = .ok ()) ∧
      Unread (AppAction.perform env) stop rest := by
  have hok : ∀ x y : AppAction, (x.perform env).map (fun _ => x) = .ok y ↔ x.perform env = .ok () ∧ x = y := by
    intro x y
    cases x.perform env with
    | error e => simp [Except.map]
    | ok u => simp [Except.map]
  have herror : ∀ (x : AppAction) e, (x.perform env).map (fun _ => x) = .error e ↔ x.perform env = .error e := by
    intro x e
    cases x.perform env with
    | error e => simp [Except.map]
    | ok u => simp [Except.map]
  rw [performed, collect_eq_iff]
  simp only [hok, List.forall₂_and_left, List.forall₂_eq_eq_eq]
  constructor
  · intro h
    obtain ⟨l, rest, hsplit, ⟨hl, rfl⟩, hrest⟩ := h
    refine ⟨rest, hsplit, hl, ?_⟩
    cases stop with
    | none => exact hrest
    | some e => simpa only [Unread, herror] using hrest
  · intro h
    obtain ⟨rest, hsplit, hdone, hrest⟩ := h
    refine ⟨done, rest, hsplit, ⟨hdone, rfl⟩, ?_⟩
    cases stop with
    | none => exact hrest
    | some e => simpa only [Unread, herror] using hrest

/-- The pings of `Run` are those of `RedisClient::Init`: when each connection gives an answer, they stop with what it
throws. -/
theorem performed_redisInit {answers : List (Except String RedisReply)} {what : String}
    (hlength : answers.length = config.redisConfig.poolSize.toNat)
    (hanswers : ∀ i answer, answers[i]? = some answer → env.ping i = some answer) :
    (performed env (redisInit config.redisConfig)).2 = some (.threw what) ↔ RedisClient.init answers = .error what := by
  have hpings : redisInit config.redisConfig = answers.zipIdx.map fun p => .ping p.2 := by
    rw [redisInit, ← hlength, List.range_eq_range', ← List.zipIdx_map_snd, List.map_map]
    rfl
  have herrors : errors (fun x => (x.perform env).map fun _ => x) (redisInit config.redisConfig) =
      (errors (fun p => (RedisClient.ping p.1).mapError (RedisClient.initFailed p.2)) answers.zipIdx).map .threw := by
    rw [hpings, errors, errors, List.filterMap_map, List.map_filterMap]
    refine List.filterMap_congr fun p hp => ?_
    have hping := hanswers p.2 p.1 (List.mem_zipIdx_iff_getElem?.mp hp)
    simp only [Function.comp_apply, AppAction.perform, hping]
    cases RedisClient.ping p.1 with
    | error e => rfl
    | ok u => rfl
  rw [performed, collect_snd, herrors, List.head?_map, Option.map_eq_some_iff, RedisClient.init, forM_eq_error_iff]
  constructor
  · intro h
    obtain ⟨what', hhead, heq⟩ := h
    rwa [Stop.threw.inj heq] at hhead
  · intro h
    exact ⟨what, h, rfl⟩

/-- What does not stop `Run` is done. -/
theorem done_of_notMem (hsplit : l ++ r = done ++ x :: rest) (hx : x ∉ l) :
    ∃ m, done = l ++ m ∧ r = m ++ x :: rest := by
  rcases List.append_eq_append_iff.mp hsplit with ⟨m, hdone, hr⟩ | ⟨m, hl, hrest⟩
  · exact ⟨m, hdone, hr⟩
  · cases m with
    | nil => exact ⟨[], by simpa using hl.symm, by simpa using hrest.symm⟩
    | cons y m =>
        obtain ⟨rfl, -⟩ := List.cons.inj hrest
        exact absurd (by simp [hl]) hx

theorem applicationRun_eq {hwConc : Nat} : applicationRun hwConc config = beforeWait hwConc config ++ [.wait] := by
  simp [applicationRun, beforeWait, serverRun]

theorem wait_notMem_beforeWait {hwConc : Nat} : .wait ∉ beforeWait hwConc config := by
  simp [beforeWait, infrastructureRun, threadPoolRun, redisInit, dbPoolInit, startListeningThread]

/-- Before `BuildAndStart` the server is not touched. -/
theorem mem_infrastructureRun (h : x ∈ infrastructureRun hwConc config) :
    x = .workGuard ∨ (∃ i, x = .asioThread i) ∨ (∃ i, x = .ping i) ∨ ∃ i, x = .connect i := by
  simp only [infrastructureRun, threadPoolRun, redisInit, dbPoolInit, List.mem_append, List.mem_cons,
    List.mem_map] at h
  rcases h with ((rfl | ⟨i, -, rfl⟩) | ⟨i, -, rfl⟩) | ⟨i, -, rfl⟩
  · exact .inl rfl
  · exact .inr (.inl ⟨i, rfl⟩)
  · exact .inr (.inr (.inl ⟨i, rfl⟩))
  · exact .inr (.inr (.inr ⟨i, rfl⟩))

theorem buildAndStart_notMem_infrastructureRun {hwConc : Nat} : .buildAndStart ∉ infrastructureRun hwConc config := by
  intro h
  simpa using mem_infrastructureRun h

theorem buildAndStart_notMem_serverRun : .buildAndStart ∉ serverRun config := by
  simp [serverRun, startListeningThread]

/-- There is something to seed. -/
theorem serverRun_eq_cons (s : Settings) (hwConc : Nat) :
    ∃ actions, serverRun (s.config hwConc) = .seed .register :: actions := by
  obtain ⟨n, hn⟩ : ∃ n, s.rpcLimits.limits.registerNum.toNat = n + 1 :=
    ⟨s.rpcLimits.limits.registerNum.toNat - 1, by have := s.rpcLimits.register_pos; omega⟩
  rw [serverRun, seeds, show (s.config hwConc).rpcLimitsConfig = s.rpcLimits.limits from rfl, hn, List.replicate_succ]
  exact ⟨_, rfl⟩

end Done

end PhotonCommerce.Server
