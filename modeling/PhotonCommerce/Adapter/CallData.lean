import PhotonCommerce.Lib.Transition

/-!
# `CallData`: the per-RPC objects, the completion queue and the two thread pools

The server seeds a pool of `CallData` objects, each registered once on the completion queue. A worker thread that
takes a tag off the queue runs `Proceed(ok)` on its object; the business logic runs as a coroutine on the Asio
threads and ends in `responder_.Finish`, which puts the object back on the queue.

* `CallData` : the fields an object carries from one RPC to the next;
* `Pc` : where a `Proceed` call stands; every write of `status_` and every issued operation is a step of its own;
* `Server` : the objects, the queue, the running `Proceed` calls, the spawned coroutines, the worker threads;
* `Server.step` : one step of a worker thread, of the Asio threads, of gRPC or of `Run`/`Shutdown`.

The types of requests, results of the business services, replies and metadata are arbitrary, and so are the outcome of
authentication and of the business services and what is written into the reply for it (`Logic`). Several objects of one
state are at different steps, so every interleaving of the worker threads and of the Asio threads is a run.
-/

namespace PhotonCommerce.Adapter
open Transition

/-- `CallData::State`. -/
inductive Status where
  | waitProcessing
  | finished
  deriving DecidableEq, Repr

/-- The five endpoints, one `CallData` type each. -/
inductive Rpc where
  | register
  | sendCode
  | loginByPassword
  | loginByCode
  | getUserInfo
  deriving DecidableEq, Repr

/-- `SpecificCallDataType::kRequiresAuth`. -/
def Rpc.kRequiresAuth : Rpc → Bool
  | .getUserInfo => true
  | _ => false

/-- The gRPC status codes the adapter uses. -/
inductive StatusCode where
  | ok
  | unauthenticated
  | internal
  deriving DecidableEq, Repr

/-- `grpc::Status`. -/
structure GrpcStatus where
  code : StatusCode
  message : String
  deriving DecidableEq, Repr

/-- `grpc::Status::OK`. -/
def GrpcStatus.OK : GrpcStatus := ⟨.ok, ""⟩

/-- The members of a `CallData` that change: `status_`, `request_`, `reply_` and the metadata of `ctx_`. -/
structure CallData (Req Rep Md : Type) where
  rpc : Rpc
  status_ : Status
  request_ : Req
  reply_ : Rep
  ctx_ : Md

/-- The operations a tag can stand for on the completion queue. -/
inductive CqOp where
  | request
  | finish
  deriving DecidableEq, Repr

/-- Where a `Proceed` call stands: what it does next. -/
inductive Pc where
  /-- Entered with `ok`: reads `ok` and `status_`. -/
  | proceed (ok : Bool)
  /-- `HandleProcess`: authenticates when the RPC requires it. -/
  | handleProcess
  /-- Authentication failed: next `status_ = FINISHED`. -/
  | authFailed (err : GrpcStatus)
  /-- `status_` is written: next `responder_.Finish(reply_, err, this)`. -/
  | finish (err : GrpcStatus)
  /-- Authentication passed or not required: next `status_ = FINISHED`. -/
  | authPassed (userId : String)
  /-- `status_` is written: next `co_spawn`. -/
  | coSpawn (userId : String)
  /-- `HandleFinish`: next `status_ = WAIT_PROCESSING`. -/
  | handleFinish
  /-- Next `Reset()`. -/
  | reset
  /-- Next `manager_->RegisterCallDataToCQ(this)`. -/
  | register
  deriving DecidableEq, Repr

/-- What the code outside `CallData` itself decides: the outcome of `PerformAuthentication` on the metadata of an RPC,
and the two halves of `RunSpecificLogic`, the call of the business service with the request and the user id (its result,
or the text of the exception it throws) and the writes of a result into `reply_`. The first two have an outcome on every
input. -/
structure Logic (Req Res Rep Md : Type) where
  performAuthentication : Md → Except GrpcStatus String → Prop
  performAuthentication_total : ∀ md, ∃ result, performAuthentication md result
  callService : Rpc → Req → String → Except String Res → Prop
  callService_total : ∀ rpc request userId, ∃ result, callService rpc request userId result
  /-- What `reply_` is after the writes, by what it was before: they set single fields in place. -/
  fillReply : Rpc → Res → Rep → Rep

/-- The server: `objects` are the pools of the five managers, an object's position is its tag. -/
structure Server (Req Rep Md : Type) where
  objects : List (CallData Req Rep Md)
  /-- Operations issued and not yet delivered by `Next`. -/
  cq : List (CqOp × Nat)
  /-- `Proceed` calls that have not yet issued their next operation. -/
  handlers : List (Nat × Pc)
  /-- Spawned coroutines that have not yet called `Finish`, with the user id they captured. -/
  coroutines : List (Nat × String)
  /-- What each `Finish` sent to its client. -/
  sent : List (Nat × Rep × GrpcStatus)
  /-- Worker threads started by `StartListeningThread`. -/
  workers : Nat
  /-- Worker threads whose `HandleRpc` loop has ended. -/
  exited : Nat
  /-- `server_->Shutdown()` has been called. -/
  serverDown : Bool
  /-- `cq_->Shutdown()` has been called. -/
  cqDown : Bool
  /-- Operations issued on the completion queue after its shutdown. -/
  forbidden : List (CqOp × Nat)

variable {Req Res Rep Md : Type}

/-- Nothing seeded, no worker thread. -/
def Server.empty : Server Req Rep Md := ⟨[], [], [], [], [], 0, 0, false, false, []⟩

/-- Issue an operation on the completion queue. -/
def Server.issue (s : Server Req Rep Md) (op : CqOp) (o : Nat) : Server Req Rep Md :=
  if s.cqDown then { s with forbidden := s.forbidden ++ [(op, o)] } else { s with cq := s.cq ++ [(op, o)] }

/-- Rewrite object `o`. -/
def Server.modify (s : Server Req Rep Md) (o : Nat) (f : CallData Req Rep Md → CallData Req Rep Md) :
    Server Req Rep Md := { s with objects := s.objects.modify o f }

/-- The object as its constructor leaves it. -/
def CallData.make [Inhabited Req] [Inhabited Rep] [Inhabited Md] (rpc : Rpc) : CallData Req Rep Md :=
  ⟨rpc, .waitProcessing, default, default, default⟩

/-- `CallData::Reset`. -/
def CallData.reset [Inhabited Req] [Inhabited Rep] [Inhabited Md] (d : CallData Req Rep Md) : CallData Req Rep Md :=
  { d with ctx_ := default, reply_ := default, request_ := default }

/-- The end of `RunSpecificLogic` and `CallData::OnLogicFinished`: the reply and the status given to
`responder_.Finish`. A coroutine that throws has not touched `reply_`: it writes it after its last suspension. -/
def CallData.onLogicFinished (fillReply : Rpc → Res → Rep → Rep) (d : CallData Req Rep Md) :
    Except String Res → Rep × GrpcStatus
  | .ok result => (fillReply d.rpc result d.reply_, .OK)
  | .error what => (d.reply_, ⟨.internal, what⟩)

/-- The labels of the server's steps. -/
inductive Label (Req Res Md : Type) where
  | seed (rpc : Rpc)
  | startListeningThread (threads : Nat)
  | deliver (op : CqOp) (o : Nat) (ok : Bool) (rpc : Req × Md)
  | proceed (o : Nat)
  | performAuthentication (o : Nat) (result : Except GrpcStatus String)
  | writeStatus (o : Nat)
  | finish (o : Nat)
  | coSpawn (o : Nat)
  | reset (o : Nat)
  | registerCallDataToCQ (o : Nat)
  | onLogicFinished (o : Nat) (result : Except String Res)
  | shutdownServer
  | shutdownCq
  | drain (op : CqOp) (o : Nat)
  | exit

variable [Inhabited Req] [Inhabited Rep] [Inhabited Md]

/-- The continuation of a `Proceed` call after its entry. -/
def Pc.next (ok : Bool) (status : Status) : Pc :=
  if ok then
    match status with
    | .waitProcessing => .handleProcess
    | .finished => .handleFinish
  else .handleFinish

/-- The outcome of the authentication branch of `HandleProcess`. -/
def Pc.ofAuth : Except GrpcStatus String → Pc
  | .error err => .authFailed err
  | .ok userId => .authPassed userId

/-- One step of the server. -/
inductive Server.Step (L : Logic Req Res Rep Md) :
    Server Req Rep Md → Label Req Res Md → Server Req Rep Md → Prop where
  /-- `CallDataManager::Start`, one round of its loop. -/
  | seed (s : Server Req Rep Md) (rpc : Rpc) (hw : s.workers = 0) (hdown : s.serverDown = false) :
      Step L s (.seed rpc)
        (Server.issue { s with objects := s.objects ++ [CallData.make rpc] } .request s.objects.length)
  | startListeningThread (s : Server Req Rep Md) (threads : Nat) (hw : s.workers = 0)
      (hdown : s.serverDown = false) :
      Step L s (.startListeningThread threads) { s with workers := threads }
  /-- `cq_->Next` hands a tag to a free worker thread, which enters `Proceed(ok)`. A `Request` tag with `ok` brings
  the request and the metadata of its RPC; after the server's shutdown it is delivered with `ok = false`. -/
  | deliver (s : Server Req Rep Md) (l r) (op : CqOp) (o : Nat) (ok : Bool) (rpc : Req × Md)
      (hcq : s.cq = l ++ (op, o) :: r) (hfree : s.handlers.length + s.exited < s.workers)
      (hok : op = .request → s.serverDown = true → ok = false) :
      Step L s (.deliver op o ok rpc)
        (Server.modify { s with cq := l ++ r, handlers := s.handlers ++ [(o, .proceed ok)] } o fun d =>
          if op = .request ∧ ok = true then { d with request_ := rpc.1, ctx_ := rpc.2 } else d)
  /-- `CallData::Proceed`: the test of `ok` and the switch on `status_`. -/
  | proceed (s : Server Req Rep Md) (l r) (o : Nat) (ok : Bool) (d)
      (hh : s.handlers = l ++ (o, .proceed ok) :: r) (hd : s.objects[o]? = some d) :
      Step L s (.proceed o) { s with handlers := l ++ (o, .next ok d.status_) :: r }
  | performAuthentication (s : Server Req Rep Md) (l r) (o : Nat) (d) (result)
      (hh : s.handlers = l ++ (o, .handleProcess) :: r) (hd : s.objects[o]? = some d)
      (hauth : if d.rpc.kRequiresAuth then L.performAuthentication d.ctx_ result else result = .ok "") :
      Step L s (.performAuthentication o result) { s with handlers := l ++ (o, .ofAuth result) :: r }
  | failStatus (s : Server Req Rep Md) (l r) (o : Nat) (err) (hh : s.handlers = l ++ (o, .authFailed err) :: r) :
      Step L s (.writeStatus o)
        (Server.modify { s with handlers := l ++ (o, .finish err) :: r } o fun d => { d with status_ := .finished })
  | passStatus (s : Server Req Rep Md) (l r) (o : Nat) (userId)
      (hh : s.handlers = l ++ (o, .authPassed userId) :: r) :
      Step L s (.writeStatus o)
        (Server.modify { s with handlers := l ++ (o, .coSpawn userId) :: r } o fun d =>
          { d with status_ := .finished })
  /-- `responder_.Finish(reply_, auth_result.error(), this)`. -/
  | finish (s : Server Req Rep Md) (l r) (o : Nat) (err) (d) (hh : s.handlers = l ++ (o, .finish err) :: r)
      (hd : s.objects[o]? = some d) :
      Step L s (.finish o)
        (Server.issue { s with handlers := l ++ r, sent := s.sent ++ [(o, d.reply_, err)] } .finish o)
  | coSpawn (s : Server Req Rep Md) (l r) (o : Nat) (userId) (hh : s.handlers = l ++ (o, .coSpawn userId) :: r) :
      Step L s (.coSpawn o) { s with handlers := l ++ r, coroutines := s.coroutines ++ [(o, userId)] }
  | finishStatus (s : Server Req Rep Md) (l r) (o : Nat) (hh : s.handlers = l ++ (o, .handleFinish) :: r) :
      Step L s (.writeStatus o)
        (Server.modify { s with handlers := l ++ (o, .reset) :: r } o fun d =>
          { d with status_ := .waitProcessing })
  | reset (s : Server Req Rep Md) (l r) (o : Nat) (hh : s.handlers = l ++ (o, .reset) :: r) :
      Step L s (.reset o) (Server.modify { s with handlers := l ++ (o, .register) :: r } o CallData.reset)
  /-- `manager_->RegisterCallDataToCQ(this)`: `SpecificRegisterCallDataToCQ` issues the `Request` operation. -/
  | register (s : Server Req Rep Md) (l r) (o : Nat) (hh : s.handlers = l ++ (o, .register) :: r) :
      Step L s (.registerCallDataToCQ o) (Server.issue { s with handlers := l ++ r } .request o)
  /-- The coroutine ends, by return or by exception, and its completion handler calls `responder_.Finish`. -/
  | onLogicFinished (s : Server Req Rep Md) (l r) (o : Nat) (userId) (d) (result)
      (hc : s.coroutines = l ++ (o, userId) :: r) (hd : s.objects[o]? = some d)
      (hrun : L.callService d.rpc d.request_ userId result) :
      Step L s (.onLogicFinished o result)
        (Server.issue (Server.modify
          { s with coroutines := l ++ r, sent := s.sent ++ [(o, d.onLogicFinished L.fillReply result)] } o fun d =>
            { d with reply_ := (d.onLogicFinished L.fillReply result).1 }) .finish o)
  /-- `server_->Shutdown()`. -/
  | shutdownServer (s : Server Req Rep Md) : Step L s .shutdownServer { s with serverDown := true }
  /-- `cq_->Shutdown()`, called after `server_->Shutdown()`. -/
  | shutdownCq (s : Server Req Rep Md) (hdown : s.serverDown = true) :
      Step L s .shutdownCq { s with cqDown := true }
  /-- The draining loop of `Shutdown` when no worker thread was started: the tag is dropped. -/
  | drain (s : Server Req Rep Md) (l r) (op : CqOp) (o : Nat) (hcq : s.cq = l ++ (op, o) :: r)
      (hw : s.workers = 0) (hdown : s.cqDown = true) : Step L s (.drain op o) { s with cq := l ++ r }
  /-- `cq_->Next` returns false: the queue is shut down and drained, and a free worker leaves `HandleRpc`. -/
  | exit (s : Server Req Rep Md) (hcq : s.cq = []) (hdown : s.cqDown = true)
      (hfree : s.handlers.length + s.exited < s.workers) :
      Step L s .exit { s with exited := s.exited + 1 }

/-- The server as a transition system. -/
def Server.system (L : Logic Req Res Rep Md) : Lts (Server Req Rep Md) (Label Req Res Md) where
  init s := s = Server.empty
  step := Server.Step L

end PhotonCommerce.Adapter
