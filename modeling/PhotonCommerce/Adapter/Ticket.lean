import PhotonCommerce.Adapter.Isolation
import PhotonCommerce.Lib.Ranking
import PhotonCommerce.Lib.Simulation
import Mathlib.Data.List.Nodup
import Mathlib.Data.List.Range

/-!
# The server, seen from one object

* `Ticket` : what is outstanding for an object, and its `status_`; `Ticket.Step` : how it goes on;
* `Server.seen_from` : seen from one object, every run of the server is a run of its ticket;
* `Server.answered_once` : until the queue is shut down every RPC that is accepted is answered once, or under way;
* `Server.answers_soon` : until then an RPC under way can go on, and is answered after at most four more of its steps;
* `Server.limits` : of the objects of a kind of RPC none is ever lost, and no more RPCs of the kind are under way.
-/

namespace PhotonCommerce.Adapter
open Transition

variable {Req Res Rep Md : Type}

/-! ## The ticket of an object -/

/-- An object as the rest of the server sees it. -/
structure Ticket where
  thing : Thing
  status_ : Status
  deriving DecidableEq, Repr

/-- An object that waits for an RPC. -/
def Ticket.fresh : Ticket := ⟨.requestOp, .waitProcessing⟩

inductive TicketLabel where
  /-- The `Request` tag brings an RPC. -/
  | accept
  /-- The `Request` tag comes with `ok = false`. -/
  | refuse
  /-- The `Finish` tag comes. -/
  | finished
  /-- The `Proceed` call goes on. -/
  | go
  /-- `responder_.Finish` is called. -/
  | answer
  deriving DecidableEq, Repr

/-- One step of a ticket. -/
inductive Ticket.Step : Ticket → TicketLabel → Ticket → Prop where
  | accept (st : Status) : Step ⟨.requestOp, st⟩ .accept ⟨.handler (.proceed true), st⟩
  | refuse (st : Status) : Step ⟨.requestOp, st⟩ .refuse ⟨.handler (.proceed false), st⟩
  | finished (ok : Bool) (st : Status) : Step ⟨.finishOp, st⟩ .finished ⟨.handler (.proceed ok), st⟩
  | proceed (ok : Bool) (st : Status) : Step ⟨.handler (.proceed ok), st⟩ .go ⟨.handler (.next ok st), st⟩
  | auth (result : Except GrpcStatus String) (st : Status) :
      Step ⟨.handler .handleProcess, st⟩ .go ⟨.handler (.ofAuth result), st⟩
  | failStatus (err : GrpcStatus) (st : Status) :
      Step ⟨.handler (.authFailed err), st⟩ .go ⟨.handler (.finish err), .finished⟩
  | passStatus (userId : String) (st : Status) :
      Step ⟨.handler (.authPassed userId), st⟩ .go ⟨.handler (.coSpawn userId), .finished⟩
  | finish (err : GrpcStatus) (st : Status) : Step ⟨.handler (.finish err), st⟩ .answer ⟨.finishOp, st⟩
  | coSpawn (userId : String) (st : Status) :
      Step ⟨.handler (.coSpawn userId), st⟩ .go ⟨.coroutine userId, st⟩
  | onLogicFinished (userId : String) (st : Status) : Step ⟨.coroutine userId, st⟩ .answer ⟨.finishOp, st⟩
  | finishStatus (st : Status) : Step ⟨.handler .handleFinish, st⟩ .go ⟨.handler .reset, .waitProcessing⟩
  | reset (st : Status) : Step ⟨.handler .reset, st⟩ .go ⟨.handler .register, st⟩
  | register (st : Status) : Step ⟨.handler .register, st⟩ .go ⟨.requestOp, st⟩

/-- One object as a transition system. -/
def Ticket.system : Lts Ticket TicketLabel where
  init k := k = .fresh
  step := Ticket.Step

/-- An RPC has been accepted and not answered. -/
def Thing.owes : Thing → Status → Bool
  | .coroutine _, _ => true
  | .handler (.proceed ok), st => ok && st == .waitProcessing
  | .handler .handleProcess, _ => true
  | .handler (.authFailed _), _ => true
  | .handler (.finish _), _ => true
  | .handler (.authPassed _), _ => true
  | .handler (.coSpawn _), _ => true
  | _, _ => false

/-- How many steps the answer is away. -/
def Thing.toAnswer : Thing → Nat
  | .handler (.proceed _) => 5
  | .handler .handleProcess => 4
  | .handler (.authPassed _) => 3
  | .handler (.authFailed _) => 2
  | .handler (.coSpawn _) => 2
  | _ => 1

section Ticket
variable {k k' : Ticket} {ev : TicketLabel} {evs : List TicketLabel}

theorem Ticket.Step.allows (h : Ticket.Step k ev k') (hk : k.thing.allows k.status_) :
    k'.thing.allows k'.status_ := by
  cases h with
  | proceed ok st =>
      cases ok with
      | false => trivial
      | true => cases st <;> trivial
  | auth result st => cases result <;> trivial
  | _ => first | exact hk | trivial

/-- A step accepts an RPC, answers it, or leaves it as it is. -/
theorem Ticket.Step.owes (h : Ticket.Step k ev k') (hk : k.thing.allows k.status_) :
    (k'.thing.owes k'.status_).toNat + (if ev == .answer then 1 else 0) =
      (k.thing.owes k.status_).toNat + (if ev == .accept then 1 else 0) := by
  cases h with
  | accept st =>
      obtain rfl : st = .waitProcessing := hk
      rfl
  | finished ok st =>
      obtain rfl : st = .finished := hk
      cases ok <;> rfl
  | proceed ok st =>
      cases ok with
      | false => rfl
      | true => cases st <;> rfl
  | auth result st => cases result <;> rfl
  | _ => rfl

/-- While an answer is owed every step but the answer comes closer to it. -/
theorem Ticket.Step.toAnswer (h : Ticket.Step k ev k') (hk : k.thing.owes k.status_ = true) (hev : ev ≠ .answer) :
    k'.thing.owes k'.status_ = true ∧ k'.thing.toAnswer + 1 ≤ k.thing.toAnswer := by
  cases h with
  | proceed ok st =>
      cases ok with
      | false => cases hk
      | true =>
          cases st with
          | waitProcessing => exact ⟨rfl, Nat.le_refl _⟩
          | finished => cases hk
  | auth result st =>
      cases result with
      | error err => exact ⟨rfl, Nat.le_succ 3⟩
      | ok userId => exact ⟨rfl, Nat.le_refl _⟩
  | failStatus err st => exact ⟨rfl, Nat.le_refl _⟩
  | passStatus userId st => exact ⟨rfl, Nat.le_refl _⟩
  | coSpawn userId st => exact ⟨rfl, Nat.le_refl _⟩
  | finish err st => exact absurd rfl hev
  | onLogicFinished userId st => exact absurd rfl hev
  | _ => cases hk

end Ticket

/-! ## The server, seen from an object -/

/-- What the step of an object is for its ticket. -/
def Label.ticketLabel : Label Req Res Md → List TicketLabel
  | .deliver .request _ true _ => [.accept]
  | .deliver .request _ false _ => [.refuse]
  | .deliver .finish _ _ _ => [.finished]
  | .proceed _ => [.go]
  | .performAuthentication _ _ => [.go]
  | .writeStatus _ => [.go]
  | .finish _ => [.answer]
  | .coSpawn _ => [.go]
  | .reset _ => [.go]
  | .registerCallDataToCQ _ => [.go]
  | .onLogicFinished _ _ => [.answer]
  | _ => []

/-- What a step is for the ticket of object `o`. -/
def Label.seenFrom (o : Nat) (lab : Label Req Res Md) : List TicketLabel :=
  if lab.object? = some o then lab.ticketLabel else []

/-- Object `o` has the ticket; one not yet seeded is as one that waits. -/
def Server.HasTicket (s : Server Req Rep Md) (o : Nat) (k : Ticket) : Prop :=
  if o < s.objects.length then s.outstanding o = [k.thing] ∧ (s.objects[o]?).map CallData.status_ = some k.status_
  else k = .fresh

section SeenFrom
variable {s t : Server Req Rep Md} {o : Nat} {k : Ticket} {x y : Thing}

theorem Server.hasTicket_iff (hlt : o < s.objects.length) : s.HasTicket o k ↔
    s.outstanding o = [k.thing] ∧ (s.objects[o]?).map CallData.status_ = some k.status_ := by
  rw [Server.HasTicket, if_pos hlt]

theorem Server.hasTicket_empty : (Server.empty : Server Req Rep Md).HasTicket o .fresh := by
  simp [Server.HasTicket, Server.empty]

/-- A move of an object, and its new `status_`. -/
theorem Server.Moves.ticket {st : Status} (hm : s.Moves t o y) (hlt : o < s.objects.length)
    (h : s.outstanding o = [x]) (hst : (t.objects[o]?).map CallData.status_ = some st) :
    t.HasTicket o ⟨y, st⟩ := by
  rw [Server.hasTicket_iff (by rw [hm.size]; exact hlt)]
  exact ⟨hm.eq_singleton h, hst⟩

/-- The ticket of an object is its outstanding thing. -/
theorem Server.HasTicket.of_mem (h : s.HasTicket o k) (hinv : s.Inv) (hx : x ∈ s.outstanding o) :
    o < s.objects.length ∧ k = ⟨x, k.status_⟩ ∧ s.outstanding o = [x] ∧
      (s.objects[o]?).map CallData.status_ = some k.status_ := by
  have hlt := hinv.lt hx
  obtain ⟨hout, hst⟩ := (Server.hasTicket_iff hlt).mp h
  rw [hout] at hx
  obtain rfl := List.mem_singleton.mp hx
  exact ⟨hlt, rfl, hout, hst⟩

theorem Server.status_modify {f : CallData Req Rep Md → CallData Req Rep Md} (g : Status → Status)
    (hf : ∀ d, (f d).status_ = g d.status_) :
    ((s.modify o f).objects[o]?).map CallData.status_ = ((s.objects[o]?).map CallData.status_).map g := by
  rw [Server.modify, List.getElem?_modify_eq]
  cases s.objects[o]? with
  | none => rfl
  | some d => exact congrArg some (hf d)

variable [Inhabited Req] [Inhabited Rep] [Inhabited Md] {L : Logic Req Res Rep Md} {lab : Label Req Res Md}

theorem Server.Step.up_of_ne (hstep : Server.Step L s lab t) (hup : s.cqDown = false) (hlab : lab ≠ .shutdownCq) :
    t.cqDown = false := by
  cases hstep with
  | shutdownCq => exact absurd rfl hlab
  | _ => simp [hup]

/-- A step of the object is a step of its ticket. -/
theorem Server.Step.ticket_self (hstep : Server.Step L s lab t) (hinv : s.Inv) (hup : s.cqDown = false)
    (hobj : lab.object? = some o) (h : s.HasTicket o k) :
    ∃ ev k', lab.ticketLabel = [ev] ∧ Ticket.Step k ev k' ∧ t.HasTicket o k' := by
  cases hstep with
  | seed rpc => cases hobj
  | startListeningThread threads => cases hobj
  | shutdownServer => cases hobj
  | shutdownCq => cases hobj
  | exit => cases hobj
  | drain l r op o' hcq hw hdown => exact absurd hup (by simp [hdown])
  | deliver l r op o' ok rpc hcq =>
      obtain rfl := Option.some.inj hobj
      obtain ⟨hlt, hk, hout, hst⟩ := h.of_mem hinv (Server.mem_outstanding_cq hcq)
      have ht : Server.HasTicket (Server.modify { s with cq := l ++ r, handlers := s.handlers ++ [(o', .proceed ok)] } o'
          fun d => if op = .request ∧ ok = true then { d with request_ := rpc.1, ctx_ := rpc.2 } else d) o'
          ⟨.handler (.proceed ok), k.status_⟩ := by
        refine Server.Moves.ticket (Server.Moves.cqToHandler hcq rfl rfl rfl ?_ ?_) hlt hout ?_
        · exact Server.modify_length _ _ _
        · exact fun o' ho' => Server.modify_frame _ _ _ ho'
        · rw [Server.status_modify id, Option.map_id]
          · exact hst
          · intro d
            split <;> rfl
      rw [hk]
      cases op with
      | request =>
          cases ok with
          | false => exact ⟨.refuse, _, rfl, .refuse _, ht⟩
          | true => exact ⟨.accept, _, rfl, .accept _, ht⟩
      | finish => exact ⟨.finished, _, rfl, .finished ok _, ht⟩
  | proceed l r o' ok d hh hd =>
      obtain rfl := Option.some.inj hobj
      obtain ⟨hlt, hk, hout, hst⟩ := h.of_mem hinv (Server.mem_outstanding_handler hh)
      have hd' : d.status_ = k.status_ := by simpa [hd] using hst
      rw [hk, hd']
      refine ⟨.go, _, rfl, .proceed ok _, Server.Moves.ticket (Server.Moves.advance hh rfl rfl rfl ?_ ?_) hlt hout hst⟩
      · rfl
      · exact fun _ _ => rfl
  | performAuthentication l r o' d result hh =>
      obtain rfl := Option.some.inj hobj
      obtain ⟨hlt, hk, hout, hst⟩ := h.of_mem hinv (Server.mem_outstanding_handler hh)
      rw [hk]
      refine ⟨.go, _, rfl, .auth result _, Server.Moves.ticket (Server.Moves.advance hh rfl rfl rfl ?_ ?_) hlt hout hst⟩
      · rfl
      · exact fun _ _ => rfl
  | failStatus l r o' err hh =>
      obtain rfl := Option.some.inj hobj
      obtain ⟨hlt, hk, hout, hst⟩ := h.of_mem hinv (Server.mem_outstanding_handler hh)
      rw [hk]
      refine ⟨.go, _, rfl, .failStatus err _, Server.Moves.ticket (Server.Moves.advance hh rfl rfl rfl ?_ ?_) hlt hout ?_⟩
      · exact Server.modify_length _ _ _
      · exact fun o' ho' => Server.modify_frame _ _ _ ho'
      · rw [Server.status_modify fun _ => .finished]
        · simp only [hst, Option.map_some]
        · exact fun _ => rfl
  | passStatus l r o' userId hh =>
      obtain rfl := Option.some.inj hobj
      obtain ⟨hlt, hk, hout, hst⟩ := h.of_mem hinv (Server.mem_outstanding_handler hh)
      rw [hk]
      refine ⟨.go, _, rfl, .passStatus userId _,
        Server.Moves.ticket (Server.Moves.advance hh rfl rfl rfl ?_ ?_) hlt hout ?_⟩
      · exact Server.modify_length _ _ _
      · exact fun o' ho' => Server.modify_frame _ _ _ ho'
      · rw [Server.status_modify fun _ => .finished]
        · simp only [hst, Option.map_some]
        · exact fun _ => rfl
  | finish l r o' err d hh hd =>
      obtain rfl := Option.some.inj hobj
      obtain ⟨hlt, hk, hout, hst⟩ := h.of_mem hinv (Server.mem_outstanding_handler hh)
      rw [hk, Server.issue_of_up _ _ _ (by exact hup)]
      exact ⟨.answer, _, rfl, .finish err _,
        Server.Moves.ticket (y := CqOp.finish.thing) (Server.Moves.handlerToCq hh rfl rfl rfl rfl) hlt hout hst⟩
  | coSpawn l r o' userId hh =>
      obtain rfl := Option.some.inj hobj
      obtain ⟨hlt, hk, hout, hst⟩ := h.of_mem hinv (Server.mem_outstanding_handler hh)
      rw [hk]
      exact ⟨.go, _, rfl, .coSpawn userId _,
        Server.Moves.ticket (Server.Moves.handlerToCoroutine hh rfl rfl rfl rfl) hlt hout hst⟩
  | finishStatus l r o' hh =>
      obtain rfl := Option.some.inj hobj
      obtain ⟨hlt, hk, hout, hst⟩ := h.of_mem hinv (Server.mem_outstanding_handler hh)
      rw [hk]
      refine ⟨.go, _, rfl, .finishStatus _, Server.Moves.ticket (Server.Moves.advance hh rfl rfl rfl ?_ ?_) hlt hout ?_⟩
      · exact Server.modify_length _ _ _
      · exact fun o' ho' => Server.modify_frame _ _ _ ho'
      · rw [Server.status_modify fun _ => .waitProcessing]
        · simp only [hst, Option.map_some]
        · exact fun _ => rfl
  | reset l r o' hh =>
      obtain rfl := Option.some.inj hobj
      obtain ⟨hlt, hk, hout, hst⟩ := h.of_mem hinv (Server.mem_outstanding_handler hh)
      rw [hk]
      refine ⟨.go, _, rfl, .reset _, Server.Moves.ticket (Server.Moves.advance hh rfl rfl rfl ?_ ?_) hlt hout ?_⟩
      · exact Server.modify_length _ _ _
      · exact fun o' ho' => Server.modify_frame _ _ _ ho'
      · rw [Server.status_modify id, Option.map_id]
        · exact hst
        · exact fun _ => rfl
  | register l r o' hh =>
      obtain rfl := Option.some.inj hobj
      obtain ⟨hlt, hk, hout, hst⟩ := h.of_mem hinv (Server.mem_outstanding_handler hh)
      rw [hk, Server.issue_of_up _ _ _ (by exact hup)]
      exact ⟨.go, _, rfl, .register _,
        Server.Moves.ticket (y := CqOp.request.thing) (Server.Moves.handlerToCq hh rfl rfl rfl rfl) hlt hout hst⟩
  | onLogicFinished l r o' userId d result hc hd =>
      obtain rfl := Option.some.inj hobj
      obtain ⟨hlt, hk, hout, hst⟩ := h.of_mem hinv (Server.mem_outstanding_coroutine hc)
      rw [hk, Server.issue_of_up _ _ _ (by exact hup)]
      refine ⟨.answer, _, rfl, .onLogicFinished userId _,
        Server.Moves.ticket (y := CqOp.finish.thing) (Server.Moves.coroutineToCq hc rfl rfl rfl ?_ ?_) hlt hout ?_⟩
      · exact Server.modify_length _ _ _
      · exact fun o' ho' => Server.modify_frame _ _ _ ho'
      · dsimp only
        rw [Server.status_modify id, Option.map_id]
        · exact hst
        · exact fun _ => rfl

theorem Server.Step.length (hstep : Server.Step L s lab t) :
    (∃ rpc, lab = .seed rpc) ∨ t.objects.length = s.objects.length := by
  cases hstep with
  | seed rpc => exact .inl ⟨rpc, rfl⟩
  | _ => exact .inr (by simp)

/-- A step is none, or one of the ticket. -/
theorem Server.Step.ticket (hstep : Server.Step L s lab t) (hinv : s.Inv) (hup : s.cqDown = false)
    (ht : t.cqDown = false) (h : s.HasTicket o k) :
    ∃ k', Run Ticket.system k (lab.seenFrom o) k' ∧ t.HasTicket o k' := by
  unfold Label.seenFrom
  by_cases hobj : lab.object? = some o
  · obtain ⟨ev, k', hev, hk, hk'⟩ := hstep.ticket_self hinv hup hobj h
    rw [if_pos hobj, hev]
    exact ⟨k', Run.single hk, hk'⟩
  · rw [if_neg hobj]
    refine ⟨k, Run.refl k, ?_⟩
    by_cases hlt : o < s.objects.length
    · obtain ⟨hout, hsame, -⟩ := hstep.frame hobj hlt ⟨[], []⟩
      have hlt' : o < t.objects.length := by
        by_contra hge
        rw [List.getElem?_eq_none (Nat.not_lt.mp hge)] at hsame
        exact hge (absurd hlt (Nat.not_lt.mpr (List.getElem?_eq_none_iff.mp hsame.symm)))
      rw [Server.hasTicket_iff hlt', hout, hsame]
      exact (Server.hasTicket_iff hlt).mp h
    · obtain rfl : k = .fresh := by rwa [Server.HasTicket, if_neg hlt] at h
      by_cases hlt' : o < t.objects.length
      · -- it is seeded by this step
        have hinv' := hinv.step hup hstep ht
        rcases hstep.length with ⟨rpc, rfl⟩ | hlen
        · cases hstep with
          | seed rpc hw hdown =>
              rw [Server.hasTicket_iff hlt']
              rw [Server.issue_objects, List.length_append, List.length_singleton] at hlt'
              obtain rfl : o = s.objects.length := by omega
              refine ⟨hinv'.eq_singleton ?_, by simp [CallData.make, Ticket.fresh]⟩
              rw [Server.issue_of_up _ _ _ (by exact hup)]
              exact show CqOp.request.thing ∈ _ from Server.mem_outstanding_cq rfl
        · omega
      · rw [Server.HasTicket, if_neg hlt']

/-- Before the queue is shut down nothing shuts it down and nothing is drained. -/
theorem Server.up_of_run {labs : List (Label Req Res Md)} (hrun : Run (Server.system L) s labs t)
    (hup : t.cqDown = false) :
    s.cqDown = false ∧ ∀ lab ∈ labs, lab ≠ .shutdownCq ∧ ∀ op o, lab ≠ .drain op o := by
  induction hrun with
  | refl => exact ⟨hup, fun lab hlab => absurd hlab List.not_mem_nil⟩
  | @tail t u labs lab hrun hstep ih =>
      obtain ⟨hs, hlabs⟩ := ih (Server.Step.up hstep hup)
      refine ⟨hs, fun lab' hmem => ?_⟩
      rcases List.mem_append.mp hmem with hmem | hmem
      · exact hlabs lab' hmem
      · rw [List.mem_singleton.mp hmem]
        have ht := Server.Step.up hstep hup
        cases hstep with
        | shutdownCq => cases hup
        | drain l r op o hcq hw hdown => exact absurd ht (by simp [hdown])
        | _ => exact ⟨by simp, by simp⟩

/-- Seen from one object, a run of the server is a run of its ticket. -/
theorem Server.run_ticket {labs : List (Label Req Res Md)} (hrun : Run (Server.system L) s labs t) (hinv : s.Inv)
    (hup : t.cqDown = false) (h : s.HasTicket o k) :
    ∃ k', Run Ticket.system k (labs.flatMap (Label.seenFrom o)) k' ∧ t.HasTicket o k' := by
  obtain ⟨hs, hlabs⟩ := Server.up_of_run hrun hup
  have hsim : ∀ (s : Server Req Rep Md) (lab : Label Req Res Md) (t : Server Req Rep Md) (k : Ticket),
      lab ≠ .shutdownCq → s.Inv ∧ s.cqDown = false ∧ s.HasTicket o k → Server.Step L s lab t →
      ∃ k', Run Ticket.system k (lab.seenFrom o) k' ∧ t.Inv ∧ t.cqDown = false ∧ t.HasTicket o k' := by
    intro s lab t k hlab hV hstep
    obtain ⟨hinv, hs, h⟩ := hV
    have ht := Server.Step.up_of_ne hstep hs hlab
    obtain ⟨k', hk', h'⟩ := Server.Step.ticket hstep hinv hs ht h
    exact ⟨k', hk', hinv.step hs hstep ht, ht, h'⟩
  obtain ⟨k', hk', -, -, ht⟩ := Run.simulate hsim hrun (fun lab hlab => (hlabs lab hlab).1) ⟨hinv, hs, h⟩
  exact ⟨k', hk', ht⟩

/-- **Seen from one object, every run of the server is a run of its ticket**, whatever the other objects, the worker
threads and the coroutines do, until `cq_->Shutdown()`. -/
theorem Server.seen_from {labs : List (Label Req Res Md)} (hrun : Run (Server.system L) .empty labs s)
    (hup : s.cqDown = false) (o : Nat) :
    ∃ k, Run Ticket.system .fresh (labs.flatMap (Label.seenFrom o)) k ∧ s.HasTicket o k :=
  Server.run_ticket hrun Server.inv_empty hup Server.hasTicket_empty

end SeenFrom

/-- The steps of a run to `Server.beforeSpawn`. -/
def Server.labelsBeforeSpawn : List (Label Unit Unit Unit) :=
  [.seed .getUserInfo, .seed .register, .startListeningThread 1, .deliver .request 0 true ((), ()), .proceed 0,
    .performAuthentication 0 (.ok "u"), .writeStatus 0]

theorem Server.run_beforeSpawn :
    Run (Server.system Logic.trivial) .empty Server.labelsBeforeSpawn Server.beforeSpawn := by
  have h₁ : Run (Server.system Logic.trivial) .empty [.seed .getUserInfo] _ := Run.single (Step.seed _ _ rfl rfl)
  have h₂ := h₁.tail (Step.seed _ .register rfl rfl)
  have h₃ := h₂.tail (Step.startListeningThread _ 1 rfl rfl)
  have h₄ := h₃.tail (Step.deliver _ [] [(.request, 1)] .request 0 true ((), ()) rfl (by decide) (by decide))
  have h₅ := h₄.tail (Step.proceed _ [] [] 0 true _ rfl rfl)
  have h₆ := h₅.tail (Step.performAuthentication _ [] [] 0 _ (.ok "u") rfl rfl rfl)
  exact h₆.tail (Step.passStatus _ [] [] 0 "u" rfl)

theorem Server.seen_from_beforeSpawn :
    ∃ k, Run Ticket.system .fresh [.accept, .go, .go, .go] k ∧ Server.beforeSpawn.HasTicket 0 k :=
  Server.seen_from Server.run_beforeSpawn rfl 0

/-! ## Every RPC is answered once -/

/-- The step accepts an RPC with object `o`. -/
def Label.accepts (o : Nat) : Label Req Res Md → Bool
  | .deliver .request o' true _ => o' = o
  | _ => false

/-- Object `o` has accepted an RPC and not answered it. -/
def Server.owes (s : Server Req Rep Md) (o : Nat) : Bool :=
  match s.objects[o]? with
  | none => false
  | some d => (s.outstanding o).any (·.owes d.status_)

/-- What `Finish` was given for object `o`. -/
def Server.answers (s : Server Req Rep Md) (o : Nat) : List (Rep × GrpcStatus) := ofObject o s.sent

section Answers
variable {s t : Server Req Rep Md} {o : Nat} {k k' : Ticket} {evs : List TicketLabel}

theorem Server.HasTicket.owes (h : s.HasTicket o k) : s.owes o = k.thing.owes k.status_ := by
  unfold Server.owes
  by_cases hlt : o < s.objects.length
  · obtain ⟨hout, hst⟩ := (Server.hasTicket_iff hlt).mp h
    rw [List.getElem?_eq_getElem hlt] at hst ⊢
    simp only [Option.map_some, Option.some.injEq] at hst
    simp [hout, hst]
  · rw [Server.HasTicket, if_neg hlt] at h
    rw [List.getElem?_eq_none (Nat.not_lt.mp hlt), h]
    rfl

/-- What a ticket accepts it answers, or owes. -/
theorem Ticket.balance (hrun : Run Ticket.system k evs k') (hk : k.thing.allows k.status_) :
    (k'.thing.owes k'.status_).toNat + evs.countP (· == .answer) =
      (k.thing.owes k.status_).toNat + evs.countP (· == .accept) :=
  Run.balance (I := fun k => k.thing.allows k.status_) (fun _ _ _ hk h => Ticket.Step.allows h hk)
    (fun _ _ _ hk h => Ticket.Step.owes h hk) hrun hk

theorem Label.count_accept (lab : Label Req Res Md) :
    (lab.seenFrom o).countP (· == .accept) = if lab.accepts o then 1 else 0 := by
  unfold Label.seenFrom
  cases lab with
  | deliver op o' ok rpc =>
      cases op <;> cases ok <;> by_cases ho : o' = o <;> simp [Label.object?, Label.ticketLabel, Label.accepts, ho]
  | _ =>
      simp only [Label.ticketLabel, Label.accepts]
      split <;> rfl

theorem countP_accepts (labs : List (Label Req Res Md)) :
    (labs.flatMap (Label.seenFrom o)).countP (· == .accept) = labs.countP (Label.accepts o) := by
  induction labs with
  | nil => rfl
  | cons lab labs ih =>
      rw [List.flatMap_cons, List.countP_append, List.countP_cons, ih, Label.count_accept]
      omega

variable [Inhabited Req] [Inhabited Rep] [Inhabited Md] {L : Logic Req Res Rep Md} {lab : Label Req Res Md}

/-- `Finish` is called by the steps that are answers. -/
theorem Server.Step.answers (hstep : Server.Step L s lab t) :
    (t.answers o).length = (s.answers o).length + (lab.seenFrom o).countP (· == .answer) := by
  unfold Label.seenFrom
  cases hstep with
  | finish l r o' err d hh hd =>
      by_cases ho : o' = o
      · simp [Server.answers, ofObject, Label.object?, Label.ticketLabel, ho]
      · simp [Server.answers, ofObject, Label.object?, ho]
  | onLogicFinished l r o' userId d result hc hd =>
      by_cases ho : o' = o
      · simp [Server.answers, ofObject, Label.object?, Label.ticketLabel, ho]
      · simp [Server.answers, ofObject, Label.object?, ho]
  | deliver l r op o' ok rpc hcq =>
      have hsame : (Server.answers (Server.modify { s with cq := l ++ r, handlers := s.handlers ++ [(o', .proceed ok)] }
        o' fun d => if op = .request ∧ ok = true then { d with request_ := rpc.1, ctx_ := rpc.2 } else d) o) =
          s.answers o := rfl
      rw [hsame]
      cases op <;> cases ok <;> simp [Label.ticketLabel]
  | _ => simp [Server.answers, Label.ticketLabel]

theorem Server.run_answers {labs : List (Label Req Res Md)} (hrun : Run (Server.system L) s labs t) :
    (t.answers o).length = (s.answers o).length + (labs.flatMap (Label.seenFrom o)).countP (· == .answer) := by
  induction hrun with
  | refl => rfl
  | tail _ hstep ih =>
      rw [Server.Step.answers hstep, ih, List.flatMap_append, List.flatMap_singleton, List.countP_append]
      omega

/-- **Every RPC that is accepted is answered once.** In every run of the server, whatever the interleaving, each object
has called `Finish` exactly as often as it has accepted an RPC, but for the one that is under way, until the completion
queue is shut down. -/
theorem Server.answered_once {labs : List (Label Req Res Md)} (hrun : Run (Server.system L) .empty labs s)
    (hup : s.cqDown = false) (o : Nat) :
    labs.countP (Label.accepts o) = (s.answers o).length + (s.owes o).toNat := by
  obtain ⟨k, hk, h⟩ := Server.run_ticket hrun Server.inv_empty hup (o := o) Server.hasTicket_empty
  have hanswers := Server.run_answers (o := o) hrun
  have hbalance := Ticket.balance hk (show Ticket.fresh.thing.allows Ticket.fresh.status_ from rfl)
  rw [countP_accepts] at hbalance
  rw [h.owes, hanswers]
  change _ = 0 + _ + _
  change _ = 0 + _ at hbalance
  omega

end Answers

theorem Server.answered_once_beforeSpawn : 1 = (Server.beforeSpawn.answers 0).length + (Server.beforeSpawn.owes 0).toNat :=
  Server.answered_once Server.run_beforeSpawn rfl 0

/-! ## It is answered soon -/

section Soon
variable {s t : Server Req Rep Md} {o : Nat} {k k' : Ticket} {evs : List TicketLabel}

/-- Until the answer every step of a ticket comes closer to it. -/
theorem Ticket.soon (hrun : Run Ticket.system k evs k') (hk : k.thing.owes k.status_ = true)
    (hevs : evs.countP (· == .answer) = 0) :
    k'.thing.owes k'.status_ = true ∧ evs.length + k'.thing.toAnswer ≤ k.thing.toAnswer := by
  have hne : ∀ ev ∈ evs, ev ≠ .answer := fun ev hev heq => by
    have hnot := List.countP_eq_zero.mp hevs ev hev
    simp [heq] at hnot
  have hkeep : ∀ (k : Ticket) ev k', ev ≠ .answer → k.thing.owes k.status_ = true → Ticket.Step k ev k' →
      k'.thing.owes k'.status_ = true := fun _ _ _ hev hk h => (Ticket.Step.toAnswer h hk hev).1
  have hrank : ∀ (k : Ticket) ev k', ev ≠ .answer → k.thing.owes k.status_ = true → Ticket.Step k ev k' →
      k'.thing.toAnswer + (if true then 1 else 0) ≤ k.thing.toAnswer :=
    fun _ _ _ hev hk h => (Ticket.Step.toAnswer h hk hev).2
  have hcount := Run.countP_le (S := Ticket.system) (I := fun k => k.thing.owes k.status_ = true)
    (P := fun ev => ev ≠ .answer) hkeep hrank hrun hne hk
  exact ⟨hrun.invariant_of (fun k ev k' => hkeep k ev k') hne hk, by simpa using hcount⟩

theorem Thing.toAnswer_pos (x : Thing) : 1 ≤ x.toAnswer := by
  unfold Thing.toAnswer
  split <;> omega

theorem Thing.toAnswer_le (x : Thing) : x.toAnswer ≤ 5 := by
  unfold Thing.toAnswer
  split <;> omega

/-- The steps of an object are the steps of its ticket. -/
theorem length_seenFrom {labs : List (Label Req Res Md)} (h : ∀ lab ∈ labs, ∀ op o, lab ≠ .drain op o) :
    (labs.flatMap (Label.seenFrom o)).length = labs.countP fun lab => lab.object? = some o := by
  induction labs with
  | nil => rfl
  | cons lab labs ih =>
      obtain ⟨hlab, hlabs⟩ := List.forall_mem_cons.mp h
      rw [List.flatMap_cons, List.length_append, List.countP_cons, ih hlabs, Nat.add_comm]
      congr 1
      unfold Label.seenFrom
      cases lab with
      | drain op o => exact absurd rfl (hlab op o)
      | deliver op o' ok rpc => cases op <;> cases ok <;> simp [Label.object?, Label.ticketLabel] <;> split <;> rfl
      | _ => simp [Label.object?, Label.ticketLabel] <;> split <;> rfl

theorem Server.handler_of_mem {pc : Pc} (h : .handler pc ∈ s.outstanding o) :
    ∃ l r, s.handlers = l ++ (o, pc) :: r := by
  simp only [Server.outstanding, List.mem_append, List.mem_map, List.mem_filter, decide_eq_true_eq] at h
  rcases h with (⟨⟨op, o'⟩, -, heq⟩ | ⟨⟨o', pc'⟩, ⟨hmem, rfl⟩, heq⟩) | ⟨⟨o', userId⟩, -, heq⟩
  · cases op <;> cases heq
  · obtain rfl := Thing.handler.inj heq
    exact List.append_of_mem hmem
  · cases heq

theorem Server.coroutine_of_mem {userId : String} (h : .coroutine userId ∈ s.outstanding o) :
    ∃ l r, s.coroutines = l ++ (o, userId) :: r := by
  simp only [Server.outstanding, List.mem_append, List.mem_map, List.mem_filter, decide_eq_true_eq] at h
  rcases h with (⟨⟨op, o'⟩, -, heq⟩ | ⟨⟨o', pc⟩, -, heq⟩) | ⟨⟨o', userId'⟩, ⟨hmem, rfl⟩, heq⟩
  · cases op <;> cases heq
  · cases heq
  · obtain rfl := Thing.coroutine.inj heq
    exact List.append_of_mem hmem

/-- An object has a ticket. -/
theorem Server.Inv.hasTicket (hinv : s.Inv) (o : Nat) : ∃ k, s.HasTicket o k ∧ k.thing.allows k.status_ := by
  by_cases hlt : o < s.objects.length
  · obtain ⟨x, hx⟩ := List.length_eq_one_iff.mp (hinv.one o hlt)
    have hd := List.getElem?_eq_getElem hlt
    refine ⟨⟨x, s.objects[o].status_⟩, (Server.hasTicket_iff hlt).mpr ⟨hx, by rw [hd]; rfl⟩, ?_⟩
    exact hinv.status o _ hd x (by rw [hx]; exact List.mem_singleton_self x)
  · exact ⟨.fresh, by rw [Server.HasTicket, if_neg hlt], rfl⟩

variable [Inhabited Req] [Inhabited Rep] [Inhabited Md]

/-- An object that owes an answer can go on. -/
theorem Server.step_of_owes (L : Logic Req Res Rep Md) (h : s.HasTicket o k) (hk : k.thing.owes k.status_ = true) :
    ∃ lab t, lab.object? = some o ∧ Server.Step L s lab t := by
  have hlt : o < s.objects.length := by
    by_contra hge
    rw [Server.HasTicket, if_neg hge] at h
    rw [h] at hk
    cases hk
  obtain ⟨hout, -⟩ := (Server.hasTicket_iff hlt).mp h
  have hmem : k.thing ∈ s.outstanding o := by rw [hout]; exact List.mem_singleton_self _
  obtain ⟨d, hd⟩ : ∃ d, s.objects[o]? = some d := ⟨_, List.getElem?_eq_getElem hlt⟩
  cases hthing : k.thing with
  | requestOp => simp [hthing, Thing.owes] at hk
  | finishOp => simp [hthing, Thing.owes] at hk
  | coroutine userId =>
      rw [hthing] at hmem
      obtain ⟨l, r, hc⟩ := Server.coroutine_of_mem hmem
      obtain ⟨result, hrun⟩ := L.callService_total d.rpc d.request_ userId
      exact ⟨_, _, rfl, .onLogicFinished s l r o userId d result hc hd hrun⟩
  | handler pc =>
      rw [hthing] at hmem hk
      obtain ⟨l, r, hh⟩ := Server.handler_of_mem hmem
      cases pc with
      | proceed ok => exact ⟨_, _, rfl, .proceed s l r o ok d hh hd⟩
      | handleProcess =>
          obtain ⟨result, hauth⟩ : ∃ result,
              if d.rpc.kRequiresAuth then L.performAuthentication d.ctx_ result else result = .ok "" := by
            by_cases hreq : d.rpc.kRequiresAuth
            · simpa only [if_pos hreq] using L.performAuthentication_total d.ctx_
            · exact ⟨.ok "", by rw [if_neg hreq]⟩
          exact ⟨_, _, rfl, .performAuthentication s l r o d result hh hd hauth⟩
      | authFailed err => exact ⟨_, _, rfl, .failStatus s l r o err hh⟩
      | finish err => exact ⟨_, _, rfl, .finish s l r o err d hh hd⟩
      | authPassed userId => exact ⟨_, _, rfl, .passStatus s l r o userId hh⟩
      | coSpawn userId => exact ⟨_, _, rfl, .coSpawn s l r o userId hh⟩
      | handleFinish => cases hk
      | reset => cases hk
      | register => cases hk

/-- **An RPC is answered soon.** Until the completion queue is shut down, as long as an RPC under way is not answered,
its object has taken at most four steps, and there is one that it can take: no RPC waits for another one, for a worker
thread or for ever. -/
theorem Server.answers_soon {L : Logic Req Res Rep Md} {labs : List (Label Req Res Md)}
    (hs : Reachable (Server.system L) s) (howes : s.owes o = true) (hrun : Run (Server.system L) s labs t)
    (hup : t.cqDown = false) (hanswers : (t.answers o).length = (s.answers o).length) :
    labs.countP (fun lab => lab.object? = some o) ≤ 4 ∧
      ∃ lab u, lab.object? = some o ∧ (Server.system L).step t lab u := by
  obtain ⟨hsup, hlabs⟩ := Server.up_of_run hrun hup
  have hinv := Server.reachable_inv hs hsup
  obtain ⟨k, hk, -⟩ := hinv.hasTicket o
  obtain ⟨k', hk', ht⟩ := Server.run_ticket hrun hinv hup hk
  have hsent := Server.run_answers (o := o) hrun
  obtain ⟨howes', hlen⟩ := Ticket.soon hk' (by rw [← hk.owes]; exact howes) (by omega)
  have hpos := k'.thing.toAnswer_pos
  have hle := k.thing.toAnswer_le
  rw [length_seenFrom fun lab hlab => (hlabs lab hlab).2] at hlen
  exact ⟨by omega, Server.step_of_owes L ht howes'⟩

end Soon

theorem Server.answers_soon_beforeSpawn :
    ∃ lab u, Label.object? lab = some 0 ∧ (Server.system Logic.trivial).step Server.beforeSpawn lab u :=
  (Server.answers_soon Server.reachable_beforeSpawn rfl (Run.refl _) rfl rfl).2

/-! ## The limits of the RPCs -/

/-- The kinds of RPC that a step seeds an object for. -/
def Label.seeded : Label Req Res Md → List Rpc
  | .seed rpc => [rpc]
  | _ => []

theorem flatMap_seeded (rpcs : List Rpc) (workers : Nat) :
    (rpcs.map .seed ++ [.startListeningThread workers] : List (Label Req Res Md)).flatMap Label.seeded = rpcs := by
  have hseed : ∀ rpc : Rpc, Label.seeded (.seed rpc : Label Req Res Md) = [rpc] := fun _ => rfl
  have hstart : Label.seeded (.startListeningThread workers : Label Req Res Md) = [] := rfl
  rw [List.flatMap_append, List.flatMap_map, List.flatMap_singleton, hstart, List.append_nil]
  simp only [hseed, List.flatMap_singleton']

/-- Object `o` is one for `rpc`. -/
def Server.isFor (s : Server Req Rep Md) (rpc : Rpc) (o : Nat) : Bool := (s.objects[o]?).map CallData.rpc = some rpc

/-- The objects for `rpc` that wait for an RPC. -/
def Server.registered (s : Server Req Rep Md) (rpc : Rpc) : Nat :=
  s.cq.countP fun tag => tag.1 = .request ∧ s.isFor rpc tag.2

/-- The objects for `rpc` that are with a worker thread, in their coroutine, or have been answered. -/
def Server.underWay (s : Server Req Rep Md) (rpc : Rpc) : Nat :=
  s.handlers.countP (fun h => s.isFor rpc h.1) + s.coroutines.countP (fun c => s.isFor rpc c.1) +
    s.cq.countP fun tag => tag.1 = .finish ∧ s.isFor rpc tag.2

section Limits
variable {s t : Server Req Rep Md} {o : Nat} {rpc : Rpc}

/-- The objects of everything outstanding. -/
def Server.tags (s : Server Req Rep Md) : List Nat :=
  s.cq.map Prod.snd ++ s.handlers.map Prod.fst ++ s.coroutines.map Prod.fst

theorem Server.count_tags : s.tags.count o = (s.outstanding o).length := by
  simp only [Server.tags, Server.outstanding, List.count, List.countP_append, List.countP_map, List.length_append,
    List.length_map, ← List.countP_eq_length_filter]
  congr 1

/-- Each object is outstanding once. -/
theorem Server.Inv.tags (hinv : s.Inv) : s.tags.Perm (List.range s.objects.length) := by
  refine List.perm_iff_count.mpr fun o => ?_
  rw [Server.count_tags]
  by_cases hlt : o < s.objects.length
  · rw [hinv.one o hlt, List.count_eq_one_of_mem List.nodup_range (List.mem_range.mpr hlt)]
  · rw [hinv.none o (Nat.not_lt.mp hlt), List.count_eq_zero.mpr fun hmem => hlt (List.mem_range.mp hmem)]
    rfl

theorem Server.countP_tags : s.tags.countP (s.isFor rpc) = s.registered rpc + s.underWay rpc := by
  have hcq : s.cq.countP (fun tag => s.isFor rpc tag.2) =
      s.cq.countP (fun tag => tag.1 = .request ∧ s.isFor rpc tag.2) +
        s.cq.countP fun tag => tag.1 = .finish ∧ s.isFor rpc tag.2 := by
    induction s.cq with
    | nil => rfl
    | cons tag cq ih =>
        obtain ⟨op, o⟩ := tag
        simp only [List.countP_cons, ih]
        cases op <;> cases s.isFor rpc o <;> simp <;> omega
  simp only [Server.tags, Server.registered, Server.underWay, List.countP_append, List.countP_map,
    Function.comp_def, hcq]
  omega

theorem countP_isFor : (List.range s.objects.length).countP (s.isFor rpc) =
    (s.objects.map CallData.rpc).count rpc := by
  unfold Server.isFor
  induction s.objects using List.reverseRecOn with
  | nil => rfl
  | append_singleton ds d ih =>
      have hbefore : (List.range ds.length).countP (fun o => ((ds ++ [d])[o]?).map CallData.rpc = some rpc) =
          (List.range ds.length).countP fun o => (ds[o]?).map CallData.rpc = some rpc := by
        refine List.countP_congr fun o ho => ?_
        rw [List.getElem?_append_left (List.mem_range.mp ho)]
      rw [List.length_append, List.length_singleton, List.range_succ, List.countP_append, hbefore, ih, List.map_append,
        List.count_append]
      simp [List.count_singleton]

/-- Rewriting an object leaves it one for its kind of RPC. -/
theorem Server.rpcs_modify {f : CallData Req Rep Md → CallData Req Rep Md} (hf : ∀ d, (f d).rpc = d.rpc) :
    (s.modify o f).objects.map CallData.rpc = s.objects.map CallData.rpc := by
  refine List.ext_getElem? fun i => ?_
  rw [List.getElem?_map, List.getElem?_map, Server.modify, List.getElem?_modify]
  cases s.objects[i]? with
  | none => rfl
  | some d =>
      simp only [Option.map_some, Option.some.injEq, Option.map_eq_map]
      split
      · exact hf d
      · rfl

variable [Inhabited Req] [Inhabited Rep] [Inhabited Md] {L : Logic Req Res Rep Md} {lab : Label Req Res Md}

/-- An object stays one for its kind of RPC. -/
theorem Server.Step.rpcs (hstep : Server.Step L s lab t) :
    t.objects.map CallData.rpc = s.objects.map CallData.rpc ++ lab.seeded := by
  have hmodify : ∀ (u : Server Req Rep Md) o (f : CallData Req Rep Md → CallData Req Rep Md),
      (∀ d, (f d).rpc = d.rpc) → (u.modify o f).objects.map CallData.rpc = u.objects.map CallData.rpc ++ [] := by
    intro u o f hf
    rw [List.append_nil]
    exact Server.rpcs_modify hf
  cases hstep with
  | seed rpc =>
      rw [Server.issue_objects, List.map_append]
      rfl
  | deliver l r op o' ok rpc hcq =>
      refine hmodify _ _ _ fun d => ?_
      split <;> rfl
  | failStatus l r o' err hh => exact hmodify _ _ _ fun _ => rfl
  | passStatus l r o' userId hh => exact hmodify _ _ _ fun _ => rfl
  | finishStatus l r o' hh => exact hmodify _ _ _ fun _ => rfl
  | reset l r o' hh => exact hmodify _ _ _ fun _ => rfl
  | onLogicFinished l r o' userId d result hc hd =>
      rw [Server.issue_objects]
      exact hmodify _ _ _ fun _ => rfl
  | finish l r o' err d hh hd =>
      rw [Server.issue_objects]
      exact (List.append_nil _).symm
  | register l r o' hh =>
      rw [Server.issue_objects]
      exact (List.append_nil _).symm
  | _ => exact (List.append_nil _).symm

/-- **The limits of the RPCs.** However the RPCs and the threads interleave, of the objects seeded for a kind of RPC each
waits for an RPC or has one under way: no more RPCs of the kind are served at a time, and no object is ever lost. -/
theorem Server.limits {labs : List (Label Req Res Md)} (hrun : Run (Server.system L) .empty labs s)
    (hup : s.cqDown = false) (rpc : Rpc) :
    s.registered rpc + s.underWay rpc = (labs.flatMap Label.seeded).count rpc := by
  have hrpcs : s.objects.map CallData.rpc = labs.flatMap Label.seeded := by
    clear hup
    induction hrun with
    | refl => rfl
    | tail _ hstep ih => rw [Server.Step.rpcs hstep, ih, List.flatMap_append, List.flatMap_singleton]
  have hinv := Server.reachable_inv ⟨_, _, rfl, hrun⟩ hup
  rw [← Server.countP_tags, hinv.tags.countP_eq, countP_isFor, hrpcs]

/-- Once there are worker threads nothing is seeded. -/
theorem Server.Step.seeded_of_workers (hstep : Server.Step L s lab t) (hw : 0 < s.workers) :
    0 < t.workers ∧ lab.seeded = [] := by
  have hissue : ∀ (u : Server Req Rep Md) op o, (Server.issue u op o).workers = u.workers := by
    intro u op o
    unfold Server.issue
    split <;> rfl
  cases hstep with
  | seed rpc hzero => omega
  | startListeningThread threads hzero => omega
  | finish => exact ⟨(hissue _ _ _).symm ▸ hw, rfl⟩
  | register => exact ⟨(hissue _ _ _).symm ▸ hw, rfl⟩
  | onLogicFinished => exact ⟨(hissue _ _ _).symm ▸ hw, rfl⟩
  | _ => exact ⟨hw, rfl⟩

theorem Server.run_seeded_of_workers {labs : List (Label Req Res Md)} (hrun : Run (Server.system L) s labs t)
    (hw : 0 < s.workers) : 0 < t.workers ∧ labs.flatMap Label.seeded = [] := by
  induction hrun with
  | refl => exact ⟨hw, rfl⟩
  | tail _ hstep ih =>
      obtain ⟨hw', hlab⟩ := Server.Step.seeded_of_workers hstep ih.1
      rw [List.flatMap_append, List.flatMap_singleton, ih.2, hlab]
      exact ⟨hw', rfl⟩

end Limits

end PhotonCommerce.Adapter
