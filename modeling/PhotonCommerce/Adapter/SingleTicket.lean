import PhotonCommerce.Adapter.CallData
import Mathlib.Data.List.Basic

/-!
# Every `CallData` has exactly one outstanding thing

`Server.outstanding s o` lists what is outstanding for object `o`: operations on the completion queue, running
`Proceed` calls, spawned coroutines. `Inv` says that the list has length one for every seeded object, is empty for
every other tag, and that `status_` agrees with its element (`Thing.allows`). Every step of a worker thread or of a
coroutine takes one thing of one object away and puts one back (`Moves`), so `Inv` is kept by every step as long as
the queue is not shut down.
-/

namespace PhotonCommerce.Adapter
open Transition

variable {Req Res Rep Md : Type}

/-- What can be outstanding for an object. -/
inductive Thing where
  | requestOp
  | handler (pc : Pc)
  | coroutine (userId : String)
  | finishOp
  deriving DecidableEq, Repr

/-- The thing a tag on the queue stands for. -/
def CqOp.thing : CqOp → Thing
  | .request => .requestOp
  | .finish => .finishOp

/-- Everything outstanding for object `o`. -/
def Server.outstanding (s : Server Req Rep Md) (o : Nat) : List Thing :=
  (s.cq.filter (·.2 = o)).map (·.1.thing) ++ (s.handlers.filter (·.1 = o)).map (.handler ·.2) ++
    (s.coroutines.filter (·.1 = o)).map (.coroutine ·.2)

/-- The values of `status_` under which a thing can be outstanding. -/
def Thing.allows : Thing → Status → Prop
  | .requestOp, st => st = .waitProcessing
  | .finishOp, st => st = .finished
  | .coroutine _, st => st = .finished
  | .handler (.finish _), st => st = .finished
  | .handler (.coSpawn _), st => st = .finished
  | .handler .reset, st => st = .waitProcessing
  | .handler .register, st => st = .waitProcessing
  | .handler _, _ => True

/-- One outstanding thing per seeded object, none for any other tag, and `status_` agrees with it. -/
structure Server.Inv (s : Server Req Rep Md) : Prop where
  one : ∀ o < s.objects.length, (s.outstanding o).length = 1
  none : ∀ o, s.objects.length ≤ o → s.outstanding o = []
  status : ∀ o d, s.objects[o]? = some d → ∀ x ∈ s.outstanding o, x.allows d.status_

theorem Server.Inv.lt {s : Server Req Rep Md} (h : s.Inv) {o : Nat} {x : Thing} (hx : x ∈ s.outstanding o) :
    o < s.objects.length := by
  by_contra hlt
  rw [h.none o (Nat.not_lt.mp hlt)] at hx
  exact absurd hx List.not_mem_nil

theorem Server.Inv.eq_singleton {s : Server Req Rep Md} (h : s.Inv) {o : Nat} {x : Thing}
    (hx : x ∈ s.outstanding o) : s.outstanding o = [x] := by
  obtain ⟨y, hy⟩ := List.length_eq_one_iff.mp (h.one o (h.lt hx))
  rw [hy] at hx ⊢
  rw [List.mem_singleton.mp hx]

/-- From `s` to `t` one thing of object `o` is replaced, by `y`; nothing changes for the other objects. -/
structure Server.Moves (s t : Server Req Rep Md) (o : Nat) (y : Thing) : Prop where
  length : (t.outstanding o).length = (s.outstanding o).length
  mem : y ∈ t.outstanding o
  other : ∀ o', o' ≠ o → t.outstanding o' = s.outstanding o'
  size : t.objects.length = s.objects.length
  frame : ∀ o', o' ≠ o → t.objects[o']? = s.objects[o']?

/-- A move to a thing that the new `status_` allows keeps the invariant. -/
theorem Server.Inv.move {s t : Server Req Rep Md} (h : s.Inv) {o : Nat} {x y : Thing} (hx : x ∈ s.outstanding o)
    (hm : s.Moves t o y) (hy : ∀ d, t.objects[o]? = some d → y.allows d.status_) : t.Inv := by
  have hlt := h.lt hx
  refine ⟨fun o' ho' => ?_, fun o' ho' => ?_, fun o' d hd z hz => ?_⟩
  · rw [hm.size] at ho'
    by_cases heq : o' = o
    · rw [heq, hm.length]
      exact h.one o hlt
    · rw [hm.other o' heq]
      exact h.one o' ho'
  · rw [hm.size] at ho'
    rw [hm.other o' (by omega)]
    exact h.none o' ho'
  · by_cases heq : o' = o
    · subst heq
      have hlen : (t.outstanding o').length = 1 := by rw [hm.length, h.one o' hlt]
      obtain ⟨w, hw⟩ := List.length_eq_one_iff.mp hlen
      have hyw := hm.mem
      rw [hw] at hz hyw
      rw [List.mem_singleton.mp hz, ← List.mem_singleton.mp hyw]
      exact hy d hd
    · rw [hm.other o' heq] at hz
      rw [hm.frame o' heq] at hd
      exact h.status o' d hd z hz

/-! ## What `issue` and `modify` change -/

section Frame
variable (s : Server Req Rep Md) (op : CqOp) (o : Nat) (f : CallData Req Rep Md → CallData Req Rep Md)

theorem Server.issue_of_up (h : s.cqDown = false) : s.issue op o = { s with cq := s.cq ++ [(op, o)] } := by
  simp [Server.issue, h]

@[simp] theorem Server.issue_objects : (s.issue op o).objects = s.objects := by
  unfold Server.issue
  split <;> rfl

@[simp] theorem Server.issue_cqDown : (s.issue op o).cqDown = s.cqDown := by
  unfold Server.issue
  split <;> rfl

@[simp] theorem Server.outstanding_modify (o' : Nat) : (s.modify o f).outstanding o' = s.outstanding o' := rfl

@[simp] theorem Server.modify_cqDown : (s.modify o f).cqDown = s.cqDown := rfl

@[simp] theorem Server.modify_length : (s.modify o f).objects.length = s.objects.length := by
  simp [Server.modify]

theorem Server.modify_frame {o' : Nat} (h : o' ≠ o) : (s.modify o f).objects[o']? = s.objects[o']? := by
  simp [Server.modify, h.symm]

theorem Server.modify_self {d : CallData Req Rep Md} (hd : (s.modify o f).objects[o]? = some d) :
    ∃ d₀, s.objects[o]? = some d₀ ∧ d = f d₀ := by
  rw [Server.modify, List.getElem?_modify_eq, Option.map_eq_map, Option.map_eq_some_iff] at hd
  obtain ⟨d₀, h₀, rfl⟩ := hd
  exact ⟨d₀, h₀, rfl⟩

end Frame

/-! ## The moves -/

section Moves
variable {s t : Server Req Rep Md} {o : Nat}

theorem Server.mem_outstanding_handler {l r : List (Nat × Pc)} {pc : Pc} (h : s.handlers = l ++ (o, pc) :: r) :
    Thing.handler pc ∈ s.outstanding o := by
  simp [Server.outstanding, h]

theorem Server.mem_outstanding_cq {l r : List (CqOp × Nat)} {op : CqOp} (h : s.cq = l ++ (op, o) :: r) :
    op.thing ∈ s.outstanding o := by
  simp [Server.outstanding, h]

theorem Server.mem_outstanding_coroutine {l r : List (Nat × String)} {uid : String}
    (h : s.coroutines = l ++ (o, uid) :: r) : Thing.coroutine uid ∈ s.outstanding o := by
  simp [Server.outstanding, h]

/-- A `Proceed` call goes on to its next point. -/
theorem Server.Moves.advance {l r : List (Nat × Pc)} {pc pc' : Pc} (hs : s.handlers = l ++ (o, pc) :: r)
    (ht : t.handlers = l ++ (o, pc') :: r) (hcq : t.cq = s.cq) (hco : t.coroutines = s.coroutines)
    (hsize : t.objects.length = s.objects.length) (hframe : ∀ o', o' ≠ o → t.objects[o']? = s.objects[o']?) :
    s.Moves t o (.handler pc') where
  length := by simp [Server.outstanding, hs, ht, hcq, hco]
  mem := mem_outstanding_handler ht
  other o' h := by simp [Server.outstanding, hs, ht, hcq, hco, h.symm]
  size := hsize
  frame := hframe

/-- A `Proceed` call issues an operation. -/
theorem Server.Moves.handlerToCq {l r : List (Nat × Pc)} {pc : Pc} {op : CqOp}
    (hs : s.handlers = l ++ (o, pc) :: r) (ht : t.handlers = l ++ r) (hcq : t.cq = s.cq ++ [(op, o)])
    (hco : t.coroutines = s.coroutines) (hobj : t.objects = s.objects) : s.Moves t o op.thing where
  length := by
    simp only [Server.outstanding, hs, ht, hcq, hco, List.filter_append, List.filter_cons, List.length_append,
      List.length_map, List.map_append, decide_true, if_true, List.length_cons, List.filter_nil, List.length_nil]
    omega
  mem := by simp [Server.outstanding, hcq]
  other o' h := by simp [Server.outstanding, hs, ht, hcq, hco, h.symm]
  size := by rw [hobj]
  frame o' _ := by rw [hobj]

/-- `Next` delivers a tag. -/
theorem Server.Moves.cqToHandler {l r : List (CqOp × Nat)} {op : CqOp} {pc : Pc} (hs : s.cq = l ++ (op, o) :: r)
    (ht : t.cq = l ++ r) (hh : t.handlers = s.handlers ++ [(o, pc)]) (hco : t.coroutines = s.coroutines)
    (hsize : t.objects.length = s.objects.length) (hframe : ∀ o', o' ≠ o → t.objects[o']? = s.objects[o']?) :
    s.Moves t o (.handler pc) where
  length := by
    simp only [Server.outstanding, hs, ht, hh, hco, List.filter_append, List.filter_cons, List.length_append,
      List.length_map, List.map_append, decide_true, if_true, List.length_cons, List.filter_nil, List.length_nil]
    omega
  mem := by simp [Server.outstanding, hh]
  other o' h := by simp [Server.outstanding, hs, ht, hh, hco, h.symm]
  size := hsize
  frame := hframe

/-- A `Proceed` call spawns the coroutine. -/
theorem Server.Moves.handlerToCoroutine {l r : List (Nat × Pc)} {pc : Pc} {uid : String}
    (hs : s.handlers = l ++ (o, pc) :: r) (ht : t.handlers = l ++ r) (hcq : t.cq = s.cq)
    (hco : t.coroutines = s.coroutines ++ [(o, uid)]) (hobj : t.objects = s.objects) :
    s.Moves t o (.coroutine uid) where
  length := by
    simp only [Server.outstanding, hs, ht, hcq, hco, List.filter_append, List.filter_cons, List.length_append,
      List.length_map, List.map_append, decide_true, if_true, List.length_cons, List.filter_nil, List.length_nil]
    omega
  mem := by simp [Server.outstanding, hco]
  other o' h := by simp [Server.outstanding, hs, ht, hcq, hco, h.symm]
  size := by rw [hobj]
  frame o' _ := by rw [hobj]

/-- The coroutine's completion handler issues `Finish`. -/
theorem Server.Moves.coroutineToCq {l r : List (Nat × String)} {uid : String} {op : CqOp}
    (hs : s.coroutines = l ++ (o, uid) :: r) (ht : t.coroutines = l ++ r) (hcq : t.cq = s.cq ++ [(op, o)])
    (hh : t.handlers = s.handlers) (hsize : t.objects.length = s.objects.length)
    (hframe : ∀ o', o' ≠ o → t.objects[o']? = s.objects[o']?) : s.Moves t o op.thing where
  length := by
    simp only [Server.outstanding, hs, ht, hcq, hh, List.filter_append, List.filter_cons, List.length_append,
      List.length_map, List.map_append, decide_true, if_true, List.length_cons, List.filter_nil, List.length_nil]
    omega
  mem := by simp [Server.outstanding, hcq]
  other o' h := by simp [Server.outstanding, hs, ht, hcq, hh, h.symm]
  size := hsize
  frame := hframe

/-- A step that touches no object and nothing outstanding keeps the invariant. -/
theorem Server.Inv.quiet (h : s.Inv) (hobj : t.objects = s.objects) (hcq : t.cq = s.cq)
    (hh : t.handlers = s.handlers) (hco : t.coroutines = s.coroutines) : t.Inv := by
  have hout : ∀ o, t.outstanding o = s.outstanding o := fun o => by simp [Server.outstanding, hcq, hh, hco]
  refine ⟨fun o ho => ?_, fun o ho => ?_, fun o d hd x hx => ?_⟩
  · rw [hout o]
    exact h.one o (hobj ▸ ho)
  · rw [hout o]
    exact h.none o (hobj ▸ ho)
  · rw [hout o] at hx
    exact h.status o d (hobj ▸ hd) x hx

end Moves

/-! ## The invariant is kept -/

theorem Server.inv_empty : (Server.empty : Server Req Rep Md).Inv where
  one o h := absurd h (Nat.not_lt_zero o)
  none _ _ := rfl
  status o d h := by simp [Server.empty] at h

section Step
variable [Inhabited Req] [Inhabited Rep] [Inhabited Md] {L : Logic Req Res Rep Md}
variable {s t : Server Req Rep Md} {lab : Label Req Res Md}

/-- `Start` adds an object with one registered `Request` operation. -/
theorem Server.Inv.seed (h : s.Inv) (hup : s.cqDown = false) (rpc : Rpc) :
    (Server.issue { s with objects := s.objects ++ [CallData.make rpc] } .request s.objects.length).Inv := by
  rw [Server.issue_of_up _ _ _ (by exact hup)]
  have hout : ∀ o, Server.outstanding
      { s with objects := s.objects ++ [CallData.make rpc], cq := s.cq ++ [(.request, s.objects.length)] } o =
        if o = s.objects.length then [.requestOp] else s.outstanding o := by
    intro o
    split_ifs with ho
    · have hnone := h.none o (by omega)
      simp only [Server.outstanding, List.append_eq_nil_iff, List.map_eq_nil_iff] at hnone
      simp [Server.outstanding, List.filter_append, hnone, ho.symm, CqOp.thing]
    · simp [Server.outstanding, List.filter_append, Ne.symm ho]
  refine ⟨fun o ho => ?_, fun o ho => ?_, fun o d hd x hx => ?_⟩
  · rw [hout o]
    simp only [List.length_append, List.length_singleton] at ho
    split_ifs with heq
    · rfl
    · exact h.one o (by omega)
  · rw [hout o]
    simp only [List.length_append, List.length_singleton] at ho
    rw [if_neg (by omega)]
    exact h.none o (by omega)
  · rw [hout o] at hx
    split_ifs at hx with heq
    · rw [List.mem_singleton.mp hx]
      subst heq
      simp only [List.getElem?_concat_length, Option.some.injEq] at hd
      subst hd
      rfl
    · have hlt := h.lt hx
      rw [List.getElem?_append_left hlt] at hd
      exact h.status o d hd x hx

/-- **A step keeps the invariant** while the queue is not shut down. -/
theorem Server.Inv.step (h : s.Inv) (hup : s.cqDown = false) (hstep : Server.Step L s lab t)
    (ht : t.cqDown = false) : t.Inv := by
  cases hstep with
  | seed rpc => exact h.seed hup rpc
  | startListeningThread => exact h.quiet rfl rfl rfl rfl
  | deliver l r op o ok rpc hcq =>
      refine h.move (mem_outstanding_cq hcq) (Moves.cqToHandler hcq rfl rfl rfl ?_ ?_) (fun _ _ => trivial)
      · exact modify_length _ _ _
      · exact fun o' ho' => modify_frame _ _ _ ho'
  | proceed l r o ok d hh =>
      refine h.move (mem_outstanding_handler hh) (Moves.advance hh rfl rfl rfl rfl fun _ _ => rfl) ?_
      intro d' _
      unfold Pc.next
      split_ifs
      · split <;> trivial
      · trivial
  | performAuthentication l r o d result hh =>
      refine h.move (mem_outstanding_handler hh) (Moves.advance hh rfl rfl rfl rfl fun _ _ => rfl) ?_
      intro d' _
      cases result <;> trivial
  | failStatus l r o err hh =>
      refine h.move (mem_outstanding_handler hh) (Moves.advance hh rfl rfl rfl ?_ ?_) ?_
      · exact modify_length _ _ _
      · exact fun o' ho' => modify_frame _ _ _ ho'
      · intro d hd
        obtain ⟨d₀, -, rfl⟩ := modify_self _ _ _ hd
        rfl
  | passStatus l r o uid hh =>
      refine h.move (mem_outstanding_handler hh) (Moves.advance hh rfl rfl rfl ?_ ?_) ?_
      · exact modify_length _ _ _
      · exact fun o' ho' => modify_frame _ _ _ ho'
      · intro d hd
        obtain ⟨d₀, -, rfl⟩ := modify_self _ _ _ hd
        rfl
  | finish l r o err d hh hd =>
      have hst := h.status o d hd _ (mem_outstanding_handler hh)
      rw [issue_of_up _ _ _ (by exact hup)]
      refine h.move (mem_outstanding_handler hh) (Moves.handlerToCq hh rfl rfl rfl rfl) ?_
      intro d' hd'
      cases hd.symm.trans hd'
      exact hst
  | coSpawn l r o uid hh =>
      refine h.move (mem_outstanding_handler hh) (Moves.handlerToCoroutine hh rfl rfl rfl rfl) ?_
      intro d hd
      have hst := h.status o d hd _ (mem_outstanding_handler hh)
      exact hst
  | finishStatus l r o hh =>
      refine h.move (mem_outstanding_handler hh) (Moves.advance hh rfl rfl rfl ?_ ?_) ?_
      · exact modify_length _ _ _
      · exact fun o' ho' => modify_frame _ _ _ ho'
      · intro d hd
        obtain ⟨d₀, -, rfl⟩ := modify_self _ _ _ hd
        rfl
  | reset l r o hh =>
      refine h.move (mem_outstanding_handler hh) (Moves.advance hh rfl rfl rfl ?_ ?_) ?_
      · exact modify_length _ _ _
      · exact fun o' ho' => modify_frame _ _ _ ho'
      · intro d hd
        obtain ⟨d₀, hd₀, rfl⟩ := modify_self _ _ _ hd
        have hst := h.status o d₀ hd₀ _ (mem_outstanding_handler hh)
        exact hst
  | register l r o hh =>
      rw [issue_of_up _ _ _ (by exact hup)]
      refine h.move (mem_outstanding_handler hh) (Moves.handlerToCq hh rfl rfl rfl rfl) ?_
      intro d hd
      have hst := h.status o d hd _ (mem_outstanding_handler hh)
      exact hst
  | onLogicFinished l r o uid d result hc hd =>
      rw [issue_of_up _ _ _ (by exact hup)]
      refine h.move (mem_outstanding_coroutine hc) (Moves.coroutineToCq hc rfl rfl rfl ?_ ?_) ?_
      · exact modify_length _ _ _
      · exact fun o' ho' => modify_frame _ _ _ ho'
      · intro d' hd'
        obtain ⟨d₀, hd₀, rfl⟩ := modify_self _ _ _ hd'
        have hst := h.status o d₀ hd₀ _ (mem_outstanding_coroutine hc)
        exact hst
  | shutdownServer => exact h.quiet rfl rfl rfl rfl
  | shutdownCq => exact absurd ht (by simp)
  | drain _ _ _ _ _ _ hdown => exact absurd hup (by simp [hdown])
  | exit _ hdown => exact absurd hup (by simp [hdown])

/-- The queue stays shut down. -/
theorem Server.Step.cqDown_of_cqDown (hstep : Server.Step L s lab t) (h : s.cqDown = true) : t.cqDown = true := by
  cases hstep <;> simp [h]

/-- The invariant holds in every reachable state before the queue is shut down. -/
theorem Server.reachable_inv (h : Reachable (Server.system L) s) (hup : s.cqDown = false) : s.Inv := by
  refine Reachable.invariant (I := fun s => s.cqDown = false → s.Inv) ?_ ?_ h hup
  · rintro s rfl _
    exact Server.inv_empty
  · intro s lab t hs hstep ht
    have hs' : s.cqDown = false := by
      by_contra hdown
      have hdown' := hstep.cqDown_of_cqDown (by simpa using hdown)
      rw [ht] at hdown'
      exact absurd hdown' Bool.false_ne_true
    exact (hs hs').step hs' hstep ht

/-- **Single ticket.** Before the queue is shut down every seeded object has exactly one outstanding thing; when that
is not a running `Proceed` call, `status_` is `WAIT_PROCESSING` exactly for a registered `Request` operation and
`FINISHED` exactly for the coroutine or a `Finish` operation; and `Reset` runs only when the `Proceed` call that runs
it is the one outstanding thing of its object. -/
theorem Server.single_ticket (L : Logic Req Res Rep Md) (s : Server Req Rep Md) (h : Reachable (Server.system L) s)
    (hup : s.cqDown = false) :
    (∀ o d, s.objects[o]? = some d → ∃ x, s.outstanding o = [x] ∧
      ((∀ pc, x ≠ .handler pc) →
        (d.status_ = .waitProcessing ↔ x = .requestOp) ∧
        (d.status_ = .finished ↔ (∃ uid, x = .coroutine uid) ∨ x = .finishOp))) ∧
    ∀ o t, (Server.system L).step s (.reset o) t → s.outstanding o = [.handler .reset] := by
  have hinv := Server.reachable_inv h hup
  refine ⟨fun o d hd => ?_, fun o t hstep => ?_⟩
  · have hlt : o < s.objects.length := (List.getElem?_eq_some_iff.mp hd).1
    obtain ⟨x, hx⟩ := List.length_eq_one_iff.mp (hinv.one o hlt)
    have hst := hinv.status o d hd x (by rw [hx]; exact List.mem_singleton_self x)
    refine ⟨x, hx, fun hne => ?_⟩
    cases x with
    | requestOp =>
        change d.status_ = .waitProcessing at hst
        simp [hst]
    | handler pc => exact absurd rfl (hne pc)
    | coroutine uid =>
        change d.status_ = .finished at hst
        simp [hst]
    | finishOp =>
        change d.status_ = .finished at hst
        simp [hst]
  · cases hstep with
    | reset l r _ hh => exact hinv.eq_singleton (mem_outstanding_handler hh)

end Step

/-! ## A run up to the `co_spawn` -/

/-- Business logic that accepts every token and answers nothing. -/
def Logic.trivial : Logic Unit Unit Unit Unit :=
  ⟨fun _ r => r = .ok "u", fun _ => ⟨_, rfl⟩, fun _ _ _ r => r = .ok (), fun _ _ _ => ⟨_, rfl⟩, fun _ _ reply => reply⟩

/-- Two objects seeded, one worker; the first object's RPC is past its `status_` write and not yet spawned. -/
def Server.beforeSpawn : Server Unit Unit Unit :=
  ⟨[⟨.getUserInfo, .finished, (), (), ()⟩, CallData.make .register], [(.request, 1)], [(0, .coSpawn "u")], [], [],
    1, 0, false, false, []⟩

theorem Server.reachable_beforeSpawn : Reachable (Server.system Logic.trivial) Server.beforeSpawn := by
  have h₀ : Reachable (Server.system Logic.trivial) Server.empty := Reachable.of_init rfl
  have h₁ := h₀.step (Step.seed _ .getUserInfo rfl rfl)
  have h₂ := h₁.step (Step.seed _ .register rfl rfl)
  have h₃ := h₂.step (Step.startListeningThread _ 1 rfl rfl)
  have h₄ := h₃.step (Step.deliver _ [] [(.request, 1)] .request 0 true ((), ()) rfl (by decide) (by decide))
  have h₅ := h₄.step (Step.proceed _ [] [] 0 true _ rfl rfl)
  have h₆ := h₅.step (Step.performAuthentication _ [] [] 0 _ (.ok "u") rfl rfl rfl)
  exact h₆.step (Step.passStatus _ [] [] 0 "u" rfl)

theorem Server.single_ticket_beforeSpawn :
    ∃ x, Server.beforeSpawn.outstanding 1 = [x] ∧ ((∀ pc, x ≠ .handler pc) →
      (Status.waitProcessing = .waitProcessing ↔ x = .requestOp) ∧
      (Status.waitProcessing = .finished ↔ (∃ uid, x = .coroutine uid) ∨ x = .finishOp)) :=
  (Server.single_ticket Logic.trivial _ Server.reachable_beforeSpawn rfl).1 1 _ rfl

end PhotonCommerce.Adapter
