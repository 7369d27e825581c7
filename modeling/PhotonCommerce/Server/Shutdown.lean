import PhotonCommerce.Adapter.SingleTicket

/-!
# `UserServiceServer::Shutdown` and the `HandleRpc` loops

`Shutdown` calls `server_->Shutdown()`, then `cq_->Shutdown()`, then joins the worker threads. `Drains L s` is what
it relies on, from the state `s` in which `server_->Shutdown()` was called: no delivered tag makes its object register
a new `Request` operation, a `Proceed` call never raises the number of outstanding tags, no operation is issued on the
queue after its shutdown, and every `HandleRpc` loop ends.

`Proceed(false)` goes to `HandleFinish`, which registers the object again. So the server drains exactly when nothing
was seeded or no worker thread was started (`drains_iff`).
-/

namespace PhotonCommerce.Adapter
open Transition

variable {Req Res Rep Md : Type}

/-- A tag handed to a worker thread. -/
def Label.isDelivery : Label Req Res Md → Bool
  | .deliver .. => true
  | _ => false

/-- A step of a running `Proceed` call. -/
def Label.ofProceed : Label Req Res Md → Bool
  | .proceed _ => true
  | .performAuthentication .. => true
  | .writeStatus _ => true
  | .finish _ => true
  | .coSpawn _ => true
  | .reset _ => true
  | .registerCallDataToCQ _ => true
  | _ => false

/-- The shutdown drains the server, from the state in which `server_->Shutdown()` was called. -/
structure Server.Drains [Inhabited Req] [Inhabited Rep] [Inhabited Md] (L : Logic Req Res Rep Md)
    (s : Server Req Rep Md) : Prop where
  /-- No delivery causes a new `Request` operation. -/
  no_request : ∀ ls t, Run (Server.system L) s ls t → ∀ op o ok rpc,
    ¬ [Label.deliver op o ok rpc, .registerCallDataToCQ o].Sublist ls
  /-- Each `Proceed` call takes its tag off the queue and puts none on it. -/
  decreases : ∀ ls t, Run (Server.system L) s ls t → ∀ lab u, (Server.system L).step t lab u →
    (lab.isDelivery = true → u.cq.length < t.cq.length) ∧ (lab.ofProceed = true → u.cq.length ≤ t.cq.length)
  /-- No operation is issued on the queue after its shutdown. -/
  no_forbidden : ∀ ls t, Run (Server.system L) s ls t → t.forbidden = []
  /-- There are finitely many deliveries. -/
  bounded : ∃ n, ∀ ls t, Run (Server.system L) s ls t → ls.countP Label.isDelivery ≤ n
  /-- Once the queue is shut down it drains and every worker thread leaves its loop. -/
  joins : ∀ ls t, Run (Server.system L) s ls t → t.cqDown = true →
    ∃ ms u, Run (Server.system L) t ms u ∧ u.cq = [] ∧ u.exited = u.workers

/-! ## Runs that never deliver -/

/-- Nothing runs and nothing can be delivered. -/
structure Server.Quiet (s : Server Req Rep Md) : Prop where
  down : s.serverDown = true
  handlers : s.handlers = []
  coroutines : s.coroutines = []
  idle : s.cq = [] ∨ s.workers = 0
  exited : s.exited ≤ s.workers
  forbidden : s.forbidden = []

section Quiet
variable [Inhabited Req] [Inhabited Rep] [Inhabited Md]
variable {L : Logic Req Res Rep Md} {s t : Server Req Rep Md} {lab : Label Req Res Md}

/-- From a quiet state only the shutdown steps are possible. -/
theorem Server.Quiet.step (h : s.Quiet) (hstep : Server.Step L s lab t) :
    t.Quiet ∧ lab.isDelivery = false ∧ lab.ofProceed = false := by
  cases hstep with
  | seed _ _ hdown => exact absurd hdown (by simp [h.down])
  | startListeningThread _ _ hdown => exact absurd hdown (by simp [h.down])
  | deliver l r op o ok rpc hcq hfree =>
      rcases h.idle with hidle | hidle
      · exact absurd (hidle ▸ hcq) (by simp)
      · omega
  | proceed _ _ _ _ _ hh => exact absurd (h.handlers ▸ hh) (by simp)
  | performAuthentication _ _ _ _ _ hh => exact absurd (h.handlers ▸ hh) (by simp)
  | failStatus _ _ _ _ hh => exact absurd (h.handlers ▸ hh) (by simp)
  | passStatus _ _ _ _ hh => exact absurd (h.handlers ▸ hh) (by simp)
  | finish _ _ _ _ _ hh => exact absurd (h.handlers ▸ hh) (by simp)
  | coSpawn _ _ _ _ hh => exact absurd (h.handlers ▸ hh) (by simp)
  | finishStatus _ _ _ hh => exact absurd (h.handlers ▸ hh) (by simp)
  | reset _ _ _ hh => exact absurd (h.handlers ▸ hh) (by simp)
  | register _ _ _ hh => exact absurd (h.handlers ▸ hh) (by simp)
  | onLogicFinished _ _ _ _ _ _ hc => exact absurd (h.coroutines ▸ hc) (by simp)
  | shutdownServer => exact ⟨⟨rfl, h.handlers, h.coroutines, h.idle, h.exited, h.forbidden⟩, rfl, rfl⟩
  | shutdownCq => exact ⟨⟨h.down, h.handlers, h.coroutines, h.idle, h.exited, h.forbidden⟩, rfl, rfl⟩
  | drain _ _ _ _ _ hw => exact ⟨⟨h.down, h.handlers, h.coroutines, .inr hw, h.exited, h.forbidden⟩, rfl, rfl⟩
  | exit hcq hdown hfree =>
      refine ⟨⟨h.down, h.handlers, h.coroutines, h.idle, ?_, h.forbidden⟩, rfl, rfl⟩
      change s.exited + 1 ≤ s.workers
      omega

theorem Server.Quiet.run (h : s.Quiet) {ls : List (Label Req Res Md)} (hrun : Run (Server.system L) s ls t) :
    t.Quiet ∧ ∀ lab ∈ ls, lab.isDelivery = false := by
  induction hrun with
  | refl => exact ⟨h, by simp⟩
  | tail _ hstep ih =>
      obtain ⟨hq, hls⟩ := ih
      obtain ⟨hq', hlab, -⟩ := hq.step hstep
      refine ⟨hq', fun lab hmem => ?_⟩
      rcases List.mem_append.mp hmem with hmem | hmem
      · exact hls lab hmem
      · rw [List.mem_singleton.mp hmem]
        exact hlab

/-- With no worker thread the draining loop of `Shutdown` empties the queue. -/
theorem Server.drain_all (hw : s.workers = 0) (hdown : s.cqDown = true) :
    ∃ ms, Run (Server.system L) s ms { s with cq := [] } := by
  obtain ⟨cq, hcq⟩ : ∃ cq, s.cq = cq := ⟨_, rfl⟩
  induction cq generalizing s with
  | nil => exact ⟨[], hcq ▸ Run.refl s⟩
  | cons tag rest ih =>
      obtain ⟨op, o⟩ := tag
      have hstep : Server.Step L s (.drain op o) { s with cq := [] ++ rest } := .drain s [] rest op o hcq hw hdown
      obtain ⟨ms, hms⟩ := ih (s := { s with cq := rest }) hw hdown rfl
      exact ⟨_, Run.head hstep hms⟩

/-- On a drained queue every idle worker leaves its loop. -/
theorem Server.exit_all (hcq : s.cq = []) (hdown : s.cqDown = true) (hh : s.handlers = []) :
    ∀ n, s.exited + n ≤ s.workers → ∃ ms, Run (Server.system L) s ms { s with exited := s.exited + n } := by
  intro n
  induction n with
  | zero => exact fun _ => ⟨[], Run.refl s⟩
  | succ n ih =>
      intro hn
      obtain ⟨ms, hms⟩ := ih (by omega)
      refine ⟨_, hms.tail (Server.Step.exit { s with exited := s.exited + n } hcq hdown ?_)⟩
      simp only [hh, List.length_nil]
      omega

theorem Server.Quiet.joins (h : s.Quiet) (hdown : s.cqDown = true) :
    ∃ ms u, Run (Server.system L) s ms u ∧ u.cq = [] ∧ u.exited = u.workers := by
  rcases h.idle with hcq | hw
  · obtain ⟨ms, hms⟩ := Server.exit_all (L := L) hcq hdown h.handlers (s.workers - s.exited)
      (by have := h.exited; omega)
    refine ⟨ms, _, hms, hcq, ?_⟩
    have := h.exited
    change s.exited + (s.workers - s.exited) = s.workers
    omega
  · obtain ⟨ms, hms⟩ := Server.drain_all (L := L) hw hdown
    refine ⟨ms, _, hms, rfl, ?_⟩
    have := h.exited
    change s.exited = s.workers
    omega

theorem Server.Quiet.drains (h : s.Quiet) : s.Drains L where
  no_request ls t hrun op o ok rpc hsub := by
    have hmem := hsub.subset List.mem_cons_self
    exact absurd ((h.run hrun).2 _ hmem) (by simp [Label.isDelivery])
  decreases ls t hrun lab u hstep := by
    obtain ⟨-, h₁, h₂⟩ := (h.run hrun).1.step hstep
    rw [h₁, h₂]
    exact ⟨fun h => absurd h Bool.false_ne_true, fun h => absurd h Bool.false_ne_true⟩
  no_forbidden ls t hrun := (h.run hrun).1.forbidden
  bounded := by
    refine ⟨0, fun ls t hrun => Nat.le_of_eq (List.countP_eq_zero.mpr fun lab hlab => ?_)⟩
    simp [(h.run hrun).2 lab hlab]
  joins ls t hrun hdown := (h.run hrun).1.joins hdown

end Quiet

/-! ## The threads of a running server -/

/-- The shutdown flags, the worker threads and what they run. -/
structure Server.Threads (s : Server Req Rep Md) : Prop where
  order : s.serverDown = false → s.cqDown = false
  alive : s.cqDown = false → s.exited = 0
  allowed : s.cqDown = false → s.forbidden = []
  busy : s.handlers.length + s.exited ≤ s.workers
  idle : s.workers = 0 → s.coroutines = []

section Threads
variable {s t : Server Req Rep Md}

theorem Server.Threads.issue (h : s.Threads) (op : CqOp) (o : Nat) : (s.issue op o).Threads := by
  unfold Server.issue
  split
  · next hdown =>
      exact ⟨h.order, h.alive, fun hup => absurd hup (by simp [hdown]), h.busy, h.idle⟩
  · exact ⟨h.order, h.alive, h.allowed, h.busy, h.idle⟩

theorem Server.Threads.modify (h : s.Threads) (o : Nat) (f : CallData Req Rep Md → CallData Req Rep Md) :
    (s.modify o f).Threads := ⟨h.order, h.alive, h.allowed, h.busy, h.idle⟩

/-- Replacing the running `Proceed` calls by no more of them. -/
theorem Server.Threads.setHandlers (h : s.Threads) {hs : List (Nat × Pc)} (hle : hs.length ≤ s.handlers.length) :
    Server.Threads { s with handlers := hs } := by
  refine ⟨h.order, h.alive, h.allowed, ?_, h.idle⟩
  have := h.busy
  change hs.length + s.exited ≤ s.workers
  omega

variable [Inhabited Req] [Inhabited Rep] [Inhabited Md] {L : Logic Req Res Rep Md} {lab : Label Req Res Md}

theorem Server.Threads.step (h : s.Threads) (hstep : Server.Step L s lab t) : t.Threads := by
  have hbusy := h.busy
  cases hstep with
  | seed rpc =>
      apply Server.Threads.issue
      exact ⟨h.order, h.alive, h.allowed, h.busy, h.idle⟩
  | startListeningThread threads hw =>
      refine ⟨h.order, h.alive, h.allowed, ?_, fun _ => h.idle hw⟩
      change s.handlers.length + s.exited ≤ threads
      omega
  | deliver l r op o ok rpc hcq hfree =>
      apply Server.Threads.modify
      refine ⟨h.order, h.alive, h.allowed, ?_, h.idle⟩
      simp only [List.length_append, List.length_singleton]
      omega
  | proceed l r o ok d hh => exact h.setHandlers (by simp [hh])
  | performAuthentication l r o d result hh => exact h.setHandlers (by simp [hh])
  | failStatus l r o err hh => exact (h.setHandlers (by simp [hh])).modify _ _
  | passStatus l r o uid hh => exact (h.setHandlers (by simp [hh])).modify _ _
  | finish l r o err d hh =>
      have h' : Server.Threads { s with handlers := l ++ r } := h.setHandlers (by simp [hh])
      apply Server.Threads.issue
      exact ⟨h'.order, h'.alive, h'.allowed, h'.busy, h'.idle⟩
  | coSpawn l r o uid hh =>
      have h' : Server.Threads { s with handlers := l ++ r } := h.setHandlers (by simp [hh])
      refine ⟨h'.order, h'.alive, h'.allowed, h'.busy, fun hw => ?_⟩
      simp only [hh, List.length_append, List.length_cons] at hbusy
      change s.workers = 0 at hw
      omega
  | finishStatus l r o hh => exact (h.setHandlers (by simp [hh])).modify _ _
  | reset l r o hh => exact (h.setHandlers (by simp [hh])).modify _ _
  | register l r o hh => exact (h.setHandlers (by simp [hh])).issue _ _
  | onLogicFinished l r o uid d result hc =>
      apply Server.Threads.issue
      apply Server.Threads.modify
      refine ⟨h.order, h.alive, h.allowed, h.busy, fun hw => ?_⟩
      exact absurd (h.idle hw ▸ hc) (by simp)
  | shutdownServer => exact ⟨fun hdown => absurd hdown (by simp), h.alive, h.allowed, h.busy, h.idle⟩
  | shutdownCq hdown =>
      exact ⟨fun hup => absurd hup (by simp [hdown]), fun hup => absurd hup (by simp),
        fun hup => absurd hup (by simp), h.busy, h.idle⟩
  | drain l r op o hcq => exact ⟨h.order, h.alive, h.allowed, h.busy, h.idle⟩
  | exit hcq hdown hfree =>
      refine ⟨h.order, fun hup => absurd hup (by simp [hdown]), h.allowed, ?_, h.idle⟩
      change s.handlers.length + (s.exited + 1) ≤ s.workers
      omega

theorem Server.reachable_threads (h : Reachable (Server.system L) s) : s.Threads := by
  refine h.invariant ?_ (fun s lab t hs hstep => hs.step hstep)
  rintro s rfl
  exact ⟨fun _ => rfl, fun _ => rfl, fun _ => rfl, Nat.le_refl 0, fun _ => rfl⟩

end Threads

/-! ## Every seeded object can be driven to register again -/

section Register
variable [Inhabited Req] [Inhabited Rep] [Inhabited Md]
variable {L : Logic Req Res Rep Md} {s : Server Req Rep Md}

/-- Object `o` waits on the queue or in its coroutine. -/
def Server.Parked (s : Server Req Rep Md) (o : Nat) : Prop :=
  (∃ l op r, s.cq = l ++ (op, o) :: r) ∨ ∃ l uid r, s.coroutines = l ++ (o, uid) :: r

/-- A run to a state with the handlers `hs` and the same threads and objects, in which `o` is parked. -/
def Server.Parks (L : Logic Req Res Rep Md) (s : Server Req Rep Md) (hs : List (Nat × Pc)) (o : Nat) : Prop :=
  ∃ ls t, Run (Server.system L) s ls t ∧ t.handlers = hs ∧ t.workers = s.workers ∧ t.exited = s.exited ∧
    t.cqDown = false ∧ t.objects.length = s.objects.length ∧ t.Parked o

theorem Server.Parks.step {t : Server Req Rep Md} {lab : Label Req Res Md} {hs : List (Nat × Pc)} {o : Nat}
    (hstep : Server.Step L s lab t) (hw : t.workers = s.workers) (he : t.exited = s.exited)
    (hsize : t.objects.length = s.objects.length) (h : t.Parks L hs o) : s.Parks L hs o := by
  obtain ⟨ls, u, hrun, h₁, h₂, h₃, h₄, h₅, h₆⟩ := h
  exact ⟨_, u, Run.head hstep hrun, h₁, h₂.trans hw, h₃.trans he, h₄, h₅.trans hsize, h₆⟩

theorem Server.parks_of_parked {o : Nat} (hup : s.cqDown = false) (h : s.Parked o) : s.Parks L s.handlers o :=
  ⟨[], s, Run.refl s, rfl, rfl, rfl, hup, rfl, h⟩

/-- A `Proceed` call can run to its end, whatever point it stands at. -/
theorem Server.parks_of_handler {l r : List (Nat × Pc)} {o : Nat} {pc : Pc} (hh : s.handlers = l ++ (o, pc) :: r)
    (hup : s.cqDown = false) (ho : o < s.objects.length) : s.Parks L (l ++ r) o := by
  have hregister : ∀ s : Server Req Rep Md, s.handlers = l ++ (o, .register) :: r → s.cqDown = false →
      s.Parks L (l ++ r) o := by
    intro s hh hup
    have hstep := Server.Step.register (L := L) s l r o hh
    rw [Server.issue_of_up _ _ _ (by exact hup)] at hstep
    exact Server.Parks.step hstep rfl rfl rfl
      (Server.parks_of_parked (s := { s with handlers := l ++ r, cq := _ }) hup (.inl ⟨s.cq, .request, [], rfl⟩))
  have hreset : ∀ s : Server Req Rep Md, s.handlers = l ++ (o, .reset) :: r → s.cqDown = false →
      s.Parks L (l ++ r) o := fun s hh hup =>
    Server.Parks.step (.reset s l r o hh) rfl rfl (Server.modify_length _ _ _) (hregister _ rfl hup)
  have hfinishing : ∀ s : Server Req Rep Md, s.handlers = l ++ (o, .handleFinish) :: r → s.cqDown = false →
      s.Parks L (l ++ r) o := fun s hh hup =>
    Server.Parks.step (.finishStatus s l r o hh) rfl rfl (Server.modify_length _ _ _) (hreset _ rfl hup)
  have hfinish : ∀ (s : Server Req Rep Md) (err), s.handlers = l ++ (o, .finish err) :: r → s.cqDown = false →
      o < s.objects.length → s.Parks L (l ++ r) o := by
    intro s err hh hup ho
    have hstep := Server.Step.finish (L := L) s l r o err _ hh (List.getElem?_eq_getElem ho)
    rw [Server.issue_of_up _ _ _ (by exact hup)] at hstep
    exact Server.Parks.step hstep rfl rfl rfl
      (Server.parks_of_parked (s := { s with handlers := l ++ r, sent := _, cq := _ }) hup
        (.inl ⟨s.cq, .finish, [], rfl⟩))
  have hspawn : ∀ (s : Server Req Rep Md) (uid), s.handlers = l ++ (o, .coSpawn uid) :: r → s.cqDown = false →
      s.Parks L (l ++ r) o := fun s uid hh hup =>
    Server.Parks.step (.coSpawn s l r o uid hh) rfl rfl rfl
      (Server.parks_of_parked (s := { s with handlers := l ++ r, coroutines := _ }) hup
        (.inr ⟨s.coroutines, uid, [], rfl⟩))
  have hpassed : ∀ (s : Server Req Rep Md) (uid), s.handlers = l ++ (o, .authPassed uid) :: r → s.cqDown = false →
      s.Parks L (l ++ r) o := fun s uid hh hup =>
    Server.Parks.step (.passStatus s l r o uid hh) rfl rfl (Server.modify_length _ _ _) (hspawn _ uid rfl hup)
  have hfailed : ∀ (s : Server Req Rep Md) (err), s.handlers = l ++ (o, .authFailed err) :: r → s.cqDown = false →
      o < s.objects.length → s.Parks L (l ++ r) o := fun s err hh hup ho =>
    Server.Parks.step (.failStatus s l r o err hh) rfl rfl (Server.modify_length _ _ _)
      (hfinish _ err rfl hup (by rw [Server.modify_length]; exact ho))
  have hprocess : ∀ s : Server Req Rep Md, s.handlers = l ++ (o, .handleProcess) :: r → s.cqDown = false →
      o < s.objects.length → s.Parks L (l ++ r) o := by
    intro s hh hup ho
    obtain ⟨d, hd⟩ : ∃ d, s.objects[o]? = some d := ⟨_, List.getElem?_eq_getElem ho⟩
    obtain ⟨result, hauth⟩ : ∃ result,
        if d.rpc.kRequiresAuth then L.performAuthentication d.ctx_ result else result = .ok "" := by
      by_cases hreq : d.rpc.kRequiresAuth
      · simpa only [if_pos hreq] using L.performAuthentication_total d.ctx_
      · exact ⟨.ok "", by rw [if_neg hreq]⟩
    refine Server.Parks.step (.performAuthentication s l r o d result hh hd hauth) rfl rfl rfl ?_
    cases result with
    | error err => exact hfailed _ err rfl hup ho
    | ok uid => exact hpassed _ uid rfl hup
  cases pc with
  | proceed ok =>
      obtain ⟨d, hd⟩ : ∃ d, s.objects[o]? = some d := ⟨_, List.getElem?_eq_getElem ho⟩
      refine Server.Parks.step (.proceed s l r o ok d hh hd) rfl rfl rfl ?_
      cases ok with
      | false => exact hfinishing _ rfl hup
      | true =>
          cases hst : d.status_ with
          | waitProcessing => exact hprocess _ (by simp [Pc.next]) hup ho
          | finished => exact hfinishing _ (by simp [Pc.next]) hup
  | handleProcess => exact hprocess s hh hup ho
  | authFailed err => exact hfailed s err hh hup ho
  | finish err => exact hfinish s err hh hup ho
  | authPassed uid => exact hpassed s uid hh hup
  | coSpawn uid => exact hspawn s uid hh hup
  | handleFinish => exact hfinishing s hh hup
  | reset => exact hreset s hh hup
  | register => exact hregister s hh hup

/-- A tag delivered with `ok = false` makes its object register a new `Request` operation. -/
theorem Server.register_of_cq {l r : List (CqOp × Nat)} {op : CqOp} {o : Nat} (hcq : s.cq = l ++ (op, o) :: r)
    (hfree : s.handlers.length + s.exited < s.workers) (ho : o < s.objects.length) :
    ∃ t, Run (Server.system L) s
      [.deliver op o false default, .proceed o, .writeStatus o, .reset o, .registerCallDataToCQ o] t := by
  obtain ⟨d, hd⟩ : ∃ d, s.objects[o]? = some d := ⟨_, List.getElem?_eq_getElem ho⟩
  have h₁ := Server.Step.deliver (L := L) s l r op o false default hcq hfree (fun _ _ => rfl)
  have hd₁ : (Server.modify { s with cq := l ++ r, handlers := s.handlers ++ [(o, .proceed false)] } o fun d =>
      if op = .request ∧ false = true then { d with request_ := (default : Req × Md).1, ctx_ := default } else d).objects[o]?
        = some d := by
    simp [Server.modify, hd]
  exact ⟨_, Run.head h₁ (Run.head (.proceed _ s.handlers [] o false d rfl hd₁)
    (Run.head (.finishStatus _ s.handlers [] o rfl) (Run.head (.reset _ s.handlers [] o rfl)
      (Run.single (.register _ s.handlers [] o rfl)))))⟩

/-- With a free worker a parked object can be driven to register. -/
theorem Server.register_of_parked {o : Nat} (hp : s.Parked o) (hup : s.cqDown = false)
    (hfree : s.handlers.length + s.exited < s.workers) (ho : o < s.objects.length) :
    ∃ ls t op, Run (Server.system L) s ls t ∧
      [Label.deliver op o false default, .registerCallDataToCQ o].Sublist ls := by
  rcases hp with ⟨l, op, r, hcq⟩ | ⟨l, uid, r, hc⟩
  · obtain ⟨t, ht⟩ := Server.register_of_cq (L := L) hcq hfree ho
    exact ⟨_, t, op, ht, by simp⟩
  · obtain ⟨d, hd⟩ : ∃ d, s.objects[o]? = some d := ⟨_, List.getElem?_eq_getElem ho⟩
    obtain ⟨result, hrun⟩ := L.callService_total d.rpc d.request_ uid
    have hnext : ∀ u, Server.Step L s (.onLogicFinished o result) u → u.cq = s.cq ++ [(.finish, o)] →
        u.handlers.length + u.exited < u.workers → o < u.objects.length →
        ∃ ls t op, Run (Server.system L) s ls t ∧
          [Label.deliver op o false default, .registerCallDataToCQ o].Sublist ls := by
      intro u hstep hcq hfree ho
      obtain ⟨t, ht⟩ := Server.register_of_cq (L := L) hcq hfree ho
      exact ⟨_, t, .finish, Run.head hstep ht, by simp⟩
    have hstep := Server.Step.onLogicFinished (L := L) s l r o uid d result hc hd hrun
    rw [Server.issue_of_up _ _ _ (by exact hup)] at hstep
    exact hnext _ hstep rfl hfree (by simpa using ho)

end Register

/-! ## When the shutdown drains -/

section Main
variable {s : Server Req Rep Md}

/-- Nothing is outstanding for an unseeded tag. -/
theorem Server.Inv.empty_of_objects (h : s.Inv) (hobj : s.objects = []) :
    s.cq = [] ∧ s.handlers = [] ∧ s.coroutines = [] := by
  have hnone : ∀ o, s.outstanding o = [] := fun o => h.none o (by simp [hobj])
  refine ⟨List.eq_nil_iff_forall_not_mem.mpr fun x hx => ?_, List.eq_nil_iff_forall_not_mem.mpr fun x hx => ?_,
    List.eq_nil_iff_forall_not_mem.mpr fun x hx => ?_⟩
  · obtain ⟨l, r, hl⟩ := List.append_of_mem hx
    have hmem : x.1.thing ∈ s.outstanding x.2 := Server.mem_outstanding_cq hl
    exact absurd (hnone x.2 ▸ hmem) List.not_mem_nil
  · obtain ⟨l, r, hl⟩ := List.append_of_mem hx
    have hmem : Thing.handler x.2 ∈ s.outstanding x.1 := Server.mem_outstanding_handler hl
    exact absurd (hnone x.1 ▸ hmem) List.not_mem_nil
  · obtain ⟨l, r, hl⟩ := List.append_of_mem hx
    have hmem : Thing.coroutine x.2 ∈ s.outstanding x.1 := Server.mem_outstanding_coroutine hl
    exact absurd (hnone x.1 ▸ hmem) List.not_mem_nil

/-- An object with no running `Proceed` call is parked. -/
theorem Server.Inv.parked (h : s.Inv) (hh : s.handlers = []) {o : Nat} (ho : o < s.objects.length) : s.Parked o := by
  obtain ⟨x, hx⟩ := List.length_eq_one_iff.mp (h.one o ho)
  have hmem : x ∈ s.outstanding o := by rw [hx]; exact List.mem_singleton_self x
  simp only [Server.outstanding, hh, List.filter_nil, List.map_nil, List.append_nil, List.mem_append, List.mem_map,
    List.mem_filter, decide_eq_true_eq] at hmem
  rcases hmem with ⟨⟨op, o'⟩, ⟨hmem, rfl⟩, -⟩ | ⟨⟨o', uid⟩, ⟨hmem, rfl⟩, -⟩
  · obtain ⟨l, r, hl⟩ := List.append_of_mem hmem
    exact .inl ⟨l, op, r, hl⟩
  · obtain ⟨l, r, hl⟩ := List.append_of_mem hmem
    exact .inr ⟨l, uid, r, hl⟩

variable [Inhabited Req] [Inhabited Rep] [Inhabited Md] {L : Logic Req Res Rep Md}

/-- A running server with a seeded object and a worker thread registers again after `server_->Shutdown()`. -/
theorem Server.registers_again (hinv : s.Inv) (hthr : s.Threads) (hup : s.cqDown = false) (hobj : s.objects ≠ [])
    (hw : s.workers ≠ 0) :
    ∃ ls t op o, Run (Server.system L) s ls t ∧
      [Label.deliver op o false default, .registerCallDataToCQ o].Sublist ls := by
  have hexit := hthr.alive hup
  have hbusy := hthr.busy
  cases hh : s.handlers with
  | nil =>
      have hlt : 0 < s.objects.length := List.length_pos_iff.mpr hobj
      obtain ⟨ls, t, op, hrun, hsub⟩ := Server.register_of_parked (L := L) (hinv.parked hh hlt) hup
        (by rw [hh, hexit, List.length_nil]; omega) hlt
      exact ⟨ls, t, op, 0, hrun, hsub⟩
  | cons x rest =>
      obtain ⟨o, pc⟩ := x
      have ho : o < s.objects.length := hinv.lt (Server.mem_outstanding_handler (l := []) hh)
      obtain ⟨ls, u, hrun, hhu, hwu, heu, hupu, hsize, hp⟩ :=
        Server.parks_of_handler (L := L) (l := []) hh hup ho
      obtain ⟨ms, t, op, hrun', hsub⟩ := Server.register_of_parked (L := L) hp hupu (by
        rw [hh, List.length_cons] at hbusy
        rw [hhu, hwu, heu, List.nil_append]
        omega) (hsize ▸ ho)
      exact ⟨ls ++ ms, t, op, o, hrun.trans hrun', hsub.trans (List.sublist_append_right _ _)⟩

/-- **The shutdown drains the server exactly when nothing was seeded or no worker thread was started.** -/
theorem Server.drains_iff (L : Logic Req Res Rep Md) (s : Server Req Rep Md) (h : Reachable (Server.system L) s)
    (hup : s.serverDown = false) :
    Server.Drains L { s with serverDown := true } ↔ s.objects = [] ∨ s.workers = 0 := by
  have hthr := Server.reachable_threads h
  have hcq := hthr.order hup
  have hinv := Server.reachable_inv h hcq
  constructor
  · intro hdrains
    by_contra hnot
    rw [not_or] at hnot
    have hreach : Reachable (Server.system L) { s with serverDown := true } := h.step (.shutdownServer s)
    obtain ⟨ls, t, op, o, hrun, hsub⟩ := Server.registers_again (L := L) (Server.reachable_inv hreach hcq)
      (Server.reachable_threads hreach) hcq hnot.1 hnot.2
    exact hdrains.no_request ls t hrun op o false default hsub
  · intro hor
    refine Server.Quiet.drains ⟨rfl, ?_, ?_, ?_, ?_, hthr.allowed hcq⟩
    · rcases hor with hobj | hw
      · exact (hinv.empty_of_objects hobj).2.1
      · have := hthr.busy
        exact List.length_eq_zero_iff.mp (show s.handlers.length = 0 by omega)
    · rcases hor with hobj | hw
      · exact (hinv.empty_of_objects hobj).2.2
      · exact hthr.idle hw
    · rcases hor with hobj | hw
      · exact .inl (hinv.empty_of_objects hobj).1
      · exact .inr hw
    · have := hthr.busy
      change s.exited ≤ s.workers
      omega

end Main

/-- One object seeded and one worker thread started. -/
def Server.seeded : Server Unit Unit Unit :=
  ⟨[CallData.make .register], [(.request, 0)], [], [], [], 1, 0, false, false, []⟩

theorem Server.reachable_seeded : Reachable (Server.system Logic.trivial) Server.seeded := by
  have h₀ : Reachable (Server.system Logic.trivial) Server.empty := Reachable.of_init rfl
  have h₁ := h₀.step (Step.seed _ .register rfl rfl)
  exact h₁.step (Step.startListeningThread _ 1 rfl rfl)

/-- A server with one seeded object and one worker thread does not drain. -/
theorem Server.not_drains_seeded : ¬ Server.Drains Logic.trivial { Server.seeded with serverDown := true } := by
  intro hdrains
  have hcq : Server.seeded.cq = [] ++ (CqOp.request, 0) :: [] := rfl
  obtain ⟨t, ht⟩ := Server.register_of_cq (L := Logic.trivial) (s := { Server.seeded with serverDown := true })
    hcq (by decide) (by decide)
  exact hdrains.no_request _ t ht .request 0 false default (by simp)

theorem Server.drains_iff_seeded :
    Server.Drains Logic.trivial { Server.seeded with serverDown := true } ↔
      Server.seeded.objects = [] ∨ Server.seeded.workers = 0 :=
  Server.drains_iff Logic.trivial Server.seeded Server.reachable_seeded rfl

end PhotonCommerce.Adapter
