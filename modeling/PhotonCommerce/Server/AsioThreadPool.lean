import Mathlib
import PhotonCommerce.Lib.Ranking

/-!
# `AsioThreadPool`: `Run` and `Stop` in any order

One thread calls `Run` and `Stop`, any number of times; the threads of the pool run the handlers of the `io_context`.

* `AsioThreadPool.run`, `AsioThreadPool.stop` : the two calls; `Stop` then joins the threads one by one;
* `AsioThreadPool.system` : every interleaving of the calls with the handlers, on a machine of `hwConc` threads;
* `AsioThreadPool.generation` : there is never more than one generation of threads, and none without the work guard
  but while `Stop` joins it;
* `AsioThreadPool.stop_ends` : `Stop` returns once the running handlers have ended;
* `AsioThreadPool.stop_final` : after a `Stop` no handler is begun, whatever `Run` is called: the `io_context` is never
  restarted.
-/

namespace PhotonCommerce.Infrastructure
open Transition

/-- A handler posted to the `io_context`. -/
abbrev Handler := Nat

/-- Where a thread of the pool stands: in `ioc->run()` between two handlers, in a handler, or out of `run()`. -/
inductive PoolThread where
  | running
  | handling (handler : Handler)
  | left
  deriving DecidableEq, Repr

/-- Where the thread that calls `Run` and `Stop` stands: outside of both, or in the loop of joins of `Stop`. -/
inductive PoolCaller where
  | outside
  | joining (joined : Nat)
  deriving DecidableEq, Repr

/-- `AsioThreadPool`, its `io_context` and its caller. -/
structure AsioThreadPool where
  workGuard_ : Bool
  asioThreads_ : List PoolThread
  /-- `ioc_->stopped()`. -/
  stopped : Bool
  /-- Handlers posted and not begun. -/
  queue : List Handler
  /-- Handlers that have ended. -/
  ended : List Handler
  caller : PoolCaller
  deriving DecidableEq, Repr

/-- After the constructor. -/
def AsioThreadPool.fresh : AsioThreadPool := ⟨false, [], false, [], [], .outside⟩

/-- `std::thread::hardware_concurrency()`, or 2 when it gives nothing. -/
def threadCount (hwConc : Nat) : Nat := if hwConc = 0 then 2 else hwConc

/-- `AsioThreadPool::Run`, of which `created` threads come to be: all of them, or those before the one that
`std::thread` throws for. -/
def AsioThreadPool.run (p : AsioThreadPool) (created : Nat) : AsioThreadPool :=
  if p.workGuard_ then p
  else { p with workGuard_ := true, asioThreads_ := p.asioThreads_ ++ List.replicate created .running }

/-- `AsioThreadPool::Stop` up to its loop of joins. -/
def AsioThreadPool.stop (p : AsioThreadPool) : AsioThreadPool :=
  if p.workGuard_ then { p with workGuard_ := false, stopped := true, caller := .joining 0 } else p

inductive ThreadPoolLabel where
  | run (created : Nat)
  | stop
  | join
  | clear
  | post (handler : Handler)
  | start (handler : Handler)
  | finish (handler : Handler)
  | leave
  deriving DecidableEq, Repr

/-- One step of the caller, of a thread of the pool, or of whoever posts handlers. -/
inductive AsioThreadPool.Step (hwConc : Nat) : AsioThreadPool → ThreadPoolLabel → AsioThreadPool → Prop where
  | run (p : AsioThreadPool) (created : Nat) (hcaller : p.caller = .outside) (hcreated : created ≤ threadCount hwConc) :
      Step hwConc p (.run created) (p.run created)
  | stop (p : AsioThreadPool) (hcaller : p.caller = .outside) : Step hwConc p .stop p.stop
  /-- `t.join()` returns. -/
  | join (p : AsioThreadPool) (n : Nat) (hcaller : p.caller = .joining n) (ht : p.asioThreads_[n]? = some .left) :
      Step hwConc p .join { p with caller := .joining (n + 1) }
  /-- `asio_threads_.clear()`, after the loop. -/
  | clear (p : AsioThreadPool) (n : Nat) (hcaller : p.caller = .joining n) (hn : p.asioThreads_.length = n) :
      Step hwConc p .clear { p with asioThreads_ := [], caller := .outside }
  | post (p : AsioThreadPool) (handler : Handler) :
      Step hwConc p (.post handler) { p with queue := p.queue ++ [handler] }
  /-- `run()` takes a handler, unless the `io_context` is stopped. -/
  | start (p : AsioThreadPool) (l r) (handler : Handler) (rest) (ht : p.asioThreads_ = l ++ .running :: r)
      (hq : p.queue = handler :: rest) (hrunning : p.stopped = false) :
      Step hwConc p (.start handler) { p with asioThreads_ := l ++ .handling handler :: r, queue := rest }
  | finish (p : AsioThreadPool) (l r) (handler : Handler) (ht : p.asioThreads_ = l ++ .handling handler :: r) :
      Step hwConc p (.finish handler) { p with asioThreads_ := l ++ .running :: r, ended := p.ended ++ [handler] }
  /-- `run()` returns when the `io_context` is stopped; the work guard keeps it from returning before. -/
  | leave (p : AsioThreadPool) (l r) (ht : p.asioThreads_ = l ++ .running :: r) (hstopped : p.stopped = true) :
      Step hwConc p .leave { p with asioThreads_ := l ++ .left :: r }

/-- The pool on a machine of `hwConc` threads. -/
def AsioThreadPool.system (hwConc : Nat) : Lts AsioThreadPool ThreadPoolLabel where
  init p := p = .fresh
  step := AsioThreadPool.Step hwConc

/-! ## Generations of threads -/

/-- The threads belong to one generation, which the caller joins in order. -/
structure AsioThreadPool.Inv (hwConc : Nat) (p : AsioThreadPool) : Prop where
  bound : p.asioThreads_.length ≤ threadCount hwConc
  outside : p.caller = .outside → p.workGuard_ = false → p.asioThreads_ = []
  joining : ∀ n, p.caller = .joining n → p.workGuard_ = false ∧ p.stopped = true ∧ n ≤ p.asioThreads_.length ∧
    ∀ i < n, p.asioThreads_[i]? = some .left
  /-- A thread leaves `run()` only when the `io_context` is stopped. -/
  left : p.stopped = false → .left ∉ p.asioThreads_

section Generation
variable {hwConc : Nat} {p q : AsioThreadPool} {lab : ThreadPoolLabel}

/-- Threads change places without one that has left coming back. -/
theorem AsioThreadPool.Inv.replace (h : p.Inv hwConc) {l r : List PoolThread} {t t' : PoolThread}
    (ht : p.asioThreads_ = l ++ t :: r) (hne : t ≠ .left) (hleft : t' = .left → p.stopped = true) {queue ended} :
    AsioThreadPool.Inv hwConc { p with asioThreads_ := l ++ t' :: r, queue := queue, ended := ended } where
  bound := by
    have hbound := h.bound
    rw [ht] at hbound
    simpa using hbound
  outside hcaller hguard := by
    have hnil := h.outside hcaller hguard
    rw [ht] at hnil
    simp at hnil
  joining n hcaller := by
    obtain ⟨hguard, hstopped, hn, hjoined⟩ := h.joining n hcaller
    rw [ht] at hn hjoined
    refine ⟨hguard, hstopped, by simpa using hn, fun i hi => ?_⟩
    -- the joined threads are others
    have hat := hjoined i hi
    rcases Nat.lt_trichotomy i l.length with hlt | heq | hgt
    · rw [List.getElem?_append_left hlt] at hat ⊢
      exact hat
    · rw [heq, List.getElem?_append_right (Nat.le_refl _), Nat.sub_self, List.getElem?_cons_zero] at hat
      exact absurd (Option.some.inj hat) hne
    · obtain ⟨k, rfl⟩ := Nat.exists_eq_add_of_lt hgt
      rw [List.getElem?_append_right (by omega), show l.length + k + 1 - l.length = k + 1 by omega,
        List.getElem?_cons_succ] at hat ⊢
      exact hat
  left hrunning := by
    have hmem := h.left hrunning
    rw [ht] at hmem
    simp only [List.mem_append, List.mem_cons, not_or] at hmem ⊢
    refine ⟨hmem.1, fun heq => ?_, hmem.2.2⟩
    rw [hleft heq.symm] at hrunning
    cases hrunning

theorem AsioThreadPool.Inv.step (h : p.Inv hwConc) (hstep : AsioThreadPool.Step hwConc p lab q) : q.Inv hwConc := by
  cases hstep with
  | run created hcaller hcreated =>
      unfold AsioThreadPool.run
      split
      · exact h
      · next hguard =>
          have hnil := h.outside hcaller (by simpa using hguard)
          refine ⟨?_, (fun _ hg => by cases hg), fun n hn => ?_, fun hrunning => ?_⟩
          · simpa [hnil] using hcreated
          · rw [show p.caller = .joining n from hn] at hcaller
            cases hcaller
          · simp [hnil]
  | stop hcaller =>
      unfold AsioThreadPool.stop
      split
      · refine ⟨h.bound, (fun hout => by cases hout), fun n hn => ?_, (fun hrunning => by cases hrunning)⟩
        cases hn
        exact ⟨rfl, rfl, Nat.zero_le _, fun i hi => absurd hi (Nat.not_lt_zero i)⟩
      · exact h
  | join n hcaller ht =>
      obtain ⟨hguard, hstopped, -, hjoined⟩ := h.joining n hcaller
      refine ⟨h.bound, (fun hout => by cases hout), fun m hm => ?_, h.left⟩
      cases hm
      refine ⟨hguard, hstopped, (List.getElem?_eq_some_iff.mp ht).1, fun i hi => ?_⟩
      rcases Nat.lt_succ_iff_lt_or_eq.mp hi with hlt | rfl
      · exact hjoined i hlt
      · exact ht
  | clear n hcaller hn =>
      refine ⟨Nat.zero_le _, fun _ _ => rfl, (fun m hm => by cases hm), fun _ => List.not_mem_nil⟩
  | post handler => exact ⟨h.bound, h.outside, h.joining, h.left⟩
  | start l r handler rest ht hq hrunning => exact h.replace ht (by simp) (by simp)
  | finish l r handler ht => exact h.replace ht (by simp) (by simp)
  | leave l r ht hstopped => exact h.replace ht (by simp) fun _ => hstopped

theorem AsioThreadPool.inv_of_reachable (h : Reachable (AsioThreadPool.system hwConc) p) : p.Inv hwConc := by
  refine h.invariant (I := AsioThreadPool.Inv hwConc) ?_ fun _ _ _ hp hstep => hp.step hstep
  rintro p rfl
  exact ⟨Nat.zero_le _, fun _ _ => rfl, (fun n hn => by cases hn), fun _ => List.not_mem_nil⟩

/-- **One generation.** In every reachable state there are at most as many threads as one `Run` starts; outside of
`Run` and `Stop` there are none unless the work guard is there, so that the pool can be destroyed or run again; and
in `Stop` those joined so far have left `run()`. -/
theorem AsioThreadPool.generation (h : Reachable (AsioThreadPool.system hwConc) p) :
    p.asioThreads_.length ≤ threadCount hwConc ∧
    (p.caller = .outside → p.workGuard_ = false → p.asioThreads_ = []) ∧
    (∀ n, p.caller = .joining n → p.workGuard_ = false ∧ ∀ i < n, p.asioThreads_[i]? = some .left) := by
  have hinv := AsioThreadPool.inv_of_reachable h
  refine ⟨hinv.bound, hinv.outside, fun n hn => ?_⟩
  obtain ⟨hguard, -, -, hjoined⟩ := hinv.joining n hn
  exact ⟨hguard, hjoined⟩

end Generation

/-- `Stop` on a pool of one thread. -/
def AsioThreadPool.stopping : AsioThreadPool := ⟨false, [.running], true, [], [], .joining 0⟩

theorem AsioThreadPool.stopping_reachable : Reachable (AsioThreadPool.system 1) .stopping :=
  ⟨.fresh, [.run 1, .stop], rfl, ((Run.refl (S := AsioThreadPool.system 1) .fresh).tail
    (.run .fresh 1 rfl (by decide))).tail (.stop ⟨true, [.running], false, [], [], .outside⟩ rfl)⟩

theorem AsioThreadPool.generation_stopping : AsioThreadPool.stopping.asioThreads_.length ≤ threadCount 1 :=
  (AsioThreadPool.generation AsioThreadPool.stopping_reachable).1

/-! ## `Stop` returns -/

/-- How many steps a thread is away from leaving. -/
def PoolThread.toLeave : PoolThread → Nat
  | .running => 1
  | .handling _ => 2
  | .left => 0

/-- How many steps of the loop of joins are left. -/
def AsioThreadPool.toJoin (p : AsioThreadPool) : Nat :=
  match p.caller with
  | .outside => 0
  | .joining n => p.asioThreads_.length - n + 1

/-- How far a `Stop` is from its end. -/
def AsioThreadPool.rank (p : AsioThreadPool) : Nat := (p.asioThreads_.map PoolThread.toLeave).sum + p.toJoin

/-- A step of the caller or of a thread towards the end of `Stop`. -/
def ThreadPoolLabel.ofStop : ThreadPoolLabel → Bool
  | .join => true
  | .clear => true
  | .start _ => true
  | .finish _ => true
  | .leave => true
  | _ => false

/-- No new call of `Run` or `Stop`. -/
def ThreadPoolLabel.NoCall (lab : ThreadPoolLabel) : Prop := (∀ created, lab ≠ .run created) ∧ lab ≠ .stop

section Stop
variable {hwConc : Nat} {p q : AsioThreadPool} {lab : ThreadPoolLabel}

/-- Nothing ever restarts the `io_context`. -/
theorem AsioThreadPool.Step.stopped (hstep : AsioThreadPool.Step hwConc p lab q) (h : p.stopped = true) :
    q.stopped = true ∧ ∀ handler, lab ≠ .start handler := by
  cases hstep with
  | run created hcaller hcreated =>
      refine ⟨?_, by simp⟩
      unfold AsioThreadPool.run
      split <;> exact h
  | stop hcaller =>
      refine ⟨?_, by simp⟩
      unfold AsioThreadPool.stop
      split
      · rfl
      · exact h
  | join n hcaller ht => exact ⟨h, by simp⟩
  | clear n hcaller hn => exact ⟨h, by simp⟩
  | post handler => exact ⟨h, by simp⟩
  | start l r handler rest ht hq hrunning =>
      rw [h] at hrunning
      cases hrunning
  | finish l r handler ht => exact ⟨h, by simp⟩
  | leave l r ht hstopped => exact ⟨h, by simp⟩

theorem toLeave_sum (l r : List PoolThread) (t : PoolThread) :
    ((l ++ t :: r).map PoolThread.toLeave).sum =
      (l.map PoolThread.toLeave).sum + t.toLeave + (r.map PoolThread.toLeave).sum := by
  rw [List.map_append, List.map_cons, List.sum_append, List.sum_cons]
  omega

/-- A step towards the end of `Stop` lowers the rank, and nothing but a new call raises it. -/
theorem AsioThreadPool.Step.rank (hstep : AsioThreadPool.Step hwConc p lab q) (h : p.stopped = true)
    (hcall : lab.NoCall) : q.rank + (if lab.ofStop then 1 else 0) ≤ p.rank := by
  cases hstep with
  | run created hcaller hcreated => exact absurd rfl (hcall.1 created)
  | stop hcaller => exact absurd rfl hcall.2
  | join n hcaller ht =>
      have hlt := (List.getElem?_eq_some_iff.mp ht).1
      simp only [AsioThreadPool.rank, AsioThreadPool.toJoin, hcaller, ThreadPoolLabel.ofStop, if_true]
      omega
  | clear n hcaller hn =>
      simp only [AsioThreadPool.rank, AsioThreadPool.toJoin, hcaller, ThreadPoolLabel.ofStop, if_true, List.map_nil,
        List.sum_nil]
      omega
  | post handler => exact Nat.le_refl _
  | start l r handler rest ht hq hrunning =>
      rw [h] at hrunning
      cases hrunning
  | finish l r handler ht =>
      simp only [AsioThreadPool.rank, AsioThreadPool.toJoin, ht, toLeave_sum, List.length_append, List.length_cons,
        PoolThread.toLeave, ThreadPoolLabel.ofStop, if_true]
      omega
  | leave l r ht hstopped =>
      simp only [AsioThreadPool.rank, AsioThreadPool.toJoin, ht, toLeave_sum, List.length_append, List.length_cons,
        PoolThread.toLeave, ThreadPoolLabel.ofStop, if_true]
      omega

/-- In `Stop` the caller can go on, or the thread it waits for can. -/
theorem AsioThreadPool.Inv.progress (h : p.Inv hwConc) {n : Nat} (hcaller : p.caller = .joining n) :
    ∃ lab q, lab.ofStop = true ∧ AsioThreadPool.Step hwConc p lab q := by
  obtain ⟨-, hstopped, hn, -⟩ := h.joining n hcaller
  rcases Nat.lt_or_eq_of_le hn with hlt | heq
  · obtain ⟨l, r, hsplit, hlen⟩ : ∃ l r, p.asioThreads_ = l ++ p.asioThreads_[n] :: r ∧ l.length = n :=
      ⟨p.asioThreads_.take n, p.asioThreads_.drop (n + 1), by simp, by simp; omega⟩
    cases hthread : p.asioThreads_[n] with
    | running =>
        rw [hthread] at hsplit
        exact ⟨_, _, rfl, .leave p l r hsplit hstopped⟩
    | handling handler =>
        rw [hthread] at hsplit
        exact ⟨_, _, rfl, .finish p l r handler hsplit⟩
    | left => exact ⟨_, _, rfl, .join p n hcaller (List.getElem?_eq_some_iff.mpr ⟨hlt, hthread⟩)⟩
  · exact ⟨_, _, rfl, .clear p n hcaller heq.symm⟩

/-- `q` is `p` but for its threads and its caller, and no thread is in a handler. -/
structure AsioThreadPool.StoppedAs (hwConc : Nat) (p q : AsioThreadPool) : Prop where
  inv : q.Inv hwConc
  idle : ∀ handler, .handling handler ∉ q.asioThreads_
  guard : q.workGuard_ = false
  stopped : q.stopped = true
  queue : q.queue = p.queue
  ended : q.ended = p.ended

/-- `Stop` with its threads between two handlers takes a step. -/
theorem AsioThreadPool.StoppedAs.progress {q : AsioThreadPool} (h : p.StoppedAs hwConc q) (hjoin : q.caller ≠ .outside) :
    ∃ lab t, True ∧ AsioThreadPool.Step hwConc q lab t ∧ p.StoppedAs hwConc t ∧ t.rank < q.rank := by
  cases hcaller : q.caller with
  | outside => exact absurd hcaller hjoin
  | joining n =>
      obtain ⟨lab, t, hlab, hstep⟩ := h.inv.progress hcaller
      have hcall : lab.NoCall := by
        refine ⟨fun created heq => ?_, fun heq => ?_⟩
        · rw [heq] at hlab
          cases hlab
        · rw [heq] at hlab
          cases hlab
      have hrank := AsioThreadPool.Step.rank hstep h.stopped hcall
      rw [hlab, if_pos rfl] at hrank
      refine ⟨lab, t, trivial, hstep, ?_, hrank⟩
      have hinv := h.inv.step hstep
      cases hstep with
      | run created hcaller hcreated => cases hlab
      | stop hcaller => cases hlab
      | join n hcaller ht => exact ⟨hinv, h.idle, h.guard, h.stopped, h.queue, h.ended⟩
      | clear n hcaller hn => exact ⟨hinv, fun _ => List.not_mem_nil, h.guard, h.stopped, h.queue, h.ended⟩
      | post handler => cases hlab
      | start l r handler rest ht hq hrunning =>
          rw [h.stopped] at hrunning
          cases hrunning
      | finish l r handler ht => exact absurd (by simp [ht]) (h.idle handler)
      | leave l r ht hstopped =>
          refine ⟨hinv, fun handler hmem => h.idle handler ?_, h.guard, h.stopped, h.queue, h.ended⟩
          rw [ht]
          simpa using hmem

/-- It can run to its end. -/
theorem AsioThreadPool.Inv.stop_run (h : p.Inv hwConc) {n : Nat} (hcaller : p.caller = .joining n)
    (hidle : ∀ handler, .handling handler ∉ p.asioThreads_) :
    ∃ labs, Run (AsioThreadPool.system hwConc) p labs { p with asioThreads_ := [], caller := .outside } := by
  obtain ⟨hguard, hstopped, -, -⟩ := h.joining n hcaller
  have hp : p.StoppedAs hwConc p := ⟨h, hidle, hguard, hstopped, rfl, rfl⟩
  obtain ⟨labs, q, hrun, -, hq, hout, -⟩ :=
    Run.exists_to (S := AsioThreadPool.system hwConc) (fun q hq => hq.progress) hp
  have hnil := hq.inv.outside hout hq.guard
  obtain ⟨workGuard_, asioThreads_, stopped, queue, ended, caller⟩ := q
  obtain ⟨rfl, rfl, rfl, rfl, rfl, rfl⟩ : workGuard_ = false ∧ asioThreads_ = [] ∧ stopped = true ∧
    queue = p.queue ∧ ended = p.ended ∧ caller = .outside := ⟨hq.guard, hnil, hq.stopped, hq.queue, hq.ended, hout⟩
  rw [hguard, hstopped]
  exact ⟨labs, hrun⟩

/-- `Run` and `Stop` on the new pool. -/
theorem AsioThreadPool.run_stop_ends {n : Nat} (hn : n ≤ threadCount hwConc) :
    ∃ labs, Run (AsioThreadPool.system hwConc) .fresh labs
      { (AsioThreadPool.fresh.run n).stop with asioThreads_ := [], caller := .outside } := by
  have hrun : Run (AsioThreadPool.system hwConc) .fresh [.run n, .stop] (AsioThreadPool.fresh.run n).stop :=
    (Run.single (AsioThreadPool.Step.run .fresh n rfl hn)).tail (AsioThreadPool.Step.stop _ rfl)
  have hinv := AsioThreadPool.inv_of_reachable ⟨_, _, rfl, hrun⟩
  obtain ⟨labs, hstop⟩ := hinv.stop_run (n := 0) rfl fun handler hmem => by
    cases List.eq_of_mem_replicate hmem
  exact ⟨_, hrun.trans hstop⟩

/-- **`Stop` returns.** From every reachable state in which `Stop` joins the threads, however the threads and whoever
posts handlers go on, there are at most `rank` more steps towards its end, and as long as it has not returned one of
them can be taken. -/
theorem AsioThreadPool.stop_ends {n : Nat} (h : Reachable (AsioThreadPool.system hwConc) p)
    (hcaller : p.caller = .joining n) {labs : List ThreadPoolLabel} (hrun : Run (AsioThreadPool.system hwConc) p labs q)
    (hcall : ∀ lab ∈ labs, lab.NoCall) :
    labs.countP ThreadPoolLabel.ofStop ≤ p.rank ∧
    (q.caller ≠ .outside → ∃ lab t, lab.ofStop = true ∧ AsioThreadPool.Step hwConc q lab t) := by
  have hstopped : p.stopped = true := ((AsioThreadPool.inv_of_reachable h).joining n hcaller).2.1
  refine ⟨?_, fun hjoining => ?_⟩
  · have hle := hrun.countP_le (I := fun p => p.stopped = true) (P := ThreadPoolLabel.NoCall)
      (fun _ _ _ _ hs hstep => (AsioThreadPool.Step.stopped hstep hs).1)
      (fun _ _ _ hl hs hstep => AsioThreadPool.Step.rank hstep hs hl) hcall hstopped
    exact Nat.le_trans (Nat.le_add_right _ _) hle
  · cases hq : q.caller with
    | outside => exact absurd hq hjoining
    | joining m => exact (AsioThreadPool.inv_of_reachable (h.run hrun)).progress hq

/-- The thread has left and is not joined yet. -/
theorem AsioThreadPool.stop_ends_stopping : ∃ lab t, lab.ofStop = true ∧
    AsioThreadPool.Step 1 ⟨false, [.left], true, [], [], .joining 0⟩ lab t := by
  have hrun : Run (AsioThreadPool.system 1) .stopping [.leave] ⟨false, [.left], true, [], [], .joining 0⟩ :=
    Run.single (.leave .stopping [] [] rfl rfl)
  exact (AsioThreadPool.stop_ends AsioThreadPool.stopping_reachable rfl hrun (by simp [ThreadPoolLabel.NoCall])).2
    (by decide)

/-- **A stopped pool stays stopped.** After a `Stop` that found the pool running no thread begins a handler, whatever
is posted and however often `Run` is called again. -/
theorem AsioThreadPool.stop_final (hguard : p.workGuard_ = true) {labs : List ThreadPoolLabel}
    (hstop : AsioThreadPool.Step hwConc p .stop q) {t : AsioThreadPool}
    (hrun : Run (AsioThreadPool.system hwConc) q labs t) : t.stopped = true ∧ ∀ handler, .start handler ∉ labs := by
  have hstopped : q.stopped = true := by
    cases hstop with
    | stop hcaller =>
        unfold AsioThreadPool.stop
        rw [if_pos hguard]
  clear hstop
  induction hrun with
  | refl => exact ⟨hstopped, by simp⟩
  | tail _ hstep ih =>
      obtain ⟨ht, hlabs⟩ := ih
      obtain ⟨hu, hlab⟩ := AsioThreadPool.Step.stopped hstep ht
      refine ⟨hu, fun handler hmem => ?_⟩
      rcases List.mem_append.mp hmem with hmem | hmem
      · exact hlabs handler hmem
      · exact hlab handler (List.mem_singleton.mp hmem).symm

/-- `Run` after `Stop`: the posted handler is not begun. -/
theorem AsioThreadPool.stop_final_run : ThreadPoolLabel.start 3 ∉ [.clear, .post 3, .run 1] := by
  have hstop : AsioThreadPool.Step 1 ⟨true, [], false, [], [], .outside⟩ .stop
    ⟨false, [], true, [], [], .joining 0⟩ := .stop _ rfl
  have hrun : Run (AsioThreadPool.system 1) ⟨false, [], true, [], [], .joining 0⟩ [.clear, .post 3, .run 1]
      ⟨true, [.running], true, [3], [], .outside⟩ :=
    (((Run.refl (S := AsioThreadPool.system 1) ⟨false, [], true, [], [], .joining 0⟩).tail
      (.clear ⟨false, [], true, [], [], .joining 0⟩ 0 rfl rfl)).tail
      (.post ⟨false, [], true, [], [], .outside⟩ 3)).tail (.run ⟨false, [], true, [3], [], .outside⟩ 1 rfl (by decide))
  exact (AsioThreadPool.stop_final rfl hstop hrun).2 3

end Stop

end PhotonCommerce.Infrastructure
