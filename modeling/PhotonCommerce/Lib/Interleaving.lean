import PhotonCommerce.Lib.Coroutine
import PhotonCommerce.Lib.Transition

/-!
# Interleaved coroutines over a shared world

Calls are invoked at any time; each runs as a coroutine of its own, and its awaited operations take effect on the
world one at a time, in any order with those of the other calls. The log records every operation with its answer and
the world before and after.

* `Setup` : the worlds, what the operations may answer, what happens to the world by itself, the calls;
* `Setup.system` : every interleaving;
* `Setup.entry` : an event of a call as an entry of the log;
* `Setup.history` : what the operations keep of the log and the world holds at every point of the log;
* `Setup.ended`, `Setup.issued` : the log of a call is a run of its coroutine, each entry one the coroutine awaited;
* `Setup.invoked` : a call was admitted at an earlier state, before any of its entries;
* `drive`, `Setup.run_complete` : a call run to its end with answered operations is a run; `Setup.run_call` : so is a
  call led along given events in a world that stays as it is.
-/

namespace Interleaving
open Coroutine Transition

/-- One operation in the log. -/
structure Entry (Op : Type) (Ans : Op → Type) (World : Type) extends Event Op Ans where
  tid : Nat
  pre : World
  post : World

/-- An invoked call: its position in `State.threads` is its thread id. -/
structure Thread (Op : Type) (Ans : Op → Type) (Call ε α : Type) where
  call : Call
  todo : Co Op Ans ε α

structure State (Op : Type) (Ans : Op → Type) (World Call ε α : Type) where
  world : World
  log : List (Entry Op Ans World)
  threads : List (Thread Op Ans Call ε α)

/-- The worlds to start in, the answers of the operations, the steps of the world on its own, the coroutine of each
call and when a call may be invoked. -/
structure Setup (Op : Type) (Ans : Op → Type) (World Call ε α : Type) where
  init : World → Prop
  exec : (o : Op) → World → Ans o → World → Prop
  env : World → World → Prop
  prog : Call → Co Op Ans ε α
  admits : State Op Ans World Call ε α → Call → Prop

inductive Label (Call : Type) where
  | invoke (call : Call)
  | advance (tid : Nat)
  | env

variable {Op : Type} {Ans : Op → Type} {World Call ε α : Type}

inductive Setup.Step (S : Setup Op Ans World Call ε α) :
    State Op Ans World Call ε α → Label Call → State Op Ans World Call ε α → Prop where
  | invoke (s : State Op Ans World Call ε α) (call : Call) (h : S.admits s call) :
      Step S s (.invoke call) { s with threads := s.threads ++ [⟨call, S.prog call⟩] }
  | advance (s : State Op Ans World Call ε α) (tid : Nat) (call : Call) (o : Op) (k : Ans o → Co Op Ans ε α)
      (a : Ans o) (w : World) (ht : s.threads[tid]? = some ⟨call, .await o k⟩) (h : S.exec o s.world a w) :
      Step S s (.advance tid)
        ⟨w, s.log ++ [⟨⟨o, a⟩, tid, s.world, w⟩], s.threads.set tid ⟨call, k a⟩⟩
  | env (s : State Op Ans World Call ε α) (w : World) (h : S.env s.world w) : Step S s .env { s with world := w }

/-- Every interleaving of the calls. -/
def Setup.system (S : Setup Op Ans World Call ε α) : Lts (State Op Ans World Call ε α) (Label Call) where
  init s := S.init s.world ∧ s.log = [] ∧ s.threads = []
  step := S.Step

/-- The events of one call in a log. -/
def events (log : List (Entry Op Ans World)) (tid : Nat) : List (Event Op Ans) :=
  (log.filter fun e => e.tid = tid).map Entry.toEvent

@[simp] theorem events_nil (tid : Nat) : events ([] : List (Entry Op Ans World)) tid = [] := rfl

theorem events_append (l₁ l₂ : List (Entry Op Ans World)) (tid : Nat) :
    events (l₁ ++ l₂) tid = events l₁ tid ++ events l₂ tid := by
  simp [events]

theorem events_singleton_self (e : Entry Op Ans World) : events [e] e.tid = [e.toEvent] := by
  simp [events]

theorem events_singleton_of_ne {e : Entry Op Ans World} {tid : Nat} (h : e.tid ≠ tid) : events [e] tid = [] := by
  simp [events, h]

/-- Each event of a call is one of its entries. -/
theorem mem_events {log : List (Entry Op Ans World)} {tid : Nat} {ev : Event Op Ans} :
    ev ∈ events log tid ↔ ∃ e ∈ log, e.tid = tid ∧ e.toEvent = ev := by
  simp [events, and_assoc]

theorem tid_ne_of_events_eq_nil {log : List (Entry Op Ans World)} {tid : Nat} (h : events log tid = []) :
    ∀ e ∈ log, e.tid ≠ tid := by
  intro e he htid
  have := mem_events.mpr ⟨e, he, htid, rfl⟩
  rw [h] at this
  cases this

/-- A split of the events of a call comes from a split of the log. -/
theorem events_eq_append_cons {log : List (Entry Op Ans World)} {tid : Nat} {tr₁ tr₂ : List (Event Op Ans)}
    {ev : Event Op Ans} (h : events log tid = tr₁ ++ ev :: tr₂) :
    ∃ l e r, log = l ++ e :: r ∧ e.tid = tid ∧ e.toEvent = ev ∧ events l tid = tr₁ ∧ events r tid = tr₂ := by
  induction log generalizing tr₁ with
  | nil => exact absurd h (by simp)
  | cons e log ih =>
      have hsplit : events (e :: log) tid = events [e] tid ++ events log tid := events_append [e] log tid
      by_cases he : e.tid = tid
      · subst he
        rw [hsplit, events_singleton_self] at h
        cases tr₁ with
        | nil =>
            obtain ⟨rfl, htail⟩ := List.cons.inj h
            exact ⟨[], e, log, rfl, rfl, rfl, rfl, htail⟩
        | cons ev₁ tr₁ =>
            obtain ⟨rfl, htail⟩ := List.cons.inj h
            obtain ⟨l, e', r, rfl, he', hev, hl, hr⟩ := ih htail
            refine ⟨e :: l, e', r, rfl, he', hev, ?_, hr⟩
            rw [← List.singleton_append, events_append, events_singleton_self, hl]
            rfl
      · rw [hsplit, events_singleton_of_ne he, List.nil_append] at h
        obtain ⟨l, e', r, rfl, he', hev, hl, hr⟩ := ih h
        refine ⟨e :: l, e', r, rfl, he', hev, ?_, hr⟩
        rw [← List.singleton_append, events_append, events_singleton_of_ne he, hl]
        rfl

/-- A split of a log with a new entry is at that entry or before it. -/
theorem append_singleton_eq_append_cons {log l r : List (Entry Op Ans World)} {e x : Entry Op Ans World}
    (h : log ++ [x] = l ++ e :: r) : (r = [] ∧ l = log ∧ e = x) ∨ ∃ r', r = r' ++ [x] ∧ log = l ++ e :: r' := by
  rcases List.eq_nil_or_concat r with rfl | ⟨r', y, rfl⟩
  · obtain ⟨rfl, he⟩ := List.append_inj' h rfl
    exact .inl ⟨rfl, rfl, (List.singleton_inj.mp he).symm⟩
  · rw [List.concat_eq_append, ← List.cons_append, ← List.append_assoc] at h
    obtain ⟨hlog, hx⟩ := List.append_inj' h rfl
    obtain rfl := List.singleton_inj.mp hx
    exact .inr ⟨r', List.concat_eq_append, hlog⟩

/-- Two entries of a log are the same one, or one comes before the other. -/
theorem split_order {l₁ r₁ l₂ r₂ : List (Entry Op Ans World)} {e₁ e₂ : Entry Op Ans World}
    (h : l₁ ++ e₁ :: r₁ = l₂ ++ e₂ :: r₂) :
    (l₁ = l₂ ∧ e₁ = e₂) ∨ (∃ m, l₂ = l₁ ++ e₁ :: m) ∨ ∃ m, l₁ = l₂ ++ e₂ :: m := by
  rcases List.append_eq_append_iff.mp h with ⟨m, rfl, hm⟩ | ⟨m, rfl, hm⟩
  · cases m with
    | nil => exact .inl ⟨(List.append_nil _).symm, (List.cons.inj hm).1⟩
    | cons e m =>
        obtain ⟨rfl, -⟩ := List.cons.inj hm
        exact .inr (.inl ⟨m, rfl⟩)
  · cases m with
    | nil => exact .inl ⟨List.append_nil _, (List.cons.inj hm).1.symm⟩
    | cons e m =>
        obtain ⟨rfl, -⟩ := List.cons.inj hm
        exact .inr (.inr ⟨m, rfl⟩)

/-- Of two entries of a log, the one with fewer events of a call before it comes first. -/
theorem split_lt {l₁ r₁ l₂ r₂ : List (Entry Op Ans World)} {e₁ e₂ : Entry Op Ans World} (tid : Nat)
    (h : l₁ ++ e₁ :: r₁ = l₂ ++ e₂ :: r₂) (hlt : (events l₁ tid).length < (events l₂ tid).length) :
    ∃ m, l₂ = l₁ ++ e₁ :: m := by
  rcases split_order h with ⟨rfl, -⟩ | hm | ⟨m, rfl⟩
  · omega
  · exact hm
  · rw [events_append, List.length_append] at hlt
    omega

/-! ## Histories -/

section History
variable {S : Setup Op Ans World Call ε α} {s t : State Op Ans World Call ε α}

/-- What holds at the start and is kept by the world and by every operation holds of the whole log and of each of
its prefixes with the world before the next entry. -/
theorem Setup.history {I : List (Entry Op Ans World) → World → Prop} (hinit : ∀ w, S.init w → I [] w)
    (henv : ∀ log w w', I log w → S.env w w' → I log w')
    (hexec : ∀ log (e : Entry Op Ans World), I log e.pre → S.exec e.op e.pre e.ans e.post → I (log ++ [e]) e.post)
    (hs : Reachable S.system s) : I s.log s.world ∧ ∀ l e r, s.log = l ++ e :: r → I l e.pre := by
  refine hs.invariant (I := fun s => I s.log s.world ∧ ∀ l e r, s.log = l ++ e :: r → I l e.pre) ?_ ?_
  · rintro s ⟨hw, hlog, -⟩
    rw [hlog]
    exact ⟨hinit _ hw, fun l e r h => absurd h (by simp)⟩
  · rintro s lab t ⟨hI, hpre⟩ hstep
    cases hstep with
    | invoke call h => exact ⟨hI, hpre⟩
    | env w h => exact ⟨henv _ _ _ hI h, hpre⟩
    | advance tid call o k a w ht h =>
        refine ⟨hexec s.log ⟨⟨o, a⟩, tid, s.world, w⟩ hI h, fun l e r hl => ?_⟩
        rcases append_singleton_eq_append_cons hl with ⟨-, rfl, rfl⟩ | ⟨r', -, hl⟩
        · exact hI
        · exact hpre l e r' hl

/-- Each entry is an answer the operation may give. -/
theorem Setup.executed (hs : Reachable S.system s) : ∀ e ∈ s.log, S.exec e.op e.pre e.ans e.post := by
  refine (Setup.history (I := fun log _ => ∀ e ∈ log, S.exec e.op e.pre e.ans e.post) (fun _ _ => by simp)
    (fun _ _ _ h _ => h) (fun log e h he e' hmem => ?_) hs).1
  rcases List.mem_append.mp hmem with h' | h'
  · exact h e' h'
  · obtain rfl := List.mem_singleton.mp h'
    exact he

/-- Each event of a call is an entry of the log, at which the operation was answered so. -/
theorem Setup.executed_event (hs : Reachable S.system s) {tid : Nat} {o : Op} {x : Ans o}
    (h : (⟨o, x⟩ : Event Op Ans) ∈ events s.log tid) :
    ∃ pre post, (⟨⟨o, x⟩, tid, pre, post⟩ : Entry Op Ans World) ∈ s.log ∧ S.exec o pre x post := by
  obtain ⟨⟨_, _, pre, post⟩, he, rfl, rfl⟩ := mem_events.mp h
  exact ⟨pre, post, he, Setup.executed hs _ he⟩

/-- **An event of a call as an entry of the log**: when it happened, between which worlds, and what the call had done
before and did after. The log may be cut off after any entry. -/
theorem Setup.entry (hs : Reachable S.system s) {l₀ r₀ : List (Entry Op Ans World)} (hlog : s.log = l₀ ++ r₀) {tid : Nat}
    (tr₁ : List (Event Op Ans)) {o : Op} {a : Ans o} {tr₂ : List (Event Op Ans)}
    (h : events l₀ tid = tr₁ ++ ⟨o, a⟩ :: tr₂) :
    ∃ l pre post r, l₀ = l ++ ⟨⟨o, a⟩, tid, pre, post⟩ :: r ∧ S.exec o pre a post ∧ events l tid = tr₁ ∧
      events r tid = tr₂ := by
  obtain ⟨l, ⟨ev, tid', pre, post⟩, r, rfl, htid, hev, hl, hr⟩ := events_eq_append_cons h
  obtain rfl : tid' = tid := htid
  obtain rfl : ev = ⟨o, a⟩ := hev
  have hmem : (⟨⟨o, a⟩, tid', pre, post⟩ : Entry Op Ans World) ∈ s.log := by simp [hlog]
  exact ⟨l, pre, post, r, rfl, Setup.executed hs _ hmem, hl, hr⟩

/-- A preorder that contains the operations and the world's own steps relates the world after an entry to the world
before every later one, and to the current world. -/
theorem Setup.evolves {R : World → World → Prop} (hrefl : ∀ w, R w w) (htrans : ∀ u v w, R u v → R v w → R u w)
    (henv : ∀ w w', S.env w w' → R w w') (hexec : ∀ o w a w', S.exec o w a w' → R w w')
    (hs : Reachable S.system s) :
    (∀ e ∈ s.log, R e.post s.world) ∧ ∀ l e r, s.log = l ++ e :: r → ∀ e' ∈ l, R e'.post e.pre := by
  refine Setup.history (I := fun log w => ∀ e ∈ log, R e.post w) (fun _ _ => by simp)
    (fun _ _ _ h hw e he => htrans _ _ _ (h e he) (henv _ _ hw)) (fun log e h he e' hmem => ?_) hs
  rcases List.mem_append.mp hmem with h' | h'
  · exact htrans _ _ _ (h e' h') (hexec _ _ _ _ he)
  · obtain rfl := List.mem_singleton.mp h'
    exact hrefl _

end History

/-! ## The log of a call -/

section Calls
variable {S : Setup Op Ans World Call ε α} {s t : State Op Ans World Call ε α} {tid : Nat}

/-- The events of each call lead its coroutine to where it stands, and every entry belongs to a call that awaited
it. -/
structure Setup.Traced (S : Setup Op Ans World Call ε α) (s : State Op Ans World Call ε α) : Prop where
  trace : ∀ tid th, s.threads[tid]? = some th → Trace (S.prog th.call) (events s.log tid) th.todo
  issued : ∀ l e r, s.log = l ++ e :: r → ∃ th k, s.threads[e.tid]? = some th ∧
    Trace (S.prog th.call) (events l e.tid) (.await e.op k)

theorem Setup.Traced.lt (h : S.Traced s) {e : Entry Op Ans World} (he : e ∈ s.log) : e.tid < s.threads.length := by
  obtain ⟨l, r, hl⟩ := List.append_of_mem he
  obtain ⟨th, k, hth, -⟩ := h.issued l e r hl
  exact (List.getElem?_eq_some_iff.mp hth).1

theorem Setup.Traced.events_eq_nil (h : S.Traced s) (htid : s.threads.length ≤ tid) : events s.log tid = [] := by
  refine List.eq_nil_iff_forall_not_mem.mpr fun ev hev => ?_
  obtain ⟨e, he, rfl, -⟩ := mem_events.mp hev
  exact absurd (h.lt he) (by omega)

theorem Setup.Traced.step {lab : Label Call} (h : S.Traced s) (hstep : S.Step s lab t) : S.Traced t := by
  cases hstep with
  | env w hw => exact ⟨h.trace, h.issued⟩
  | invoke call hadm =>
      refine ⟨fun tid th hth => ?_, fun l e r hl => ?_⟩
      · by_cases hlt : tid < s.threads.length
        · rw [List.getElem?_append_left hlt] at hth
          exact h.trace tid th hth
        · have hnil := h.events_eq_nil (Nat.le_of_not_lt hlt)
          rw [List.getElem?_append_right (Nat.le_of_not_lt hlt)] at hth
          obtain rfl := List.mem_singleton.mp (List.mem_of_getElem? hth)
          rw [hnil]
          exact Trace.nil _
      · obtain ⟨th, k, hth, htr⟩ := h.issued l e r hl
        refine ⟨th, k, ?_, htr⟩
        rw [List.getElem?_append_left (List.getElem?_eq_some_iff.mp hth).1]
        exact hth
  | advance i call o k a w ht hexec =>
      have hlt : i < s.threads.length := (List.getElem?_eq_some_iff.mp ht).1
      refine ⟨fun tid th hth => ?_, fun l e r hl => ?_⟩
      · rw [events_append]
        by_cases hi : i = tid
        · subst hi
          rw [List.getElem?_set_self hlt] at hth
          obtain rfl := Option.some.inj hth
          have htail : events [(⟨⟨o, a⟩, i, s.world, w⟩ : Entry Op Ans World)] i = [⟨o, a⟩] :=
            events_singleton_self _
          rw [htail]
          exact (h.trace i _ ht).snoc a
        · rw [List.getElem?_set_ne hi] at hth
          rw [events_singleton_of_ne hi, List.append_nil]
          exact h.trace tid th hth
      · have hkeep : ∀ (j : Nat) (th : Thread Op Ans Call ε α), s.threads[j]? = some th →
            ∃ th', (s.threads.set i ⟨call, k a⟩)[j]? = some th' ∧ th'.call = th.call := by
          intro j th hj
          by_cases hi : i = j
          · subst hi
            refine ⟨_, List.getElem?_set_self hlt, ?_⟩
            rw [ht] at hj
            obtain rfl := Option.some.inj hj
            rfl
          · exact ⟨th, by rw [List.getElem?_set_ne hi]; exact hj, rfl⟩
        have hprev : ∃ th k', s.threads[e.tid]? = some th ∧
            Trace (S.prog th.call) (events l e.tid) (.await e.op k') := by
          rcases append_singleton_eq_append_cons hl with ⟨-, rfl, rfl⟩ | ⟨r', -, hl⟩
          · exact ⟨_, k, ht, h.trace i _ ht⟩
          · exact h.issued l e r' hl
        obtain ⟨th, k', hth, htr⟩ := hprev
        obtain ⟨th', hth', hcall⟩ := hkeep _ th hth
        exact ⟨th', k', hth', hcall ▸ htr⟩

theorem Setup.traced (hs : Reachable S.system s) : S.Traced s := by
  refine hs.invariant (I := S.Traced) ?_ fun s lab t h hstep => h.step hstep
  rintro s ⟨-, hlog, hthreads⟩
  refine ⟨fun tid th hth => ?_, fun l e r hl => ?_⟩
  · rw [hthreads] at hth
    cases hth
  · rw [hlog] at hl
    exact absurd hl (by simp)

/-- **A call that has ended ran through its coroutine**, with its entries as the events. -/
theorem Setup.ended (hs : Reachable S.system s) {call : Call} {v : α}
    (hth : s.threads[tid]? = some ⟨call, .ret v⟩) : Runs (S.prog call) (events s.log tid) (.ok v) :=
  ((Setup.traced hs).trace tid _ hth).runs_ret

/-- An entry of a call is one its coroutine awaited. -/
theorem Setup.awaits {φ : List (Event Op Ans) → Op → Prop} (hs : Reachable S.system s)
    {l r : List (Entry Op Ans World)} {e : Entry Op Ans World} (hlog : s.log = l ++ e :: r)
    {th : Thread Op Ans Call ε α} (hth : s.threads[e.tid]? = some th) (hφ : Always φ [] (S.prog th.call)) :
    φ (events l e.tid) e.op := by
  obtain ⟨th', k, hth', htr⟩ := (Setup.traced hs).issued l e r hlog
  rw [hth] at hth'
  obtain rfl := Option.some.inj hth'
  have := hφ.trace htr
  exact this.1

/-- **What a call awaits, its entries are.** -/
theorem Setup.always {φ : Call → List (Event Op Ans) → Op → Prop} (hφ : ∀ call, Always (φ call) [] (S.prog call))
    (hs : Reachable S.system s) {l r : List (Entry Op Ans World)} {e : Entry Op Ans World}
    (hlog : s.log = l ++ e :: r) : ∃ th, s.threads[e.tid]? = some th ∧ φ th.call (events l e.tid) e.op := by
  obtain ⟨th, k, hth, -⟩ := (Setup.traced hs).issued l e r hlog
  exact ⟨th, hth, Setup.awaits hs hlog hth (hφ th.call)⟩

/-- Runs only extend the log and the calls. -/
theorem Setup.extends {ls : List (Label Call)} (hrun : Run S.system s ls t) :
    (∃ r, t.log = s.log ++ r) ∧ s.threads.length ≤ t.threads.length := by
  induction hrun with
  | refl => exact ⟨⟨[], (List.append_nil _).symm⟩, Nat.le_refl _⟩
  | tail _ hstep ih =>
      obtain ⟨⟨r, hr⟩, hlen⟩ := ih
      cases hstep with
      | env w h => exact ⟨⟨r, hr⟩, hlen⟩
      | invoke call h => exact ⟨⟨r, hr⟩, by simp; omega⟩
      | advance tid call o k a w ht h =>
          rename_i u _ _
          refine ⟨⟨r ++ [⟨⟨o, a⟩, tid, u.world, w⟩], ?_⟩, by simpa using hlen⟩
          rw [hr, List.append_assoc]

/-- A thread keeps its call. -/
theorem Setup.call_persists {ls : List (Label Call)} (hrun : Run S.system s ls t) {th : Thread Op Ans Call ε α}
    (hth : s.threads[tid]? = some th) : ∃ th', t.threads[tid]? = some th' ∧ th'.call = th.call := by
  induction hrun with
  | refl => exact ⟨th, hth, rfl⟩
  | tail _ hstep ih =>
      obtain ⟨th', hth', hcall⟩ := ih
      cases hstep with
      | env w h => exact ⟨th', hth', hcall⟩
      | invoke call' h =>
          exact ⟨th', by rw [List.getElem?_append_left (List.getElem?_eq_some_iff.mp hth').1, hth'], hcall⟩
      | advance i call' o k a w ht h =>
          by_cases hi : i = tid
          · subst hi
            rw [ht] at hth'
            obtain rfl := Option.some.inj hth'
            exact ⟨_, List.getElem?_set_self (List.getElem?_eq_some_iff.mp ht).1, hcall⟩
          · exact ⟨th', by rw [List.getElem?_set_ne hi, hth'], hcall⟩

/-- A call that has ended stays as it is. -/
theorem Setup.ret_persists {ls : List (Label Call)} (hrun : Run S.system s ls t) {call : Call} {v : α}
    (hth : s.threads[tid]? = some ⟨call, .ret v⟩) : t.threads[tid]? = some ⟨call, .ret v⟩ := by
  induction hrun with
  | refl => exact hth
  | tail _ hstep ih =>
      cases hstep with
      | env w h => exact ih
      | invoke call' h => rw [List.getElem?_append_left (List.getElem?_eq_some_iff.mp ih).1, ih]
      | advance i call' o k a w ht h =>
          have hi : i ≠ tid := by
            rintro rfl
            rw [ht] at ih
            cases ih
          rw [List.getElem?_set_ne hi, ih]

/-- A call was admitted in an earlier state, in which it had no entry. -/
theorem Setup.invoked (hs : Reachable S.system s) {th : Thread Op Ans Call ε α}
    (hth : s.threads[tid]? = some th) :
    ∃ s₀ ls, Reachable S.system s₀ ∧ S.admits s₀ th.call ∧ Run S.system s₀ ls s ∧ s₀.threads.length ≤ tid := by
  obtain ⟨s₁, ms, hinit, hrun⟩ := hs
  induction hrun generalizing th with
  | refl =>
      rw [hinit.2.2] at hth
      cases hth
  | tail hrun hstep ih =>
      cases hstep with
      | env w h =>
          obtain ⟨s₀, ls, h₀, hadm, hls, hlen⟩ := ih hth
          exact ⟨s₀, _, h₀, hadm, hls.tail (Setup.Step.env _ w h), hlen⟩
      | invoke call h =>
          rename_i u _
          by_cases hlt : tid < u.threads.length
          · rw [List.getElem?_append_left hlt] at hth
            obtain ⟨s₀, ls, h₀, hadm, hls, hlen⟩ := ih hth
            exact ⟨s₀, _, h₀, hadm, hls.tail (Setup.Step.invoke _ call h), hlen⟩
          · rw [List.getElem?_append_right (Nat.le_of_not_lt hlt)] at hth
            obtain rfl := List.mem_singleton.mp (List.mem_of_getElem? hth)
            exact ⟨u, _, ⟨_, _, hinit, hrun⟩, h, Run.single (Setup.Step.invoke u call h), Nat.le_of_not_lt hlt⟩
      | advance i call o k a w ht h =>
          have hstep := Setup.Step.advance _ i call o k a w ht h
          by_cases hi : i = tid
          · subst hi
            rw [List.getElem?_set_self (List.getElem?_eq_some_iff.mp ht).1] at hth
            obtain rfl := Option.some.inj hth
            obtain ⟨s₀, ls, h₀, hadm, hls, hlen⟩ := ih ht
            exact ⟨s₀, _, h₀, hadm, hls.tail hstep, hlen⟩
          · rw [List.getElem?_set_ne hi] at hth
            obtain ⟨s₀, ls, h₀, hadm, hls, hlen⟩ := ih hth
            exact ⟨s₀, _, h₀, hadm, hls.tail hstep, hlen⟩

end Calls

/-! ## Running a call to its end -/

section Drive
variable {S : Setup Op Ans World Call ε α} {s : State Op Ans World Call ε α}

/-- Run a coroutine to its end, each operation answered by a function of the world: its entries, the last world and
what it has become. -/
def drive (answer : (o : Op) → World → Ans o × World) (tid : Nat) :
    Co Op Ans ε α → World → List (Entry Op Ans World) × World × Co Op Ans ε α
  | .ret v, w => ([], w, .ret v)
  | .throw e, w => ([], w, .throw e)
  | .await o k, w =>
      let rest := drive answer tid (k (answer o w).1) (answer o w).2
      (⟨⟨o, (answer o w).1⟩, tid, w, (answer o w).2⟩ :: rest.1, rest.2)

/-- The state after a call has been invoked and run to its end. -/
def State.complete (S : Setup Op Ans World Call ε α) (answer : (o : Op) → World → Ans o × World)
    (s : State Op Ans World Call ε α) (call : Call) : State Op Ans World Call ε α :=
  let rest := drive answer s.threads.length (S.prog call) s.world
  ⟨rest.2.1, s.log ++ rest.1, s.threads ++ [⟨call, rest.2.2⟩]⟩

theorem Setup.run_drive {answer : (o : Op) → World → Ans o × World}
    (hanswer : ∀ o w, S.exec o w (answer o w).1 (answer o w).2) {tid : Nat} {call : Call} {p : Co Op Ans ε α}
    (hth : s.threads[tid]? = some ⟨call, p⟩) :
    ∃ ls, Run S.system s ls ⟨(drive answer tid p s.world).2.1, s.log ++ (drive answer tid p s.world).1,
      s.threads.set tid ⟨call, (drive answer tid p s.world).2.2⟩⟩ := by
  obtain ⟨hlt, hget⟩ := List.getElem?_eq_some_iff.mp hth
  have hsame : s.threads.set tid ⟨call, p⟩ = s.threads := by rw [← hget, List.set_getElem_self]
  induction p generalizing s with
  | ret v =>
      refine ⟨[], ?_⟩
      simp only [drive, List.append_nil, hsame]
      exact Run.refl s
  | throw e =>
      refine ⟨[], ?_⟩
      simp only [drive, List.append_nil, hsame]
      exact Run.refl s
  | await o k ih =>
      have hstep := Setup.Step.advance s tid call o k _ _ hth (hanswer o s.world)
      have hlt' : tid < (s.threads.set tid ⟨call, k (answer o s.world).1⟩).length := by simpa using hlt
      obtain ⟨ls, hrun⟩ := ih _ (s := ⟨(answer o s.world).2,
        s.log ++ [⟨⟨o, (answer o s.world).1⟩, tid, s.world, (answer o s.world).2⟩],
        s.threads.set tid ⟨call, k (answer o s.world).1⟩⟩) (List.getElem?_set_self hlt) hlt' (by simp) (by simp)
      have hall := Run.head hstep hrun
      simp only [List.set_set, List.append_assoc, List.singleton_append] at hall
      exact ⟨_, hall⟩

/-- A call can be led along events that leave the world as it is. -/
theorem Setup.run_trace {w : World} {tr : List (Event Op Ans)} (hstill : ∀ ev ∈ tr, S.exec ev.op w ev.ans w) {tid : Nat}
    {call : Call} {p q : Co Op Ans ε α} (htr : Trace p tr q) (hworld : s.world = w)
    (hth : s.threads[tid]? = some ⟨call, p⟩) :
    ∃ ls, Run S.system s ls ⟨w, s.log ++ tr.map (⟨·, tid, w, w⟩), s.threads.set tid ⟨call, q⟩⟩ := by
  obtain ⟨hlt, hget⟩ := List.getElem?_eq_some_iff.mp hth
  subst hworld
  induction htr generalizing s with
  | nil p =>
      have hsame : s.threads.set tid ⟨call, p⟩ = s.threads := by rw [← hget, List.set_getElem_self]
      refine ⟨[], ?_⟩
      simp only [List.map_nil, List.append_nil, hsame]
      exact Run.refl s
  | @cons o k a tr q _ ih =>
      have hstep := Setup.Step.advance s tid call o k a s.world hth (hstill _ List.mem_cons_self)
      obtain ⟨ls, hrun⟩ := ih (s := ⟨s.world, s.log ++ [⟨⟨o, a⟩, tid, s.world, s.world⟩], s.threads.set tid ⟨call, k a⟩⟩)
        (List.getElem?_set_self hlt) (by simpa using hlt) (by simp) fun ev hev => hstill ev (List.mem_cons_of_mem _ hev)
      have hall := Run.head hstep hrun
      simp only [List.set_set, List.append_assoc, List.singleton_append] at hall
      exact ⟨_, hall⟩

/-- A call can be invoked and led to its end along such events. -/
theorem Setup.run_call {tr : List (Event Op Ans)} (hstill : ∀ ev ∈ tr, S.exec ev.op s.world ev.ans s.world)
    {call : Call} {v : α} (hrun : Runs (S.prog call) tr (.ok v)) (hadm : S.admits s call) :
    ∃ ls, Run S.system s ls ⟨s.world, s.log ++ tr.map (⟨·, s.threads.length, s.world, s.world⟩),
      s.threads ++ [⟨call, .ret v⟩]⟩ := by
  have hth : (s.threads ++ [⟨call, S.prog call⟩])[s.threads.length]? = some ⟨call, S.prog call⟩ := by simp
  obtain ⟨ls, hled⟩ := Setup.run_trace (s := ⟨s.world, s.log, s.threads ++ [⟨call, S.prog call⟩]⟩) hstill hrun.trace rfl
    hth
  have hset : ∀ th th' : Thread Op Ans Call ε α, (s.threads ++ [th]).set s.threads.length th' = s.threads ++ [th'] := by
    simp
  rw [hset] at hled
  exact ⟨_, Run.head (Setup.Step.invoke s call hadm) hled⟩

/-- **A call can be run to its end** wherever its operations can be answered. -/
theorem Setup.run_complete {answer : (o : Op) → World → Ans o × World}
    (hanswer : ∀ o w, S.exec o w (answer o w).1 (answer o w).2) {call : Call} (hadm : S.admits s call) :
    ∃ ls, Run S.system s ls (s.complete S answer call) := by
  have hth : (s.threads ++ [⟨call, S.prog call⟩])[s.threads.length]? = some ⟨call, S.prog call⟩ := by simp
  obtain ⟨ls, hrun⟩ := Setup.run_drive (S := S) (s := ⟨s.world, s.log, s.threads ++ [⟨call, S.prog call⟩]⟩) hanswer hth
  have hset : ∀ th th' : Thread Op Ans Call ε α, (s.threads ++ [th]).set s.threads.length th' = s.threads ++ [th'] := by
    simp
  rw [hset] at hrun
  exact ⟨_, Run.head (Setup.Step.invoke s call hadm) hrun⟩

end Drive

end Interleaving
