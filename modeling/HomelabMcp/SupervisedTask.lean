import HomelabMcp.Interaction
import HomelabMcp.ProcessPool

/-!
# Calls that hand their work to a task

A call takes a permit from a semaphore, checks its request, and hands the permit to a task that
runs a program.  The call waits for the task's result or for its own cancellation; cancelled, it
signals the task, waits for the result all the same and answers what `onCancel` makes of it.  A
call dropped while it waits signals the task and is gone; the task runs on.  The task sends its
result first and releases the permit afterwards.

The calls are the processes of a pool over the semaphore, so a reachable pool is the outcome of
some interleaving of any number of calls.

* `sound` — in every reachable pool a task's program has gone through exactly the events of the
  call's trace, and a returned result is the one the trace ends with (or `onCancel` of it, or a
  result given before the task existed);
* `Call.Sound.traced` — what a monitor proves of the program holds of the trace of every call;
* `permits_conserved` — permits are neither lost nor made;
* `sum_outside_le` — what only a permit's holder has is bounded by the permits.
-/

namespace SupervisedTask

open Interaction ProcessPool

variable {Op : Type} {Ans : Op → Type} {Req R S : Type}

/-- A semaphore: the free permits, and those held by calls that are not in the pool. -/
structure Permits where
  free : Nat
  outside : Nat
  deriving DecidableEq

/-- The rules of a call. -/
structure Supervisor (Op : Type) (Ans : Op → Type) (Req R : Type) where
  /-- The result when no permit is free. -/
  busy : R
  /-- The checks made under the permit, and the task's program when they pass. -/
  accept : Req → Except R (Program Op Ans R)
  /-- What a cancelled call answers when the task has sent its result. -/
  onCancel : Req → R → R
  /-- The answers an operation may get, given whether the task has been signalled. -/
  heeds : Bool → (op : Op) → Ans op → Prop

/-- Where the caller stands. -/
inductive Caller (R : Type) where
  | calling
  | selecting
  | cancelling
  | dropped
  | returned (result : R)

/-- Where the permit and the task stand. -/
inductive Task (Op : Type) (Ans : Op → Type) (R : Type) where
  | idle
  | accepted
  | rejected
  | running (p : Program Op Ans R)
  | delivered (result : R)
  | released (result : R)

/-- One call: its request, its caller, whether the task's cancellation channel is signalled, its
task, and the events the task has gone through. -/
structure Call (Op : Type) (Ans : Op → Type) (Req R : Type) where
  request : Req
  caller : Caller R
  signalled : Bool
  task : Task Op Ans R
  trace : Trace Ans

namespace Task

/-- The permits a task holds. -/
def held : Task Op Ans R → Nat
  | accepted | running _ | delivered _ => 1
  | idle | rejected | released _ => 0

end Task

namespace Call

/-- The permits a call holds. -/
def held (c : Call Op Ans Req R) : Nat := c.task.held

/-- A call before its first step. -/
def fresh (request : Req) : Call Op Ans Req R := ⟨request, .calling, false, .idle, []⟩

end Call

namespace Supervisor

variable (sup : Supervisor Op Ans Req R)

/-- The steps of a call.  The task's result is sent while the permit is still held, so the channel
is never closed without a result and the receiving side has no third case. -/
inductive Step (g : Permits) : Call Op Ans Req R → Permits → Call Op Ans Req R → Prop
  | busy {q : Req} {t : Trace Ans} (h : g.free = 0) :
      Step g ⟨q, .calling, false, .idle, t⟩ g ⟨q, .returned sup.busy, false, .idle, t⟩
  | acquire {q : Req} {t : Trace Ans} (h : 0 < g.free) :
      Step g ⟨q, .calling, false, .idle, t⟩ { g with free := g.free - 1 }
        ⟨q, .calling, false, .accepted, t⟩
  | reject {q : Req} {e : R} {t : Trace Ans} (h : sup.accept q = .error e) :
      Step g ⟨q, .calling, false, .accepted, t⟩ { g with free := g.free + 1 }
        ⟨q, .returned e, false, .rejected, t⟩
  | spawn {q : Req} {p : Program Op Ans R} {t : Trace Ans} (h : sup.accept q = .ok p) :
      Step g ⟨q, .calling, false, .accepted, t⟩ g ⟨q, .selecting, false, .running p, t⟩
  | work {q : Req} {caller : Caller R} {s : Bool} {op : Op} {next : Ans op → Program Op Ans R}
      {t : Trace Ans} (answer : Ans op) (h : sup.heeds s op answer) :
      Step g ⟨q, caller, s, .running (.call op next), t⟩ g
        ⟨q, caller, s, .running (next answer), t ++ [⟨op, answer⟩]⟩
  | deliver {q : Req} {caller : Caller R} {s : Bool} {r : R} {t : Trace Ans} :
      Step g ⟨q, caller, s, .running (.done r), t⟩ g ⟨q, caller, s, .delivered r, t⟩
  | release {q : Req} {caller : Caller R} {s : Bool} {r : R} {t : Trace Ans} :
      Step g ⟨q, caller, s, .delivered r, t⟩ { g with free := g.free + 1 }
        ⟨q, caller, s, .released r, t⟩
  | receive {q : Req} {s : Bool} {task : Task Op Ans R} {r : R} {t : Trace Ans}
      (h : task = .delivered r ∨ task = .released r) :
      Step g ⟨q, .selecting, s, task, t⟩ g ⟨q, .returned r, true, task, t⟩
  | cancel {q : Req} {s : Bool} {task : Task Op Ans R} {t : Trace Ans} :
      Step g ⟨q, .selecting, s, task, t⟩ g ⟨q, .cancelling, true, task, t⟩
  | receiveCancelled {q : Req} {s : Bool} {task : Task Op Ans R} {r : R} {t : Trace Ans}
      (h : task = .delivered r ∨ task = .released r) :
      Step g ⟨q, .cancelling, s, task, t⟩ g ⟨q, .returned (sup.onCancel q r), s, task, t⟩
  | drop {q : Req} {caller : Caller R} {s : Bool} {task : Task Op Ans R} {t : Trace Ans}
      (h : caller = .selecting ∨ caller = .cancelling) :
      Step g ⟨q, caller, s, task, t⟩ g ⟨q, .dropped, true, task, t⟩

/-- Calls over a semaphore; a call outside the pool gives its permit back at any time. -/
def behaviour : Behaviour Permits (Call Op Ans Req R) where
  start c := ∃ q, c = .fresh q
  act _ := sup.Step
  env g g' := 0 < g.outside ∧ g' = ⟨g.free + 1, g.outside - 1⟩

/-- What a call's trace, task and caller have to do with each other. -/
def Sound (c : Call Op Ans Req R) : Prop :=
  match c.task with
  | .idle => c.trace = [] ∧ (c.caller = .calling ∨ c.caller = .returned sup.busy)
  | .accepted => c.trace = [] ∧ c.caller = .calling
  | .rejected => c.trace = [] ∧ ∃ e, sup.accept c.request = .error e ∧ c.caller = .returned e
  | .running q => (∃ p, sup.accept c.request = .ok p ∧ Reaches p c.trace q) ∧
      (c.caller = .selecting ∨ c.caller = .cancelling ∨ c.caller = .dropped)
  | .delivered r | .released r =>
      (∃ p, sup.accept c.request = .ok p ∧ Reaches p c.trace (.done r)) ∧
      (c.caller = .selecting ∨ c.caller = .cancelling ∨ c.caller = .dropped ∨
        c.caller = .returned r ∨ c.caller = .returned (sup.onCancel c.request r))

variable {sup}

/-- A call that has not begun is where it should be. -/
theorem sound_fresh (q : Req) : sup.Sound (.fresh q) := ⟨rfl, .inl rfl⟩

/-- A step keeps a call sound. -/
theorem Step.sound {g g' : Permits} {c c' : Call Op Ans Req R} (h : sup.Step g c g' c')
    (hc : sup.Sound c) : sup.Sound c' := by
  cases h with
  | busy h => exact ⟨hc.1, .inr rfl⟩
  | acquire h => exact ⟨hc.1, rfl⟩
  | reject h => exact ⟨hc.1, _, h, rfl⟩
  | spawn h =>
      obtain ⟨rfl, -⟩ := hc
      exact ⟨⟨_, h, .refl _⟩, .inl rfl⟩
  | work a h =>
      obtain ⟨⟨p, hp, hr⟩, hcaller⟩ := hc
      exact ⟨⟨p, hp, hr.snoc a⟩, hcaller⟩
  | deliver =>
      obtain ⟨hp, hcaller⟩ := hc
      refine ⟨hp, ?_⟩
      rcases hcaller with h | h | h
      · exact .inl h
      · exact .inr (.inl h)
      · exact .inr (.inr (.inl h))
  | release => exact hc
  | receive h =>
      rcases h with rfl | rfl <;> exact ⟨hc.1, .inr (.inr (.inr (.inl rfl)))⟩
  | @cancel q s task t =>
      cases task with
      | idle => simp [Sound] at hc
      | accepted => simp [Sound] at hc
      | rejected => simp [Sound] at hc
      | running p => exact ⟨hc.1, .inr (.inl rfl)⟩
      | delivered r => exact ⟨hc.1, .inr (.inl rfl)⟩
      | released r => exact ⟨hc.1, .inr (.inl rfl)⟩
  | receiveCancelled h =>
      rcases h with rfl | rfl <;> exact ⟨hc.1, .inr (.inr (.inr (.inr rfl)))⟩
  | @drop q caller s task t h =>
      cases task with
      | idle => rcases h with rfl | rfl <;> simp [Sound] at hc
      | accepted => rcases h with rfl | rfl <;> simp [Sound] at hc
      | rejected => rcases h with rfl | rfl <;> simp [Sound] at hc
      | running p => exact ⟨hc.1, .inr (.inr rfl)⟩
      | delivered r => exact ⟨hc.1, .inr (.inr (.inl rfl))⟩
      | released r => exact ⟨hc.1, .inr (.inr (.inl rfl))⟩

/-- **Every call of a reachable pool is sound.** -/
theorem sound {g : Permits} {pool : Pool Permits (Call Op Ans Req R)}
    (h : sup.behaviour.Reachable g pool) : ∀ c ∈ pool.procs, sup.Sound c := by
  refine Behaviour.process_invariant ?_ ?_ h
  · rintro c ⟨q, rfl⟩
    exact sound_fresh q
  · intro i g c g' c' hc hstep
    exact hstep.sound hc

/-- A step moves permits between the semaphore and the call. -/
theorem Step.balance {g g' : Permits} {c c' : Call Op Ans Req R} (h : sup.Step g c g' c') :
    g.free + g.outside + c.held = g'.free + g'.outside + c'.held := by
  cases h with
  | receive h => rcases h with rfl | rfl <;> rfl
  | receiveCancelled h => rcases h with rfl | rfl <;> rfl
  | _ => simp only [Call.held, Task.held]; try omega

/-- **Permits are neither lost nor made.** -/
theorem permits_conserved {g : Permits} {pool : Pool Permits (Call Op Ans Req R)}
    (h : sup.behaviour.Reachable g pool) :
    pool.shared.free + pool.shared.outside + (pool.procs.map Call.held).sum
      = g.free + g.outside := by
  refine Behaviour.conserved (fun g : Permits => g.free + g.outside) Call.held ?_ ?_ ?_ h
  · rintro c ⟨q, rfl⟩
    rfl
  · intro i g c g' c' hstep
    exact hstep.balance
  · rintro g g' ⟨hpos, rfl⟩
    simp only
    omega

/-- What a call has at most while it holds a permit is bounded by the permits. -/
theorem sum_outside_le {g : Permits} {pool : Pool Permits (Call Op Ans Req R)}
    (h : sup.behaviour.Reachable g pool) (used : Call Op Ans Req R → Nat)
    (hused : ∀ c ∈ pool.procs, used c ≤ c.held) :
    (pool.procs.map used).sum + pool.shared.outside ≤ g.free + g.outside := by
  have hsum := permits_conserved h
  have hle := List.sum_le_sum hused
  omega

/-- The trace of a call is empty, or a run of the accepted program that has got as far as the task
says. -/
theorem Sound.trace_cases {c : Call Op Ans Req R} (h : sup.Sound c) :
    c.trace = [] ∨ ∃ p q, sup.accept c.request = .ok p ∧ Reaches p c.trace q ∧
      (c.held = 1 ∨ ∃ r, q = .done r) := by
  obtain ⟨request, caller, signalled, task, trace⟩ := c
  cases task with
  | idle => exact .inl h.1
  | accepted => exact .inl h.1
  | rejected => exact .inl h.1
  | running q =>
      obtain ⟨⟨p, hp, hr⟩, -⟩ := h
      exact .inr ⟨p, q, hp, hr, .inl rfl⟩
  | delivered r =>
      obtain ⟨⟨p, hp, hr⟩, -⟩ := h
      exact .inr ⟨p, _, hp, hr, .inl rfl⟩
  | released r =>
      obtain ⟨⟨p, hp, hr⟩, -⟩ := h
      exact .inr ⟨p, _, hp, hr, .inr ⟨r, rfl⟩⟩

/-- A returned result was given before the task existed, or comes from the task's result. -/
theorem Sound.returned_cases {c : Call Op Ans Req R} (h : sup.Sound c) {x : R}
    (hx : c.caller = .returned x) :
    (c.trace = [] ∧ (x = sup.busy ∨ sup.accept c.request = .error x)) ∨
      ∃ p r, sup.accept c.request = .ok p ∧ Reaches p c.trace (.done r) ∧
        (x = r ∨ x = sup.onCancel c.request r) := by
  obtain ⟨request, caller, signalled, task, trace⟩ := c
  simp only at hx
  subst hx
  cases task with
  | idle =>
      obtain ⟨ht, hcaller⟩ := h
      exact .inl ⟨ht, .inl (by simpa using hcaller)⟩
  | accepted => exact absurd h.2 (by simp)
  | rejected =>
      obtain ⟨ht, e, he, hcaller⟩ := h
      have hx : x = e := by simpa using hcaller
      exact .inl ⟨ht, .inr (hx ▸ he)⟩
  | running q => exact absurd h.2 (by simp)
  | delivered r =>
      obtain ⟨⟨p, hp, hr⟩, hcaller⟩ := h
      exact .inr ⟨p, r, hp, hr, by simpa using hcaller⟩
  | released r =>
      obtain ⟨⟨p, hp, hr⟩, hcaller⟩ := h
      exact .inr ⟨p, r, hp, hr, by simpa using hcaller⟩

/-- What a monitor proves of every accepted program holds of the trace of every call: its
operations were allowed, and a trace whose permit is released ends in the postcondition. -/
theorem Sound.traced {c : Call Op Ans Req R} (h : sup.Sound c) (m : Monitor Ans S) {s : S}
    {Q : S → R → Prop} (hwp : ∀ p, sup.accept c.request = .ok p → m.wp p s Q) :
    m.Allowed s c.trace ∧
      (c.trace = [] ∨ c.held = 1 ∨ ∃ r, Q (m.after s c.trace) r) := by
  rcases h.trace_cases with ht | ⟨p, q, hp, hr, hheld⟩
  · rw [ht]
    exact ⟨trivial, .inl rfl⟩
  · obtain ⟨hq, ha⟩ := m.wp_reaches hr (hwp p hp)
    refine ⟨ha, .inr ?_⟩
    rcases hheld with hheld | ⟨r, rfl⟩
    · exact .inl hheld
    · exact .inr ⟨r, hq⟩

/-- The postcondition a monitor proves of every accepted program describes the result a task has
sent. -/
theorem Sound.sent {c : Call Op Ans Req R} (h : sup.Sound c) {r : R}
    (hr : c.task = .delivered r ∨ c.task = .released r) (m : Monitor Ans S) {s : S}
    {Q : S → R → Prop} (hwp : ∀ p, sup.accept c.request = .ok p → m.wp p s Q) :
    Q (m.after s c.trace) r := by
  obtain ⟨request, caller, signalled, task, trace⟩ := c
  simp only at hr
  rcases hr with rfl | rfl
  · obtain ⟨⟨p, hp, hrun⟩, -⟩ := h
    exact m.wp_finished hrun (hwp p hp)
  · obtain ⟨⟨p, hp, hrun⟩, -⟩ := h
    exact m.wp_finished hrun (hwp p hp)

/-- The postcondition a monitor proves of every accepted program describes every returned result. -/
theorem Sound.result {c : Call Op Ans Req R} (h : sup.Sound c) {x : R}
    (hx : c.caller = .returned x) (m : Monitor Ans S) {s : S} {Q : S → R → Prop}
    (hwp : ∀ p, sup.accept c.request = .ok p → m.wp p s Q) :
    (c.trace = [] ∧ (x = sup.busy ∨ sup.accept c.request = .error x)) ∨
      ∃ r, Q (m.after s c.trace) r ∧ (x = r ∨ x = sup.onCancel c.request r) := by
  rcases h.returned_cases hx with h | ⟨p, r, hp, hr, hxr⟩
  · exact .inl h
  · exact .inr ⟨r, m.wp_finished hr (hwp p hp), hxr⟩

/-- A call alone in a pool. -/
def alone (g : Permits) (c : Call Op Ans Req R) : Pool Permits (Call Op Ans Req R) := ⟨g, [c]⟩

/-- A step of the only call is a step of the system. -/
theorem alone_step {start g g' : Permits} {c c' : Call Op Ans Req R}
    (h : sup.behaviour.Reachable start (alone g c)) (hstep : sup.Step g c g' c') :
    sup.behaviour.Reachable start (alone g' c') :=
  .move h (.act (i := 0) rfl hstep)

/-- A task goes through a run of its program. -/
theorem alone_work {start g : Permits} {q : Req} {caller : Caller R} {s : Bool}
    {p p' : Program Op Ans R} {t u : Trace Ans} (hrun : Reaches p u p')
    (hheeds : ∀ e ∈ u, sup.heeds s e.1 e.2)
    (h : sup.behaviour.Reachable start (alone g ⟨q, caller, s, .running p, t⟩)) :
    sup.behaviour.Reachable start (alone g ⟨q, caller, s, .running p', t ++ u⟩) := by
  induction hrun generalizing t with
  | refl p => simpa using h
  | step _ ih =>
      have hnext := ih (fun e he => hheeds e (List.mem_cons_of_mem _ he))
        (alone_step h (.work _ (hheeds _ List.mem_cons_self)))
      simpa using hnext

/-- A call that gets a permit and whose request is accepted starts its task. -/
theorem alone_spawned {g : Permits} (hfree : 0 < g.free) {q : Req} {p : Program Op Ans R}
    (hp : sup.accept q = .ok p) :
    sup.behaviour.Reachable g
      (alone { g with free := g.free - 1 } ⟨q, .selecting, false, .running p, []⟩) := by
  have hjoin : sup.behaviour.Reachable g (alone g (.fresh q)) := .move .init (.join ⟨q, rfl⟩)
  exact alone_step (alone_step hjoin (.acquire hfree)) (.spawn hp)

/-- A call whose task ends without having been signalled returns the task's result, and its permit
is released. -/
theorem alone_returned {g : Permits} (hfree : 0 < g.free) {q : Req} {p : Program Op Ans R}
    (hp : sup.accept q = .ok p) {t : Trace Ans} {r : R} (hrun : Reaches p t (.done r))
    (hheeds : ∀ e ∈ t, sup.heeds false e.1 e.2) :
    sup.behaviour.Reachable g (alone g ⟨q, .returned r, true, .released r, t⟩) := by
  have hsent := alone_step (alone_work hrun hheeds (alone_spawned hfree hp)) .deliver
  have hreleased := alone_step (alone_step hsent (.receive (.inl rfl))) .release
  simpa [Nat.sub_add_cancel hfree] using hreleased

end Supervisor

end SupervisedTask
