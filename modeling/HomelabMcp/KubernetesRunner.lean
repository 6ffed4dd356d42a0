import HomelabMcp.ChildProcess
import HomelabMcp.SupervisedTask

/-!
# The kubectl runner

`Runner.runCancelled` takes one of two permits and hands it to a worker that spawns kubectl and
watches it.  The calls of the runner are a pool of supervised tasks, so its reachable pools are the
interleavings of any number of queries and mutations, their cancellations and their drops.

* `worker_spec` — how the worker's result follows from what it saw of the child;
* `mutation_outcome_law` — the result of a mutation is definite only where the child's success was
  seen whole or no child was spawned; at most two children are alive, and a child that has not been
  reaped has its permit.

Tracing and the reader failure that only tests inject are left out.
-/

namespace Kubernetes

open Interaction SupervisedTask ProcessPool
open ChildProcess (ExitStatus Endings Target Child Watch)
open Text (Bytes)

/-- The errors of a run of kubectl. -/
inductive Error where
  | invalidArguments
  | capacityExhausted
  | timeout
  | unauthorized
  | notFound
  | unsupportedApi
  | queryRejected
  | mutationRejected
  | mutationOutcomeUnknown
  | upstreamUnavailable
  | invalidResponse
  | responseTooLarge
  | requestCancelled
  deriving DecidableEq

/-- The longest outputs that are read. -/
def maxStdoutBytes : Nat := 4 * 1024 * 1024
def maxStderrBytes : Nat := 32 * 1024

/-- The permits of a runner. -/
def permits : Nat := 2

/-- What kubectl printed. -/
structure Output where
  stdout : Bytes
  deriving DecidableEq

/-- Whether a run only asks or also acts. -/
inductive Operation where
  | query
  | mutation
  deriving DecidableEq

/-- `valid_context`. -/
def validContext (value : String) : Bool :=
  !value.isEmpty && value.utf8ByteSize ≤ 253 && !(value.toList.head? == some '-') &&
    !value.toList.any (fun c => Text.isControl c || Text.isWhitespace c) &&
    value.toList.all fun c =>
      ('0' ≤ c && c ≤ '9') || ('a' ≤ c && c ≤ 'z') || ('A' ≤ c && c ≤ 'Z') ||
        c == '-' || c == '.' || c == '_' || c == ':' || c == '/'

/-- An absolute path. -/
def isAbsolute (path : String) : Bool := path.toList.head? == some '/'

/-- A runner; the deadline is in nanoseconds.  Its context and deadline have passed the checks of
`new`. -/
structure Runner where
  executable : String
  kubeconfig : String
  cacheDir : String
  context : String
  requestTimeout : String
  deadline : Nat
  context_valid : validContext context = true
  deadline_bounds : 2000000 ≤ deadline ∧ deadline ≤ 30000000000

namespace Runner

/-- The milliseconds left to kubectl: the deadline without a margin. -/
def requestMillis (deadline : Nat) : Nat :=
  let outerMillis := deadline / 1000000
  outerMillis - min (max (outerMillis / 6) 1) 5000

/-- `Runner::new`. -/
def new (executable kubeconfig cacheDir context : String) (deadline : Nat) :
    Except String Runner :=
  if !isAbsolute executable || !isAbsolute kubeconfig || !isAbsolute cacheDir then
    .error "invalid Kubernetes runner configuration"
  else if h : validContext context = true ∧ 2000000 ≤ deadline ∧ deadline ≤ 30000000000 then
    .ok ⟨executable, kubeconfig, cacheDir, context, toString (requestMillis deadline) ++ "ms",
      deadline, h.1, h.2⟩
  else .error "invalid Kubernetes runner configuration"

/-- kubectl is given a positive time that ends before the deadline. -/
theorem requestMillis_bounds {deadline : Nat} (h : 2000000 ≤ deadline) :
    0 < requestMillis deadline ∧ requestMillis deadline < deadline / 1000000 := by
  unfold requestMillis
  simp only
  omega

/-- A command line, with the whole environment of the process. -/
structure Command where
  executable : String
  env : List (String × String)
  args : List String
  deriving DecidableEq

/-- What `try_recv` finds on the cancellation channel. -/
inductive Received where
  | message
  | closed
  | empty
  deriving DecidableEq

/-- A spawned child, and which of its pipes the process has. -/
structure Spawned where
  pid : Nat
  stdout : Bool
  stderr : Bool

/-- The operations of a run. -/
inductive Op where
  | tryRecv
  | spawn (command : Command)
  | child (op : ChildProcess.Op)

/-- What each operation answers. -/
abbrev Ans : Op → Type
  | .tryRecv => Received
  | .spawn _ => Option Spawned
  | .child op => ChildProcess.Ans op

/-- The answers the signal of the task leaves possible. -/
def heeds (signalled : Bool) : (op : Op) → Ans op → Prop
  | .tryRecv, received => received = .empty ↔ signalled = false
  | .spawn _, _ => True
  | .child op, answer => ChildProcess.heeds signalled op answer

/-- The command line of kubectl. -/
def command (runner : Runner) (arguments : List String) : Command where
  executable := runner.executable
  env := [("KUBECTL_KUBERC", "false")]
  args := ["--kubeconfig", runner.kubeconfig, "--cache-dir", runner.cacheDir, "--context",
    runner.context, "--request-timeout", runner.requestTimeout] ++ arguments

end Runner

open Runner

/-- What a run that failed says, by whether kubectl was started. -/
def operationFailure : Operation → Bool → Error
  | .mutation, true => .mutationOutcomeUnknown
  | .mutation, false => .mutationRejected
  | .query, _ => .upstreamUnavailable

/-- What an output that is too long says. -/
def streamFailure : Operation → Error
  | .mutation => .mutationOutcomeUnknown
  | .query => .responseTooLarge

/-- `classify_exit`. -/
def classifyExit (code : Option Nat) (stderr : Bytes) : Error :=
  let message := Text.toAsciiLowercase (Text.decodeLossy stderr)
  if Text.contains message "forbidden" || Text.contains message "unauthorized" then .unauthorized
  else if Text.contains message "the server could not find the requested resource" ||
      Text.contains message "doesn't have a resource type" then .unsupportedApi
  else if Text.contains message "notfound" || Text.contains message "not found" then .notFound
  else match code with
    | some 1 => .queryRejected
    | some 2 => .invalidArguments
    | _ => .upstreamUnavailable

/-- Kill the child itself, whether or not it has been waited for. -/
def killChild (_ : Child) : Option Target := some .leader

/-- What the worker's loop makes of its ends. -/
def endings (operation : Operation) : Endings (Except Error Output) where
  stdoutLimit := maxStdoutBytes
  stderrLimit := maxStderrBytes
  kill := killChild
  finish status stdout stderr :=
    if status.success then .ok ⟨stdout⟩
    else .error (match operation with
      | .mutation => .mutationOutcomeUnknown
      | .query => classifyExit status.code stderr)
  cancelled := .error (operationFailure operation true)
  expired := .error (match operation with
    | .mutation => .mutationOutcomeUnknown
    | .query => .timeout)
  waitFailed := .error (operationFailure operation true)
  streamFailed := .error (streamFailure operation)

/-- The end of a child that is not waited for any longer. -/
def terminate (child : Child) (stdout stderr : Bool) : Program Op Ans Unit :=
  (ChildProcess.terminate killChild child stdout stderr).lift Op.child

/-- `worker`. -/
def worker (runner : Runner) (arguments : List String) (operation : Operation) :
    Program Op Ans (Except Error Output) := do
  match ← Program.perform Op.tryRecv with
  | .message | .closed => return .error (operationFailure operation false)
  | .empty =>
    match ← Program.perform (Op.spawn (runner.command arguments)) with
    | none => return .error (operationFailure operation false)
    | some spawned =>
      let child : Child := ⟨spawned.pid, false⟩
      if !spawned.stdout then
        terminate child false false
        return .error (operationFailure operation true)
      if !spawned.stderr then
        terminate child false false
        return .error (operationFailure operation true)
      (ChildProcess.watch (endings operation) ⟨child, none, none, none⟩).lift Op.child

/-- The arguments of `run_cancelled`. -/
structure Request where
  arguments : List String
  operation : Operation

/-- `run_cancelled`: the worker under a permit.  A cancelled call waits for the worker to have
killed and reaped the child, and does not use its result. -/
def Runner.runCancelled (runner : Runner) : Supervisor Op Ans Request (Except Error Output) where
  busy := .error .capacityExhausted
  accept request := .ok (worker runner request.arguments request.operation)
  onCancel request _ := .error (match request.operation with
    | .query => .requestCancelled
    | .mutation => .mutationOutcomeUnknown)
  heeds := heeds

/-- Follows the child of a worker, if one was spawned. -/
def monitor : Monitor Ans (Option ChildProcess.Ledger) where
  may l op := match op with
    | .tryRecv | .spawn _ => l = none
    | .child _ => True
  next l op := match op with
    | .tryRecv => fun _ => l
    | .spawn _ => fun spawned => spawned.map fun _ => .spawned
    | .child op => fun answer => l.map fun l => ChildProcess.monitor.next l op answer

/-- The end of a worker: nothing was spawned, or the child was reaped and its pipes were missing
or it was watched to an end. -/
def Outcome (operation : Operation) : Option ChildProcess.Ledger → Except Error Output → Prop
  | none, r => r = .error (operationFailure operation false)
  | some l, r => l.alive = false ∧ (r = .error (operationFailure operation true) ∨
      ∃ pid, ChildProcess.Ended (endings operation) pid l r)

/-- What the watch on a child keeps, the run keeps. -/
private theorem wp_child {α : Type} {p : Program ChildProcess.Op ChildProcess.Ans α}
    {l : ChildProcess.Ledger} {Q : ChildProcess.Ledger → α → Prop}
    {Q' : Option ChildProcess.Ledger → α → Prop}
    (h : ChildProcess.monitor.wp p l Q) (hQ : ∀ l a, Q l a → Q' (some l) a) :
    monitor.wp (p.lift Op.child) (some l) Q' := by
  have hlift := monitor.wp_lift Op.child some (fun _ _ _ => trivial) (fun _ _ _ => rfl) h
  refine monitor.wp_mono hlift ?_
  rintro _ a ⟨l, rfl, hl⟩
  exact hQ l a hl

/-- A child without one of its pipes is killed and reaped, and the outcome stays unknown. -/
private theorem wp_missing_pipe (operation : Operation) (pid : Nat) :
    monitor.wp (terminate ⟨pid, false⟩ false false >>= fun _ =>
      Program.done (.error (operationFailure operation true)))
      (some ChildProcess.Ledger.spawned) (Outcome operation) := by
  rw [Monitor.wp_bind]
  refine wp_child (ChildProcess.wp_terminate _ _ _ _ fun _ => ?_)
    (Q := fun l _ => l.alive = false) ?_
  · rfl
  · intro l _ hl
    exact ⟨hl, .inl rfl⟩

/-- **The worker's result.** -/
theorem worker_spec (runner : Runner) (arguments : List String) (operation : Operation) :
    monitor.wp (worker runner arguments operation) none (Outcome operation) := by
  refine ⟨rfl, fun received => ?_⟩
  cases received with
  | message => exact rfl
  | closed => exact rfl
  | empty =>
      refine ⟨rfl, fun spawned => ?_⟩
      cases spawned with
      | none => exact rfl
      | some spawned =>
          obtain ⟨pid, out, err⟩ := spawned
          cases out with
          | false => exact wp_missing_pipe operation pid
          | true =>
              cases err with
              | false => exact wp_missing_pipe operation pid
              | true =>
                  refine wp_child (ChildProcess.watch_spec pid ?_ rfl) ?_
                  · exact ⟨rfl, rfl, rfl, rfl, rfl, rfl⟩
                  · intro l r hl
                    exact ⟨hl.reaped, .inr ⟨pid, hl⟩⟩

/-- A call of the runner. -/
abbrev RunnerCall := Call Op Ans Request (Except Error Output)

namespace RunnerCall

variable (c : RunnerCall)

/-- What the events of a call show of its child. -/
def ledger : Option ChildProcess.Ledger := monitor.after none c.trace

/-- Whether kubectl was started. -/
def HasSpawned : Prop := (ledger c).isSome = true

/-- The number of children of a call that have not been reaped. -/
def children : Nat :=
  match ledger c with
  | some l => l.alive.toNat
  | none => 0

/-- The child exited successfully and both streams were read to their end within their limits. -/
def Succeeded (output : Output) : Prop :=
  ∃ l status stderr, ledger c = some l ∧ l.exit = some status ∧ status.success = true ∧
    ChildProcess.Ledger.Complete maxStdoutBytes l.stdout output.stdout ∧
    ChildProcess.Ledger.Complete maxStderrBytes l.stderr stderr

end RunnerCall

open RunnerCall

/-- The end of a mutation's worker whose child was spawned. -/
theorem Outcome.mutation {l : ChildProcess.Ledger} {r : Except Error Output}
    (h : Outcome .mutation (some l) r) :
    r = .error .mutationOutcomeUnknown ∨ ∃ output status stderr, r = .ok output ∧
      l.exit = some status ∧ status.success = true ∧
      ChildProcess.Ledger.Complete maxStdoutBytes l.stdout output.stdout ∧
      ChildProcess.Ledger.Complete maxStderrBytes l.stderr stderr := by
  obtain ⟨-, h | ⟨pid, -, ⟨status, stdout, stderr, hfin, h⟩ | ⟨h, -⟩⟩⟩ := h
  · exact .inl h
  · by_cases hs : status.success = true
    · simp only [endings, hs, if_true] at h
      exact .inr ⟨⟨stdout⟩, status, stderr, h, hfin.exit, hs, hfin.stdout, hfin.stderr⟩
    · simp only [endings, hs, if_false, Bool.false_eq_true] at h
      exact .inl h
  · rcases h with h | h | h | h <;> exact .inl h

/-- The result of a mutation. -/
theorem mutation_result {runner : Runner} {c : RunnerCall} (h : runner.runCancelled.Sound c)
    (hm : c.request.operation = .mutation) {r : Except Error Output}
    (hr : c.caller = .returned r) :
    (ledger c = none ∧ ∃ e, r = .error e) ∨
      (HasSpawned c ∧ (r = .error .mutationOutcomeUnknown ∨
        ∃ output, r = .ok output ∧ Succeeded c output)) := by
  have hspec : ∀ p, runner.runCancelled.accept c.request = .ok p →
      monitor.wp p none (Outcome .mutation) := by
    intro p hp
    obtain rfl : worker runner c.request.arguments c.request.operation = p := by
      simpa [Runner.runCancelled] using hp
    rw [hm]
    exact worker_spec runner _ _
  rcases h.result hr monitor hspec with ⟨ht, hbusy | hreject⟩ | ⟨r', hq, hr'⟩
  · exact .inl ⟨by simp [ledger, ht], _, hbusy⟩
  · simp [Runner.runCancelled] at hreject
  · have hcancel : runner.runCancelled.onCancel c.request r'
        = .error .mutationOutcomeUnknown := by
      simp [Runner.runCancelled, hm]
    rw [hcancel] at hr'
    change Outcome .mutation (ledger c) r' at hq
    cases hl : ledger c with
    | none =>
        rw [hl] at hq
        refine .inl ⟨rfl, ?_⟩
        rcases hr' with rfl | rfl
        · exact ⟨_, hq⟩
        · exact ⟨_, rfl⟩
    | some l =>
        rw [hl] at hq
        refine .inr ⟨by simp [HasSpawned, hl], ?_⟩
        rcases hr' with rfl | rfl
        · rcases hq.mutation with h | ⟨output, status, stderr, h, hs⟩
          · exact .inl h
          · exact .inr ⟨output, h, l, status, stderr, hl, hs⟩
        · exact .inl rfl

/-- A child that has not been reaped has the permit of its call. -/
theorem children_le_held {runner : Runner} {c : RunnerCall} (h : runner.runCancelled.Sound c) :
    children c ≤ c.held := by
  have hspec : ∀ p, runner.runCancelled.accept c.request = .ok p →
      monitor.wp p none (Outcome c.request.operation) := by
    intro p hp
    obtain rfl : worker runner c.request.arguments c.request.operation = p := by
      simpa [Runner.runCancelled] using hp
    exact worker_spec runner _ _
  obtain ⟨-, ht | hheld | ⟨r, hr⟩⟩ := h.traced monitor hspec
  · simp [children, ledger, ht]
  · rw [hheld]
    unfold children
    split
    · exact Bool.toNat_le _
    · exact Nat.zero_le _
  · change Outcome c.request.operation (ledger c) r at hr
    unfold children
    cases hl : ledger c with
    | none => exact Nat.zero_le _
    | some l =>
        rw [hl] at hr
        simp [hr.1]

/-- **The mutation outcome law.**  Whatever permits were in use and however the events interleave:
a mutation's result is `ok` only when its child exited successfully and both streams were read
whole, every other result of a spawned child is `mutationOutcomeUnknown`, and every other error
means that no child was spawned.  The children alive never exceed the permits, and a child that has
not been reaped has its permit, also when its caller is gone. -/
theorem mutation_outcome_law (runner : Runner) (outside : Nat) (hout : outside ≤ permits)
    {pool : Pool Permits RunnerCall}
    (h : runner.runCancelled.behaviour.Reachable ⟨permits - outside, outside⟩ pool) :
    (∀ c ∈ pool.procs, c.request.operation = .mutation → ∀ r, c.caller = .returned r →
      (∀ output, r = .ok output → Succeeded c output) ∧
      (HasSpawned c → (∃ output, r = .ok output) ∨ r = .error .mutationOutcomeUnknown) ∧
      (∀ e, r = .error e → e ≠ .mutationOutcomeUnknown → ¬ HasSpawned c)) ∧
    (pool.procs.map children).sum + pool.shared.outside ≤ 2 ∧
    (∀ c ∈ pool.procs, 0 < children c → c.held = 1) := by
  have hsound := Supervisor.sound h
  refine ⟨fun c hc hm r hr => ?_, ?_, fun c hc hpos => ?_⟩
  · rcases mutation_result (hsound c hc) hm hr with ⟨hl, e, rfl⟩ | ⟨hs, rfl | ⟨out, rfl, hout⟩⟩
    · have hno : ¬ HasSpawned c := by simp [HasSpawned, hl]
      exact ⟨by simp, fun hs => absurd hs hno, fun _ _ _ => hno⟩
    · exact ⟨by simp, fun _ => .inr rfl, fun e he hne => absurd (Except.error.inj he).symm hne⟩
    · refine ⟨fun output ho => ?_, fun _ => .inl ⟨out, rfl⟩, by simp⟩
      rw [← Except.ok.inj ho]
      exact hout
  · have hle := Supervisor.sum_outside_le h children fun c hc => children_le_held (hsound c hc)
    simp only [permits] at hout hle
    omega
  · have hle := children_le_held (hsound c hc)
    have hheld : c.held ≤ 1 := by
      obtain ⟨request, caller, signalled, task, trace⟩ := c
      cases task <;> simp [Call.held, Task.held]
    omega

/-- A mutation whose child exits with code 0 and closes both streams returns `ok`. -/
theorem reachable_success (runner : Runner) (arguments : List String) (outside : Nat)
    (hout : outside < permits) (pid : Nat) :
    ∃ t, runner.runCancelled.behaviour.Reachable ⟨permits - outside, outside⟩
      (Supervisor.alone ⟨permits - outside, outside⟩
        ⟨⟨arguments, .mutation⟩, .returned (.ok ⟨[]⟩), true, .released (.ok ⟨[]⟩), t⟩) := by
  have hwatch := (ChildProcess.reaches_finish (endings .mutation) pid (.exited 0) .ended .ended
    (by rfl) (by rfl)).lift Ans Op.child
  have hrun : Reaches (worker runner arguments .mutation)
      (⟨.tryRecv, .empty⟩ :: ⟨.spawn _, some ⟨pid, true, true⟩⟩ :: _) (.done (.ok ⟨[]⟩)) :=
    .step (.step hwatch)
  refine ⟨_, Supervisor.alone_returned (by simp only; omega) rfl hrun ?_⟩
  simp [Runner.runCancelled, heeds, ChildProcess.heeds]

/-- A runner with the longest deadline. -/
theorem sampleDeadline_bounds : 2000000 ≤ 30000000000 ∧ 30000000000 ≤ 30000000000 := by decide

/-- A runner. -/
def sampleRunner : Runner :=
  ⟨"/usr/bin/kubectl", "/etc/kubeconfig", "/var/cache/kubectl", "homelab", "25000ms", 30000000000,
    by decide, sampleDeadline_bounds⟩

/-- The law speaks of a mutation that succeeds while another run has the other permit. -/
theorem mutation_outcome_law_success :
    ∃ t, Succeeded ⟨⟨["delete", "pod"], .mutation⟩, .returned (.ok ⟨[]⟩), true,
      .released (.ok ⟨[]⟩), t⟩ ⟨[]⟩ := by
  obtain ⟨t, h⟩ := reachable_success sampleRunner ["delete", "pod"] 1 (by decide) 7
  exact ⟨t, ((mutation_outcome_law sampleRunner 1 (by decide) h).1 _ List.mem_cons_self rfl _ rfl).1
    _ rfl⟩

end Kubernetes
