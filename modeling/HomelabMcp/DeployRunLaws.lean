import HomelabMcp.DeployRunner

/-!
# The life of a deploy run

* `run_lifecycle` — whatever calls interleave: one run at a time has the permit, nothing secret is
  made before the host pin has passed, the errors split at the spawn of uv, uv is spawned at most
  once, and without the permit the run directory is gone exactly if its removal did not fail;
* `directory_remains` — a run whose directory is still there when the permit is free again;
* `group_killed_iff` — the group of uv is killed at an early end exactly when the leader had not
  been waited for, and `group_survives` is a run in which it is not.
-/

namespace Deploys

open Interaction SupervisedTask ProcessPool
open ChildProcess (Ended)
open Inventory (Machine)
open Text (Bytes)

variable {crates : Crates} {config : DeployRunnerConfig} {deploy : ResolvedDeploy}
  {machine : Machine}

/-- What the events of a worker leave behind: the run directory, whether a removal of it failed, how
often uv was spawned, and the uv process. -/
structure Ledger where
  dir : Option String
  failed : Bool
  uvSpawns : Nat
  uv : Option ChildProcess.Ledger

/-- Before the first event there is no directory and no process. -/
def Ledger.start : Ledger := ⟨none, false, 0, none⟩

/-- The machine's host pin has passed the check. -/
def PinPassed (crates : Crates) (machine : Machine) : Prop :=
  ∃ pin, machine.pinnedHostPublicKey = some pin ∧ validateHostPin crates pin = .ok ()

/-- The operations that make or use the key. -/
def Op.sensitive : Op → Bool
  | .spawnKeygen _ | .keygen _ | .sign _ | .spawnUv _ | .uv _ => true
  | _ => false

/-- The operations the ledger records. -/
def Op.recorded : Op → Bool
  | .createDir _ _ | .spawnUv _ | .uv _ | .removeDirAll _ => true
  | _ => false

/-- Follows a worker's directory and its uv process. -/
def monitor (crates : Crates) (machine : Machine) : Monitor Ans Ledger where
  may l op := (op.sensitive = true → PinPassed crates machine) ∧ match op with
    | .createDir _ _ => l.dir = none
    | .spawnUv _ => l.uvSpawns = 0
    | _ => True
  next l op := match op with
    | .createDir path _ => fun
        | .created => { l with dir := some path }
        | .alreadyExists | .failed => l
    | .spawnUv _ => fun
        | some _ => { l with uvSpawns := l.uvSpawns + 1, uv := some .spawned }
        | none => l
    | .uv op => fun answer =>
        { l with uv := l.uv.map fun u => ChildProcess.monitor.next u op answer }
    | .removeDirAll _ => fun removed =>
        if removed then { l with dir := none } else { l with failed := true }
    | _ => fun _ => l

/-- How a run of uv ends: without a pipe, or watched to an end. -/
def UvEnded (u : ChildProcess.Ledger) (r : Except DeployError Bytes) : Prop :=
  (u.exit = none ∧ r = .error .executionOutcomeUnknown) ∨ ∃ pid, Ended endings pid u r

/-- The end of `runUv`. -/
def UvOutcome (l : Ledger) (r : Except DeployError Bytes) : Prop :=
  match l.uv with
  | none => l.uvSpawns = 0 ∧ ∃ e, r = .error e
  | some u => l.uvSpawns = 1 ∧ UvEnded u r

/-- The end of a worker. -/
def Outcome (l : Ledger) (r : Except DeployError DeployResult) : Prop :=
  ∃ output, UvOutcome l output ∧
    ((∃ e, output = .error e ∧ r = .error e) ∨ ∃ bytes, output = .ok bytes ∧ r = systemInfo bytes)

section Parts

variable {l : Ledger} {α : Type}

/-- A part that changes nothing in the ledger and whose operations are allowed. -/
def Quiet (crates : Crates) (machine : Machine) (l : Ledger) (x : Worker α) : Prop :=
  (monitor crates machine).wp x.run l fun l' _ => l' = l

/-- Quiet parts are quiet one after the other. -/
theorem Quiet.bind {β : Type} {x : Worker α} {f : α → Worker β}
    (hx : Quiet crates machine l x) (hf : ∀ a, Quiet crates machine l (f a)) :
    Quiet crates machine l (x >>= f) := by
  rw [Quiet, Monitor.wp_run_bind]
  refine (monitor crates machine).wp_mono hx ?_
  rintro _ (e | a) rfl
  · rfl
  · exact hf a

/-- An error does nothing. -/
theorem Quiet.throw (e : DeployError) : Quiet crates machine l (throw e : Worker α) := rfl

/-- A value does nothing. -/
theorem Quiet.answer (r : Except DeployError α) : Quiet crates machine l (answer r) := rfl

/-- An operation is quiet that is not recorded, and sensitive only behind the pin. -/
theorem quiet_ask {op : Op} (hrecorded : op.recorded = false)
    (hpin : op.sensitive = true → PinPassed crates machine) :
    Quiet crates machine l (ask op) := by
  refine ⟨⟨hpin, ?_⟩, fun answer => ?_⟩
  · cases op <;> trivial
  · cases op <;> first | rfl | cases hrecorded

/-- An operation that is neither is quiet. -/
theorem quiet_plain {op : Op} (h : (op.recorded || op.sensitive) = false) :
    Quiet crates machine l (ask op) := by
  obtain ⟨hrecorded, hsensitive⟩ := Bool.or_eq_false_iff.mp h
  exact quiet_ask hrecorded fun hs => absurd (hsensitive.symm.trans hs) Bool.false_ne_true

/-- A condition does nothing. -/
theorem quiet_ensure (ok : Bool) (e : DeployError) : Quiet crates machine l (ensure ok e) := by
  cases ok <;> exact rfl

/-- Looking for a cancellation is quiet. -/
theorem quiet_cancelledNow : Quiet crates machine l cancelledNow := by
  refine (quiet_plain rfl).bind fun received => ?_
  cases received <;> exact rfl

/-- So is reading a file. -/
theorem quiet_readBounded (path : String) (limit : Nat) :
    Quiet crates machine l (readBounded path limit) := by
  refine (quiet_plain rfl).bind fun metadata => ?_
  cases metadata with
  | none => exact rfl
  | some metadata =>
      refine (quiet_ensure _ _).bind fun _ => (quiet_plain rfl).bind fun text => ?_
      cases text <;> exact rfl

/-- So is writing one. -/
theorem quiet_writePrivate (path text : String) :
    Quiet crates machine l (writePrivate path text) := by
  refine (quiet_plain rfl).bind fun opened => (quiet_ensure _ _).bind fun _ => ?_
  exact (quiet_plain rfl).bind fun written => quiet_ensure _ _

/-- A signature is asked for behind the pin. -/
theorem quiet_sign (hpin : PinPassed crates machine) (publicKey : String) :
    Quiet crates machine l (sign publicKey) := by
  refine (quiet_ask rfl fun _ => hpin).bind fun signed => ?_
  cases signed with
  | cancelled => exact rfl
  | answered result => exact Quiet.answer result

/-- A program of the key generator leaves the ledger alone. -/
theorem quiet_keygen (hpin : PinPassed crates machine)
    (p : Program ChildProcess.Op ChildProcess.Ans α) :
    Quiet crates machine l (watching Op.keygen p) := by
  induction p with
  | done a => exact rfl
  | call op next ih => exact ⟨⟨fun _ => hpin, trivial⟩, ih⟩

/-- The key generator is waited for behind it. -/
theorem quiet_awaitKeygen (hpin : PinPassed crates machine) (pid : Nat) :
    Quiet crates machine l (awaitKeygen pid) := by
  refine (quiet_ask rfl fun _ => hpin).bind fun wake => ?_
  obtain ⟨wake, hallow⟩ := wake
  cases wake with
  | exited status => exact quiet_ensure _ _
  | waitFailed => exact (quiet_ask rfl fun _ => hpin).bind fun _ => Quiet.throw _
  | cancelled => exact (quiet_keygen hpin _).bind fun _ => Quiet.throw _
  | expired => exact (quiet_keygen hpin _).bind fun _ => Quiet.throw _
  | stdout joined => exact nomatch hallow
  | stderr joined => exact nomatch hallow

/-- And started behind it. -/
theorem quiet_runKeygen (hpin : PinPassed crates machine) (executable key : String) :
    Quiet crates machine l (runKeygen executable key) := by
  refine (quiet_ask rfl fun _ => hpin).bind fun pid => ?_
  cases pid with
  | none => exact rfl
  | some pid =>
      refine (quiet_awaitKeygen hpin pid).bind fun _ => ?_
      refine (quiet_plain rfl).bind fun first => (quiet_ensure _ _).bind fun _ => ?_
      exact (quiet_plain rfl).bind fun second => quiet_ensure _ _

/-- A quiet part before the rest of a program. -/
theorem Quiet.wp_bind {β : Type} {x : Worker α} {f : α → Worker β}
    {Q : Ledger → Except DeployError β → Prop} (hx : Quiet crates machine l x)
    (herror : ∀ e, Q l (.error e)) (hf : ∀ a, (monitor crates machine).wp (f a).run l Q) :
    (monitor crates machine).wp (x >>= f).run l Q := by
  rw [Monitor.wp_run_bind]
  refine (monitor crates machine).wp_mono hx ?_
  rintro _ (e | a) rfl
  · exact herror e
  · exact hf a

/-- The run directory exists only when its creation succeeded. -/
theorem createRunDir_spec (root : String) (attempts : Nat) (hdir : l.dir = none) :
    (monitor crates machine).wp (createRunDir root attempts).run l fun l' r =>
      match r with
      | .ok path => l' = { l with dir := some path }
      | .error _ => l' = l := by
  induction attempts with
  | zero => exact rfl
  | succ attempts ih =>
      refine (quiet_plain rfl).wp_bind (fun _ => rfl) fun random => ?_
      cases random with
      | none => exact rfl
      | some random =>
          refine ⟨⟨nofun, hdir⟩, fun outcome => ?_⟩
          cases outcome with
          | created => exact rfl
          | alreadyExists => exact ih
          | failed => exact rfl

/-- A program of the uv process moves its part of the ledger alone. -/
theorem wp_uv (hpin : PinPassed crates machine)
    {p : Program ChildProcess.Op ChildProcess.Ans α} {u : ChildProcess.Ledger}
    {Q : ChildProcess.Ledger → α → Prop} {Q' : Ledger → Except DeployError α → Prop}
    (h : ChildProcess.monitor.wp p u Q)
    (hQ : ∀ u a, Q u a → Q' { l with uv := some u } (.ok a)) :
    (monitor crates machine).wp (watching Op.uv p).run { l with uv := some u } Q' := by
  have hlift := (monitor crates machine).wp_lift Op.uv
    (fun u => { l with uv := some u }) (fun _ _ _ => ⟨fun _ => hpin, trivial⟩)
    (fun _ _ _ => rfl) h
  show (monitor crates machine).wp (p.lift Op.uv >>= fun a => Program.done (.ok a)) _ Q'
  rw [Monitor.wp_bind]
  refine (monitor crates machine).wp_mono hlift ?_
  rintro _ a ⟨u, rfl, hu⟩
  exact hQ u a hu

/-- Between its creation and its removal nothing is done to the run directory. -/
def Ledger.SameDir (l l' : Ledger) : Prop := l'.dir = l.dir ∧ l'.failed = l.failed

/-- The run of uv leaves the directory alone and ends in one of its ways. -/
theorem runUv_spec (hpin : PinPassed crates machine) (hnone : l.uv = none)
    (hzero : l.uvSpawns = 0) (inventory : String) :
    (monitor crates machine).wp (runUv config deploy inventory).run l fun l' r =>
      l.SameDir l' ∧ UvOutcome l' r := by
  refine ⟨⟨fun _ => hpin, hzero⟩, fun spawned => ?_⟩
  cases spawned with
  | none =>
      refine ⟨⟨rfl, rfl⟩, ?_⟩
      simp only [monitor, UvOutcome, hnone]
      exact ⟨hzero, _, rfl⟩
  | some spawned =>
      obtain ⟨pid, out, err⟩ := spawned
      have hone : l.uvSpawns + 1 = 1 := by omega
      have hmissing : (monitor crates machine).wp (do
            ask (Op.uv (.kill pid .leader))
            throw .executionOutcomeUnknown : Worker Bytes).run
          { l with uvSpawns := l.uvSpawns + 1, uv := some .spawned }
          fun l' r => l.SameDir l' ∧ UvOutcome l' r :=
        ⟨⟨fun _ => hpin, trivial⟩, fun _ => ⟨⟨rfl, rfl⟩, hone, .inl ⟨rfl, rfl⟩⟩⟩
      cases out with
      | false => exact hmissing
      | true =>
          cases err with
          | false => exact hmissing
          | true =>
              show (monitor crates machine).wp (watching Op.uv _ >>= fun r => answer r).run _ _
              rw [Monitor.wp_run_bind]
              refine wp_uv (l := { l with uvSpawns := l.uvSpawns + 1 }) hpin
                (ChildProcess.watch_spec pid ⟨rfl, rfl, rfl, rfl, rfl, rfl⟩ rfl) ?_
              intro u r hu
              exact ⟨⟨rfl, rfl⟩, hone, .inr ⟨pid, hu⟩⟩

/-- A worker that fails before uv. -/
theorem Outcome.early (hnone : l.uv = none) (hzero : l.uvSpawns = 0) (e : DeployError) :
    Outcome l (.error e) := by
  refine ⟨.error e, ?_, .inl ⟨e, rfl, rfl⟩⟩
  simp only [UvOutcome, hnone]
  exact ⟨hzero, e, rfl⟩

/-- What is done in the run directory leaves the directory itself alone. -/
theorem inRunDir_spec (hpin : PinPassed crates machine) (hnone : l.uv = none)
    (hzero : l.uvSpawns = 0) (pin runDir : String) :
    (monitor crates machine).wp (inRunDir crates config deploy machine pin runDir).run l
      fun l' r => l.SameDir l' ∧ Outcome l' r := by
  have hearly : ∀ e, l.SameDir l ∧ Outcome l (.error e) :=
    fun e => ⟨⟨rfl, rfl⟩, .early hnone hzero e⟩
  refine (quiet_runKeygen hpin _ _).wp_bind hearly fun _ => ?_
  refine (quiet_readBounded _ _).wp_bind hearly fun publicKey => ?_
  refine quiet_cancelledNow.wp_bind hearly fun _ => ?_
  refine (quiet_sign hpin _).wp_bind hearly fun certificate => ?_
  refine (quiet_writePrivate _ _).wp_bind hearly fun _ => ?_
  refine (quiet_plain rfl).wp_bind hearly fun removed => ?_
  refine (quiet_ensure _ _).wp_bind hearly fun _ => ?_
  refine (quiet_writePrivate _ _).wp_bind hearly fun _ => ?_
  rw [Monitor.wp_run_bind]
  refine (monitor crates machine).wp_mono (runUv_spec hpin hnone hzero _) ?_
  rintro l' (e | output) ⟨hdir, huv⟩
  · exact ⟨hdir, _, huv, .inl ⟨e, rfl, rfl⟩⟩
  · exact ⟨hdir, _, huv, .inr ⟨output, rfl, rfl⟩⟩

/-- The run directory is there exactly if a removal of it failed. -/
def Ledger.Cleaned (l : Ledger) : Prop := l.dir = none ↔ l.failed = false

/-- The answer to the removal decides what is left. -/
theorem Ledger.cleaned_removed {l : Ledger} {runDir : String} (hdir : l.dir = some runDir)
    (hfailed : l.failed = false) (removed : Bool) :
    ((monitor crates machine).next l (.removeDirAll runDir) removed).Cleaned := by
  cases removed with
  | true => exact iff_of_true rfl hfailed
  | false => exact iff_of_false (by simp [monitor, hdir]) nofun

/-- **A worker's run**, from its start to its end. -/
theorem worker_spec :
    (monitor crates machine).wp (worker crates config deploy machine).run .start
      fun l r => l.Cleaned ∧ Outcome l r := by
  have hearly : ∀ e, Ledger.start.Cleaned ∧ Outcome .start (.error e) :=
    fun e => ⟨iff_of_true rfl rfl, .early rfl rfl e⟩
  refine quiet_cancelledNow.wp_bind hearly fun _ => ?_
  cases hkey : machine.pinnedHostPublicKey with
  | none => exact hearly _
  | some pin =>
      show (monitor crates machine).wp (answer (validateHostPin crates pin) >>= fun _ => _).run _ _
      cases hvalid : validateHostPin crates pin with
      | error e => exact hearly e
      | ok u =>
          have hpin : PinPassed crates machine := ⟨pin, hkey, hvalid⟩
          refine (Quiet.answer _).wp_bind hearly fun _ => ?_
          rw [Monitor.wp_run_bind]
          refine (monitor crates machine).wp_mono (createRunDir_spec _ _ rfl) ?_
          rintro l (e | runDir) hl
          · rw [show l = .start from hl]
            exact hearly e
          · have hl : l = { Ledger.start with dir := some runDir } := hl
            show (monitor crates machine).wp (attempt _ >>= fun r => _).run l _
            rw [Monitor.wp_run_bind, Monitor.wp_run_attempt]
            refine (monitor crates machine).wp_mono
              (inRunDir_spec hpin (by rw [hl]; rfl) (by rw [hl]; rfl) _ _) ?_
            rintro l' r ⟨⟨hdir, hfailed⟩, hr⟩
            rw [hl] at hdir hfailed
            refine ⟨⟨nofun, trivial⟩, fun removed => ⟨Ledger.cleaned_removed hdir hfailed removed, ?_⟩⟩
            cases removed <;> exact hr

end Parts

/-- A call of the runner. -/
abbrev RunCall := Call Op Ans Request (Except DeployError DeployResult)

/-- What the events of a call leave behind. -/
def ledger (crates : Crates) (c : RunCall) : Ledger :=
  (monitor crates c.request.machine).after .start c.trace

/-- The errors of a call that never spawned uv. -/
def beforeUv : List DeployError :=
  [.busy, .deployNotFound, .deployUnavailable, .missingHostPin, .cancelled, .credentialUnavailable,
    .credentialInvalid, .executionRejected]

/-- The errors of a call that spawned uv. -/
def afterUv : List DeployError :=
  [.invalidOutput, .executionOutcomeUnknown, .timeoutOutcomeUnknown, .cancelledOutcomeUnknown,
    .outputTooLargeOutcomeUnknown]

/-- A watched uv ends well, or with an error that keeps the outcome open. -/
theorem UvEnded.error_mem {u : ChildProcess.Ledger} {e : DeployError}
    (h : UvEnded u (.error e)) : e ∈ afterUv := by
  rcases h with ⟨-, h⟩ | ⟨pid, -, ⟨status, stdout, stderr, -, h⟩ | ⟨h, -⟩⟩
  · cases h
    decide
  · simp only [endings] at h
    split at h
    · cases h
    · cases h
      decide
  · rcases h with h | h | h | h <;> cases h <;> decide

/-- The results of a worker that spawned uv. -/
theorem Outcome.after_uv {l : Ledger} {r : Except DeployError DeployResult} (h : Outcome l r)
    (hspawned : 0 < l.uvSpawns) : (∃ v, r = .ok v) ∨ ∃ e ∈ afterUv, r = .error e := by
  obtain ⟨output, huv, hr⟩ := h
  cases hu : l.uv with
  | none =>
      simp only [UvOutcome, hu] at huv
      omega
  | some u =>
      simp only [UvOutcome, hu] at huv
      rcases hr with ⟨e, rfl, rfl⟩ | ⟨bytes, rfl, rfl⟩
      · exact .inr ⟨e, huv.2.error_mem, rfl⟩
      · cases hs : systemInfo bytes with
        | ok v => exact .inl ⟨v, rfl⟩
        | error e => exact .inr ⟨e, by rw [systemInfo_error hs]; decide, rfl⟩

section Calls

variable {runner : DeployRunner} {c : RunCall}

/-- A call that is accepted cleans up and ends as the outcomes say. -/
private theorem accepted_spec {p : Program Op Ans (Except DeployError DeployResult)}
    (hp : (runner.runCancelled crates).accept c.request = .ok p) :
    (monitor crates c.request.machine).wp p .start fun l r => l.Cleaned ∧ Outcome l r := by
  simp only [DeployRunner.runCancelled] at hp
  split at hp
  · simp at hp
  · split at hp
    · simp at hp
    · cases hp
      exact worker_spec

/-- It spawns `uv` at most once. -/
theorem uvSpawns_le (h : (runner.runCancelled crates).Sound c) :
    (ledger crates c).uvSpawns ≤ 1 := by
  obtain ⟨ha, -⟩ := h.traced (monitor crates c.request.machine) fun p => accepted_spec
  refine Monitor.after_invariant _ (I := fun l : Ledger => l.uvSpawns ≤ 1) ?_ (Nat.zero_le _) ha
  intro l op answer hl hmay
  cases op with
  | createDir path mode => cases answer <;> exact hl
  | removeDirAll path => cases answer <;> exact hl
  | spawnUv command =>
      have hzero : l.uvSpawns = 0 := hmay.2
      cases answer with
      | none => exact hl
      | some spawned =>
          show l.uvSpawns + 1 ≤ 1
          omega
  | _ => exact hl

/-- The removal of a run directory has failed. -/
def RemovalFailed (c : RunCall) : Prop :=
  ∃ path, (⟨.removeDirAll path, false⟩ : Event Ans) ∈ c.trace

/-- The ledger records the failures of the trace. -/
theorem failed_iff (l : Ledger) (t : Trace Ans) :
    ((monitor crates machine).after l t).failed = true ↔
      l.failed = true ∨ ∃ path, (⟨.removeDirAll path, false⟩ : Event Ans) ∈ t := by
  induction t generalizing l with
  | nil => simp
  | cons e t ih =>
      obtain ⟨op, answer⟩ := e
      rw [Monitor.after_cons, ih]
      cases op with
      | removeDirAll path =>
          cases answer with
          | true => simp [monitor]
          | false => exact iff_of_true (.inl rfl) (.inr ⟨path, List.mem_cons_self⟩)
      | createDir path mode => cases answer <;> simp [monitor]
      | spawnUv command => cases answer <;> simp [monitor]
      | _ => simp [monitor]

/-- Without the permit, the run directory is gone exactly if no removal failed. -/
theorem dir_gone_iff (h : (runner.runCancelled crates).Sound c) (hfree : c.held ≠ 1) :
    (ledger crates c).dir = none ↔ ¬ RemovalFailed c := by
  have hfailed : (ledger crates c).failed = true ↔ RemovalFailed c := by
    rw [ledger, failed_iff]
    exact ⟨fun h => h.resolve_left nofun, Or.inr⟩
  rw [← hfailed, Bool.not_eq_true]
  obtain ⟨-, ht | hheld | ⟨r, hr⟩⟩ :=
    h.traced (monitor crates c.request.machine) fun p => accepted_spec
  · rw [ledger, ht]
    exact iff_of_true rfl rfl
  · exact absurd hheld hfree
  · exact hr.1

/-- A returned result. -/
theorem returned_spec (h : (runner.runCancelled crates).Sound c)
    {r : Except DeployError DeployResult} (hr : c.caller = .returned r) :
    ((ledger crates c).uvSpawns = 0 ∧ (ledger crates c).uv = none ∧ ∃ e, r = .error e) ∨
      Outcome (ledger crates c) r := by
  rcases h.result hr (monitor crates c.request.machine) fun p => accepted_spec with
    ⟨ht, he⟩ | ⟨r', ⟨-, hq⟩, hr'⟩
  · refine .inl ⟨by rw [ledger, ht]; rfl, by rw [ledger, ht]; rfl, ?_⟩
    rcases he with he | he
    · exact ⟨_, he⟩
    · simp only [DeployRunner.runCancelled] at he
      split at he
      · exact ⟨_, (Except.error.inj he).symm⟩
      · split at he
        · exact ⟨_, (Except.error.inj he).symm⟩
        · simp at he
  · have hrr : r = r' := by simpa [DeployRunner.runCancelled] using hr'
    exact .inr (hrr ▸ hq)

end Calls

/-- **The life of a deploy run.**  In every reachable pool one call at most has the permit.  A call
makes and uses a key only for a machine whose host pin has passed; it spawns uv at most once; when
it does not have the permit, its run directory is gone exactly if the removal did not fail; the
errors from before uv mean that uv was never spawned, and a call that spawned uv ends well or with
an error that says so. -/
theorem run_lifecycle (crates : Crates) (runner : DeployRunner) {pool : Pool Permits RunCall}
    (h : (runner.runCancelled crates).behaviour.Reachable ⟨1, 0⟩ pool) :
    (pool.procs.map Call.held).sum ≤ 1 ∧
    ∀ c ∈ pool.procs,
      (∀ e ∈ c.trace, e.1.sensitive = true → PinPassed crates c.request.machine) ∧
      (ledger crates c).uvSpawns ≤ 1 ∧
      (c.held ≠ 1 → ((ledger crates c).dir = none ↔ ¬ RemovalFailed c)) ∧
      ∀ r, c.caller = .returned r →
        (∀ e ∈ beforeUv, r = .error e → (ledger crates c).uvSpawns = 0) ∧
        ((ledger crates c).uvSpawns = 1 →
          (∃ v, r = .ok v) ∨ ∃ e ∈ afterUv, r = .error e) := by
  have hsound := Supervisor.sound h
  refine ⟨?_, fun c hc => ⟨fun e he hs => ?_, uvSpawns_le (hsound c hc),
    dir_gone_iff (hsound c hc), fun r hr => ?_⟩⟩
  · have hle := Supervisor.permits_conserved h
    simp only at hle
    omega
  · obtain ⟨ha, -⟩ :=
      (hsound c hc).traced (monitor crates c.request.machine) fun p => accepted_spec
    obtain ⟨l, hpin, -⟩ := ha.mem he
    exact hpin hs
  · have hafter : (ledger crates c).uvSpawns = 1 →
        (∃ v, r = .ok v) ∨ ∃ e ∈ afterUv, r = .error e := by
      intro hone
      rcases returned_spec (hsound c hc) hr with ⟨hzero, -⟩ | hq
      · omega
      · exact hq.after_uv (by omega)
    refine ⟨fun e he hre => ?_, hafter⟩
    by_contra hne
    have hle := uvSpawns_le (hsound c hc)
    rcases hafter (by omega) with ⟨v, hv⟩ | ⟨e', he', hre'⟩
    · simp [hre] at hv
    · obtain rfl : e = e' := by simpa [hre] using hre'
      revert he he'
      cases e <;> decide

/-- A key of zeros. -/
def sampleKey : String := "AAAAC3NzaC1lZDI1NTE5AAAAIAAAAAAAAAAAAAAAAAAAAAAAAAAAAAAAAAAAAAAAAAAA"

/-- A pin. -/
def samplePin : String := "ssh-ed25519 " ++ sampleKey

/-- The run directory of the bytes that are all zero. -/
def sampleDir : String := "/tmp/homelab-deploy-00000000000000000000000000000000"

/-- The decoder and the printer at the sample's key and inventory. -/
def sampleCrates : Crates where
  decodeBase64 text :=
    if text = sampleKey then
      some ([0, 0, 0, 11] ++ Inventory.ed25519Name ++ [0, 0, 0, 32] ++ List.replicate 32 0)
    else none
  jsonText _ := "\x7b\"host\":\x7b\"address\":\"192.0.2.1\",\"known_hosts\":\"" ++ sampleDir ++
    "/known_hosts\",\"port\":22,\"ssh_key\":\"" ++ sampleDir ++
    "/identity\",\"user\":\"homelab\"\x7d,\"version\":1\x7d"

/-- A machine with that pin. -/
def sampleMachine : Machine := ⟨1, "node", "192.0.2.1", 22, "homelab", some samplePin, 0, 0⟩

/-- A runner with one deploy. -/
def sampleRunner : DeployRunner where
  catalog := ⟨"/srv/deploys", [⟨"system-info", "system_info.py", "inventory.py", true, 30⟩]⟩
  config := ⟨"/usr/bin/uv", "/usr/bin/ssh-keygen", "/tmp"⟩

/-- The deploy as it is resolved. -/
def sampleDeploy : ResolvedDeploy := ⟨"/srv/deploys", "system_info.py", "inventory.py", 30⟩

/-- The events before uv is watched, when everything succeeds. -/
def preparation : Trace Ans :=
  [⟨.tryRecv, .empty⟩,
    ⟨.random, some ⟨List.replicate 16 0, rfl⟩⟩,
    ⟨.createDir sampleDir 0o700, .created⟩,
    ⟨.spawnKeygen ⟨"/usr/bin/ssh-keygen", [],
      ["-q", "-t", "ed25519", "-N", "", "-C", "", "-f", sampleDir ++ "/identity"], none⟩, some 7⟩,
    ⟨.keygen (.select ⟨true, false, false⟩), ⟨.exited (.exited 0), rfl⟩⟩,
    ⟨.setPermissions (sampleDir ++ "/identity") 0o600, true⟩,
    ⟨.setPermissions (sampleDir ++ "/identity.pub") 0o600, true⟩,
    ⟨.metadata (sampleDir ++ "/identity.pub"), some ⟨true, 24⟩⟩,
    ⟨.readToString (sampleDir ++ "/identity.pub"), some "ssh-ed25519 AAAATEST"⟩,
    ⟨.tryRecv, .empty⟩,
    ⟨.sign "ssh-ed25519 AAAATEST", .answered (.ok "certificate")⟩,
    ⟨.openNew (sampleDir ++ "/identity-cert.pub") 0o600, true⟩,
    ⟨.writeAll (sampleDir ++ "/identity-cert.pub") "certificate", true⟩,
    ⟨.removeFile (sampleDir ++ "/identity.pub"), true⟩,
    ⟨.openNew (sampleDir ++ "/known_hosts") 0o600, true⟩,
    ⟨.writeAll (sampleDir ++ "/known_hosts") ("192.0.2.1 " ++ samplePin ++ "\n"), true⟩,
    ⟨.spawnUv (uvCommand sampleRunner.config sampleDeploy (sampleCrates.jsonText .null)),
      some ⟨8, true, true⟩⟩]

variable {t : Trace ChildProcess.Ans} {r : Except DeployError Bytes}

/-- From the end of the watch to the end of `uv`. -/
private theorem reaches_runUv {inventory : String}
    (h : Reaches (ChildProcess.watch endings ⟨⟨8, false⟩, none, none, none⟩) t (.done r)) :
    Reaches (runUv sampleRunner.config sampleDeploy inventory).run
      (⟨.spawnUv (uvCommand sampleRunner.config sampleDeploy inventory), some ⟨8, true, true⟩⟩ ::
        t.map fun e => ⟨.uv e.1, e.2⟩) (.done r) := by
  have hwatch : Reaches (watching Op.uv _).run _ (.done (.ok r)) :=
    (h.lift Ans Op.uv).bind_done rfl
  refine .step ?_
  show Reaches ((watching Op.uv _).run >>= ExceptT.bindCont fun r => answer r) _ _
  exact hwatch.bind_done rfl

/-- And to the end of what is done in the run directory. -/
private theorem reaches_inRunDir
    (h : Reaches (ChildProcess.watch endings ⟨⟨8, false⟩, none, none, none⟩) t (.done r)) :
    Reaches (inRunDir sampleCrates sampleRunner.config sampleDeploy sampleMachine samplePin
        sampleDir).run
      (preparation.drop 3 ++ (t.map fun e => ⟨.uv e.1, e.2⟩)) (.done (r.bind systemInfo)) := by
  have hread : ExceptT.bindCont (fun output => answer (systemInfo output)) r
      = (.done (r.bind systemInfo) : Program Op Ans _) := by
    cases r <;> rfl
  -- from the spawn of the key generator to the last file written
  refine .step (.step (.step (.step (.step (.step (.step (.step (.step (.step (.step (.step
    (.step ?_))))))))))))
  show Reaches ((runUv _ _ _).run >>= ExceptT.bindCont fun output => answer (systemInfo output)) _ _
  exact (reaches_runUv h).bind_done hread

/-- Any end of the watch over uv is the end of a whole run. -/
theorem worker_reaches (removed : Bool)
    (h : Reaches (ChildProcess.watch endings ⟨⟨8, false⟩, none, none, none⟩) t (.done r)) :
    Reaches (worker sampleCrates sampleRunner.config sampleDeploy sampleMachine).run
      (preparation ++ (t.map fun e => ⟨.uv e.1, e.2⟩) ++ [⟨.removeDirAll sampleDir, removed⟩])
      (.done (r.bind systemInfo)) := by
  have hattempt : Reaches (attempt (inRunDir sampleCrates sampleRunner.config sampleDeploy
      sampleMachine samplePin sampleDir)).run _ _ := (reaches_inRunDir h).bind_done rfl
  -- the cancellation, the random name and the new directory
  refine .step (.step (.step ?_))
  show Reaches ((attempt _).run >>= ExceptT.bindCont _) _ _
  exact hattempt.bind (.step (.refl _))

/-- A call that returned, with its permit released, after a watch over uv with these events and
this end, and with this answer to the removal of its directory. -/
def sampleCall (t : Trace ChildProcess.Ans) (r : Except DeployError Bytes) (removed : Bool) :
    RunCall :=
  ⟨⟨"system-info", sampleMachine⟩, .returned (r.bind systemInfo), true,
    .released (r.bind systemInfo),
    preparation ++ (t.map fun e => ⟨.uv e.1, e.2⟩) ++ [⟨.removeDirAll sampleDir, removed⟩]⟩

/-- Such a call can be reached from a runner that has its permit. -/
theorem sample_returned (removed : Bool)
    (h : Reaches (ChildProcess.watch endings ⟨⟨8, false⟩, none, none, none⟩) t (.done r))
    (hheeds : ∀ e ∈ t, ChildProcess.heeds false e.1 e.2) :
    (sampleRunner.runCancelled sampleCrates).behaviour.Reachable ⟨1, 0⟩
      (Supervisor.alone ⟨1, 0⟩ (sampleCall t r removed)) := by
  refine Supervisor.alone_returned (by decide) rfl (worker_reaches removed h) ?_
  intro e he
  rw [List.append_assoc] at he
  rcases List.mem_append.mp he with he | he
  · simp only [preparation, List.mem_cons, List.not_mem_nil, or_false] at he
    rcases he with rfl | rfl | rfl | rfl | rfl | rfl | rfl | rfl | rfl | rfl | rfl | rfl | rfl |
      rfl | rfl | rfl | rfl <;> simp [DeployRunner.runCancelled, heeds, ChildProcess.heeds]
  · rcases List.mem_append.mp he with he | he
    · obtain ⟨e', he', rfl⟩ := List.mem_map.mp he
      exact hheeds e' he'
    · rw [List.mem_singleton.mp he]
      trivial

/-- uv exits with code 0 and prints nothing. -/
def silentRun : Trace ChildProcess.Ans :=
  [⟨.select ⟨true, true, true⟩, ⟨.exited (.exited 0), rfl⟩⟩,
    ⟨.select ⟨false, true, true⟩, ⟨.stdout (.finished .ended), rfl⟩⟩,
    ⟨.select ⟨false, false, true⟩, ⟨.stderr (.finished .ended), rfl⟩⟩]

/-- A run without output spawns uv once, its key was made for a machine with a valid pin, and its
directory is gone. -/
theorem run_lifecycle_silent :
    (ledger sampleCrates (sampleCall silentRun (.ok []) true)).uvSpawns = 1 ∧
      (∀ e ∈ (sampleCall silentRun (.ok []) true).trace, e.1.sensitive = true →
        PinPassed sampleCrates sampleMachine) ∧
      (ledger sampleCrates (sampleCall silentRun (.ok []) true)).dir = none := by
  have hwatch := ChildProcess.reaches_finish endings 8 (.exited 0) .ended .ended (by rfl) (by rfl)
  have h := sample_returned true hwatch (by simp [ChildProcess.heeds])
  obtain ⟨hpin, -, hdir, -⟩ := (run_lifecycle sampleCrates sampleRunner h).2 _ List.mem_cons_self
  refine ⟨rfl, hpin, (hdir (by decide)).mpr ?_⟩
  intro hremoval
  have hfailed := (@failed_iff sampleCrates sampleMachine .start
    (sampleCall silentRun (.ok []) true).trace).mpr (.inr hremoval)
  cases hfailed

/-- **A directory that stays.**  The run has ended well and its permit is free, but the removal of
its directory, with the private key, the certificate and the known hosts, has failed. -/
theorem directory_remains :
    ¬ ∀ (crates : Crates) (runner : DeployRunner) (pool : Pool Permits RunCall),
      (runner.runCancelled crates).behaviour.Reachable ⟨1, 0⟩ pool →
      ∀ c ∈ pool.procs, (ledger crates c).dir ≠ none → c.held = 1 := by
  intro hall
  have hwatch := ChildProcess.reaches_finish endings 8 (.exited 0) .ended .ended (by rfl) (by rfl)
  have h := sample_returned false hwatch (by simp [ChildProcess.heeds])
  have hheld := hall _ _ _ h _ List.mem_cons_self nofun
  exact absurd hheld (by decide)

/-- The task of a call has sent `r`. -/
def Sent (c : RunCall) (r : Except DeployError DeployResult) : Prop :=
  c.task = .delivered r ∨ c.task = .released r

/-- The results of a run that was cut short. -/
def cutShort : List DeployError :=
  [.cancelledOutcomeUnknown, .timeoutOutcomeUnknown, .outputTooLargeOutcomeUnknown]

/-- A watch that was cut short sent the kill that the leader's state asks for. -/
theorem UvEnded.killed {u : ChildProcess.Ledger} {e : DeployError} (h : UvEnded u (.error e))
    (he : e ∈ cutShort) : u.killed = if u.exit.isSome then none else some .group := by
  rcases h with ⟨-, h⟩ | ⟨pid, -, ⟨status, stdout, stderr, -, h⟩ | ⟨-, h, -⟩⟩
  · cases h
    exact absurd he (by decide)
  · simp only [endings] at h
    split at h
    · cases h
    · cases h
      exact absurd he (by decide)
  · rw [h]
    cases u.exit <;> rfl

/-- A worker that spawned uv and was cut short was cut short in the watch over uv. -/
theorem Outcome.cut_short {l : Ledger} {e : DeployError} (h : Outcome l (.error e))
    (he : e ∈ cutShort) {u : ChildProcess.Ledger} (hu : l.uv = some u) : UvEnded u (.error e) := by
  obtain ⟨output, huv, ⟨e', rfl, hr⟩ | ⟨bytes, rfl, hr⟩⟩ := h
  · cases hr
    simp only [UvOutcome, hu] at huv
    exact huv.2
  · rw [systemInfo_error hr.symm] at he
    exact absurd he (by decide)

/-- **The kill of the group.**  When a run that spawned uv has ended cancelled, timed out or with
too much output, SIGKILL was sent to the group of uv exactly when the loop had not waited for uv
itself. -/
theorem group_killed_iff (crates : Crates) (runner : DeployRunner) {pool : Pool Permits RunCall}
    (h : (runner.runCancelled crates).behaviour.Reachable ⟨1, 0⟩ pool) :
    ∀ c ∈ pool.procs, ∀ u, (ledger crates c).uv = some u →
      ∀ e ∈ cutShort, Sent c (.error e) → (u.killed = some .group ↔ u.exit = none) := by
  intro c hc u hu e he hsent
  have hq := (Supervisor.sound h c hc).sent hsent (monitor crates c.request.machine)
    fun p => accepted_spec
  rw [(hq.2.cut_short he hu).killed he]
  cases u.exit <;> simp

/-- The deadline passes while uv runs. -/
def timeoutRunning : Trace ChildProcess.Ans :=
  [⟨.select ⟨true, true, true⟩, ⟨.expired, rfl⟩⟩, ⟨.kill 8 .group, ()⟩, ⟨.wait, ()⟩,
    ⟨.abortStdout, ()⟩, ⟨.abortStderr, ()⟩]

/-- A run that times out while uv runs has its group killed. -/
theorem group_killed_iff_running :
    ∃ u, (ledger sampleCrates (sampleCall timeoutRunning (.error .timeoutOutcomeUnknown) true)).uv
      = some u ∧ u.killed = some .group := by
  have hwatch : Reaches (ChildProcess.watch endings ⟨⟨8, false⟩, none, none, none⟩) timeoutRunning
      (.done (.error .timeoutOutcomeUnknown)) :=
    ChildProcess.reaches_expired (by decide) (.step (.step (.step (.step (.refl _)))))
  have h := sample_returned true hwatch (by simp [timeoutRunning, ChildProcess.heeds])
  exact ⟨_, rfl, (group_killed_iff _ _ h _ List.mem_cons_self _ rfl .timeoutOutcomeUnknown
    (by decide) (.inr rfl)).mpr rfl⟩

/-- uv exits and is waited for, a process of its group keeps both streams open, and the deadline
passes. -/
def timeoutReaped : Trace ChildProcess.Ans :=
  [⟨.select ⟨true, true, true⟩, ⟨.exited (.exited 0), rfl⟩⟩,
    ⟨.select ⟨false, true, true⟩, ⟨.expired, rfl⟩⟩,
    ⟨.wait, ()⟩, ⟨.abortStdout, ()⟩, ⟨.abortStderr, ()⟩]

/-- **A group that survives its run.**  uv has exited, a process of its group still has the streams
at the deadline, and the run ends as timed out, with the permit free again and no kill sent. -/
theorem group_survives :
    ¬ ∀ (crates : Crates) (runner : DeployRunner) (pool : Pool Permits RunCall),
      (runner.runCancelled crates).behaviour.Reachable ⟨1, 0⟩ pool →
      ∀ c ∈ pool.procs, ∀ u, (ledger crates c).uv = some u →
        ∀ e ∈ cutShort, Sent c (.error e) → u.killed = some .group := by
  intro hall
  have hwatch : Reaches (ChildProcess.watch endings ⟨⟨8, false⟩, none, none, none⟩) timeoutReaped
      (.done (.error .timeoutOutcomeUnknown)) :=
    ChildProcess.reaches_exited rfl (ChildProcess.reaches_expired (by decide)
      (.step (.step (.step (.refl _)))))
  have h := sample_returned true hwatch (by simp [timeoutReaped, ChildProcess.heeds])
  have hkilled := hall _ _ _ h _ List.mem_cons_self _ rfl .timeoutOutcomeUnknown (by decide)
    (.inr rfl)
  exact absurd hkilled (by decide)

end Deploys
