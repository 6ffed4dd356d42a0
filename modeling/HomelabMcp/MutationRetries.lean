import HomelabMcp.DeployRunLaws
import HomelabMcp.ToolError

/-!
# What a client is told to retry

The tools that change machines or run deploys, with the errors they end with.  A machine tool runs
its repository program until it ends or the client cancels it; a deploy tool reads the machine and
calls the deploy runner.

* `retryable_iff` — a tool error keeps the rule that only a call that has certainly done nothing is
  retryable exactly when the call leaves no effect in doubt;
* `cancelled_delete_retryable` — a delete cancelled after its statement was sent breaks the rule.

The parser of UUIDs is a parameter.  The JSON of a successful result is left out.
-/

namespace Tools

open Interaction
open Inventory (Uuid Machine CreateMachine UpdateMachine Repository RepositoryError)
open Deploys (Crates DeployError DeployResult DeployRunner RunCall)

/-- The error of arguments of a machine. -/
def invalidMachineArguments : ToolError :=
  ⟨"invalid_arguments", "Invalid machine arguments.", false⟩

/-- The error of arguments of a deploy. -/
def invalidDeployArguments : ToolError :=
  ⟨"invalid_arguments", "Invalid deploy arguments.", false⟩

/-- The error of an outcome that is not known. -/
def inventoryOutcomeUnknown : ToolError :=
  ⟨"mutation_outcome_unknown", "Machine mutation outcome is unknown.", true⟩

/-- `inventory_tool_error`. -/
def inventoryToolError : RepositoryError → ToolError
  | .validation _ => ⟨"invalid_arguments", "Invalid machine arguments.", false⟩
  | .notFound => ⟨"machine_not_found", "Machine not found.", false⟩
  | .conflict => ⟨"machine_conflict", "Machine conflicts with existing inventory.", false⟩
  | .database => ⟨"inventory_unavailable", "Machine inventory is unavailable.", true⟩

/-- Which errors of a deploy say that it may be tried again. -/
def deployRetryable : DeployError → Bool
  | .busy | .credentialUnavailable | .executionOutcomeUnknown | .timeoutOutcomeUnknown
  | .cancelledOutcomeUnknown | .outputTooLargeOutcomeUnknown => true
  | _ => false

/-- What they say. -/
def deployMessage : DeployError → String
  | .deployNotFound => "Deploy not found."
  | .deployUnavailable => "Deploy is not available through MCP."
  | .missingHostPin => "Machine has no trusted host key pin."
  | .busy => "Another deploy is already active."
  | .cancelled => "Deploy was cancelled before execution."
  | .executionOutcomeUnknown | .cancelledOutcomeUnknown => "Deploy execution outcome is unknown."
  | .timeoutOutcomeUnknown => "Deploy timed out and its outcome is unknown."
  | .outputTooLargeOutcomeUnknown =>
      "Deploy output exceeded its bound and the outcome is unknown."
  | .credentialUnavailable => "Deploy credential service is unavailable."
  | .credentialInvalid => "Deploy credential response was invalid."
  | .invalidOutput => "Deploy returned invalid structured output."
  | .executionRejected => "Deploy execution failed."
  | .invalidConfiguration | .invalidCatalog => "Deploy service is unavailable."

/-- `deploy_tool_error`. -/
def deployToolError (e : DeployError) : ToolError := ⟨e.code, deployMessage e, deployRetryable e⟩

/-- What a tool call ends with. -/
inductive ToolResult where
  | machine (m : Machine)
  | deleted (id : Uuid)
  | deployed (output : DeployResult)
  | error (e : ToolError)

/-- The parts of the server the tools use. -/
structure Server where
  crates : Crates
  parseUuid : String → Option Uuid
  runner : DeployRunner

/-- A call of a tool that changes the inventory. -/
inductive MachineCall where
  | create (input : CreateMachine)
  | update (machineId : String) (input : UpdateMachine)
  | delete (machineId : String)
  | hostKeyClear (machineId : String)
  | hostKeyReplace (machineId hostPublicKey : String)

/-- The work of a call on the inventory, unless its machine id does not parse. -/
def MachineCall.work (server : Server) : MachineCall → Option (Repository ToolResult)
  | create input => some do return .machine (← Inventory.create server.crates.decodeBase64 input)
  | update machineId input => (server.parseUuid machineId).map fun id => do
      return .machine (← Inventory.update id input)
  | delete machineId => (server.parseUuid machineId).map fun id => do
      Inventory.delete id
      return .deleted id
  | hostKeyClear machineId => (server.parseUuid machineId).map fun id => do
      return .machine (← Inventory.clearHostKey id)
  | hostKeyReplace machineId key => (server.parseUuid machineId).map fun id => do
      return .machine (← Inventory.replaceHostKey server.crates.decodeBase64 id key)

/-- The result of a call about a machine. -/
def machineResult : Except RepositoryError ToolResult → ToolResult
  | .ok result => result
  | .error e => .error (inventoryToolError e)

/-- The result of a deploy. -/
def deployResult : Except DeployError DeployResult → ToolResult
  | .ok output => .deployed output
  | .error e => .error (deployToolError e)

/-- What is known of the effect of a call: it was not performed, it was performed and that was seen,
or a statement was sent, or uv spawned, and its success was not seen. -/
inductive Effect where
  | nothing
  | performed
  | inDoubt
  deriving DecidableEq

/-- Follows the statements of a call. -/
def statements : Monitor Inventory.Ans Effect where
  may effect _ := effect = .nothing
  next effect op := match op with
    | .newUuid | .connect => fun _ => effect
    | .fetch _ => fun
        | .row _ => .performed
        | .noRow | .refused _ => .nothing
        | .lost => .inDoubt
    | .execute _ => fun
        | .affected rows => if rows = 0 then .nothing else .performed
        | .refused _ => .nothing
        | .lost => .inDoubt

/-- The effect of a call cancelled while it waits for an operation. -/
def abandoned (effect : Effect) : Inventory.Op → Effect
  | .fetch _ | .execute _ => .inDoubt
  | .newUuid | .connect => effect

/-- uv exited with code 0 and both streams were read to their end. -/
def succeeded (u : ChildProcess.Ledger) : Bool :=
  u.exit.any (·.success) &&
    u.stdout.any (fun s => (ChildProcess.drain s Deploys.maxStdoutBytes).isOk) &&
    u.stderr.any (fun s => (ChildProcess.drain s Deploys.maxStderrBytes).isOk)

/-- The effect of a deploy: what became of uv. -/
def deployEffect (l : Deploys.Ledger) : Effect :=
  match l.uv with
  | none => .nothing
  | some u => if succeeded u then .performed else .inDoubt

/-- A tool call of the server that may change something. -/
inductive ToolCall where
  | machine (call : MachineCall)
  | deployRun (deployId machineId : String)

/-- The ends of a call, with the effect it leaves.  A machine call ends with its work or with the
client's cancellation while it waits.  A deploy call that is cancelled before it has the machine
ends without a tool result; after that its cancellation is the runner's. -/
inductive Ends (server : Server) : ToolCall → Effect → ToolResult → Prop
  | invalidMachine {call : MachineCall} (h : call.work server = none) :
      Ends server (.machine call) .nothing (.error invalidMachineArguments)
  | finished {call : MachineCall} {work : Repository ToolResult} {t : Trace Inventory.Ans}
      {r : Except RepositoryError ToolResult} (hwork : call.work server = some work)
      (h : Reaches work.run t (.done r)) :
      Ends server (.machine call) (statements.after .nothing t) (machineResult r)
  | cancelled {call : MachineCall} {work : Repository ToolResult} {t : Trace Inventory.Ans}
      {op : Inventory.Op} {next : Inventory.Ans op → Program Inventory.Op Inventory.Ans _}
      (hwork : call.work server = some work) (h : Reaches work.run t (.call op next)) :
      Ends server (.machine call) (abandoned (statements.after .nothing t) op)
        (.error inventoryOutcomeUnknown)
  | invalidDeploy {deployId machineId : String} (h : server.parseUuid machineId = none) :
      Ends server (.deployRun deployId machineId) .nothing (.error invalidDeployArguments)
  | noMachine {deployId machineId : String} {id : Uuid} {t : Trace Inventory.Ans}
      {e : RepositoryError} (hid : server.parseUuid machineId = some id)
      (h : Reaches (Inventory.get id).run t (.done (.error e))) :
      Ends server (.deployRun deployId machineId) .nothing (.error (inventoryToolError e))
  | deployed {deployId machineId : String} {id : Uuid} {t : Trace Inventory.Ans}
      {machine : Machine} {pool : ProcessPool.Pool SupervisedTask.Permits RunCall} {c : RunCall}
      {r : Except DeployError DeployResult} (hid : server.parseUuid machineId = some id)
      (hget : Reaches (Inventory.get id).run t (.done (.ok machine)))
      (h : (server.runner.runCancelled server.crates).behaviour.Reachable ⟨1, 0⟩ pool)
      (hc : c ∈ pool.procs) (hrequest : c.request = ⟨deployId, machine⟩)
      (hr : c.caller = .returned r) :
      Ends server (.deployRun deployId machineId) (deployEffect (Deploys.ledger server.crates c))
        (deployResult r)

section Repository

variable {α β : Type}

/-- The end of a repository program: success was performed and seen; an error was not, and leaves
the effect in doubt only as an error of the database. -/
def Settled (effect : Effect) : Except RepositoryError α → Prop
  | .ok _ => effect = .performed
  | .error e => effect ≠ .performed ∧ (effect = .inDoubt → e = .database)

/-- A program that settles from its start. -/
def Settles (x : Repository α) : Prop := statements.wp x.run .nothing Settled

/-- What follows a check settles where each way does. -/
theorem Settles.after_check {check : Except RepositoryError β} {f : β → Repository α}
    (hf : ∀ b, Settles (f b)) : Settles (answer check >>= f) := by
  cases check with
  | error e => exact ⟨nofun, nofun⟩
  | ok b => exact hf b

/-- A statement for at most one row. -/
theorem fetchOptional_spec (statement : Inventory.Statement) :
    statements.wp (Inventory.fetchOptional statement).run .nothing fun effect r =>
      match r with
      | .ok (some _) => effect = .performed
      | .ok none => effect = .nothing
      | .error e => effect ≠ .performed ∧ (effect = .inDoubt → e = .other) := by
  refine ⟨rfl, fun connected => ?_⟩
  cases connected with
  | false => exact ⟨nofun, nofun⟩
  | true =>
      refine ⟨rfl, fun fetched => ?_⟩
      cases fetched with
      | row machine => exact rfl
      | noRow => exact rfl
      | refused code => exact ⟨nofun, nofun⟩
      | lost => exact ⟨nofun, fun _ => rfl⟩

/-- An error of sqlx is mapped; what it leaves in doubt is an error of the database. -/
theorem wp_mapErr {x : Fallible Inventory.Ans Inventory.SqlxError α}
    {Q : Effect → Except RepositoryError α → Prop}
    (h : statements.wp x.run .nothing fun effect r =>
      Q effect (r.mapError Inventory.mapDatabaseError)) :
    statements.wp (Inventory.mapErr Inventory.mapDatabaseError x).run .nothing Q := by
  show statements.wp (x.run >>= fun r => Program.done _) _ _
  rw [Monitor.wp_bind]
  exact h

/-- Fetching a row settles. -/
theorem settles_fetchExisting (statement : Inventory.Statement) :
    Settles (Inventory.fetchExisting statement) := by
  show statements.wp (Inventory.mapErr Inventory.mapDatabaseError _ >>= _).run _ _
  rw [Monitor.wp_run_bind]
  refine wp_mapErr (statements.wp_mono (fetchOptional_spec statement) ?_)
  rintro effect (e | row) h
  · exact ⟨h.1, fun hdoubt => by rw [h.2 hdoubt]; rfl⟩
  · cases row with
    | none =>
        have hnothing : effect = .nothing := h
        subst hnothing
        exact ⟨nofun, nofun⟩
    | some machine => exact h

/-- So does creating a machine. -/
theorem settles_create (decode : String → Option Text.Bytes) (input : CreateMachine) :
    Settles (Inventory.create decode input) := by
  have hinsert : ∀ statement,
      Settles (Inventory.mapErr Inventory.mapDatabaseError (Inventory.fetchOne statement)) := by
    intro statement
    refine wp_mapErr ?_
    show statements.wp (Inventory.fetchOptional statement >>= _).run _ _
    rw [Monitor.wp_run_bind]
    refine statements.wp_mono (fetchOptional_spec statement) ?_
    rintro effect (e | row) h
    · exact ⟨h.1, fun hdoubt => by rw [h.2 hdoubt]; rfl⟩
    · cases row with
      | none =>
          have hnothing : effect = .nothing := h
          subst hnothing
          exact ⟨nofun, nofun⟩
      | some machine => exact h
  refine Settles.after_check fun _ => ?_
  cases input.pinnedHostPublicKey with
  | none => exact ⟨rfl, fun id => hinsert _⟩
  | some key => exact Settles.after_check fun _ => ⟨rfl, fun id => hinsert _⟩

/-- So does deleting one. -/
theorem settles_delete (id : Uuid) : Settles (Inventory.delete id) := by
  show statements.wp (Inventory.mapErr Inventory.mapDatabaseError _ >>= _).run _ _
  rw [Monitor.wp_run_bind]
  refine wp_mapErr ⟨rfl, fun connected => ?_⟩
  cases connected with
  | false => exact ⟨nofun, nofun⟩
  | true =>
      refine ⟨rfl, fun executed => ?_⟩
      cases executed with
      | affected rows =>
          cases rows with
          | zero => exact ⟨nofun, nofun⟩
          | succ n => exact rfl
      | refused code => exact ⟨nofun, nofun⟩
      | lost => exact ⟨nofun, fun _ => rfl⟩

/-- The end of a call's work: a success is no tool error. -/
def CallSettled (effect : Effect) (r : Except RepositoryError ToolResult) : Prop :=
  Settled effect r ∧ ∀ result, r = .ok result → ∀ e, result ≠ .error e

/-- A result around it changes nothing. -/
theorem Settles.wrap {x : Repository α} (hx : Settles x) {f : α → ToolResult}
    (hf : ∀ a e, f a ≠ .error e) :
    statements.wp (x >>= fun a => pure (f a)).run .nothing CallSettled := by
  rw [Monitor.wp_run_bind]
  refine statements.wp_mono hx ?_
  rintro effect (e | a) h
  · exact ⟨h, nofun⟩
  · refine ⟨h, fun result hr => ?_⟩
    rw [← Except.ok.inj hr]
    exact hf a

/-- Every call about a machine settles. -/
theorem work_spec {server : Server} {call : MachineCall} {work : Repository ToolResult}
    (h : call.work server = some work) : statements.wp work.run .nothing CallSettled := by
  cases call with
  | create input =>
      cases h
      exact (settles_create _ _).wrap nofun
  | update machineId input =>
      obtain ⟨id, -, rfl⟩ := Option.map_eq_some_iff.mp h
      exact (Settles.after_check fun _ => settles_fetchExisting _).wrap nofun
  | delete machineId =>
      obtain ⟨id, -, rfl⟩ := Option.map_eq_some_iff.mp h
      exact (settles_delete id).wrap nofun
  | hostKeyClear machineId =>
      obtain ⟨id, -, rfl⟩ := Option.map_eq_some_iff.mp h
      exact (settles_fetchExisting _).wrap nofun
  | hostKeyReplace machineId key =>
      obtain ⟨id, -, rfl⟩ := Option.map_eq_some_iff.mp h
      exact (Settles.after_check fun _ => settles_fetchExisting _).wrap nofun

end Repository

/-- A stream was read to its end within the limit. -/
theorem complete_iff {limit : Nat} {stream : Option ChildProcess.Stream} :
    stream.any (fun s => (ChildProcess.drain s limit).isOk) = true ↔
      ∃ bytes, ChildProcess.Ledger.Complete limit stream bytes := by
  cases stream with
  | none => simp [ChildProcess.Ledger.Complete]
  | some s =>
      cases hd : ChildProcess.drain s limit <;>
        simp [ChildProcess.Ledger.Complete, hd, Except.isOk, Except.toBool]

/-- A run succeeded where `uv` finished with success. -/
theorem succeeded_iff_finished {u : ChildProcess.Ledger} :
    succeeded u = true ↔ ∃ status stdout stderr,
      u.Finished Deploys.endings status stdout stderr ∧ status.success = true := by
  rw [succeeded, Bool.and_eq_true, Bool.and_eq_true, complete_iff, complete_iff,
    Option.any_eq_true]
  constructor
  · rintro ⟨⟨⟨status, hexit, hs⟩, stdout, hout⟩, stderr, herr⟩
    exact ⟨status, stdout, stderr, ⟨hexit, hout, herr⟩, hs⟩
  · rintro ⟨status, stdout, stderr, ⟨hexit, hout, herr⟩, hs⟩
    exact ⟨⟨⟨status, hexit, hs⟩, stdout, hout⟩, stderr, herr⟩

/-- uv succeeded exactly when its run gave bytes; every other end is retryable. -/
theorem uv_result {u : ChildProcess.Ledger} {r : Except DeployError Text.Bytes}
    (h : Deploys.UvEnded u r) :
    (succeeded u = true ∧ ∃ bytes, r = .ok bytes) ∨
      (succeeded u = false ∧ ∃ e, r = .error e ∧ deployRetryable e = true) := by
  rcases h with ⟨hexit, rfl⟩ | ⟨pid, -, ⟨status, stdout, stderr, hfin, hr⟩ | ⟨hr, -, hopen⟩⟩
  · exact .inr ⟨by simp [succeeded, hexit], _, rfl, rfl⟩
  · cases hs : status.success with
    | true =>
        simp only [Deploys.endings, hs, if_true] at hr
        exact .inl ⟨succeeded_iff_finished.mpr ⟨_, _, _, hfin, hs⟩, _, hr⟩
    | false =>
        simp only [Deploys.endings, hs, if_false, Bool.false_eq_true] at hr
        exact .inr ⟨by simp [succeeded, hfin.exit, hs], _, hr, rfl⟩
  · have hno : succeeded u = false := by
      rw [Bool.eq_false_iff]
      intro hyes
      obtain ⟨status, stdout, stderr, hfin, -⟩ := succeeded_iff_finished.mp hyes
      exact hopen _ _ _ hfin
    refine .inr ⟨hno, ?_⟩
    rcases hr with rfl | rfl | rfl | rfl <;> exact ⟨_, rfl, rfl⟩

/-- A returned deploy: nothing was spawned, or uv succeeded and the error, if any, is final, or the
effect is in doubt and the error is retryable. -/
theorem deploy_settled {crates : Crates} {runner : DeployRunner} {c : RunCall}
    (h : (runner.runCancelled crates).Sound c) {e : DeployError}
    (hr : c.caller = .returned (.error e)) :
    deployEffect (Deploys.ledger crates c) = .nothing ∨
      (deployEffect (Deploys.ledger crates c) = .performed ∧ deployRetryable e = false) ∨
      (deployEffect (Deploys.ledger crates c) = .inDoubt ∧ deployRetryable e = true) := by
  rcases Deploys.returned_spec h hr with ⟨-, huv, -⟩ | ⟨output, huv, hr⟩
  · exact .inl (by simp [deployEffect, huv])
  · cases hu : (Deploys.ledger crates c).uv with
    | none => exact .inl (by simp [deployEffect, hu])
    | some u =>
        simp only [Deploys.UvOutcome, hu] at huv
        simp only [deployEffect, hu]
        rcases uv_result huv.2 with ⟨hs, bytes, rfl⟩ | ⟨hs, e', rfl, he'⟩
        · rcases hr with ⟨e', h, -⟩ | ⟨bytes', -, hsys⟩
          · cases h
          · rw [Deploys.systemInfo_error hsys.symm]
            exact .inr (.inl ⟨by simp [hs], rfl⟩)
        · rcases hr with ⟨e'', h, h'⟩ | ⟨bytes, h, -⟩
          · cases h
            cases h'
            exact .inr (.inr ⟨by simp [hs], he'⟩)
          · cases h

/-- The rule and what keeps it, for an effect and a flag that go together. -/
private theorem rule_iff {effect : Effect} {retryable : Bool}
    (hdoubt : effect = .inDoubt → retryable = true)
    (hperformed : effect = .performed → retryable = false) :
    ((effect = .inDoubt → retryable = false) ∧ (retryable = true → effect = .nothing)) ↔
      effect ≠ .inDoubt := by
  cases effect <;> cases retryable <;> simp_all

/-- **What may be retried.**  A call that ends with a tool error keeps the rule — an effect in doubt
is not retryable, and what is retryable has certainly done nothing — exactly when it leaves no
effect in doubt. -/
theorem retryable_iff (server : Server) {call : ToolCall} {effect : Effect} {e : ToolError}
    (h : Ends server call effect (.error e)) :
    ((effect = .inDoubt → e.retryable = false) ∧ (e.retryable = true → effect = .nothing)) ↔
      effect ≠ .inDoubt := by
  generalize hresult : ToolResult.error e = result at h
  cases h with
  | invalidMachine hwork => exact rule_iff nofun nofun
  | invalidDeploy hid => exact rule_iff nofun nofun
  | noMachine hid hrun => exact rule_iff nofun nofun
  | @finished call work t r hwork hrun =>
      obtain ⟨hsettled, hok⟩ := statements.wp_finished hrun (work_spec hwork)
      cases r with
      | ok result => exact absurd hresult.symm (hok result rfl e)
      | error re =>
          cases hresult
          refine rule_iff (fun hdoubt => ?_) fun hperformed => absurd hperformed hsettled.1
          rw [hsettled.2 hdoubt]
          rfl
  | @cancelled call work t op next hwork hrun =>
      cases hresult
      have hnothing : statements.after .nothing t = .nothing :=
        (statements.wp_reaches hrun (work_spec hwork)).1.1
      rw [hnothing]
      refine rule_iff (fun _ => rfl) fun hperformed => ?_
      cases op <;> cases hperformed
  | @deployed deployId machineId id t machine pool c r hid hget hreach hc hrequest hr =>
      cases r with
      | ok output => cases hresult
      | error de =>
          cases hresult
          have hsound := SupervisedTask.Supervisor.sound hreach c hc
          rcases deploy_settled hsound hr with heffect | ⟨heffect, hflag⟩ | ⟨heffect, hflag⟩
          · rw [heffect]
            exact rule_iff nofun nofun
          · rw [heffect]
            exact rule_iff nofun fun _ => hflag
          · rw [heffect]
            exact rule_iff (fun _ => hflag) nofun

/-- The id of a machine. -/
def sampleId : String := "00000000-0000-0000-0000-000000000001"

/-- A server that knows it. -/
def sampleServer : Server where
  crates := Deploys.sampleCrates
  parseUuid text := if text = sampleId then some 1 else none
  runner := Deploys.sampleRunner

/-- What the server does to delete it. -/
private theorem sample_work :
    (MachineCall.delete sampleId).work sampleServer = some (do
      Inventory.delete 1
      return .deleted 1) := rfl

/-- A delete that got no connection is retryable, and has done nothing. -/
theorem retryable_iff_unconnected :
    ∃ effect e, Ends sampleServer (.machine (.delete sampleId)) effect (.error e) ∧
      e.retryable = true ∧ (e.retryable = true → effect = .nothing) := by
  have h : Ends sampleServer (.machine (.delete sampleId)) .nothing
      (.error (inventoryToolError .database)) :=
    .finished (t := [⟨.connect, false⟩]) (r := .error .database) sample_work (.step (.refl _))
  exact ⟨_, _, h, rfl, ((retryable_iff sampleServer h).mpr (by decide)).2⟩

/-- **A delete that may be retried in doubt.**  The client cancels while the database has the
statement. -/
theorem cancelled_delete_retryable :
    ¬ ∀ (server : Server) (call : ToolCall) (effect : Effect) (e : ToolError),
      Ends server call effect (.error e) →
      (effect = .inDoubt → e.retryable = false) ∧ (e.retryable = true → effect = .nothing) := by
  intro hall
  have h : Ends sampleServer (.machine (.delete sampleId)) .inDoubt
      (.error inventoryOutcomeUnknown) :=
    .cancelled (t := [⟨.connect, true⟩]) sample_work (.step (.refl _))
  exact absurd ((hall _ _ _ _ h).1 rfl) (by decide)

end Tools
