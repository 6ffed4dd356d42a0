import HomelabMcp.McpResources
import HomelabMcp.MutationRetries

/-!
# Calls of tools

A call names one of four tools and an action of it.  The action is run on its input, and then the
filter of the call is applied to what it has returned.

* `call_ends`: the call does what its action does, and ends with the filtered result.
* `mutation_answered`: so a mutation that has been performed is answered with a tool result exactly
  if there is no filter, or one that does not fail.
* `performed_then_refused`: a deletion that has been performed, and a protocol error.
-/

namespace Mcp

open Interaction
open Json (Value)

/-- The methods of the server that tools call. -/
inductive Handler where
  | logql
  | promql
  | traceql
  | profiles
  | alertInstances
  | listSilences
  | renderDashboard
  | renderPanel
  | tektonRuns
  | tektonRun
  | tektonRunStatus
  | tektonRunWait
  | tektonTasks
  | tektonTaskLogs
  | kubernetesResources
  | kubernetesResource
  | kubernetesPodLogs
  | cephStatus
  | cephMetrics
  | cephOsds
  | cephOsd
  | cephOsdSafeToDestroy
  | cephDevices
  | cephDevice
  | cephFlags
  | cephTasks
  | createSilence
  | kubernetesCronjobTrigger
  | machineCreate
  | tektonDispatch
  | tektonRerun
  | tektonCancel
  | kubernetesWorkloadRestart
  | kubernetesWorkloadScale
  | kubernetesCronjobSuspend
  | cephMarkOsd
  | cephReweightOsd
  | cephScrubOsd
  | machineUpdate
  | machineHostKeyClear
  | machineHostKeyReplace
  | deployRun
  | kubernetesPodDelete
  | cephDestroyOsd
  | cephPurgeOsd
  | machineDelete
  deriving DecidableEq

/-- The actions of each tool. -/
def catalog : List (String × List (String × Handler)) := [
  ("query", [
    ("grafana.logql.query", .logql),
    ("grafana.promql.query", .promql),
    ("grafana.traceql.search", .traceql),
    ("grafana.profile.merge", .profiles),
    ("grafana.alert-instance.list", .alertInstances),
    ("grafana.silence.list", .listSilences),
    ("grafana.render.dashboard", .renderDashboard),
    ("grafana.render.panel", .renderPanel),
    ("tekton.run.list", .tektonRuns),
    ("tekton.run.get", .tektonRun),
    ("tekton.run.status", .tektonRunStatus),
    ("tekton.run.wait", .tektonRunWait),
    ("tekton.task.list", .tektonTasks),
    ("tekton.task.logs", .tektonTaskLogs),
    ("kubernetes.resource_list", .kubernetesResources),
    ("kubernetes.resource_get", .kubernetesResource),
    ("kubernetes.pod_logs", .kubernetesPodLogs),
    ("ceph.status.get", .cephStatus),
    ("ceph.metrics.summary", .cephMetrics),
    ("ceph.osd.list", .cephOsds),
    ("ceph.osd.get", .cephOsd),
    ("ceph.osd.safe-to-destroy", .cephOsdSafeToDestroy),
    ("ceph.device.list", .cephDevices),
    ("ceph.device.get", .cephDevice),
    ("ceph.flags.get", .cephFlags),
    ("ceph.task.list", .cephTasks)]),
  ("create", [
    ("grafana.silence.create", .createSilence),
    ("kubernetes.cronjob_trigger", .kubernetesCronjobTrigger),
    ("machine.create", .machineCreate)]),
  ("execute", [
    ("tekton.workflow.dispatch", .tektonDispatch),
    ("tekton.run.rerun", .tektonRerun),
    ("tekton.run.cancel", .tektonCancel),
    ("kubernetes.workload_restart", .kubernetesWorkloadRestart),
    ("kubernetes.workload_scale", .kubernetesWorkloadScale),
    ("kubernetes.cronjob_suspend", .kubernetesCronjobSuspend),
    ("ceph.osd.mark", .cephMarkOsd),
    ("ceph.osd.reweight", .cephReweightOsd),
    ("ceph.osd.scrub", .cephScrubOsd),
    ("machine.update", .machineUpdate),
    ("machine.host-key.clear", .machineHostKeyClear),
    ("machine.host-key.replace", .machineHostKeyReplace),
    ("deploy.run", .deployRun)]),
  ("destroy", [
    ("kubernetes.pod_delete", .kubernetesPodDelete),
    ("ceph.osd.destroy", .cephDestroyOsd),
    ("ceph.osd.purge", .cephPurgeOsd),
    ("machine.delete", .machineDelete)])]

/-- The handler of an action. -/
def handlerOf (tool action : String) : Option Handler :=
  (catalog.lookup tool).bind fun actions => actions.lookup action

/-- A call of a tool, parsed. -/
structure Request where
  action : String
  input : Value
  filter : Option String

/-- What the MCP crate does with a call, and whether a filter fails on a result. -/
structure Primitives (Input : Handler → Type) (ToolResult : Type) where
  parseArguments : String → Value → Except ServerError Request
  deserialize : (handler : Handler) → Value → Except ServerError (Input handler)
  unknownAction : String → ServerError
  actionToolResult : ToolResult → Option String → Except ServerError ToolResult
  filterFails : String → ToolResult → Prop

/-- What is relied on: only a filter that fails is an error. -/
structure Primitives.Documented {Input : Handler → Type} {ToolResult : Type}
    (crate : Primitives Input ToolResult) : Prop where
  unfiltered : ∀ output, ∃ result, crate.actionToolResult output none = .ok result
  filtered : ∀ output filter, (∃ e, crate.actionToolResult output (some filter) = .error e) ↔
    crate.filterFails filter output

section Calls

variable {Op : Type} {Ans : Op → Type} {Input : Handler → Type} {ToolResult : Type}
variable (crate : Primitives Input ToolResult)
variable (run : (handler : Handler) → Input handler → Fallible Ans ServerError ToolResult)

/-- A call of a tool. -/
def call (name : String) (arguments : Value) : Fallible Ans ServerError ToolResult := do
  let request ← answer (crate.parseArguments name arguments)
  let handler ← answer (okOr (crate.unknownAction request.action) (handlerOf name request.action))
  let input ← answer (crate.deserialize handler request.input)
  let output ← run handler input
  answer (crate.actionToolResult output request.filter)

variable {crate run} {name : String} {arguments : Value} {request : Request} {handler : Handler}
  {input : Input handler} {t : Trace Ans} {output : ToolResult}

/-- **A call does what its action does**, and ends with the result that was filtered. -/
theorem call_ends (hrequest : crate.parseArguments name arguments = .ok request)
    (hhandler : handlerOf name request.action = some handler)
    (hinput : crate.deserialize handler request.input = .ok input)
    (hrun : Reaches (run handler input).run t (.done (.ok output))) :
    Reaches (call crate run name arguments).run t
      (.done (crate.actionToolResult output request.filter)) := by
  unfold call
  rw [hrequest]
  have hcall : Reaches ((run handler input).run >>= ExceptT.bindCont fun output =>
      answer (crate.actionToolResult output request.filter)) t
      (.done (crate.actionToolResult output request.filter)) := hrun.bind_done rfl
  have hhandled : Reaches ((answer (crate.deserialize handler request.input) >>= fun input =>
      run handler input >>= fun output =>
        answer (crate.actionToolResult output request.filter)).run) t
      (.done (crate.actionToolResult output request.filter)) := by
    rw [hinput]
    exact hcall
  have hfound : Reaches ((answer (okOr (crate.unknownAction request.action)
      (handlerOf name request.action)) >>= fun handler =>
        answer (crate.deserialize handler request.input) >>= fun input =>
          run handler input >>= fun output =>
            answer (crate.actionToolResult output request.filter)).run) t
      (.done (crate.actionToolResult output request.filter)) := by
    rw [hhandler]
    exact hhandled
  exact hfound

/-- **Answers to performed actions.**  The action of a call was run to its end with a result.  The
call then ends too, and it ends with a tool result exactly if it has no filter, or one that does
not fail on the result. -/
theorem mutation_answered (hcrate : crate.Documented)
    (hrequest : crate.parseArguments name arguments = .ok request)
    (hhandler : handlerOf name request.action = some handler)
    (hinput : crate.deserialize handler request.input = .ok input)
    (hrun : Reaches (run handler input).run t (.done (.ok output))) :
    ∃ response, (∀ end_, Reaches (call crate run name arguments).run t (.done end_) ↔
        end_ = response) ∧
      ((∃ result, response = .ok result) ↔
        ∀ filter, request.filter = some filter → ¬ crate.filterFails filter output) := by
  have hends := call_ends hrequest hhandler hinput hrun
  refine ⟨crate.actionToolResult output request.filter, ?_, ?_⟩
  · intro end_
    constructor
    · intro hend
      have hsame := hend.unique hends
      injection hsame
    · rintro rfl
      exact hends
  · cases hfilter : request.filter with
    | none =>
        refine iff_of_true (hcrate.unfiltered output) ?_
        intro filter hsome
        cases hsome
    | some filter =>
        have hfails := hcrate.filtered output filter
        have hsplit : (∃ result, crate.actionToolResult output (some filter) = .ok result) ↔
            ¬ ∃ e, crate.actionToolResult output (some filter) = .error e := by
          cases crate.actionToolResult output (some filter) <;> simp
        rw [hsplit, hfails]
        constructor
        · intro h other hother
          rw [← Option.some.inj hother]
          exact h
        · intro h
          exact h filter rfl

end Calls

section Deletion

open Inventory (Uuid)
open Tools (ToolError invalidMachineArguments inventoryToolError)

/-- The input of an action on a machine. -/
structure MachineIdInput where
  machineId : String

/-- A record with one field and no other, which may stand in an array too. -/
def MachineIdInput.ofValue : Value → Option MachineIdInput
  | .object [("machine_id", .string machineId)] => some ⟨machineId⟩
  | .array [.string machineId] => some ⟨machineId⟩
  | _ => none

/-- `Uuid::to_string`: 32 hexadecimal digits in five groups. -/
def uuidText (id : Uuid) : String :=
  let digits (start count : Nat) : List Char :=
    (List.range count).map fun i => Nat.digitChar (id.toNat / 16 ^ (31 - start - i) % 16)
  String.ofList (['-'].intercalate
    [digits 0 8, digits 8 4, digits 12 4, digits 16 4, digits 20 12])

/-- What `machine_delete` uses: the parser of UUIDs, and the result of the MCP crate for a JSON
value. -/
structure MachineTools where
  parseUuid : String → Option Uuid
  jsonResult : Value → Value

/-- What the client gets. -/
def deleteResult (tools : MachineTools) (id : Uuid) : Except Inventory.RepositoryError Unit → Value
  | .ok () => tools.jsonResult
      (.object [("deleted", .bool true), ("machine_id", .string (uuidText id))])
  | .error e => (inventoryToolError e).intoMcpResult

/-- `machine_delete` of a call that is not cancelled. -/
def machineDelete (tools : MachineTools) (input : MachineIdInput) :
    Fallible Inventory.Ans ServerError Value :=
  match tools.parseUuid input.machineId with
  | none => pure invalidMachineArguments.intoMcpResult
  | some id => ExceptT.mk ((Inventory.delete id).run >>= fun result =>
      .done (.ok (deleteResult tools id result)))

/-- The input of an action, as far as it is of the tools for machines. -/
inductive ActionInput where
  | machineId (input : MachineIdInput)
  | other (input : Value)

/-- The actions of a server, of which one is the deletion of a machine. -/
def actions (tools : MachineTools)
    (others : Handler → ActionInput → Fallible Inventory.Ans ServerError Value) :
    Handler → ActionInput → Fallible Inventory.Ans ServerError Value
  | .machineDelete, .machineId input => machineDelete tools input
  | handler, input => others handler input

/-- A crate that reads arguments as they are, and knows the filter `error`, which fails on
everything. -/
def samplePrimitives : Primitives (fun _ => ActionInput) Value where
  parseArguments _ arguments := do
    let action ← okOr (.invalidParams "action") ((arguments.get "action").bind Value.asStr)
    pure ⟨action, arguments.field "input", (arguments.get "filter").bind Value.asStr⟩
  deserialize handler input :=
    if handler = .machineDelete then
      okOr (.invalidParams "input") ((MachineIdInput.ofValue input).map .machineId)
    else .ok (.other input)
  unknownAction action := .invalidParams action
  actionToolResult output filter :=
    if filter = some "error" then .error (.invalidParams "filter failed") else .ok output
  filterFails filter _ := filter = "error"

/-- These primitives behave as documented. -/
theorem samplePrimitives_documented : samplePrimitives.Documented where
  unfiltered output := ⟨output, rfl⟩
  filtered output filter := by
    by_cases h : filter = "error"
    · exact iff_of_true ⟨_, if_pos (congrArg some h)⟩ h
    · refine iff_of_false ?_ h
      intro ⟨e, he⟩
      have hok : samplePrimitives.actionToolResult output (some filter) = .ok output :=
        if_neg fun hsome => h (Option.some.inj hsome)
      rw [hok] at he
      cases he

/-- A parser that knows one id. -/
def sampleTools : MachineTools where
  parseUuid text := if text = "00000000-0000-0000-0000-000000000007" then some 7 else none
  jsonResult output := .object [("structuredContent", output)]

/-- A call that deletes the machine, with a filter. -/
def deletion (filter : String) : Value :=
  .object [("action", .string "machine.delete"), ("filter", .string filter),
    ("input", .object [("machine_id", .string "00000000-0000-0000-0000-000000000007")])]

/-- The statement is sent, and has deleted a row. -/
def deletedTrace : Trace Inventory.Ans :=
  [⟨.connect, true⟩, ⟨.execute ⟨Inventory.deleteSql, [.uuid 7]⟩, .affected 1⟩]

/-- The result of the deletion. -/
def deletedResult : Value := .object [("structuredContent", .object [("deleted", .bool true),
  ("machine_id", .string "00000000-0000-0000-0000-000000000007")])]

/-- A deletion runs to its result. -/
theorem machineDelete_runs :
    Reaches (machineDelete sampleTools ⟨"00000000-0000-0000-0000-000000000007"⟩).run deletedTrace
      (.done (.ok deletedResult)) := by
  have htext : uuidText 7 = "00000000-0000-0000-0000-000000000007" := by decide +kernel
  have hresult : deleteResult sampleTools 7 (.ok ()) = deletedResult := by
    rw [deleteResult, htext]
    rfl
  rw [← hresult]
  exact .step (.step (.refl _))

/-- Its arguments are parsed. -/
theorem deletion_request (filter : String) :
    samplePrimitives.parseArguments "destroy" (deletion filter) = .ok ⟨"machine.delete",
      .object [("machine_id", .string "00000000-0000-0000-0000-000000000007")], some filter⟩ := rfl

/-- So is its input. -/
theorem deletion_input : samplePrimitives.deserialize .machineDelete
    (.object [("machine_id", .string "00000000-0000-0000-0000-000000000007")]) =
      .ok (.machineId ⟨"00000000-0000-0000-0000-000000000007"⟩) := rfl

/-- And its action has the handler. -/
theorem handlerOf_delete : handlerOf "destroy" "machine.delete" = some .machineDelete := by
  decide +kernel

/-- A filter that does not fail: the deletion is answered with a tool result. -/
theorem deletion_answered :
    Reaches (machineDelete sampleTools ⟨"00000000-0000-0000-0000-000000000007"⟩).run deletedTrace
        (.done (.ok deletedResult)) ∧
      ∀ others, ∃ result : Value, Reaches (call samplePrimitives (actions sampleTools others)
        "destroy" (deletion ".structuredContent")).run deletedTrace (.done (.ok result)) := by
  refine ⟨machineDelete_runs, ?_⟩
  intro others
  have hrun : Reaches (actions sampleTools others .machineDelete
      (.machineId ⟨"00000000-0000-0000-0000-000000000007"⟩)).run deletedTrace
        (.done (.ok deletedResult)) := machineDelete_runs
  obtain ⟨response, hends, hanswered⟩ := mutation_answered samplePrimitives_documented
    (deletion_request ".structuredContent") handlerOf_delete deletion_input hrun
  have hnever : ∀ filter, some ".structuredContent" = some filter →
      ¬ samplePrimitives.filterFails filter deletedResult := by
    intro filter hfilter
    obtain rfl := Option.some.inj hfilter
    show ¬ ".structuredContent" = "error"
    decide
  obtain ⟨result, rfl⟩ := hanswered.mpr hnever
  exact ⟨result, (hends _).mpr rfl⟩

/-- **The machine is deleted, and the call is refused**, whatever the other actions do. -/
theorem performed_then_refused :
    Reaches (machineDelete sampleTools ⟨"00000000-0000-0000-0000-000000000007"⟩).run deletedTrace
        (.done (.ok deletedResult)) ∧
      Tools.statements.after .nothing deletedTrace = .performed ∧
      ∀ others, ∃ e, Reaches (call samplePrimitives (actions sampleTools others) "destroy"
        (deletion "error")).run deletedTrace (.done (.error e)) := by
  refine ⟨machineDelete_runs, rfl, ?_⟩
  intro others
  have hrun : Reaches (actions sampleTools others .machineDelete
      (.machineId ⟨"00000000-0000-0000-0000-000000000007"⟩)).run deletedTrace
        (.done (.ok deletedResult)) := machineDelete_runs
  have hends := call_ends (deletion_request "error") handlerOf_delete deletion_input hrun
  exact ⟨_, hends⟩

end Deletion

end Mcp
