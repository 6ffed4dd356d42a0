import HomelabMcp.StableSort
import HomelabMcp.TektonClient

/-!
# Runs and tasks of the Tekton client

What the client shows of a PipelineRun and of a TaskRun, and the calls that read them: `runs`,
`run`, `status` and `tasks`.  Rows of a list are shown newest first, under a limit.

The messages of conditions come from the cluster and are redacted.
-/

namespace Tekton

open Interaction
open Json (Value)

/-- The bounds of a run. -/
def maxFailedTasks : Nat := 20
def maxConditionMessageBytes : Nat := 4096

/-- `annotation`. -/
def annotation (item : Value) (name : String) : Option String :=
  (((item.field "metadata").field "annotations").field name).asStr

/-- The first condition of type `Succeeded`. -/
def condition (item : Value) : Option Value :=
  ((item.field "status").field "conditions").asArray.bind fun conditions =>
    conditions.find? fun condition => (condition.field "type").asStr == some "Succeeded"

/-- The statuses of a run. -/
inductive RunStatus where
  | succeeded
  | cancelled
  | failed
  | running
  deriving DecidableEq

/-- How each is written. -/
def RunStatus.text : RunStatus → String
  | .succeeded => "succeeded"
  | .cancelled => "cancelled"
  | .failed => "failed"
  | .running => "running"

/-- `run_status`. -/
def runStatus (item : Value) : RunStatus :=
  match condition item with
  | none => .running
  | some condition =>
      match (condition.field "status").asStr, (condition.field "reason").asStr with
      | some "True", _ => .succeeded
      | some "False", some reason =>
          if Text.contains (Text.toAsciiLowercase reason) "cancel" then .cancelled else .failed
      | some "False", none => .failed
      | _, _ => .running

/-- The workflow of a run. -/
def workflowName (item : Value) : Option String :=
  label item "pipelinesascode.tekton.dev/original-prname" <|>
    annotation item "pipelinesascode.tekton.dev/original-prname"

/-- Its branch. -/
def branchOf (item : Value) : Option String :=
  annotation item "pipelinesascode.tekton.dev/branch" <|>
    annotation item "pipelinesascode.tekton.dev/source-branch"

/-- The reason of its condition. -/
def reasonOf (item : Value) : Option String :=
  (condition item).bind fun condition => (condition.field "reason").asStr

/-- The names of its parameters. -/
def parameterNames (item : Value) : List String :=
  match ((item.field "spec").field "params").asArray with
  | some params => (params.filterMap fun param => (param.field "name").asStr).take 32
  | none => []

/-- What is shown of a run, if it belongs to the repository and has a name. -/
def normalizeRun (item : Value) (ns : String) (repository : Repository) : Option Value := do
  let crName ← label item repositoryLabel
  if crName ≠ repository.crName then none
  else
    let name ← objectName item
    some (.object [
      ("branch", .ofOption (branchOf item)),
      ("completed_at", .ofOption ((item.field "status").field "completionTime").asStr),
      ("created_at", .ofOption ((item.field "metadata").field "creationTimestamp").asStr),
      ("id", .string (ns ++ "/" ++ name)),
      ("parameter_names", .array ((parameterNames item).map .string)),
      ("reason", .ofOption (reasonOf item)),
      ("repository", .string repository.id),
      ("revision", .ofOption (label item "pipelinesascode.tekton.dev/sha")),
      ("started_at", .ofOption ((item.field "status").field "startTime").asStr),
      ("status", .string (runStatus item).text),
      ("workflow", .string ((workflowName item).getD name))])

/-- `step_status`. -/
def stepStatus (step : Value) : String :=
  if (step.get "terminated").isSome then "terminated"
  else if (step.get "running").isSome then "running"
  else "waiting"

/-- What is shown of a step that has a name. -/
def normalizeStep (step : Value) : Option Value := do
  let name ← (step.field "name").asStr
  some (.object [
    ("name", .string name),
    ("reason", .ofOption (((step.field "terminated").field "reason").asStr.or
      ((step.field "waiting").field "reason").asStr)),
    ("status", .string (stepStatus step))])

/-- `normalize_steps`. -/
def normalizeSteps (item : Value) : List Value :=
  match ((item.field "status").field "steps").asArray with
  | some steps => (steps.filterMap normalizeStep).take 32
  | none => []

/-- What is shown of a task that has a name. -/
def normalizeTask (item : Value) (ns runName : String) : Option Value := do
  let name ← objectName item
  some (.object [
    ("completed_at", .ofOption ((item.field "status").field "completionTime").asStr),
    ("created_at", .ofOption ((item.field "metadata").field "creationTimestamp").asStr),
    ("id", .string (ns ++ "/" ++ name)),
    ("pipeline_task", .ofOption (label item "tekton.dev/pipelineTask")),
    ("reason", .ofOption (reasonOf item)),
    ("run_id", .string (ns ++ "/" ++ runName)),
    ("started_at", .ofOption ((item.field "status").field "startTime").asStr),
    ("status", .string (runStatus item).text),
    ("steps", .array (normalizeSteps item))])

/-- The message of the condition, redacted and cut. -/
def conditionMessage (redactions : List String) (item : Value) : Option String × Bool :=
  match (condition item).bind fun condition => (condition.field "message").asStr with
  | none => (none, false)
  | some message =>
      let message := redactions.foldl
        (fun text secret => Text.replace text secret "[REDACTED]") message
      if message.utf8ByteSize ≤ maxConditionMessageBytes then (some message, false)
      else (some (String.ofList (Text.fit maxConditionMessageBytes message.toList)), true)

/-- A row with the message of the condition. -/
def withMessage (redactions : List String) (item row : Value) : Value :=
  let (message, truncated) := conditionMessage redactions item
  (row.set "condition_message" (.ofOption message)).set "condition_message_truncated"
    (.bool truncated)

/-- What is shown of a task that has failed. -/
def failedTask (redactions : List String) (ns runName : String) (item : Value) : Option Value := do
  let task ← normalizeTask item ns runName
  some ((withMessage redactions item task).set "steps_truncated" (.bool
    (((item.field "status").field "steps").asArray.any fun steps => decide (steps.length > 32))))

/-- What a row is sorted by: the time of creation downwards, none last, then the id. -/
def newestKey (row : Value) : (WithBot String)ᵒᵈ ×ₗ WithBot String :=
  let createdAt : WithBot String := (row.field "created_at").asStr
  let id : WithBot String := (row.field "id").asStr
  toLex (OrderDual.toDual createdAt, id)

/-- `sort_newest`. -/
def sortNewest (rows : List Value) : List Value := StableSort.sortByKey newestKey rows

/-- A query of runs. -/
structure RunListQuery where
  repository : String
  workflow : Option String
  branch : Option String
  revision : Option String
  status : Option String
  limit : UInt16

/-- A query of tasks. -/
structure TaskListQuery where
  runId : String
  limit : UInt16

/-- `branch_matches`. -/
def branchMatches (actual : Option String) (expected : String) : Bool :=
  match actual with
  | none => false
  | some actual => actual == expected || (actual == "main" && expected == "refs/heads/main") ||
      (actual == "refs/heads/main" && expected == "main")

/-- The row has this value, where one is asked for. -/
def fieldMatches (row : Value) (key : String) (wanted : Option String) : Bool :=
  wanted.all fun value => (row.field key).asStr == some value

/-- Which rows a query selects. -/
def RunListQuery.selects (query : RunListQuery) (row : Value) : Bool :=
  fieldMatches row "workflow" query.workflow &&
    query.branch.all (branchMatches (row.field "branch").asStr) &&
    fieldMatches row "revision" query.revision && fieldMatches row "status" query.status

/-- The items of a run: with its label and owned by it. -/
def itemsOfRun (repository runName runUid : String) (items : List Value) : List Value :=
  (items.filter fun item => label item repositoryLabel == some repository).filter fun item =>
    ownedBy item "PipelineRun" runName runUid

namespace TektonClient

variable (crates : Crates) (client : TektonClient)

/-- A repository of the catalog. -/
def repository (id : String) : TektonCall Repository := do
  let catalog ← repositoryCatalog crates client
  answer (match catalog.find? (·.id == id) with
    | some repository => .ok repository
    | none => .error (if catalog.any fun repository =>
          id == client.kubeNamespace ++ "/" ++ repository.crName then .invalidArguments
        else .notFound))

/-- `runs`. -/
def runs (query : RunListQuery) : TektonCall Value := do
  let repository ← repository crates client query.repository
  let path := "/apis/tekton.dev/v1/namespaces/" ++ client.kubeNamespace ++ "/pipelineruns"
  let (items, sourceTruncated) ← kubeList crates client path
    (some (repositoryLabel ++ "=" ++ repository.crName))
  let rows := (items.filterMap fun item =>
    normalizeRun item client.kubeNamespace repository).filter query.selects
  let sorted := sortNewest rows
  let resultTruncated := decide (sorted.length > query.limit.toNat)
  return .object [
    ("mode", .string "list"),
    ("result", .array (sorted.take query.limit.toNat)),
    ("result_truncated", .bool resultTruncated),
    ("result_type", .string "runs"),
    ("source_truncated", .bool sourceTruncated),
    ("truncated", .bool (sourceTruncated || resultTruncated))]

/-- `run`. -/
def run (runId : String) : TektonCall Value := do
  let (run, repository) ← ownedRun crates client runId
  let row ← answer (okOr .invalidResponse (normalizeRun run client.kubeNamespace repository))
  return .object [("mode", .string "get"), ("result", row), ("result_type", .string "run")]

/-- The TaskRuns that carry the label of a run. -/
def taskRuns (runName : String) : TektonCall (List Value × Bool) :=
  kubeList crates client ("/apis/tekton.dev/v1/namespaces/" ++ client.kubeNamespace ++ "/taskruns")
    (some (pipelineRunLabel ++ "=" ++ runName))

/-- `status`. -/
def status (runId : String) : TektonCall Value := do
  let (run, repository) ← ownedRun crates client runId
  let row ← answer (okOr .invalidResponse (normalizeRun run client.kubeNamespace repository))
  let runName ← answer (okOr .invalidResponse (objectName run))
  let runUid ← answer (okOr .invalidResponse (objectUid run))
  let repositoryName ← answer (okOr .notFound (label run repositoryLabel))
  let (items, sourceTruncated) ← taskRuns crates client runName
  let failed := ((itemsOfRun repositoryName runName runUid items).filter fun item =>
    runStatus item == .failed).filterMap (failedTask client.redactions client.kubeNamespace runName)
  let sorted := sortNewest failed
  let resultTruncated := decide (sorted.length > maxFailedTasks)
  return .object [
    ("failed_task_limit", .nat maxFailedTasks.toUInt64),
    ("failed_tasks", .array (sorted.take maxFailedTasks)),
    ("mode", .string "status"),
    ("result", withMessage client.redactions run row),
    ("result_truncated", .bool resultTruncated),
    ("result_type", .string "run_status"),
    ("source_truncated", .bool sourceTruncated),
    ("truncated", .bool (sourceTruncated || resultTruncated))]

/-- `tasks`. -/
def tasks (query : TaskListQuery) : TektonCall Value := do
  let (run, _) ← ownedRun crates client query.runId
  let runName ← answer (okOr .invalidResponse (objectName run))
  let runUid ← answer (okOr .invalidResponse (objectUid run))
  let repositoryName ← answer (okOr .notFound (label run repositoryLabel))
  let (items, sourceTruncated) ← taskRuns crates client runName
  let sorted := sortNewest ((itemsOfRun repositoryName runName runUid items).filterMap fun item =>
    normalizeTask item client.kubeNamespace runName)
  let resultTruncated := decide (sorted.length > query.limit.toNat)
  return .object [
    ("mode", .string "list"),
    ("result", .array (sorted.take query.limit.toNat)),
    ("result_type", .string "tasks"),
    ("truncated", .bool (sourceTruncated || resultTruncated))]

end TektonClient

end Tekton
