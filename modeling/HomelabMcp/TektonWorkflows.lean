import HomelabMcp.TektonRuns

/-!
# Workflows and mutations of the Tekton client

The workflows of a repository are read from the files of its default branch; a workflow whose
events name `incoming` can be triggered.  `dispatch` and `rerun` trigger one through
Pipelines-as-Code, `cancel` patches a PipelineRun.

The parsers of YAML and Base64 and the digest are parameters (`WorkflowCrates`).
-/

namespace Tekton

open Interaction
open Json (Value)
open Text (Bytes)
open WebUrl (Url)

/-- The bounds of workflows. -/
def maxWorkflowFiles : Nat := 32
def maxWorkflowFileBytes : Nat := 256 * 1024
def maxWorkflowTotalBytes : Nat := 4 * 1024 * 1024
def maxWorkflowDocuments : Nat := 32

/-- The third-party functions for workflows: `yamlDocuments` are the documents of a text as JSON
values, without one for a document that cannot be read. -/
structure WorkflowCrates extends Crates where
  yamlDocuments : String → List (Option Value)
  decodeBase64 : String → Option Bytes
  sha256 : Bytes → Bytes
  encodeUrlSafe : Bytes → String

/-- A client with all it needs for workflows and mutations. -/
structure PacClient extends TektonClient where
  forgejoToken : String
  pacOrigin : Url
  pacSecret : String

/-- A workflow. -/
structure Workflow where
  id : String
  repository : String
  definition : String
  path : String
  revision : String
  events : List String
  triggerable : Bool
  deriving DecidableEq

/-- `bounded_text`. -/
def boundedText (value : String) (maximum : Nat) : Bool := validText value maximum

/-- `trim_matches`: without these characters at both ends. -/
def trimMatches (drop : Char → Bool) (s : String) : String :=
  String.ofList ((s.toList.dropWhile drop).rdropWhile drop)

/-- A single or a double quote. -/
def isQuote (c : Char) : Bool := c.toNat == 0x27 || c.toNat == 0x22

/-- The name of a definition, or what its names are generated from. -/
def definitionOf (document : Value) : Option String :=
  let metadata := document.field "metadata"
  let generated := (metadata.field "generateName").asStr.map fun value =>
    String.ofList (value.toList.rdropWhile (· == '-'))
  ((metadata.field "name").asStr <|> generated).filter (!·.isEmpty)

/-- The events of a definition, in order and without repetitions. -/
def eventsOf (document : Value) : Except Error (List String) :=
  let annotations := (document.field "metadata").field "annotations"
  let text := ((annotations.field "pipelinesascode.tekton.dev/on-event").asStr <|>
    (annotations.field "pipelinesascode.tekton.dev/event").asStr).getD ""
  let events := ((Text.split (trimMatches (fun c => c == '[' || c == ']') text) ',').map fun event =>
    trimMatches isQuote (Text.trim event)).filter (!·.isEmpty)
  if events.length > 20 ∨ events.any (fun event => !boundedText event 64) then
    .error .invalidResponse
  else .ok ((events.insertionSort (· ≤ ·)).destutter (· ≠ ·))

/-- The workflow of a document; other documents than PipelineRuns have none. -/
def parseWorkflow (crates : WorkflowCrates) (repository : Repository) (revision path : String)
    (index : Nat) (document : Value) : Except Error (Option Workflow) := do
  if (document.field "kind").asStr ≠ some "PipelineRun" then .ok none
  else
    let definition ← okOr .invalidResponse (definitionOf document)
    if !boundedText definition 253 then .error .invalidResponse
    else
      let events ← eventsOf document
      let digest := crates.sha256 (repository.id ++ "\x00" ++ revision ++ "\x00" ++ path ++ "\x00" ++
        toString index ++ "\x00" ++ definition).toUTF8.toList
      let workflow : Workflow := {
        id := "workflow/" ++ crates.encodeUrlSafe digest
        repository := repository.id
        definition := definition
        path := path
        revision := revision
        events := events
        triggerable := events.any (· == "incoming") }
      .ok (some workflow)

/-- The workflows of the documents from an index on. -/
def parseDocuments (crates : WorkflowCrates) (repository : Repository) (revision path : String) :
    Nat → List (Option Value) → Except Error (List Workflow)
  | _, [] => .ok []
  | index, document :: rest => do
      if index ≥ maxWorkflowDocuments then .error .invalidResponse
      else
        let document ← okOr .invalidResponse document
        let workflow ← parseWorkflow crates repository revision path index document
        let workflows ← parseDocuments crates repository revision path (index + 1) rest
        .ok (workflow.toList ++ workflows)

/-- `parse_workflows`. -/
def parseWorkflows (crates : WorkflowCrates) (repository : Repository) (revision path : String)
    (bytes : Bytes) : Except Error (List Workflow) := do
  let text ← okOr .invalidResponse (Text.decode bytes)
  parseDocuments crates repository revision path 0 (crates.yamlDocuments text)

/-- The paths of the workflow files in a listing. -/
def workflowFiles (listing : Value) : Except Error (List String) := do
  let entries ← okOr .invalidResponse listing.asArray
  let files := ((entries.filter fun entry => (entry.field "type").asStr == some "file").filterMap
    fun entry => (entry.field "path").asStr).filter fun path =>
      ".tekton/".toList.isPrefixOf path.toList && decide (path.utf8ByteSize ≤ 512) &&
        (".yaml".toList.isSuffixOf path.toList || ".yml".toList.isSuffixOf path.toList)
  if files.length > maxWorkflowFiles then .error .invalidResponse else .ok files

/-- The bytes of a file from the answer that carries it. -/
def fileBytes (crates : WorkflowCrates) (content : Value) : Except Error Bytes := do
  if (content.field "encoding").asStr ≠ some "base64" then .error .invalidResponse
  else
    let encoded ← okOr .invalidResponse (content.field "content").asStr
    let bytes ← okOr .invalidResponse
      (crates.decodeBase64 (String.ofList (encoded.toList.filter (· ≠ '\n'))))
    if bytes.length > maxWorkflowFileBytes then .error .invalidResponse else .ok bytes

/-- The default branch of a repository. -/
def defaultBranch (metadata : Value) : Except Error String := do
  let revision ← okOr .invalidResponse (metadata.field "default_branch").asStr
  if boundedText revision 512 then .ok revision else .error .invalidResponse

namespace PacClient

variable (crates : WorkflowCrates) (client : PacClient)

/-- `forgejo_url`. -/
def forgejoUrl (segments : List (List Char)) (query : List (String × String)) : Url :=
  (client.forgejoOrigin.setSegments segments).extendPairs query

/-- `forgejo_json`. -/
def forgejoJson (segments : List (List Char)) (query : List (String × String)) :
    TektonCall Value := do
  let bytes ← httpBytes .read maxResponseBytes
    ⟨.get, client.forgejoUrl segments query, client.forgejoToken, none⟩
  answer (parsed crates.toCrates .read bytes)

/-- The path of a repository in the API. -/
def repositorySegments (repository : Repository) : List (List Char) :=
  ["api".toList, "v1".toList, "repos".toList, repository.owner.toList, repository.name.toList]

/-- The path of a file of a repository in the API. -/
def contentSegments (repository : Repository) (path : String) : List (List Char) :=
  repositorySegments repository ++ ["contents".toList] ++ Text.pieces (· == '/') path.toList

/-- The workflows of the files that are left, after so many bytes. -/
def fileWorkflows (repository : Repository) (revision : String) :
    List String → Nat → TektonCall (List Workflow)
  | [], _ => return []
  | path :: files, total => do
      let content ← client.forgejoJson crates (contentSegments repository path) [("ref", revision)]
      let bytes ← answer (fileBytes crates content)
      ensure (total + bytes.length ≤ maxWorkflowTotalBytes) .invalidResponse
      let workflows ← answer (parseWorkflows crates repository revision path bytes)
      let others ← fileWorkflows repository revision files (total + bytes.length)
      return workflows ++ others

/-- `repository_workflows`. -/
def repositoryWorkflows (repository : Repository) : TektonCall (List Workflow) := do
  let metadata ← client.forgejoJson crates (repositorySegments repository) []
  let revision ← answer (defaultBranch metadata)
  let listing ← client.forgejoJson crates
    (repositorySegments repository ++ ["contents".toList, ".tekton".toList]) [("ref", revision)]
  let files ← answer (workflowFiles listing)
  client.fileWorkflows crates repository revision files 0

/-- `triggerable_workflow`. -/
def triggerableWorkflow (repository : Repository) (id : String) : TektonCall Workflow := do
  let workflows ← client.repositoryWorkflows crates repository
  answer (okOr .mutationRejected (workflows.find? fun workflow =>
    workflow.id == id && workflow.triggerable))

/-- What is posted to Pipelines-as-Code; `params` are in the order of their keys. -/
def pacBody (repository : Repository) (definition reference : String)
    (params : List (String × String)) : Value := .object [
  ("branch", .string reference),
  ("namespace", .string client.kubeNamespace),
  ("params", .object (params.map fun param => (param.1, .string param.2))),
  ("pipelinerun", .string definition),
  ("repository", .string repository.crName),
  ("secret", .string client.pacSecret)]

/-- The request that triggers a workflow; it carries no bearer token. -/
def pacRequest (repository : Repository) (definition reference : String)
    (params : List (String × String)) : Request where
  method := .post
  url := client.pacOrigin.join "incoming".toList
  token := ""
  body := some (client.pacBody repository definition reference params)

/-- `send_pac`. -/
def sendPac (repository : Repository) (definition reference : String)
    (params : List (String × String)) : TektonCall Unit := do
  let _ ← httpBytes .mutation maxResponseBytes
    (client.pacRequest repository definition reference params)
  return ()

end PacClient

/-- A dispatch. -/
structure WorkflowDispatchCommand where
  repository : String
  workflow : String
  reference : String
  params : List (String × String)

/-- The branch a run was made from. -/
def rerunReference (run : Value) : Except Error String := do
  let reference ← okOr .mutationRejected (branchOf run)
  let reference := match Text.stripPrefix "refs/heads/".toList reference.toList with
    | some rest => String.ofList rest
    | none => reference
  if boundedText reference 512 then .ok reference else .error .mutationRejected

/-- The patch of a cancellation, at the version that was read. -/
def cancelPatch (resourceVersion : String) : Value := .object [
  ("metadata", .object [("resourceVersion", .string resourceVersion)]),
  ("spec", .object [("status", .string "Cancelled")])]

namespace PacClient

variable (crates : WorkflowCrates) (client : PacClient)

/-- `dispatch`. -/
def dispatch (command : WorkflowDispatchCommand) : TektonCall Value := do
  let repository ← client.repository crates.toCrates command.repository
  let workflow ← client.triggerableWorkflow crates repository command.workflow
  client.sendPac repository workflow.definition command.reference command.params
  return .object [("ref", .string command.reference), ("repository", .string repository.id),
    ("status", .string "accepted"), ("workflow", .string workflow.id)]

/-- What `rerun` triggers: the first workflow of the definition that can be triggered. -/
def rerunWorkflow (run : Value) (repository : Repository) : TektonCall Workflow := do
  let definition ← answer (okOr .mutationRejected (workflowName run))
  let workflows ← client.repositoryWorkflows crates repository
  answer (okOr .mutationRejected (workflows.find? fun workflow =>
    workflow.definition == definition && workflow.triggerable))

/-- `rerun`. -/
def rerun (runId : String) : TektonCall Value := do
  let (run, repository) ← client.ownedRun crates.toCrates runId
  let repositoryName ← answer (okOr .notFound (label run repositoryLabel))
  ensure (repository.crName == repositoryName) .notFound
  let workflow ← client.rerunWorkflow crates run repository
  let reference ← answer (rerunReference run)
  client.sendPac repository workflow.definition reference []
  return .object [("repository", .string repository.id), ("source_run_id", .string runId),
    ("status", .string "accepted"), ("workflow", .string workflow.id)]

/-- Where a run is patched. -/
def pipelineRunPath (name : String) : String :=
  "/apis/tekton.dev/v1/namespaces/" ++ client.kubeNamespace ++ "/pipelineruns/" ++ name

/-- `cancel`. -/
def cancel (runId : String) : TektonCall Value := do
  let (run, _) ← client.ownedRun crates.toCrates runId
  ensure (runStatus run == .running) .mutationRejected
  let resourceVersion ← answer (okOr .mutationRejected
    ((run.field "metadata").field "resourceVersion").asStr)
  let name ← answer (namespacedId runId client.kubeNamespace)
  let _ ← TektonClient.kubeJson crates.toCrates client.toTektonClient .patch
    (client.pipelineRunPath name) [] (some (cancelPatch resourceVersion)) .mutation
  return .object [("run_id", .string runId), ("status", .string "cancellation_requested")]

end PacClient

end Tekton
