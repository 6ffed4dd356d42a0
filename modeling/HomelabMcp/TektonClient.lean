import HomelabMcp.HttpExchange
import HomelabMcp.Interaction
import HomelabMcp.JsonValue
import HomelabMcp.WebUrl

/-!
# The Tekton client

Requests to the Kubernetes API as programs, the paged list, the catalog of repositories, and the
logs of a task.  Each request reads the service token anew, takes a permit and gives it back.

The JSON parser and the parser of repository URLs are parameters (`Crates`).  Runs, workflows and
mutations are left out.
-/

namespace Tekton

open Interaction
open Http (Exchange)
open Json (Value)
open Text (Bytes)
open WebUrl (Url)

/-- The errors of a call to Tekton. -/
inductive Error where
  | invalidArguments
  | capacityExhausted
  | timeout
  | unauthorized
  | notFound
  | queryRejected
  | mutationRejected
  | mutationOutcomeUnknown
  | upstreamUnavailable
  | invalidResponse
  deriving DecidableEq

/-- The bounds of the client, and the labels it reads. -/
def maxResponseBytes : Nat := 4 * 1024 * 1024
def maxLogSteps : Nat := 8
def maxKubeListItems : Nat := 500
def maxKubeListPages : Nat := 10
def repositoryLabel : String := "pipelinesascode.tekton.dev/repository"
def pipelineRunLabel : String := "tekton.dev/pipelineRun"

/-- Whether a request only reads or also acts. -/
inductive OperationKind where
  | read
  | mutation
  deriving DecidableEq

/-- The methods that the client uses. -/
inductive Method where
  | get
  | post
  | patch
  deriving DecidableEq

/-- The third-party functions of the client: the JSON parser, and the parser of URLs, which finds
those with a host and a path. -/
structure Crates where
  parseJson : Bytes → Option Value
  parseUrl : String → Option Url

/-- A request as it is sent. -/
structure Request where
  method : Method
  url : Url
  token : String
  body : Option Value

/-- What a call asks of its surroundings: the file of the service token, permits, and the exchange
of a request. -/
inductive Op where
  | readToken
  | tryAcquire
  | release
  | send (kind : OperationKind) (request : Request)

/-- What each operation answers. -/
abbrev Ans : Op → Type
  | .readToken => Option String
  | .tryAcquire => Bool
  | .release => Unit
  | .send _ _ => Exchange

/-- A call, which may fail. -/
abbrev TektonCall := Fallible Ans Error

/-- What a request that failed on its way says. -/
def operationFailure : OperationKind → Error
  | .read => .upstreamUnavailable
  | .mutation => .mutationOutcomeUnknown

/-- An error of a response that cannot be used. -/
def unusable : OperationKind → Error
  | .read => .invalidResponse
  | .mutation => .mutationOutcomeUnknown

/-- The errors of the reader. -/
def readError (kind : OperationKind) : Http.ReadError → Error
  | .tooLarge => unusable kind
  | .broken => operationFailure kind

/-- What `http_bytes` makes of an exchange. -/
def reply (kind : OperationKind) (limit : Nat) : Exchange → Except Error Bytes
  | .failed => .error (operationFailure kind)
  | .elapsed => .error (match kind with
      | .read => .timeout
      | .mutation => .mutationOutcomeUnknown)
  | .response status body =>
      if status = 401 ∨ status = 403 then .error .unauthorized
      else if status = 404 then .error .notFound
      else if !Http.isSuccess status then .error (match kind with
        | .read => if Http.isClientError status then .queryRejected else .upstreamUnavailable
        | .mutation => if Http.isClientError status then .mutationRejected
            else .mutationOutcomeUnknown)
      else (Http.readLimited limit body).mapError (readError kind)

/-- The body as JSON. -/
def parsed (crates : Crates) (kind : OperationKind) (bytes : Bytes) : Except Error Value :=
  match crates.parseJson bytes with
  | some value => .ok value
  | none => .error (unusable kind)

/-- What `http_json` makes of an exchange. -/
def jsonReply (crates : Crates) (kind : OperationKind) (exchange : Exchange) :
    Except Error Value := do
  parsed crates kind (← reply kind maxResponseBytes exchange)

/-- `http_bytes`: a request under one permit. -/
def httpBytes (kind : OperationKind) (limit : Nat) (request : Request) : TektonCall Bytes := do
  ensure (← ask Op.tryAcquire) .capacityExhausted
  let exchange ← ask (Op.send kind request)
  ask Op.release
  answer (reply kind limit exchange)

/-- A client, with its namespace as the configuration demands it and the origin of the Kubernetes
API, which has no path. -/
structure TektonClient where
  forgejoOrigin : Url
  forgejoOriginText : String
  kubeOrigin : Url
  kubeNamespace : String
  redactions : List String
  kubeNamespace_eq : kubeNamespace = "pipelines-as-code"
  kubeOrigin_root : kubeOrigin.segments = [[]]

/-- The token of the service account, from its file. -/
def serviceToken (content : Option String) : Except Error String :=
  match content with
  | none => .error .upstreamUnavailable
  | some value =>
      if (Text.trim value).isEmpty then .error .upstreamUnavailable else .ok (Text.trim value)

namespace TektonClient

variable (crates : Crates) (client : TektonClient)

/-- The token of the service account. -/
def kubeToken : TektonCall String := do
  answer (serviceToken (← ask Op.readToken))

/-- The URL of a path of the Kubernetes API. -/
def kubeUrl (path : String) (query : List (String × String)) : Url :=
  (client.kubeOrigin.join (path.toList.dropWhile (· == '/'))).extendPairs query

/-- A path is joined without its leading slash. -/
theorem kubeUrl_directory {path : String} {segments : List (List Char)} {first : Char}
    {more rest : List Char} (hfirst : WebUrl.directory segments = first :: more)
    (hslash : first ≠ '/') (hpath : path.toList = '/' :: (WebUrl.directory segments ++ rest))
    (query : List (String × String)) :
    client.kubeUrl path query =
      (client.kubeOrigin.join (WebUrl.directory segments ++ rest)).extendPairs query := by
  rw [kubeUrl, hpath, hfirst]
  simp [hslash]

/-- `kube_json`. -/
def kubeJson (method : Method) (path : String) (query : List (String × String))
    (body : Option Value) (kind : OperationKind) : TektonCall Value := do
  let url := client.kubeUrl path query
  let token ← kubeToken
  let bytes ← httpBytes kind maxResponseBytes ⟨method, url, token, body⟩
  match method with
  | .patch => return .object []
  | .get | .post => answer (parsed crates kind bytes)

/-- `kube_text`, with the token that was used. -/
def kubeText (path : String) (query : List (String × String)) (limit : Nat) :
    TektonCall (Bytes × String) := do
  let url := client.kubeUrl path query
  let token ← kubeToken
  let bytes ← httpBytes .read limit ⟨.get, url, token, none⟩
  return (bytes, token)

end TektonClient

/-- The continuation of a page. -/
def continuationOf (wrapper : Value) : Option String :=
  (((wrapper.field "metadata").field "continue").asStr).filter (!·.isEmpty)

/-- The query of the next page. -/
def listQuery (selector : Option String) (remaining : Nat) (continuation : Option String) :
    List (String × String) :=
  [("limit", toString (min remaining 100))] ++
    (selector.toList.map fun s => ("labelSelector", s)) ++
    continuation.toList.map fun token => ("continue", token)

/-- The items with those of a page that fit. -/
def addPage (items : List Value) (remaining : Nat) (wrapper : Value) : Except Error (List Value) :=
  match (wrapper.field "items").asArray with
  | none => .error .invalidResponse
  | some page => .ok (items ++ page.take remaining)

namespace TektonClient

variable (crates : Crates) (client : TektonClient)

/-- The rest of a list, with the pages that are left. -/
def kubeListFrom (path : String) (selector : Option String) :
    Nat → List Value → Option String → List String → TektonCall (List Value × Bool)
  | 0, items, _, _ => pure (items, true)
  | pages + 1, items, continuation, seen =>
      if maxKubeListItems - items.length = 0 then pure (items, continuation.isSome)
      else do
        let remaining := maxKubeListItems - items.length
        let wrapper ← kubeJson crates client .get path
          (listQuery selector remaining continuation) none .read
        let items ← answer (addPage items remaining wrapper)
        match continuationOf wrapper with
        | none => return (items, false)
        | some token => do
            ensure (!seen.contains token) .invalidResponse
            kubeListFrom path selector pages items (some token) (token :: seen)

/-- `kube_list`. -/
def kubeList (path : String) (selector : Option String) : TektonCall (List Value × Bool) :=
  kubeListFrom crates client path selector maxKubeListPages [] none []

end TektonClient

/-- `object_name`. -/
def objectName (item : Value) : Option String := ((item.field "metadata").field "name").asStr

/-- `object_uid`. -/
def objectUid (item : Value) : Option String := ((item.field "metadata").field "uid").asStr

/-- `label`. -/
def label (item : Value) (name : String) : Option String :=
  (((item.field "metadata").field "labels").field name).asStr

/-- Some owner reference has this kind, name and uid. -/
def ownedBy (item : Value) (kind name uid : String) : Bool :=
  ((item.field "metadata").field "ownerReferences").asArray.any fun owners =>
    owners.any fun owner => (owner.field "kind").asStr == some kind &&
      (owner.field "name").asStr == some name && (owner.field "uid").asStr == some uid

/-- The name in an id `<namespace>/<name>` of the namespace. -/
def namespacedId (id expectedNamespace : String) : Except Error String :=
  match Text.splitOnce ['/'] id.toList with
  | none => .error .invalidArguments
  | some (ns, name) =>
      if ns ≠ expectedNamespace.toList ∨ name.isEmpty ∨ '/' ∈ name then .error .invalidArguments
      else .ok (String.ofList name)

/-- A repository of the catalog. -/
structure Repository where
  id : String
  crName : String
  owner : String
  name : String
  url : String
  deriving DecidableEq

/-- `valid_text`. -/
def validText (value : String) (maximum : Nat) : Bool :=
  !(Text.trim value).isEmpty && value.utf8ByteSize ≤ maximum && Text.noControl value

/-- `valid_repository_component`. -/
def validRepositoryComponent (value : String) : Bool :=
  validText value 253 && value.toList.all fun c => c.isAlphanum || ['-', '.', '_', '~'].contains c

/-- Owner and name of a repository from the path of its URL. -/
def repositoryParts (url : Url) : Option (String × String) :=
  match url.segments.filter fun segment => !segment.isEmpty with
  | [owner, name] => do
      let owner ← Text.decode (WebUrl.percentDecode owner)
      let encoded ← Text.decode (WebUrl.percentDecode name)
      let name := if ".git".toList.isSuffixOf encoded.toList then
        String.ofList (encoded.toList.take (encoded.length - 4)) else encoded
      if validRepositoryComponent owner && validRepositoryComponent name then some (owner, name)
      else none
  | _ => none

/-- `parse_repository`. -/
def parseRepository (crates : Crates) (origin : Url) (originText : String) (item : Value) :
    Option Repository := do
  let crName ← objectName item
  let raw ← ((item.field "spec").field "url").asStr
  let url ← crates.parseUrl raw
  if url.scheme = origin.scheme ∧ url.host = origin.host ∧ url.port = origin.port ∧
      url.query = none ∧ url.fragment = none ∧ url.username.isEmpty ∧ url.password = none then
    let (owner, name) ← repositoryParts url
    some {
      id := owner ++ "/" ++ name
      crName := crName
      owner := owner
      name := name
      url := String.ofList (originText.toList.rdropWhile (· == '/')) ++ "/" ++ owner ++ "/" ++
        name }
  else none

/-- The catalog from the items of a list: no two repositories have one id. -/
def catalogOf (crates : Crates) (client : TektonClient) (items : List Value) :
    Except Error (List Repository) :=
  let repositories := items.filterMap
    (parseRepository crates client.forgejoOrigin client.forgejoOriginText)
  if (repositories.map Repository.id).Nodup then
    .ok (repositories.insertionSort fun a b => a.id ≤ b.id)
  else .error .invalidResponse

namespace TektonClient

variable (crates : Crates) (client : TektonClient)

/-- Where the repositories are listed. -/
def repositoriesPath : String :=
  "/apis/pipelinesascode.tekton.dev/v1alpha1/namespaces/" ++ client.kubeNamespace ++ "/repositories"

/-- `repository_catalog`. -/
def repositoryCatalog : TektonCall (List Repository) := do
  let (items, truncated) ← kubeList crates client client.repositoriesPath none
  if truncated then throw .invalidResponse
  else answer (catalogOf crates client items)

end TektonClient

/-- A query of the logs of a task. -/
structure TaskLogsQuery where
  runId : String
  taskId : String
  step : Option String
  tailLines : UInt16
  maxBytes : UInt32

/-- Name and container of a step that has both. -/
def stepContainer (item : Value) : Option (String × String) := do
  let name ← (item.field "name").asStr
  let container ← (item.field "container").asStr
  return (name, container)

/-- The steps of a task that match the filter. -/
def selectedSteps (step : Option String) (available : List Value) : List (String × String) :=
  (available.filterMap stepContainer).filter fun (name, _) => step.all (· == name)

/-- The text of a step from its bytes: decoded, redacted, cut to the bytes requested. -/
def stepText (redactions : List String) (kubeToken : String) (requested : Nat) (bytes : Bytes) :
    String × Bool :=
  let text := redactions.foldl (fun text secret => Text.replace text secret "[REDACTED]")
    (Text.decodeLossy bytes)
  let text := Text.replace text kubeToken "[REDACTED]"
  if text.utf8ByteSize ≤ requested then (text, false)
  else (String.ofList (Text.fit requested text.toList), true)

/-- The log of one step. -/
structure StepLog where
  step : String
  text : String
  tailTruncated : Bool
  byteTruncated : Bool

/-- The log of a step as it is returned. -/
def StepLog.json (log : StepLog) : Value := .object [
  ("byte_truncated", .bool log.byteTruncated), ("step", .string log.step),
  ("tail_truncated", .bool log.tailTruncated), ("text", .string log.text)]

namespace TektonClient

variable (crates : Crates) (client : TektonClient)

/-- `owned_run`: a run of one of the repositories. -/
def ownedRun (id : String) : TektonCall (Value × Repository) := do
  let name ← answer (namespacedId id client.kubeNamespace)
  let path := "/apis/tekton.dev/v1/namespaces/" ++ client.kubeNamespace ++ "/pipelineruns/" ++ name
  let run ← kubeJson crates client .get path [] none .read
  let repository ← answer (okOr .notFound (label run repositoryLabel))
  let catalog ← repositoryCatalog crates client
  let repository ← answer (okOr .notFound (catalog.find? (·.crName == repository)))
  return (run, repository)

/-- The task as it is read. -/
def taskObject (id : String) : TektonCall Value := do
  let name ← answer (namespacedId id client.kubeNamespace)
  let path := "/apis/tekton.dev/v1/namespaces/" ++ client.kubeNamespace ++ "/taskruns/" ++ name
  kubeJson crates client .get path [] none .read

/-- Where a pod is read. -/
def podPath (podName : String) : String :=
  "/api/v1/namespaces/" ++ client.kubeNamespace ++ "/pods/" ++ podName

/-- `verify_task_pod`. -/
def verifyTaskPod (task : Value) (podName : String) : TektonCall Unit := do
  let taskUid ← answer (okOr .notFound (objectUid task))
  let taskName ← answer (okOr .notFound (objectName task))
  let pod ← kubeJson crates client .get (client.podPath podName) [] none .read
  ensure (ownedBy pod "TaskRun" taskName taskUid) .notFound

/-- The first part of `logs`: the task with the name of its pod, both found to belong to the
run. -/
def verifiedTask (query : TaskLogsQuery) : TektonCall (Value × String) := do
  let (run, _) ← ownedRun crates client query.runId
  let runName ← answer (okOr .invalidResponse (objectName run))
  let runUid ← answer (okOr .invalidResponse (objectUid run))
  let repository ← answer (okOr .notFound (label run repositoryLabel))
  let task ← taskObject crates client query.taskId
  ensure (label task pipelineRunLabel == some runName &&
    label task repositoryLabel == some repository &&
    ownedBy task "PipelineRun" runName runUid) .notFound
  let pod ← answer (okOr .notFound ((task.field "status").field "podName").asStr)
  verifyTaskPod crates client task pod
  return (task, pod)

/-- The query of a request for the log of a container. -/
def logQuery (query : TaskLogsQuery) (container : String) (requested : Nat) :
    List (String × String) :=
  [("container", container), ("tailLines", toString query.tailLines.toNat),
    ("limitBytes", toString requested)]

/-- The logs of the steps while bytes remain, and the bytes that remain then. -/
def stepLogs (query : TaskLogsQuery) (pod : String) :
    List (String × String) → Nat → TektonCall (List StepLog × Nat)
  | [], remaining => return ([], remaining)
  | (name, container) :: steps, remaining =>
      if remaining = 0 then return ([], remaining)
      else do
        let (bytes, kubeToken) ← kubeText client (client.podPath pod ++ "/log")
          (logQuery query container remaining) remaining
        let (text, cut) := stepText client.redactions kubeToken remaining bytes
        let log : StepLog := {
          step := name
          text := text
          tailTruncated := decide (Text.lineCount text ≥ query.tailLines.toNat)
          byteTruncated := decide (bytes.length ≥ remaining) || cut }
        let (logs, left) ← stepLogs query pod steps (remaining - text.utf8ByteSize)
        return (log :: logs, left)

/-- The second part of `logs`: the logs of the selected steps of a verified task. -/
def podLogs (query : TaskLogsQuery) (task : Value) (pod : String) : TektonCall Value := do
  let available ← answer (okOr .invalidResponse ((task.field "status").field "steps").asArray)
  let selected := selectedSteps query.step available
  ensure (!selected.isEmpty) .notFound
  let stepsOmitted := decide (selected.length > maxLogSteps)
  let (logs, remaining) ← stepLogs client query pod (selected.take maxLogSteps)
    query.maxBytes.toNat
  return .object [
    ("max_bytes", .nat query.maxBytes.toUInt64),
    ("mode", .string "logs"),
    ("result", .array (logs.map StepLog.json)),
    ("result_type", .string "task_logs"),
    ("run_id", .string query.runId),
    ("steps_omitted", .bool stepsOmitted),
    ("tail_lines", .nat query.tailLines.toUInt64),
    ("task_id", .string query.taskId),
    ("truncated", .bool (stepsOmitted || remaining == 0 ||
      logs.any fun log => log.tailTruncated || log.byteTruncated))]

/-- `logs`. -/
def logs (query : TaskLogsQuery) : TektonCall Value := do
  let (task, pod) ← verifiedTask crates client query
  podLogs client query task pod

end TektonClient

end Tekton
