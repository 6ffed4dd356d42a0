import HomelabMcp.KubernetesMutations

/-!
# Commands of the Kubernetes tools

The inputs of the tools are validated into commands, and the client checks each command again
before it does anything.

* `validate_eq_ok` of each input: what validation accepts is the command with its defaults, if that
  passes the check of the client.
* `validation_agrees`: the client refuses exactly the commands that validation cannot produce.
-/

namespace Kubernetes

open Interaction
open Json (Value)
open Text (Bytes)

/-- The one error of validation. -/
structure ValidationError where
  deriving DecidableEq

/-- The most labels of a query. -/
def maxSelectors : Nat := 8

/-- `valid_label_segment`. -/
def validLabelSegment (value : String) (emptyAllowed : Bool) : Bool :=
  if value.isEmpty then emptyAllowed
  else value.utf8ByteSize ≤ 63 &&
    value.toList.all (fun c => c.isAlphanum || c == '-' || c == '.' || c == '_') &&
    value.toList.head?.any Char.isAlphanum && value.toList.getLast?.any Char.isAlphanum

/-- `valid_label_key`. -/
def validLabelKey (value : String) : Bool :=
  match Text.splitOnce ['/'] value.toList with
  | some (start, name) => validDnsSubdomain (String.ofList start) 253 &&
      validLabelSegment (String.ofList name) false
  | none => validLabelSegment value false

/-- `valid_label_value`. -/
def validLabelValue (value : String) : Bool := validLabelSegment value true

/-- The input of a query of resources. -/
structure ResourceQueryInput where
  kind : ResourceKind
  ns : Option String
  name : Option String
  labels : List (String × String)
  limit : Option UInt16

/-- `ResourceQueryInput::validate`. -/
def ResourceQueryInput.validate (input : ResourceQueryInput) :
    Except ValidationError ResourceQuery :=
  if input.ns.any (fun ns => !validNamespace ns) ||
      input.name.any (fun name => !validObjectName name) ||
      input.kind.namespaced != input.ns.isSome || input.name.isSome && !input.labels.isEmpty ||
      input.labels.length > maxSelectors ||
      input.labels.any (fun label => !validLabelKey label.1 || !validLabelValue label.2) then
    .error ⟨⟩
  else
    let limit := input.limit.getD 50
    if !(1 ≤ limit && limit ≤ 100) then .error ⟨⟩
    else .ok ⟨input.kind, input.ns, input.name, input.labels, limit⟩

/-- The client's own check of a query. -/
def ResourceQuery.isValid (query : ResourceQuery) : Bool :=
  query.ns.all validNamespace && query.name.all validObjectName &&
    query.kind.namespaced == query.ns.isSome && (query.name.isNone || query.labels.isEmpty) &&
    query.labels.length ≤ maxSelectors &&
    query.labels.all (fun label => validLabelKey label.1 && validLabelValue label.2) &&
    (1 ≤ query.limit && query.limit ≤ 100)

/-- Every kind, in the order of the enumeration. -/
def allResourceKinds : List ResourceKind := [
  .namespace, .node, .deployment, .statefulSet, .daemonSet, .replicaSet, .job, .cronJob, .pod,
  .event, .podMetric, .nodeMetric, .service, .endpointSlice, .ingress, .gateway, .gatewayClass,
  .httpRoute, .networkPolicy, .persistentVolumeClaim, .storageClass, .horizontalPodAutoscaler,
  .podDisruptionBudget, .certificate, .clusterIssuer, .cnpgCluster, .kafka, .kafkaNodePool,
  .kafkaTopic, .cephCluster, .cephFilesystem, .cephBlockPool, .cephObjectStore, .veleroBackup,
  .veleroSchedule, .backupStorageLocation]

/-- The kinds in their order, neighbours without repetitions. -/
def uniqueKinds (kinds : List ResourceKind) : List ResourceKind :=
  (StableSort.sortByKey ResourceKind.ctorIdx kinds).destutter (· ≠ ·)

/-- The input of a listing of capabilities. -/
structure CapabilitiesInput where
  kinds : Option (List ResourceKind)

/-- A listing that was accepted. -/
structure CapabilitiesQuery where
  kinds : List ResourceKind

/-- `CapabilitiesInput::validate`. -/
def CapabilitiesInput.validate (input : CapabilitiesInput) :
    Except ValidationError CapabilitiesQuery :=
  let kinds := input.kinds.getD allResourceKinds
  if kinds.isEmpty || kinds.length > allResourceKinds.length then .error ⟨⟩
  else if (uniqueKinds kinds).length ≠ kinds.length then .error ⟨⟩
  else .ok ⟨kinds⟩

/-- The client's own check of it. -/
def CapabilitiesQuery.isValid (query : CapabilitiesQuery) : Bool :=
  let kinds := uniqueKinds query.kinds
  !kinds.isEmpty && kinds.length == query.kinds.length && kinds.length ≤ allResourceKinds.length

/-- The input of a query of logs. -/
structure PodLogsQueryInput where
  ns : String
  pod : String
  podUid : String
  container : String
  instance_ : PodLogInstance
  tailLines : Option UInt16
  maxBytes : Option UInt32

/-- `PodLogsQueryInput::validate`, with its defaults. -/
def PodLogsQueryInput.validate (input : PodLogsQueryInput) : Except ValidationError PodLogsQuery :=
  let tailLines := input.tailLines.getD 200
  let maxBytes := input.maxBytes.getD 65536
  if !validNamespace input.ns || !validObjectName input.pod || !validDnsLabel input.container ||
      !validUid input.podUid || !(1 ≤ tailLines && tailLines ≤ 1000) ||
      !(1 ≤ maxBytes && maxBytes ≤ 262144) then .error ⟨⟩
  else .ok ⟨input.ns, input.pod, input.podUid, input.container, input.instance_, tailLines,
    maxBytes⟩

/-- The input of a mutation. -/
inductive ExecInput where
  | workloadRestart (cluster : String) (kind : RestartWorkloadKind) (ns name : String)
      (dryRun : Option Bool)
  | workloadScale (cluster : String) (kind : ScalableWorkloadKind) (ns name : String)
      (replicas : UInt32) (dryRun : Option Bool)
  | cronjobSuspend (cluster ns name : String) (suspended : Bool) (dryRun : Option Bool)
  | cronjobTrigger (cluster ns name : String) (dryRun : Option Bool)
  | podDelete (cluster ns name : String) (dryRun : Option Bool)

/-- `ExecInput::validate`. -/
def ExecInput.validate (input : ExecInput) : Except ValidationError ExecCommand :=
  let pair := fun ns name => validNamespace ns && validObjectName name
  match input with
  | .workloadRestart cluster kind ns name dryRun =>
      if validCatalogName cluster && pair ns name then
        .ok (.workloadRestart cluster kind ns name (dryRun.getD false))
      else .error ⟨⟩
  | .workloadScale cluster kind ns name replicas dryRun =>
      if validCatalogName cluster && pair ns name && replicas ≤ 1000 then
        .ok (.workloadScale cluster kind ns name replicas (dryRun.getD false))
      else .error ⟨⟩
  | .cronjobSuspend cluster ns name suspended dryRun =>
      if validCatalogName cluster && pair ns name && validCronjobName name then
        .ok (.cronjobSuspend cluster ns name suspended (dryRun.getD false))
      else .error ⟨⟩
  | .cronjobTrigger cluster ns name dryRun =>
      if validCatalogName cluster && pair ns name && validCronjobName name then
        .ok (.cronjobTrigger cluster ns name (dryRun.getD false))
      else .error ⟨⟩
  | .podDelete cluster ns name dryRun =>
      if validCatalogName cluster && pair ns name then
        .ok (.podDelete cluster ns name (dryRun.getD false))
      else .error ⟨⟩

/-- The input of a query. -/
inductive QueryInput where
  | clusterList
  | capabilityList (cluster : String) (kinds : Option (List ResourceKind))
  | resourceList (cluster : String) (kind : ResourceKind) (ns : Option String)
      (labels : List (String × String)) (limit : Option UInt16)
  | resourceGet (cluster : String) (kind : ResourceKind) (ns : Option String) (name : String)
  | podLogs (cluster : String) (input : PodLogsQueryInput)

/-- A query that was accepted. -/
inductive QueryCommand where
  | clusterList
  | capabilityList (cluster : String) (query : CapabilitiesQuery)
  | resource (cluster : String) (query : ResourceQuery)
  | podLogs (cluster : String) (query : PodLogsQuery)

/-- `QueryInput::validate`. -/
def QueryInput.validate : QueryInput → Except ValidationError QueryCommand
  | .clusterList => .ok .clusterList
  | .capabilityList cluster kinds =>
      if validCatalogName cluster then
        (CapabilitiesInput.validate ⟨kinds⟩).map (.capabilityList cluster)
      else .error ⟨⟩
  | .resourceList cluster kind ns labels limit =>
      if validCatalogName cluster then
        (ResourceQueryInput.validate ⟨kind, ns, none, labels, limit⟩).map (.resource cluster)
      else .error ⟨⟩
  | .resourceGet cluster kind ns name =>
      if validCatalogName cluster then
        (ResourceQueryInput.validate ⟨kind, ns, some name, [], some 1⟩).map (.resource cluster)
      else .error ⟨⟩
  | .podLogs cluster input =>
      if validCatalogName cluster then input.validate.map (.podLogs cluster) else .error ⟨⟩

/-- A resource as the group lists it. -/
structure DiscoveredResource where
  name : String
  namespaced : Bool

/-- An entry of that list. -/
def discoveredResource (resource : Value) : Except Error DiscoveredResource := do
  let name ← okOr .invalidResponse (((resource.get "name").bind Value.asStr).filter fun name =>
    !name.isEmpty && name.utf8ByteSize ≤ 253 && Text.noControl name)
  let namespaced ← okOr .invalidResponse ((resource.get "namespaced").bind Value.asBool)
  return ⟨name, namespaced⟩

/-- The resources of an API group; no two have one name. -/
def parseDiscovery (parser : Bytes → Option Value) (bytes : Bytes) (expectedVersion : String) :
    Except Error (List DiscoveredResource) := do
  let value ← parseJson parser bytes
  if (value.get "groupVersion").bind Value.asStr ≠ some expectedVersion then
    .error .invalidResponse
  else
    let resources ← okOr .invalidResponse ((value.get "resources").bind Value.asArray)
    if resources.length > 1000 then .error .invalidResponse
    else
      let found ← resources.mapM discoveredResource
      if (found.map DiscoveredResource.name).Nodup then .ok found else .error .invalidResponse

/-- Whether a kind is there. -/
structure Capability where
  kind : ResourceKind
  apiVersion : String
  supported : Bool

/-- All of them, with the counts of the listing. -/
structure CapabilityCatalog where
  capabilities : List Capability
  metadata : ListMetadata

/-- What is known of the groups that have been asked for, by their paths; nothing of a group that
the server does not have. -/
abbrev Endpoints : Type := List (String × Option (List DiscoveredResource))

/-- The resources of a group, where the server has it. -/
def discover (parser : Bytes → Option Value) (path version : String) :
    ClientCall (Option (List DiscoveredResource)) := do
  match ← attempt (rawCancelled path .query) with
  | .ok bytes => do
      let resources ← answer (parseDiscovery parser bytes version)
      return some resources
  | .error .queryRejected | .error .notFound | .error .unsupportedApi => return none
  | .error e => throw e

/-- The capabilities of the kinds that are left, and how many groups have been asked for. -/
def capabilitiesFrom (parser : Bytes → Option Value) :
    List ResourceKind → Endpoints → ClientCall (List Capability × Nat)
  | [], endpoints => return ([], endpoints.length)
  | kind :: kinds, endpoints => do
      let (start, version, resourceName) := kind.mapping
      let path := "/" ++ start ++ "/" ++ version
      let endpoints ← match endpoints.lookup path with
        | some _ => pure endpoints
        | none => do
            let resources ← discover parser path version
            pure ((path, resources) :: endpoints)
      let supported := (endpoints.lookup path).join.any fun resources =>
        resources.any fun resource =>
          resource.name == resourceName && resource.namespaced == kind.namespaced
      let (capabilities, pages) ← capabilitiesFrom parser kinds endpoints
      return (⟨kind, kind.apiVersion, supported⟩ :: capabilities, pages)

/-- `capabilities_cancelled`. -/
def capabilitiesCancelled (parser : Bytes → Option Value) (query : CapabilitiesQuery) :
    ClientCall CapabilityCatalog := do
  ensure query.isValid .invalidArguments
  let (capabilities, pages) ← capabilitiesFrom parser query.kinds []
  let count := capabilities.length.toUInt16
  return ⟨capabilities, ⟨pages.toUInt8, count, count, false, false, false, false⟩⟩

/-- What a query for resources returns. -/
inductive QueryResult where
  | resources (list : ResourceList)
  | resource (found : Resource)

/-- The resource of a name. -/
def getCancelled (parser : Bytes → Option Value) (query : ResourceQuery) (name : String) :
    ClientCall Resource := do
  let path ← answer (objectPath query.kind query.ns (some name))
  let bytes ← rawCancelled path .query
  let value ← answer (parseJson parser bytes)
  let found ← answer (resource query.kind value)
  ensure (found.name == name && found.ns == query.ns) .invalidResponse
  return found

/-- `query_cancelled`. -/
def queryCancelled (parser : Bytes → Option Value) (query : ResourceQuery) :
    ClientCall QueryResult := do
  ensure query.isValid .invalidArguments
  match query.name with
  | some name => do
      let found ← getCancelled parser query name
      return .resource found
  | none => do
      let list ← listCancelled parser query
      return .resources list

/-- Validation produces exactly what the check accepts. -/
def Agrees {Input Command : Type} (validate : Input → Except ValidationError Command)
    (isValid : Command → Bool) : Prop :=
  ∀ command, isValid command = true ↔ ∃ input, validate input = .ok command

/-- Validation that fills in defaults and then checks, and can leave any command as it is. -/
theorem Agrees.of_spec {Input Command : Type} {validate : Input → Except ValidationError Command}
    {isValid : Command → Bool} (command : Input → Command) (input : Command → Input)
    (hspec : ∀ i, validate i = if isValid (command i) = true then .ok (command i) else .error ⟨⟩)
    (hinput : ∀ c, command (input c) = c) : Agrees validate isValid := by
  intro c
  constructor
  · intro hvalid
    have hspec := hspec (input c)
    rw [hinput, if_pos hvalid] at hspec
    exact ⟨input c, hspec⟩
  · intro ⟨i, hi⟩
    rw [hspec] at hi
    split_ifs at hi with hvalid
    obtain rfl := Except.ok.inj hi
    exact hvalid

/-- What validation cannot produce fails the check. -/
theorem Agrees.refused {Input Command : Type} {validate : Input → Except ValidationError Command}
    {isValid : Command → Bool} (h : Agrees validate isValid) {command : Command}
    (hnone : ∀ input, validate input ≠ .ok command) : isValid command = false := by
  rw [Bool.eq_false_iff]
  intro hvalid
  obtain ⟨input, hinput⟩ := (h command).mp hvalid
  exact hnone input hinput

/-- The query of an input with its defaults. -/
def ResourceQueryInput.command (input : ResourceQueryInput) : ResourceQuery :=
  ⟨input.kind, input.ns, input.name, input.labels, input.limit.getD 50⟩

/-- Something that fails is not everything that holds. -/
theorem any_not_eq {α : Type} (p : α → Bool) (o : Option α) :
    o.any (fun a => !p a) = !o.all p := by
  cases o with
  | none => rfl
  | some a => rfl

/-- The input is accepted where the client accepts its command. -/
theorem ResourceQueryInput.validate_eq (input : ResourceQueryInput) :
    input.validate = if input.command.isValid = true then .ok input.command else .error ⟨⟩ := by
  have hns := any_not_eq validNamespace input.ns
  have hname := any_not_eq validObjectName input.name
  have hlabels :
      input.labels.any (fun label => !validLabelKey label.1 || !validLabelValue label.2) =
        !input.labels.all (fun label => validLabelKey label.1 && validLabelValue label.2) := by
    rw [List.all_eq_not_any_not, Bool.not_not]
    simp only [Bool.not_and]
  have hname' : input.name.isNone = !input.name.isSome := by cases input.name <;> rfl
  unfold validate ResourceQuery.isValid command
  rw [hns, hname, hlabels, hname']
  dsimp only
  grind

/-- The command of an input. -/
def CapabilitiesInput.command (input : CapabilitiesInput) : CapabilitiesQuery :=
  ⟨input.kinds.getD allResourceKinds⟩

/-- No kinds stay none. -/
theorem uniqueKinds_isEmpty (kinds : List ResourceKind) :
    (uniqueKinds kinds).isEmpty = kinds.isEmpty := by
  have hnil : uniqueKinds kinds = [] ↔ kinds = [] := by
    rw [uniqueKinds, List.destutter_eq_nil, ← List.length_eq_zero_iff, StableSort.sortByKey,
      List.length_insertionSort, List.length_eq_zero_iff]
  rw [Bool.eq_iff_iff, List.isEmpty_iff, List.isEmpty_iff]
  exact hnil

/-- The same of capabilities. -/
theorem CapabilitiesInput.validate_eq (input : CapabilitiesInput) :
    input.validate = if input.command.isValid = true then .ok input.command else .error ⟨⟩ := by
  have hempty := uniqueKinds_isEmpty (input.kinds.getD allResourceKinds)
  unfold validate CapabilitiesQuery.isValid command
  dsimp only
  grind

/-- The command of an input of logs. -/
def PodLogsQueryInput.command (input : PodLogsQueryInput) : PodLogsQuery :=
  ⟨input.ns, input.pod, input.podUid, input.container, input.instance_,
    input.tailLines.getD 200, input.maxBytes.getD 65536⟩

/-- The same of logs. -/
theorem PodLogsQueryInput.validate_eq (input : PodLogsQueryInput) :
    input.validate = if input.command.isValid = true then .ok input.command else .error ⟨⟩ := by
  unfold validate PodLogsQuery.isValid command
  dsimp only
  grind

/-- The command of an input of a mutation. -/
def ExecInput.command : ExecInput → ExecCommand
  | workloadRestart cluster kind ns name dryRun =>
      .workloadRestart cluster kind ns name (dryRun.getD false)
  | workloadScale cluster kind ns name replicas dryRun =>
      .workloadScale cluster kind ns name replicas (dryRun.getD false)
  | cronjobSuspend cluster ns name suspended dryRun =>
      .cronjobSuspend cluster ns name suspended (dryRun.getD false)
  | cronjobTrigger cluster ns name dryRun => .cronjobTrigger cluster ns name (dryRun.getD false)
  | podDelete cluster ns name dryRun => .podDelete cluster ns name (dryRun.getD false)

/-- The same of mutations. -/
theorem ExecInput.validate_eq (input : ExecInput) :
    input.validate = if input.command.isValid = true then .ok input.command else .error ⟨⟩ := by
  cases input with
  | workloadRestart cluster kind ns name dryRun => rfl
  | workloadScale cluster kind ns name replicas dryRun =>
      have hreplicas : decide (replicas ≤ 1000) = decide (replicas.toNat ≤ 1000) := rfl
      simp only [validate, command, ExecCommand.isValid, ExecCommand.cluster, hreplicas,
        Bool.and_assoc]
  | cronjobSuspend cluster ns name suspended dryRun =>
      simp only [validate, command, ExecCommand.isValid, ExecCommand.cluster, Bool.and_assoc]
  | cronjobTrigger cluster ns name dryRun =>
      simp only [validate, command, ExecCommand.isValid, ExecCommand.cluster, Bool.and_assoc]
  | podDelete cluster ns name dryRun => rfl

/-- An input that is validated into a command. -/
def ExecCommand.input : ExecCommand → ExecInput
  | workloadRestart cluster kind ns name dryRun =>
      .workloadRestart cluster kind ns name (some dryRun)
  | workloadScale cluster kind ns name replicas dryRun =>
      .workloadScale cluster kind ns name replicas (some dryRun)
  | cronjobSuspend cluster ns name suspended dryRun =>
      .cronjobSuspend cluster ns name suspended (some dryRun)
  | cronjobTrigger cluster ns name dryRun => .cronjobTrigger cluster ns name (some dryRun)
  | podDelete cluster ns name dryRun => .podDelete cluster ns name (some dryRun)

/-- Both checks of a query of resources agree. -/
theorem resourceQuery_agrees : Agrees ResourceQueryInput.validate ResourceQuery.isValid :=
  .of_spec ResourceQueryInput.command
    (fun query => ⟨query.kind, query.ns, query.name, query.labels, some query.limit⟩)
    ResourceQueryInput.validate_eq fun _ => rfl

/-- Both checks of a query of logs do. -/
theorem podLogsQuery_agrees : Agrees PodLogsQueryInput.validate PodLogsQuery.isValid :=
  .of_spec PodLogsQueryInput.command
    (fun query => ⟨query.ns, query.pod, query.podUid, query.container, query.instance_,
      some query.tailLines, some query.maxBytes⟩)
    PodLogsQueryInput.validate_eq fun _ => rfl

/-- Both checks of capabilities do. -/
theorem capabilitiesQuery_agrees : Agrees CapabilitiesInput.validate CapabilitiesQuery.isValid :=
  .of_spec CapabilitiesInput.command (fun query => ⟨some query.kinds⟩)
    CapabilitiesInput.validate_eq fun _ => rfl

/-- Both checks of mutations do. -/
theorem execCommand_agrees : Agrees ExecInput.validate ExecCommand.isValid :=
  .of_spec ExecInput.command ExecCommand.input ExecInput.validate_eq fun command => by
    cases command <;> rfl

/-- The check of the client for the query of a tool. -/
def QueryCommand.isValid : QueryCommand → Bool
  | clusterList => true
  | capabilityList _ query => query.isValid
  | resource _ query => query.isValid
  | podLogs _ query => query.isValid

/-- What is made of a validated query, where the cluster is valid, is made of one that passes. -/
theorem Agrees.made {Input Query : Type} {validate : Input → Except ValidationError Query}
    {isValid : Query → Bool} (h : Agrees validate isValid) {cluster : String} {input : Input}
    {make : Query → QueryCommand} {command : QueryCommand}
    (hmade : (if validCatalogName cluster = true then (validate input).map make else .error ⟨⟩) =
      .ok command) : ∃ query, isValid query = true ∧ make query = command := by
  split_ifs at hmade with hcluster
  cases hvalidate : validate input with
  | error e =>
      rw [hvalidate] at hmade
      cases hmade
  | ok query =>
      rw [hvalidate] at hmade
      exact ⟨query, (h query).mpr ⟨input, hvalidate⟩, Except.ok.inj hmade⟩

/-- What the input of a tool is validated into passes the check. -/
theorem QueryInput.validate_isValid {input : QueryInput} {command : QueryCommand}
    (h : input.validate = .ok command) : command.isValid = true := by
  cases input with
  | clusterList =>
      obtain rfl := Except.ok.inj h
      rfl
  | capabilityList cluster kinds =>
      obtain ⟨query, hquery, rfl⟩ := capabilitiesQuery_agrees.made h
      exact hquery
  | resourceList cluster kind ns labels limit =>
      obtain ⟨query, hquery, rfl⟩ := resourceQuery_agrees.made h
      exact hquery
  | resourceGet cluster kind ns name =>
      obtain ⟨query, hquery, rfl⟩ := resourceQuery_agrees.made h
      exact hquery
  | podLogs cluster input =>
      obtain ⟨query, hquery, rfl⟩ := podLogsQuery_agrees.made h
      exact hquery

/-- A condition that fails ends the call. -/
theorem ensure_false_bind {α : Type} (e : Error) (f : Unit → ClientCall α) :
    (ensure false e >>= f) = throw e := rfl

/-- **Validation agrees with the check of the client.**  A command passes the check exactly if it is
the result of validating some input; what no input is validated into is refused without any run of
kubectl; and what the input of a tool is validated into passes. -/
theorem validation_agrees (parser : Bytes → Option Value) (client : KubernetesClient)
    (clock : Clock) (sequence : Nat) :
    (Agrees ResourceQueryInput.validate ResourceQuery.isValid ∧
      Agrees PodLogsQueryInput.validate PodLogsQuery.isValid ∧
      Agrees CapabilitiesInput.validate CapabilitiesQuery.isValid ∧
      Agrees ExecInput.validate ExecCommand.isValid) ∧
    (∀ input command, QueryInput.validate input = .ok command → command.isValid = true) ∧
    (∀ query, (∀ input, ResourceQueryInput.validate input ≠ .ok query) →
      queryCancelled parser query = throw .invalidArguments) ∧
    (∀ query, (∀ input, PodLogsQueryInput.validate input ≠ .ok query) →
      client.podLogsCancelled parser query = throw .invalidArguments) ∧
    (∀ query, (∀ input, CapabilitiesInput.validate input ≠ .ok query) →
      capabilitiesCancelled parser query = throw .invalidArguments) ∧
    ∀ command, (∀ input, ExecInput.validate input ≠ .ok command) →
      executeCancelled client clock sequence command = some (throw .mutationRejected) := by
  refine ⟨⟨resourceQuery_agrees, podLogsQuery_agrees, capabilitiesQuery_agrees,
    execCommand_agrees⟩, fun _ _ => QueryInput.validate_isValid, ?_, ?_, ?_, ?_⟩
  · intro query hnone
    rw [queryCancelled, resourceQuery_agrees.refused hnone, ensure_false_bind]
  · intro query hnone
    rw [KubernetesClient.podLogsCancelled, podLogsQuery_agrees.refused hnone, ensure_false_bind]
  · intro query hnone
    rw [capabilitiesCancelled, capabilitiesQuery_agrees.refused hnone, ensure_false_bind]
  · intro command hnone
    rw [executeCancelled, execCommand_agrees.refused hnone]
    rfl

end Kubernetes
