import HomelabMcp.JsonValue
import HomelabMcp.KubernetesResources
import HomelabMcp.KubernetesRunner

/-!
# Normalized resources

`resource` reads an object of the API into a few reviewed fields.  A text is taken where it is a
short token, a number where it is a natural one; what is not of that shape is left out.

* `resource_identity`: a normalized resource has the kind asked for, a valid name, and a valid
  namespace exactly if its kind is namespaced.
-/

namespace Kubernetes

open Interaction
open Json (Value)

/-- A map from texts to texts, in the order of the keys. -/
structure Details where
  entries : List (String × String)
  ordered : (entries.map Prod.fst).Pairwise (· < ·)
  deriving DecidableEq

namespace Details

/-- No details. -/
def empty : Details := ⟨[], List.Pairwise.nil⟩

/-- `BTreeMap::insert` on the ordered entries. -/
def insertEntry (key value : String) : List (String × String) → List (String × String)
  | [] => [(key, value)]
  | (k, v) :: rest =>
      if key < k then (key, value) :: (k, v) :: rest
      else if key = k then (key, value) :: rest
      else (k, v) :: insertEntry key value rest

/-- No other key is added. -/
theorem mem_insertEntry {key value k : String} {entries : List (String × String)}
    (h : k ∈ (insertEntry key value entries).map Prod.fst) :
    k = key ∨ k ∈ entries.map Prod.fst := by
  induction entries with
  | nil => simpa [insertEntry] using h
  | cons entry rest ih =>
      unfold insertEntry at h
      split_ifs at h with hlt heq
      · simpa using h
      · rcases List.mem_cons.mp h with rfl | h
        · exact .inl rfl
        · exact .inr (List.mem_cons_of_mem _ h)
      · rcases List.mem_cons.mp h with rfl | h
        · exact .inr List.mem_cons_self
        · exact (ih h).imp_right (List.mem_cons_of_mem _)

/-- The order is kept. -/
theorem insertEntry_ordered {entries : List (String × String)} (key value : String)
    (h : (entries.map Prod.fst).Pairwise (· < ·)) :
    ((insertEntry key value entries).map Prod.fst).Pairwise (· < ·) := by
  induction entries with
  | nil => simp [insertEntry]
  | cons entry rest ih =>
      obtain ⟨hfirst, hrest⟩ := List.pairwise_cons.mp h
      unfold insertEntry
      split_ifs with hlt heq
      · refine List.pairwise_cons.mpr ⟨fun k hk => ?_, h⟩
        rcases List.mem_cons.mp hk with rfl | hk
        · exact hlt
        · exact hlt.trans (hfirst k hk)
      · subst heq
        exact h
      · refine List.pairwise_cons.mpr ⟨fun k hk => ?_, ih hrest⟩
        rcases mem_insertEntry hk with rfl | hk
        · exact lt_of_le_of_ne (not_lt.mp hlt) (Ne.symm heq)
        · exact hfirst k hk

/-- An entry set. -/
def insert (details : Details) (key value : String) : Details :=
  ⟨insertEntry key value details.entries, insertEntry_ordered key value details.ordered⟩

/-- An entry read. -/
def get (details : Details) (key : String) : Option String := details.entries.lookup key

/-- An entry removed. -/
def remove (details : Details) (key : String) : Details :=
  ⟨details.entries.filter fun entry => entry.1 != key,
    details.ordered.sublist (List.filter_sublist.map Prod.fst)⟩

end Details

/-- `token`. -/
def token (value : String) (max : Nat) : Bool :=
  !value.isEmpty && value.utf8ByteSize ≤ max && value.toList.all fun c =>
    c.isAlphanum || c == '-' || c == '.' || c == '_' || c == '/' || c == ':'

/-- A member that is such a text. -/
def tokenText (value : Option Value) (max : Nat) : Option String :=
  (value.bind Value.asStr).filter fun v => token v max

/-- `safe`. -/
def safe (value : String) (max : Nat) : Bool := value.utf8ByteSize ≤ max && Text.noControl value

/-- The number that digits write. -/
def decimal (digits : List Char) : Nat := digits.foldl (fun n c => 10 * n + (c.toNat - 48)) 0

/-- The exponent of a decimal number: nothing, or `e` with an integer. -/
def exponent : List Char → Option Int
  | [] => some 0
  | e :: rest =>
      let (sign, digits) : Int × List Char := match rest with
        | '-' :: digits => (-1, digits)
        | '+' :: digits => (1, digits)
        | digits => (1, digits)
      if (e == 'e' || e == 'E') && !digits.isEmpty && digits.all Char.isDigit then
        some (sign * decimal digits)
      else none

/-- `parse::<f64>` finds a finite number.  From half a unit above the greatest double on, a
number is rounded to infinity; a text of at most 64 characters is below that without exponent. -/
def finiteFloat (text : List Char) : Bool :=
  let unsigned := match text with
    | '+' :: rest => rest
    | '-' :: rest => rest
    | rest => rest
  let whole := unsigned.takeWhile Char.isDigit
  let (fraction, rest) := match unsigned.dropWhile Char.isDigit with
    | '.' :: rest => (rest.takeWhile Char.isDigit, rest.dropWhile Char.isDigit)
    | rest => ([], rest)
  let digits := decimal (whole ++ fraction)
  !(whole ++ fraction).isEmpty && (exponent rest).any fun e =>
    let power : Int := e - fraction.length
    digits == 0 || (power < 400 && digits * 10 ^ power.toNat < 2 ^ 1024 - 2 ^ 970)

/-- The suffixes of quantities. -/
def quantitySuffixes : List String :=
  ["", "n", "u", "m", "k", "K", "M", "G", "T", "P", "E", "Ki", "Mi", "Gi", "Ti", "Pi", "Ei"]

/-- A number, alone or with a suffix. -/
def quantity (value : String) : Bool :=
  !value.isEmpty && value.utf8ByteSize ≤ 64 && Text.noControl value &&
    (finiteFloat value.toList ||
      (finiteFloat (value.toList.takeWhile fun c => !c.isAlpha) &&
        quantitySuffixes.contains
          (String.ofList (value.toList.dropWhile fun c => !c.isAlpha))))

example : ["1e3", "-.5", "10Mi", "1E", "1e999", "1.5.", "Ki", "0e999999"].map quantity =
    [true, true, true, true, false, false, false, true] := by decide +kernel

namespace Details

variable (details : Details) (key : String) (value : Option Value)

/-- `add_text`. -/
def addText (max : Nat) : Details :=
  match (value.bind Value.asStr).filter fun v => safe v max with
  | some v => details.insert key v
  | none => details

/-- The start of a text that fits, and whether that is not all of it. -/
def addTruncatedText (max : Nat) : Details × Bool :=
  match value.bind Value.asStr with
  | some v =>
      let truncated := String.ofList (Text.fit max v.toList)
      if Text.noControl truncated then
        (details.insert key truncated, decide (truncated.utf8ByteSize < v.utf8ByteSize))
      else (details, false)
  | none => (details, false)

/-- `add_token`. -/
def addToken (max : Nat) : Details :=
  match tokenText value max with
  | some v => details.insert key v
  | none => details

/-- `add_quantity`. -/
def addQuantity : Details :=
  match (value.bind Value.asStr).filter quantity with
  | some v => details.insert key v
  | none => details

/-- `add_number`. -/
def addNumber : Details :=
  match value.bind Value.asU64 with
  | some n => details.insert key (toString n.toNat)
  | none => details

/-- `add_bool`. -/
def addBool : Details :=
  match value.bind Value.asBool with
  | some b => details.insert key (toString b)
  | none => details

end Details

/-- A condition as it is returned. -/
structure Condition where
  conditionType : String
  status : String
  reason : Option String
  lastTransitionTime : Option String
  deriving DecidableEq

/-- The array under a pointer, or nothing. -/
def arrayAt (value : Value) (path : String) : List Value :=
  ((value.pointer path).bind Value.asArray).getD []

/-- One condition. -/
def normalizeCondition (item : Value) : Option Condition := do
  let conditionType ← tokenText (item.get "type") 128
  let status ← tokenText (item.get "status") 32
  return {
    conditionType := conditionType
    status := status
    reason := tokenText (item.get "reason") 128
    lastTransitionTime := tokenText (item.get "lastTransitionTime") 64 }

/-- `normalize_conditions`: the first twenty. -/
def normalizeConditions (value : Value) : List Condition :=
  ((arrayAt value "/status/conditions").take 20).filterMap normalizeCondition

/-- The kinds of containers. -/
inductive ContainerKind where
  | init
  | application
  | ephemeral
  deriving DecidableEq

/-- The status of a container as it is returned. -/
structure ContainerStatus where
  kind : ContainerKind
  name : String
  ready : Option Bool
  started : Option Bool
  restartCount : UInt64
  state : String
  reason : Option String
  exitCode : Option Int
  signal : Option Int
  startedAt : Option String
  finishedAt : Option String
  lastReason : Option String
  lastExitCode : Option Int
  lastSignal : Option Int
  lastStartedAt : Option String
  lastFinishedAt : Option String
  deriving DecidableEq

/-- All of them, with their counts. -/
structure ContainerStatuses where
  count : UInt16
  returned : UInt16
  truncated : Bool
  items : List ContainerStatus
  deriving DecidableEq

/-- An integer of 32 bits. -/
def signedI32 (value : Option Value) : Option Int :=
  (value.bind Value.asI64).filter fun n => -2 ^ 31 ≤ n && n < 2 ^ 31

/-- The state of a container and its description. -/
def containerState (value : Value) : String × Option Value :=
  let current := value.get "state"
  match current.bind (·.get "running"), current.bind (·.get "waiting"),
      current.bind (·.get "terminated") with
  | some running, _, _ => ("running", some running)
  | none, some waiting, _ => ("waiting", some waiting)
  | none, none, some terminated => ("terminated", some terminated)
  | none, none, none => ("unknown", none)

/-- `normalize_container_status`. -/
def normalizeContainerStatus (kind : ContainerKind) (value : Value) : Option ContainerStatus := do
  let name ← tokenText (value.get "name") 253
  let (state, description) := containerState value
  let last := value.pointer "/lastState/terminated"
  return {
    kind := kind
    name := name
    ready := (value.get "ready").bind Value.asBool
    started := (value.get "started").bind Value.asBool
    restartCount := ((value.get "restartCount").bind Value.asU64).getD 0
    state := state
    reason := tokenText (description.bind (·.get "reason")) 128
    exitCode := signedI32 (description.bind (·.get "exitCode"))
    signal := signedI32 (description.bind (·.get "signal"))
    startedAt := tokenText (description.bind (·.get "startedAt")) 64
    finishedAt := tokenText (description.bind (·.get "finishedAt")) 64
    lastReason := tokenText (last.bind (·.get "reason")) 128
    lastExitCode := signedI32 (last.bind (·.get "exitCode"))
    lastSignal := signedI32 (last.bind (·.get "signal"))
    lastStartedAt := tokenText (last.bind (·.get "startedAt")) 64
    lastFinishedAt := tokenText (last.bind (·.get "finishedAt")) 64 }

/-- Where the statuses of each kind stand. -/
def containerGroups : List (ContainerKind × String) :=
  [(.init, "/status/initContainerStatuses"), (.application, "/status/containerStatuses"),
    (.ephemeral, "/status/ephemeralContainerStatuses")]

/-- The most that are returned. -/
def maxContainerStatuses : Nat := 32

/-- `normalize_container_statuses`. -/
def normalizeContainerStatuses (value : Value) : ContainerStatuses :=
  let statuses := containerGroups.flatMap fun (kind, path) =>
    (arrayAt value path).map fun status => (kind, status)
  let items := (statuses.take maxContainerStatuses).filterMap fun (kind, status) =>
    normalizeContainerStatus kind status
  { count := (min statuses.length 65535).toUInt16
    returned := items.length.toUInt16
    truncated := decide (statuses.length > maxContainerStatuses)
    items := items }

/-- The restarts of all containers; the sum stops at the greatest number of 64 bits. -/
def restartCount (value : Value) : UInt64 :=
  let statuses := containerGroups.flatMap fun (_, path) => arrayAt value path
  let counts : List UInt64 := statuses.filterMap fun status =>
    (status.get "restartCount").bind Value.asU64
  (counts.foldl (fun (sum : Nat) n => min (sum + n.toNat) (2 ^ 64 - 1)) 0).toUInt64

/-- `status_for`. -/
def statusFor (kind : ResourceKind) (value : Value) : Option String :=
  let path : Option String := match kind with
    | .pod => some "/status/phase"
    | .persistentVolumeClaim => some "/status/phase"
    | .certificate => some "/status/conditions/0/status"
    | .cnpgCluster => some "/status/phase"
    | .kafka | .kafkaNodePool | .kafkaTopic => some "/status/conditions/0/type"
    | .cephCluster => some "/status/phase"
    | .cephFilesystem | .cephBlockPool | .cephObjectStore => some "/status/phase"
    | .veleroBackup | .backupStorageLocation => some "/status/phase"
    | _ => none
  path.bind fun path => tokenText (value.pointer path) 128

/-- `valid_metric_name`. -/
def validMetricName (value : String) : Bool :=
  !value.isEmpty && value.utf8ByteSize ≤ 253 && !(value.toList.head? == some '-') &&
    value.toList.all fun c => ('a' ≤ c && c ≤ 'z') || c.isDigit || c == '-'

/-- The most containers of a metric. -/
def maxContainers : Nat := 20

/-- One container of a pod's metrics, under the number of those before it. -/
def addMetricContainer (state : Details × Nat) (container : Value) : Details × Nat :=
  let (details, index) := state
  match ((container.get "name").bind Value.asStr).filter validMetricName with
  | none => (details, index)
  | some name =>
      let key := "container." ++ toString index
      let details := details.insert (key ++ ".name") name
      let details := details.addQuantity (key ++ ".cpu") (container.pointer "/usage/cpu")
      let details := details.addQuantity (key ++ ".memory") (container.pointer "/usage/memory")
      (details, index + 1)

/-- `normalize_pod_metric`. -/
def normalizePodMetric (details : Details) (value : Value) : Details :=
  let containers := ((value.get "containers").bind Value.asArray).getD []
  let (details, returned) := (containers.take maxContainers).foldl addMetricContainer (details, 0)
  let details := details.insert "container_count" (toString containers.length)
  let details := details.insert "containers_returned" (toString returned)
  details.insert "containers_truncated" (toString (decide (containers.length > maxContainers)))

/-- The number of items of an array, as a value. -/
def lengthAt (value : Value) (path : String) : Option Value :=
  ((value.pointer path).bind Value.asArray).map fun items => .nat items.length.toUInt64

/-- An endpoint is ready unless it says otherwise. -/
def endpointReady (endpoint : Value) : Bool :=
  match endpoint.pointer "/conditions/ready" with
  | none | some .null => true
  | some (.bool ready) => ready
  | some _ => false

/-- `normalize_endpoints`. -/
def normalizeEndpoints (details : Details) (value : Value) : Details :=
  let endpoints := ((value.get "endpoints").bind Value.asArray).getD []
  let details := details.insert "endpoints" (toString endpoints.length)
  details.insert "ready_endpoints" (toString (endpoints.filter endpointReady).length)

/-- The details of a kind, and whether one of them was cut. -/
def detailsFor (kind : ResourceKind) (value : Value) : Details × Bool :=
  let empty := Details.empty
  match kind with
  | .deployment | .statefulSet | .replicaSet =>
      (((empty.addNumber "desired_replicas" (value.pointer "/spec/replicas")).addNumber
        "ready_replicas" (value.pointer "/status/readyReplicas")).addNumber
        "available_replicas" (value.pointer "/status/availableReplicas"), false)
  | .daemonSet =>
      ((empty.addNumber "desired_nodes" (value.pointer "/status/desiredNumberScheduled")).addNumber
        "ready_nodes" (value.pointer "/status/numberReady"), false)
  | .job =>
      (((empty.addNumber "active" (value.pointer "/status/active")).addNumber
        "succeeded" (value.pointer "/status/succeeded")).addNumber
        "failed" (value.pointer "/status/failed"), false)
  | .cronJob =>
      (((empty.addBool "suspended" (value.pointer "/spec/suspend")).addText
        "schedule" (value.pointer "/spec/schedule") 256).addToken
        "last_schedule_time" (value.pointer "/status/lastScheduleTime") 64, false)
  | .pod =>
      (((empty.addToken "node" (value.pointer "/spec/nodeName") 253).addToken
        "pod_ip" (value.pointer "/status/podIP") 64).addNumber
        "restarts" (some (.nat (restartCount value))), false)
  | .event =>
      let details := empty.addToken "reason" (value.get "reason") 128
      let (details, truncated) := details.addTruncatedText "message"
        ((value.get "note").or (value.get "message")) 1024
      (((details.addToken "regarding_kind" (value.pointer "/regarding/kind") 128).addToken
        "regarding_name" (value.pointer "/regarding/name") 253).addNumber
        "count" (value.pointer "/deprecatedCount"), truncated)
  | .podMetric =>
      (((normalizePodMetric empty value).addToken "timestamp" (value.get "timestamp") 64).addToken
        "window" (value.get "window") 64, false)
  | .nodeMetric =>
      let usage := value.pointer "/usage"
      ((((empty.addQuantity "cpu" (usage.bind (·.get "cpu"))).addQuantity
        "memory" (usage.bind (·.get "memory"))).addToken
        "timestamp" (value.get "timestamp") 64).addToken
        "window" (value.get "window") 64, false)
  | .service =>
      ((empty.addToken "type" (value.pointer "/spec/type") 64).addToken
        "cluster_ip" (value.pointer "/spec/clusterIP") 64, false)
  | .endpointSlice => (normalizeEndpoints empty value, false)
  | .ingress => (empty.addToken "class" (value.pointer "/spec/ingressClassName") 253, false)
  | .gateway => (empty.addToken "class" (value.pointer "/spec/gatewayClassName") 253, false)
  | .gatewayClass => (empty.addToken "controller" (value.pointer "/spec/controllerName") 253, false)
  | .httpRoute => (empty.addNumber "rules" (lengthAt value "/spec/rules"), false)
  | .persistentVolumeClaim =>
      ((empty.addToken "storage_class" (value.pointer "/spec/storageClassName") 253).addQuantity
        "capacity" (value.pointer "/status/capacity/storage"), false)
  | .storageClass =>
      ((empty.addToken "provisioner" (value.get "provisioner") 253).addToken
        "reclaim_policy" (value.get "reclaimPolicy") 64, false)
  | .horizontalPodAutoscaler =>
      ((empty.addNumber "current_replicas" (value.pointer "/status/currentReplicas")).addNumber
        "desired_replicas" (value.pointer "/status/desiredReplicas"), false)
  | .podDisruptionBudget =>
      (empty.addNumber "disruptions_allowed" (value.pointer "/status/disruptionsAllowed"), false)
  | .networkPolicy =>
      ((empty.addNumber "ingress_rules" (lengthAt value "/spec/ingress")).addNumber
        "egress_rules" (lengthAt value "/spec/egress"), false)
  | .veleroBackup => (empty.addToken "phase" (value.pointer "/status/phase") 64, false)
  | .veleroSchedule => (empty.addText "schedule" (value.pointer "/spec/schedule") 256, false)
  | .backupStorageLocation =>
      ((empty.addToken "provider" (value.pointer "/spec/provider") 128).addToken
        "phase" (value.pointer "/status/phase") 64, false)
  | _ => (empty, false)

/-- A resource as it is returned. -/
structure Resource where
  kind : ResourceKind
  apiVersion : String
  ns : Option String
  name : String
  uid : Option String
  createdAt : Option String
  status : Option String
  details : Details
  detailsTruncated : Bool
  conditions : List Condition
  containerStatuses : Option ContainerStatuses
  deriving DecidableEq

/-- The namespace in the metadata of an object: a valid one if its kind has them, else none. -/
def resourceNamespace (kind : ResourceKind) (found : Option String) :
    Except Error (Option String) :=
  if kind.namespaced then (okOr .invalidResponse (found.filter validNamespace)).map some
  else if found.isSome then .error .invalidResponse
  else .ok none

/-- The uid in the metadata of a pod. -/
def resourceUid (kind : ResourceKind) (metadata : Value) : Except Error (Option String) :=
  if kind = .pod then (okOr .invalidResponse (tokenText (metadata.get "uid") 128)).map some
  else .ok none

/-- `resource`. -/
def resource (kind : ResourceKind) (value : Value) : Except Error Resource := do
  let metadata ← okOr .invalidResponse (value.get "metadata")
  let name ← okOr .invalidResponse
    (((metadata.get "name").bind Value.asStr).filter validObjectName)
  let ns ← resourceNamespace kind ((metadata.get "namespace").bind Value.asStr)
  let uid ← resourceUid kind metadata
  let (details, detailsTruncated) := detailsFor kind value
  return {
    kind := kind
    apiVersion := kind.apiVersion
    ns := ns
    name := name
    uid := uid
    createdAt := tokenText (metadata.get "creationTimestamp") 64
    status := statusFor kind value
    details := details
    detailsTruncated := detailsTruncated
    conditions := normalizeConditions value
    containerStatuses := if kind = .pod then some (normalizeContainerStatuses value) else none }

/-- **A normalized resource** has the kind asked for, a valid name, and a valid namespace exactly if
its kind is namespaced. -/
theorem resource_identity {kind : ResourceKind} {value : Value} {r : Resource}
    (h : resource kind value = .ok r) :
    r.kind = kind ∧ validObjectName r.name = true ∧ r.ns.isSome = kind.namespaced ∧
      ∀ ns ∈ r.ns, validNamespace ns = true := by
  obtain ⟨metadata, -, h⟩ := bind_eq_ok.mp h
  obtain ⟨name, hname, h⟩ := bind_eq_ok.mp h
  obtain ⟨ns, hns, h⟩ := bind_eq_ok.mp h
  obtain ⟨uid, -, h⟩ := bind_eq_ok.mp h
  obtain rfl := Except.ok.inj h
  have hvalid := (Option.filter_eq_some_iff.mp (okOr_eq_ok.mp hname)).2
  refine ⟨rfl, hvalid, ?_⟩
  unfold resourceNamespace at hns
  split_ifs at hns with hkind hfound
  · cases hok : okOr Error.invalidResponse
        (((metadata.get "namespace").bind Value.asStr).filter validNamespace) with
    | error e => simp [hok, Except.map] at hns
    | ok found =>
        rw [hok] at hns
        obtain rfl := Except.ok.inj hns
        have hfound := (Option.filter_eq_some_iff.mp (okOr_eq_ok.mp hok)).2
        exact ⟨hkind.symm, fun ns hns => Option.some.inj hns ▸ hfound⟩
  · obtain rfl := Except.ok.inj hns
    simp [hkind]

/-- Cut or remove the messages that do not fit the bytes that remain, and whether there were any. -/
def boundMessages : Nat → List Resource → List Resource × Bool
  | _, [] => ([], false)
  | remaining, r :: rest =>
      match r.details.get "message" with
      | none =>
          let (rest, truncated) := boundMessages remaining rest
          (r :: rest, truncated)
      | some message =>
          if remaining = 0 then
            let (rest, _) := boundMessages remaining rest
            ({ r with details := r.details.remove "message", detailsTruncated := true } :: rest, true)
          else
            let retained := String.ofList (Text.fit remaining message.toList)
            let cut := decide (retained.utf8ByteSize < message.utf8ByteSize)
            let (rest, truncated) := boundMessages (remaining - retained.utf8ByteSize) rest
            ({ r with
                details := r.details.insert "message" retained
                detailsTruncated := r.detailsTruncated || cut } :: rest, cut || truncated)

/-- `bound_event_messages`. -/
def boundEventMessages (resources : List Resource) : List Resource × Bool :=
  boundMessages (32 * 1024) resources

end Kubernetes
