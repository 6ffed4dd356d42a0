import HomelabMcp.KubernetesClient
import HomelabMcp.Redaction

/-!
# Pod logs of the Kubernetes client

`pod_logs_cancelled` finds the pod, reads its log, finds the pod again, and returns the log with
the secrets that the client holds replaced, cut to the bytes that were asked for.  The secrets are
the configured ones and the tokens of the kubeconfig.

* `pod_logs_redacted`: no secret is in the text that is returned as it was copied from the log, and
  `redacted` says whether anything was replaced.

The JSON and YAML parsers are parameters, and so is what the file system holds of the kubeconfig.
-/

namespace Kubernetes

open Interaction Redaction
open Json (Value)
open Text (Bytes)

/-- The deadline is in nanoseconds. -/
structure KubernetesConfig where
  kubectlExecutable : String
  kubeconfig : String
  cacheDir : String
  context : String
  clusterName : String
  deadline : Nat
  redactions : List String

/-- A client of one cluster. -/
structure KubernetesClient where
  runner : Runner
  context : String
  clusterName : String
  redactions : List String

/-- `valid_identifier`. -/
def validIdentifier (value : String) (max : Nat) : Bool :=
  !value.isEmpty && value.utf8ByteSize ≤ max && !(value.toList.head? == some '-') &&
    !value.toList.any (fun c => Text.isControl c || Text.isWhitespace c) &&
    value.toList.all fun c => c.isAlphanum || c == '-' || c == '.' || c == '_'

/-- `valid_catalog_name`. -/
def validCatalogName (value : String) : Bool := validIdentifier value 253

/-- The tokens that the kubeconfig gives its users, where the file can be read. -/
def staticKubeconfigTokens (parseYaml : Bytes → Option Value) (file : Option Bytes) :
    List String :=
  match file.bind parseYaml with
  | none => []
  | some value =>
      (((value.get "users").bind Value.asArray).getD []).filterMap fun entry =>
        (entry.pointer "/user/token").bind Value.asStr

/-- `KubernetesClient::new`. -/
def KubernetesClient.new (parseYaml : Bytes → Option Value) (file : Option Bytes)
    (config : KubernetesConfig) : Except String KubernetesClient :=
  if !validCatalogName config.clusterName then .error "invalid Kubernetes cluster name"
  else do
    let redactions := longestFirst (config.redactions ++ staticKubeconfigTokens parseYaml file)
    let runner ← Runner.new config.kubectlExecutable config.kubeconfig config.cacheDir
      config.context config.deadline
    return ⟨runner, config.context, config.clusterName, redactions⟩

/-- Which run of the container is asked for. -/
inductive PodLogInstance where
  | current
  | previous
  deriving DecidableEq

/-- A query of a log. -/
structure PodLogsQuery where
  ns : String
  pod : String
  podUid : String
  container : String
  instance_ : PodLogInstance
  tailLines : UInt16
  maxBytes : UInt32

/-- `valid_uid`. -/
def validUid (value : String) : Bool :=
  !value.isEmpty && value.utf8ByteSize ≤ 128 &&
    value.toList.all fun c => c.isAlphanum || c == '-' || c == '.' || c == '_'

/-- The client's own check of it. -/
def PodLogsQuery.isValid (query : PodLogsQuery) : Bool :=
  validNamespace query.ns && validObjectName query.pod && validDnsLabel query.container &&
    validUid query.podUid && (1 ≤ query.tailLines && query.tailLines ≤ 1000) &&
    (1 ≤ query.maxBytes && query.maxBytes ≤ 262144)

/-- The places where a pod lists its containers. -/
def containerPointers : List String := [
  "/spec/initContainers",
  "/spec/containers",
  "/spec/ephemeralContainers",
  "/status/initContainerStatuses",
  "/status/containerStatuses",
  "/status/ephemeralContainerStatuses"]

/-- `pod_has_container`. -/
def podHasContainer (pod : Value) (name : String) : Bool :=
  (containerPointers.filterMap fun path => (pod.pointer path).bind Value.asArray).flatten.any
    fun container => (container.get "name").bind Value.asStr == some name

/-- `pod_matches_log_query`. -/
def podMatchesLogQuery (pod : Value) (query : PodLogsQuery) : Bool :=
  (pod.pointer "/metadata/name").bind Value.asStr == some query.pod &&
    (pod.pointer "/metadata/namespace").bind Value.asStr == some query.ns &&
    (pod.pointer "/metadata/uid").bind Value.asStr == some query.podUid &&
    podHasContainer pod query.container

/-- The path of the log. -/
def podLogPath (query : PodLogsQuery) : String :=
  let path := "/api/v1/namespaces/" ++ query.ns ++ "/pods/" ++ query.pod ++ "/log?container=" ++
    query.container ++ "&tailLines=" ++ toString query.tailLines.toNat ++ "&limitBytes=" ++
    toString query.maxBytes.toNat ++ "&timestamps=true"
  if query.instance_ = .previous then path ++ "&previous=true" else path

/-- A log as it is returned. -/
structure PodLogs where
  cluster : String
  ns : String
  pod : String
  podUid : String
  container : String
  instance_ : String
  timestamps : Bool
  tailLines : UInt16
  maxBytes : UInt32
  text : String
  lineCount : UInt16
  tailTruncated : Bool
  byteTruncated : Bool
  redacted : Bool
  truncated : Bool

/-- The text with every secret replaced, and whether any was there. -/
def redact (redactions : List String) (text : String) : String × Bool :=
  redactions.foldl (fun state secret =>
    if Text.contains state.1 secret then (Text.replace state.1 secret "[REDACTED]", true)
    else state) (text, false)

/-- The start of the text that fits, and whether it was cut. -/
def truncateStringUtf8 (value : String) (maximum : Nat) : String × Bool :=
  if value.utf8ByteSize ≤ maximum then (value, false)
  else (String.ofList (Text.fit maximum value.toList), true)

/-- What is returned of a log. -/
def KubernetesClient.podLogs (client : KubernetesClient) (query : PodLogsQuery) (bytes : Bytes) :
    PodLogs :=
  let maximum := query.maxBytes.toNat
  let (redactedText, redacted) := redact client.redactions (Text.decodeLossy bytes)
  let (text, cut) := truncateStringUtf8 redactedText maximum
  let byteTruncated := decide (bytes.length ≥ maximum) || cut
  let lineCount := Text.lineCount text
  let tailTruncated := decide (lineCount ≥ query.tailLines.toNat)
  { cluster := client.clusterName
    ns := query.ns
    pod := query.pod
    podUid := query.podUid
    container := query.container
    instance_ := if query.instance_ = .previous then "previous" else "current"
    timestamps := true
    tailLines := query.tailLines
    maxBytes := query.maxBytes
    text := text
    lineCount := (min lineCount 65535).toUInt16
    tailTruncated := tailTruncated
    byteTruncated := byteTruncated
    redacted := redacted
    truncated := tailTruncated || byteTruncated }

/-- The text of an answer. -/
theorem KubernetesClient.podLogs_text (client : KubernetesClient) (query : PodLogsQuery)
    (bytes : Bytes) : (client.podLogs query bytes).text =
      (truncateStringUtf8 (redact client.redactions (Text.decodeLossy bytes)).1
        query.maxBytes.toNat).1 := rfl

/-- The count of an answer. -/
theorem KubernetesClient.podLogs_redacted (client : KubernetesClient) (query : PodLogsQuery)
    (bytes : Bytes) : (client.podLogs query bytes).redacted =
      (redact client.redactions (Text.decodeLossy bytes)).2 := rfl

/-- `pod_logs_cancelled`: the pod is read before and after its log. -/
def KubernetesClient.podLogsCancelled (client : KubernetesClient) (parser : Bytes → Option Value)
    (query : PodLogsQuery) : ClientCall PodLogs := do
  ensure query.isValid .invalidArguments
  let podPath ← answer (objectPath .pod (some query.ns) (some query.pod))
  let found ← rawCancelled podPath .query
  let pod ← answer (parseJson parser found)
  ensure (podMatchesLogQuery pod query) .notFound
  let bytes ← rawCancelled (podLogPath query) .query
  let found ← rawCancelled podPath .query
  let pod ← answer (parseJson parser found)
  ensure (podMatchesLogQuery pod query) .notFound
  return client.podLogs query bytes

/-- Of the three runs of kubectl, the second brought this log. -/
def LogServed (query : PodLogsQuery) (t : Trace Ran) (bytes : Bytes) : Prop :=
  ∃ first last : Event Ran, t = [first, ⟨rawRun (podLogPath query) .query, .ok ⟨bytes⟩⟩, last]

/-- A raw read returns what its command printed. -/
theorem rawCancelled_ok {path : String} {operation : Operation} {t : Trace Ran} {bytes : Bytes}
    (h : Reaches (rawCancelled path operation).run t (.done (.ok bytes))) :
    t = [⟨rawRun path operation, .ok ⟨bytes⟩⟩] := by
  have h : Reaches (.call (rawRun path operation) fun result =>
      .done (result.map Output.stdout) : Program Run Ran (Except Error Bytes)) t
      (.done (.ok bytes)) := h
  cases h with
  | @step _ _ result t _ h =>
      cases result with
      | error e => cases h
      | ok output =>
          cases h
          rfl

variable {parser : Bytes → Option Value} {client : KubernetesClient} {query : PodLogsQuery}
  {t : Trace Ran} {logs : PodLogs}

/-- What is returned was computed from the log that was read. -/
theorem podLogsCancelled_ok
    (h : Reaches (client.podLogsCancelled parser query).run t (.done (.ok logs))) :
    ∃ bytes, LogServed query t bytes ∧ logs = client.podLogs query bytes := by
  unfold KubernetesClient.podLogsCancelled at h
  obtain ⟨-, h₁⟩ := h.run_ensure_ok
  obtain ⟨podPath, -, h₂⟩ := h₁.run_answer_bind_ok
  obtain ⟨before, t₁, t₂, hbefore, h₃, rfl⟩ := h₂.run_bind_ok
  obtain ⟨pod, -, h₄⟩ := h₃.run_answer_bind_ok
  obtain ⟨-, h₅⟩ := h₄.run_ensure_ok
  obtain ⟨bytes, t₃, t₄, hbytes, h₆, rfl⟩ := h₅.run_bind_ok
  obtain ⟨after, t₅, t₆, hafter, h₇, rfl⟩ := h₆.run_bind_ok
  obtain ⟨again, -, h₈⟩ := h₇.run_answer_bind_ok
  obtain ⟨-, h₉⟩ := h₈.run_ensure_ok
  cases h₉
  rw [rawCancelled_ok hbefore, rawCancelled_ok hbytes, rawCancelled_ok hafter]
  exact ⟨bytes, ⟨_, _, rfl⟩, rfl⟩

/-- The marker that stands for a secret. -/
def marker : String := "[REDACTED]"

/-- The marker is not empty. -/
theorem marker_ne_nil : marker.toList ≠ [] := by decide

/-- The loop of the secrets in pieces: the text is replaced where a secret is in it, and then the
flag is set. -/
theorem redact_loop {redactions : List String} (hsecrets : ∀ secret ∈ redactions, secret ≠ "")
    (pieces : List Piece) (flag : Bool) :
    ∃ n out, Redacts marker.toList redactions n pieces out ∧
      (redactions.foldl (fun (state : String × Bool) secret =>
        if Text.contains state.1 secret then (Text.replace state.1 secret "[REDACTED]", true)
        else state) (String.ofList (text pieces), flag)) =
          (String.ofList (text out), flag || decide (n ≠ 0)) := by
  induction redactions generalizing pieces flag with
  | nil => exact ⟨0, pieces, .nil, by simp⟩
  | cons secret redactions ih =>
      obtain ⟨hsecret, hothers⟩ := List.forall_mem_cons.mp hsecrets
      obtain ⟨n, mid, hmid, hreplace, hcontains⟩ := exists_replace marker hsecret pieces
      rw [List.foldl_cons]
      by_cases hfound : Text.contains (String.ofList (text pieces)) secret = true
      · obtain ⟨m, out, hout, hloop⟩ := ih hothers mid true
        have hn : n ≠ 0 := hcontains.mp hfound
        refine ⟨n + m, out, .value hsecret hmid hout, ?_⟩
        rw [if_pos hfound, show "[REDACTED]" = marker from rfl, ← hreplace]
        refine hloop.trans ?_
        have hsum : n + m ≠ 0 := by omega
        rw [decide_eq_true hsum, Bool.true_or, Bool.or_true]
      · obtain rfl : n = 0 := not_not.mp fun hn => hfound (hcontains.mpr hn)
        obtain rfl := hmid.eq_of_zero
        obtain ⟨m, out, hout, hloop⟩ := ih hothers mid flag
        refine ⟨0 + m, out, .value hsecret hmid hout, ?_⟩
        rw [if_neg hfound]
        refine hloop.trans ?_
        rw [Nat.zero_add]

/-- Redacting replaces one secret after another. -/
theorem redact_pieces {redactions : List String} (hsecrets : ∀ secret ∈ redactions, secret ≠ "")
    (s : String) : ∃ n out, Redacts marker.toList redactions n (original s) out ∧
      redact redactions s = (String.ofList (text out), decide (n ≠ 0)) := by
  obtain ⟨n, out, hout, hloop⟩ := redact_loop hsecrets (original s) false
  refine ⟨n, out, hout, ?_⟩
  rw [text_original, String.ofList_toList, Bool.false_or] at hloop
  exact hloop

/-- The cut is at the last whole character that fits. -/
theorem truncateStringUtf8_eq (value : String) (maximum : Nat) :
    (truncateStringUtf8 value maximum).1 = String.ofList (Text.fit maximum value.toList) := by
  unfold truncateStringUtf8
  split_ifs with hfits
  · rw [Text.fit_eq_self hfits, String.ofList_toList]
  · rfl

/-- The secrets that the client has been given and that are not empty. -/
theorem KubernetesClient.new_redactions {parseYaml : Bytes → Option Value} {file : Option Bytes}
    {config : KubernetesConfig} (h : KubernetesClient.new parseYaml file config = .ok client) :
    client.redactions = longestFirst (config.redactions ++ staticKubeconfigTokens parseYaml file) := by
  unfold KubernetesClient.new at h
  split_ifs at h
  obtain ⟨runner, -, h⟩ := bind_eq_ok.mp h
  obtain rfl := Except.ok.inj h
  rfl

/-- The text of the answer in pieces. -/
theorem KubernetesClient.podLogs_pieces (client : KubernetesClient) (query : PodLogsQuery)
    (bytes : Bytes) (hsecrets : ∀ secret ∈ client.redactions, secret ≠ "") :
    ∃ n redacted shown, Redacts marker.toList client.redactions n
        (original (Text.decodeLossy bytes)) redacted ∧
      shown <+: redacted ∧ text shown = (client.podLogs query bytes).text.toList ∧
      ((client.podLogs query bytes).redacted = true ↔ n ≠ 0) := by
  obtain ⟨n, redacted, hredacts, hloop⟩ := redact_pieces hsecrets (Text.decodeLossy bytes)
  obtain ⟨shown, hshown, htext⟩ := exists_fit redacted query.maxBytes.toNat
  refine ⟨n, redacted, shown, hredacts, hshown, ?_, ?_⟩
  · rw [htext, client.podLogs_text, hloop, truncateStringUtf8_eq, String.toList_ofList,
      String.toList_ofList]
  · rw [client.podLogs_redacted, hloop]
    exact decide_eq_true_iff

/-- A client that `new` makes holds no empty secret. -/
theorem KubernetesClient.new_nonempty {parseYaml : Bytes → Option Value} {file : Option Bytes}
    {config : KubernetesConfig} (h : KubernetesClient.new parseYaml file config = .ok client) :
    ∀ secret ∈ client.redactions, secret ≠ "" := by
  intro secret hmem
  rw [KubernetesClient.new_redactions h, mem_longestFirst] at hmem
  exact hmem.2

/-- **Redaction of pod logs.**  Every occurrence of a secret in the text that is returned has a
character of a marker in it, and `redacted` says whether a replacement was made. -/
theorem pod_logs_redacted (parseYaml : Bytes → Option Value) (file : Option Bytes)
    (config : KubernetesConfig) {client : KubernetesClient}
    (hnew : KubernetesClient.new parseYaml file config = .ok client)
    (parser : Bytes → Option Value) (query : PodLogsQuery) {t : Trace Ran} {logs : PodLogs}
    (h : Reaches (client.podLogsCancelled parser query).run t (.done (.ok logs))) :
    ∃ bytes replacements redacted shown, LogServed query t bytes ∧
      Redacts marker.toList client.redactions replacements
        (original (Text.decodeLossy bytes)) redacted ∧
      shown <+: redacted ∧ text shown = logs.text.toList ∧
      (∀ secret ∈ config.redactions ++ staticKubeconfigTokens parseYaml file, secret ≠ "" →
        Hides shown secret) ∧
      (logs.redacted = true ↔ replacements ≠ 0) := by
  obtain ⟨bytes, hserved, rfl⟩ := podLogsCancelled_ok h
  obtain ⟨n, redacted, shown, hredacts, hshown, htext, hflag⟩ :=
    client.podLogs_pieces query bytes (KubernetesClient.new_nonempty hnew)
  refine ⟨bytes, n, redacted, shown, hserved, hredacts, hshown, htext, ?_, hflag⟩
  intro secret hmem hsecret
  have hheld : secret ∈ client.redactions := by
    rw [KubernetesClient.new_redactions hnew, mem_longestFirst]
    exact ⟨hmem, hsecret⟩
  exact (hredacts.hidden marker_ne_nil hheld hsecret).inPart hshown.isInfix

/-- A pod with one container. -/
def samplePod : Bytes := [
  "\x7b\"metadata\":\x7b\"name\":\"a\",", "\"namespace\":\"a\",\"uid\":\"a\"\x7d,",
  "\"spec\":\x7b\"containers\":", "[\x7b\"name\":\"a\"\x7d]\x7d\x7d"].flatMap Text.ascii

/-- The same pod as it is parsed. -/
def samplePodValue : Value := .object [
  ("metadata", .object [("name", .string "a"), ("namespace", .string "a"), ("uid", .string "a")]),
  ("spec", .object [("containers", .array [.object [("name", .string "a")]])])]

/-- A parser that knows the pod of the sample. -/
def sampleParser (bytes : Bytes) : Option Value :=
  if bytes = samplePod then some samplePodValue else none

/-- A configuration with a secret. -/
def sampleConfig : KubernetesConfig where
  kubectlExecutable := "/kubectl"
  kubeconfig := "/config"
  cacheDir := "/cache"
  context := "c"
  clusterName := "c"
  deadline := 30000000000
  redactions := ["x", "", "token"]

/-- The client of it. -/
def sampleClient : KubernetesClient where
  runner := ⟨"/kubectl", "/config", "/cache", "c", "25000ms", 30000000000, by decide,
    sampleDeadline_bounds⟩
  context := "c"
  clusterName := "c"
  redactions := ["token", "x"]

/-- A query of the log. -/
def sampleLogsQuery : PodLogsQuery where
  ns := "a"
  pod := "a"
  podUid := "a"
  container := "a"
  instance_ := .current
  tailLines := 200
  maxBytes := 65536

/-- A cluster in which the pod logs a secret. -/
def respondPod (run : Run) : Ran run :=
  if run = rawRun (podLogPath sampleLogsQuery) .query then .ok ⟨Text.ascii "a token"⟩
  else .ok ⟨samplePod⟩

/-- A log with the secret. -/
theorem pod_logs_redacted_token : ∃ (t : Trace Ran) (logs : PodLogs) (bytes : Bytes)
    (replacements : Nat) (redacted shown : List Piece), LogServed sampleLogsQuery t bytes ∧
      Redacts marker.toList sampleClient.redactions replacements
        (original (Text.decodeLossy bytes)) redacted ∧
      shown <+: redacted ∧ text shown = logs.text.toList ∧
      (∀ secret ∈ sampleConfig.redactions ++ staticKubeconfigTokens (fun _ => none) none,
        secret ≠ "" → Hides shown secret) ∧
      (logs.redacted = true ↔ replacements ≠ 0) := by
  have hnew : KubernetesClient.new (fun _ => none) none sampleConfig = .ok sampleClient := rfl
  obtain ⟨logs, hrun⟩ := Program.answered_ok respondPod 3
    (sampleClient.podLogsCancelled sampleParser sampleLogsQuery).run (by decide +kernel)
  exact ⟨_, logs, pod_logs_redacted (fun _ => none) none sampleConfig hnew sampleParser
    sampleLogsQuery hrun⟩

end Kubernetes
