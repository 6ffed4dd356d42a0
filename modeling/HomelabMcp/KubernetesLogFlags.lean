import HomelabMcp.KubernetesPodLogs
import HomelabMcp.TextLines

/-!
# Identity, bounds and flags of pod logs

The pod is read before and after its log, and both reads must be of the pod that was asked for.
The flags are put together from two sides: bytes are counted in the log as it came, lines in what
is left of it once the secrets were replaced.

* `pod_logs_flags`: what an answer says of the pods, the bytes and the lines.  `truncated = false`
  is right unless redaction brought the lines of the log below `tail_lines`.
* `not_linesJoined_of_one_line`: no redaction does that if every secret is a single line.
-/

namespace Kubernetes

open Interaction Redaction
open Json (Value)
open Text (Bytes)

/-- The pod that the query asks for, with the container. -/
structure IsQueried (pod : Value) (query : PodLogsQuery) : Prop where
  name : (pod.pointer "/metadata/name").bind Value.asStr = some query.pod
  ns : (pod.pointer "/metadata/namespace").bind Value.asStr = some query.ns
  uid : (pod.pointer "/metadata/uid").bind Value.asStr = some query.podUid
  container : ∃ path ∈ containerPointers, ∃ containers,
    (pod.pointer path).bind Value.asArray = some containers ∧
      ∃ container ∈ containers, (container.get "name").bind Value.asStr = some query.container

/-- A pod has a container where one of its lists names it. -/
theorem podHasContainer_iff {pod : Value} {name : String} : podHasContainer pod name = true ↔
    ∃ path ∈ containerPointers, ∃ containers,
      (pod.pointer path).bind Value.asArray = some containers ∧
        ∃ container ∈ containers, (container.get "name").bind Value.asStr = some name := by
  simp only [podHasContainer, List.any_eq_true, List.mem_flatten, List.mem_filterMap, beq_iff_eq]
  constructor
  · rintro ⟨container, ⟨containers, ⟨path, hpath, hlist⟩, hmem⟩, hname⟩
    exact ⟨path, hpath, containers, hlist, container, hmem, hname⟩
  · rintro ⟨path, hpath, containers, hlist, container, hmem, hname⟩
    exact ⟨container, ⟨containers, ⟨path, hpath, hlist⟩, hmem⟩, hname⟩

/-- The check finds the pods that were asked about. -/
theorem podMatchesLogQuery_iff {pod : Value} {query : PodLogsQuery} :
    podMatchesLogQuery pod query = true ↔ IsQueried pod query := by
  simp only [podMatchesLogQuery, Bool.and_eq_true, beq_iff_eq, podHasContainer_iff]
  constructor
  · rintro ⟨⟨⟨hname, hns⟩, huid⟩, hcontainer⟩
    exact ⟨hname, hns, huid, hcontainer⟩
  · rintro ⟨hname, hns, huid, hcontainer⟩
    exact ⟨⟨⟨hname, hns⟩, huid⟩, hcontainer⟩

/-- The pod was read, then its log, then the pod again, and both times it was the one asked for. -/
structure PodLogsRead (parser : Bytes → Option Value) (query : PodLogsQuery) (t : Trace Ran)
    (before after : Value) (bytes : Bytes) : Prop where
  valid : query.isValid = true
  reads : ∃ path first last, objectPath .pod (some query.ns) (some query.pod) = .ok path ∧
    parser first = some before ∧ parser last = some after ∧
    t = [⟨rawRun path .query, .ok ⟨first⟩⟩, ⟨rawRun (podLogPath query) .query, .ok ⟨bytes⟩⟩,
      ⟨rawRun path .query, .ok ⟨last⟩⟩]
  before_queried : IsQueried before query
  after_queried : IsQueried after query

variable {parser : Bytes → Option Value} {client : KubernetesClient} {query : PodLogsQuery}
  {t : Trace Ran} {logs : PodLogs} {before after : Value} {bytes : Bytes}

/-- A value that is parsed is what the parser gave. -/
theorem parseJson_ok {value : Value} (h : parseJson parser bytes = .ok value) :
    parser bytes = some value := by
  cases hparsed : parser bytes with
  | none => simp [parseJson, hparsed, okOr] at h
  | some v =>
      simp only [parseJson, hparsed, okOr] at h
      exact congrArg some (Except.ok.inj h)

/-- There is an answer exactly after such reads, and it was computed from the log that was read. -/
theorem podLogsCancelled_ok_iff :
    Reaches (client.podLogsCancelled parser query).run t (.done (.ok logs)) ↔
      ∃ before after bytes, PodLogsRead parser query t before after bytes ∧
        logs = client.podLogs query bytes := by
  constructor
  · intro h
    unfold KubernetesClient.podLogsCancelled at h
    obtain ⟨hvalid, h₁⟩ := h.run_ensure_ok
    obtain ⟨podPath, hpath, h₂⟩ := h₁.run_answer_bind_ok
    obtain ⟨first, t₁, t₂, hfirst, h₃, rfl⟩ := h₂.run_bind_ok
    obtain ⟨before, hbefore, h₄⟩ := h₃.run_answer_bind_ok
    obtain ⟨hmatch, h₅⟩ := h₄.run_ensure_ok
    obtain ⟨bytes, t₃, t₄, hbytes, h₆, rfl⟩ := h₅.run_bind_ok
    obtain ⟨last, t₅, t₆, hlast, h₇, rfl⟩ := h₆.run_bind_ok
    obtain ⟨after, hafter, h₈⟩ := h₇.run_answer_bind_ok
    obtain ⟨hagain, h₉⟩ := h₈.run_ensure_ok
    cases h₉
    rw [rawCancelled_ok hfirst, rawCancelled_ok hbytes, rawCancelled_ok hlast]
    exact ⟨before, after, bytes,
      ⟨hvalid, ⟨podPath, first, last, hpath, parseJson_ok hbefore, parseJson_ok hafter, rfl⟩,
        podMatchesLogQuery_iff.mp hmatch, podMatchesLogQuery_iff.mp hagain⟩, rfl⟩
  · rintro ⟨before, after, bytes, hread, rfl⟩
    obtain ⟨path, first, last, hpath, hfirst, hlast, rfl⟩ := hread.reads
    have hbefore := podMatchesLogQuery_iff.mpr hread.before_queried
    have hafter := podMatchesLogQuery_iff.mpr hread.after_queried
    have hfirst : parseJson parser first = .ok before := by rw [parseJson, hfirst]; rfl
    have hlast : parseJson parser last = .ok after := by rw [parseJson, hlast]; rfl
    unfold KubernetesClient.podLogsCancelled
    rw [hread.valid, hpath]
    refine .step ?_
    change Reaches ((answer (parseJson parser first) : ClientCall Value) >>= _).run _ _
    rw [hfirst]
    change Reaches
      ((ensure (podMatchesLogQuery before query) .notFound : ClientCall Unit) >>= _).run _ _
    rw [hbefore]
    refine .step (.step ?_)
    change Reaches ((answer (parseJson parser last) : ClientCall Value) >>= _).run _ _
    rw [hlast]
    change Reaches
      ((ensure (podMatchesLogQuery after query) .notFound : ClientCall Unit) >>= _).run _ _
    rw [hafter]
    exact .refl _

/-- The log with the secrets replaced, before it is cut. -/
def redactedLog (client : KubernetesClient) (bytes : Bytes) : String :=
  (redact client.redactions (Text.decodeLossy bytes)).1

/-- `truncated = false` promises the whole log: it was short enough in bytes and in lines to have
come whole, and the text is what redaction leaves of all of it. -/
def FlagsRight (client : KubernetesClient) (query : PodLogsQuery) (bytes : Bytes)
    (logs : PodLogs) : Prop :=
  logs.truncated = false → bytes.length < query.maxBytes.toNat ∧
    Text.lines 10 false bytes < query.tailLines.toNat ∧ logs.text = redactedLog client bytes

/-- The log has so many lines that it may have been cut, and once the secrets are replaced it has
fewer, while its bytes show no cut. -/
def LinesJoined (client : KubernetesClient) (query : PodLogsQuery) (bytes : Bytes) : Prop :=
  query.tailLines.toNat ≤ Text.lines 10 false bytes ∧
    Text.lineCount (redactedLog client bytes) < query.tailLines.toNat ∧
    bytes.length < query.maxBytes.toNat ∧
    (redactedLog client bytes).utf8ByteSize ≤ query.maxBytes.toNat

/-- The cut fits the bound. -/
theorem truncateStringUtf8_size (value : String) (maximum : Nat) :
    (truncateStringUtf8 value maximum).1.utf8ByteSize ≤ maximum := by
  rw [truncateStringUtf8_eq]
  exact Text.fit_size maximum value.toList

/-- So does the text of the answer. -/
theorem KubernetesClient.podLogs_size (client : KubernetesClient) (query : PodLogsQuery)
    (bytes : Bytes) : (client.podLogs query bytes).text.utf8ByteSize ≤ query.maxBytes.toNat := by
  rw [client.podLogs_text]
  exact truncateStringUtf8_size _ _

/-- Neither flag is set exactly if nothing was cut and what is shown has few lines. -/
theorem KubernetesClient.podLogs_truncated (client : KubernetesClient) (query : PodLogsQuery)
    (bytes : Bytes) : (client.podLogs query bytes).truncated = false ↔
      bytes.length < query.maxBytes.toNat ∧
        (redactedLog client bytes).utf8ByteSize ≤ query.maxBytes.toNat ∧
        Text.lineCount (redactedLog client bytes) < query.tailLines.toNat := by
  have hflag : (client.podLogs query bytes).truncated =
      (decide (Text.lineCount (truncateStringUtf8 (redactedLog client bytes)
          query.maxBytes.toNat).1 ≥ query.tailLines.toNat) ||
        (decide (bytes.length ≥ query.maxBytes.toNat) ||
          (truncateStringUtf8 (redactedLog client bytes) query.maxBytes.toNat).2)) := rfl
  rw [hflag]
  by_cases hfits : (redactedLog client bytes).utf8ByteSize ≤ query.maxBytes.toNat
  · simp only [truncateStringUtf8, if_pos hfits, Bool.or_false, Bool.or_eq_false_iff,
      decide_eq_false_iff_not]
    omega
  · simp only [truncateStringUtf8, if_neg hfits, Bool.or_true, Bool.true_eq_false, false_iff]
    exact fun h => hfits h.2.1

/-- A text that fits is not cut. -/
theorem KubernetesClient.podLogs_text_whole (client : KubernetesClient) {query : PodLogsQuery}
    {bytes : Bytes} (h : (redactedLog client bytes).utf8ByteSize ≤ query.maxBytes.toNat) :
    (client.podLogs query bytes).text = redactedLog client bytes := by
  change (truncateStringUtf8 (redactedLog client bytes) query.maxBytes.toNat).1 = _
  rw [truncateStringUtf8, if_pos h]

/-- The flags are right unless a redaction joined lines. -/
theorem flagsRight_iff : FlagsRight client query bytes (client.podLogs query bytes) ↔
    ¬ LinesJoined client query bytes := by
  unfold FlagsRight
  rw [client.podLogs_truncated]
  constructor
  · intro hright hjoined
    obtain ⟨hmany, hfew, hbytes, hfits⟩ := hjoined
    have hlines := (hright ⟨hbytes, hfits, hfew⟩).2.1
    omega
  · intro hnot
    rintro ⟨hbytes, hfits, hfew⟩
    refine ⟨hbytes, ?_, client.podLogs_text_whole hfits⟩
    by_contra hmany
    exact hnot ⟨by omega, hfew, hbytes, hfits⟩

/-- **Pod logs.**  An answer means that the pod was read before and after its log, both times under
the name, the namespace and the uid of the query and with the container; that the text has no more
bytes than were asked for; and that `truncated = false` is right exactly if the lines of the log
were not joined by redaction. -/
theorem pod_logs_flags (client : KubernetesClient) (parser : Bytes → Option Value)
    (query : PodLogsQuery) {t : Trace Ran} {logs : PodLogs}
    (h : Reaches (client.podLogsCancelled parser query).run t (.done (.ok logs))) :
    ∃ before after bytes, PodLogsRead parser query t before after bytes ∧
      logs.text.utf8ByteSize ≤ query.maxBytes.toNat ∧
      (FlagsRight client query bytes logs ↔ ¬ LinesJoined client query bytes) := by
  obtain ⟨before, after, bytes, hread, rfl⟩ := podLogsCancelled_ok_iff.mp h
  exact ⟨before, after, bytes, hread, client.podLogs_size query bytes, flagsRight_iff⟩

/-- The marker is one line. -/
theorem marker_no_newline : '\n' ∉ marker.toList := by decide

/-- Secrets of one line join no lines. -/
theorem not_linesJoined_of_one_line {parseYaml : Bytes → Option Value} {file : Option Bytes}
    {config : KubernetesConfig} (hnew : KubernetesClient.new parseYaml file config = .ok client)
    (hone : ∀ secret ∈ config.redactions ++ staticKubeconfigTokens parseYaml file,
      '\n' ∉ secret.toList) : ¬ LinesJoined client query bytes := by
  have hvalues := KubernetesClient.new_nonempty hnew
  have hlines : ∀ secret ∈ client.redactions, '\n' ∉ secret.toList := by
    intro secret hmem
    rw [KubernetesClient.new_redactions hnew, mem_longestFirst] at hmem
    exact hone secret hmem.1
  obtain ⟨n, out, hout, hloop⟩ := redact_pieces hvalues (Text.decodeLossy bytes)
  have hsame := hout.lines marker_no_newline marker_ne_nil hvalues hlines
  intro hjoined
  obtain ⟨hmany, hfew, -, -⟩ := hjoined
  rw [redactedLog, hloop, Text.lineCount_eq_lines, String.toList_ofList, hsame, text_original,
    Text.lines_decodeLossy] at hfew
  omega

/-- A configuration with a secret of two lines. -/
def twoLineConfig : KubernetesConfig := { sampleConfig with redactions := ["a\nb"] }

/-- The client of it. -/
def twoLineClient : KubernetesClient := { sampleClient with redactions := ["a\nb"] }

/-- A query of two lines. -/
def twoLineQuery : PodLogsQuery := { sampleLogsQuery with tailLines := 2 }

/-- The pod is read where it matches the query. -/
theorem samplePod_read (query : PodLogsQuery) (hvalid : query.isValid = true)
    (hquery : podMatchesLogQuery samplePodValue query = true) (bytes : Bytes) :
    ∃ t, PodLogsRead sampleParser query t samplePodValue samplePodValue bytes := by
  have hparsed : sampleParser samplePod = some samplePodValue := if_pos rfl
  have hpod := podMatchesLogQuery_iff.mp hquery
  exact ⟨_, hvalid, ⟨_, samplePod, samplePod, rfl, hparsed, hparsed, rfl⟩, hpod, hpod⟩

/-- The two lines that were asked for came, and the answer says that nothing is missing. -/
theorem joined_lines_hidden : ∃ (config : KubernetesConfig) (client : KubernetesClient)
    (query : PodLogsQuery) (t : Trace Ran) (logs : PodLogs) (before after : Value) (bytes : Bytes),
      KubernetesClient.new (fun _ => none) none config = .ok client ∧
      Reaches (client.podLogsCancelled sampleParser query).run t (.done (.ok logs)) ∧
      PodLogsRead sampleParser query t before after bytes ∧ logs.truncated = false ∧
      ¬ Text.lines 10 false bytes < query.tailLines.toNat := by
  obtain ⟨t, hread⟩ := samplePod_read twoLineQuery (by decide) (by decide) (Text.ascii "a\nb")
  refine ⟨twoLineConfig, twoLineClient, twoLineQuery, t, _, _, _, _, rfl,
    podLogsCancelled_ok_iff.mpr ⟨_, _, _, hread, rfl⟩, hread, ?_, by decide⟩
  rw [twoLineClient.podLogs_truncated]
  decide

/-- A log whose lines are joined. -/
theorem pod_logs_flags_two : ∃ (t : Trace Ran) (logs : PodLogs) (before after : Value)
    (bytes : Bytes), PodLogsRead sampleParser twoLineQuery t before after bytes ∧
      logs.text.utf8ByteSize ≤ twoLineQuery.maxBytes.toNat ∧
      (FlagsRight twoLineClient twoLineQuery bytes logs ↔
        ¬ LinesJoined twoLineClient twoLineQuery bytes) := by
  obtain ⟨t, hread⟩ := samplePod_read twoLineQuery (by decide) (by decide) (Text.ascii "a\nb")
  have hrun := podLogsCancelled_ok_iff.mpr
    ⟨_, _, _, hread, (rfl : twoLineClient.podLogs twoLineQuery _ = _)⟩
  exact ⟨t, _, pod_logs_flags twoLineClient sampleParser twoLineQuery hrun⟩

end Kubernetes
