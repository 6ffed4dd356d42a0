import HomelabMcp.KubernetesPodLogs
import HomelabMcp.StruckPlaces
import HomelabMcp.TektonSecrets

/-!
# Logs that were cut before they were redacted

Both log calls ask for a number of bytes, and the secrets are replaced in the bytes that come.  A
secret that the limit cuts in two is no occurrence in them.

* `cut_secrets_hidden_iff`: no character of a secret of the whole log is returned exactly when each
  one that came is struck at the turn of some value, or pushed out by the markers before it.
* `cut_secret_shown`: of a secret that the limit cuts in two, the start is returned.
-/

namespace LogCuts

open Interaction Redaction
open Text (Bytes)

/-- The text of the answer, and the pieces of the log that it shows. -/
theorem podLogs_shown_iff (client : Kubernetes.KubernetesClient) (query : Kubernetes.PodLogsQuery)
    (bytes : Bytes) (hsecrets : ∀ secret ∈ client.redactions, secret ≠ "") :
    ∃ pieces, Shown Kubernetes.marker client.redactions (Text.decodeLossy bytes)
        (client.podLogs query bytes).text pieces ∧
      ∀ whole, ¬ Discloses client.redactions whole pieces ↔
        Sheltered Kubernetes.marker client.redactions whole (Text.decodeLossy bytes).toList
          query.maxBytes.toNat := by
  obtain ⟨n, out, hout, hloop⟩ := Kubernetes.redact_pieces hsecrets (Text.decodeLossy bytes)
  rw [client.podLogs_text, hloop, Kubernetes.truncateStringUtf8_eq, String.toList_ofList]
  exact ⟨_, hout.shown _, hout.not_discloses_iff _⟩

/-- **Cuts and secrets.**  The kubelet serves the first bytes of the whole log.  What a log call
returns of them discloses nothing of the secrets of the whole log exactly when these are sheltered
in what was served. -/
theorem cut_secrets_hidden_iff (parser : Bytes → Option Json.Value) (crates : Tekton.Crates) :
    (∀ (parseYaml : Bytes → Option Json.Value) (file : Option Bytes)
      (config : Kubernetes.KubernetesConfig) (client : Kubernetes.KubernetesClient)
      (query : Kubernetes.PodLogsQuery)
      (t : Trace Kubernetes.Ran) (logs : Kubernetes.PodLogs),
      Kubernetes.KubernetesClient.new parseYaml file config = .ok client →
      Reaches (client.podLogsCancelled parser query).run t (.done (.ok logs)) →
      ∃ bytes pieces, Kubernetes.LogServed query t bytes ∧
        Shown Kubernetes.marker client.redactions (Text.decodeLossy bytes) logs.text pieces ∧
        ∀ whole, bytes = whole.take query.maxBytes.toNat →
          (¬ Discloses client.redactions (Text.decodeLossy whole).toList pieces ↔
            Sheltered Kubernetes.marker client.redactions (Text.decodeLossy whole).toList
              (Text.decodeLossy bytes).toList query.maxBytes.toNat)) ∧
    (∀ (client : Tekton.TektonClient) (query : Tekton.TaskLogsQuery)
      (t : Trace Tekton.Ans) (result : Json.Value),
      Reaches (client.logs crates query).run t (.done (.ok result)) →
      ∃ selected reads logs stepsOmitted truncated,
        Tekton.LogCall crates client query t result selected reads logs stepsOmitted truncated ∧
        ∀ log ∈ logs, ∃ read ∈ reads, ∃ pieces,
          Shown Tekton.marker (client.redactions ++ [read.token]) (Text.decodeLossy read.bytes)
            log.text pieces ∧
          ∀ whole, read.bytes = whole.take read.requested →
            (¬ Discloses (client.redactions ++ [read.token]) (Text.decodeLossy whole).toList
                pieces ↔
              Sheltered Tekton.marker (client.redactions ++ [read.token])
                (Text.decodeLossy whole).toList (Text.decodeLossy read.bytes).toList
                read.requested)) := by
  constructor
  · intro parseYaml file config client query t logs hnew h
    obtain ⟨bytes, hserved, rfl⟩ := Kubernetes.podLogsCancelled_ok h
    obtain ⟨pieces, hshown, hiff⟩ :=
      podLogs_shown_iff client query bytes (Kubernetes.KubernetesClient.new_nonempty hnew)
    exact ⟨bytes, pieces, hserved, hshown, fun whole _ => hiff _⟩
  · intro client query t result h
    obtain ⟨selected, reads, logs, stepsOmitted, truncated, hcall⟩ := Tekton.logs_call h
    refine ⟨selected, reads, logs, stepsOmitted, truncated, hcall, fun log hlog => ?_⟩
    obtain ⟨read, hread, htext⟩ := hcall.text_of_read log hlog
    obtain ⟨pieces, hshown, hiff⟩ := exists_shown_iff Tekton.marker
      (client.redactions ++ [read.token]) (Text.decodeLossy read.bytes) read.requested
    rw [← Tekton.text_eq_fit, ← htext] at hshown
    exact ⟨read, hread, pieces, hshown, fun whole _ => hiff _⟩

open Kubernetes

/-- The query of the sample for five bytes. -/
def fiveBytes : PodLogsQuery := { sampleLogsQuery with maxBytes := 5 }

/-- A log that ends in a secret of the client. -/
def tokenLog : Bytes := Text.ascii "a token"

/-- A cluster that serves the first bytes of the log. -/
def respondCut (run : Run) : Ran run :=
  if run = rawRun (podLogPath fiveBytes) .query then .ok ⟨tokenLog.take 5⟩
  else .ok ⟨samplePod⟩

/-- The call on a log that is cut within a secret. -/
def cutRun : Trace Ran × Program Run Ran (Except Error PodLogs) :=
  (sampleClient.podLogsCancelled sampleParser fiveBytes).run.answered respondCut 3

/-- What kubectl printed the second time. -/
def secondOutput (t : Trace Ran) : Option Bytes :=
  (t.drop 1).head?.bind fun e => e.2.toOption.map Output.stdout

/-- The second read gives the log. -/
theorem secondOutput_eq {query : PodLogsQuery} {t : Trace Ran} {bytes : Bytes}
    (h : LogServed query t bytes) : secondOutput t = some bytes := by
  obtain ⟨first, last, rfl⟩ := h
  rfl

/-- The log of the sample, read in one byte. -/
theorem twoLogs_read {selected : List (String × String)} {reads : List Tekton.LogRead}
    {logs : List Tekton.StepLog} {stepsOmitted truncated : Bool} {result : Json.Value}
    (hresult : Tekton.twoLogs.2 = .done (.ok result))
    (hcall : Tekton.LogCall Tekton.twoCrates Tekton.sampleClient Tekton.twoQuery Tekton.twoLogs.1
      result selected reads logs stepsOmitted truncated) :
    ∀ read ∈ reads, read.bytes = [0x78] ∧ read.requested = 1 := by
  obtain ⟨task, pod, before, after, available, left, ht, -, -, -, -, hlogged, -, -⟩ := hcall.run
  have hanswer := Tekton.twoLogs_answer
  rw [hresult, Tekton.answerOf, hcall.result_eq] at hanswer
  have hone : logs.length = 1 := by simpa [Json.Value.asArray] using (Prod.mk.inj hanswer).1
  have hreads : reads.length = 1 := hlogged.length_eq.symm.trans hone
  obtain ⟨read, rfl⟩ := List.length_eq_one_iff.mp hreads
  obtain ⟨sent, hsent, hrequests⟩ : ∃ sent, Tekton.Sent Tekton.sampleClient Tekton.twoQuery pod sent
      read ∧ Tekton.requests after = [sent] := by
    obtain ⟨sent, others, hsent, hothers, hrequests⟩ :=
      List.forall₂_cons_right_iff.mp hlogged.sent
    rw [List.forall₂_nil_right_iff.mp hothers] at hrequests
    exact ⟨sent, hsent, hrequests⟩
  have hrequested : read.requested = 1 := hlogged.budgeted.1
  have hlast : (Tekton.requests Tekton.twoLogs.1).getLast?.map (fun sent =>
      (Tekton.reply .read 1 sent.2).toOption) = some (some [0x78]) := by decide +kernel
  intro other hother
  obtain rfl := List.mem_singleton.mp hother
  refine ⟨?_, hrequested⟩
  have hreply := hsent.2
  rw [ht, Tekton.requests_append, hrequests, List.getLast?_append, List.getLast?_singleton,
    Option.some_or, Option.map_some, ← hrequested, hreply] at hlast
  simpa [Except.toOption] using hlast

/-- The log of the sample is sheltered, and so is a log without secrets. -/
theorem cut_secrets_hidden_iff_token :
    (∃ (t : Trace Ran) (logs : PodLogs) (bytes : Bytes) (pieces : List Piece),
      LogServed sampleLogsQuery t bytes ∧
        Shown marker sampleClient.redactions (Text.decodeLossy bytes) logs.text pieces ∧
        ¬ Discloses sampleClient.redactions (Text.decodeLossy tokenLog).toList pieces) ∧
    ∃ (result : Json.Value) (selected : List (String × String)) (reads : List Tekton.LogRead)
      (logs : List Tekton.StepLog) (stepsOmitted truncated : Bool),
      Tekton.LogCall Tekton.twoCrates Tekton.sampleClient Tekton.twoQuery Tekton.twoLogs.1 result
        selected reads logs stepsOmitted truncated ∧
      ∀ log ∈ logs, ∃ read ∈ reads, ∃ pieces,
        Shown Tekton.marker (Tekton.sampleClient.redactions ++ [read.token])
          (Text.decodeLossy read.bytes) log.text pieces ∧
        ¬ Discloses (Tekton.sampleClient.redactions ++ [read.token]) "x".toList pieces := by
  constructor
  · have hnew : KubernetesClient.new (fun _ => none) none sampleConfig = .ok sampleClient := rfl
    obtain ⟨logs, hrun⟩ := Program.answered_ok respondPod 3
      (sampleClient.podLogsCancelled sampleParser sampleLogsQuery).run (by decide +kernel)
    obtain ⟨bytes, pieces, hserved, hshown, hhidden⟩ :=
      (cut_secrets_hidden_iff sampleParser Tekton.twoCrates).1 _ _ _ _ _ _ logs hnew hrun
    have hbytes : bytes = tokenLog := by
      have hsecond : secondOutput ((sampleClient.podLogsCancelled sampleParser
          sampleLogsQuery).run.answered respondPod 3).1 = some tokenLog := by decide +kernel
      rw [secondOutput_eq hserved] at hsecond
      exact Option.some.inj hsecond
    subst hbytes
    have hsheltered : Sheltered marker sampleClient.redactions (Text.decodeLossy tokenLog).toList
        (Text.decodeLossy tokenLog).toList sampleLogsQuery.maxBytes.toNat := by decide +kernel
    exact ⟨_, logs, _, pieces, hserved, hshown,
      (hhidden tokenLog (by decide +kernel)).mpr hsheltered⟩
  · obtain ⟨result, hrun, hresult⟩ := Tekton.twoLogs_run
    obtain ⟨selected, reads, logs, stepsOmitted, truncated, hcall, hhidden⟩ :=
      (cut_secrets_hidden_iff sampleParser Tekton.twoCrates).2 _ _ _ result hrun
    refine ⟨result, selected, reads, logs, stepsOmitted, truncated, hcall, fun log hlog => ?_⟩
    obtain ⟨read, hread, pieces, hshown, hnot⟩ := hhidden log hlog
    obtain ⟨hbytes, hrequested⟩ := twoLogs_read hresult hcall read hread
    have htoken : read.token = "token" := by
      have hall : (Tekton.requests Tekton.twoLogs.1).all (fun sent => sent.1.token == "token") =
          true := by decide +kernel
      obtain ⟨sent, hsent, heq⟩ := hcall.token_used read hread
      rw [← heq]
      exact beq_iff_eq.mp (List.all_eq_true.mp hall sent hsent)
    have htext : Text.decodeLossy [0x78] = "x" := by decide
    refine ⟨read, hread, pieces, hshown, ?_⟩
    rw [← htext]
    refine (hnot [0x78] (by rw [hbytes, hrequested]; rfl)).mpr ?_
    rw [hbytes, htoken, hrequested]
    decide +kernel

/-- Of a secret that the limit cuts in two, the start is returned. -/
theorem cut_secret_shown : ¬ ∀ (query : PodLogsQuery) (whole : Bytes) (t : Trace Ran)
    (logs : PodLogs) (bytes : Bytes) (pieces : List Piece),
    Reaches (sampleClient.podLogsCancelled sampleParser query).run t (.done (.ok logs)) →
      LogServed query t bytes → bytes = whole.take query.maxBytes.toNat →
        Shown marker sampleClient.redactions (Text.decodeLossy bytes) logs.text pieces →
          ¬ Discloses sampleClient.redactions (Text.decodeLossy whole).toList pieces := by
  intro h
  obtain ⟨logs, hrun⟩ := Program.answered_ok respondCut 3
    (sampleClient.podLogsCancelled sampleParser fiveBytes).run (by decide +kernel)
  obtain ⟨bytes, hserved, rfl⟩ := podLogsCancelled_ok hrun
  have hbytes : bytes = tokenLog.take 5 := by
    have hsecond : secondOutput cutRun.1 = some (tokenLog.take 5) := by decide +kernel
    have hserved : secondOutput cutRun.1 = some bytes := secondOutput_eq hserved
    exact Option.some.inj (hserved.symm.trans hsecond)
  subst hbytes
  obtain ⟨pieces, hshown, hiff⟩ :=
    podLogs_shown_iff sampleClient fiveBytes (tokenLog.take 5) (by decide)
  have hhidden := h fiveBytes tokenLog _ _ _ pieces hrun hserved rfl hshown
  exact absurd ((hiff _).mp hhidden) (by decide +kernel)

end LogCuts
