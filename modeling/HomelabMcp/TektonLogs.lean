import HomelabMcp.TektonListing

/-!
# Logs of the Tekton client

`logs` reads the log of a pod once it has found that the pod belongs to the task.  The name of the
pod comes from the task and is spliced into two URLs: the one that is verified, and the one that is
read.

* `log_reads_accepted_pod_iff`: the log is read from the accepted pod exactly when its name is one
  path segment (`PodNameOk`).
* `query_in_pod_name`: with a name that contains `?`, another URL is read.
-/

namespace Tekton

open Interaction
open Http (Exchange)
open Json (Value)
open Text (Bytes)
open WebUrl (Url)
open Monitor (history)

variable {crates : Crates} {client : TektonClient} {query : TaskLogsQuery} {t : Trace Ans}

/-- The path of the pods. -/
def podsPath (client : TektonClient) : List (List Char) :=
  ["api".toList, "v1".toList, "namespaces".toList, client.kubeNamespace.toList, "pods".toList]

/-- The path of the pods. -/
theorem podsPath_eq (client : TektonClient) :
    podsPath client = ["api".toList, "v1".toList, "namespaces".toList,
      "pipelines-as-code".toList, "pods".toList] := by
  rw [podsPath, client.kubeNamespace_eq]

/-- It is plain. -/
theorem podsPath_plain (client : TektonClient) :
    ∀ s ∈ podsPath client, WebUrl.PlainSegment s := by
  rw [podsPath_eq]
  decide +kernel

/-- It is there. -/
theorem podsPath_ne_nil (client : TektonClient) : podsPath client ≠ [] := List.cons_ne_nil _ _

/-- So is the last segment of a log. -/
theorem log_plain : WebUrl.PlainSegment "log".toList := by decide +kernel

/-- The name of the pod is one path segment behind the path of the pods. -/
def PodNameOk (client : TektonClient) (pod : String) : Prop :=
  ∃ p, WebUrl.Names (podsPath client) pod.toList p

/-- The path of a pod, segment by segment. -/
theorem podPath_toList (client : TektonClient) (pod : String) :
    (client.podPath pod).toList = '/' :: (WebUrl.directory (podsPath client) ++ pod.toList) := by
  have hstart : "/api/v1/namespaces/".toList ++ "pipelines-as-code".toList ++ "/pods/".toList =
      '/' :: WebUrl.directory (podsPath client) := by
    rw [podsPath_eq]
    decide +kernel
  unfold TektonClient.podPath
  simp only [client.kubeNamespace_eq, String.toList_append]
  exact congrArg (· ++ pod.toList) hstart

/-- A path below the pods is joined without its leading slash. -/
theorem kubeUrl_pods {path : String} {rest : List Char} (query : List (String × String))
    (hpath : path.toList = '/' :: (WebUrl.directory (podsPath client) ++ rest)) :
    client.kubeUrl path query =
      (client.kubeOrigin.join (WebUrl.directory (podsPath client) ++ rest)).extendPairs query := by
  have hfirst : WebUrl.directory (podsPath client) = 'a' :: _ := rfl
  exact client.kubeUrl_directory hfirst (by decide) hpath query

/-- The URL that is verified. -/
theorem kubeUrl_pod (client : TektonClient) (pod : String) :
    client.kubeUrl (client.podPath pod) [] = (client.kubeOrigin.join
      (WebUrl.directory (podsPath client) ++ pod.toList)).extendPairs [] :=
  kubeUrl_pods [] (podPath_toList client pod)

/-- The URL that is read. -/
theorem kubeUrl_log (client : TektonClient) (pod : String) (query : List (String × String)) :
    client.kubeUrl (client.podPath pod ++ "/log") query = (client.kubeOrigin.join
      (WebUrl.directory (podsPath client) ++ (pod.toList ++ '/' :: "log".toList))).extendPairs
        query := by
  have hlog : "/log".toList = '/' :: "log".toList := by decide +kernel
  refine kubeUrl_pods query ?_
  rw [String.toList_append, podPath_toList, List.cons_append, List.append_assoc, hlog]

/-- Both URLs go to one pod exactly when the name of the pod is one path segment. -/
theorem urls_agree_iff (client : TektonClient) (pod : String) (query : List (String × String))
    (p : List Char) :
    p ≠ [] ∧ (client.kubeUrl (client.podPath pod) []).segments = podsPath client ++ [p] ∧
        (client.kubeUrl (client.podPath pod ++ "/log") query).segments =
          podsPath client ++ [p, "log".toList] ↔
      WebUrl.Names (podsPath client) pod.toList p := by
  have hagree := WebUrl.joins_agree_iff (podsPath_ne_nil client) (podsPath_plain client)
    (by decide) log_plain client.kubeOrigin pod.toList p
  have hroot : client.kubeOrigin.segments.dropLast ++ podsPath client = podsPath client := by
    rw [client.kubeOrigin_root]
    rfl
  rw [hroot] at hagree
  rw [kubeUrl_pod, kubeUrl_log, WebUrl.Url.extendPairs_segments,
    WebUrl.Url.extendPairs_segments]
  exact hagree

/-- Then the pairs of the log's query are its own. -/
theorem log_query {client : TektonClient} {pod : String} {p : List Char}
    (h : WebUrl.Names (podsPath client) pod.toList p) (query : List (String × String)) :
    (client.kubeUrl (client.podPath pod ++ "/log") query).query = some query := by
  rw [kubeUrl_log, WebUrl.Url.extendPairs,
    h.query (podsPath_ne_nil client) (podsPath_plain client) (by decide) log_plain]
  rfl

/-- The last request of a trace fetched, from this URL, an object that belongs to the task. -/
def Accepted (crates : Crates) (task : Value) (t : Trace Ans) (url : Url) : Prop :=
  ∃ earlier token exchange pod name uid,
    requests t = earlier ++ [(⟨.get, url, token, none⟩, exchange)] ∧
    jsonReply crates .read exchange = .ok pod ∧
    objectName task = some name ∧ objectUid task = some uid ∧
    ownedBy pod "TaskRun" name uid = true

/-- Any operation. -/
def mayAny (_ : Trace Ans) (_ : Op) : Prop := True

/-- Nothing is said of a part. -/
theorem wp_any {α : Type} (x : TektonCall α) (t : Trace Ans) :
    (history mayAny).wp x.run t fun _ _ => True :=
  Monitor.wp_true _ (fun _ _ => trivial) _ _

/-- After any first part, what follows must be right wherever it starts. -/
theorem wp_any_bind {α β : Type} {x : TektonCall α} {f : α → TektonCall β}
    {Q : Trace Ans → Except Error β → Prop} (herror : ∀ t e, Q t (.error e))
    (hf : ∀ a t, (history mayAny).wp (f a).run t Q) (t : Trace Ans) :
    (history mayAny).wp (x >>= f).run t Q := by
  rw [Monitor.wp_run_bind]
  refine Monitor.wp_mono _ (wp_any x t) fun t r _ => ?_
  cases r with
  | error e => exact herror t e
  | ok a => exact hf a t

/-- A pod that is verified was accepted. -/
theorem verifyTaskPod_spec {task : Value} {pod : String} :
    (history mayAny).wp (client.verifyTaskPod crates task pod).run t fun t' r =>
      r = .ok () → Accepted crates task t' (client.kubeUrl (client.podPath pod) []) := by
  unfold TektonClient.verifyTaskPod
  rw [Monitor.wp_run_bind, Monitor.wp_run_answer]
  cases huid : objectUid task with
  | none => exact nofun
  | some uid =>
      show (history mayAny).wp (answer (okOr Error.notFound (objectName task)) >>= _).run _ _
      rw [Monitor.wp_run_bind, Monitor.wp_run_answer]
      cases hname : objectName task with
      | none => exact nofun
      | some name =>
          show (history mayAny).wp (client.kubeJson crates .get (client.podPath pod) [] none .read
            >>= _).run _ _
          rw [Monitor.wp_run_bind]
          refine Monitor.wp_mono _ (kubeJson_spec (fun _ _ _ => trivial) fun _ _ _ => trivial)
            fun t' r hasked => ?_
          obtain ⟨u, hu, ⟨rfl, e, rfl⟩ | ⟨token, exchange, rfl, rfl⟩⟩ := hasked
          · exact nofun
          · cases hreply : jsonReply crates .read exchange with
            | error e => exact nofun
            | ok object =>
                refine Monitor.wp_run_ensure _ (fun howned _ => ?_) fun _ => nofun
                refine ⟨requests t, token, exchange, object, name, uid, ?_, hreply, hname, huid,
                  howned⟩
                rw [requests_append, requests_append, requests_quiet hu, List.append_nil]
                rfl

/-- So was the pod of a task that is verified. -/
theorem verifiedTask_spec :
    (history mayAny).wp (client.verifiedTask crates query).run t fun t' r =>
      ∀ task pod, r = .ok (task, pod) →
        Accepted crates task t' (client.kubeUrl (client.podPath pod) []) := by
  unfold TektonClient.verifiedTask
  have herror : ∀ (t : Trace Ans) (e : Error) (task : Value) (pod : String),
      (Except.error e : Except Error (Value × String)) = .ok (task, pod) →
        Accepted crates task t (client.kubeUrl (client.podPath pod) []) := nofun
  -- Only the last part matters: it verifies the pod that is returned.
  refine wp_any_bind herror (fun run t => ?_) t
  refine wp_any_bind herror (fun runName t => ?_) t
  refine wp_any_bind herror (fun runUid t => ?_) t
  refine wp_any_bind herror (fun repository t => ?_) t
  refine wp_any_bind herror (fun task t => ?_) t
  refine wp_any_bind herror (fun _ t => ?_) t
  refine wp_any_bind herror (fun pod t => ?_) t
  rw [Monitor.wp_run_bind]
  refine Monitor.wp_mono _ verifyTaskPod_spec fun t' r haccepted => ?_
  cases r with
  | error e => exact herror t' e
  | ok a =>
      rintro task' pod' hok
      obtain ⟨rfl, rfl⟩ : task = task' ∧ pod = pod' := by
        simpa using Except.ok.inj hok
      exact haccepted rfl

/-- The requests for the logs of a pod. -/
def mayRead (client : TektonClient) (query : TaskLogsQuery) (pod : String) (_ : Trace Ans)
    (op : Op) : Prop :=
  ∀ kind request, op = .send kind request → ∃ container requested,
    request.url = client.kubeUrl (client.podPath pod ++ "/log")
      (TektonClient.logQuery query container requested)

/-- Reading a log sends the one request. -/
theorem kubeText_spec {pod container : String} {requested limit : Nat} :
    (history (mayRead client query pod)).wp (client.kubeText (client.podPath pod ++ "/log")
      (TektonClient.logQuery query container requested) limit).run t fun _ _ => True := by
  unfold TektonClient.kubeText
  refine ⟨nofun, fun content => ?_⟩
  show (history _).wp (answer (serviceToken content) >>= _).run _ _
  rw [Monitor.wp_run_bind, Monitor.wp_run_answer]
  cases serviceToken content with
  | error e => trivial
  | ok token =>
      refine ⟨nofun, fun granted => ?_⟩
      cases granted with
      | false => trivial
      | true =>
          refine ⟨?_, fun exchange => ⟨nofun, fun ⟨⟩ => ?_⟩⟩
          · rintro kind request hsend
            obtain ⟨-, rfl⟩ := Op.send.inj hsend
            exact ⟨container, requested, rfl⟩
          · show (history _).wp (answer (reply .read limit exchange) >>= fun bytes =>
              pure (bytes, token)).run _ _
            rw [Monitor.wp_run_bind, Monitor.wp_run_answer]
            cases reply .read limit exchange <;> trivial

/-- The loop sends such requests only. -/
theorem stepLogs_spec {pod : String} (steps : List (String × String)) (remaining : Nat) :
    (history (mayRead client query pod)).wp (client.stepLogs query pod steps remaining).run t
      fun _ _ => True := by
  induction steps generalizing t remaining with
  | nil => trivial
  | cons step steps ih =>
      unfold TektonClient.stepLogs
      split_ifs with hnone
      · trivial
      rw [Monitor.wp_run_bind]
      refine Monitor.wp_mono _ kubeText_spec fun t' r _ => ?_
      rcases r with e | ⟨bytes, token⟩
      · trivial
      dsimp only
      rw [Monitor.wp_run_bind]
      refine Monitor.wp_mono _ (ih _) fun t' r _ => ?_
      cases r <;> trivial

/-- So does the whole call. -/
theorem podLogs_spec {task : Value} {pod : String} :
    (history (mayRead client query pod)).wp (client.podLogs query task pod).run []
      fun _ _ => True := by
  unfold TektonClient.podLogs
  rw [Monitor.wp_run_bind, Monitor.wp_run_answer]
  cases okOr Error.invalidResponse ((task.field "status").field "steps").asArray with
  | error e => trivial
  | ok available =>
      dsimp only
      rw [Monitor.wp_run_bind]
      refine Monitor.wp_run_ensure _ (fun _ => ?_) fun _ => trivial
      dsimp only
      rw [Monitor.wp_run_bind]
      refine Monitor.wp_mono _ (stepLogs_spec _ _) fun t' r _ => ?_
      cases r <;> trivial

/-- The request reads the log of the accepted pod: both URLs go to one segment behind the path of
the pods, and each parameter occurs once. -/
def ReadsAccepted (crates : Crates) (client : TektonClient) (task : Value) (before : Trace Ans)
    (request : Request) : Prop :=
  ∃ p url, p ≠ [] ∧ Accepted crates task before url ∧ url.segments = podsPath client ++ [p] ∧
    request.url.segments = podsPath client ++ [p, "log".toList] ∧
    ∀ name ∈ ["container", "tailLines", "limitBytes"],
      (request.url.parameter name).length = 1

/-- A pod is accepted at one URL. -/
theorem Accepted.url_eq {task : Value} {url url' : Url} (h : Accepted crates task t url)
    (h' : Accepted crates task t url') : url = url' := by
  obtain ⟨earlier, token, exchange, -, -, -, hlast, -⟩ := h
  obtain ⟨earlier', token', exchange', -, -, -, hlast', -⟩ := h'
  obtain ⟨-, heq⟩ := List.append_inj' (hlast.symm.trans hlast') rfl
  have hpair := List.singleton_injective heq
  exact congrArg (fun pair => pair.1.url) hpair

/-- The log is read of the accepted pod where its name stays a segment. -/
theorem readsAccepted_iff {task : Value} {pod container : String} {requested : Nat}
    {request : Request}
    (haccepted : Accepted crates task t (client.kubeUrl (client.podPath pod) []))
    (hurl : request.url = client.kubeUrl (client.podPath pod ++ "/log")
      (TektonClient.logQuery query container requested)) :
    ReadsAccepted crates client task t request ↔ PodNameOk client pod := by
  constructor
  · rintro ⟨p, url, hp, hurl', hpod, hlog, -⟩
    obtain rfl := hurl'.url_eq haccepted
    rw [hurl] at hlog
    exact ⟨p, (urls_agree_iff client pod _ p).mp ⟨hp, hpod, hlog⟩⟩
  · rintro ⟨p, hnames⟩
    obtain ⟨hp, hpod, hlog⟩ := (urls_agree_iff client pod _ p).mpr hnames
    refine ⟨p, _, hp, haccepted, hpod, hurl ▸ hlog, fun name hname => ?_⟩
    rw [WebUrl.Url.parameter, hurl, log_query hnames]
    simp only [List.mem_cons, List.not_mem_nil, or_false] at hname
    rcases hname with rfl | rfl | rfl <;> rfl

/-- **The log is read from the accepted pod** exactly when the name of the pod is one path segment:
for every request of `logs` after the task and its pod were verified. -/
theorem log_reads_accepted_pod_iff (crates : Crates) (client : TektonClient)
    (query : TaskLogsQuery) {t before : Trace Ans} {kind : OperationKind} {request : Request}
    {next : Ans (.send kind request) → Program Op Ans (Except Error Value)} {task : Value}
    {pod : String}
    (hrun : Reaches (client.logs crates query).run t (.call (.send kind request) next))
    (hverified : Reaches (client.verifiedTask crates query).run before (.done (.ok (task, pod))))
    (hbefore : before <+: t) :
    ReadsAccepted crates client task before request ↔ PodNameOk client pod := by
  obtain ⟨after, rfl⟩ := hbefore
  have hread : Reaches (client.podLogs query task pod).run after
      (.call (.send kind request) next) := hverified.of_bind hrun
  obtain ⟨container, requested, hurl⟩ :=
    Monitor.history_pending hread podLogs_spec kind request rfl
  exact readsAccepted_iff (Monitor.history_finished hverified verifiedTask_spec task pod rfl) hurl

/-- A run. -/
def sampleRun : Bytes := [
  "\x7b\"metadata\":\x7b\"labels\":\x7b", "\"pipelinesascode.tekton.dev/", "repository\":\"demo\"\x7d,",
  "\"name\":\"run\",\"uid\":\"1\"\x7d\x7d"].flatMap Text.ascii

/-- The same run as it is parsed. -/
def sampleRunValue : Value := .object [("metadata", .object [
  ("labels", .object [("pipelinesascode.tekton.dev/repository", .string "demo")]),
  ("name", .string "run"), ("uid", .string "1")])]

/-- The repositories. -/
def sampleRepositories : Bytes := [
  "\x7b\"items\":[\x7b\"metadata\":", "\x7b\"name\":\"demo\"\x7d,\"spec\":", "\x7b\"url\":\"https://",
  "git.holdenitdown.net/a/b\"\x7d\x7d]\x7d"].flatMap Text.ascii

/-- The same as they are parsed. -/
def sampleRepositoriesValue : Value := .object [("items", .array [.object [
  ("metadata", .object [("name", .string "demo")]),
  ("spec", .object [("url", .string "https://git.holdenitdown.net/a/b")])]])]

/-- A task of the run; `pod` is the name of its pod. -/
def sampleTask (pod : String) : Bytes := [
  "\x7b\"metadata\":\x7b\"labels\":\x7b", "\"pipelinesascode.tekton.dev/", "repository\":\"demo\",",
  "\"tekton.dev/pipelineRun\":\"run\"\x7d,", "\"name\":\"task\",", "\"ownerReferences\":[\x7b\"kind\":",
  "\"PipelineRun\",\"name\":\"run\",", "\"uid\":\"1\"\x7d],\"uid\":\"2\"\x7d,", "\"status\":\x7b\"podName\":\"", pod,
  "\",\"steps\":[\x7b\"container\":", "\"step-a\",\"name\":\"a\"\x7d]\x7d\x7d"].flatMap Text.ascii

/-- A task with that pod, as it is parsed. -/
def sampleTaskValue (pod : String) : Value := .object [
  ("metadata", .object [
    ("labels", .object [("pipelinesascode.tekton.dev/repository", .string "demo"),
      ("tekton.dev/pipelineRun", .string "run")]),
    ("name", .string "task"),
    ("ownerReferences", .array [.object [("kind", .string "PipelineRun"),
      ("name", .string "run"), ("uid", .string "1")]]),
    ("uid", .string "2")]),
  ("status", .object [("podName", .string pod), ("steps", .array [.object [
    ("container", .string "step-a"), ("name", .string "a")]])])]

/-- A pod of the task. -/
def samplePod : Bytes := [
  "\x7b\"metadata\":\x7b", "\"ownerReferences\":[\x7b\"kind\":", "\"TaskRun\",\"name\":\"task\",",
  "\"uid\":\"2\"\x7d]\x7d\x7d"].flatMap Text.ascii

/-- The same pod as it is parsed. -/
def samplePodValue : Value := .object [("metadata", .object [("ownerReferences",
  .array [.object [("kind", .string "TaskRun"), ("name", .string "task"),
    ("uid", .string "2")]])])]

/-- Parsers that know the texts of the samples. -/
def logCrates (pod : String) : Crates where
  parseJson bytes :=
    if bytes = sampleRun then some sampleRunValue
    else if bytes = sampleRepositories then some sampleRepositoriesValue
    else if bytes = sampleTask pod then some (sampleTaskValue pod)
    else if bytes = samplePod then some samplePodValue
    else none
  parseUrl text :=
    if text = "https://git.holdenitdown.net/a/b" then
      some ⟨"https", "", none, "git.holdenitdown.net", 443, [['a'], ['b']], none, none⟩
    else none

/-- A server with the run, its task and the pod. -/
def respond (pod : String) : (op : Op) → Ans op
  | .readToken => some "token"
  | .tryAcquire => true
  | .release => ()
  | .send _ request => .response 200 (.whole (
      if request.url.segments.contains "pipelineruns".toList then sampleRun
      else if request.url.segments.contains "repositories".toList then sampleRepositories
      else if request.url.segments.contains "taskruns".toList then sampleTask pod
      else samplePod))

/-- A query of the logs. -/
def logsQuery : TaskLogsQuery where
  runId := "pipelines-as-code/run"
  taskId := "pipelines-as-code/task"
  step := none
  tailLines := 100
  maxBytes := 1024

/-- What `logs` verifies with that server. -/
def verifiedBy (pod : String) : Trace Ans × Program Op Ans (Except Error (Value × String)) :=
  (sampleClient.verifiedTask (logCrates pod) logsQuery).run.answered (respond pod) 16

/-- The first request for a log. -/
def readBy (pod : String) : Trace Ans × Program Op Ans (Except Error Value) :=
  (sampleClient.logs (logCrates pod) logsQuery).run.answered (respond pod) 18

/-- Whether the task was verified with a pod. -/
def returnsPod (pod : String) : Program Op Ans (Except Error (Value × String)) → Bool
  | .done (.ok (_, name)) => name == pod
  | _ => false

/-- Whether the segments of the next request are these. -/
def asksFor (segments : List (List Char)) : Program Op Ans (Except Error Value) → Bool
  | .call (.send _ request) _ => request.url.segments == segments
  | _ => false

/-- The run that verifies starts the run of `logs`. -/
theorem verifiedBy_start (pod : String) : (verifiedBy pod).1 <+: (readBy pod).1 := by
  have hlogs : (sampleClient.logs (logCrates pod) logsQuery).run =
      (sampleClient.verifiedTask (logCrates pod) logsQuery).run >>= ExceptT.bindCont
        fun verified => sampleClient.podLogs logsQuery verified.1 verified.2 := rfl
  rw [verifiedBy, readBy, hlogs]
  exact Program.answered_bind_start (respond pod) _ (by decide) _

/-- A call that verifies one pod and reads at other segments. -/
theorem sample_runs {pod : String} {segments : List (List Char)}
    (hverified : returnsPod pod (verifiedBy pod).2) (hread : asksFor segments (readBy pod).2) :
    ∃ t before kind request next task,
      Reaches (sampleClient.logs (logCrates pod) logsQuery).run t (.call (.send kind request) next) ∧
      Reaches (sampleClient.verifiedTask (logCrates pod) logsQuery).run before
        (.done (.ok (task, pod))) ∧
      before <+: t ∧ request.url.segments = segments := by
  have hrun : Reaches (sampleClient.logs (logCrates pod) logsQuery).run (readBy pod).1
      (readBy pod).2 := Program.answered_reaches _ _ _
  have hbefore : Reaches (sampleClient.verifiedTask (logCrates pod) logsQuery).run
      (verifiedBy pod).1 (verifiedBy pod).2 := Program.answered_reaches _ _ _
  have hstart := verifiedBy_start pod
  unfold returnsPod at hverified
  unfold asksFor at hread
  split at hverified
  · next task name hdone =>
      obtain rfl := eq_of_beq hverified
      split at hread
      · next kind request next hcall =>
          exact ⟨_, _, kind, request, next, task, hcall ▸ hrun, hdone ▸ hbefore, hstart,
            eq_of_beq hread⟩
      · cases hread
  · cases hverified

/-- A plain name of a pod is one path segment. -/
theorem log_reads_accepted_pod_iff_plain : ∃ task before request,
    ReadsAccepted (logCrates "pod-a") sampleClient task before request := by
  obtain ⟨t, before, kind, request, next, task, hrun, hverified, hbefore, -⟩ :=
    sample_runs (show returnsPod "pod-a" _ = true by decide +kernel)
      (show asksFor (podsPath sampleClient ++ ["pod-a".toList, "log".toList]) _ = true by
        decide +kernel)
  have hplain : WebUrl.PlainSegment "pod-a".toList := by decide +kernel
  exact ⟨task, before, request,
    (log_reads_accepted_pod_iff _ _ _ hrun hverified hbefore).mpr
      ⟨_, hplain.names (by decide) _⟩⟩

/-- With `?` in the name of the pod, the object of another pod is read and no log. -/
theorem query_in_pod_name : ¬ ∀ t before kind request next task,
    Reaches (sampleClient.logs (logCrates "pod-a?x") logsQuery).run t
        (.call (.send kind request) next) →
      Reaches (sampleClient.verifiedTask (logCrates "pod-a?x") logsQuery).run before
        (.done (.ok (task, "pod-a?x"))) →
      before <+: t → ReadsAccepted (logCrates "pod-a?x") sampleClient task before request := by
  intro h
  obtain ⟨t, before, kind, request, next, task, hrun, hverified, hbefore, hsegments⟩ :=
    sample_runs (show returnsPod "pod-a?x" _ = true by decide +kernel)
      (show asksFor (podsPath sampleClient ++ ["pod-a".toList]) _ = true by decide +kernel)
  obtain ⟨p, -, -, -, -, hlog, -⟩ := h t before kind request next task hrun hverified hbefore
  have hlength := congrArg List.length (hsegments.symm.trans hlog)
  simp at hlength

end Tekton
