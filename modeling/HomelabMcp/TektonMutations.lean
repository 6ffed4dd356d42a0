import HomelabMcp.TektonIdentity
import HomelabMcp.TektonLogs
import HomelabMcp.ToolError

/-!
# Mutations of the Tekton client

`dispatch`, `rerun` and `cancel` read what they need, send one mutating request at their end, and
answer with what its exchange allows.

* `mutation_safety`: at most one mutating request is sent, only what was read in the same call is
  sent, an error that may be retried means that nothing was sent, and otherwise the answer is
  settled by the exchange.

A command is safe after a trace (`SafeAfter`) when its parts are: a reading part may stand before
a safe one.
-/

namespace Tekton

open Interaction
open Http (Exchange)
open Json (Value)
open Text (Bytes)
open Tools (ToolError)

/-- The tool error of an error; `subject` is what the call was about. -/
def Error.intoToolError (e : Error) (subject : String) : ToolError :=
  match e with
  | .invalidArguments => ⟨"invalid_arguments", "The " ++ subject ++ " arguments are invalid.", false⟩
  | .capacityExhausted =>
      ⟨"capacity_exhausted", "Tekton request capacity is currently exhausted.", true⟩
  | .timeout => ⟨"timeout", "The Tekton query timed out.", true⟩
  | .unauthorized =>
      ⟨"tekton_unauthorized", "An upstream service rejected the MCP service credentials.", false⟩
  | .notFound => ⟨"not_found", "The requested " ++ subject ++ " was not found.", false⟩
  | .queryRejected =>
      ⟨"query_rejected", "An upstream service rejected the " ++ subject ++ " query.", false⟩
  | .mutationRejected =>
      ⟨"mutation_rejected", "The requested Tekton mutation was rejected.", false⟩
  | .mutationOutcomeUnknown =>
      ⟨"mutation_outcome_unknown", "The Tekton mutation did not complete cleanly; its outcome " ++
        "may be uncertain. Inspect current runs before retrying.", false⟩
  | .upstreamUnavailable =>
      ⟨"upstream_unavailable", "A Tekton integration dependency is currently unavailable.", true⟩
  | .invalidResponse =>
      ⟨"invalid_response", "A Tekton integration dependency returned an invalid response.", false⟩

variable {t : Trace Ans} {α : Type}

/-- The requests of a trace that are not GETs, with their exchanges. -/
def mutations (t : Trace Ans) : List (Request × Exchange) :=
  (requests t).filter fun sent => sent.1.method ≠ .get

/-- The mutations of both stretches. -/
theorem mutations_append (t u : Trace Ans) : mutations (t ++ u) = mutations t ++ mutations u := by
  rw [mutations, requests_append, List.filter_append]
  rfl

/-- What only reads has sent no mutation. -/
theorem ReadsOnly.mutations_nil {x : TektonCall α} {q : Program Op Ans (Except Error α)}
    (hx : ReadsOnly x) (h : Reaches x.run t q) : mutations t = [] := by
  refine List.filter_eq_nil_iff.mpr fun sent hsent => ?_
  obtain ⟨event, hevent, hsome⟩ := List.mem_filterMap.mp hsent
  obtain ⟨before, after, rfl⟩ := List.append_of_mem hevent
  obtain ⟨next, hnext⟩ := h.before
  obtain ⟨op, exchange⟩ := event
  cases op with
  | send kind request =>
      obtain rfl := Option.some.inj hsome
      simp [(hx _ _ _ _ hnext).2]
  | _ => cases hsome

/-- The error is a definite rejection for this status. -/
def Rejects (status : Nat) (e : Error) : Prop :=
  (e = .unauthorized ∧ (status = 401 ∨ status = 403)) ∨ (e = .notFound ∧ status = 404) ∨
    (e = .mutationRejected ∧ 400 ≤ status ∧ status < 500)

/-- What a mutation may answer after its exchange: success for a 2xx status, a rejection for a 4xx
status, or an unknown outcome. -/
def Settles (exchange : Exchange) : Except Error α → Prop
  | .ok _ => ∃ status body, exchange = .response status body ∧ 200 ≤ status ∧ status < 300
  | .error e => e = .mutationOutcomeUnknown ∨
      ∃ status body, exchange = .response status body ∧ Rejects status e

/-- A reply settles an exchange. -/
theorem reply_settles (limit : Nat) (exchange : Exchange) :
    Settles exchange (reply .mutation limit exchange) := by
  cases exchange with
  | failed => exact .inl rfl
  | elapsed => exact .inl rfl
  | response status body =>
      unfold reply
      dsimp only
      by_cases hauth : status = 401 ∨ status = 403
      · rw [if_pos hauth]
        exact .inr ⟨status, body, rfl, .inl ⟨rfl, hauth⟩⟩
      rw [if_neg hauth]
      by_cases hmissing : status = 404
      · rw [if_pos hmissing]
        exact .inr ⟨status, body, rfl, .inr (.inl ⟨rfl, hmissing⟩)⟩
      rw [if_neg hmissing]
      cases hsuccess : Http.isSuccess status with
      | false =>
          cases hclient : Http.isClientError status with
          | false => exact .inl rfl
          | true =>
              simp only [Http.isClientError, Bool.and_eq_true, decide_eq_true_eq] at hclient
              exact .inr ⟨status, body, rfl, .inr (.inr ⟨rfl, hclient⟩)⟩
      | true =>
          simp only [Http.isSuccess, Bool.and_eq_true, decide_eq_true_eq] at hsuccess
          cases hread : Http.readLimited limit body with
          | error e =>
              cases e <;> exact .inl rfl
          | ok bytes => exact ⟨status, body, rfl, hsuccess⟩

/-- No answer that an exchange settles may be retried. -/
theorem Settles.not_retryable {exchange : Exchange} {e : Error}
    (h : Settles exchange (.error e : Except Error α)) (subject : String) :
    (e.intoToolError subject).retryable = false := by
  rcases h with rfl | ⟨status, body, -, ⟨rfl, -⟩ | ⟨rfl, -⟩ | ⟨rfl, -⟩⟩ <;> rfl

/-- A trace and what the call answered after it: nothing was sent, or one request, whose exchange
settles the answer. -/
def Settled (t : Trace Ans) (outcome : Except Error α) : Prop :=
  mutations t = [] ∨ ∃ request exchange, mutations t = [(request, exchange)] ∧
    Settles exchange outcome

/-- After `before`, the program sends at most one mutation, which `may` be sent after what was sent
before it, and its answer is settled. -/
structure SafeAfter (before : Trace Ans) (may : Trace Ans → Request → Prop)
    (x : TektonCall α) : Prop where
  sends : ∀ t k r next, Reaches x.run t (.call (.send k r) next) → r.method ≠ .get →
    mutations t = [] ∧ may (before ++ t) r
  answers : ∀ t outcome, Reaches x.run t (.done outcome) → Settled t outcome

/-- **Sequencing.**  A reading part stands before a part that is safe after each of its runs. -/
theorem SafeAfter.bind {β : Type} {before : Trace Ans} {may : Trace Ans → Request → Prop}
    {x : TektonCall α} {f : α → TektonCall β} (hx : ReadsOnly x)
    (hf : ∀ a u, Reaches x.run u (.done (.ok a)) → SafeAfter (before ++ u) may (f a)) :
    SafeAfter before may (x >>= f) := by
  constructor
  · intro t k r next h hr
    rcases h.run_bind_call with ⟨next', hfirst⟩ | ⟨a, first, rest, hfirst, hrest, rfl⟩
    · exact absurd (hx _ _ _ _ hfirst).2 hr
    · obtain ⟨hnone, hmay⟩ := (hf a first hfirst).sends _ _ _ _ hrest hr
      rw [List.append_assoc] at hmay
      exact ⟨by rw [mutations_append, hx.mutations_nil hfirst, hnone]; rfl, hmay⟩
  · intro t outcome h
    rcases h.run_bind_done with ⟨e, -, hfirst⟩ | ⟨a, first, rest, hfirst, hrest, rfl⟩
    · exact .inl (hx.mutations_nil hfirst)
    · have hsettled := (hf a first hfirst).answers _ _ hrest
      rwa [Settled, mutations_append, hx.mutations_nil hfirst, List.nil_append]

/-- A value before what is safe. -/
theorem SafeAfter.answer {β : Type} {before : Trace Ans} {may : Trace Ans → Request → Prop}
    {r : Except Error α} {f : α → TektonCall β}
    (hf : ∀ a, r = .ok a → SafeAfter before may (f a)) :
    SafeAfter before may (Interaction.answer r >>= f) := by
  refine SafeAfter.bind (ReadsOnly.answer r) fun a u hrun => ?_
  obtain ⟨hr, hnil⟩ := hrun.run_answer_ok
  rw [hnil, List.append_nil]
  exact hf a hr

/-- A condition before it. -/
theorem SafeAfter.ensure {β : Type} {before : Trace Ans} {may : Trace Ans → Request → Prop}
    {ok : Bool} {e : Error} {f : Unit → TektonCall β}
    (hf : ok = true → SafeAfter before may (f ())) :
    SafeAfter before may (Interaction.ensure ok e >>= f) := by
  refine SafeAfter.bind (ReadsOnly.ensure ok e) fun _ u hrun => ?_
  obtain ⟨hok, hnil⟩ := hrun.run_ensure_done
  rw [hnil, List.append_nil]
  exact hf hok

/-- The last part: one mutating request, and an answer made of its outcome. -/
theorem SafeAfter.mutate {β : Type} {before : Trace Ans} {may : Trace Ans → Request → Prop}
    {x : TektonCall α} {result : β} (P : Request → Prop)
    (hsends : ∀ t k r next, Reaches x.run t (.call (.send k r) next) → requests t = [] ∧ P r)
    (hdone : ∀ t r, Reaches x.run t (.done r) → requests t = [] ∨
      ∃ request exchange, requests t = [(request, exchange)] ∧ request.method ≠ .get ∧
        Settles exchange r)
    (hmay : ∀ u r, P r → may (before ++ u) r) :
    SafeAfter before may (x >>= fun _ => (pure result : TektonCall β)) := by
  constructor
  · intro t k r next h _
    rcases h.run_bind_call with ⟨next', hfirst⟩ | ⟨a, first, rest, -, hrest, -⟩
    · obtain ⟨hnone, hP⟩ := hsends _ _ _ _ hfirst
      exact ⟨by rw [mutations, hnone]; rfl, hmay t r hP⟩
    · cases hrest
  · intro t outcome h
    have hsettled : ∀ (u : Trace Ans) (r : Except Error α), Reaches x.run u (.done r) →
        Settled u r := by
      intro u r hu
      rcases hdone u r hu with hnone | ⟨request, exchange, hone, hmethod, hsettles⟩
      · exact .inl (by rw [mutations, hnone]; rfl)
      · exact .inr ⟨request, exchange, by simp [mutations, hone, hmethod], hsettles⟩
    rcases h.run_bind_done with ⟨e, rfl, hfirst⟩ | ⟨a, first, rest, hfirst, hrest, rfl⟩
    · exact hsettled t _ hfirst
    · cases hrest
      rw [List.append_nil]
      exact hsettled first _ hfirst

variable {crates : WorkflowCrates} {client : PacClient}

/-- The call has read the catalog, with this repository in it. -/
def Cataloged (crates : WorkflowCrates) (client : PacClient) (t : Trace Ans)
    (repository : Repository) : Prop :=
  ∃ before listing after repositories, t = before ++ listing ++ after ∧
    Reaches (client.repositoryCatalog crates.toCrates).run listing (.done (.ok repositories)) ∧
    repository ∈ repositories

/-- The call has received a file of this revision of the repository that defines the workflow. -/
def DefinedIn (crates : WorkflowCrates) (client : PacClient) (t : Trace Ans)
    (repository : Repository) (revision path : String) (workflow : Workflow) : Prop :=
  ∃ content bytes workflows, Received crates.toCrates t
      (client.forgejoUrl (PacClient.contentSegments repository path) [("ref", revision)]) content ∧
    fileBytes crates content = .ok bytes ∧
    parseWorkflows crates repository revision path bytes = .ok workflows ∧ workflow ∈ workflows

/-- The call has discovered the workflow: it has received the default branch of the repository, a
listing of that branch, and a file of the listing that defines the workflow. -/
def Discovered (crates : WorkflowCrates) (client : PacClient) (t : Trace Ans)
    (repository : Repository) (workflow : Workflow) : Prop :=
  ∃ metadata revision listing files path,
    Received crates.toCrates t (client.forgejoUrl (PacClient.repositorySegments repository) [])
      metadata ∧ defaultBranch metadata = .ok revision ∧
    Received crates.toCrates t (client.forgejoUrl (PacClient.repositorySegments repository ++
      ["contents".toList, ".tekton".toList]) [("ref", revision)]) listing ∧
    workflowFiles listing = .ok files ∧ path ∈ files ∧
    DefinedIn crates client t repository revision path workflow

/-- What was cataloged stays so. -/
theorem Cataloged.mono {repository : Repository} (h : Cataloged crates client t repository)
    (u v : Trace Ans) : Cataloged crates client (u ++ t ++ v) repository := by
  obtain ⟨before, listing, after, repositories, rfl, hrun, hmem⟩ := h
  exact ⟨u ++ before, listing, after ++ v, repositories, by simp, hrun, hmem⟩

/-- So does what was defined, with more before. -/
theorem DefinedIn.append_left {repository : Repository} {revision path : String}
    {workflow : Workflow} (h : DefinedIn crates client t repository revision path workflow)
    (u : Trace Ans) : DefinedIn crates client (u ++ t) repository revision path workflow := by
  obtain ⟨content, bytes, workflows, hcontent, hrest⟩ := h
  exact ⟨content, bytes, workflows, hcontent.append_left u, hrest⟩

/-- And with more after. -/
theorem DefinedIn.append_right {repository : Repository} {revision path : String}
    {workflow : Workflow} (h : DefinedIn crates client t repository revision path workflow)
    (u : Trace Ans) : DefinedIn crates client (t ++ u) repository revision path workflow := by
  obtain ⟨content, bytes, workflows, hcontent, hrest⟩ := h
  exact ⟨content, bytes, workflows, hcontent.append_right u, hrest⟩

/-- What was discovered stays so. -/
theorem Discovered.mono {repository : Repository} {workflow : Workflow}
    (h : Discovered crates client t repository workflow) (u v : Trace Ans) :
    Discovered crates client (u ++ t ++ v) repository workflow := by
  obtain ⟨metadata, revision, listing, files, path, hmetadata, hrevision, hlisting, hfiles, hpath,
    hdefined⟩ := h
  exact ⟨metadata, revision, listing, files, path, (hmetadata.append_left u).append_right v,
    hrevision, (hlisting.append_left u).append_right v, hfiles, hpath,
    (hdefined.append_left u).append_right v⟩

/-- The workflows of files were defined in them. -/
theorem fileWorkflows_defined {repository : Repository} {revision : String} {files : List String}
    {total : Nat} {workflows : List Workflow}
    (h : Reaches (client.fileWorkflows crates repository revision files total).run t
      (.done (.ok workflows))) :
    ∀ workflow ∈ workflows, ∃ path ∈ files,
      DefinedIn crates client t repository revision path workflow := by
  induction files generalizing total t workflows with
  | nil =>
      cases h
      exact fun workflow hmem => absurd hmem List.not_mem_nil
  | cons path files ih =>
      unfold PacClient.fileWorkflows at h
      obtain ⟨content, first, t₁, hcontent, h₁, rfl⟩ := h.run_bind_ok
      obtain ⟨bytes, hbytes, h₂⟩ := h₁.run_answer_bind_ok
      obtain ⟨-, h₃⟩ := h₂.run_ensure_ok
      obtain ⟨found, hfound, h₄⟩ := h₃.run_answer_bind_ok
      obtain ⟨others, rest, last, hothers, h₅, rfl⟩ := h₄.run_bind_ok
      cases h₅
      intro workflow hmem
      rcases List.mem_append.mp hmem with hmem | hmem
      · have hdefined : DefinedIn crates client first repository revision path workflow :=
          ⟨content, bytes, found, forgejoJson_received hcontent, hbytes, hfound, hmem⟩
        exact ⟨path, List.mem_cons_self, hdefined.append_right _⟩
      · obtain ⟨other, hother, hdefined⟩ := ih hothers workflow hmem
        exact ⟨other, List.mem_cons_of_mem path hother,
          (hdefined.append_right _).append_left first⟩

/-- What discovery finds has been discovered. -/
theorem repositoryWorkflows_discovered {repository : Repository} {workflows : List Workflow}
    (h : Reaches (client.repositoryWorkflows crates repository).run t (.done (.ok workflows))) :
    ∀ workflow ∈ workflows, Discovered crates client t repository workflow := by
  intro workflow hmem
  unfold PacClient.repositoryWorkflows at h
  obtain ⟨metadata, first, t₁, hmetadata, h₁, rfl⟩ := h.run_bind_ok
  obtain ⟨revision, hrevision, h₂⟩ := h₁.run_answer_bind_ok
  obtain ⟨listing, second, t₂, hlisting, h₃, rfl⟩ := h₂.run_bind_ok
  obtain ⟨files, hfiles, h₄⟩ := h₃.run_answer_bind_ok
  obtain ⟨path, hpath, hdefined⟩ := fileWorkflows_defined h₄ workflow hmem
  exact ⟨metadata, revision, listing, files, path, (forgejoJson_received hmetadata).append_right _,
    hrevision, ((forgejoJson_received hlisting).append_right _).append_left _, hfiles, hpath,
    (hdefined.append_left _).append_left _⟩

/-- A workflow that is parsed is triggerable where its events say so. -/
theorem parseWorkflow_incoming {repository : Repository} {revision path : String} {index : Nat}
    {document : Value} {workflow : Workflow}
    (h : parseWorkflow crates repository revision path index document = .ok (some workflow))
    (htriggerable : workflow.triggerable = true) : "incoming" ∈ workflow.events := by
  unfold parseWorkflow at h
  split_ifs at h with hkind
  · cases h
  · obtain ⟨definition, -, h⟩ := bind_eq_ok.mp h
    split_ifs at h with hbounded
    obtain ⟨events, -, h⟩ := bind_eq_ok.mp h
    obtain rfl := Option.some.inj (Except.ok.inj h)
    simpa using htriggerable

/-- So are the workflows of a file. -/
theorem parseDocuments_incoming {repository : Repository} {revision path : String} {index : Nat}
    {documents : List (Option Value)} {workflows : List Workflow}
    (h : parseDocuments crates repository revision path index documents = .ok workflows) :
    ∀ workflow ∈ workflows, workflow.triggerable = true → "incoming" ∈ workflow.events := by
  induction documents generalizing index workflows with
  | nil =>
      obtain rfl := Except.ok.inj h
      exact fun workflow hmem => absurd hmem List.not_mem_nil
  | cons document documents ih =>
      unfold parseDocuments at h
      split_ifs at h with hmany
      obtain ⟨value, -, h⟩ := bind_eq_ok.mp h
      obtain ⟨found, hfound, h⟩ := bind_eq_ok.mp h
      obtain ⟨others, hothers, h⟩ := bind_eq_ok.mp h
      obtain rfl := Except.ok.inj h
      intro workflow hmem htriggerable
      rcases List.mem_append.mp hmem with hmem | hmem
      · obtain rfl := Option.mem_toList.mp hmem
        exact parseWorkflow_incoming hfound htriggerable
      · exact ih hothers workflow hmem htriggerable

/-- A discovered workflow that can be triggered names the event `incoming`. -/
theorem Discovered.incoming {repository : Repository} {workflow : Workflow}
    (h : Discovered crates client t repository workflow) (htriggerable : workflow.triggerable = true) :
    "incoming" ∈ workflow.events := by
  obtain ⟨-, revision, -, -, path, -, -, -, -, -, content, bytes, workflows, -, -, hparsed, hmem⟩ := h
  unfold parseWorkflows at hparsed
  obtain ⟨text, -, hparsed⟩ := bind_eq_ok.mp hparsed
  exact parseDocuments_incoming hparsed workflow hmem htriggerable

/-- The mutations. -/
inductive Command where
  | dispatch (command : WorkflowDispatchCommand)
  | rerun (runId : String)
  | cancel (runId : String)

/-- What the client does for one. -/
def PacClient.perform (crates : WorkflowCrates) (client : PacClient) : Command → TektonCall Value
  | .dispatch command => client.dispatch crates command
  | .rerun runId => client.rerun crates runId
  | .cancel runId => client.cancel crates runId

/-- The call has received the run of an id. -/
def Inspected (crates : WorkflowCrates) (client : PacClient) (t : Trace Ans) (runId name : String)
    (run : Value) : Prop :=
  namespacedId runId client.kubeNamespace = .ok name ∧
    Received crates.toCrates t (client.kubeUrl (client.pipelineRunPath name) []) run

/-- What a command may send after a trace: to Pipelines-as-Code, a discovered workflow of a
repository of the catalog that names the event `incoming`, the one that was asked for or the one
the run was made from; to Kubernetes, the cancellation of a running run as it was inspected. -/
def MaySend (crates : WorkflowCrates) (client : PacClient) (t : Trace Ans) (request : Request) :
    Command → Prop
  | .dispatch command => ∃ repository workflow, Cataloged crates client t repository ∧
      repository.id = command.repository ∧ Discovered crates client t repository workflow ∧
      workflow.id = command.workflow ∧ "incoming" ∈ workflow.events ∧
      request = client.pacRequest repository workflow.definition command.reference command.params
  | .rerun runId => ∃ name run repository workflow reference, Inspected crates client t runId name run ∧
      Cataloged crates client t repository ∧ label run repositoryLabel = some repository.crName ∧
      Discovered crates client t repository workflow ∧
      workflowName run = some workflow.definition ∧ "incoming" ∈ workflow.events ∧
      rerunReference run = .ok reference ∧
      request = client.pacRequest repository workflow.definition reference []
  | .cancel runId => ∃ name run resourceVersion token, Inspected crates client t runId name run ∧
      runStatus run = .running ∧
      ((run.field "metadata").field "resourceVersion").asStr = some resourceVersion ∧
      request = ⟨.patch, client.kubeUrl (client.pipelineRunPath name) [], token,
        some (cancelPatch resourceVersion)⟩

/-- What was inspected stays so. -/
theorem Inspected.append_right {runId name : String} {run : Value}
    (h : Inspected crates client t runId name run) (u : Trace Ans) :
    Inspected crates client (t ++ u) runId name run := ⟨h.1, h.2.append_right u⟩

/-- A repository that is found was cataloged. -/
theorem repository_cataloged {id : String} {repository : Repository}
    (h : Reaches (client.repository crates.toCrates id).run t (.done (.ok repository))) :
    Cataloged crates client t repository ∧ repository.id = id := by
  unfold TektonClient.repository at h
  obtain ⟨catalog, first, rest, hcatalog, h₁, rfl⟩ := h.run_bind_ok
  obtain ⟨hfound, rfl⟩ := h₁.run_answer_ok
  cases hfind : catalog.find? (·.id == id) with
  | none => simp [hfind] at hfound
  | some found =>
      simp only [hfind, Except.ok.injEq] at hfound
      subst hfound
      exact ⟨⟨[], first, [], catalog, by simp, hcatalog, List.mem_of_find?_eq_some hfind⟩,
        by simpa using List.find?_some hfind⟩

/-- A run that is owned was inspected. -/
theorem ownedRun_inspected {runId : String} {run : Value} {repository : Repository}
    (h : Reaches (client.ownedRun crates.toCrates runId).run t (.done (.ok (run, repository)))) :
    ∃ name, Inspected crates client t runId name run ∧ Cataloged crates client t repository ∧
      label run repositoryLabel = some repository.crName := by
  unfold TektonClient.ownedRun at h
  obtain ⟨name, hname, h₁⟩ := h.run_answer_bind_ok
  obtain ⟨object, first, t₁, hobject, h₂, rfl⟩ := h₁.run_bind_ok
  obtain ⟨repositoryName, hlabel, h₃⟩ := h₂.run_okOr_ok
  obtain ⟨catalog, listing, t₂, hcatalog, h₄, rfl⟩ := h₃.run_bind_ok
  obtain ⟨found, hfound, h₅⟩ := h₄.run_okOr_ok
  cases h₅
  have hname' : repository.crName = repositoryName := by simpa using List.find?_some hfound
  exact ⟨name, ⟨hname, (kubeJson_received hobject).append_right _⟩,
    ⟨first, listing, [], catalog, by simp, hcatalog, List.mem_of_find?_eq_some hfound⟩,
    by rw [hlabel, hname']⟩

/-- A workflow that is triggerable was discovered. -/
theorem triggerableWorkflow_discovered {repository : Repository} {id : String}
    {workflow : Workflow}
    (h : Reaches (client.triggerableWorkflow crates repository id).run t (.done (.ok workflow))) :
    Discovered crates client t repository workflow ∧ workflow.id = id ∧
      "incoming" ∈ workflow.events := by
  unfold PacClient.triggerableWorkflow at h
  obtain ⟨workflows, first, rest, hworkflows, h₁, rfl⟩ := h.run_bind_ok
  obtain ⟨hfound, rfl⟩ := h₁.run_answer_ok
  replace hfound := okOr_eq_ok.mp hfound
  have hdiscovered := repositoryWorkflows_discovered hworkflows workflow
    (List.mem_of_find?_eq_some hfound)
  have hmatches := List.find?_some hfound
  simp only [Bool.and_eq_true, beq_iff_eq] at hmatches
  rw [List.append_nil]
  exact ⟨hdiscovered, hmatches.1, hdiscovered.incoming hmatches.2⟩

/-- So was one that is run again. -/
theorem rerunWorkflow_discovered {run : Value} {repository : Repository} {workflow : Workflow}
    (h : Reaches (client.rerunWorkflow crates run repository).run t (.done (.ok workflow))) :
    Discovered crates client t repository workflow ∧
      workflowName run = some workflow.definition ∧ "incoming" ∈ workflow.events := by
  unfold PacClient.rerunWorkflow at h
  obtain ⟨definition, hdefinition, h₁⟩ := h.run_okOr_ok
  obtain ⟨workflows, first, rest, hworkflows, h₂, rfl⟩ := h₁.run_bind_ok
  obtain ⟨hfound, rfl⟩ := h₂.run_answer_ok
  replace hfound := okOr_eq_ok.mp hfound
  have hdiscovered := repositoryWorkflows_discovered hworkflows workflow
    (List.mem_of_find?_eq_some hfound)
  have hmatches := List.find?_some hfound
  simp only [Bool.and_eq_true, beq_iff_eq] at hmatches
  rw [List.append_nil]
  exact ⟨hdiscovered, by rw [hdefinition, hmatches.1], hdiscovered.incoming hmatches.2⟩

/-- Looking for it only reads. -/
theorem triggerableWorkflow_readsOnly (repository : Repository) (id : String) :
    ReadsOnly (client.triggerableWorkflow crates repository id) :=
  (repositoryWorkflows_readsOnly repository).bind fun _ => ReadsOnly.answer _

/-- So does looking for the other. -/
theorem rerunWorkflow_readsOnly (run : Value) (repository : Repository) :
    ReadsOnly (client.rerunWorkflow crates run repository) :=
  (ReadsOnly.answer _).bind fun _ =>
    (repositoryWorkflows_readsOnly repository).bind fun _ => ReadsOnly.answer _

/-- The request of a trigger is the one that is sent. -/
theorem sendPac_pending {repository : Repository} {definition reference : String}
    {params : List (String × String)} {k : OperationKind} {r : Request}
    {next : Ans (.send k r) → Program Op Ans (Except Error Unit)}
    (h : Reaches (client.sendPac repository definition reference params).run t
      (.call (.send k r) next)) :
    requests t = [] ∧ r = client.pacRequest repository definition reference params := by
  unfold PacClient.sendPac at h
  rcases h.run_bind_call with ⟨next', hsend⟩ | ⟨bytes, first, rest, -, hrest, -⟩
  · obtain ⟨-, rfl, hnone⟩ := httpBytes_pending hsend
    exact ⟨hnone, rfl⟩
  · cases hrest

/-- What its outcome says. -/
theorem sendPac_done {repository : Repository} {definition reference : String}
    {params : List (String × String)} {r : Except Error Unit}
    (h : Reaches (client.sendPac repository definition reference params).run t (.done r)) :
    requests t = [] ∨ ∃ request exchange, requests t = [(request, exchange)] ∧
      request.method ≠ .get ∧ Settles exchange r := by
  have hpost : (client.pacRequest repository definition reference params).method ≠ .get := nofun
  unfold PacClient.sendPac at h
  rcases h.run_bind_done with ⟨e, rfl, hsent⟩ | ⟨bytes, first, rest, hsent, hrest, rfl⟩
  · rcases httpBytes_done hsent with ⟨hnone, -⟩ | ⟨exchange, hone, hreply⟩
    · exact .inl hnone
    · have hsettles := reply_settles maxResponseBytes exchange
      rw [← hreply] at hsettles
      exact .inr ⟨_, exchange, hone, hpost, hsettles⟩
  · cases hrest
    rcases httpBytes_done hsent with ⟨-, hnone⟩ | ⟨exchange, hone, hreply⟩
    · cases hnone
    · have hsettles := reply_settles maxResponseBytes exchange
      rw [← hreply] at hsettles
      exact .inr ⟨_, exchange, by simpa using hone, hpost, hsettles⟩

/-- What the outcome of a patch says. -/
theorem patch_done {path : String} {body : Option Value} {r : Except Error Value}
    (h : Reaches (client.kubeJson crates.toCrates .patch path [] body .mutation).run t (.done r)) :
    requests t = [] ∨ ∃ request exchange, requests t = [(request, exchange)] ∧
      request.method ≠ .get ∧ Settles exchange r := by
  rcases kubeJson_done h with ⟨hnone, -⟩ | ⟨token, exchange, hone, rfl⟩
  · exact .inl hnone
  · refine .inr ⟨_, exchange, hone, nofun, ?_⟩
    have hsettles := reply_settles maxResponseBytes exchange
    unfold kubeReply
    cases hreply : reply .mutation maxResponseBytes exchange with
    | error e =>
        rw [hreply] at hsettles
        exact hsettles
    | ok bytes =>
        rw [hreply] at hsettles
        exact hsettles

/-- A dispatch is safe. -/
theorem dispatch_safe (command : WorkflowDispatchCommand) :
    SafeAfter [] (fun t r => MaySend crates client t r (.dispatch command))
      (client.dispatch crates command) := by
  unfold PacClient.dispatch
  refine SafeAfter.bind (repository_readsOnly _) fun repository first hrepository => ?_
  refine SafeAfter.bind (triggerableWorkflow_readsOnly _ _) fun workflow second hworkflow => ?_
  obtain ⟨hcataloged, hid⟩ := repository_cataloged hrepository
  obtain ⟨hdiscovered, hworkflowId, hincoming⟩ := triggerableWorkflow_discovered hworkflow
  refine SafeAfter.mutate
    (fun r => r = client.pacRequest repository workflow.definition command.reference command.params)
    (fun t k r next h => sendPac_pending h) (fun t r h => sendPac_done h) fun u r hr => ?_
  refine ⟨repository, workflow, ?_, hid, ?_, hworkflowId, hincoming, hr⟩
  · simpa using hcataloged.mono [] (second ++ u)
  · simpa using hdiscovered.mono first u

/-- So is running again. -/
theorem rerun_safe (runId : String) :
    SafeAfter [] (fun t r => MaySend crates client t r (.rerun runId))
      (client.rerun crates runId) := by
  unfold PacClient.rerun
  refine SafeAfter.bind (ownedRun_readsOnly _) fun owned first howned => ?_
  obtain ⟨run, repository⟩ := owned
  obtain ⟨name, hinspected, hcataloged, hlabel⟩ := ownedRun_inspected howned
  refine SafeAfter.answer fun repositoryName _ => ?_
  refine SafeAfter.ensure fun _ => ?_
  refine SafeAfter.bind (rerunWorkflow_readsOnly _ _) fun workflow second hworkflow => ?_
  obtain ⟨hdiscovered, hdefinition, hincoming⟩ := rerunWorkflow_discovered hworkflow
  refine SafeAfter.answer fun reference hreference => ?_
  refine SafeAfter.mutate
    (fun r => r = client.pacRequest repository workflow.definition reference [])
    (fun t k r next h => sendPac_pending h) (fun t r h => sendPac_done h) fun u r hr => ?_
  refine ⟨name, run, repository, workflow, reference, ?_, ?_, hlabel, ?_, hdefinition, hincoming,
    hreference, hr⟩
  · simpa using hinspected.append_right (second ++ u)
  · simpa using hcataloged.mono [] (second ++ u)
  · simpa using hdiscovered.mono first u

/-- So is cancelling. -/
theorem cancel_safe (runId : String) :
    SafeAfter [] (fun t r => MaySend crates client t r (.cancel runId))
      (client.cancel crates runId) := by
  unfold PacClient.cancel
  refine SafeAfter.bind (ownedRun_readsOnly _) fun owned first howned => ?_
  obtain ⟨run, repository⟩ := owned
  obtain ⟨name, hinspected, -, -⟩ := ownedRun_inspected howned
  refine SafeAfter.ensure fun hrunning => ?_
  refine SafeAfter.answer fun resourceVersion hversion => ?_
  refine SafeAfter.answer fun name' hname => ?_
  obtain rfl := Except.ok.inj (hinspected.1.symm.trans hname)
  refine SafeAfter.mutate (fun r => ∃ token, r = ⟨.patch,
      client.kubeUrl (client.pipelineRunPath name) [], token, some (cancelPatch resourceVersion)⟩)
    (fun t k r next h => (kubeJson_pending h).2) (fun t r h => patch_done h) fun u r hr => ?_
  obtain ⟨token, hr⟩ := hr
  refine ⟨name, run, resourceVersion, token, ?_, by simpa using hrunning, okOr_eq_ok.mp hversion, hr⟩
  simpa using hinspected.append_right u

/-- Every command is safe. -/
theorem perform_safe (command : Command) :
    SafeAfter [] (fun t r => MaySend crates client t r command) (client.perform crates command) := by
  cases command with
  | dispatch command => exact dispatch_safe command
  | rerun runId => exact rerun_safe runId
  | cancel runId => exact cancel_safe runId

/-- What sends a mutation only after none has sent one at most. -/
theorem mutations_le_one {x : TektonCall α} {q : Program Op Ans (Except Error α)}
    (hsends : ∀ t k r next, Reaches x.run t (.call (.send k r) next) → r.method ≠ .get →
      mutations t = []) (h : Reaches x.run t q) : (mutations t).length ≤ 1 := by
  induction t using List.reverseRecOn generalizing q with
  | nil => exact Nat.zero_le 1
  | append_singleton t event ih =>
      obtain ⟨next, hnext⟩ := h.before
      have hle := ih hnext
      obtain ⟨op, exchange⟩ := event
      rw [mutations_append, List.length_append]
      cases op with
      | send kind request =>
          by_cases hget : request.method = .get
          · have hquiet : mutations [(⟨.send kind request, exchange⟩ : Event Ans)] = [] := by
              simp [mutations, requests, hget]
            rw [hquiet]
            exact hle
          · rw [hsends _ _ _ _ hnext hget]
            have hone : mutations [(⟨.send kind request, exchange⟩ : Event Ans)] =
                [(request, exchange)] := by
              simp [mutations, requests, hget]
            rw [hone]
            exact Nat.le_refl 1
      | _ => exact hle

/-- **Safety of mutations.**  In every run of a command, at most one mutating request is sent, and
only what was read in the same run; an error that may be retried means that none was sent; and
after one was sent, its exchange settles the answer. -/
theorem mutation_safety (crates : WorkflowCrates) (client : PacClient) (command : Command) :
    (∀ t q, Reaches (client.perform crates command).run t q → (mutations t).length ≤ 1) ∧
    (∀ t k r next, Reaches (client.perform crates command).run t (.call (.send k r) next) →
      r.method ≠ .get → mutations t = [] ∧ MaySend crates client t r command) ∧
    (∀ t e subject, Reaches (client.perform crates command).run t (.done (.error e)) →
      (e.intoToolError subject).retryable = true → mutations t = []) ∧
    (∀ t outcome, Reaches (client.perform crates command).run t (.done outcome) →
      Settled t outcome) := by
  have hsafe : SafeAfter [] (fun t r => MaySend crates client t r command)
      (client.perform crates command) := perform_safe command
  refine ⟨fun t q h => ?_, fun t k r next h hr => ?_, fun t e subject h hretry => ?_,
    hsafe.answers⟩
  · exact mutations_le_one (fun t k r next h hr => (hsafe.sends t k r next h hr).1) h
  · simpa using hsafe.sends t k r next h hr
  · rcases hsafe.answers t _ h with hnone | ⟨request, exchange, -, hsettles⟩
    · exact hnone
    · rw [hsettles.not_retryable subject] at hretry
      cases hretry

/-- A run that is running. -/
def sampleRunning : Bytes := [
  "\x7b\"metadata\":\x7b\"labels\":\x7b", "\"pipelinesascode.tekton.dev/", "repository\":\"demo\"\x7d,",
  "\"name\":\"run\",", "\"resourceVersion\":\"7\"\x7d\x7d"].flatMap Text.ascii

/-- The same run as it is parsed. -/
def sampleRunningValue : Value := .object [("metadata", .object [
  ("labels", .object [("pipelinesascode.tekton.dev/repository", .string "demo")]),
  ("name", .string "run"), ("resourceVersion", .string "7")])]

/-- Parsers that know the texts of the sample. -/
def runningCrates : WorkflowCrates where
  parseJson bytes :=
    if bytes = sampleRunning then some sampleRunningValue
    else if bytes = sampleRepositories then some sampleRepositoriesValue
    else none
  parseUrl := (logCrates "pod-a").parseUrl
  yamlDocuments _ := []
  decodeBase64 _ := none
  sha256 _ := []
  encodeUrlSafe _ := ""

/-- A server with a running run. -/
def respondRunning : (op : Op) → Ans op
  | .send kind request =>
      if request.url.segments.contains "pipelineruns".toList then .response 200 (.whole sampleRunning)
      else respond "pod-a" (.send kind request)
  | op => respond "pod-a" op

/-- What `cancel` does with that server before it sends the patch. -/
def cancelling : Trace Ans × Program Op Ans (Except Error Value) :=
  (samplePac.perform runningCrates (.cancel "pipelines-as-code/run")).run.answered respondRunning 10

/-- Whether a patch is sent next. -/
def sendsPatch : Program Op Ans (Except Error Value) → Bool
  | .call (.send _ request) _ => request.method == .patch
  | _ => false

/-- The patch of a running run carries its resource version. -/
theorem mutation_safety_cancel : ∃ request, mutations cancelling.1 = [] ∧
    MaySend runningCrates samplePac cancelling.1 request (.cancel "pipelines-as-code/run") := by
  have hpatch : sendsPatch cancelling.2 = true := by decide +kernel
  have hrun := Program.answered_reaches respondRunning 10
    (samplePac.perform runningCrates (.cancel "pipelines-as-code/run")).run
  unfold sendsPatch at hpatch
  split at hpatch
  · next kind request next hcall =>
      have hmethod : request.method ≠ .get := by
        rw [eq_of_beq hpatch]
        nofun
      have hwaits : Reaches
          (samplePac.perform runningCrates (.cancel "pipelines-as-code/run")).run cancelling.1
          (.call (.send kind request) next) := by
        rw [← hcall]
        exact hrun
      exact ⟨request, (mutation_safety runningCrates samplePac _).2.1 _ _ _ _ hwaits hmethod⟩
  · cases hpatch

end Tekton
