import HomelabMcp.TektonLogs
import HomelabMcp.TektonRuns

/-!
# The tasks of a run

`tasks` and `status` list TaskRuns by a label and keep those that belong to the run.  The label is
anyone's to set; the repository label and an owner reference with the name and the uid of the run
decide.

* `task_lists_law`: what is listed belongs to the run, nothing that belongs to it is left out but
  by the limit, and the rows are the newest ones.
* `newestKey_le_iff`: the order of the rows without a key.
-/

namespace Tekton

open Interaction
open Json (Value)

variable {crates : Crates} {client : TektonClient} {t : Trace Ans}

/-- The item carries the repository label of the run, and one of its owners is a PipelineRun with
the name and the uid of the run. -/
def OfRun (run item : Value) : Prop :=
  (∃ repository, label run repositoryLabel = some repository ∧
    label item repositoryLabel = some repository) ∧
  ∃ name uid owners, objectName run = some name ∧ objectUid run = some uid ∧
    ((item.field "metadata").field "ownerReferences").asArray = some owners ∧
    ∃ owner ∈ owners, (owner.field "kind").asStr = some "PipelineRun" ∧
      (owner.field "name").asStr = some name ∧ (owner.field "uid").asStr = some uid

/-- The check finds the owner among the references. -/
theorem ownedBy_iff {item : Value} {kind name uid : String} :
    ownedBy item kind name uid = true ↔
      ∃ owners, ((item.field "metadata").field "ownerReferences").asArray = some owners ∧
        ∃ owner ∈ owners, (owner.field "kind").asStr = some kind ∧
          (owner.field "name").asStr = some name ∧ (owner.field "uid").asStr = some uid := by
  simp [ownedBy, Option.any_eq_true, and_assoc]

open Classical in
/-- The two filters keep what belongs to the run. -/
theorem itemsOfRun_eq {run : Value} {repository name uid : String} (hname : objectName run = some name)
    (huid : objectUid run = some uid) (hlabel : label run repositoryLabel = some repository)
    (items : List Value) :
    itemsOfRun repository name uid items = items.filter fun item => decide (OfRun run item) := by
  rw [itemsOfRun, List.filter_filter]
  refine List.filter_congr fun item _ => ?_
  rw [Bool.eq_iff_iff, Bool.and_eq_true, ownedBy_iff, beq_iff_eq, decide_eq_true_iff]
  constructor
  · intro h
    obtain ⟨⟨owners, howners, howner⟩, hitem⟩ := h
    exact ⟨⟨repository, hlabel, hitem⟩, name, uid, owners, hname, huid, howners, howner⟩
  · intro h
    obtain ⟨⟨repository', hlabel', hitem⟩, name', uid', owners, hname', huid', howners, howner⟩ := h
    obtain rfl := Option.some.inj (hlabel.symm.trans hlabel')
    obtain rfl := Option.some.inj (hname.symm.trans hname')
    obtain rfl := Option.some.inj (huid.symm.trans huid')
    exact ⟨⟨owners, howners, howner⟩, hitem⟩

/-- The first time is the later one; a missing time is the earliest. -/
def Later : Option String → Option String → Prop
  | some a, some b => b < a
  | some _, none => True
  | none, _ => False

/-- The first row stands before the second: it was created later, or at the same time and its id
is not greater. -/
def StandsBefore (a b : Value) : Prop :=
  Later (a.field "created_at").asStr (b.field "created_at").asStr ∨
    (a.field "created_at").asStr = (b.field "created_at").asStr ∧
      ¬ Later (a.field "id").asStr (b.field "id").asStr

/-- One time is later than another. -/
theorem later_iff {a b : Option String} :
    Later a b ↔ (show WithBot String from b) < (show WithBot String from a) := by
  cases a with
  | none => exact iff_of_false id (not_lt_bot (a := (show WithBot String from b)))
  | some a =>
      cases b with
      | none => exact iff_of_true trivial (WithBot.bot_lt_coe a)
      | some b => exact (WithBot.coe_lt_coe (a := b) (b := a)).symm

/-- The order of the rows. -/
theorem newestKey_le_iff {a b : Value} : newestKey a ≤ newestKey b ↔ StandsBefore a b := by
  unfold newestKey StandsBefore
  rw [Prod.Lex.toLex_le_toLex, later_iff, later_iff, not_lt]
  rfl

open Classical in
/-- The rows are the first, up to the limit, of what is shown of the wanted items in order; `cut`
says that there are more. -/
structure Lists (wanted : Value → Prop) (row : Value → Option Value) (items : List Value)
    (limit : Nat) (rows : List Value) (cut : Bool) : Prop where
  sound : ∀ r ∈ rows, ∃ item ∈ items, wanted item ∧ row item = some r
  complete : cut = false → ∀ item ∈ items, wanted item → (objectName item).isSome →
    ∃ r ∈ rows, row item = some r
  longest : ∃ all : List Value, all.Perm ((items.filter fun item => decide (wanted item)).filterMap row) ∧
    all.Pairwise StandsBefore ∧ rows = all.take limit ∧ (cut = true ↔ limit < all.length)

open Classical in
/-- Rows that are sorted and cut are a list of the wanted ones. -/
theorem lists_sorted {wanted : Value → Prop} {row : Value → Option Value} (items : List Value)
    (limit : Nat) {all : List Value}
    (hrow : ∀ item, wanted item → (objectName item).isSome → (row item).isSome)
    (hall : all = sortNewest ((items.filter fun item => decide (wanted item)).filterMap row)) :
    Lists wanted row items limit (all.take limit) (decide (all.length > limit)) := by
  have hsort := StableSort.sortByKey_isStableSort newestKey
    ((items.filter fun item => decide (wanted item)).filterMap row)
  have hmem : ∀ r, r ∈ all ↔ ∃ item ∈ items, wanted item ∧ row item = some r := by
    intro r
    rw [hall, sortNewest, hsort.perm.mem_iff, List.mem_filterMap]
    simp only [List.mem_filter, decide_eq_true_eq, and_assoc]
  constructor
  · intro r hr
    exact (hmem r).mp (List.mem_of_mem_take hr)
  · intro hcut item hitem hwanted hname
    have hfit : all.length ≤ limit := by simpa using hcut
    obtain ⟨r, hr⟩ := Option.isSome_iff_exists.mp (hrow item hwanted hname)
    rw [List.take_of_length_le hfit]
    exact ⟨r, (hmem r).mpr ⟨item, hitem, hwanted, hr⟩, hr⟩
  · refine ⟨all, hall ▸ hsort.perm, ?_, rfl, by simp⟩
    rw [hall]
    exact hsort.ordered.imp newestKey_le_iff.mp

/-- A call has read the run and then the list of TaskRuns that carry its label. -/
def HasRead (crates : Crates) (client : TektonClient) (runId : String) (t : Trace Ans) (run : Value)
    (items : List Value) (sourceTruncated : Bool) : Prop :=
  ∃ repository name first rest, t = first ++ rest ∧
    Reaches (client.ownedRun crates runId).run first (.done (.ok (run, repository))) ∧
    objectName run = some name ∧
    Reaches (client.taskRuns crates name).run rest (.done (.ok (items, sourceTruncated)))

/-- What is shown of a task of the run. -/
def taskRow (client : TektonClient) (run item : Value) : Option Value :=
  (objectName run).bind fun name => normalizeTask item client.kubeNamespace name

/-- What is shown of a task of the run that has failed. -/
def failedRow (client : TektonClient) (run item : Value) : Option Value :=
  (objectName run).bind fun name => failedTask client.redactions client.kubeNamespace name item

/-- A task with a name is shown. -/
theorem taskRow_isSome {run item : Value} (hitem : OfRun run item) :
    (taskRow client run item).isSome = (objectName item).isSome := by
  obtain ⟨-, name, -, -, hname, -⟩ := hitem
  simp only [taskRow, hname, Option.bind_some, normalizeTask]
  cases objectName item <;> rfl

/-- A failed task has a row where it has a name. -/
theorem failedRow_isSome {run item : Value} (hitem : OfRun run item) :
    (failedRow client run item).isSome = (objectName item).isSome := by
  obtain ⟨-, name, -, -, hname, -⟩ := hitem
  simp only [failedRow, hname, Option.bind_some, failedTask, normalizeTask]
  cases objectName item <;> rfl

/-- `tasks` lists the tasks of the run. -/
theorem tasks_lists {query : TaskListQuery} {result : Value}
    (h : Reaches (client.tasks crates query).run t (.done (.ok result))) :
    ∃ run items sourceTruncated rows cut,
      HasRead crates client query.runId t run items sourceTruncated ∧
      result.field "result" = .array rows ∧
      result.field "truncated" = .bool (sourceTruncated || cut) ∧
      Lists (OfRun run) (taskRow client run) items query.limit.toNat rows cut := by
  unfold TektonClient.tasks at h
  obtain ⟨⟨run, repository⟩, first, t₁, hrun, h₁, rfl⟩ := h.run_bind_ok
  obtain ⟨name, hname, h₂⟩ := h₁.run_okOr_ok
  obtain ⟨uid, huid, h₃⟩ := h₂.run_okOr_ok
  obtain ⟨repositoryName, hlabel, h₄⟩ := h₃.run_okOr_ok
  obtain ⟨⟨items, sourceTruncated⟩, rest, last, hitems, hdone, rfl⟩ := h₄.run_bind_ok
  cases hdone
  have hrow : taskRow client run = fun item => normalizeTask item client.kubeNamespace name := by
    funext item
    rw [taskRow, hname, Option.bind_some]
  rw [itemsOfRun_eq hname huid hlabel, ← hrow]
  have hread : HasRead crates client query.runId (first ++ (rest ++ [])) run items
      sourceTruncated := ⟨repository, name, first, rest, by simp, hrun, hname, hitems⟩
  exact ⟨run, items, sourceTruncated, _, _, hread, rfl, rfl,
    lists_sorted items _ (fun item hitem hsome => (taskRow_isSome hitem).trans hsome) rfl⟩

/-- `status` lists those that failed. -/
theorem status_lists {runId : String} {result : Value}
    (h : Reaches (client.status crates runId).run t (.done (.ok result))) :
    ∃ run items sourceTruncated rows cut,
      HasRead crates client runId t run items sourceTruncated ∧
      (∃ repository row, normalizeRun run client.kubeNamespace repository = some row ∧
        result.field "result" = withMessage client.redactions run row) ∧
      result.field "failed_tasks" = .array rows ∧
      result.field "result_truncated" = .bool cut ∧
      result.field "source_truncated" = .bool sourceTruncated ∧
      result.field "truncated" = .bool (sourceTruncated || cut) ∧
      Lists (fun item => OfRun run item ∧ runStatus item = .failed) (failedRow client run) items
        maxFailedTasks rows cut := by
  unfold TektonClient.status at h
  obtain ⟨⟨run, repository⟩, first, t₁, hrun, h₁, rfl⟩ := h.run_bind_ok
  obtain ⟨row, hnormal, h₂⟩ := h₁.run_okOr_ok
  obtain ⟨name, hname, h₃⟩ := h₂.run_okOr_ok
  obtain ⟨uid, huid, h₄⟩ := h₃.run_okOr_ok
  obtain ⟨repositoryName, hlabel, h₅⟩ := h₄.run_okOr_ok
  obtain ⟨⟨items, sourceTruncated⟩, rest, last, hitems, hdone, rfl⟩ := h₅.run_bind_ok
  cases hdone
  have hrow : failedRow client run = failedTask client.redactions client.kubeNamespace name := by
    funext item
    rw [failedRow, hname, Option.bind_some]
  rw [itemsOfRun_eq hname huid hlabel, List.filter_filter, ← hrow]
  have hread : HasRead crates client runId (first ++ (rest ++ [])) run items
      sourceTruncated := ⟨repository, name, first, rest, by simp, hrun, hname, hitems⟩
  refine ⟨run, items, sourceTruncated, _, _, hread, ⟨repository, row, hnormal, rfl⟩, rfl, rfl, rfl,
    rfl, lists_sorted items _ (fun item hitem hsome => (failedRow_isSome hitem.1).trans hsome) ?_⟩
  congr 2
  refine List.filter_congr fun item _ => ?_
  rw [Bool.eq_iff_iff]
  simp [and_comm]

/-- **The law of task lists.**  `tasks` lists the tasks of the run, and `status` those of them that
have failed: none that does not belong to it, and all of them unless the limit has cut some. -/
theorem task_lists_law (crates : Crates) (client : TektonClient) (t : Trace Ans) (result : Value) :
    (∀ query : TaskListQuery, Reaches (client.tasks crates query).run t (.done (.ok result)) →
      ∃ run items sourceTruncated rows cut,
        HasRead crates client query.runId t run items sourceTruncated ∧
        result.field "result" = .array rows ∧
        result.field "truncated" = .bool (sourceTruncated || cut) ∧
        Lists (OfRun run) (taskRow client run) items query.limit.toNat rows cut) ∧
    (∀ runId : String, Reaches (client.status crates runId).run t (.done (.ok result)) →
      ∃ run items sourceTruncated rows cut,
        HasRead crates client runId t run items sourceTruncated ∧
        result.field "failed_tasks" = .array rows ∧
        result.field "result_truncated" = .bool cut ∧
        result.field "source_truncated" = .bool sourceTruncated ∧
        result.field "truncated" = .bool (sourceTruncated || cut) ∧
        Lists (fun item => OfRun run item ∧ runStatus item = .failed) (failedRow client run) items
          maxFailedTasks rows cut) := by
  refine ⟨fun _ h => tasks_lists h, fun _ h => ?_⟩
  obtain ⟨run, items, sourceTruncated, rows, cut, hread, -, hlists⟩ := status_lists h
  exact ⟨run, items, sourceTruncated, rows, cut, hread, hlists⟩

/-- A TaskRun that has failed, owned by a PipelineRun with this uid. -/
def failedTaskText (name created uid : String) : Text.Bytes := [
  "\x7b\"metadata\":\x7b", "\"creationTimestamp\":\"", created, "\",\"labels\":\x7b",
  "\"pipelinesascode.tekton.dev/", "repository\":\"demo\"\x7d,", "\"name\":\"", name,
  "\",\"ownerReferences\":[\x7b", "\"kind\":\"PipelineRun\",", "\"name\":\"run\",\"uid\":\"", uid,
  "\"\x7d]\x7d,\"status\":\x7b", "\"conditions\":[\x7b", "\"status\":\"False\",",
  "\"type\":\"Succeeded\"", "\x7d]\x7d\x7d"].flatMap Text.ascii

/-- A task that failed. -/
def failedTaskValue (name created uid : String) : Value := .object [
  ("metadata", .object [("creationTimestamp", .string created),
    ("labels", .object [("pipelinesascode.tekton.dev/repository", .string "demo")]),
    ("name", .string name),
    ("ownerReferences", .array [.object [("kind", .string "PipelineRun"), ("name", .string "run"),
      ("uid", .string uid)]])]),
  ("status", .object [("conditions", .array [.object [("status", .string "False"),
    ("type", .string "Succeeded")]])])]

/-- Two tasks of the run, the later one behind, and a task of another run with its name. -/
def sampleTasks : Text.Bytes :=
  Text.ascii "\x7b\"items\":[" ++ failedTaskText "build" "2024-01-01" "1" ++ Text.ascii "," ++
    failedTaskText "lint" "2024-01-02" "1" ++ Text.ascii "," ++
    failedTaskText "other" "2024-01-03" "9" ++ Text.ascii "]\x7d"

/-- A parser that knows the list of the sample too. -/
def taskCrates : Crates where
  parseJson bytes :=
    if bytes = sampleTasks then some (.object [("items", .array [
      failedTaskValue "build" "2024-01-01" "1", failedTaskValue "lint" "2024-01-02" "1",
      failedTaskValue "other" "2024-01-03" "9"])])
    else (logCrates "pod-a").parseJson bytes
  parseUrl := (logCrates "pod-a").parseUrl

/-- A server with the run and the list of its tasks. -/
def respondTasks : (op : Op) → Ans op
  | .send kind request =>
      if request.url.segments.getLast? = some "taskruns".toList then
        .response 200 (.whole sampleTasks)
      else respond "pod-a" (.send kind request)
  | op => respond "pod-a" op

/-- The tasks of the run, one at most. -/
def tasksQuery : TaskListQuery := ⟨"pipelines-as-code/run", 1⟩

/-- What `tasks` returns with that server. -/
def listedTasks : Trace Ans × Program Op Ans (Except Error Value) :=
  (sampleClient.tasks taskCrates tasksQuery).run.answered respondTasks 12

/-- What `status` returns with that server. -/
def listedStatus : Trace Ans × Program Op Ans (Except Error Value) :=
  (sampleClient.status taskCrates tasksQuery.runId).run.answered respondTasks 16

/-- The ids of the rows that an answer has in a field. -/
def idsOf (field : String) (answer : Program Op Ans (Except Error Value)) :
    Option (List (Option String)) :=
  (answer.ended.bind Except.toOption).bind fun result =>
    (result.field field).asArray.map fun rows => rows.map fun row => (row.field "id").asStr

/-- The ids of an answer are those of a run of the call. -/
theorem ids_of_run {field : String} {answer : Program Op Ans (Except Error Value)}
    {ids : List (Option String)} (h : idsOf field answer = some ids) : ∃ result,
      answer.ended = some (.ok result) ∧ ∀ rows, result.field field = .array rows →
        rows.map (fun row => (row.field "id").asStr) = ids := by
  obtain ⟨result, hresult, hids⟩ := Option.bind_eq_some_iff.mp h
  obtain ⟨outcome, hended, houtcome⟩ := Option.bind_eq_some_iff.mp hresult
  cases outcome with
  | error e => cases houtcome
  | ok value =>
      obtain rfl := Option.some.inj houtcome
      refine ⟨value, hended, fun rows hrows => ?_⟩
      rw [hrows] at hids
      exact Option.some.inj hids

/-- Of the two tasks of the run the newer one is listed, and both have failed; the task of the other
run is in neither list. -/
theorem task_lists_law_cut :
    (∃ (result run : Value) (items : List Value) (sourceTruncated : Bool) (rows : List Value)
      (cut : Bool),
      HasRead taskCrates sampleClient tasksQuery.runId listedTasks.1 run items sourceTruncated ∧
        result.field "result" = .array rows ∧
        result.field "truncated" = .bool (sourceTruncated || cut) ∧
        Lists (OfRun run) (taskRow sampleClient run) items 1 rows cut ∧
        rows.map (fun row => (row.field "id").asStr) = [some "pipelines-as-code/lint"]) ∧
    ∃ (result run : Value) (items : List Value) (sourceTruncated : Bool) (rows : List Value)
      (cut : Bool),
      HasRead taskCrates sampleClient tasksQuery.runId listedStatus.1 run items sourceTruncated ∧
        result.field "failed_tasks" = .array rows ∧
        Lists (fun item => OfRun run item ∧ runStatus item = .failed) (failedRow sampleClient run)
          items maxFailedTasks rows cut ∧
        rows.map (fun row => (row.field "id").asStr) =
          [some "pipelines-as-code/lint", some "pipelines-as-code/build"] := by
  constructor
  · have hids : idsOf "result" listedTasks.2 = some [some "pipelines-as-code/lint"] := by
      decide +kernel
    obtain ⟨result, hended, hrows⟩ := ids_of_run hids
    have hrun := Program.answered_ended _ _ _ hended
    obtain ⟨run, items, sourceTruncated, rows, cut, hread, hresult, htruncated, hlists⟩ :=
      (task_lists_law taskCrates sampleClient _ result).1 tasksQuery hrun
    exact ⟨result, run, items, sourceTruncated, rows, cut, hread, hresult, htruncated, hlists,
      hrows rows hresult⟩
  · have hids : idsOf "failed_tasks" listedStatus.2 =
        some [some "pipelines-as-code/lint", some "pipelines-as-code/build"] := by decide +kernel
    obtain ⟨result, hended, hrows⟩ := ids_of_run hids
    have hrun := Program.answered_ended _ _ _ hended
    obtain ⟨run, items, sourceTruncated, rows, cut, hread, hresult, -, -, -, hlists⟩ :=
      (task_lists_law taskCrates sampleClient _ result).2 tasksQuery.runId hrun
    exact ⟨result, run, items, sourceTruncated, rows, cut, hread, hresult, hlists,
      hrows rows hresult⟩

end Tekton
