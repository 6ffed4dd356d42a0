import HomelabMcp.Redaction
import HomelabMcp.TektonLogBudget
import HomelabMcp.TektonTaskLists

/-!
# Secrets in the answers of the Tekton client

`status` returns messages of conditions and `logs` the texts of steps.  The client replaces its
list of values in both.  The list has the token of the service account as it was at start-up; each
request reads the token anew, and only a log is redacted of the token of its own request too.

* `secrets_hidden`: no value of the list and no token of the call is returned as it was copied, if
  the list, or with a log the token of its request, covers every token of the call.
* `rotated_token_shown`: once the token has changed, a message that contains it is returned as it
  is.
-/

namespace Tekton

open Interaction Redaction
open Json (Value)
open Text (Bytes)

variable {crates : Crates} {client : TektonClient} {t : Trace Ans}

/-- The values that `production` redacts: those it is given, its own secrets, and the token that
the file of the service account has at start-up. -/
def productionRedactions (redactions : List String) (forgejoToken pacIncomingSecret token : String) :
    List String :=
  longestFirst (redactions ++ [forgejoToken, pacIncomingSecret, Text.trim token])

/-- The marker that stands for a secret. -/
def marker : String := "[REDACTED]"

/-- The marker is not empty. -/
theorem marker_ne_empty : marker ≠ "" := by decide

/-- The token went with a request. -/
def TokenUsed (t : Trace Ans) (token : String) : Prop := ∃ sent ∈ requests t, sent.1.token = token

/-- A value of the list, or a token of the call. -/
def Held (client : TektonClient) (t : Trace Ans) (secret : String) : Prop :=
  secret ≠ "" ∧ (secret ∈ client.redactions ∨ TokenUsed t secret)

/-- Nothing that is held stands in the text as it was copied from the source. -/
def Keeps (client : TektonClient) (t : Trace Ans) (values : List String) (source shown : String) :
    Prop :=
  ∃ pieces, Shown marker values source shown pieces ∧
    ∀ secret, Held client t secret → Hides pieces secret

/-- The values that were replaced cover whatever is held. -/
theorem keeps_of_covers {values : List String} {source : String} {bytes : Nat}
    (hlist : ∀ value ∈ client.redactions, value ∈ values)
    (htokens : ∀ token, TokenUsed t token → Covers values token) :
    Keeps client t values source (String.ofList (Text.fit bytes
      (values.foldl (fun s value => Text.replace s value marker) source).toList)) := by
  obtain ⟨pieces, hshown⟩ := exists_shown marker values source bytes
  refine ⟨pieces, hshown, fun secret hheld => hshown.hides marker_ne_empty ?_⟩
  obtain ⟨hsecret, hmem | hused⟩ := hheld
  · exact ⟨secret, hlist secret hmem, hsecret, List.infix_rfl⟩
  · exact htokens secret hused

/-- The message of the condition, as it came. -/
def messageOf (item : Value) : Option String :=
  (condition item).bind fun condition => (condition.field "message").asStr

/-- A message that `status` returns: that of the run, or that of a task that has failed. -/
def Message (result : Value) (message : String) : Prop :=
  (result.field "result").field "condition_message" = .string message ∨
    ∃ rows, result.field "failed_tasks" = .array rows ∧
      ∃ row ∈ rows, row.field "condition_message" = .string message

/-- A message that is shown is the redacted source. -/
theorem conditionMessage_eq {redactions : List String} {item : Value} {message : String}
    (h : (conditionMessage redactions item).1 = some message) :
    ∃ source, messageOf item = some source ∧ message = String.ofList
      (Text.fit maxConditionMessageBytes
        (redactions.foldl (fun s value => Text.replace s value marker) source).toList) := by
  unfold conditionMessage at h
  split at h
  · cases h
  · next source hsource =>
      refine ⟨source, hsource, ?_⟩
      dsimp only at h
      split_ifs at h with hfits
      · rw [← Option.some.inj h]
        exact (congrArg String.ofList (Text.fit_eq_self hfits)).symm ▸ String.ofList_toList.symm
      · exact (Option.some.inj h).symm

/-- The message of a row is that of its item. -/
theorem withMessage_message {redactions : List String} {item : Value}
    {members : List (String × Value)} {message : String}
    (h : (withMessage redactions item (.object members)).field "condition_message" =
      .string message) : (conditionMessage redactions item).1 = some message := by
  unfold withMessage at h
  rw [Value.field_set_ne (by decide), Value.field_set_self] at h
  cases hfound : (conditionMessage redactions item).1 with
  | none => simp [hfound, Value.ofOption] at h
  | some found => simpa [hfound, Value.ofOption] using h

/-- The message that is found stands in the row. -/
theorem withMessage_shown {redactions : List String} {item : Value}
    {members : List (String × Value)} {message : String}
    (h : (conditionMessage redactions item).1 = some message) :
    (withMessage redactions item (.object members)).field "condition_message" =
      .string message := by
  unfold withMessage
  rw [Value.field_set_ne (by decide), Value.field_set_self, h]
  rfl

/-- A message that no value is a part of, and that fits, is returned as it is. -/
theorem conditionMessage_uncovered {redactions : List String} {item : Value} {token : String}
    (hvalues : ∀ value ∈ redactions, value ≠ "") (huncovered : ¬ Covers redactions token)
    (hsize : token.utf8ByteSize ≤ maxConditionMessageBytes)
    (hmessage : messageOf item = some token) :
    (conditionMessage redactions item).1 = some token := by
  have hnone : ∀ value ∈ redactions, ¬ value.toList <:+: text (original token) := by
    intro value hmem hpart
    rw [text_original] at hpart
    exact huncovered ⟨value, hmem, hvalues value hmem, hpart⟩
  have hredacts : Redacts marker.toList redactions 0 (original token) (original token) :=
    Redacts.exists_same hvalues hnone
  have hsame := hredacts.text_eq
  rw [text_original, String.ofList_toList] at hsame
  unfold messageOf at hmessage
  unfold conditionMessage
  rw [hmessage]
  dsimp only
  rw [show "[REDACTED]" = marker from rfl, ← hsame, if_pos hsize]

/-- The row of a run is an object. -/
theorem normalizeRun_object {item row : Value} {ns : String} {repository : Repository}
    (h : normalizeRun item ns repository = some row) : ∃ members, row = .object members := by
  obtain ⟨crName, -, h⟩ := Option.bind_eq_some_iff.mp h
  split_ifs at h
  obtain ⟨name, -, h⟩ := Option.bind_eq_some_iff.mp h
  exact ⟨_, (Option.some.inj h).symm⟩

/-- So is the row of a task. -/
theorem normalizeTask_object {item row : Value} {ns runName : String}
    (h : normalizeTask item ns runName = some row) : ∃ members, row = .object members := by
  obtain ⟨name, -, h⟩ := Option.bind_eq_some_iff.mp h
  exact ⟨_, (Option.some.inj h).symm⟩

/-- The message of a failed task is its own. -/
theorem failedRow_message {run item row : Value} {message : String}
    (h : failedRow client run item = some row)
    (hmessage : row.field "condition_message" = .string message) :
    (conditionMessage client.redactions item).1 = some message := by
  obtain ⟨name, -, h⟩ := Option.bind_eq_some_iff.mp h
  obtain ⟨task, htask, h⟩ := Option.bind_eq_some_iff.mp h
  obtain ⟨members, rfl⟩ := normalizeTask_object htask
  rw [← Option.some.inj h, Value.field_set_ne (by decide)] at hmessage
  exact withMessage_message hmessage

/-- Every message that `status` returns is the message of an object that it has read, and the
message of the run is returned. -/
theorem status_messages {runId : String} {result : Value}
    (h : Reaches (client.status crates runId).run t (.done (.ok result))) :
    ∃ run items sourceTruncated, HasRead crates client runId t run items sourceTruncated ∧
      (∀ message, Message result message → ∃ item, (item = run ∨ item ∈ items) ∧
        (conditionMessage client.redactions item).1 = some message) ∧
      ∀ message, (conditionMessage client.redactions run).1 = some message →
        Message result message := by
  obtain ⟨run, items, sourceTruncated, rows, cut, hread, ⟨repository, row, hrow, hresult⟩, hfailed,
    -, -, -, hlists⟩ := status_lists h
  obtain ⟨members, rfl⟩ := normalizeRun_object hrow
  refine ⟨run, items, sourceTruncated, hread, fun message hmessage => ?_,
    fun message hmessage => .inl (hresult ▸ withMessage_shown hmessage)⟩
  rcases hmessage with hrun | ⟨rows', hrows, row', hmem, htask⟩
  · rw [hresult] at hrun
    exact ⟨run, .inl rfl, withMessage_message hrun⟩
  · obtain rfl := Value.array.inj (hfailed.symm.trans hrows)
    obtain ⟨item, hitem, -, hshown⟩ := hlists.sound row' hmem
    exact ⟨item, .inr hitem, failedRow_message hshown htask⟩

/-- The text of a read is the redacted log, cut where it fits. -/
theorem text_eq_fit (redactions : List String) (read : LogRead) :
    read.text redactions = String.ofList (Text.fit read.requested
      ((redactions ++ [read.token]).foldl (fun s value => Text.replace s value marker)
        (Text.decodeLossy read.bytes)).toList) := by
  rw [LogRead.text_eq, redactLog_eq]
  rfl

/-- The token of a log that was read was used in the call. -/
theorem LogCall.token_used {query : TaskLogsQuery} {result : Value}
    {selected : List (String × String)} {reads : List LogRead} {logs : List StepLog}
    {stepsOmitted truncated : Bool}
    (h : LogCall crates client query t result selected reads logs stepsOmitted truncated) :
    ∀ read ∈ reads, TokenUsed t read.token := by
  obtain ⟨task, pod, before, after, available, left, rfl, -, -, -, -, hlogged, -, -⟩ := h.run
  intro read hread
  obtain ⟨i, hi, rfl⟩ := List.mem_iff_getElem.mp hread
  have hlength := hlogged.sent.length_eq
  have hsent := hlogged.sent.get (hlength ▸ hi) hi
  refine ⟨(requests after).get ⟨i, hlength ▸ hi⟩, ?_, ?_⟩
  · rw [requests_append]
    exact List.mem_append_right _ (List.get_mem _ _)
  · exact congrArg Request.token hsent.1

/-- Every text of an answer is that of a log that was read. -/
theorem LogCall.text_of_read {query : TaskLogsQuery} {result : Value}
    {selected : List (String × String)} {reads : List LogRead} {logs : List StepLog}
    {stepsOmitted truncated : Bool}
    (h : LogCall crates client query t result selected reads logs stepsOmitted truncated) :
    ∀ log ∈ logs, ∃ read ∈ reads, log.text = read.text client.redactions := by
  obtain ⟨task, pod, before, after, available, left, -, -, -, -, -, hlogged, -, -⟩ := h.run
  intro log hlog
  have hmem : log.text ∈ reads.map (LogRead.text client.redactions) := by
    rw [← hlogged.texts_eq]
    exact List.mem_map_of_mem hlog
  obtain ⟨read, hread, htext⟩ := List.mem_map.mp hmem
  exact ⟨read, hread, htext.symm⟩

/-- **Redaction of answers.**  Nothing that the client holds is in a message of `status` or a text
of `logs` as it was copied from upstream, if what was replaced covers every token of the call.  A
token that the values of the client do not cover and that fits is returned by `status` when it is
the message of the run. -/
theorem secrets_hidden (crates : Crates) (client : TektonClient) (t : Trace Ans) (result : Value) :
    (∀ runId : String, Reaches (client.status crates runId).run t (.done (.ok result)) →
      ∃ run items sourceTruncated, HasRead crates client runId t run items sourceTruncated ∧
        ((∀ token, TokenUsed t token → Covers client.redactions token) →
          ∀ message, Message result message → ∃ item source, (item = run ∨ item ∈ items) ∧
            messageOf item = some source ∧ Keeps client t client.redactions source message) ∧
        ∀ token, (∀ value ∈ client.redactions, value ≠ "") → ¬ Covers client.redactions token →
          token.utf8ByteSize ≤ maxConditionMessageBytes → messageOf run = some token →
            Message result token) ∧
    (∀ query : TaskLogsQuery, Reaches (client.logs crates query).run t (.done (.ok result)) →
      ∃ selected reads logs stepsOmitted truncated,
        LogCall crates client query t result selected reads logs stepsOmitted truncated ∧
        ((∀ token, TokenUsed t token → ∀ read ∈ reads,
            Covers (client.redactions ++ [read.token]) token) →
          ∀ log ∈ logs, ∃ read ∈ reads, Keeps client t (client.redactions ++ [read.token])
            (Text.decodeLossy read.bytes) log.text)) := by
  constructor
  · intro runId h
    obtain ⟨run, items, sourceTruncated, hread, hmessages, hshows⟩ := status_messages h
    refine ⟨run, items, sourceTruncated, hread, fun htokens message hmessage => ?_,
      fun token hvalues huncovered hsize hrun =>
        hshows token (conditionMessage_uncovered hvalues huncovered hsize hrun)⟩
    obtain ⟨item, hitem, hshown⟩ := hmessages message hmessage
    obtain ⟨source, hsource, rfl⟩ := conditionMessage_eq hshown
    exact ⟨item, source, hitem, hsource, keeps_of_covers (fun _ hmem => hmem) htokens⟩
  · intro query h
    obtain ⟨selected, reads, logs, stepsOmitted, truncated, hcall⟩ := logs_call h
    refine ⟨selected, reads, logs, stepsOmitted, truncated, hcall, fun htokens log hlog => ?_⟩
    obtain ⟨read, hread, htext⟩ := hcall.text_of_read log hlog
    refine ⟨read, hread, ?_⟩
    rw [htext, text_eq_fit]
    exact keeps_of_covers (fun _ hvalue => List.mem_append_left _ hvalue) fun token hused =>
      htokens token hused read hread

/-- A run with a message. -/
def messageRun : Bytes := [
  "\x7b\"metadata\":\x7b\"labels\":\x7b", "\"pipelinesascode.tekton.dev/", "repository\":\"demo\"\x7d,",
  "\"name\":\"run\",\"uid\":\"1\"\x7d,", "\"status\":\x7b\"conditions\":[", "\x7b\"type\":\"Succeeded\",",
  "\"message\":\"token\"\x7d]\x7d\x7d"].flatMap Text.ascii

/-- A run with a message. -/
def messageRunValue : Value := .object [
  ("metadata", .object [
    ("labels", .object [("pipelinesascode.tekton.dev/repository", .string "demo")]),
    ("name", .string "run"), ("uid", .string "1")]),
  ("status", .object [("conditions", .array [.object [("type", .string "Succeeded"),
    ("message", .string "token")]])])]

/-- A list without items. -/
def noItems : Bytes := Text.ascii "\x7b\"items\":[]\x7d"

/-- A parser that knows the run with the message. -/
def messageCrates : Crates where
  parseJson bytes :=
    if bytes = messageRun then some messageRunValue
    else if bytes = noItems then some (.object [("items", .array [])])
    else (logCrates "pod-a").parseJson bytes
  parseUrl := (logCrates "pod-a").parseUrl

/-- A server with the run, which has no tasks; the token of the service account is `token`. -/
def respondMessage : (op : Op) → Ans op
  | .send kind request =>
      if request.url.segments.contains "pipelineruns".toList then .response 200 (.whole messageRun)
      else if request.url.segments.contains "taskruns".toList then .response 200 (.whole noItems)
      else respond "pod-a" (.send kind request)
  | op => respond "pod-a" op

/-- The client as it starts while the file of the service account has this token. -/
def clientWith (token : String) : TektonClient :=
  { sampleClient with redactions := productionRedactions ["url"] "forgejo" "pac" token }

/-- What `status` does with that server. -/
def statusWith (token : String) : Trace Ans × Program Op Ans (Except Error Value) :=
  ((clientWith token).status messageCrates "pipelines-as-code/run").run.answered respondMessage 16

/-- The message of an answer. -/
def messageIn : Program Op Ans (Except Error Value) → Option String
  | .done (.ok result) => ((result.field "result").field "condition_message").asStr
  | _ => none

/-- The tokens of the requests and the message that is returned. -/
def tokensAndMessage (token : String) : List String × Option String :=
  ((requests (statusWith token).1).map fun sent => sent.1.token, messageIn (statusWith token).2)

/-- The call that shows it. -/
theorem statusWith_run {token message : String} {tokens : List String}
    (h : tokensAndMessage token = (tokens, some message)) :
    ∃ result, Reaches ((clientWith token).status messageCrates "pipelines-as-code/run").run
        (statusWith token).1 (.done (.ok result)) ∧
      (∀ used, TokenUsed (statusWith token).1 used ↔ used ∈ tokens) ∧ Message result message := by
  obtain ⟨htokens, hmessage⟩ := Prod.mk.inj h
  have hrun := Program.answered_reaches respondMessage 16
    ((clientWith token).status messageCrates "pipelines-as-code/run").run
  have hused : ∀ used, TokenUsed (statusWith token).1 used ↔ used ∈ tokens := by
    intro used
    rw [← htokens, List.mem_map]
    rfl
  unfold messageIn at hmessage
  split at hmessage
  · next result hdone =>
      refine ⟨result, ?_, hused, .inl ?_⟩
      · rw [← hdone]
        exact hrun
      · exact Value.asStr_eq_some.mp hmessage
  · cases hmessage

/-- What the client with another token reads of the run with that server. -/
def ownedOld : Trace Ans × Program Op Ans (Except Error (Value × Repository)) :=
  ((clientWith "old").ownedRun messageCrates "pipelines-as-code/run").run.answered respondMessage 16

/-- The run that it has read has the message. -/
theorem messageOf_read {run : Value} {items : List Value} {sourceTruncated : Bool}
    (h : HasRead messageCrates (clientWith "old") "pipelines-as-code/run" (statusWith "old").1 run
      items sourceTruncated) : messageOf run = some "token" := by
  obtain ⟨repository, name, first, rest, ht, hrun, -, -⟩ := h
  have hfirst : ownedOld = (first, .done (.ok (run, repository))) :=
    Program.answered_first respondMessage ht hrun
  have heval : (ownedOld.2.ended.bind Except.toOption).bind (fun found => messageOf found.1) =
      some "token" := by decide +kernel
  rw [hfirst] at heval
  exact heval

/-- With the token of the start, the message of the run is returned without it, and with another one
it is returned with it; the logs of two steps are read with one token. -/
theorem secrets_hidden_current :
    (∃ (result run : Value) (items : List Value) (sourceTruncated : Bool),
      HasRead messageCrates (clientWith "token") "pipelines-as-code/run" (statusWith "token").1 run
        items sourceTruncated ∧
      ∀ message, Message result message → ∃ item source, (item = run ∨ item ∈ items) ∧
        messageOf item = some source ∧
        Keeps (clientWith "token") (statusWith "token").1 (clientWith "token").redactions source
          message) ∧
    (∃ (result run : Value) (items : List Value) (sourceTruncated : Bool),
      HasRead messageCrates (clientWith "old") "pipelines-as-code/run" (statusWith "old").1 run
        items sourceTruncated ∧
      messageOf run = some "token" ∧ Message result "token") ∧
    ∃ (result : Value) (selected : List (String × String)) (reads : List LogRead)
      (logs : List StepLog) (stepsOmitted truncated : Bool),
      LogCall twoCrates sampleClient twoQuery twoLogs.1 result selected reads logs stepsOmitted
        truncated ∧
      ∀ log ∈ logs, ∃ read ∈ reads, Keeps sampleClient twoLogs.1
        (sampleClient.redactions ++ [read.token]) (Text.decodeLossy read.bytes) log.text := by
  refine ⟨?_, ?_, ?_⟩
  · have heval : tokensAndMessage "token" = (["token", "token", "token"], some "[REDACTED]") := by
      decide +kernel
    obtain ⟨result, hrun, hused, -⟩ := statusWith_run heval
    obtain ⟨run, items, sourceTruncated, hread, hhidden, -⟩ :=
      (secrets_hidden messageCrates (clientWith "token") _ result).1 _ hrun
    refine ⟨result, run, items, sourceTruncated, hread, hhidden ?_⟩
    intro token htoken
    have hone : token = "token" := by simpa using (hused token).mp htoken
    subst hone
    exact ⟨"token", by decide +kernel, by decide, List.infix_rfl⟩
  · have heval : tokensAndMessage "old" = (["token", "token", "token"], some "token") := by
      decide +kernel
    obtain ⟨result, hrun, -, -⟩ := statusWith_run heval
    obtain ⟨run, items, sourceTruncated, hread, -, hshown⟩ :=
      (secrets_hidden messageCrates (clientWith "old") _ result).1 _ hrun
    have hmessage : messageOf run = some "token" := messageOf_read hread
    have hnone : ∀ value ∈ (clientWith "old").redactions,
        ¬ (value ≠ "" ∧ value.toList <:+: "token".toList) := by decide +kernel
    refine ⟨result, run, items, sourceTruncated, hread, hmessage,
      hshown "token" (by decide +kernel) ?_ (by decide) hmessage⟩
    rintro ⟨value, hmem, hpart⟩
    exact hnone value hmem hpart
  · obtain ⟨result, hrun, -⟩ := twoLogs_run
    obtain ⟨selected, reads, logs, stepsOmitted, truncated, hcall, hkeeps⟩ :=
      (secrets_hidden twoCrates sampleClient _ result).2 twoQuery hrun
    refine ⟨result, selected, reads, logs, stepsOmitted, truncated, hcall, hkeeps ?_⟩
    have hall : (requests twoLogs.1).all (fun sent => sent.1.token == "token") = true := by
      decide +kernel
    have hone : ∀ token, TokenUsed twoLogs.1 token → token = "token" := by
      intro token hused
      obtain ⟨sent, hsent, rfl⟩ := hused
      exact beq_iff_eq.mp (List.all_eq_true.mp hall sent hsent)
    intro token hused read hread
    rw [hone token hused, hone _ (hcall.token_used read hread)]
    exact ⟨"token", List.mem_append_right _ List.mem_cons_self, by decide, List.infix_rfl⟩

/-- A client that has started with another token returns the token of its requests. -/
theorem rotated_token_shown : ¬ ∀ (runId : String) (t : Trace Ans) (result : Value),
    Reaches ((clientWith "old").status messageCrates runId).run t (.done (.ok result)) →
      ∀ message, Message result message → ∃ source,
        Keeps (clientWith "old") t (clientWith "old").redactions source message := by
  intro h
  have heval : tokensAndMessage "old" = (["token", "token", "token"], some "token") := by
    decide +kernel
  obtain ⟨result, hrun, hused, hmessage⟩ := statusWith_run heval
  obtain ⟨source, pieces, hshown, hhides⟩ := h _ _ result hrun "token" hmessage
  have hheld : Held (clientWith "old") (statusWith "old").1 "token" :=
    ⟨by decide, .inr ((hused "token").mpr List.mem_cons_self)⟩
  obtain ⟨p, hp, horigin⟩ := hhides "token" hheld pieces List.infix_rfl hshown.text_eq
  have hdisjoint : "token".toList.Disjoint marker.toList := by
    have hnone : "token".toList.all (fun c => !marker.toList.contains c) = true := by decide
    intro c hc hm
    simpa [hm] using List.all_eq_true.mp hnone c hc
  exact hshown.copied (fun c hc hm => hdisjoint hc hm) p hp horigin

end Tekton
