import HomelabMcp.TektonMutations
import HomelabMcp.TektonRuns

/-!
# Waiting for a run of the Tekton client

`TektonClient.wait` reads a run, and reads it again by its name until it has ended or a deadline
comes; then it reads it a last time.  Each read is a part that a deadline may cut off.

* `wait_observes`: whatever is read, a run that is returned is the one of the last read, of the same
  repository as the run of the first; it has ended, or it was read after the deadline.
* `replaced_run_observed`: the object under the name may be another one by then.

Instants are nanoseconds of a monotonic clock; the answers that carry an instant carry what the
clock promises of it.
-/

namespace Tekton

open Interaction
open Json (Value)
open Text (Bytes)

/-- The times of a wait, in nanoseconds. -/
def second : Nat := 1000000000
def waitTimeoutUnit : Nat := second
def waitPollInterval : Nat := 2 * second
def requestTimeout : Nat := 30 * second

/-- A query that waits. -/
structure RunWaitQuery where
  runId : String
  timeoutSeconds : UInt16

/-- `terminal_status`. -/
def terminalStatus (row : Value) : Bool :=
  match (row.field "status").asStr with
  | some status => ["succeeded", "failed", "cancelled"].contains status
  | none => false

/-- What a wait returns. -/
def waitJson (row : Value) (timedOut : Bool) : Value := .object [
  ("mode", .string "wait"), ("result", row), ("result_type", .string "run"),
  ("timed_out", .bool timedOut)]

/-- What comes of a part under a deadline. -/
inductive Within (deadline : Nat) (α : Type) where
  | answered (value : α)
  | elapsed (instant : Nat) (h : deadline ≤ instant)

/-- What ends a sleep: the deadline, which is looked at first, or the time to wake. -/
inductive Woken (deadline wake : Nat) where
  | deadline (instant : Nat) (h : deadline ≤ instant)
  | wake (instant : Nat) (h : wake ≤ instant ∧ instant < deadline)

namespace Wait

/-- What a wait asks of its surroundings: a permit of the waiters, the clock, the operations of its
reads under a deadline, the permit of a read that is dropped, and sleep. -/
inductive Op where
  | tryWait
  | endWait
  | now (since : Nat)
  | timed (deadline : Nat) (op : Tekton.Op)
  | drop
  | sleep (deadline wake : Nat)

/-- What each operation answers. -/
abbrev Ans : Op → Type
  | .tryWait => Bool
  | .endWait => Unit
  | .now since => { instant : Nat // since ≤ instant }
  | .timed deadline op => Within deadline (Tekton.Ans op)
  | .drop => Unit
  | .sleep deadline wake => Woken deadline wake

end Wait

/-- A part of a wait. -/
abbrev WaitCall := Fallible Wait.Ans Error

/-- Whether a request permit is held after an operation. -/
def holds (held : Bool) : (op : Op) → Ans op → Bool
  | .tryAcquire, acquired => acquired
  | .release, _ => false
  | _, _ => held

/-- A program under a deadline: at the deadline it is dropped, with the permit it holds. -/
def within {α : Type} (deadline : Nat) :
    (held : Bool) → Program Op Ans α → Program Wait.Op Wait.Ans (Within deadline α)
  | _, .done a => .done (.answered a)
  | held, .call op next => .call (Wait.Op.timed deadline op) fun
      | .answered answer => within deadline (holds held op answer) (next answer)
      | .elapsed instant h =>
          if held then .call Wait.Op.drop fun _ => .done (.elapsed instant h)
          else .done (.elapsed instant h)

/-- `timeout_at(deadline, …)` -/
def timeoutAt {α : Type} (deadline : Nat) (x : TektonCall α) :
    WaitCall (Within deadline (Except Error α)) :=
  ExceptT.lift (within deadline false x.run)

namespace TektonClient

variable (crates : Crates) (client : TektonClient)

/-- The run, of the same repository. -/
def ownedRunMatching (id : String) (expected : Repository) : TektonCall Value := do
  let (run, repository) ← ownedRun crates client id
  ensure (repository.crName == expected.crName && repository.id == expected.id) .notFound
  return run

/-- The read after the deadline. -/
def finalRead (runId : String) (repository : Repository) (since : Nat) : WaitCall Value := do
  let start ← ask (Wait.Op.now since)
  match ← timeoutAt (start.1 + requestTimeout)
      (ownedRunMatching crates client runId repository) with
  | .elapsed _ _ => throw .timeout
  | .answered result =>
      let run ← answer result
      let row ← answer (okOr .invalidResponse (normalizeRun run client.kubeNamespace repository))
      return waitJson row true

/-- The polls, from an instant on. -/
def poll (runId : String) (repository : Repository) (deadline start : Nat) : WaitCall Value := do
  match ← ask (Wait.Op.sleep deadline (start + waitPollInterval)) with
  | .deadline instant _ => finalRead crates client runId repository instant
  | .wake instant _ =>
      match ← timeoutAt deadline (ownedRunMatching crates client runId repository) with
      | .elapsed late _ => finalRead crates client runId repository late
      | .answered result =>
          let run ← answer result
          let row ← answer (okOr .invalidResponse (normalizeRun run client.kubeNamespace repository))
          if terminalStatus row then return waitJson row false
          else do
            let next ← ask (Wait.Op.now instant)
            poll runId repository deadline next.1
termination_by deadline - start
decreasing_by
  have _ := next.2
  have hpositive : 0 < waitPollInterval := by decide
  omega

/-- What is done while waiting. -/
def waiting (query : RunWaitQuery) : WaitCall Value := do
  let start ← ask (Wait.Op.now 0)
  let deadline := start.1 + waitTimeoutUnit * query.timeoutSeconds.toNat
  match ← timeoutAt deadline (ownedRun crates client query.runId) with
  | .elapsed _ _ => throw .timeout
  | .answered result =>
      let (run, repository) ← answer result
      let row ← answer (okOr .invalidResponse (normalizeRun run client.kubeNamespace repository))
      if terminalStatus row then return waitJson row false
      else do
        let next ← ask (Wait.Op.now start.1)
        poll crates client query.runId repository deadline next.1

/-- `wait`: under one permit. -/
def wait (query : RunWaitQuery) : WaitCall Value := do
  ensure (← ask Wait.Op.tryWait) .capacityExhausted
  let result ← attempt (waiting crates client query)
  ask Wait.Op.endWait
  answer result

end TektonClient

section Parts

variable {crates : Crates} {client : TektonClient} {α : Type} {deadline : Nat}
  {t : Trace Wait.Ans}

/-- An operation that was answered before the deadline. -/
def timedEvent (deadline : Nat) (e : Event Ans) : Event Wait.Ans :=
  ⟨.timed deadline e.1, .answered e.2⟩

/-- A part that was not cut off has run to its end. -/
theorem reaches_within {held : Bool} {p : Program Op Ans α} {a : α}
    (h : Reaches (within deadline held p) t (.done (.answered a))) :
    ∃ u, Reaches p u (.done a) ∧ t = u.map (timedEvent deadline) := by
  induction p generalizing held t with
  | done b =>
      rw [within] at h
      cases h
      exact ⟨[], .refl _, rfl⟩
  | call op next ih =>
      rw [within] at h
      cases h with
      | @step _ _ result _ _ h =>
          cases result with
          | answered answer =>
              obtain ⟨u, hu, rfl⟩ := ih answer h
              exact ⟨⟨op, answer⟩ :: u, .step hu, rfl⟩
          | elapsed instant hlate =>
              cases held with
              | true =>
                  cases h with
                  | step h => cases h
              | false => cases h

/-- A program that was lifted and has succeeded has ended. -/
theorem reaches_of_lift {Op : Type} {Ans : Op → Type} {ε : Type} {p : Program Op Ans α} {a : α}
    {t : Trace Ans} (h : Reaches (ExceptT.lift p : Fallible Ans ε α).run t (.done (.ok a))) :
    Reaches p t (.done a) := by
  have hlift : Reaches (p >>= fun a => Program.done (.ok a)) t
      (.done (.ok a) : Program Op Ans (Except ε α)) := h
  obtain ⟨result, first, rest, hfirst, hrest, rfl⟩ := hlift.bind_inv
  cases hrest
  rwa [List.append_nil]

/-- A part that is answered in time. -/
theorem within_reaches {held : Bool} {p : Program Op Ans α} {u : Trace Ans} {a : α}
    (h : Reaches p u (.done a)) :
    Reaches (within deadline held p) (u.map (timedEvent deadline)) (.done (.answered a)) := by
  induction u generalizing held p with
  | nil =>
      cases h
      exact .refl _
  | cons e u ih =>
      cases h with
      | @step op _ answer _ _ h =>
          rw [within]
          exact .step (@ih (holds held op answer) _ h)

/-- A part that is answered in time ran to its end. -/
theorem reaches_timeoutAt {x : TektonCall α} {r : Except Error α}
    (h : Reaches (timeoutAt deadline x).run t (.done (.ok (.answered r)))) :
    ∃ u, Reaches x.run u (.done r) ∧ t = u.map (timedEvent deadline) :=
  reaches_within (reaches_of_lift h)

/-- What follows a part that is answered in time. -/
theorem timeoutAt_bind {β : Type} {x : TektonCall α} {r : Except Error α}
    {f : Within deadline (Except Error α) → WaitCall β} {u : Trace Ans} {b : Except Error β}
    (h : Reaches x.run u (.done r)) (hf : Reaches (f (.answered r)).run t (.done b)) :
    Reaches (timeoutAt deadline x >>= f).run (u.map (timedEvent deadline) ++ t) (.done b) := by
  have hpart : Reaches (timeoutAt deadline x).run (u.map (timedEvent deadline))
      (.done (.ok (.answered r))) := (within_reaches h).bind_done rfl
  exact hpart.bind hf

/-- A read of the run, as a part of a wait. -/
def ReadIn (crates : Crates) (client : TektonClient) (runId : String) (t : Trace Wait.Ans)
    (run : Value) (repository : Repository) : Prop :=
  ∃ deadline u, Reaches (client.ownedRun crates runId).run u (.done (.ok (run, repository))) ∧
    t = u.map (timedEvent deadline)

/-- A run that matches is owned by the same repository. -/
theorem ownedRunMatching_done {runId : String} {expected : Repository} {run : Value}
    {u : Trace Ans}
    (h : Reaches (client.ownedRunMatching crates runId expected).run u (.done (.ok run))) :
    ∃ repository, Reaches (client.ownedRun crates runId).run u (.done (.ok (run, repository))) ∧
      repository.crName = expected.crName ∧ repository.id = expected.id := by
  unfold TektonClient.ownedRunMatching at h
  obtain ⟨⟨read, repository⟩, first, rest, hfirst, hrest, rfl⟩ := h.run_bind_ok
  obtain ⟨hsame, hend⟩ := hrest.run_ensure_ok
  cases hend
  rw [Bool.and_eq_true, beq_iff_eq, beq_iff_eq] at hsame
  exact ⟨repository, by rwa [List.append_nil], hsame.1, hsame.2⟩

/-- One that is owned by it matches. -/
theorem ownedRunMatching_reaches {runId : String} {repository : Repository} {run : Value}
    {u : Trace Ans}
    (h : Reaches (client.ownedRun crates runId).run u (.done (.ok (run, repository)))) :
    Reaches (client.ownedRunMatching crates runId repository).run u (.done (.ok run)) := by
  apply h.bind_done
  simp [ExceptT.bindCont, ensure]
  rfl

end Parts

/-- What is returned is the run of the last read, of the same repository; it has ended, or the read
was begun after the deadline. -/
def Snapshot (crates : Crates) (client : TektonClient) (runId : String) (repository : Repository)
    (deadline : Nat) (t : Trace Wait.Ans) (run : Value) (v : Value) : Prop :=
  ∃ before last found row timedOut, t = before ++ last ∧
    ReadIn crates client runId last run found ∧
    found.crName = repository.crName ∧ found.id = repository.id ∧
    normalizeRun run client.kubeNamespace repository = some row ∧ v = waitJson row timedOut ∧
    (timedOut = false → terminalStatus row = true) ∧
    (timedOut = true → ∃ since instant, before.getLast? = some ⟨.now since, instant⟩ ∧
      deadline ≤ instant.1)

section Snapshots

variable {crates : Crates} {client : TektonClient} {runId : String} {repository : Repository}
  {deadline : Nat} {t : Trace Wait.Ans} {run v : Value}

/-- More events before. -/
theorem Snapshot.append (h : Snapshot crates client runId repository deadline t run v)
    (u : Trace Wait.Ans) : Snapshot crates client runId repository deadline (u ++ t) run v := by
  obtain ⟨before, last, found, row, timedOut, rfl, hread, hname, hid, hrow, hv, hended,
    hlate⟩ := h
  refine ⟨u ++ before, last, found, row, timedOut, by rw [List.append_assoc], hread, hname,
    hid, hrow, hv, hended, fun htimedOut => ?_⟩
  obtain ⟨since, instant, hlast, hinstant⟩ := hlate htimedOut
  exact ⟨since, instant, by rw [List.getLast?_append, hlast]; rfl, hinstant⟩

/-- A read that shows a run that has ended. -/
theorem snapshot_of_ended {since : Nat} {found : Repository} {row : Value} {u : Trace Ans}
    (hread : Reaches (client.ownedRun crates runId).run u (.done (.ok (run, found))))
    (hname : found.crName = repository.crName) (hid : found.id = repository.id)
    (hrow : normalizeRun run client.kubeNamespace repository = some row)
    (hended : terminalStatus row = true) :
    Snapshot crates client runId repository deadline (u.map (timedEvent since)) run
      (waitJson row false) :=
  ⟨[], _, found, row, false, (List.nil_append _).symm, ⟨since, u, hread, rfl⟩, hname, hid, hrow,
    rfl, fun _ => hended, nofun⟩

/-- The read after the deadline. -/
theorem finalRead_snapshot {since : Nat} (hsince : deadline ≤ since)
    (h : Reaches (client.finalRead crates runId repository since).run t (.done (.ok v))) :
    ∃ run, Snapshot crates client runId repository deadline t run v := by
  unfold TektonClient.finalRead at h
  obtain ⟨start, rest, hrest, rfl⟩ := h.run_ask_ok
  obtain ⟨result, first, last, hread, hlast, rfl⟩ := hrest.run_bind_ok
  cases result with
  | elapsed instant hlate => cases hlast
  | answered result =>
      obtain ⟨run, rfl, hrun⟩ := hlast.run_answer_bind_ok
      obtain ⟨row, hrow, hend⟩ := hrun.run_okOr_ok
      cases hend
      obtain ⟨u, hu, rfl⟩ := reaches_timeoutAt hread
      obtain ⟨found, hfound, hname, hid⟩ := ownedRunMatching_done hu
      refine ⟨run, [⟨.now since, start⟩], u.map (timedEvent (start.1 + requestTimeout)), found, row,
        true, by rw [List.append_nil]; rfl, ⟨_, u, hfound, rfl⟩, hname, hid, hrow, rfl, nofun,
        fun _ => ?_⟩
      exact ⟨since, start, rfl, hsince.trans start.2⟩

/-- The polls. -/
theorem poll_snapshot {start : Nat}
    (h : Reaches (client.poll crates runId repository deadline start).run t (.done (.ok v))) :
    ∃ run, Snapshot crates client runId repository deadline t run v := by
  induction hleft : deadline - start using Nat.strong_induction_on generalizing start t with
  | _ left ih =>
      rw [TektonClient.poll] at h
      obtain ⟨woken, rest, hrest, rfl⟩ := h.run_ask_ok
      suffices hsnapshot : ∃ run, Snapshot crates client runId repository deadline rest run v by
        obtain ⟨run, hsnapshot⟩ := hsnapshot
        exact ⟨run, hsnapshot.append [_]⟩
      cases woken with
      | deadline instant hlate => exact finalRead_snapshot hlate hrest
      | wake instant hwake =>
          obtain ⟨result, first, rest, hread, hresult, rfl⟩ := hrest.run_bind_ok
          cases result with
          | elapsed late hlate =>
              obtain ⟨run, hsnapshot⟩ := finalRead_snapshot hlate hresult
              exact ⟨run, hsnapshot.append first⟩
          | answered result =>
              obtain ⟨run, rfl, hrun⟩ := hresult.run_answer_bind_ok
              obtain ⟨row, hrow, hend⟩ := hrun.run_okOr_ok
              by_cases hended : terminalStatus row = true
              · rw [if_pos hended] at hend
                cases hend
                obtain ⟨u, hu, rfl⟩ := reaches_timeoutAt hread
                obtain ⟨found, hfound, hname, hid⟩ := ownedRunMatching_done hu
                rw [List.append_nil]
                exact ⟨run, snapshot_of_ended hfound hname hid hrow hended⟩
              · rw [if_neg hended] at hend
                obtain ⟨next, rest, hnext, rfl⟩ := hend.run_ask_ok
                have hclock : instant ≤ next.1 := next.2
                have hinterval : 0 < waitPollInterval := by decide
                obtain ⟨run, hsnapshot⟩ := ih (deadline - next.1) (by omega) hnext rfl
                have happend := hsnapshot.append (first ++ [⟨.now instant, next⟩])
                rw [List.append_assoc] at happend
                exact ⟨run, happend⟩

/-- What a wait has read and returns, without its permit: the run of a first read and the run of
the last one, of one repository and under one name. -/
def Observed (crates : Crates) (client : TektonClient) (query : RunWaitQuery)
    (t : Trace Wait.Ans) (run seen v : Value) : Prop :=
  ∃ start first repository rest,
    t = ⟨.now 0, start⟩ :: (first ++ rest) ∧
    ReadIn crates client query.runId first run repository ∧
    Snapshot crates client query.runId repository
      (start.1 + waitTimeoutUnit * query.timeoutSeconds.toNat) (first ++ rest) seen v

/-- What is returned was observed. -/
theorem waiting_observed {query : RunWaitQuery}
    (h : Reaches (client.waiting crates query).run t (.done (.ok v))) :
    ∃ run seen, Observed crates client query t run seen v := by
  unfold TektonClient.waiting at h
  obtain ⟨start, rest, hrest, rfl⟩ := h.run_ask_ok
  obtain ⟨result, first, rest, hread, hresult, rfl⟩ := hrest.run_bind_ok
  cases result with
  | elapsed late hlate => cases hresult
  | answered result =>
      obtain ⟨⟨run, repository⟩, rfl, hrun⟩ := hresult.run_answer_bind_ok
      obtain ⟨row, hrow, hend⟩ := hrun.run_okOr_ok
      obtain ⟨u, hu, rfl⟩ := reaches_timeoutAt hread
      by_cases hended : terminalStatus row = true
      · rw [if_pos hended] at hend
        cases hend
        refine ⟨run, run, start, _, repository, [], rfl, ⟨_, u, hu, rfl⟩, ?_⟩
        rw [List.append_nil]
        exact snapshot_of_ended hu rfl rfl hrow hended
      · rw [if_neg hended] at hend
        obtain ⟨next, rest, hnext, rfl⟩ := hend.run_ask_ok
        obtain ⟨seen, hsnapshot⟩ := poll_snapshot hnext
        have happend := hsnapshot.append [⟨.now start.1, next⟩]
        exact ⟨run, seen, start, _, repository, _, rfl, ⟨_, u, hu, rfl⟩, happend.append _⟩

/-- **A wait observes a name.**  For every sequence of answers and every timing: what `wait` returns
is the run of its last read, found under the name and in the repository of the run that was read
first.  It says that the wait was in time, and the run has ended; or that it was not, and the read
was begun after the deadline. -/
theorem wait_observes {query : RunWaitQuery}
    (h : Reaches (client.wait crates query).run t (.done (.ok v))) :
    ∃ u run seen, t = ⟨.tryWait, true⟩ :: (u ++ [⟨.endWait, ()⟩]) ∧
      Observed crates client query u run seen v := by
  unfold TektonClient.wait at h
  obtain ⟨permit, rest, hpermit, rfl⟩ := h.run_ask_ok
  obtain ⟨rfl, hattempt⟩ := hpermit.run_ensure_ok
  obtain ⟨result, u, last, hwaiting, hlast, rfl⟩ := hattempt.run_bind_ok
  obtain ⟨ended, rest, hend, rfl⟩ := hlast.run_ask_ok
  obtain ⟨rfl, rfl⟩ := hend.run_answer_ok
  obtain ⟨run, seen, hobserved⟩ := waiting_observed (reaches_of_lift hwaiting)
  exact ⟨u, run, seen, rfl, hobserved⟩

/-- From the row to the rest. -/
theorem row_reaches {row : Value} {f : Value → WaitCall Value}
    (hrow : normalizeRun run client.kubeNamespace repository = some row)
    (h : Reaches (f row).run t (.done (.ok v))) :
    Reaches (answer (.ok run) >>= fun run =>
      answer (okOr .invalidResponse (normalizeRun run client.kubeNamespace repository)) >>= f).run t
      (.done (.ok v)) := by
  change Reaches (answer (okOr _ (normalizeRun run client.kubeNamespace repository)) >>= f).run _ _
  rw [hrow]
  exact h

/-- A poll that finds a run that has ended. -/
theorem poll_ended {start instant : Nat} {row : Value} {u : Trace Ans}
    (hwake : start + waitPollInterval ≤ instant ∧ instant < deadline)
    (hread : Reaches (client.ownedRun crates runId).run u (.done (.ok (run, repository))))
    (hrow : normalizeRun run client.kubeNamespace repository = some row)
    (hended : terminalStatus row = true) :
    Reaches (client.poll crates runId repository deadline start).run
      (⟨.sleep deadline (start + waitPollInterval), .wake instant hwake⟩ ::
        (u.map (timedEvent deadline) ++ [])) (.done (.ok (waitJson row false))) := by
  rw [TektonClient.poll]
  refine .step (timeoutAt_bind (ownedRunMatching_reaches hread) ?_)
  have hend : Reaches (if terminalStatus row then pure (waitJson row false) else do
      let next ← ask (Wait.Op.now instant)
      client.poll crates runId repository deadline next.1 : WaitCall Value).run []
      (.done (.ok (waitJson row false))) := by
    rw [if_pos hended]
    exact .refl _
  exact row_reaches hrow hend

/-- A wait that finds a run that has not ended, and polls. -/
theorem waiting_polls {query : RunWaitQuery} {start next : Nat} {row : Value} {u : Trace Ans}
    (hnext : start ≤ next)
    (hread : Reaches (client.ownedRun crates query.runId).run u (.done (.ok (run, repository))))
    (hrow : normalizeRun run client.kubeNamespace repository = some row)
    (hrunning : ¬ terminalStatus row = true)
    (hdeadline : start + waitTimeoutUnit * query.timeoutSeconds.toNat = deadline)
    (hpoll : Reaches (client.poll crates query.runId repository deadline next).run t
      (.done (.ok v))) :
    Reaches (client.waiting crates query).run (⟨.now 0, ⟨start, Nat.zero_le _⟩⟩ ::
      (u.map (timedEvent deadline) ++ ⟨.now start, ⟨next, hnext⟩⟩ :: t)) (.done (.ok v)) := by
  subst hdeadline
  unfold TektonClient.waiting
  refine .step (timeoutAt_bind hread ?_)
  have hend : Reaches (if terminalStatus row then pure (waitJson row false) else do
      let next ← ask (Wait.Op.now start)
      client.poll crates query.runId repository
        (start + waitTimeoutUnit * query.timeoutSeconds.toNat) next.1 : WaitCall Value).run
      (⟨.now start, ⟨next, hnext⟩⟩ :: t) (.done (.ok v)) := by
    rw [if_neg hrunning]
    exact .step hpoll
  exact row_reaches hrow hend

end Snapshots

/-- The run that another server has under the same name, of the same repository. -/
def replacedRun : Bytes := [
  "\x7b\"metadata\":\x7b\"labels\":\x7b", "\"pipelinesascode.tekton.dev/", "repository\":\"demo\"\x7d,",
  "\"name\":\"run\",\"uid\":\"2\"\x7d,", "\"status\":\x7b\"conditions\":[\x7b", "\"status\":\"True\",",
  "\"type\":\"Succeeded\"\x7d]\x7d\x7d"].flatMap Text.ascii

/-- Another run under the same name. -/
def replacedRunValue : Value := .object [
  ("metadata", .object [
    ("labels", .object [("pipelinesascode.tekton.dev/repository", .string "demo")]),
    ("name", .string "run"), ("uid", .string "2")]),
  ("status", .object [("conditions", .array [.object [
    ("status", .string "True"), ("type", .string "Succeeded")]])])]

/-- Parsers that know the texts of the sample. -/
def replacedCrates : Crates where
  parseJson bytes :=
    if bytes = replacedRun then some replacedRunValue else (logCrates "pod-a").parseJson bytes
  parseUrl := (logCrates "pod-a").parseUrl

/-- The server after the run was deleted and one of its name was created. -/
def respondReplaced : (op : Op) → Ans op
  | .send kind request =>
      if request.url.segments.contains "pipelineruns".toList then .response 200 (.whole replacedRun)
      else respond "pod-a" (.send kind request)
  | op => respond "pod-a" op

/-- A query that waits a minute. -/
def waitQuery : RunWaitQuery where
  runId := "pipelines-as-code/run"
  timeoutSeconds := 60

/-- The repository of the run. -/
def waitedRepository : Repository where
  id := "a/b"
  crName := "demo"
  owner := "a"
  name := "b"
  url := "https://git.holdenitdown.net/a/b"

/-- A read of the run of the sample. -/
def readRun (server : (op : Op) → Ans op) :
    Trace Ans × Program Op Ans (Except Error (Value × Repository)) :=
  (sampleClient.ownedRun replacedCrates waitQuery.runId).run.answered server 10

/-- The first read finds the first run. -/
theorem readRun_first : Reaches (sampleClient.ownedRun replacedCrates waitQuery.runId).run
    (readRun (respond "pod-a")).1 (.done (.ok (sampleRunValue, waitedRepository))) :=
  Program.answered_ended _ 10 _ rfl

set_option maxRecDepth 2000 in
/-- The next one finds the other. -/
theorem readRun_replaced : Reaches (sampleClient.ownedRun replacedCrates waitQuery.runId).run
    (readRun respondReplaced).1 (.done (.ok (replacedRunValue, waitedRepository))) :=
  Program.answered_ended _ 10 _ rfl

/-- The deadline of a wait that starts at once. -/
def waitDeadline : Nat := 0 + waitTimeoutUnit * waitQuery.timeoutSeconds.toNat

/-- What a wait does that finds the run, and another one after the first poll. -/
def replacedTrace : Trace Wait.Ans :=
  ⟨.now 0, ⟨0, le_refl 0⟩⟩ :: ((readRun (respond "pod-a")).1.map (timedEvent waitDeadline) ++
    (⟨.now 0, ⟨0, le_refl 0⟩⟩ :: ⟨.sleep waitDeadline (0 + waitPollInterval),
      .wake waitPollInterval (by decide)⟩ ::
        (readRun respondReplaced).1.map (timedEvent waitDeadline)))

/-- The row of the run that is there first, and of the one after the poll. -/
def runningRow : Value :=
  (normalizeRun sampleRunValue sampleClient.kubeNamespace waitedRepository).getD .null

/-- The row of the other. -/
def replacedRow : Value :=
  (normalizeRun replacedRunValue sampleClient.kubeNamespace waitedRepository).getD .null

/-- The row of the first. -/
theorem runningRow_eq :
    normalizeRun sampleRunValue sampleClient.kubeNamespace waitedRepository = some runningRow := rfl

/-- It has not ended. -/
theorem runningRow_running : ¬ terminalStatus runningRow = true := by decide

/-- The other has a row. -/
theorem replacedRow_eq :
    normalizeRun replacedRunValue sampleClient.kubeNamespace waitedRepository = some replacedRow :=
  rfl

/-- It has ended. -/
theorem replacedRow_ended : terminalStatus replacedRow = true := rfl

/-- The wait returns it. -/
theorem replaced_waits : Reaches (sampleClient.wait replacedCrates waitQuery).run
    (⟨.tryWait, true⟩ :: (replacedTrace ++ [⟨.endWait, ()⟩]))
    (.done (.ok (waitJson replacedRow false))) := by
  have hpoll : Reaches (sampleClient.poll replacedCrates waitQuery.runId waitedRepository
      waitDeadline 0).run (⟨.sleep waitDeadline (0 + waitPollInterval),
        .wake waitPollInterval (by decide)⟩ ::
          ((readRun respondReplaced).1.map (timedEvent waitDeadline) ++ []))
      (.done (.ok (waitJson replacedRow false))) :=
    poll_ended _ readRun_replaced replacedRow_eq replacedRow_ended
  rw [List.append_nil] at hpoll
  have hwaiting : Reaches (sampleClient.waiting replacedCrates waitQuery).run replacedTrace
      (.done (.ok (waitJson replacedRow false))) :=
    waiting_polls (le_refl 0) readRun_first runningRow_eq runningRow_running rfl hpoll
  have hattempt : Reaches (attempt (sampleClient.waiting replacedCrates waitQuery)).run
      replacedTrace (.done (.ok (.ok (waitJson replacedRow false)))) :=
    hwaiting.bind_done rfl
  exact .step (hattempt.bind (.step (.refl _)))

/-- And it was observed. -/
theorem replaced_observed : Observed replacedCrates sampleClient waitQuery replacedTrace
    sampleRunValue replacedRunValue (waitJson replacedRow false) := by
  refine ⟨⟨0, le_refl 0⟩, _, waitedRepository, _, rfl, ⟨_, _, readRun_first, rfl⟩, ?_⟩
  have hended : Snapshot replacedCrates sampleClient waitQuery.runId waitedRepository waitDeadline
      ((readRun respondReplaced).1.map (timedEvent waitDeadline)) replacedRunValue
      (waitJson replacedRow false) :=
    snapshot_of_ended readRun_replaced rfl rfl replacedRow_eq replacedRow_ended
  have hpolled := hended.append [⟨.now 0, ⟨0, le_refl 0⟩⟩,
    ⟨.sleep waitDeadline (0 + waitPollInterval), .wake waitPollInterval (by decide)⟩]
  exact hpolled.append _

/-- The wait of the sample observes what it says. -/
theorem wait_observes_replaced : ∃ u run seen,
    (⟨.tryWait, true⟩ :: (replacedTrace ++ [⟨.endWait, ()⟩]) : Trace Wait.Ans) =
      ⟨.tryWait, true⟩ :: (u ++ [⟨.endWait, ()⟩]) ∧
    Observed replacedCrates sampleClient waitQuery u run seen (waitJson replacedRow false) :=
  wait_observes replaced_waits

/-- A wait may end with another object than the one it began with: the name and the repository are
compared, the UID is not. -/
theorem replaced_run_observed : ¬ ∀ u run seen v,
    Reaches (sampleClient.wait replacedCrates waitQuery).run
        (⟨.tryWait, true⟩ :: (u ++ [⟨.endWait, ()⟩])) (.done (.ok v)) →
      Observed replacedCrates sampleClient waitQuery u run seen v →
      objectUid seen = objectUid run := by
  intro h
  have hsame := h _ _ _ _ replaced_waits replaced_observed
  exact absurd hsame (by decide)

end Tekton
