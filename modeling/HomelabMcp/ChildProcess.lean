import HomelabMcp.Interaction
import HomelabMcp.Text

/-!
# Watching a child process

A child has an exit status and two output streams, each read to its end by a reader with a limit.
`watch` waits for all three; a cancellation, a deadline, a failed wait or a failed reader ends it
early, after `terminate` has killed and reaped the child.

* `drain_eq_ok` — a reader returns bytes exactly when the stream ended and they fit the limit;
* `watch_spec` — however `watch` ends, the child is reaped; it ends with `finish` only after an
  exit and two complete streams were seen, and a kill was sent at an early end exactly as the
  `kill` rule says for a child that was, or was not, waited for.
-/

namespace ChildProcess

open Interaction
open Text (Bytes)

/-- How a process ended. -/
inductive ExitStatus where
  | exited (code : UInt8)
  | signalled (signal : Nat)
  deriving DecidableEq

namespace ExitStatus

/-- `ExitStatus::success`. -/
def success : ExitStatus → Bool
  | exited code => code == 0
  | signalled _ => false

/-- `ExitStatus::code`. -/
def code : ExitStatus → Option Nat
  | exited code => some code.toNat
  | signalled _ => none

end ExitStatus

/-- What a reader gets from a stream: reads of at least one byte, then the end or a failure. -/
inductive Stream where
  | ended
  | failed
  | chunk (first : UInt8) (others : Bytes) (next : Stream)

namespace Stream

/-- The bytes of a stream that ended. -/
def contents : Stream → Option Bytes
  | ended => some []
  | failed => none
  | chunk b bs next => next.contents.map fun rest => b :: bs ++ rest

end Stream

/-- Read to the end; a read that does not fit under the limit is an error. -/
def drainInto (limit : Nat) (output : Bytes) : Stream → Except Unit Bytes
  | .ended => .ok output
  | .failed => .error ()
  | .chunk b bs next =>
      if (b :: bs).length > limit - output.length then .error ()
      else drainInto limit (output ++ b :: bs) next

/-- `drain`: a stream read to its end, up to a limit. -/
def drain (stream : Stream) (limit : Nat) : Except Unit Bytes := drainInto limit [] stream

/-- What has been read is extended by the rest of the stream, while it fits. -/
theorem drainInto_eq_ok {limit : Nat} {stream : Stream} {output bytes : Bytes}
    (hfit : output.length ≤ limit) :
    drainInto limit output stream = .ok bytes ↔
      ∃ rest, stream.contents = some rest ∧ bytes = output ++ rest ∧ bytes.length ≤ limit := by
  induction stream generalizing output with
  | ended =>
      simp only [drainInto, Stream.contents, Except.ok.injEq, Option.some.injEq]
      constructor
      · rintro rfl
        exact ⟨[], rfl, by simp, hfit⟩
      · rintro ⟨rest, rfl, rfl, -⟩
        simp
  | failed => simp [drainInto, Stream.contents]
  | chunk b bs next ih =>
      simp only [drainInto, Stream.contents, Option.map_eq_some_iff]
      split
      · next hlong =>
          simp only [reduceCtorEq, false_iff, not_exists, not_and]
          rintro rest ⟨tail, -, rfl⟩ rfl hlen
          simp only [List.length_append] at hlen
          omega
      · next hlong =>
          have hfit' : (output ++ b :: bs).length ≤ limit := by
            rw [List.length_append]
            omega
          rw [ih hfit']
          constructor
          · rintro ⟨rest, hrest, rfl, hlen⟩
            exact ⟨b :: bs ++ rest, ⟨rest, hrest, rfl⟩, by simp, hlen⟩
          · rintro ⟨_, ⟨rest, hrest, rfl⟩, rfl, hlen⟩
            exact ⟨rest, hrest, by simp, hlen⟩

/-- **A reader's result.** -/
theorem drain_eq_ok {limit : Nat} {stream : Stream} {bytes : Bytes} :
    drain stream limit = .ok bytes ↔ stream.contents = some bytes ∧ bytes.length ≤ limit := by
  rw [drain, drainInto_eq_ok (Nat.zero_le _)]
  simp

/-- A child's process id, and whether a wait for it has completed. -/
structure Child where
  pid : Nat
  waited : Bool
  deriving DecidableEq

/-- The process id, while the child has not been waited for. -/
def Child.id (c : Child) : Option Nat := if c.waited then none else some c.pid

/-- How a reader's task ended. -/
inductive Joined where
  | finished (stream : Stream)
  | panicked

/-- The result of joining a reader's task. -/
def Joined.drained (limit : Nat) : Joined → Except Unit Bytes
  | finished stream => drain stream limit
  | panicked => .error ()

/-- The arm of the select that fires. -/
inductive Wake where
  | cancelled
  | expired
  | exited (status : ExitStatus)
  | waitFailed
  | stdout (joined : Joined)
  | stderr (joined : Joined)

/-- The arms that have a guard. -/
structure Guards where
  wait : Bool
  stdout : Bool
  stderr : Bool
  deriving DecidableEq

/-- What can wake a `select` with these guards. -/
def Guards.allow (g : Guards) : Wake → Bool
  | .cancelled | .expired => true
  | .exited _ | .waitFailed => g.wait
  | .stdout _ => g.stdout
  | .stderr _ => g.stderr

/-- The target of a kill signal: the child, or the group it leads. -/
inductive Target where
  | leader
  | group
  deriving DecidableEq

/-- The operations of the watch on a process. -/
inductive Op where
  | select (guards : Guards)
  | kill (pid : Nat) (target : Target)
  | wait
  | abortStdout
  | abortStderr

/-- A `select` is answered by something that its guards allow. -/
abbrev Ans : Op → Type
  | .select guards => { wake : Wake // guards.allow wake }
  | _ => Unit

/-- The cancellation arm fires only when the watching task has been signalled. -/
def heeds (signalled : Bool) : (op : Op) → Ans op → Prop
  | .select _, wake => match wake.1 with
      | .cancelled => signalled = true
      | _ => True
  | .kill _ _, _ | .wait, _ | .abortStdout, _ | .abortStderr, _ => True

/-- Kill the child as the rule `kill` says, reap it, and stop the readers that are left.  A wait
that fails finds no child left to reap. -/
def terminate (kill : Child → Option Target) (child : Child) (stdout stderr : Bool) :
    Program Op Ans Unit := do
  match kill child with
  | some target => Program.perform (Op.kill child.pid target)
  | none => pure ()
  Program.perform Op.wait
  if stdout then Program.perform Op.abortStdout
  if stderr then Program.perform Op.abortStderr

/-- The variables of the loop: a reader is joined once its bytes are there. -/
structure Watch where
  child : Child
  status : Option ExitStatus
  stdout : Option Bytes
  stderr : Option Bytes

namespace Watch

/-- The guards of the select. -/
def guards (w : Watch) : Guards := ⟨w.status.isNone, w.stdout.isNone, w.stderr.isNone⟩

/-- What the loop still waits for. -/
def missing (w : Watch) : Nat :=
  w.status.isNone.toNat + w.stdout.isNone.toNat + w.stderr.isNone.toNat

/-- The variables once the child has exited. -/
def exit (w : Watch) (status : ExitStatus) : Watch :=
  { w with child := { w.child with waited := true }, status := some status }

/-- An exit is one thing less to wait for. -/
theorem missing_exit {w : Watch} {status : ExitStatus} (h : w.guards.allow (.exited status)) :
    (w.exit status).missing < w.missing := by
  have hnone : w.status.isNone = true := h
  simp [missing, exit, hnone]

/-- So is the end of the output. -/
theorem missing_stdout {w : Watch} {joined : Joined} (h : w.guards.allow (.stdout joined))
    (bytes : Bytes) : { w with stdout := some bytes }.missing < w.missing := by
  have hnone : w.stdout.isNone = true := h
  simp [missing, hnone]

/-- So is the end of the error output. -/
theorem missing_stderr {w : Watch} {joined : Joined} (h : w.guards.allow (.stderr joined))
    (bytes : Bytes) : { w with stderr := some bytes }.missing < w.missing := by
  have hnone : w.stderr.isNone = true := h
  simp [missing, hnone]

end Watch

/-- What a loop makes of its ends: the limits of the readers, the result of a child that exited
with both streams read, and the results of the early ends. -/
structure Endings (R : Type) where
  stdoutLimit : Nat
  stderrLimit : Nat
  kill : Child → Option Target
  finish : ExitStatus → Bytes → Bytes → R
  cancelled : R
  expired : R
  waitFailed : R
  streamFailed : R

/-- Wait for the exit and both readers. -/
def watch {R : Type} (e : Endings R) (w : Watch) : Program Op Ans R :=
  match w.status, w.stdout, w.stderr with
  | some status, some stdout, some stderr => .done (e.finish status stdout stderr)
  | _, _, _ => .call (.select w.guards) fun
      | ⟨.cancelled, _⟩ => do
          terminate e.kill w.child w.stdout.isNone w.stderr.isNone
          pure e.cancelled
      | ⟨.expired, _⟩ => do
          terminate e.kill w.child w.stdout.isNone w.stderr.isNone
          pure e.expired
      | ⟨.exited status, h⟩ =>
          have := Watch.missing_exit h
          watch e (w.exit status)
      | ⟨.waitFailed, _⟩ => do
          terminate e.kill w.child w.stdout.isNone w.stderr.isNone
          pure e.waitFailed
      | ⟨.stdout joined, h⟩ =>
          match joined.drained e.stdoutLimit with
          | .ok bytes =>
              have := Watch.missing_stdout h bytes
              watch e { w with stdout := some bytes }
          | .error _ => do
              terminate e.kill w.child false w.stderr.isNone
              pure e.streamFailed
      | ⟨.stderr joined, h⟩ =>
          match joined.drained e.stderrLimit with
          | .ok bytes =>
              have := Watch.missing_stderr h bytes
              watch e { w with stderr := some bytes }
          | .error _ => do
              terminate e.kill w.child w.stdout.isNone false
              pure e.streamFailed
termination_by w.missing

/-- What the events say of a child: whether it runs, the exit and the streams that were observed,
and the last kill signal. -/
structure Ledger where
  alive : Bool
  exit : Option ExitStatus
  stdout : Option Stream
  stderr : Option Stream
  killed : Option Target

/-- The ledger of a child just spawned. -/
def Ledger.spawned : Ledger := ⟨true, none, none, none, none⟩

/-- The ledger of a run. -/
def monitor : Monitor Ans Ledger where
  may _ _ := True
  next l op := match op with
    | .select _ => fun wake => match wake.1 with
        | .cancelled | .expired | .waitFailed => l
        | .exited status => { l with alive := false, exit := some status }
        | .stdout (.finished stream) => { l with stdout := some stream }
        | .stderr (.finished stream) => { l with stderr := some stream }
        | .stdout .panicked | .stderr .panicked => l
    | .kill _ target => fun _ => { l with killed := some target }
    | .wait => fun _ => { l with alive := false }
    | .abortStdout | .abortStderr => fun _ => l

namespace Ledger

/-- A stream was read to its end, within the limit. -/
def Complete (limit : Nat) (stream : Option Stream) (bytes : Bytes) : Prop :=
  ∃ s, stream = some s ∧ drain s limit = .ok bytes

/-- The exit and both streams were seen. -/
structure Finished (e : Endings R) (l : Ledger) (status : ExitStatus) (stdout stderr : Bytes) :
    Prop where
  exit : l.exit = some status
  stdout : Complete e.stdoutLimit l.stdout stdout
  stderr : Complete e.stderrLimit l.stderr stderr

end Ledger

/-- How `watch` ends: with what the exit and both streams make of it, or early, with the kill the
rule asks for and something unseen.  Either way the child is reaped. -/
structure Ended (e : Endings R) (pid : Nat) (l : Ledger) (r : R) : Prop where
  reaped : l.alive = false
  result : (∃ status stdout stderr, l.Finished e status stdout stderr ∧
      r = e.finish status stdout stderr) ∨
    ((r = e.cancelled ∨ r = e.expired ∨ r = e.waitFailed ∨ r = e.streamFailed) ∧
      l.killed = e.kill ⟨pid, l.exit.isSome⟩ ∧
      ∀ status stdout stderr, ¬ l.Finished e status stdout stderr)

/-- A variable of the loop and what the ledger has of its stream. -/
def ReadAs (limit : Nat) (stream : Option Stream) : Option Bytes → Prop
  | none => stream = none
  | some bytes => Ledger.Complete limit stream bytes

/-- The variables of the loop and the ledger say the same. -/
structure Agrees (e : Endings R) (w : Watch) (l : Ledger) : Prop where
  alive : l.alive = w.status.isNone
  waited : w.child.waited = w.status.isSome
  exit : l.exit = w.status
  stdout : ReadAs e.stdoutLimit l.stdout w.stdout
  stderr : ReadAs e.stderrLimit l.stderr w.stderr
  killed : l.killed = none

variable {R : Type} {e : Endings R} {w : Watch} {l : Ledger}

/-- A stream that is missing in the variables is not complete in the ledger. -/
theorem ReadAs.not_complete {limit : Nat} {stream : Option Stream} {bytes : Option Bytes}
    (h : ReadAs limit stream bytes) (hnone : bytes.isNone = true) (b : Bytes) :
    ¬ Ledger.Complete limit stream b := by
  rintro ⟨s, hs, -⟩
  cases bytes with
  | some bytes => simp at hnone
  | none => exact absurd (h.symm.trans hs) (by simp)

/-- While the loop waits for something, the ledger is not finished. -/
theorem Agrees.not_finished (h : Agrees e w l) (hmissing : 0 < w.missing) (status : ExitStatus)
    (stdout stderr : Bytes) : ¬ l.Finished e status stdout stderr := by
  rintro ⟨hexit, hout, herr⟩
  cases hs : w.status with
  | none => exact absurd (h.exit.symm.trans hexit) (by simp [hs])
  | some status =>
      cases ho : w.stdout with
      | none => exact h.stdout.not_complete (by simp [ho]) _ hout
      | some bytes =>
          cases he : w.stderr with
          | none => exact h.stderr.not_complete (by simp [he]) _ herr
          | some bytes => simp [Watch.missing, hs, ho, he] at hmissing

/-- Termination sends the kill the rule asks for and reaps the child. -/
theorem wp_terminate (kill : Child → Option Target) (child : Child) (stdout stderr : Bool)
    {Q : Ledger → Unit → Prop}
    (h : ∀ u, Q { l with alive := false, killed := kill child <|> l.killed } u) :
    monitor.wp (terminate kill child stdout stderr) l Q := by
  unfold terminate
  cases stderr with
  | false =>
      cases hk : kill child <;> cases stdout <;>
        simpa [monitor, Program.perform, Monitor.wp, Ans, hk] using h ()
  | true =>
      cases hk : kill child <;> cases stdout <;>
        simpa [monitor, Program.perform, Monitor.wp, Ans, hk] using h

/-- An early end of the loop. -/
theorem Agrees.wp_early {pid : Nat} (h : Agrees e w l) (hpid : w.child.pid = pid)
    (l' : Ledger) (hexit : l'.exit = l.exit) (hkilled : l'.killed = none)
    (hopen : ∀ status stdout stderr, ¬ l'.Finished e status stdout stderr) (out err : Bool) {r : R}
    (hr : r = e.cancelled ∨ r = e.expired ∨ r = e.waitFailed ∨ r = e.streamFailed) :
    monitor.wp (terminate e.kill w.child out err >>= fun _ => Program.done r) l'
      (Ended e pid) := by
  have hchild : w.child = ⟨pid, l'.exit.isSome⟩ := by
    rw [hexit, h.exit, ← h.waited, ← hpid]
  rw [Monitor.wp_bind]
  refine wp_terminate _ _ _ _ fun _ => ?_
  refine ⟨rfl, .inr ⟨hr, ?_, fun status stdout stderr hf => hopen status stdout stderr ?_⟩⟩
  · simp [hkilled, ← hchild]
  · exact ⟨hf.exit, hf.stdout, hf.stderr⟩

/-- What the loop does while something is missing. -/
theorem watch_missing (hmissing : 0 < w.missing) :
    watch e w = .call (.select w.guards) fun
      | ⟨.cancelled, _⟩ =>
          terminate e.kill w.child w.stdout.isNone w.stderr.isNone >>= fun _ => .done e.cancelled
      | ⟨.expired, _⟩ =>
          terminate e.kill w.child w.stdout.isNone w.stderr.isNone >>= fun _ => .done e.expired
      | ⟨.exited status, _⟩ => watch e (w.exit status)
      | ⟨.waitFailed, _⟩ =>
          terminate e.kill w.child w.stdout.isNone w.stderr.isNone >>= fun _ => .done e.waitFailed
      | ⟨.stdout joined, _⟩ =>
          match joined.drained e.stdoutLimit with
          | .ok bytes => watch e { w with stdout := some bytes }
          | .error _ =>
              terminate e.kill w.child false w.stderr.isNone >>= fun _ => .done e.streamFailed
      | ⟨.stderr joined, _⟩ =>
          match joined.drained e.stderrLimit with
          | .ok bytes => watch e { w with stderr := some bytes }
          | .error _ =>
              terminate e.kill w.child w.stdout.isNone false >>= fun _ => .done e.streamFailed := by
  rw [watch]
  split
  · next hs ho he => simp [Watch.missing, hs, ho, he] at hmissing
  · rfl

/-- **The end of the watch.** -/
theorem watch_spec (pid : Nat) (h : Agrees e w l) (hpid : w.child.pid = pid) :
    monitor.wp (watch e w) l (Ended e pid) := by
  induction hn : w.missing using Nat.strong_induction_on generalizing w l with
  | _ n ih =>
    subst hn
    rcases Nat.eq_zero_or_pos w.missing with hzero | hmissing
    · obtain ⟨child, status, out, err⟩ := w
      cases status <;> cases out <;> cases err <;> simp [Watch.missing] at hzero
      rw [watch]
      exact ⟨h.alive, .inl ⟨_, _, _, ⟨h.exit, h.stdout, h.stderr⟩, rfl⟩⟩
    · rw [watch_missing hmissing]
      refine ⟨trivial, fun wake => ?_⟩
      have hopen := h.not_finished hmissing
      obtain ⟨wake, hallow⟩ := wake
      cases wake with
      | cancelled => exact h.wp_early hpid l rfl h.killed hopen _ _ (.inl rfl)
      | expired => exact h.wp_early hpid l rfl h.killed hopen _ _ (.inr (.inl rfl))
      | waitFailed => exact h.wp_early hpid l rfl h.killed hopen _ _ (.inr (.inr (.inl rfl)))
      | exited status =>
          exact ih _ (Watch.missing_exit hallow)
            ⟨rfl, rfl, rfl, h.stdout, h.stderr, h.killed⟩ hpid rfl
      | stdout joined =>
          cases joined with
          | panicked => exact h.wp_early hpid l rfl h.killed hopen _ _ (.inr (.inr (.inr rfl)))
          | finished stream =>
              cases hd : drain stream e.stdoutLimit with
              | ok bytes =>
                  simp only [Joined.drained, hd]
                  exact ih _ (Watch.missing_stdout hallow bytes)
                    ⟨h.alive, h.waited, h.exit, ⟨stream, rfl, hd⟩, h.stderr, h.killed⟩ hpid rfl
              | error u =>
                  simp only [Joined.drained, hd]
                  refine h.wp_early hpid { l with stdout := some stream } rfl h.killed ?_ _ _
                    (.inr (.inr (.inr rfl)))
                  rintro status stdout stderr ⟨-, ⟨s, hs, hok⟩, -⟩
                  cases hs
                  simp [hd] at hok
      | stderr joined =>
          cases joined with
          | panicked => exact h.wp_early hpid l rfl h.killed hopen _ _ (.inr (.inr (.inr rfl)))
          | finished stream =>
              cases hd : drain stream e.stderrLimit with
              | ok bytes =>
                  simp only [Joined.drained, hd]
                  exact ih _ (Watch.missing_stderr hallow bytes)
                    ⟨h.alive, h.waited, h.exit, h.stdout, ⟨stream, rfl, hd⟩, h.killed⟩ hpid rfl
              | error u =>
                  simp only [Joined.drained, hd]
                  refine h.wp_early hpid { l with stderr := some stream } rfl h.killed ?_ _ _
                    (.inr (.inr (.inr rfl)))
                  rintro status stdout stderr ⟨-, -, ⟨s, hs, hok⟩⟩
                  cases hs
                  simp [hd] at hok

variable {t : Trace Ans} {q : Program Op Ans R}

/-- A watch whose child exits goes on with its status. -/
theorem reaches_exited {status : ExitStatus} (h : w.guards.allow (.exited status))
    (hr : Reaches (watch e (w.exit status)) t q) :
    Reaches (watch e w) (⟨.select w.guards, ⟨.exited status, h⟩⟩ :: t) q := by
  rw [watch_missing (Nat.zero_lt_of_lt (Watch.missing_exit h))]
  exact .step hr

/-- A watch whose output ends goes on with what was read. -/
theorem reaches_stdout {stream : Stream} {bytes : Bytes}
    (h : w.guards.allow (.stdout (.finished stream)))
    (hd : drain stream e.stdoutLimit = .ok bytes)
    (hr : Reaches (watch e { w with stdout := some bytes }) t q) :
    Reaches (watch e w) (⟨.select w.guards, ⟨.stdout (.finished stream), h⟩⟩ :: t) q := by
  rw [watch_missing (Nat.zero_lt_of_lt (Watch.missing_stdout h bytes))]
  refine .step ?_
  simp only [Joined.drained, hd]
  exact hr

/-- The same of the error output. -/
theorem reaches_stderr {stream : Stream} {bytes : Bytes}
    (h : w.guards.allow (.stderr (.finished stream)))
    (hd : drain stream e.stderrLimit = .ok bytes)
    (hr : Reaches (watch e { w with stderr := some bytes }) t q) :
    Reaches (watch e w) (⟨.select w.guards, ⟨.stderr (.finished stream), h⟩⟩ :: t) q := by
  rw [watch_missing (Nat.zero_lt_of_lt (Watch.missing_stderr h bytes))]
  refine .step ?_
  simp only [Joined.drained, hd]
  exact hr

/-- A watch whose deadline passes terminates the child and says so. -/
theorem reaches_expired (hmissing : 0 < w.missing)
    (hr : Reaches (terminate e.kill w.child w.stdout.isNone w.stderr.isNone >>= fun _ =>
      Program.done e.expired) t q) :
    Reaches (watch e w) (⟨.select w.guards, ⟨.expired, rfl⟩⟩ :: t) q := by
  rw [watch_missing hmissing]
  exact .step hr

/-- A child that exits and closes both streams within their limits is watched to the end. -/
theorem reaches_finish (e : Endings R) (pid : Nat) (status : ExitStatus) (out err : Stream)
    {stdout stderr : Bytes} (hout : drain out e.stdoutLimit = .ok stdout)
    (herr : drain err e.stderrLimit = .ok stderr) :
    Reaches (watch e ⟨⟨pid, false⟩, none, none, none⟩)
      [⟨.select ⟨true, true, true⟩, ⟨.exited status, rfl⟩⟩,
        ⟨.select ⟨false, true, true⟩, ⟨.stdout (.finished out), rfl⟩⟩,
        ⟨.select ⟨false, false, true⟩, ⟨.stderr (.finished err), rfl⟩⟩]
      (.done (e.finish status stdout stderr)) := by
  refine reaches_exited rfl (reaches_stdout rfl hout (reaches_stderr rfl herr ?_))
  rw [watch]
  exact .refl _

end ChildProcess
