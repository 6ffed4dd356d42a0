import HomelabMcp.Redaction
import HomelabMcp.TektonLogs
import HomelabMcp.TektonReads

/-!
# The budget of logs

`logs` reads the logs of at most eight steps while bytes remain, redacts and cuts each, and says by
flags what it has left out.  What the kubelet has is a list of complete logs, one for each selected
step (`LogSource`); what the logs use up of the budget is read off them (`leftAfter`).

* `logs_accounted_iff`: the flags account for everything that is left out exactly when the budget
  lasts up to the last step, or more than eight steps are selected, and no log is cut unseen, or
  redaction absorbs what was cut.
* `not_cutUnseen_of_one_line`: no log is cut unseen if every value is one line.
* `logs_omitted_unseen`: with a first step that uses up the budget, the second is left out and
  `steps_omitted` is false.

A log is cut unseen when `tail_lines` cuts it and the redaction of what is left, of values with
line ends in them, has fewer lines than that.
-/

namespace Tekton

open Interaction
open Http (Exchange)
open Json (Value)
open Text (Bytes)

variable {crates : Crates} {client : TektonClient} {query : TaskLogsQuery} {t : Trace Ans}

/-- A log that was read: what was asked for, with which token, and the bytes that came. -/
structure LogRead where
  container : String
  requested : Nat
  token : String
  bytes : Bytes

/-- The request of a read. -/
def LogRead.request (client : TektonClient) (query : TaskLogsQuery) (pod : String)
    (read : LogRead) : Request :=
  ⟨.get, client.kubeUrl (client.podPath pod ++ "/log")
    (TektonClient.logQuery query read.container read.requested), read.token, none⟩

/-- The log was asked for by this request, and this exchange brought its bytes. -/
def Sent (client : TektonClient) (query : TaskLogsQuery) (pod : String)
    (sent : Request × Exchange) (read : LogRead) : Prop :=
  sent.1 = read.request client query pod ∧ reply .read read.requested sent.2 = .ok read.bytes

/-- The text of a log with every secret replaced, before it is cut. -/
def redactLog (redactions : List String) (kubeToken : String) (bytes : Bytes) : String :=
  Text.replace (redactions.foldl (fun text secret => Text.replace text secret "[REDACTED]")
    (Text.decodeLossy bytes)) kubeToken "[REDACTED]"

/-- The values are replaced first, and the token after them. -/
theorem redactLog_eq (redactions : List String) (kubeToken : String) (bytes : Bytes) :
    redactLog redactions kubeToken bytes = (redactions ++ [kubeToken]).foldl
      (fun text secret => Text.replace text secret "[REDACTED]") (Text.decodeLossy bytes) := by
  rw [List.foldl_append]
  rfl

/-- What is returned of a log. -/
def LogRead.text (redactions : List String) (read : LogRead) : String :=
  (stepText redactions read.token read.requested read.bytes).1

/-- The redaction of a log fits the bytes that were asked for. -/
def LogRead.Fits (redactions : List String) (read : LogRead) : Prop :=
  (redactLog redactions read.token read.bytes).utf8ByteSize ≤ read.requested

/-- Whether a text fits is decided by its length. -/
instance (redactions : List String) (read : LogRead) : Decidable (read.Fits redactions) :=
  Nat.decLe _ _

/-- The text of a step, by whether it fits. -/
theorem stepText_eq (redactions : List String) (read : LogRead) :
    stepText redactions read.token read.requested read.bytes =
      if read.Fits redactions then (redactLog redactions read.token read.bytes, false)
      else (String.ofList (Text.fit read.requested
        (redactLog redactions read.token read.bytes).toList), true) := rfl

/-- Of a log, as many whole characters of its redaction are returned as fit. -/
theorem LogRead.text_eq (redactions : List String) (read : LogRead) :
    read.text redactions = String.ofList (Text.fit read.requested
      (redactLog redactions read.token read.bytes).toList) := by
  rw [LogRead.text, stepText_eq]
  split_ifs with hfits
  · rw [Text.fit_eq_self hfits, String.ofList_toList]
  · rfl

/-- It is no longer than what was asked for. -/
theorem LogRead.text_size (redactions : List String) (read : LogRead) :
    (read.text redactions).utf8ByteSize ≤ read.requested := by
  rw [LogRead.text_eq]
  exact Text.fit_size _ _

/-- The entry of a step whose log was read. -/
def LogRead.entry (redactions : List String) (query : TaskLogsQuery) (step : String)
    (read : LogRead) : StepLog where
  step := step
  text := read.text redactions
  tailTruncated := decide (Text.lineCount (read.text redactions) ≥ query.tailLines.toNat)
  byteTruncated := decide (read.bytes.length ≥ read.requested) || !decide (read.Fits redactions)

/-- The entry as the loop writes it. -/
theorem stepLog_eq {redactions : List String} (query : TaskLogsQuery) (step : String)
    (read : LogRead) :
    (⟨step, (stepText redactions read.token read.requested read.bytes).1,
      decide (Text.lineCount (stepText redactions read.token read.requested read.bytes).1 ≥
        query.tailLines.toNat),
      decide (read.bytes.length ≥ read.requested) ||
        (stepText redactions read.token read.requested read.bytes).2⟩ : StepLog) =
      read.entry redactions query step := by
  have hcut : (stepText redactions read.token read.requested read.bytes).2 =
      !decide (read.Fits redactions) := by
    rw [stepText_eq]
    by_cases hfits : read.Fits redactions
    · simp [hfits]
    · simp [hfits]
  rw [hcut]
  rfl

/-- The bytes that the texts of the logs use. -/
def spent (redactions : List String) (reads : List LogRead) : Nat :=
  (reads.map fun read => (read.text redactions).utf8ByteSize).sum

/-- Each log was asked for with the bytes that were left, while some were. -/
def Budgeted (redactions : List String) : Nat → List LogRead → Prop
  | _, [] => True
  | left, read :: reads => read.requested = left ∧ left ≠ 0 ∧
      Budgeted redactions (left - (read.text redactions).utf8ByteSize) reads

/-- What is spent stays within the budget. -/
theorem Budgeted.spent_le {redactions : List String} {left : Nat} {reads : List LogRead}
    (h : Budgeted redactions left reads) : spent redactions reads ≤ left := by
  induction reads generalizing left with
  | nil => exact Nat.zero_le left
  | cons read reads ih =>
      obtain ⟨hrequested, -, hrest⟩ := h
      have hsize := read.text_size redactions
      have hle := ih hrest
      simp only [spent, List.map_cons, List.sum_cons] at hle ⊢
      omega

/-- What the loop has read, and what it returns. -/
structure HasLogged (client : TektonClient) (query : TaskLogsQuery) (pod : String)
    (steps : List (String × String)) (remaining : Nat) (t : Trace Ans) (reads : List LogRead)
    (logs : List StepLog) (left : Nat) : Prop where
  sent : List.Forall₂ (Sent client query pod) (requests t) reads
  containers : reads.map LogRead.container <+: steps.map Prod.snd
  budgeted : Budgeted client.redactions remaining reads
  logs_eq : logs = List.zipWith (LogRead.entry client.redactions query) (steps.map Prod.fst) reads
  left_eq : left = remaining - spent client.redactions reads
  stopped : reads.length < steps.length → left = 0

/-- The loop reads step after step while the budget lasts. -/
theorem stepLogs_logged {pod : String} {steps : List (String × String)} {remaining left : Nat}
    {logs : List StepLog}
    (h : Reaches (client.stepLogs query pod steps remaining).run t (.done (.ok (logs, left)))) :
    ∃ reads, HasLogged client query pod steps remaining t reads logs left := by
  induction steps generalizing t remaining logs left with
  | nil =>
      cases h
      exact ⟨[], .nil, List.nil_prefix, trivial, rfl, rfl, fun h => absurd h (Nat.not_lt_zero _)⟩
  | cons step steps ih =>
      unfold TektonClient.stepLogs at h
      by_cases hnone : remaining = 0
      · rw [if_pos hnone] at h
        cases h
        exact ⟨[], .nil, List.nil_prefix, trivial, rfl, rfl, fun _ => hnone⟩
      · rw [if_neg hnone] at h
        obtain ⟨⟨bytes, token⟩, first, t₁, hread, h₁, rfl⟩ := h.run_bind_ok
        obtain ⟨⟨others, left'⟩, rest, last, hothers, h₂, rfl⟩ := h₁.run_bind_ok
        cases h₂
        obtain ⟨exchange, hone, hreply⟩ := kubeText_ok hread
        obtain ⟨reads, hlogged⟩ := ih hothers
        refine ⟨⟨step.2, remaining, token, bytes⟩ :: reads, ?_, ?_, ⟨rfl, hnone, hlogged.budgeted⟩,
          ?_, ?_, fun hlt => hlogged.stopped (Nat.lt_of_succ_lt_succ hlt)⟩
        · rw [requests_append, hone, List.append_nil]
          exact .cons ⟨rfl, hreply⟩ hlogged.sent
        · exact List.cons_prefix_cons.mpr ⟨rfl, hlogged.containers⟩
        · rw [List.map_cons, List.zipWith_cons_cons, ← hlogged.logs_eq]
          exact congrArg (· :: others) (stepLog_eq query step.1 ⟨step.2, remaining, token, bytes⟩)
        · rw [hlogged.left_eq, Nat.sub_sub]
          rfl

/-- The lines of a log, each with its line end. -/
def logLines : Bytes → List Bytes
  | [] => []
  | b :: rest =>
      if b = 0x0A then [b] :: logLines rest
      else match logLines rest with
        | line :: lines => (b :: line) :: lines
        | [] => [[b]]

/-- The lines of a log are the log. -/
theorem logLines_flatten (log : Bytes) : (logLines log).flatten = log := by
  induction log with
  | nil => rfl
  | cons b rest ih =>
      unfold logLines
      split_ifs with hend
      · rw [List.flatten_cons, ih]
        rfl
      · split
        · next line lines hlines =>
            rw [hlines, List.flatten_cons] at ih
            rw [List.flatten_cons, List.cons_append, ih]
        · next hlines =>
            rw [hlines] at ih
            rw [← ih]
            rfl

/-- The last lines of a log. -/
def tailOf (lines : Nat) (log : Bytes) : Bytes :=
  ((logLines log).drop ((logLines log).length - lines)).flatten

/-- A log of few lines is its own tail. -/
theorem tailOf_of_le {lines : Nat} {log : Bytes} (h : (logLines log).length ≤ lines) :
    tailOf lines log = log := by
  rw [tailOf, Nat.sub_eq_zero_of_le h, List.drop_zero, logLines_flatten]

/-- A line end ends the first line; any other byte is a part of it. -/
theorem logLines_cons (b : UInt8) (rest : Bytes) : ∃ first,
    logLines (b :: rest) = first :: if b = 0x0A then logLines rest else (logLines rest).tail := by
  conv in logLines (b :: rest) => unfold logLines
  split_ifs with hend
  · exact ⟨[b], rfl⟩
  · cases logLines rest with
    | nil => exact ⟨[b], rfl⟩
    | cons line lines => exact ⟨b :: line, rfl⟩

/-- The lines of the last lines of a log are these lines. -/
theorem logLines_drop (log : Bytes) (k : Nat) :
    logLines ((logLines log).drop k).flatten = (logLines log).drop k := by
  induction log generalizing k with
  | nil =>
      rw [show logLines [] = [] from rfl, List.drop_nil]
      rfl
  | cons b rest ih =>
      obtain ⟨first, hlines⟩ := logLines_cons b rest
      cases k with
      | zero => rw [List.drop_zero, logLines_flatten]
      | succ k =>
          rw [hlines, List.drop_succ_cons]
          split_ifs with hend
          · exact ih k
          · rw [List.drop_tail]
            exact ih (k + 1)

/-- A log has as many lines as are counted in its bytes. -/
theorem logLines_length (log : Bytes) : (logLines log).length = Text.lines 10 false log := by
  induction log with
  | nil => rfl
  | cons b rest ih =>
      unfold logLines
      rw [Text.lines]
      split_ifs with hend
      · rw [List.length_cons, ih]
      · cases rest with
        | nil => rfl
        | cons c rest =>
            have hopened : Text.lines 10 true (c :: rest) = Text.lines 10 false (c :: rest) := rfl
            split
            · next line lines hlines =>
                rw [hopened, ← ih, hlines]
                rfl
            · next hlines =>
                have hflatten := logLines_flatten (c :: rest)
                rw [hlines] at hflatten
                cases hflatten

/-- What the kubelet has for a step: the complete log, and the token with which it is read. -/
structure LogSource where
  token : String
  log : Bytes

namespace LogSource

/-- The last lines of the log, as many as are asked for. -/
def tail (query : TaskLogsQuery) (source : LogSource) : Bytes :=
  tailOf query.tailLines.toNat source.log

/-- The redaction of the complete log. -/
def redacted (redactions : List String) (source : LogSource) : String :=
  redactLog redactions source.token source.log

/-- The redaction of the last lines. -/
def redactedTail (redactions : List String) (query : TaskLogsQuery) (source : LogSource) : String :=
  redactLog redactions source.token (source.tail query)

/-- The bytes that the log uses up of those that are left: of the redaction of its tail, which is
served up to that many bytes, as many whole characters as fit. -/
def uses (redactions : List String) (query : TaskLogsQuery) (left : Nat) (source : LogSource) :
    Nat :=
  (String.ofList (Text.fit left
    (redactLog redactions source.token ((source.tail query).take left)).toList)).utf8ByteSize

/-- The log leaves no trace of a cut: its tail and the redaction of that fit the bytes that are
left, with fewer lines than were asked for. -/
def LooksWhole (redactions : List String) (query : TaskLogsQuery) (left : Nat)
    (source : LogSource) : Prop :=
  (source.tail query).length < left ∧ (source.redactedTail redactions query).utf8ByteSize ≤ left ∧
    Text.lineCount (source.redactedTail redactions query) < query.tailLines.toNat

end LogSource

/-- What logs that are read one after the other leave of the budget. -/
def leftAfter (redactions : List String) (query : TaskLogsQuery) : Nat → List LogSource → Nat
  | left, [] => left
  | left, source :: sources =>
      leftAfter redactions query (left - source.uses redactions query left) sources

/-- Nothing is left of nothing. -/
theorem leftAfter_zero {redactions : List String} (sources : List LogSource) :
    leftAfter redactions query 0 sources = 0 := by
  induction sources with
  | nil => rfl
  | cons source sources ih =>
      rw [leftAfter, Nat.zero_sub]
      exact ih

/-- What is left after some logs, and then after others. -/
theorem leftAfter_append {redactions : List String} (left : Nat) (first rest : List LogSource) :
    leftAfter redactions query left (first ++ rest) =
      leftAfter redactions query (leftAfter redactions query left first) rest := by
  induction first generalizing left with
  | nil => rfl
  | cons source first ih =>
      rw [List.cons_append, leftAfter, leftAfter]
      exact ih _

/-- What is used up stays used up. -/
theorem leftAfter_take_ne_zero {redactions : List String} {left k : Nat} {sources : List LogSource}
    (h : leftAfter redactions query left sources ≠ 0) :
    leftAfter redactions query left (sources.take k) ≠ 0 := by
  intro hzero
  rw [← List.take_append_drop k sources, leftAfter_append, hzero, leftAfter_zero] at h
  exact h rfl

/-- One log after the other leaves no trace of a cut, and some bytes of the budget are left. -/
def LookWhole (redactions : List String) (query : TaskLogsQuery) : Nat → List LogSource → Prop
  | left, [] => left ≠ 0
  | left, source :: sources => source.LooksWhole redactions query left ∧
      LookWhole redactions query (left - source.uses redactions query left) sources

/-- Logs that look whole leave something. -/
theorem LookWhole.leftAfter_ne_zero {redactions : List String} {left : Nat}
    {sources : List LogSource} (h : LookWhole redactions query left sources) :
    leftAfter redactions query left sources ≠ 0 := by
  induction sources generalizing left with
  | nil => exact h
  | cons source sources ih => exact ih h.2

/-- The kubelet serves the bytes that were asked for, of the last lines of the complete log. -/
def Serves (query : TaskLogsQuery) (read : LogRead) (source : LogSource) : Prop :=
  read.token = source.token ∧ read.bytes = (source.tail query).take read.requested

/-- Each selected step has a complete log, and the kubelet has served those that were read. -/
structure Complete (query : TaskLogsQuery) (selected : List (String × String))
    (reads : List LogRead) (sources : List LogSource) : Prop where
  length_eq : sources.length = selected.length
  served : List.Forall₂ (Serves query) reads (sources.take reads.length)

/-- If all logs were read, all were served. -/
theorem Complete.served_all {selected : List (String × String)} {reads : List LogRead}
    {sources : List LogSource} (h : Complete query selected reads sources)
    (hall : reads.length = selected.length) : List.Forall₂ (Serves query) reads sources := by
  have hserved := h.served
  rwa [hall, ← h.length_eq, List.take_length] at hserved

/-- What the answer says of the selected steps is true: the texts fit the budget, the entries are
those of the first steps, `steps_omitted` says whether some step has none, and an answer that is
not truncated holds every log, redacted. -/
structure Accounted (query : TaskLogsQuery) (selected : List (String × String))
    (redacted : List String) (logs : List StepLog) (stepsOmitted truncated : Bool) : Prop where
  fits : (logs.map fun log => log.text.utf8ByteSize).sum ≤ query.maxBytes.toNat
  inOrder : logs.map StepLog.step <+: selected.map Prod.fst
  omitted : stepsOmitted = true ↔ logs.length < selected.length
  whole : truncated = false →
    logs.length = selected.length ∧ logs.map StepLog.text = redacted

/-- More than eight steps are selected, or the logs before the last one leave some bytes. -/
def BudgetLasts (redactions : List String) (query : TaskLogsQuery) (sources : List LogSource) :
    Prop :=
  maxLogSteps < sources.length ∨
    leftAfter redactions query query.maxBytes.toNat sources.dropLast ≠ 0

/-- No log leaves a trace of a cut, but one has more lines than were asked for. -/
def CutUnseen (redactions : List String) (query : TaskLogsQuery) (sources : List LogSource) :
    Prop :=
  sources.length ≤ maxLogSteps ∧ LookWhole redactions query query.maxBytes.toNat sources ∧
    ∃ source ∈ sources, query.tailLines.toNat < (logLines source.log).length

/-- The lines that `tail_lines` cuts are absorbed: redaction makes of the last lines what it makes
of the whole log, as when one value ends in them and another one is the part of it that they have. -/
def CutAbsorbed (redactions : List String) (query : TaskLogsQuery) (sources : List LogSource) :
    Prop :=
  ∀ source ∈ sources, source.redactedTail redactions query = source.redacted redactions

/-- The log that was read leaves no trace of a cut. -/
def LogRead.LooksWhole (redactions : List String) (query : TaskLogsQuery) (read : LogRead) : Prop :=
  read.bytes.length < read.requested ∧ read.Fits redactions ∧
    Text.lineCount (redactLog redactions read.token read.bytes) < query.tailLines.toNat

/-- The flags of an entry. -/
theorem entry_flags {redactions : List String} {step : String} {read : LogRead} :
    ((read.entry redactions query step).tailTruncated ||
        (read.entry redactions query step).byteTruncated) = false ↔
      read.LooksWhole redactions query := by
  have htext : read.Fits redactions →
      read.text redactions = redactLog redactions read.token read.bytes := by
    intro hfits
    rw [LogRead.text, stepText_eq, if_pos hfits]
  simp only [LogRead.entry, LogRead.LooksWhole, Bool.or_eq_false_iff, decide_eq_false_iff_not,
    ge_iff_le, not_le, Bool.not_eq_false', decide_eq_true_eq]
  constructor
  · intro h
    exact ⟨h.2.1, h.2.2, htext h.2.2 ▸ h.1⟩
  · intro h
    exact ⟨(htext h.2.1).symm ▸ h.2.2, h.1, h.2.1⟩

/-- The entries of logs, field by field. -/
theorem entries_eq {redactions : List String} {names : List String} {reads : List LogRead}
    (h : reads.length ≤ names.length) :
    (List.zipWith (LogRead.entry redactions query) names reads).map StepLog.step =
        names.take reads.length ∧
      (List.zipWith (LogRead.entry redactions query) names reads).map StepLog.text =
        reads.map (LogRead.text redactions) ∧
      ((List.zipWith (LogRead.entry redactions query) names reads).any (fun log =>
          log.tailTruncated || log.byteTruncated) = false ↔
        ∀ read ∈ reads, read.LooksWhole redactions query) := by
  induction reads generalizing names with
  | nil => simp
  | cons read reads ih =>
      cases names with
      | nil => exact absurd h (Nat.not_succ_le_zero _)
      | cons name names =>
          obtain ⟨hsteps, htexts, hflags⟩ := ih (Nat.le_of_succ_le_succ h)
          refine ⟨?_, ?_, ?_⟩
          · rw [List.zipWith_cons_cons, List.map_cons, hsteps]
            rfl
          · rw [List.zipWith_cons_cons, List.map_cons, htexts]
            rfl
          · rw [List.zipWith_cons_cons, List.any_cons, Bool.or_eq_false_iff, entry_flags, hflags,
              List.forall_mem_cons]

/-- A read uses as much as its log does. -/
theorem Serves.uses_eq {redactions : List String} {read : LogRead} {source : LogSource}
    (h : Serves query read source) :
    source.uses redactions query read.requested = (read.text redactions).utf8ByteSize := by
  rw [LogRead.text_eq, h.1, h.2]
  rfl

/-- A log that looks whole was served with its whole tail. -/
theorem Serves.bytes_eq {read : LogRead} {source : LogSource} (h : Serves query read source)
    (hshort : (source.tail query).length < read.requested) : read.bytes = source.tail query := by
  rw [h.2, List.take_of_length_le (Nat.le_of_lt hshort)]

/-- Whether a log looks whole can be told from its tail. -/
theorem Serves.looksWhole_iff {redactions : List String} {read : LogRead} {source : LogSource}
    (h : Serves query read source) :
    read.LooksWhole redactions query ↔ source.LooksWhole redactions query read.requested := by
  have hlength : read.bytes.length < read.requested ↔
      (source.tail query).length < read.requested := by
    rw [h.2, List.length_take]
    omega
  rw [LogRead.LooksWhole, LogSource.LooksWhole, hlength]
  refine and_congr_right fun hshort => ?_
  rw [LogRead.Fits, LogSource.redactedTail, h.bytes_eq hshort, h.1]

/-- A log that looks whole is shown whole. -/
theorem Serves.text_eq {redactions : List String} {read : LogRead} {source : LogSource}
    (h : Serves query read source) (hwhole : source.LooksWhole redactions query read.requested) :
    read.text redactions = source.redactedTail redactions query := by
  have hfits := (h.looksWhole_iff.mpr hwhole).2.1
  rw [LogRead.text, stepText_eq, if_pos hfits, LogSource.redactedTail, h.bytes_eq hwhole.1, h.1]

namespace Budgeted

variable {redactions : List String} {left : Nat} {reads : List LogRead}
    {sources : List LogSource}

/-- What is left of the budget can be told from the complete logs. -/
theorem leftAfter_eq (h : Budgeted redactions left reads)
    (hserved : List.Forall₂ (Serves query) reads sources) :
    leftAfter redactions query left sources = left - spent redactions reads := by
  induction hserved generalizing left with
  | nil => rfl
  | @cons read source reads sources hread hrest ih =>
      obtain ⟨rfl, -, hbudgeted⟩ := h
      rw [leftAfter, hread.uses_eq, ih hbudgeted, Nat.sub_sub]
      rfl

/-- Before each log, some bytes were left. -/
theorem leftAfter_take_ne_zero {k : Nat} (h : Budgeted redactions left reads)
    (hserved : List.Forall₂ (Serves query) reads sources) (hk : k < reads.length) :
    leftAfter redactions query left (sources.take k) ≠ 0 := by
  induction hserved generalizing left k with
  | nil => exact absurd hk (Nat.not_lt_zero k)
  | @cons read source reads sources hread hrest ih =>
      obtain ⟨rfl, hpos, hbudgeted⟩ := h
      cases k with
      | zero => exact hpos
      | succ k =>
          rw [List.take_succ_cons, leftAfter, hread.uses_eq]
          exact ih hbudgeted (Nat.lt_of_succ_lt_succ hk)

/-- Whether the logs look whole can be told from their tails. -/
theorem lookWhole_iff (h : Budgeted redactions left reads)
    (hserved : List.Forall₂ (Serves query) reads sources) :
    LookWhole redactions query left sources ↔
      spent redactions reads < left ∧ ∀ read ∈ reads, read.LooksWhole redactions query := by
  induction hserved generalizing left with
  | nil => simp [LookWhole, spent, Nat.pos_iff_ne_zero]
  | @cons read source reads sources hread hrest ih =>
      obtain ⟨rfl, -, hbudgeted⟩ := h
      have hsize := read.text_size redactions
      have hcons : spent redactions (read :: reads) =
          (read.text redactions).utf8ByteSize + spent redactions reads := rfl
      rw [LookWhole, hread.uses_eq, ih hbudgeted, ← hread.looksWhole_iff, List.forall_mem_cons,
        hcons]
      generalize spent redactions reads = used
      constructor
      · intro hwhole
        exact ⟨by omega, hwhole.1, hwhole.2.2⟩
      · intro hwhole
        exact ⟨hwhole.2.1, by omega, hwhole.2.2⟩

/-- Logs that look whole are returned as their tails are redacted. -/
theorem texts_eq (h : Budgeted redactions left reads)
    (hserved : List.Forall₂ (Serves query) reads sources)
    (hwhole : LookWhole redactions query left sources) :
    reads.map (LogRead.text redactions) =
      sources.map (LogSource.redactedTail redactions query) := by
  induction hserved generalizing left with
  | nil => rfl
  | @cons read source reads sources hread hrest ih =>
      obtain ⟨rfl, -, hbudgeted⟩ := h
      obtain ⟨hfirst, hothers⟩ := hwhole
      rw [hread.uses_eq] at hothers
      rw [List.map_cons, List.map_cons, hread.text_eq hfirst, ih hbudgeted hothers]

end Budgeted

namespace HasLogged

variable {pod : String} {selected : List (String × String)} {reads : List LogRead}
    {logs : List StepLog} {left : Nat}

/-- No more is read than there are steps. -/
theorem length_le {steps : List (String × String)} {remaining : Nat}
    (h : HasLogged client query pod steps remaining t reads logs left) :
    reads.length ≤ steps.length := by
  have hle := h.containers.length_le
  rwa [List.length_map, List.length_map] at hle

/-- Every read has its entry. -/
theorem length_eq {steps : List (String × String)} {remaining : Nat}
    (h : HasLogged client query pod steps remaining t reads logs left) :
    logs.length = reads.length := by
  rw [h.logs_eq, List.length_zipWith, List.length_map, Nat.min_eq_right h.length_le]

variable (h : HasLogged client query pod (selected.take maxLogSteps) query.maxBytes.toNat t reads
    logs left)

include h

/-- A log that was not read had no bytes left. -/
theorem read_all (hfew : selected.length ≤ maxLogSteps) (hleft : left ≠ 0) :
    reads.length = selected.length := by
  have hle := h.length_le
  have hstopped := h.stopped
  rw [List.take_of_length_le hfew] at hle hstopped
  by_contra hne
  exact hleft (hstopped (by omega))

/-- The entries show what was read. -/
theorem texts_eq : logs.map StepLog.text = reads.map (LogRead.text client.redactions) := by
  have hnames : reads.length ≤ ((selected.take maxLogSteps).map Prod.fst).length := by
    rw [List.length_map]
    exact h.length_le
  rw [h.logs_eq, (entries_eq hnames).2.1]

/-- Together they are within the bound. -/
theorem fits : (logs.map fun log => log.text.utf8ByteSize).sum ≤ query.maxBytes.toNat := by
  have hsizes : logs.map (fun log => log.text.utf8ByteSize) =
      reads.map fun read => (read.text client.redactions).utf8ByteSize := by
    have htexts := congrArg (List.map String.utf8ByteSize) h.texts_eq
    rw [List.map_map, List.map_map] at htexts
    exact htexts
  rw [hsizes]
  exact h.budgeted.spent_le

/-- They stand in the order of the steps. -/
theorem inOrder : logs.map StepLog.step <+: selected.map Prod.fst := by
  have hnames : reads.length ≤ ((selected.take maxLogSteps).map Prod.fst).length := by
    rw [List.length_map]
    exact h.length_le
  rw [h.logs_eq, (entries_eq hnames).1, List.map_take]
  exact (List.take_prefix _ _).trans (List.take_prefix _ _)

variable {sources : List LogSource} (hcomplete : Complete query selected reads sources)

include hcomplete

/-- What is left is what the logs leave. -/
theorem left_eq_leftAfter : left = leftAfter client.redactions query query.maxBytes.toNat
    (sources.take reads.length) := by
  rw [h.left_eq, h.budgeted.leftAfter_eq hcomplete.served]

/-- `steps_omitted` is right exactly when the budget lasts. -/
theorem omitted_iff (hne : selected ≠ []) :
    (decide (selected.length > maxLogSteps) = true ↔ logs.length < selected.length) ↔
      BudgetLasts client.redactions query sources := by
  have hlength := h.length_eq
  have hle := h.length_le
  have hpos : 0 < selected.length := List.length_pos_of_ne_nil hne
  rw [List.length_take] at hle
  rw [decide_eq_true_iff, BudgetLasts, List.dropLast_eq_take, hcomplete.length_eq]
  by_cases hmany : maxLogSteps < selected.length
  · exact iff_of_true (iff_of_true hmany (by omega)) (.inl hmany)
  · by_cases hall : reads.length = selected.length
    · have hlasts := h.budgeted.leftAfter_take_ne_zero (hcomplete.served_all hall)
        (show selected.length - 1 < reads.length by omega)
      exact iff_of_true (iff_of_false hmany (by omega)) (.inr hlasts)
    · have hzero : left = 0 := by
        by_contra hleft
        exact hall (h.read_all (by omega) hleft)
      have hsplit : selected.length - 1 = reads.length + (selected.length - 1 - reads.length) := by
        omega
      rw [h.left_eq_leftAfter hcomplete] at hzero
      rw [hsplit, List.take_add, leftAfter_append, hzero, leftAfter_zero]
      refine iff_of_false (fun hiff => hmany (hiff.mpr (by omega))) ?_
      exact fun hlasts => hlasts.elim hmany fun hne => hne rfl

/-- An answer is not truncated when few steps are selected and their logs look whole. -/
theorem truncated_iff :
    (decide (selected.length > maxLogSteps) || left == 0 ||
        logs.any fun log => log.tailTruncated || log.byteTruncated) = false ↔
      selected.length ≤ maxLogSteps ∧
        LookWhole client.redactions query query.maxBytes.toNat sources := by
  have hnames : reads.length ≤ ((selected.take maxLogSteps).map Prod.fst).length := by
    rw [List.length_map]
    exact h.length_le
  rw [Bool.or_eq_false_iff, Bool.or_eq_false_iff, h.logs_eq, (entries_eq hnames).2.2,
    decide_eq_false_iff_not, beq_eq_false_iff_ne, gt_iff_lt, Nat.not_lt, and_assoc]
  refine and_congr_right fun hfew => ?_
  have hleft := h.left_eq
  constructor
  · rintro ⟨hne, hwhole⟩
    have hserved := hcomplete.served_all (h.read_all hfew hne)
    exact (h.budgeted.lookWhole_iff hserved).mpr ⟨by omega, hwhole⟩
  · intro hwhole
    have hne : left ≠ 0 := by
      rw [h.left_eq_leftAfter hcomplete]
      exact leftAfter_take_ne_zero hwhole.leftAfter_ne_zero
    have hserved := hcomplete.served_all (h.read_all hfew hne)
    exact ⟨hne, ((h.budgeted.lookWhole_iff hserved).mp hwhole).2⟩

end HasLogged

/-- The tail of a log with few lines is the whole log. -/
theorem LogSource.tail_eq {source : LogSource}
    (h : (logLines source.log).length ≤ query.tailLines.toNat) : source.tail query = source.log :=
  tailOf_of_le h

/-- The redacted tails of logs that are not cut are the redacted logs. -/
theorem cutAbsorbed_of_lines {redactions : List String} {sources : List LogSource}
    (h : ¬ ∃ source ∈ sources, query.tailLines.toNat < (logLines source.log).length) :
    CutAbsorbed redactions query sources := by
  intro source hsource
  rw [LogSource.redactedTail, LogSource.tail_eq]
  · rfl
  · by_contra hlines
    exact h ⟨source, hsource, Nat.lt_of_not_le hlines⟩

/-- Values of one line join no lines, so that they leave the trace of every cut. -/
theorem LogSource.lineCount_redactedTail {redactions : List String} {source : LogSource}
    (hone : ∀ value ∈ redactions ++ [source.token], value ≠ "" ∧ '\n' ∉ value.toList)
    (hlines : query.tailLines.toNat < (logLines source.log).length) :
    Text.lineCount (source.redactedTail redactions query) = query.tailLines.toNat := by
  obtain ⟨n, out, hout, htext⟩ := Redaction.exists_redacts "[REDACTED]"
    (redactions ++ [source.token]) (Redaction.original (Text.decodeLossy (source.tail query)))
  have hsame := hout.lines (by decide) (by decide) (fun value hvalue => (hone value hvalue).1)
    fun value hvalue => (hone value hvalue).2
  have htail : (logLines (source.tail query)).length = query.tailLines.toNat := by
    rw [LogSource.tail, tailOf, logLines_drop, List.length_drop]
    omega
  rw [Redaction.text_original, String.ofList_toList, ← redactLog_eq] at htext
  rw [LogSource.redactedTail, ← htext, Text.lineCount_eq_lines, String.toList_ofList, hsame,
    Redaction.text_original, Text.lines_decodeLossy, ← logLines_length, htail]

/-- Logs that look whole have fewer lines than were asked for. -/
theorem LookWhole.lines_lt {redactions : List String} {left : Nat} {sources : List LogSource}
    (h : LookWhole redactions query left sources) : ∀ source ∈ sources,
      Text.lineCount (source.redactedTail redactions query) < query.tailLines.toNat := by
  induction sources generalizing left with
  | nil => exact fun source hsource => absurd hsource List.not_mem_nil
  | cons first sources ih => exact List.forall_mem_cons.mpr ⟨h.1.2.2, ih h.2⟩

/-- **Values of one line.**  No log is cut unseen if no value has a line end in it. -/
theorem not_cutUnseen_of_one_line {redactions : List String} {sources : List LogSource}
    (hone : ∀ source ∈ sources, ∀ value ∈ redactions ++ [source.token],
      value ≠ "" ∧ '\n' ∉ value.toList) : ¬ CutUnseen redactions query sources := by
  rintro ⟨-, hwhole, source, hsource, hlines⟩
  have hfew := hwhole.lines_lt source hsource
  rw [LogSource.lineCount_redactedTail (hone source hsource) hlines] at hfew
  exact Nat.lt_irrefl _ hfew

/-- The answer accounts for what it leaves out exactly when the budget lasts and no log is cut
unseen, or what is cut is absorbed. -/
theorem HasLogged.accounted_iff {pod : String} {selected : List (String × String)}
    {reads : List LogRead} {logs : List StepLog} {left : Nat} {sources : List LogSource}
    (h : HasLogged client query pod (selected.take maxLogSteps) query.maxBytes.toNat t reads logs
      left) (hne : selected ≠ []) (hcomplete : Complete query selected reads sources) :
    Accounted query selected (sources.map (LogSource.redacted client.redactions)) logs
        (decide (selected.length > maxLogSteps))
        (decide (selected.length > maxLogSteps) || left == 0 ||
          logs.any fun log => log.tailTruncated || log.byteTruncated) ↔
      BudgetLasts client.redactions query sources ∧
        (CutUnseen client.redactions query sources →
          CutAbsorbed client.redactions query sources) := by
  have htexts : selected.length ≤ maxLogSteps →
      LookWhole client.redactions query query.maxBytes.toNat sources →
        logs.length = selected.length ∧
          logs.map StepLog.text =
            sources.map (LogSource.redactedTail client.redactions query) := by
    intro hfew hwhole
    have hleft : left ≠ 0 := by
      rw [h.left_eq_leftAfter hcomplete]
      exact leftAfter_take_ne_zero hwhole.leftAfter_ne_zero
    have hall := h.read_all hfew hleft
    refine ⟨h.length_eq.trans hall, ?_⟩
    rw [h.texts_eq, h.budgeted.texts_eq (hcomplete.served_all hall) hwhole]
  constructor
  · intro haccounted
    refine ⟨(h.omitted_iff hcomplete hne).mp haccounted.omitted, ?_⟩
    rintro ⟨hfew, hwhole, -⟩
    rw [hcomplete.length_eq] at hfew
    have hredacted := (haccounted.whole ((h.truncated_iff hcomplete).mpr ⟨hfew, hwhole⟩)).2
    rw [(htexts hfew hwhole).2] at hredacted
    exact List.map_inj_left.mp hredacted
  · rintro ⟨hlasts, habsorbed⟩
    refine ⟨h.fits, h.inOrder, (h.omitted_iff hcomplete hne).mpr hlasts, fun hnot => ?_⟩
    obtain ⟨hfew, hwhole⟩ := (h.truncated_iff hcomplete).mp hnot
    obtain ⟨hlength, heq⟩ := htexts hfew hwhole
    refine ⟨hlength, heq.trans (List.map_inj_left.mpr ?_)⟩
    by_cases hcut : ∃ source ∈ sources, query.tailLines.toNat < (logLines source.log).length
    · exact habsorbed ⟨hcomplete.length_eq ▸ hfew, hwhole, hcut⟩
    · exact cutAbsorbed_of_lines hcut

/-- What a call of `logs` has verified and read, and what it answers. -/
structure LogCall (crates : Crates) (client : TektonClient) (query : TaskLogsQuery) (t : Trace Ans)
    (result : Value) (selected : List (String × String)) (reads : List LogRead)
    (logs : List StepLog) (stepsOmitted truncated : Bool) : Prop where
  run : ∃ task pod before after available left, t = before ++ after ∧
    Reaches (client.verifiedTask crates query).run before (.done (.ok (task, pod))) ∧
    ((task.field "status").field "steps").asArray = some available ∧
    selected = selectedSteps query.step available ∧ selected ≠ [] ∧
    HasLogged client query pod (selected.take maxLogSteps) query.maxBytes.toNat after reads logs
      left ∧
    stepsOmitted = decide (selected.length > maxLogSteps) ∧
    truncated = (decide (selected.length > maxLogSteps) || left == 0 ||
      logs.any fun log => log.tailTruncated || log.byteTruncated)
  result_eq : result.field "result" = .array (logs.map StepLog.json)
  omitted_eq : result.field "steps_omitted" = .bool stepsOmitted
  truncated_eq : result.field "truncated" = .bool truncated

/-- The two parts of a call, put together. -/
theorem podLogs_call {task result : Value} {pod : String} {before after : Trace Ans}
    {available : List Value}
    (hverified : Reaches (client.verifiedTask crates query).run before (.done (.ok (task, pod))))
    (hread : Reaches (client.podLogs query task pod).run after (.done (.ok result)))
    (havailable : ((task.field "status").field "steps").asArray = some available) :
    ∃ reads logs stepsOmitted truncated, LogCall crates client query (before ++ after) result
      (selectedSteps query.step available) reads logs stepsOmitted truncated := by
  unfold TektonClient.podLogs at hread
  obtain ⟨available', havailable', h₁⟩ := hread.run_okOr_ok
  obtain rfl := Option.some.inj (havailable.symm.trans havailable')
  obtain ⟨hsome, h₂⟩ := h₁.run_ensure_ok
  obtain ⟨⟨logs, left⟩, reading, last, hlogs, h₃, rfl⟩ := h₂.run_bind_ok
  cases h₃
  obtain ⟨reads, hlogged⟩ := stepLogs_logged hlogs
  have hne : selectedSteps query.step available ≠ [] := by
    intro hnil
    simp [hnil] at hsome
  refine ⟨reads, logs, _, _, ⟨⟨task, pod, before, reading ++ [], available, left, rfl, hverified,
    havailable, rfl, hne, ?_, rfl, rfl⟩, rfl, rfl, rfl⟩⟩
  rwa [List.append_nil]

/-- A call for logs is the loop over the selected steps. -/
theorem logs_call {result : Value}
    (h : Reaches (client.logs crates query).run t (.done (.ok result))) :
    ∃ selected reads logs stepsOmitted truncated,
      LogCall crates client query t result selected reads logs stepsOmitted truncated := by
  unfold TektonClient.logs at h
  obtain ⟨⟨task, pod⟩, before, after, hverified, hread, rfl⟩ := h.run_bind_ok
  have hread : Reaches (client.podLogs query task pod).run after (.done (.ok result)) := hread
  have hsteps := hread
  unfold TektonClient.podLogs at hsteps
  obtain ⟨available, havailable, -⟩ := hsteps.run_okOr_ok
  exact ⟨_, podLogs_call hverified hread havailable⟩

/-- **The account of logs.**  Whatever the complete logs are that the kubelet serves, the answer of
`logs` accounts for what it leaves out exactly when the budget lasts and no log is cut unseen, or
redaction absorbs what is cut. -/
theorem logs_accounted_iff (crates : Crates) (client : TektonClient) (query : TaskLogsQuery)
    {t : Trace Ans} {result : Value}
    (h : Reaches (client.logs crates query).run t (.done (.ok result))) :
    ∃ selected reads logs stepsOmitted truncated,
      LogCall crates client query t result selected reads logs stepsOmitted truncated ∧
      ∀ sources, Complete query selected reads sources →
        (Accounted query selected (sources.map (LogSource.redacted client.redactions)) logs
            stepsOmitted truncated ↔
          BudgetLasts client.redactions query sources ∧
            (CutUnseen client.redactions query sources →
              CutAbsorbed client.redactions query sources)) := by
  obtain ⟨selected, reads, logs, stepsOmitted, truncated, hcall⟩ := logs_call h
  refine ⟨selected, reads, logs, stepsOmitted, truncated, hcall, fun sources hcomplete => ?_⟩
  obtain ⟨task, pod, before, after, available, left, -, -, -, -, hne, hlogged, rfl, rfl⟩ := hcall.run
  exact hlogged.accounted_iff hne hcomplete

/-- The task of the samples with a second step. -/
def sampleTwoSteps : Bytes := [
  "\x7b\"metadata\":\x7b\"labels\":\x7b", "\"pipelinesascode.tekton.dev/", "repository\":\"demo\",",
  "\"tekton.dev/pipelineRun\":\"run\"\x7d,", "\"name\":\"task\",", "\"ownerReferences\":[\x7b\"kind\":",
  "\"PipelineRun\",\"name\":\"run\",", "\"uid\":\"1\"\x7d],\"uid\":\"2\"\x7d,",
  "\"status\":\x7b\"podName\":\"pod-a\",", "\"steps\":[\x7b\"container\":", "\"step-a\",\"name\":\"a\"\x7d,",
  "\x7b\"container\":\"step-b\",", "\"name\":\"b\"\x7d]\x7d\x7d"].flatMap Text.ascii

/-- A task with two steps. -/
def sampleTwoStepsValue : Value := .object [
  ("metadata", .object [
    ("labels", .object [("pipelinesascode.tekton.dev/repository", .string "demo"),
      ("tekton.dev/pipelineRun", .string "run")]),
    ("name", .string "task"),
    ("ownerReferences", .array [.object [("kind", .string "PipelineRun"),
      ("name", .string "run"), ("uid", .string "1")]]),
    ("uid", .string "2")]),
  ("status", .object [("podName", .string "pod-a"), ("steps", .array [
    .object [("container", .string "step-a"), ("name", .string "a")],
    .object [("container", .string "step-b"), ("name", .string "b")]])])]

/-- Parsers that know the texts of the sample. -/
def twoCrates : Crates where
  parseJson bytes :=
    if bytes = sampleTwoSteps then some sampleTwoStepsValue
    else (logCrates "pod-a").parseJson bytes
  parseUrl := (logCrates "pod-a").parseUrl

/-- A server whose logs are one character long. -/
def respondTwo : (op : Op) → Ans op
  | .send kind request =>
      if request.url.segments.getLast? = some "log".toList then .response 200 (.whole [0x78])
      else if request.url.segments.contains "taskruns".toList then
        .response 200 (.whole sampleTwoSteps)
      else respond "pod-a" (.send kind request)
  | op => respond "pod-a" op

/-- Both logs, in one byte. -/
def twoQuery : TaskLogsQuery where
  runId := "pipelines-as-code/run"
  taskId := "pipelines-as-code/task"
  step := none
  tailLines := 100
  maxBytes := 1

/-- What `logs` answers with that server. -/
def twoLogs : Trace Ans × Program Op Ans (Except Error Value) :=
  (sampleClient.logs twoCrates twoQuery).run.answered respondTwo 24

/-- What it verifies first. -/
def twoVerified : Trace Ans × Program Op Ans (Except Error (Value × String)) :=
  (sampleClient.verifiedTask twoCrates twoQuery).run.answered respondTwo 24

/-- The steps of a task that was verified. -/
def verifiedSteps : Program Op Ans (Except Error (Value × String)) → Option (List (String × String))
  | .done (.ok (task, _)) =>
      ((task.field "status").field "steps").asArray.map (selectedSteps none)
  | _ => none

/-- The number of entries of an answer, and `steps_omitted`. -/
def answerOf : Program Op Ans (Except Error Value) → Option Nat × Option Bool
  | .done (.ok result) =>
      ((result.field "result").asArray.map List.length, (result.field "steps_omitted").asBool)
  | _ => (none, none)

/-- One step is left out, unsaid. -/
theorem twoLogs_answer : answerOf twoLogs.2 = (some 1, some false) := by decide +kernel

/-- The call on two logs. -/
theorem twoLogs_run : ∃ result, Reaches (sampleClient.logs twoCrates twoQuery).run twoLogs.1
    (.done (.ok result)) ∧ twoLogs.2 = .done (.ok result) := by
  have hanswer := twoLogs_answer
  have hrun := Program.answered_reaches respondTwo 24 (sampleClient.logs twoCrates twoQuery).run
  unfold answerOf at hanswer
  split at hanswer
  · next result hdone =>
      refine ⟨result, ?_, hdone⟩
      rw [← hdone]
      exact hrun
  · simp at hanswer

/-- A log has no more lines than bytes. -/
theorem logLines_length_le (log : Bytes) : (logLines log).length ≤ log.length := by
  induction log with
  | nil => exact Nat.le_refl 0
  | cons b rest ih =>
      unfold logLines
      split_ifs with hend
      · exact Nat.succ_le_succ ih
      · split
        · next line lines hlines =>
            rw [hlines] at ih
            exact Nat.le_succ_of_le ih
        · exact Nat.succ_le_succ (Nat.zero_le _)

/-- A log of few bytes may be whole. -/
theorem Sent.serves_self {pod : String} {sent : Request × Exchange} {read : LogRead}
    (h : Sent client query pod sent read) (hfew : read.requested ≤ query.tailLines.toNat) :
    Serves query read ⟨read.token, read.bytes⟩ := by
  obtain ⟨-, -, -, -, hlength⟩ := reply_eq_ok h.2
  have hlines := logLines_length_le read.bytes
  refine ⟨rfl, ?_⟩
  rw [LogSource.tail_eq (by simp only; omega), List.take_of_length_le hlength]

/-- What was read serves as the logs, where that is all. -/
theorem serves_selves {pod : String} {sent : List (Request × Exchange)} {reads : List LogRead}
    (h : List.Forall₂ (Sent client query pod) sent reads)
    (hfew : ∀ read ∈ reads, read.requested ≤ query.tailLines.toNat) :
    List.Forall₂ (Serves query) reads (reads.map fun read => ⟨read.token, read.bytes⟩) := by
  induction h with
  | nil => exact .nil
  | cons hsent _ ih =>
      obtain ⟨hfirst, hothers⟩ := List.forall_mem_cons.mp hfew
      exact .cons (hsent.serves_self hfirst) (ih hothers)

/-- No read asks for more than the budget. -/
theorem Budgeted.requested_le {redactions : List String} {left : Nat} {reads : List LogRead}
    (h : Budgeted redactions left reads) : ∀ read ∈ reads, read.requested ≤ left := by
  induction reads generalizing left with
  | nil => exact fun read hread => absurd hread List.not_mem_nil
  | cons first reads ih =>
      obtain ⟨hrequested, -, hrest⟩ := h
      intro read hread
      rcases List.mem_cons.mp hread with rfl | hread
      · exact Nat.le_of_eq hrequested
      · exact (ih hrest read hread).trans (Nat.sub_le _ _)

/-- The complete logs of the two steps: what came of the first, and one character. -/
def twoSources (reads : List LogRead) : List LogSource :=
  reads.map (fun read => ⟨read.token, read.bytes⟩) ++ [⟨"token", [0x78]⟩]

/-- Every call with that server reads the first log only. -/
theorem twoLogs_call {result : Value} {selected : List (String × String)} {reads : List LogRead}
    {logs : List StepLog} {stepsOmitted truncated : Bool}
    (hresult : twoLogs.2 = .done (.ok result))
    (h : LogCall twoCrates sampleClient twoQuery twoLogs.1 result selected reads logs stepsOmitted
      truncated) :
    selected = [("a", "step-a"), ("b", "step-b")] ∧ logs.length = 1 ∧ stepsOmitted = false ∧
      Complete twoQuery selected reads (twoSources reads) := by
  obtain ⟨task, pod, before, after, available, left, ht, hverified, havailable, hselected, -,
    hlogged, -, -⟩ := h.run
  -- The environment leaves one run, so that what was verified is what it answered.
  have hselectedTwo : selected = [("a", "step-a"), ("b", "step-b")] := by
    have hfirst : twoVerified = (before, .done (.ok (task, pod))) :=
      Program.answered_first respondTwo ht hverified
    have hsteps : verifiedSteps twoVerified.2 = some [("a", "step-a"), ("b", "step-b")] := by
      decide +kernel
    rw [hfirst, verifiedSteps, havailable, Option.map_some] at hsteps
    rw [hselected]
    exact Option.some.inj hsteps
  have hanswer := twoLogs_answer
  rw [hresult, answerOf, h.result_eq, h.omitted_eq] at hanswer
  obtain ⟨hlength, hfalse⟩ := Prod.mk.inj hanswer
  have hone : logs.length = 1 := by simpa [Value.asArray] using hlength
  have hreads : reads.length = 1 := hlogged.length_eq.symm.trans hone
  have hserved := serves_selves hlogged.sent fun read hread =>
    (hlogged.budgeted.requested_le read hread).trans (show 1 ≤ 100 by decide)
  refine ⟨hselectedTwo, hone, by simpa [Value.asBool] using hfalse, ?_, ?_⟩
  · rw [twoSources, List.length_append, List.length_map, hreads, hselectedTwo]
    rfl
  · rw [twoSources, List.take_left' (List.length_map _)]
    exact hserved

/-- What a call with one byte reads is accounted for by the conditions. -/
theorem logs_accounted_iff_byte : ∃ (result : Value) (selected : List (String × String))
    (reads : List LogRead) (logs : List StepLog) (stepsOmitted truncated : Bool),
    LogCall twoCrates sampleClient twoQuery twoLogs.1 result selected reads logs stepsOmitted
        truncated ∧
      Complete twoQuery selected reads (twoSources reads) ∧
      (Accounted twoQuery selected ((twoSources reads).map (LogSource.redacted [])) logs
          stepsOmitted truncated ↔
        BudgetLasts [] twoQuery (twoSources reads) ∧
          (CutUnseen [] twoQuery (twoSources reads) →
            CutAbsorbed [] twoQuery (twoSources reads))) := by
  obtain ⟨result, hrun, hresult⟩ := twoLogs_run
  obtain ⟨selected, reads, logs, stepsOmitted, truncated, hcall, hiff⟩ :=
    logs_accounted_iff twoCrates sampleClient twoQuery hrun
  obtain ⟨-, -, -, hcomplete⟩ := twoLogs_call hresult hcall
  exact ⟨result, selected, reads, logs, stepsOmitted, truncated, hcall, hcomplete,
    hiff _ hcomplete⟩

/-- With a budget of one byte, the second step is left out and `steps_omitted` is false. -/
theorem logs_omitted_unseen : ¬ ∀ (query : TaskLogsQuery) (t : Trace Ans) (result : Value)
    (selected : List (String × String)) (reads : List LogRead) (logs : List StepLog)
    (stepsOmitted truncated : Bool) (sources : List LogSource),
    Reaches (sampleClient.logs twoCrates query).run t (.done (.ok result)) →
      LogCall twoCrates sampleClient query t result selected reads logs stepsOmitted truncated →
        Complete query selected reads sources →
          Accounted query selected (sources.map (LogSource.redacted [])) logs stepsOmitted
            truncated := by
  intro h
  obtain ⟨result, hrun, hresult⟩ := twoLogs_run
  obtain ⟨selected, reads, logs, stepsOmitted, truncated, hcall⟩ := logs_call hrun
  obtain ⟨hselected, hone, hunset, hcomplete⟩ := twoLogs_call hresult hcall
  have haccounted := h twoQuery _ result selected reads logs stepsOmitted truncated _ hrun hcall
    hcomplete
  have homitted := haccounted.omitted
  rw [hone, hselected, hunset] at homitted
  exact absurd (homitted.mpr (by decide)) (by decide)

end Tekton
