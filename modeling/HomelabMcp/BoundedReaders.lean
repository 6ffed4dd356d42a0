import HomelabMcp.CephClient
import HomelabMcp.ChildProcess
import HomelabMcp.TektonClient

/-!
# Readers with a limit

The loops that collect a stream chunk by chunk and stop at a chunk that does not fit.  The readers
of processes subtract what they have stored from the limit with saturation, those of responses
without: there a stored length over the limit would be an underflow.

* `bounded_readers_exact`: every reader returns a stream that fits, and no more; it never stores
  more than its limit, and no subtraction underflows.
* `drain_outcome`, `readLimited_outcome`, `httpBytes_outcome`: the clients' own reading is what
  the loops return.
-/

namespace BoundedReader

open Text (Bytes)

/-- The room that is left under a limit; none is an underflow. -/
abbrev Room := Nat → Nat → Option Nat

/-- `limit.saturating_sub(bytes.len())`. -/
def saturatingSub : Room := fun limit stored => some (limit - stored)

/-- The subtraction of machine integers. -/
def uncheckedSub : Room := fun limit stored => if stored ≤ limit then some (limit - stored) else none

/-- What a reader returns, unless a subtraction underflows, and what it has stored then. -/
structure Reading (ε : Type) where
  outcome : Option (Except ε Bytes)
  stored : Bytes

variable {ε : Type}

/-- Store the chunks until one does not fit; a broken stream fails after them. -/
def collect (room : Room) (limit : Nat) (tooLong failed : ε) (broken : Bool) (stored : Bytes) :
    List Bytes → Reading ε
  | [] => ⟨some (if broken then .error failed else .ok stored), stored⟩
  | chunk :: chunks =>
      match room limit stored.length with
      | none => ⟨none, stored⟩
      | some left =>
          if chunk.length > left then ⟨some (.error tooLong), stored⟩
          else collect room limit tooLong failed broken (stored ++ chunk) chunks

/-- A subtraction that is right where it does not underflow. -/
def Subtracts (room : Room) : Prop :=
  ∀ limit stored, stored ≤ limit → room limit stored = some (limit - stored)

/-- The saturating difference is the room that is left. -/
theorem subtracts_saturatingSub : Subtracts saturatingSub := fun _ _ _ => rfl

/-- So is the difference wherever no more is held than the limit. -/
theorem subtracts_uncheckedSub : Subtracts uncheckedSub := fun _ _ h => if_pos h

section Loop

variable {room : Room} {limit : Nat} {tooLong failed : ε} {broken : Bool} {stored : Bytes}

/-- A chunk that fits is stored. -/
theorem collect_fits (hroom : Subtracts room) (hstored : stored.length ≤ limit) {chunk : Bytes}
    (hfits : (stored ++ chunk).length ≤ limit) (chunks : List Bytes) :
    collect room limit tooLong failed broken stored (chunk :: chunks) =
      collect room limit tooLong failed broken (stored ++ chunk) chunks := by
  rw [List.length_append] at hfits
  rw [collect, hroom limit _ hstored]
  dsimp only
  rw [if_neg (by omega)]

/-- At a chunk that does not fit the loop stops. -/
theorem collect_stops (hroom : Subtracts room) (hstored : stored.length ≤ limit) {chunk : Bytes}
    (hlong : limit < (stored ++ chunk).length) (chunks : List Bytes) :
    collect room limit tooLong failed broken stored (chunk :: chunks) =
      ⟨some (.error tooLong), stored⟩ := by
  rw [List.length_append] at hlong
  rw [collect, hroom limit _ hstored]
  dsimp only
  rw [if_pos (by omega)]

/-- **The invariant of the loop**: what is stored is within the limit. -/
theorem collect_spec (hroom : Subtracts room) (hstored : stored.length ≤ limit)
    (chunks : List Bytes) :
    (collect room limit tooLong failed broken stored chunks).stored.length ≤ limit ∧
    (stored.length + chunks.flatten.length ≤ limit →
      (collect room limit tooLong failed broken stored chunks).outcome =
        some (if broken then .error failed else .ok (stored ++ chunks.flatten))) ∧
    (limit < stored.length + chunks.flatten.length →
      (collect room limit tooLong failed broken stored chunks).outcome =
        some (.error tooLong)) := by
  induction chunks generalizing stored with
  | nil =>
      refine ⟨hstored, fun _ => ?_, fun hlong => ?_⟩
      · rw [List.flatten_nil, List.append_nil]
        rfl
      · rw [List.flatten_nil, List.length_nil] at hlong
        omega
  | cons chunk chunks ih =>
      by_cases hfits : (stored ++ chunk).length ≤ limit
      · obtain ⟨hbounded, hall, hsome⟩ := ih hfits
        have hlength : stored.length + (chunk :: chunks).flatten.length =
            (stored ++ chunk).length + chunks.flatten.length := by
          rw [List.flatten_cons, List.length_append, List.length_append, Nat.add_assoc]
        rw [collect_fits hroom hstored hfits, hlength, List.flatten_cons, ← List.append_assoc]
        exact ⟨hbounded, hall, hsome⟩
      · have hlong : limit < (stored ++ chunk).length := Nat.lt_of_not_le hfits
        rw [collect_stops hroom hstored hlong]
        refine ⟨hstored, fun hall => ?_, fun _ => rfl⟩
        rw [List.length_append] at hlong
        rw [List.flatten_cons, List.length_append] at hall
        omega

end Loop

/-- A reader under a limit: if the stream fits, it ends as the whole stream does, and else with the
error for what is too long. -/
structure Exact (limit : Nat) (fits : Prop) (tooLong : ε) (whole : Except ε Bytes)
    (reading : Reading ε) : Prop where
  returns : fits → reading.outcome = some whole
  refuses : ¬ fits → reading.outcome = some (.error tooLong)
  bounded : reading.stored.length ≤ limit

/-- How a stream ends once all of its chunks were read. -/
def whole (failed : ε) (broken : Bool) (chunks : List Bytes) : Except ε Bytes :=
  if broken then .error failed else .ok chunks.flatten

/-- The loop keeps all that was sent where that fits, and says that it was too long where not. -/
theorem collect_exact {room : Room} (hroom : Subtracts room) (limit : Nat) (tooLong failed : ε)
    (broken : Bool) (chunks : List Bytes) :
    Exact limit (chunks.flatten.length ≤ limit) tooLong (whole failed broken chunks)
      (collect room limit tooLong failed broken [] chunks) := by
  obtain ⟨hbounded, hall, hsome⟩ :=
    @collect_spec ε room limit tooLong failed broken [] hroom (Nat.zero_le limit) chunks
  rw [List.length_nil, Nat.zero_add] at hall hsome
  exact ⟨hall, fun hlong => hsome (Nat.lt_of_not_le hlong), hbounded⟩

section Processes

open ChildProcess (Stream)

/-- The reads of a stream; a read of no bytes is its end. -/
def chunks : Stream → List Bytes
  | .ended => []
  | .failed => []
  | .chunk b bs next => (b :: bs) :: chunks next

/-- Whether the stream ends in a failure of the read. -/
def isBroken : Stream → Bool
  | .ended => false
  | .failed => true
  | .chunk _ _ next => isBroken next

/-- `drain` of the deploys. -/
def deploysDrain (stream : Stream) (limit : Nat) : Reading Unit :=
  collect saturatingSub limit () () (isBroken stream) [] (chunks stream)

/-- What `drain_sensitive` makes of a stream. -/
def drainSensitive (stream : Stream) (limit : Nat) : Reading Unit :=
  collect saturatingSub limit () () (isBroken stream) [] (chunks stream)

/-- `drain` of kubectl. -/
def kubernetesDrain (stream : Stream) (limit : Nat) : Reading Unit :=
  collect saturatingSub limit () () (isBroken stream) [] (chunks stream)

/-- **The readers of a child process** are this loop. -/
theorem drain_outcome (stream : Stream) (limit : Nat) :
    (deploysDrain stream limit).outcome = some (ChildProcess.drain stream limit) := by
  have hloop : ∀ stored : Bytes, (collect saturatingSub limit () () (isBroken stream) stored
      (chunks stream)).outcome = some (ChildProcess.drainInto limit stored stream) := by
    induction stream with
    | ended => exact fun stored => rfl
    | failed => exact fun stored => rfl
    | chunk b bs next ih =>
        intro stored
        simp only [chunks, collect, saturatingSub, ChildProcess.drainInto, isBroken]
        by_cases hlong : (b :: bs).length > limit - stored.length
        · rw [if_pos hlong, if_pos hlong]
        · rw [if_neg hlong, if_neg hlong]
          exact ih _
  exact hloop []

end Processes

/-- A declared length over the limit is refused at once. -/
def declaredFits (limit : Nat) (body : Http.Body) : Prop :=
  ∀ length, body.declared = some length → length ≤ limit

/-- Read a body of a response. -/
def readBody (limit : Nat) (tooLong failed : ε) (body : Http.Body) : Reading ε :=
  if body.declared.any (· > limit) then ⟨some (.error tooLong), []⟩
  else collect uncheckedSub limit tooLong failed body.broken [] body.chunks

/-- `read_limited` of the Ceph client. -/
def cephReadLimited (body : Http.Body) (operation : Ceph.Operation) : Reading Ceph.Error :=
  readBody Ceph.maxResponseBytes (Ceph.tooLarge operation) (Ceph.failure operation) body

/-- The body of `http_bytes` of the Tekton client. -/
def tektonHttpBytes (kind : Tekton.OperationKind) (limit : Nat) (body : Http.Body) :
    Reading Tekton.Error :=
  readBody limit (Tekton.unusable kind) (Tekton.operationFailure kind) body

/-- A reader of a response is exact, the declared length counted in. -/
theorem readBody_exact (limit : Nat) (tooLong failed : ε) (body : Http.Body) :
    Exact limit (declaredFits limit body ∧ body.chunks.flatten.length ≤ limit) tooLong
      (whole failed body.broken body.chunks) (readBody limit tooLong failed body) := by
  unfold readBody
  by_cases hdeclared : body.declared.any (· > limit) = true
  · rw [if_pos hdeclared]
    obtain ⟨length, hlength, hlong⟩ := (Option.any_eq_true _ _).mp hdeclared
    have hnot : ¬ declaredFits limit body := by
      intro hfits
      exact Nat.not_le.mpr (of_decide_eq_true hlong) (hfits length hlength)
    exact ⟨fun h => absurd h.1 hnot, fun _ => rfl, Nat.zero_le limit⟩
  · rw [if_neg hdeclared]
    have hfits : declaredFits limit body := by
      intro length hlength
      rw [hlength, Option.any_some, decide_eq_true_eq] at hdeclared
      exact Nat.not_lt.mp hdeclared
    obtain ⟨hreturns, hrefuses, hbounded⟩ :=
      collect_exact subtracts_uncheckedSub limit tooLong failed body.broken body.chunks
    exact ⟨fun h => hreturns h.2, fun h => hrefuses fun hlength => h ⟨hfits, hlength⟩, hbounded⟩

/-- **The reader of a body** is this loop. -/
theorem readBody_outcome (limit : Nat) (error : Http.ReadError → ε) (body : Http.Body) :
    (readBody limit (error .tooLarge) (error .broken) body).outcome =
      some ((Http.readLimited limit body).mapError error) := by
  unfold readBody Http.readLimited
  by_cases hdeclared : body.declared.any (· > limit) = true
  · rw [if_pos hdeclared, if_pos hdeclared]
    rfl
  · rw [if_neg hdeclared, if_neg hdeclared]
    have hloop : ∀ stored : Bytes, stored.length ≤ limit →
        (collect uncheckedSub limit (error .tooLarge) (error .broken) body.broken stored
          body.chunks).outcome =
        some ((Http.collect limit body.broken stored body.chunks).mapError error) := by
      induction body.chunks with
      | nil =>
          intro stored _
          cases body.broken <;> rfl
      | cons chunk chunks ih =>
          intro stored hstored
          by_cases hfits : (stored ++ chunk).length ≤ limit
          · rw [collect_fits subtracts_uncheckedSub hstored hfits, ih _ hfits, Http.collect]
            rw [List.length_append] at hfits
            rw [if_neg (by omega)]
          · rw [collect_stops subtracts_uncheckedSub hstored (Nat.lt_of_not_le hfits),
              Http.collect]
            rw [List.length_append] at hfits
            rw [if_pos (by omega)]
            rfl
    exact hloop [] (Nat.zero_le limit)

/-- The reader of the Ceph client is this reader, with its own errors. -/
theorem readLimited_outcome (body : Http.Body) (operation : Ceph.Operation) :
    (cephReadLimited body operation).outcome =
      some ((Http.readLimited Ceph.maxResponseBytes body).mapError (Ceph.readError operation)) :=
  readBody_outcome _ (Ceph.readError operation) body

/-- And so is the reader of the Tekton client. -/
theorem httpBytes_outcome (kind : Tekton.OperationKind) (limit : Nat) (body : Http.Body) :
    (tektonHttpBytes kind limit body).outcome =
      some ((Http.readLimited limit body).mapError (Tekton.readError kind)) :=
  readBody_outcome _ (Tekton.readError kind) body

/-- **Every reader is exact.** -/
theorem bounded_readers_exact (limit : Nat) :
    (∀ stream : ChildProcess.Stream,
      ∀ drain ∈ [deploysDrain, drainSensitive, kubernetesDrain],
        Exact limit ((chunks stream).flatten.length ≤ limit) ()
          (whole () (isBroken stream) (chunks stream)) (drain stream limit)) ∧
    (∀ (body : Http.Body) (operation : Ceph.Operation),
      Exact Ceph.maxResponseBytes
        (declaredFits Ceph.maxResponseBytes body ∧
          body.chunks.flatten.length ≤ Ceph.maxResponseBytes)
        (Ceph.tooLarge operation) (whole (Ceph.failure operation) body.broken body.chunks)
        (cephReadLimited body operation)) ∧
    ∀ (kind : Tekton.OperationKind) (body : Http.Body),
      Exact limit (declaredFits limit body ∧ body.chunks.flatten.length ≤ limit)
        (Tekton.unusable kind) (whole (Tekton.operationFailure kind) body.broken body.chunks)
        (tektonHttpBytes kind limit body) := by
  refine ⟨fun stream drain hdrain => ?_, fun body operation => ?_, fun kind body => ?_⟩
  · have hloop := collect_exact subtracts_saturatingSub limit () () (isBroken stream)
      (chunks stream)
    simp only [List.mem_cons, List.not_mem_nil, or_false] at hdrain
    rcases hdrain with rfl | rfl | rfl
    · exact hloop
    · exact hloop
    · exact hloop
  · exact readBody_exact _ _ _ body
  · exact readBody_exact _ _ _ body

/-- Three bytes in two chunks, under limits of three and of two. -/
example : tektonHttpBytes .read 3 ⟨none, [[1, 2], [3]], false⟩ = ⟨some (.ok [1, 2, 3]), [1, 2, 3]⟩ ∧
    tektonHttpBytes .read 2 ⟨none, [[1, 2], [3]], false⟩ =
      ⟨some (.error .invalidResponse), [1, 2]⟩ := ⟨rfl, rfl⟩

end BoundedReader
