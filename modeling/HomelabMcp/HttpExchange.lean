import HomelabMcp.Text

/-!
# HTTP exchanges

What a client sees of a request: nothing, a timeout, or a response whose body arrives in chunks.
`readLimited` collects a body under a limit; `readLimited_eq_ok` says when it succeeds.
-/

namespace Http

open Text (Bytes)

/-- A body as it arrives: the length it declares, its chunks, and whether it breaks off. -/
structure Body where
  declared : Option Nat
  chunks : List Bytes
  broken : Bool
  deriving DecidableEq

/-- A body that arrives whole in one chunk. -/
def Body.whole (bytes : Bytes) : Body := ⟨some bytes.length, [bytes], false⟩

/-- What comes of sending a request. -/
inductive Exchange where
  /-- The request or the response broke off before the status was known. -/
  | failed
  /-- The time for the request ran out, at whatever point. -/
  | elapsed
  | response (status : Nat) (body : Body)

/-- `StatusCode::is_success`. -/
def isSuccess (status : Nat) : Bool := 200 ≤ status && status < 300

/-- `StatusCode::is_client_error`. -/
def isClientError (status : Nat) : Bool := 400 ≤ status && status < 500

/-- Why a body was not read. -/
inductive ReadError where
  | tooLarge
  | broken
  deriving DecidableEq

/-- Collect chunks while they fit. -/
def collect (limit : Nat) (broken : Bool) (bytes : Bytes) : List Bytes → Except ReadError Bytes
  | [] => if broken then .error .broken else .ok bytes
  | chunk :: chunks =>
      if chunk.length > limit - bytes.length then .error .tooLarge
      else collect limit broken (bytes ++ chunk) chunks

/-- Read a body whose declared and real length are within the limit. -/
def readLimited (limit : Nat) (body : Body) : Except ReadError Bytes :=
  if body.declared.any (· > limit) then .error .tooLarge
  else collect limit body.broken [] body.chunks

/-- The loop returns what it held and all chunks, where that fits. -/
theorem collect_eq_ok {limit : Nat} {broken : Bool} {bytes out : Bytes} {chunks : List Bytes}
    (hfit : bytes.length ≤ limit) :
    collect limit broken bytes chunks = .ok out ↔
      broken = false ∧ out = bytes ++ chunks.flatten ∧ out.length ≤ limit := by
  induction chunks generalizing bytes with
  | nil =>
      cases broken with
      | true => simp [collect]
      | false =>
          simp only [collect, Bool.false_eq_true, if_false, Except.ok.injEq, List.flatten_nil,
            List.append_nil, true_and]
          constructor
          · rintro rfl
            exact ⟨rfl, hfit⟩
          · rintro ⟨rfl, -⟩
            rfl
  | cons chunk chunks ih =>
      simp only [collect]
      split
      · next hlong =>
          simp only [reduceCtorEq, List.flatten_cons, false_iff, not_and]
          rintro - rfl hlen
          simp only [List.length_append] at hlen
          omega
      · next hlong =>
          have hfit' : (bytes ++ chunk).length ≤ limit := by
            rw [List.length_append]
            omega
          rw [ih hfit', List.flatten_cons, List.append_assoc]

/-- **A body is read** exactly when it declares no excess, arrives whole and fits. -/
theorem readLimited_eq_ok {limit : Nat} {body : Body} {out : Bytes} :
    readLimited limit body = .ok out ↔
      (∀ n, body.declared = some n → n ≤ limit) ∧ body.broken = false ∧
        out = body.chunks.flatten ∧ out.length ≤ limit := by
  unfold readLimited
  cases hd : body.declared with
  | none => simp [collect_eq_ok]
  | some n =>
      by_cases hn : n > limit
      · simp [hn, Nat.not_le.mpr hn]
      · simp [hn, Nat.not_lt.mp hn, collect_eq_ok]

end Http
