import HomelabMcp.GrafanaNormalize
import HomelabMcp.HttpExchange
import HomelabMcp.ProcessPool

/-!
# The permits of the Grafana client

`run` and `render` take a permit, `render` one of two more, and give them back when their block
ends, however it ends: with a result, when the time is up, or when the caller drops it at a request
or a chunk that it waits for.  A guard counts the operation while it is in flight and records its
outcome.

* `program_spec`: what an operation does in any run.
* `conserved_permits`, `gauge_counts`: what the operations of a pool hold and count.
* `calls_lawful`: both for every reachable pool, with the outcome of a silence creation.
* `third_render_holds`: a render that gets no permit to render holds one of the others for a moment.
-/

namespace Grafana

open Interaction ProcessPool
open Json (Value)
open Text (Bytes)

/-- Whether an operation reads or changes something. -/
inductive OperationKind where
  | read
  | mutation
  deriving DecidableEq

/-- A request as the rest of the server asks for it. -/
structure UpstreamRequest where
  method : String
  path : String
  parameters : List (String × String)
  body : Option Value

/-- How a panel is rendered. -/
structure RenderOptions where
  width : Nat
  height : Nat
  scale : Nat
  theme : String
  timezone : String
  start : String
  stop : String
  dashboardVariables : List (String × String)

/-- An image with its digest. -/
structure RenderedImage where
  bytes : Bytes
  decodedBytes : Nat
  sha256 : String

/-- A response, with its content type where that is a text. -/
structure Response where
  status : Nat
  contentType : Option String
  body : Http.Body

/-- A request with its whole URL. -/
structure HttpRequest where
  method : String
  url : String
  body : Option Value

/-- What is waited for is there, or the time is up, or the caller has dropped the future. -/
inductive Awaited (α : Type) where
  | ready (a : α)
  | elapsed
  | dropped

/-- The two semaphores. -/
inductive Semaphore where
  | permits
  | renderPermits
  deriving DecidableEq

/-- How many permits each has. -/
def Semaphore.capacity : Semaphore → Nat
  | permits => 4
  | renderPermits => 2

/-- The attributes of a metric. -/
structure Attributes where
  action : String
  mode : String
  datasourceUid : String
  deriving DecidableEq

/-- The operations of a call. -/
inductive Op where
  | enter
  | tryAcquire (semaphore : Semaphore)
  | send (request : HttpRequest)
  | chunk
  | release (semaphore : Semaphore)
  | finish (outcome : String)

/-- A transport error is no response. -/
abbrev Ans : Op → Type
  | .tryAcquire _ => Bool
  | .send _ => Awaited (Option Response)
  | .chunk => Awaited Unit
  | _ => Unit

/-- The parts of the client that other code provides. -/
structure ClientCrates where
  /-- The URL of the origin joined with a path and the pairs of a query. -/
  join : String → List (String × String) → Option String
  parseJson : Bytes → Option Value
  sha256 : Bytes → String

/-- The bounds of requests and answers, and how a PNG begins. -/
def maxUrlBytes : Nat := 8192
def maxResponseBytes : Nat := 4 * 1024 * 1024
def pngSignature : Bytes := [0x89, 0x50, 0x4E, 0x47, 0x0D, 0x0A, 0x1A, 0x0A]

/-- A label that is known, or another. -/
def allowlisted (labels : List String) (other label : String) : String :=
  if labels.contains label then label else other

/-- `metric_action`. -/
def metricAction (action : String) : String :=
  allowlisted ["logql.query", "promql.query", "traceql.search", "profile.merge", "alert-rule.list",
    "recording-rule.list", "alert-instance.list", "silence.list", "silence.create",
    "dashboard.list", "dashboard.get", "dashboard", "panel"] "unknown" action

/-- `metric_mode`. -/
def metricMode (mode : String) : String :=
  allowlisted ["instant", "range", "search", "list", "create", "get", "render"] "unknown" mode

/-- `metric_datasource_uid`. -/
def metricDatasourceUid (datasourceUid : String) : String :=
  allowlisted ["loki", "mimir", "tempo", "pyroscope", "grafana_alerting", "grafana_dashboards",
    "grafana_rendering"] "unknown" datasourceUid

/-- `metric_outcome`. -/
def metricOutcome (outcome : String) : String :=
  allowlisted ["success", "invalid_arguments", "capacity_exhausted", "timeout", "unauthorized",
    "query_rejected", "mutation_rejected", "mutation_outcome_unknown", "upstream_unavailable",
    "invalid_response", "render_rejected", "render_invalid_response", "cancelled"]
    "upstream_unavailable" outcome

/-- `request_outcome`. -/
def requestOutcome {α : Type} : Except Error α → String
  | .ok _ => "success"
  | .error .invalidArguments => "invalid_arguments"
  | .error .capacityExhausted => "capacity_exhausted"
  | .error .timeout => "timeout"
  | .error .unauthorized => "unauthorized"
  | .error .queryRejected => "query_rejected"
  | .error .mutationRejected => "mutation_rejected"
  | .error .mutationOutcomeUnknown => "mutation_outcome_unknown"
  | .error .upstreamUnavailable => "upstream_unavailable"
  | .error .invalidResponse => "invalid_response"
  | .error .renderTimeout => "timeout"
  | .error .renderRejected => "render_rejected"
  | .error .renderInvalidResponse => "render_invalid_response"

/-- Why an exchange ends early. -/
inductive Exit where
  | error (e : Error)
  | elapsed
  | dropped

/-- What was waited for, or why it was not. -/
def awaited {α : Type} : Awaited α → Except Exit α
  | .ready a => .ok a
  | .elapsed => .error .elapsed
  | .dropped => .error .dropped

/-- Collect chunks while they fit; each of them and the end is waited for. -/
def collect (tooLarge failed : Error) (broken : Bool) (bytes : Bytes) :
    List Bytes → Fallible Ans Exit Bytes
  | [] => do
      answer (awaited (← ask .chunk))
      if broken then throw (.error failed) else return bytes
  | chunk :: chunks => do
      answer (awaited (← ask .chunk))
      if chunk.length > maxResponseBytes - bytes.length then throw (.error tooLarge)
      else collect tooLarge failed broken (bytes ++ chunk) chunks

/-- Whether the declared length is beyond the bound. -/
def declaresTooMuch (body : Http.Body) : Bool := body.declared.any (· > maxResponseBytes)

section Crates

variable (crates : ClientCrates)

/-- `read_json`. -/
def readJson (body : Http.Body) : Fallible Ans Exit Value := do
  ensure (!declaresTooMuch body) (.error .invalidResponse)
  let bytes ← collect .invalidResponse .upstreamUnavailable body.broken [] body.chunks
  answer (okOr (.error .invalidResponse) (crates.parseJson bytes))

/-- Whether a content type is that of a PNG, parameters aside. -/
def isPng (contentType : String) : Bool :=
  let mime := ((Text.split contentType ';').head?).map Text.trim
  mime.any fun mime => Text.toAsciiLowercase mime = "image/png"

/-- The image of a body with the signature of a PNG. -/
def imageOf (bytes : Bytes) : Except Error RenderedImage :=
  if pngSignature.isPrefixOf bytes then .ok ⟨bytes, bytes.length, crates.sha256 bytes⟩
  else .error .renderInvalidResponse

/-- `read_png`. -/
def readPng (response : Response) : Fallible Ans Exit RenderedImage := do
  ensure (response.contentType.any isPng && !declaresTooMuch response.body)
    (.error .renderInvalidResponse)
  let bytes ← collect .renderInvalidResponse .renderInvalidResponse response.body.broken []
    response.body.chunks
  answer ((imageOf crates bytes).mapError .error)

/-- What a request that failed on its way says. -/
def operationFailure : OperationKind → Error
  | .read => .upstreamUnavailable
  | .mutation => .mutationOutcomeUnknown

/-- The error of a status; none for a success. -/
def statusError (kind : OperationKind) (status : Nat) : Option Error :=
  if status = 401 ∨ status = 403 then some .unauthorized
  else if Http.isClientError status then
    some (match kind with
      | .read => .queryRejected
      | .mutation => if status = 400 then .mutationRejected else .mutationOutcomeUnknown)
  else if !Http.isSuccess status then some (operationFailure kind)
  else none

/-- A response that cannot be read leaves the outcome of a mutation unknown. -/
def unreadable (kind : OperationKind) (e : Error) : Error :=
  match kind with
  | .read => e
  | .mutation => .mutationOutcomeUnknown

/-- The error of an answer exchanged, the other exits kept. -/
def mapError {α : Type} (f : Error → Error) : Except Exit α → Except Exit α
  | .error (.error e) => .error (.error (f e))
  | r => r

/-- A normalizer; each of them fails with one error. -/
structure Normalizer where
  normalize : Value → Except Error Value
  invalid : ∀ v e, normalize v = .error e → e = .invalidResponse

/-- What a call returns. -/
inductive Output where
  | json (v : Value)
  | image (i : RenderedImage)

/-- The body through its normalizer. -/
def normalized (kind : OperationKind) (normalizer : Normalizer) (body : Value) :
    Except Error Output :=
  ((normalizer.normalize body).map .json).mapError (unreadable kind)

/-- The status, then the body. -/
def readResponse (kind : OperationKind) (normalizer : Normalizer) (response : Response) :
    Fallible Ans Exit Output :=
  match statusError kind response.status with
  | some e => throw (.error e)
  | none => do
      let body ← answer (mapError (unreadable kind) (← attempt (readJson crates response.body)))
      answer ((normalized kind normalizer body).mapError .error)

/-- A request and its answer. -/
def exchange (request : UpstreamRequest) (kind : OperationKind) (normalizer : Normalizer) :
    Fallible Ans Exit Output := do
  let url ← answer (okOr (.error (operationFailure kind))
    (crates.join request.path request.parameters))
  ensure (url.utf8ByteSize ≤ maxUrlBytes) (.error .invalidArguments)
  let response ← answer (awaited (← ask (.send ⟨request.method, url, request.body⟩)))
  let response ← answer (okOr (.error (operationFailure kind)) response)
  readResponse crates kind normalizer response

/-- The parameters of a rendering. -/
def renderParameters (panelId : Option String) (options : RenderOptions) :
    List (String × String) :=
  (panelId.map fun id => ("panelId", id)).toList ++
    [("width", toString options.width), ("height", toString options.height),
      ("scale", toString options.scale), ("theme", options.theme), ("tz", options.timezone),
      ("from", options.start), ("to", options.stop), ("timeout", "20")] ++
    options.dashboardVariables.map fun (name, value) => ("var-" ++ name, value)

/-- The error of a status of the renderer; none for 200. -/
def renderStatusError (status : Nat) : Option Error :=
  if status = 200 then none
  else if status = 401 ∨ status = 403 then some .unauthorized
  else if Http.isClientError status then some .renderRejected
  else some .upstreamUnavailable

/-- The status of a rendering, then the image. -/
def readRendering (response : Response) : Fallible Ans Exit Output :=
  match renderStatusError response.status with
  | some e => throw (.error e)
  | none => do return .image (← readPng crates response)

/-- A rendering and its answer. -/
def renderExchange (path : String) (panelId : Option String) (options : RenderOptions) :
    Fallible Ans Exit Output := do
  let url ← answer (okOr (.error .upstreamUnavailable)
    (crates.join path (renderParameters panelId options)))
  ensure (url.utf8ByteSize ≤ maxUrlBytes) (.error .invalidArguments)
  let response ← answer (awaited (← ask (.send ⟨"GET", url, none⟩)))
  let response ← answer (okOr (.error .upstreamUnavailable) response)
  readRendering crates response

/-- Why an operation ends early, once the time is an error. -/
inductive Stop where
  | error (e : Error)
  | dropped

/-- How an exit is told to the caller. -/
def stopped (late : Error) : Exit → Stop
  | .error e => .error e
  | .elapsed => .error late
  | .dropped => .dropped

/-- `tokio::time::timeout` around a part of a call. -/
def timeout {α : Type} (late : Error) (x : Fallible Ans Exit α) : Fallible Ans Stop α :=
  ExceptT.mk do return (← x.run).mapError (stopped late)

/-- Hold a permit while something is done, if there is one. -/
def holding {α : Type} (semaphore : Semaphore) (x : Fallible Ans Stop α) :
    Fallible Ans Stop α := do
  ensure (← ask (.tryAcquire semaphore)) (.error .capacityExhausted)
  let r ← attempt x
  let _ ← ask (.release semaphore)
  answer r

/-- The result, unless the caller has dropped the operation. -/
def settled {α : Type} : Except Stop α → Option (Except Error α)
  | .ok a => some (.ok a)
  | .error (.error e) => some (.error e)
  | .error .dropped => none

/-- What the guard records; one that is dropped records a cancellation. -/
def recordedOutcome {α : Type} : Option (Except Error α) → String
  | some result => metricOutcome (requestOutcome result)
  | none => metricOutcome "cancelled"

/-- The call between its two records. -/
def measured {α : Type} (x : Fallible Ans Stop α) : Program Op Ans (Option (Except Error α)) := do
  let _ ← Program.perform .enter
  let result := settled (← x.run)
  let _ ← Program.perform (.finish (recordedOutcome result))
  return result

/-- What a call says that took too long. -/
def lateError : OperationKind → Error
  | .read => .timeout
  | .mutation => .mutationOutcomeUnknown

/-- A call of the client. -/
inductive Operation where
  | run (request : UpstreamRequest) (action mode datasourceUid : String) (kind : OperationKind)
      (normalizer : Normalizer)
  | render (path : String) (panelId : Option String) (options : RenderOptions) (action : String)

namespace Operation

/-- The attributes of its records. -/
def attributes : Operation → Attributes
  | run _ action mode datasourceUid _ _ =>
      ⟨metricAction action, metricMode mode, metricDatasourceUid datasourceUid⟩
  | render _ _ _ action =>
      ⟨metricAction action, metricMode "render", metricDatasourceUid "grafana_rendering"⟩

/-- What the client does for it. -/
def program (operation : Operation) : Program Op Ans (Option (Except Error Output)) :=
  measured <| match operation with
    | run request _ _ _ kind normalizer =>
        holding .permits (timeout (lateError kind) (exchange crates request kind normalizer))
    | render path panelId options _ =>
        holding .permits (holding .renderPermits
          (timeout .renderTimeout (renderExchange crates path panelId options)))

end Operation

end Crates

/-- How often the guard was made, the permits that were taken and given back, the answers to the
requests that were sent, and the outcomes that were recorded. -/
structure Ledger where
  entered : Nat
  taken : Semaphore → Nat
  returned : Semaphore → Nat
  sent : List (Awaited (Option Response))
  recorded : List String

namespace Ledger

/-- Nothing done. -/
def empty : Ledger := ⟨0, fun _ => 0, fun _ => 0, [], []⟩

/-- One more of one semaphore. -/
def count (f : Semaphore → Nat) (semaphore : Semaphore) : Semaphore → Nat :=
  fun other => if other = semaphore then f other + 1 else f other

/-- The ledger after an operation. -/
def next (l : Ledger) : (op : Op) → Ans op → Ledger
  | .enter, _ => { l with entered := l.entered + 1 }
  | .tryAcquire semaphore, ok => if ok then { l with taken := count l.taken semaphore } else l
  | .send _, response => { l with sent := l.sent ++ [response] }
  | .chunk, _ => l
  | .release semaphore, _ => { l with returned := count l.returned semaphore }
  | .finish outcome, _ => { l with recorded := l.recorded ++ [outcome] }

/-- Whether a permit is held. -/
def holds (l : Ledger) (semaphore : Semaphore) : Prop := l.returned semaphore < l.taken semaphore

/-- That is decided by the counts. -/
instance (l : Ledger) (semaphore : Semaphore) : Decidable (l.holds semaphore) :=
  inferInstanceAs (Decidable (_ < _))

/-- What may be done next; a request needs some permits. -/
def may (needs : List Semaphore) (l : Ledger) : Op → Prop
  | .enter => l = empty
  | .tryAcquire semaphore => l.entered = 1 ∧ l.taken semaphore = 0 ∧ l.returned semaphore = 0 ∧
      l.recorded = [] ∧ (semaphore = .renderPermits → l.holds .permits)
  | .send _ => l.entered = 1 ∧ l.sent = [] ∧ l.recorded = [] ∧
      ∀ semaphore ∈ needs, l.holds semaphore
  | .chunk => l.entered = 1 ∧ l.recorded = []
  | .release semaphore => l.entered = 1 ∧ l.holds semaphore ∧ l.recorded = [] ∧
      (semaphore = .permits → ¬ l.holds .renderPermits)
  | .finish _ => l.entered = 1 ∧ l.recorded = [] ∧ ∀ semaphore, ¬ l.holds semaphore

/-- The ledger of a call that needs some semaphores. -/
def monitor (needs : List Semaphore) : Monitor Ans Ledger where
  may := may needs
  next := next

/-- What holds of a ledger at any time. -/
structure Balanced (l : Ledger) : Prop where
  entered : l.entered ≤ 1
  taken : ∀ semaphore, l.taken semaphore ≤ 1
  returned : ∀ semaphore, l.returned semaphore ≤ l.taken semaphore
  nested : l.holds .renderPermits → l.holds .permits
  sent : l.sent.length ≤ 1
  recorded : l.recorded.length ≤ 1

/-- Nothing is out of balance at the start. -/
theorem balanced_empty : empty.Balanced where
  entered := Nat.zero_le 1
  taken _ := Nat.zero_le 1
  returned _ := Nat.le_refl 0
  nested h := absurd h (Nat.lt_irrefl 0)
  sent := Nat.zero_le 1
  recorded := Nat.zero_le 1

/-- That semaphore has one more. -/
theorem count_self (f : Semaphore → Nat) (semaphore : Semaphore) :
    count f semaphore semaphore = f semaphore + 1 := if_pos rfl

/-- The other has as many as before. -/
theorem count_ne (f : Semaphore → Nat) {semaphore other : Semaphore} (h : other ≠ semaphore) :
    count f semaphore other = f other := if_neg h

/-- **Every step keeps a ledger balanced.** -/
theorem balanced_next {needs : List Semaphore} {l : Ledger} {op : Op} (a : Ans op)
    (h : l.Balanced) (hmay : l.may needs op) : (l.next op a).Balanced := by
  cases op with
  | enter =>
      obtain rfl : l = empty := hmay
      exact { balanced_empty with entered := Nat.le_refl 1 }
  | tryAcquire semaphore =>
      obtain ⟨-, htaken, hreturned, -, hnested⟩ := hmay
      cases a with
      | false => exact h
      | true =>
          refine { h with taken := ?_, returned := ?_, nested := ?_ }
          · intro other
            by_cases heq : other = semaphore
            · subst heq
              exact (count_self ..).trans_le (by omega)
            · exact (count_ne _ heq).trans_le (h.taken other)
          · intro other
            by_cases heq : other = semaphore
            · subst heq
              have hself := count_self l.taken other
              show l.returned other ≤ count l.taken other other
              omega
            · exact (h.returned other).trans (count_ne _ heq).ge
          · intro hrender
            cases semaphore with
            | permits =>
                show l.returned .permits < count l.taken .permits .permits
                rw [count_self]
                omega
            | renderPermits => exact hnested rfl
  | send request =>
      obtain ⟨-, hsent, -, -⟩ := hmay
      refine { h with sent := ?_ }
      show (l.sent ++ [a]).length ≤ 1
      rw [hsent]
      exact Nat.le_refl 1
  | chunk => exact h
  | release semaphore =>
      obtain ⟨-, hholds, -, hfree⟩ := hmay
      refine { h with returned := ?_, nested := ?_ }
      · intro other
        by_cases heq : other = semaphore
        · subst heq
          exact (count_self ..).trans_le hholds
        · exact (count_ne _ heq).trans_le (h.returned other)
      · intro hrender
        cases semaphore with
        | permits => exact absurd hrender (hfree rfl)
        | renderPermits =>
            have hlast : count l.returned .renderPermits .renderPermits < l.taken .renderPermits :=
              hrender
            rw [count_self] at hlast
            have htaken := h.taken .renderPermits
            omega
  | finish outcome =>
      obtain ⟨-, hrecorded, -⟩ := hmay
      refine { h with recorded := ?_ }
      show (l.recorded ++ [outcome]).length ≤ 1
      rw [hrecorded]
      exact Nat.le_refl 1

end Ledger

/-- The errors of the reader. -/
def readError (tooLarge failed : Error) : Http.ReadError → Error
  | .tooLarge => tooLarge
  | .broken => failed

/-- A body read at once. -/
def bodyOf (tooLarge failed : Error) (body : Http.Body) : Except Error Bytes :=
  (Http.readLimited maxResponseBytes body).mapError (readError tooLarge failed)

section Crates

variable (crates : ClientCrates)

/-- The JSON of a body. -/
def jsonOf (body : Http.Body) : Except Error Value := do
  okOr .invalidResponse (crates.parseJson (← bodyOf .invalidResponse .upstreamUnavailable body))

/-- The image of a response. -/
def pngOf (response : Response) : Except Error RenderedImage := do
  demand (response.contentType.any isPng) .renderInvalidResponse
  imageOf crates (← bodyOf .renderInvalidResponse .renderInvalidResponse response.body)

/-- What is returned of a body. -/
def normalizedBody (kind : OperationKind) (normalizer : Normalizer) (body : Http.Body) :
    Except Error Output := do
  normalized kind normalizer (← (jsonOf crates body).mapError (unreadable kind))

/-- What a response of Grafana comes to, when it is read to its end. -/
def resultOf (kind : OperationKind) (normalizer : Normalizer) (response : Response) :
    Except Error Output :=
  match statusError kind response.status with
  | some e => .error e
  | none => normalizedBody crates kind normalizer response.body

/-- What a response of the renderer comes to. -/
def renderResultOf (response : Response) : Except Error Output :=
  match renderStatusError response.status with
  | some e => .error e
  | none => do return .image (← pngOf crates response)

end Crates

/-- What is waited for ends as it would, or before. -/
inductive InTime {α : Type} (whole : Except Error α) : Except Exit α → Prop
  | whole : InTime whole (whole.mapError .error)
  | elapsed : InTime whole (.error .elapsed)
  | dropped : InTime whole (.error .dropped)

/-- What comes after such a wait, when that takes no time. -/
theorem InTime.bind {α β : Type} {whole : Except Error α} {r : Except Exit α} (h : InTime whole r)
    (f : α → Except Error β) : InTime (whole >>= f) (r >>= fun a => (f a).mapError .error) := by
  cases h with
  | whole =>
      cases whole with
      | error e => exact .whole
      | ok a => exact .whole
  | elapsed => exact .elapsed
  | dropped => exact .dropped

/-- What is in time stays so with another error. -/
theorem InTime.map {α : Type} {whole : Except Error α} {r : Except Exit α} (h : InTime whole r)
    (f : Error → Error) : InTime (whole.mapError f) (mapError f r) := by
  cases h with
  | whole =>
      cases whole with
      | error e => exact .whole
      | ok a => exact .whole
  | elapsed => exact .elapsed
  | dropped => exact .dropped

/-- A missing value, as an exit. -/
theorem okOr_exit {α : Type} (e : Error) (o : Option α) :
    okOr (Exit.error e) o = (okOr e o).mapError .error := by
  cases o <;> rfl

/-- The answer to a request, and how the exchange ends. -/
inductive Answered (failure : Error) (result : Response → Except Error Output) :
    Awaited (Option Response) → Except Exit Output → Prop
  | elapsed : Answered failure result .elapsed (.error .elapsed)
  | dropped : Answered failure result .dropped (.error .dropped)
  | failed : Answered failure result (.ready none) (.error (.error failure))
  | response {response : Response} {r : Except Exit Output} (h : InTime (result response) r) :
      Answered failure result (.ready (some response)) r

section Runs

variable {crates : ClientCrates} {needs : List Semaphore} {l : Ledger}

open Ledger (monitor)

/-- **The loop over the chunks**: it ends as the body does that is read at once. -/
theorem collect_spec {tooLarge failed : Error} {broken : Bool} {bytes : Bytes}
    (hentered : l.entered = 1) (hrecorded : l.recorded = []) (chunks : List Bytes) :
    (monitor needs).wp (collect tooLarge failed broken bytes chunks).run l fun l' r => l' = l ∧
      InTime ((Http.collect maxResponseBytes broken bytes chunks).mapError
        (readError tooLarge failed)) r := by
  induction chunks generalizing bytes with
  | nil =>
      refine ⟨⟨hentered, hrecorded⟩, fun a => ?_⟩
      cases a with
      | ready u =>
          cases broken with
          | true => exact ⟨rfl, .whole⟩
          | false => exact ⟨rfl, .whole⟩
      | elapsed => exact ⟨rfl, .elapsed⟩
      | dropped => exact ⟨rfl, .dropped⟩
  | cons chunk chunks ih =>
      refine ⟨⟨hentered, hrecorded⟩, fun a => ?_⟩
      cases a with
      | ready u =>
          show (monitor needs).wp (ExceptT.run
            (if chunk.length > maxResponseBytes - bytes.length then throw (.error tooLarge)
            else collect tooLarge failed broken (bytes ++ chunk) chunks)) l _
          rw [Http.collect]
          by_cases hlong : chunk.length > maxResponseBytes - bytes.length
          · rw [if_pos hlong, if_pos hlong]
            exact ⟨rfl, .whole⟩
          · rw [if_neg hlong, if_neg hlong]
            exact ih
      | elapsed => exact ⟨rfl, .elapsed⟩
      | dropped => exact ⟨rfl, .dropped⟩

/-- The body behind the check of what it declares. -/
theorem body_spec {tooLarge failed : Error} {body : Http.Body} (hentered : l.entered = 1)
    (hrecorded : l.recorded = []) (hdeclared : declaresTooMuch body = false) :
    (monitor needs).wp (collect tooLarge failed body.broken [] body.chunks).run l fun l' r =>
      l' = l ∧ InTime (bodyOf tooLarge failed body) r := by
  have hread : Http.readLimited maxResponseBytes body =
      Http.collect maxResponseBytes body.broken [] body.chunks := by
    unfold declaresTooMuch at hdeclared
    rw [Http.readLimited, hdeclared]
    rfl
  rw [bodyOf, hread]
  exact collect_spec hentered hrecorded body.chunks

/-- A body that declares too much is too large. -/
theorem bodyOf_too_much {tooLarge failed : Error} {body : Http.Body}
    (h : declaresTooMuch body = true) : bodyOf tooLarge failed body = .error tooLarge := by
  unfold declaresTooMuch at h
  rw [bodyOf, Http.readLimited, h]
  rfl

/-- Reading JSON leaves the ledger and gives the JSON of the body. -/
theorem readJson_spec {body : Http.Body} (hentered : l.entered = 1) (hrecorded : l.recorded = []) :
    (monitor needs).wp (readJson crates body).run l fun l' r =>
      l' = l ∧ InTime (jsonOf crates body) r := by
  unfold readJson
  rw [Monitor.wp_run_bind]
  apply Monitor.wp_run_ensure
  · intro hdeclared
    rw [Monitor.wp_run_bind]
    refine Monitor.wp_mono _ (body_spec hentered hrecorded (by simpa using hdeclared)) ?_
    rintro l' r ⟨rfl, hr⟩
    have hjson := hr.bind fun bytes => okOr .invalidResponse (crates.parseJson bytes)
    cases r with
    | error e => exact ⟨rfl, hjson⟩
    | ok bytes =>
        refine ⟨rfl, ?_⟩
        rw [okOr_exit]
        exact hjson
  · intro hdeclared
    have hjson : jsonOf crates body = .error .invalidResponse := by
      rw [jsonOf, bodyOf_too_much (by simpa using hdeclared)]
      rfl
    rw [hjson]
    exact ⟨rfl, .whole⟩

/-- Reading an image does, too. -/
theorem readPng_spec {response : Response} (hentered : l.entered = 1)
    (hrecorded : l.recorded = []) :
    (monitor needs).wp (readPng crates response).run l fun l' r =>
      l' = l ∧ InTime (pngOf crates response) r := by
  unfold readPng
  rw [Monitor.wp_run_bind]
  apply Monitor.wp_run_ensure
  · intro hok
    obtain ⟨hmime, hdeclared⟩ := (Bool.and_eq_true _ _).mp hok
    rw [Monitor.wp_run_bind]
    refine Monitor.wp_mono _ (body_spec hentered hrecorded (by simpa using hdeclared)) ?_
    rintro l' r ⟨rfl, hr⟩
    have hpng := hr.bind (imageOf crates)
    have hwhole : pngOf crates response = bodyOf .renderInvalidResponse .renderInvalidResponse
        response.body >>= imageOf crates := by
      rw [pngOf, hmime]
      rfl
    rw [← hwhole] at hpng
    cases r with
    | error e => exact ⟨rfl, hpng⟩
    | ok bytes => exact ⟨rfl, hpng⟩
  · intro hbad
    have hpng : pngOf crates response = .error .renderInvalidResponse := by
      cases hmime : response.contentType.any isPng with
      | false =>
          rw [pngOf, hmime]
          rfl
      | true =>
          rw [hmime] at hbad
          rw [pngOf, hmime, bodyOf_too_much (by simpa using hbad)]
          rfl
    rw [hpng]
    exact ⟨rfl, .whole⟩

/-- What follows a response takes it to its result. -/
def Reads (needs : List Semaphore)
    (f : Response → Fallible Ans Exit Output) (result : Response → Except Error Output) : Prop :=
  ∀ response l, l.entered = 1 → l.recorded = [] →
    (monitor needs).wp (f response).run l fun l' r => l' = l ∧ InTime (result response) r

/-- **A request**: one answer, and what it comes to. -/
theorem request_spec {failure : Error} {result : Response → Except Error Output}
    {f : Response → Fallible Ans Exit Output} (hf : Reads needs f result)
    {request : HttpRequest} (hmay : l.may needs (.send request)) :
    (monitor needs).wp (ExceptT.run (do
        let response ← answer (awaited (← ask (.send request)))
        let response ← answer (okOr (.error failure) response)
        f response)) l fun l' r =>
      ∃ a, l' = { l with sent := [a] } ∧ Answered failure result a r := by
  obtain ⟨hentered, hsent, hrecorded, hneeds⟩ := hmay
  refine ⟨⟨hentered, hsent, hrecorded, hneeds⟩, fun a => ?_⟩
  have hnext : (monitor needs).next l (.send request) a = { l with sent := [a] } := by
    show { l with sent := l.sent ++ [a] } = _
    rw [hsent]
    rfl
  rw [hnext]
  cases a with
  | elapsed => exact ⟨_, rfl, .elapsed⟩
  | dropped => exact ⟨_, rfl, .dropped⟩
  | ready response =>
      cases response with
      | none => exact ⟨_, rfl, .failed⟩
      | some response =>
          refine Monitor.wp_mono _ (hf response _ hentered hrecorded) ?_
          rintro l' r ⟨rfl, hr⟩
          exact ⟨_, rfl, .response hr⟩

/-- So does reading a response. -/
theorem readResponse_reads (kind : OperationKind) (normalizer : Normalizer) :
    Reads needs (readResponse crates kind normalizer) (resultOf crates kind normalizer) := by
  intro response l hentered hrecorded
  unfold readResponse resultOf
  cases statusError kind response.status with
  | some e => exact ⟨rfl, .whole⟩
  | none =>
      dsimp only
      rw [Monitor.wp_run_bind, Monitor.wp_run_attempt]
      refine Monitor.wp_mono _ (readJson_spec hentered hrecorded) ?_
      rintro l' r ⟨rfl, hr⟩
      have hbody := (hr.map (unreadable kind)).bind (normalized kind normalizer)
      dsimp only
      rw [Monitor.wp_run_bind, Monitor.wp_run_answer]
      cases hmapped : mapError (unreadable kind) r with
      | error e =>
          rw [hmapped] at hbody
          exact ⟨rfl, hbody⟩
      | ok body =>
          rw [hmapped] at hbody
          exact ⟨rfl, hbody⟩

/-- And a rendering. -/
theorem readRendering_reads : Reads needs (readRendering crates) (renderResultOf crates) := by
  intro response l hentered hrecorded
  unfold readRendering renderResultOf
  cases renderStatusError response.status with
  | some e => exact ⟨rfl, .whole⟩
  | none =>
      dsimp only
      rw [Monitor.wp_run_bind]
      refine Monitor.wp_mono _ (readPng_spec hentered hrecorded) ?_
      rintro l' r ⟨rfl, hr⟩
      have himage := hr.bind fun image => .ok (Output.image image)
      cases r with
      | error e => exact ⟨rfl, himage⟩
      | ok image => exact ⟨rfl, himage⟩

/-- An exchange ends before its request with an error, or with what the answer comes to. -/
inductive Exchanged (failure : Error) (result : Response → Except Error Output) (l : Ledger) :
    Ledger → Except Exit Output → Prop
  | unsent (e : Error) : Exchanged failure result l l (.error (.error e))
  | sent {a : Awaited (Option Response)} {r : Except Exit Output}
      (h : Answered failure result a r) : Exchanged failure result l { l with sent := [a] } r

/-- The request is sent, unless there is no URL or it is too long. -/
theorem dispatch_spec {failure : Error} {result : Response → Except Error Output}
    {f : Response → Fallible Ans Exit Output} (hf : Reads needs f result)
    {request : String → HttpRequest} (hmay : ∀ url, l.may needs (.send (request url)))
    (url : Option String) :
    (monitor needs).wp (ExceptT.run (do
        let url ← answer (okOr (.error failure) url)
        ensure (url.utf8ByteSize ≤ maxUrlBytes) (.error .invalidArguments)
        let response ← answer (awaited (← ask (.send (request url))))
        let response ← answer (okOr (.error failure) response)
        f response)) l (Exchanged failure result l) := by
  cases url with
  | none => exact .unsent failure
  | some url =>
      show (monitor needs).wp (ExceptT.run (do
        ensure (url.utf8ByteSize ≤ maxUrlBytes) (.error .invalidArguments)
        let response ← answer (awaited (← ask (.send (request url))))
        let response ← answer (okOr (.error failure) response)
        f response)) l _
      rw [Monitor.wp_run_bind]
      apply Monitor.wp_run_ensure
      · intro _
        refine Monitor.wp_mono _ (request_spec hf (hmay url)) ?_
        rintro l' r ⟨a, rfl, hanswered⟩
        exact .sent hanswered
      · intro _
        exact .unsent .invalidArguments

/-- A bound on the time changes only how a late exit is told. -/
theorem timeout_spec {α : Type} {late : Error} {x : Fallible Ans Exit α}
    {Q : Ledger → Except Stop α → Prop} :
    (monitor needs).wp (timeout late x).run l Q ↔
      (monitor needs).wp x.run l fun l' r => Q l' (r.mapError (stopped late)) := by
  show (monitor needs).wp (x.run >>= fun r => Program.done (r.mapError (stopped late))) l Q ↔ _
  rw [Monitor.wp_bind]
  rfl

/-- **A permit is held** while something is done, and given back whatever it ends with. -/
theorem holding_spec {α : Type} {semaphore : Semaphore} {x : Fallible Ans Stop α}
    {Q : Ledger → Except Stop α → Prop} (hmay : l.may needs (.tryAcquire semaphore))
    (hexhausted : Q l (.error (.error .capacityExhausted)))
    (hheld : (monitor needs).wp x.run { l with taken := Ledger.count l.taken semaphore } fun l' r =>
      l'.may needs (.release semaphore) ∧
        Q { l' with returned := Ledger.count l'.returned semaphore } r) :
    (monitor needs).wp (holding semaphore x).run l Q := by
  refine ⟨hmay, fun acquired => ?_⟩
  cases acquired with
  | false => exact hexhausted
  | true =>
      show (monitor needs).wp (ExceptT.run (do
        let r ← attempt x
        let _ ← ask (.release semaphore)
        answer r)) { l with taken := Ledger.count l.taken semaphore } Q
      rw [Monitor.wp_run_bind, Monitor.wp_run_attempt]
      refine Monitor.wp_mono _ hheld ?_
      rintro l' r ⟨hrelease, hQ⟩
      exact ⟨hrelease, fun _ => hQ⟩

end Runs

/-- The answer to the request of an operation, if it sent one, and its result. -/
inductive Completed (late failure : Error) (result : Response → Except Error Output) :
    List (Awaited (Option Response)) → Option (Except Error Output) → Prop
  | unsent (e : Error) : Completed late failure result [] (some (.error e))
  | late (a : Awaited (Option Response)) : Completed late failure result [a] (some (.error late))
  | dropped (a : Awaited (Option Response)) : Completed late failure result [a] none
  | failed : Completed late failure result [.ready none] (some (.error failure))
  | response (response : Response) :
      Completed late failure result [.ready (some response)] (some (result response))

/-- An exchange changes nothing but what was sent. -/
theorem Exchanged.same {failure : Error} {result : Response → Except Error Output}
    {l l' : Ledger} {r : Except Exit Output} (h : Exchanged failure result l l' r) :
    ∃ sent, l' = { l with sent := sent } := by
  cases h with
  | unsent e => exact ⟨l.sent, rfl⟩
  | sent h => exact ⟨_, rfl⟩

/-- An exchange that is over is told by the response that came. -/
theorem Exchanged.completed (late : Error) {failure : Error}
    {result : Response → Except Error Output} {l l' : Ledger} {r : Except Exit Output}
    (h : Exchanged failure result l l' r)
    (hsent : l.sent = []) :
    Completed late failure result l'.sent (settled (r.mapError (stopped late))) := by
  cases h with
  | unsent e =>
      rw [hsent]
      exact .unsent e
  | sent h =>
      cases h with
      | elapsed => exact .late _
      | dropped => exact .dropped _
      | failed => exact .failed
      | @response response r h =>
          cases h with
          | elapsed => exact .late _
          | dropped => exact .dropped _
          | whole =>
              have hsettled : settled (((result response).mapError Exit.error).mapError
                  (stopped late)) = some (result response) := by
                cases result response <;> rfl
              rw [hsettled]
              exact .response response

namespace Operation

/-- The permits that an operation sends its request under. -/
def needs : Operation → List Semaphore
  | run .. => [.permits]
  | render .. => [.permits, .renderPermits]

/-- The error when the time is up. -/
def late : Operation → Error
  | run _ _ _ _ kind _ => lateError kind
  | render .. => .renderTimeout

/-- The error when there is no response. -/
def failure : Operation → Error
  | run _ _ _ _ kind _ => operationFailure kind
  | render .. => .upstreamUnavailable

/-- What a response to an operation comes to. -/
def result (crates : ClientCrates) : Operation → Response → Except Error Output
  | run _ _ _ _ kind normalizer => resultOf crates kind normalizer
  | render .. => renderResultOf crates

/-- What an operation has done when it ends. -/
structure Finished (crates : ClientCrates) (operation : Operation) (l : Ledger)
    (result : Option (Except Error Output)) : Prop where
  entered : l.entered = 1
  holds : ∀ semaphore, ¬ l.holds semaphore
  recorded : l.recorded = [recordedOutcome result]
  completed : Completed operation.late operation.failure (operation.result crates) l.sent result

end Operation

section Programs

variable {crates : ClientCrates} {needs : List Semaphore}

open Ledger (monitor)

/-- A call enters once, and records once what it returns. -/
theorem measured_spec {operation : Operation} {x : Fallible Ans Stop Output}
    (hx : (monitor needs).wp x.run { Ledger.empty with entered := 1 } fun l r =>
      l.entered = 1 ∧ l.recorded = [] ∧ (∀ semaphore, ¬ l.holds semaphore) ∧
        Completed operation.late operation.failure (operation.result crates) l.sent (settled r)) :
    (monitor needs).wp (measured x) Ledger.empty
      (operation.Finished crates) := by
  refine ⟨rfl, fun _ => ?_⟩
  show (monitor needs).wp (x.run >>= _) { Ledger.empty with entered := 1 } _
  rw [Monitor.wp_bind]
  refine Monitor.wp_mono _ hx ?_
  rintro l r ⟨hentered, hrecorded, hholds, hcompleted⟩
  refine ⟨⟨hentered, hrecorded, hholds⟩, fun _ => ⟨hentered, hholds, ?_, hcompleted⟩⟩
  show l.recorded ++ _ = _
  rw [hrecorded]
  rfl

/-- **An operation in any run**: what it may do when it does it, and what it has done at its end. -/
theorem program_spec (operation : Operation) :
    (monitor operation.needs).wp (operation.program crates) Ledger.empty
      (operation.Finished crates) := by
  have hnone : ∀ f : Semaphore → Nat, ∀ semaphore, ¬ f semaphore < f semaphore :=
    fun f semaphore => Nat.lt_irrefl _
  apply measured_spec
  cases operation with
  | run request action mode datasourceUid kind normalizer =>
      apply holding_spec
      · exact ⟨rfl, rfl, rfl, rfl, nofun⟩
      · exact ⟨rfl, rfl, hnone _, .unsent _⟩
      · rw [timeout_spec]
        refine Monitor.wp_mono _ (dispatch_spec (readResponse_reads kind normalizer) ?_ _) ?_
        · intro url
          refine ⟨rfl, rfl, rfl, fun semaphore hneeded => ?_⟩
          obtain rfl := List.mem_singleton.mp hneeded
          exact Nat.zero_lt_one
        · intro l r h
          have hcompleted := h.completed (lateError kind) rfl
          obtain ⟨sent, rfl⟩ := h.same
          exact ⟨⟨rfl, Nat.zero_lt_one, rfl, fun _ => hnone _ _⟩, rfl, rfl, hnone _, hcompleted⟩
  | render path panelId options action =>
      apply holding_spec
      · exact ⟨rfl, rfl, rfl, rfl, nofun⟩
      · exact ⟨rfl, rfl, hnone _, .unsent _⟩
      · apply holding_spec
        · exact ⟨rfl, rfl, rfl, rfl, fun _ => Nat.zero_lt_one⟩
        · exact ⟨⟨rfl, Nat.zero_lt_one, rfl, fun _ => hnone _ _⟩, rfl, rfl, hnone _, .unsent _⟩
        · rw [timeout_spec]
          refine Monitor.wp_mono _ (dispatch_spec readRendering_reads ?_ _) ?_
          · intro url
            refine ⟨rfl, rfl, rfl, fun semaphore _ => ?_⟩
            cases semaphore with
            | permits => exact Nat.zero_lt_one
            | renderPermits => exact Nat.zero_lt_one
          · intro l r h
            have hcompleted := h.completed .renderTimeout rfl
            obtain ⟨sent, rfl⟩ := h.same
            refine ⟨⟨rfl, Nat.zero_lt_one, rfl, nofun⟩,
              ⟨rfl, Nat.zero_lt_one, rfl, fun _ => hnone _ _⟩, rfl, rfl, ?_, hcompleted⟩
            intro semaphore
            cases semaphore with
            | permits => exact Nat.lt_irrefl 1
            | renderPermits => exact Nat.lt_irrefl 1

end Programs

/-- What the operations share: the free permits and the gauge. -/
structure Shared where
  free : Semaphore → Nat
  inFlight : Attributes → Int

/-- A client that was made just now. -/
def Shared.fresh : Shared := ⟨Semaphore.capacity, fun _ => 0⟩

/-- What an operation with such attributes does to what is shared, and how it is answered. -/
inductive Effect (attributes : Attributes) (g : Shared) : (op : Op) → Ans op → Shared → Prop
  | enter : Effect attributes g .enter ()
      { g with inFlight := Function.update g.inFlight attributes (g.inFlight attributes + 1) }
  | acquired {semaphore : Semaphore} (h : 0 < g.free semaphore) :
      Effect attributes g (.tryAcquire semaphore) true
        { g with free := Function.update g.free semaphore (g.free semaphore - 1) }
  | exhausted {semaphore : Semaphore} (h : g.free semaphore = 0) :
      Effect attributes g (.tryAcquire semaphore) false g
  | sent {request : HttpRequest} (response : Awaited (Option Response)) :
      Effect attributes g (.send request) response g
  | chunk (arrived : Awaited Unit) : Effect attributes g .chunk arrived g
  | released (semaphore : Semaphore) : Effect attributes g (.release semaphore) ()
      { g with free := Function.update g.free semaphore (g.free semaphore + 1) }
  | finished (outcome : String) : Effect attributes g (.finish outcome) ()
      { g with inFlight := Function.update g.inFlight attributes (g.inFlight attributes - 1) }

/-- An operation that has got so far. -/
structure Call (crates : ClientCrates) where
  operation : Operation
  trace : Trace Ans
  rest : Program Op Ans (Option (Except Error Output))
  run : Reaches (operation.program crates) trace rest

namespace Call

variable {crates : ClientCrates}

/-- A call that has not begun. -/
def fresh (operation : Operation) : Call crates :=
  ⟨operation, [], operation.program crates, .refl _⟩

/-- A call after one more operation. -/
def advance (c : Call crates) {op : Op}
    {next : Ans op → Program Op Ans (Option (Except Error Output))} (h : c.rest = .call op next)
    (a : Ans op) : Call crates :=
  ⟨c.operation, c.trace ++ [⟨op, a⟩], next a, (h ▸ c.run).snoc a⟩

/-- A step of a call, with what it does to the permits of the pool. -/
inductive Step (g : Shared) (c : Call crates) : Shared → Call crates → Prop
  | step {op : Op} {next : Ans op → Program Op Ans (Option (Except Error Output))} {a : Ans op}
      {g' : Shared} (h : c.rest = .call op next)
      (heffect : Effect c.operation.attributes g op a g') : Step g c g' (c.advance h a)

/-- Any number of operations, in any order of their steps. -/
def behaviour (crates : ClientCrates) : Behaviour Shared (Call crates) where
  start c := ∃ operation, c = fresh operation
  act _ := Step
  env _ _ := False

/-- What a call has done. -/
def ledger (c : Call crates) : Ledger :=
  (Ledger.monitor c.operation.needs).after Ledger.empty c.trace

/-- The result of an operation that has ended: none if the caller has dropped it. -/
def ended (c : Call crates) : Option (Option (Except Error Output)) := c.rest.ended

/-- Whether a call holds a permit. -/
def holds (semaphore : Semaphore) (c : Call crates) : Bool := decide (c.ledger.holds semaphore)

/-- An operation with such attributes that is in flight. -/
def isInFlight (attributes : Attributes) (c : Call crates) : Bool :=
  decide (c.operation.attributes = attributes) && decide (c.ledger.entered = 1) && c.ended.isNone

/-- One more operation is one more step of the ledger. -/
theorem ledger_advance (c : Call crates) {op : Op}
    {next : Ans op → Program Op Ans (Option (Except Error Output))} (h : c.rest = .call op next)
    (a : Ans op) : (c.advance h a).ledger = c.ledger.next op a := by
  rw [ledger, advance, Monitor.after_append]
  rfl

/-- Whatever an operation waits for, it may. -/
theorem may (c : Call crates) {op : Op}
    {next : Ans op → Program Op Ans (Option (Except Error Output))} (h : c.rest = .call op next) :
    c.ledger.may c.operation.needs op := by
  have hspec := (Monitor.wp_reaches _ c.run (program_spec c.operation)).1
  rw [h] at hspec
  exact hspec.1

/-- A call that is over ended as it should. -/
theorem finished (c : Call crates) {result : Option (Except Error Output)}
    (h : c.ended = some result) : c.operation.Finished crates c.ledger result := by
  have hspec := (Monitor.wp_reaches _ c.run (program_spec c.operation)).1
  unfold ended at h
  cases hrest : c.rest with
  | call op next =>
      rw [hrest] at h
      cases h
  | done a =>
      rw [hrest] at h hspec
      obtain rfl := Option.some.inj h
      exact hspec

/-- No call is out of balance. -/
theorem balanced (c : Call crates) : c.ledger.Balanced := by
  have hallowed := (Monitor.wp_reaches _ c.run (program_spec c.operation)).2
  exact Monitor.after_invariant (I := Ledger.Balanced) _
    (fun _ _ a h hmay => Ledger.balanced_next a h hmay) Ledger.balanced_empty hallowed

/-- An operation waits and has recorded nothing, or has ended and has recorded its outcome. -/
theorem recorded_iff (c : Call crates) : c.ledger.recorded = [] ↔ c.ended = none := by
  unfold ended
  cases hrest : c.rest with
  | done result =>
      have hended : c.ended = some result := by
        rw [ended, hrest]
        rfl
      have hrecorded := (c.finished hended).recorded
      constructor
      · intro hempty
        rw [hrecorded] at hempty
        cases hempty
      · intro hnone
        cases hnone
  | call op next =>
      have hmay := c.may hrest
      refine iff_of_true ?_ rfl
      cases op with
      | enter =>
          rw [show c.ledger = Ledger.empty from hmay]
          rfl
      | tryAcquire semaphore => exact hmay.2.2.2.1
      | send request => exact hmay.2.2.1
      | chunk => exact hmay.2
      | release semaphore => exact hmay.2.2.1
      | finish outcome => exact hmay.2.1

/-- A permit is held between its two steps. -/
def held (semaphore : Semaphore) (c : Call crates) : Nat :=
  c.ledger.taken semaphore - c.ledger.returned semaphore

/-- A call holds one permit or none. -/
theorem held_eq (semaphore : Semaphore) (c : Call crates) :
    c.held semaphore = if c.holds semaphore = true then 1 else 0 := by
  have htaken := c.balanced.taken semaphore
  by_cases hholds : c.ledger.holds semaphore
  · have hless : c.ledger.returned semaphore < c.ledger.taken semaphore := hholds
    rw [held, holds, decide_eq_true hholds, if_pos rfl]
    omega
  · have hequal : ¬ c.ledger.returned semaphore < c.ledger.taken semaphore := hholds
    rw [held, holds, decide_eq_false hholds, if_neg Bool.false_ne_true]
    omega

/-- **Permits move** between the semaphore and the operation. -/
theorem Step.balance {g g' : Shared} {c c' : Call crates} (h : Step g c g' c')
    (semaphore : Semaphore) :
    g.free semaphore + c.held semaphore = g'.free semaphore + c'.held semaphore := by
  cases h with
  | @step op next a _ hrest heffect =>
      have hmay := c.may hrest
      unfold held
      rw [ledger_advance]
      cases heffect with
      | enter => rfl
      | exhausted hfree => rfl
      | sent response => rfl
      | chunk arrived => rfl
      | finished outcome => rfl
      | @acquired taken hfree =>
          obtain ⟨-, htaken, hreturned, -, -⟩ := hmay
          by_cases heq : semaphore = taken
          · subst heq
            show _ = Function.update g.free semaphore (g.free semaphore - 1) semaphore +
              (Ledger.count c.ledger.taken semaphore semaphore - c.ledger.returned semaphore)
            rw [Function.update_self, Ledger.count_self]
            omega
          · show _ = Function.update g.free taken (g.free taken - 1) semaphore +
              (Ledger.count c.ledger.taken taken semaphore - c.ledger.returned semaphore)
            rw [Function.update_of_ne heq, Ledger.count_ne _ heq]
      | released taken =>
          have hholds : c.ledger.returned taken < c.ledger.taken taken := hmay.2.1
          by_cases heq : semaphore = taken
          · subst heq
            show _ = Function.update g.free semaphore (g.free semaphore + 1) semaphore +
              (c.ledger.taken semaphore - Ledger.count c.ledger.returned semaphore semaphore)
            rw [Function.update_self, Ledger.count_self]
            omega
          · show _ = Function.update g.free taken (g.free taken + 1) semaphore +
              (c.ledger.taken semaphore - Ledger.count c.ledger.returned taken semaphore)
            rw [Function.update_of_ne heq, Ledger.count_ne _ heq]

/-- What the gauge has for an operation. -/
def counted (attributes : Attributes) (c : Call crates) : Int :=
  if c.isInFlight attributes = true then 1 else 0

/-- A call is in flight between its two records. -/
theorem isInFlight_iff {attributes : Attributes} {c : Call crates} :
    c.isInFlight attributes = true ↔
      c.operation.attributes = attributes ∧ c.ledger.entered = 1 ∧ c.ledger.recorded = [] := by
  rw [recorded_iff, isInFlight, Bool.and_eq_true, Bool.and_eq_true, decide_eq_true_eq,
    decide_eq_true_eq, Option.isNone_iff_eq_none, and_assoc]

/-- The same counts are in flight alike. -/
theorem counted_congr {attributes : Attributes} {c c' : Call crates}
    (hoperation : c'.operation = c.operation) (hentered : c'.ledger.entered = c.ledger.entered)
    (hrecorded : c'.ledger.recorded = c.ledger.recorded) :
    c'.counted attributes = c.counted attributes := by
  have hsame : c'.isInFlight attributes = c.isInFlight attributes := by
    rw [Bool.eq_iff_iff, isInFlight_iff, isInFlight_iff, hoperation, hentered, hrecorded]
  rw [counted, counted, hsame]

/-- **The gauge moves** as operations enter and end. -/
theorem Step.gauge {g g' : Shared} {c c' : Call crates} (h : Step g c g' c')
    (attributes : Attributes) :
    -g.inFlight attributes + c.counted attributes =
      -g'.inFlight attributes + c'.counted attributes := by
  cases h with
  | @step op next a _ hrest heffect =>
      have hmay := c.may hrest
      have hnext := c.ledger_advance hrest a
      have hsame : ∀ {g' : Shared}, g'.inFlight = g.inFlight →
          (c.ledger.next op a).entered = c.ledger.entered →
          (c.ledger.next op a).recorded = c.ledger.recorded →
          -g.inFlight attributes + c.counted attributes =
            -g'.inFlight attributes + (c.advance hrest a).counted attributes := by
        intro g' hgauge hentered hrecorded
        have hcounted : (c.advance hrest a).counted attributes = c.counted attributes :=
          counted_congr rfl (by rw [hnext, hentered]) (by rw [hnext, hrecorded])
        rw [hgauge, hcounted]
      cases heffect with
      | exhausted hfree => exact hsame rfl rfl rfl
      | sent response => exact hsame rfl rfl rfl
      | chunk arrived => exact hsame rfl rfl rfl
      | acquired hfree => exact hsame rfl rfl rfl
      | released taken => exact hsame rfl rfl rfl
      | enter =>
          have hempty : c.ledger = Ledger.empty := hmay
          rw [hempty] at hnext
          have hbefore : c.isInFlight attributes = false := by
            rw [Bool.eq_false_iff, ne_eq, isInFlight_iff, hempty]
            exact fun h => absurd h.2.1 Nat.zero_ne_one
          by_cases heq : c.operation.attributes = attributes
          · have hafter : (c.advance hrest ()).isInFlight attributes = true := by
              rw [isInFlight_iff, hnext]
              exact ⟨heq, rfl, rfl⟩
            subst heq
            rw [counted, counted, hbefore, hafter]
            dsimp only
            rw [Function.update_self, if_pos rfl, if_neg Bool.false_ne_true]
            omega
          · have hafter : (c.advance hrest ()).isInFlight attributes = false := by
              rw [Bool.eq_false_iff, ne_eq, isInFlight_iff]
              exact fun h => heq h.1
            rw [counted, counted, hbefore, hafter]
            dsimp only
            rw [Function.update_of_ne (Ne.symm heq)]
      | finished outcome =>
          obtain ⟨hentered, hrecorded, -⟩ := hmay
          have hafter : (c.advance hrest ()).isInFlight attributes = false := by
            rw [Bool.eq_false_iff, ne_eq, isInFlight_iff, hnext]
            intro h
            exact absurd h.2.2 (List.append_ne_nil_of_right_ne_nil _ (List.cons_ne_nil _ _))
          by_cases heq : c.operation.attributes = attributes
          · have hbefore : c.isInFlight attributes = true := isInFlight_iff.mpr
              ⟨heq, hentered, hrecorded⟩
            subst heq
            rw [counted, counted, hbefore, hafter]
            dsimp only
            rw [Function.update_self, if_pos rfl, if_neg Bool.false_ne_true]
            omega
          · have hbefore : c.isInFlight attributes = false := by
              rw [Bool.eq_false_iff, ne_eq, isInFlight_iff]
              exact fun h => heq h.1
            rw [counted, counted, hbefore, hafter]
            dsimp only
            rw [Function.update_of_ne (Ne.symm heq)]

/-- **What is held and what is free** is what there is. -/
theorem conserved_permits {pool : Pool Shared (Call crates)}
    (h : (behaviour crates).Reachable .fresh pool) (semaphore : Semaphore) :
    pool.shared.free semaphore + pool.procs.countP (holds semaphore) = semaphore.capacity := by
  have hsum := Behaviour.conserved (b := behaviour crates)
    (fun g : Shared => g.free semaphore) (held semaphore) (by rintro c ⟨operation, rfl⟩; rfl)
    (fun _ _ _ _ _ hstep => hstep.balance semaphore)
    (fun _ _ henv => henv.elim) h
  have hcount : (pool.procs.map fun c =>
      if c.holds semaphore = true then (1 : Nat) else 0).sum = _ :=
    sum_indicator (holds semaphore) pool.procs
  rw [List.map_congr_left fun c _ => held_eq semaphore c, hcount] at hsum
  exact hsum

/-- **The gauge** is the number of the operations in flight. -/
theorem gauge_counts {pool : Pool Shared (Call crates)}
    (h : (behaviour crates).Reachable .fresh pool) (attributes : Attributes) :
    pool.shared.inFlight attributes = pool.procs.countP (isInFlight attributes) := by
  have hfresh : ∀ c, (behaviour crates).start c → c.counted attributes = 0 := by
    rintro c ⟨operation, rfl⟩
    have hnot : (fresh operation : Call crates).isInFlight attributes = false := by
      rw [Bool.eq_false_iff, ne_eq, isInFlight_iff]
      exact fun h => absurd h.2.1 Nat.zero_ne_one
    rw [counted, hnot, if_neg Bool.false_ne_true]
  have hsum := Behaviour.conserved (b := behaviour crates)
    (fun g : Shared => -g.inFlight attributes) (counted attributes) hfresh
    (fun _ _ _ _ _ hstep => hstep.gauge attributes) (fun _ _ henv => henv.elim) h
  have hcount : (pool.procs.map fun c =>
      if c.isInFlight attributes = true then (1 : Int) else 0).sum = _ :=
    sum_indicator (isInFlight attributes) pool.procs
  have hzero : (Shared.fresh.inFlight attributes : Int) = 0 := rfl
  rw [show pool.procs.map (counted attributes) = pool.procs.map fun c =>
    if c.isInFlight attributes = true then (1 : Int) else 0 from rfl, hcount, hzero] at hsum
  omega

end Call

section Results

variable {crates : ClientCrates}

/-- An error that neither a check nor a semaphore gives. -/
def IsUpstream (e : Error) : Prop := e ≠ .capacityExhausted ∧ e ≠ .invalidArguments

/-- Which errors these are is decided case by case. -/
instance (e : Error) : Decidable (IsUpstream e) := inferInstanceAs (Decidable (_ ∧ _))

/-- A status without an error is a success. -/
theorem statusError_none {kind : OperationKind} {status : Nat}
    (h : statusError kind status = none) : Http.isSuccess status = true := by
  unfold statusError at h
  split_ifs at h with _ _ hsuccess
  simpa using hsuccess

/-- The errors of a status are upstream. -/
theorem statusError_isUpstream {kind : OperationKind} {status : Nat} {e : Error}
    (h : statusError kind status = some e) : IsUpstream e := by
  unfold statusError operationFailure at h
  split_ifs at h <;> cases kind <;> grind [IsUpstream]

/-- The errors that the status of a mutation gives. -/
theorem statusError_mutation {status : Nat} {e : Error}
    (h : statusError .mutation status = some e) :
    (e = .unauthorized ∧ (status = 401 ∨ status = 403)) ∨ (e = .mutationRejected ∧ status = 400) ∨
      e = .mutationOutcomeUnknown := by
  unfold statusError operationFailure at h
  grind

/-- The errors of a body. -/
theorem bodyOf_error {tooLarge failed e : Error} {body : Http.Body}
    (h : bodyOf tooLarge failed body = .error e) : e = tooLarge ∨ e = failed := by
  unfold bodyOf at h
  cases hread : Http.readLimited maxResponseBytes body with
  | ok bytes =>
      rw [hread] at h
      cases h
  | error e =>
      rw [hread] at h
      cases e with
      | tooLarge => exact .inl (Except.error.inj h).symm
      | broken => exact .inr (Except.error.inj h).symm

/-- The errors of its JSON. -/
theorem jsonOf_error {body : Http.Body} {e : Error} (h : jsonOf crates body = .error e) :
    IsUpstream e := by
  unfold jsonOf at h
  cases hbody : bodyOf .invalidResponse .upstreamUnavailable body with
  | error e' =>
      rw [hbody] at h
      obtain rfl := Except.error.inj h
      rcases bodyOf_error hbody with rfl | rfl <;> decide
  | ok bytes =>
      rw [hbody] at h
      have h : okOr Error.invalidResponse (crates.parseJson bytes) = .error e := h
      cases hparse : crates.parseJson bytes with
      | none =>
          rw [hparse] at h
          obtain rfl := Except.error.inj h
          decide
      | some v =>
          rw [hparse] at h
          cases h

/-- What cannot be read is upstream's. -/
theorem unreadable_isUpstream {kind : OperationKind} {e : Error} (h : IsUpstream e) :
    IsUpstream (unreadable kind e) := by
  cases kind with
  | read => exact h
  | mutation => exact ⟨nofun, nofun⟩

/-- The errors of a normalized body. -/
theorem normalizedBody_error {kind : OperationKind} {normalizer : Normalizer} {body : Http.Body}
    {e : Error} (h : normalizedBody crates kind normalizer body = .error e) :
    IsUpstream e ∧ (kind = .mutation → e = .mutationOutcomeUnknown) := by
  have hunreadable : ∀ e', IsUpstream e' → IsUpstream (unreadable kind e') ∧
      (kind = .mutation → unreadable kind e' = .mutationOutcomeUnknown) := by
    intro e' he'
    refine ⟨unreadable_isUpstream he', ?_⟩
    rintro rfl
    rfl
  unfold normalizedBody at h
  cases hjson : jsonOf crates body with
  | error e' =>
      rw [hjson] at h
      obtain rfl := Except.error.inj h
      exact hunreadable e' (jsonOf_error hjson)
  | ok v =>
      rw [hjson] at h
      have h : normalized kind normalizer v = .error e := h
      unfold normalized at h
      cases hnormal : normalizer.normalize v with
      | ok v' =>
          rw [hnormal] at h
          cases h
      | error e' =>
          rw [hnormal] at h
          obtain rfl := Except.error.inj h
          rw [normalizer.invalid v e' hnormal]
          exact hunreadable .invalidResponse (by decide)

/-- The errors of a result are upstream. -/
theorem resultOf_isUpstream {kind : OperationKind} {normalizer : Normalizer} {response : Response}
    {e : Error} (h : resultOf crates kind normalizer response = .error e) : IsUpstream e := by
  unfold resultOf at h
  cases hstatus : statusError kind response.status with
  | some e' =>
      rw [hstatus] at h
      obtain rfl := Except.error.inj h
      exact statusError_isUpstream hstatus
  | none =>
      rw [hstatus] at h
      exact (normalizedBody_error h).1

/-- So are those of the status of a rendering. -/
theorem renderStatusError_isUpstream {status : Nat} {e : Error}
    (h : renderStatusError status = some e) : IsUpstream e := by
  unfold renderStatusError at h
  split_ifs at h <;> grind [IsUpstream]

/-- An image has the one error. -/
theorem pngOf_error {response : Response} {e : Error} (h : pngOf crates response = .error e) :
    e = .renderInvalidResponse := by
  unfold pngOf at h
  cases hmime : response.contentType.any isPng with
  | false =>
      rw [hmime] at h
      exact (Except.error.inj h).symm
  | true =>
      rw [hmime] at h
      cases hbody : bodyOf .renderInvalidResponse .renderInvalidResponse response.body with
      | error e' =>
          rw [hbody] at h
          obtain rfl := Except.error.inj h
          exact (bodyOf_error hbody).elim id id
      | ok bytes =>
          rw [hbody] at h
          have h : imageOf crates bytes = .error e := h
          unfold imageOf at h
          split_ifs at h
          exact (Except.error.inj h).symm

/-- The errors of a rendering are upstream. -/
theorem renderResultOf_isUpstream {response : Response} {e : Error}
    (h : renderResultOf crates response = .error e) : IsUpstream e := by
  unfold renderResultOf at h
  cases hstatus : renderStatusError response.status with
  | some e' =>
      rw [hstatus] at h
      obtain rfl := Except.error.inj h
      exact renderStatusError_isUpstream hstatus
  | none =>
      rw [hstatus] at h
      cases himage : pngOf crates response with
      | ok image =>
          rw [himage] at h
          cases h
      | error e' =>
          rw [himage] at h
          obtain rfl := Except.error.inj h
          rw [pngOf_error himage]
          decide

/-- The errors of an operation that has sent its request. -/
theorem Operation.isUpstream (operation : Operation) :
    IsUpstream operation.late ∧ IsUpstream operation.failure ∧
      ∀ response e, operation.result crates response = .error e → IsUpstream e := by
  cases operation with
  | run request action mode datasourceUid kind normalizer =>
      refine ⟨?_, ?_, fun response e => resultOf_isUpstream⟩
      · cases kind <;> exact ⟨nofun, nofun⟩
      · cases kind <;> exact ⟨nofun, nofun⟩
  | render path panelId options action =>
      exact ⟨⟨nofun, nofun⟩, ⟨nofun, nofun⟩, fun response e => renderResultOf_isUpstream⟩

/-- A result that is not upstream's comes without a request. -/
theorem Completed.unsent_of {late failure : Error} {result : Response → Except Error Output}
    {sent : List (Awaited (Option Response))} {e : Error}
    (h : Completed late failure result sent (some (.error e))) (hlate : IsUpstream late)
    (hfailure : IsUpstream failure)
    (hresult : ∀ response e, result response = .error e → IsUpstream e) (he : ¬ IsUpstream e) :
    sent = [] := by
  generalize hr : some (Except.error e : Except Error Output) = r at h
  cases h with
  | unsent e' => rfl
  | late a =>
      obtain rfl := Except.error.inj (Option.some.inj hr)
      exact absurd hlate he
  | dropped a => cases hr
  | failed =>
      obtain rfl := Except.error.inj (Option.some.inj hr)
      exact absurd hfailure he
  | response response => exact absurd (hresult response e (Option.some.inj hr).symm) he

/-- **The outcome of a mutation** whose request was answered. -/
structure MutationOutcome (crates : ClientCrates) (normalizer : Normalizer)
    (a : Awaited (Option Response)) (r : Except Error Output) : Prop where
  ok : ∀ output, r = .ok output → ∃ response body v, a = .ready (some response) ∧
    Http.isSuccess response.status = true ∧ jsonOf crates response.body = .ok body ∧
    normalizer.normalize body = .ok v ∧ output = .json v
  unauthorized : r = .error .unauthorized → ∃ response, a = .ready (some response) ∧
    (response.status = 401 ∨ response.status = 403)
  rejected : r = .error .mutationRejected → ∃ response, a = .ready (some response) ∧
    response.status = 400
  unknown : ∀ e, r = .error e → e = .unauthorized ∨ e = .mutationRejected ∨
    e = .mutationOutcomeUnknown

/-- An unknown outcome is never wrong. -/
theorem mutationOutcome_unknown {normalizer : Normalizer} (a : Awaited (Option Response)) :
    MutationOutcome crates normalizer a (.error .mutationOutcomeUnknown) where
  ok := nofun
  unauthorized := nofun
  rejected := nofun
  unknown _ h := .inr (.inr (Except.error.inj h).symm)

/-- A response tells the outcome. -/
theorem mutationOutcome_response {normalizer : Normalizer} (response : Response) :
    MutationOutcome crates normalizer (.ready (some response))
      (resultOf crates .mutation normalizer response) := by
  unfold resultOf
  cases hstatus : statusError .mutation response.status with
  | some e =>
      have hcases := statusError_mutation hstatus
      refine ⟨nofun, ?_, ?_, ?_⟩
      · intro h
        obtain rfl := Except.error.inj h
        exact ⟨response, rfl, by simpa using hcases⟩
      · intro h
        obtain rfl := Except.error.inj h
        exact ⟨response, rfl, by simpa using hcases⟩
      · intro e' h
        obtain rfl := Except.error.inj h
        rcases hcases with h | h | h
        · exact .inl h.1
        · exact .inr (.inl h.1)
        · exact .inr (.inr h)
  | none =>
      have hsuccess := statusError_none hstatus
      have hunknown : ∀ e, normalizedBody crates .mutation normalizer response.body = .error e →
          e = .mutationOutcomeUnknown := fun e h => (normalizedBody_error h).2 rfl
      refine ⟨?_, ?_, ?_, ?_⟩
      · intro output h
        dsimp only at h
        unfold normalizedBody at h
        cases hjson : jsonOf crates response.body with
        | error e =>
            rw [hjson] at h
            cases h
        | ok body =>
            rw [hjson] at h
            have h : normalized .mutation normalizer body = .ok output := h
            unfold normalized at h
            cases hnormal : normalizer.normalize body with
            | error e =>
                rw [hnormal] at h
                cases h
            | ok v =>
                rw [hnormal] at h
                exact ⟨response, body, v, rfl, hsuccess, hjson, hnormal, (Except.ok.inj h).symm⟩
      · exact fun h => absurd (hunknown _ h) nofun
      · exact fun h => absurd (hunknown _ h) nofun
      · exact fun e h => .inr (.inr (hunknown e h))

end Results

namespace Call

variable {crates : ClientCrates}

/-- What holds of an operation at any time. -/
structure Lawful (c : Call crates) : Prop where
  taken_once : ∀ semaphore, c.ledger.returned semaphore ≤ c.ledger.taken semaphore ∧
    c.ledger.taken semaphore ≤ 1
  given_back : ∀ result, c.ended = some result →
    ∀ semaphore, c.ledger.returned semaphore = c.ledger.taken semaphore
  nested : c.holds .renderPermits = true → c.holds .permits = true
  under_permits : ∀ request next, c.rest = .call (.send request) next →
    ∀ semaphore ∈ c.operation.needs, c.holds semaphore = true
  one_outcome : ∀ result, c.ended = some result → c.ledger.recorded = [recordedOutcome result]
  no_outcome : c.ended = none → c.ledger.recorded = []
  one_request : c.ledger.sent.length ≤ 1
  no_request : ∀ e, c.ended = some (some (.error e)) →
    e = .capacityExhausted ∨ e = .invalidArguments → c.ledger.sent = []
  mutation : ∀ request action mode datasourceUid normalizer r a,
    c.operation = .run request action mode datasourceUid .mutation normalizer →
    c.ended = some (some r) → c.ledger.sent = [a] → MutationOutcome crates normalizer a r

/-- Every call is lawful. -/
theorem lawful (c : Call crates) : c.Lawful where
  taken_once semaphore := ⟨c.balanced.returned semaphore, c.balanced.taken semaphore⟩
  given_back result h semaphore := by
    have hholds := (c.finished h).holds semaphore
    have hreturned := c.balanced.returned semaphore
    exact le_antisymm hreturned (not_lt.mp hholds)
  nested h := decide_eq_true (c.balanced.nested (of_decide_eq_true h))
  under_permits request next h semaphore hneeds :=
    decide_eq_true ((c.may h).2.2.2 semaphore hneeds)
  one_outcome result h := (c.finished h).recorded
  no_outcome h := c.recorded_iff.mpr h
  one_request := c.balanced.sent
  no_request e h he := by
    obtain ⟨hlate, hfailure, hresult⟩ := @Operation.isUpstream crates c.operation
    apply (c.finished h).completed.unsent_of hlate hfailure hresult
    rintro ⟨hcapacity, hinvalid⟩
    exact he.elim hcapacity hinvalid
  mutation request action mode datasourceUid normalizer r a hoperation h hsent := by
    have hcompleted := (c.finished h).completed
    rw [hsent, hoperation] at hcompleted
    cases hcompleted with
    | late a => exact mutationOutcome_unknown a
    | failed => exact mutationOutcome_unknown _
    | response response => exact mutationOutcome_response response

end Call

/-- **The permits of the client**, for any number of operations and any order of their steps.  Four
at most hold a permit, two at most one for rendering; what is not held is free; the gauge is the
number of the operations in flight.  Each operation gives back what it took, records one outcome and
sends one request at most, under its permits, and what is known of a mutation was answered. -/
theorem calls_lawful {crates : ClientCrates} {pool : Pool Shared (Call crates)}
    (h : (Call.behaviour crates).Reachable .fresh pool) :
    pool.procs.countP (Call.holds .permits) ≤ 4 ∧
    pool.procs.countP (Call.holds .renderPermits) ≤ 2 ∧
    (∀ semaphore, pool.shared.free semaphore + pool.procs.countP (Call.holds semaphore) =
      semaphore.capacity) ∧
    (∀ attributes, pool.shared.inFlight attributes =
      pool.procs.countP (Call.isInFlight attributes)) ∧
    ∀ c ∈ pool.procs, c.Lawful := by
  have hconserved := Call.conserved_permits h
  refine ⟨?_, ?_, hconserved, Call.gauge_counts h, fun c _ => c.lawful⟩
  · have hpermits := hconserved .permits
    have hcapacity : Semaphore.permits.capacity = 4 := rfl
    omega
  · have hpermits := hconserved .renderPermits
    have hcapacity : Semaphore.renderPermits.capacity = 2 := rfl
    omega

namespace Call

variable {crates : ClientCrates}

/-- Whether a call renders. -/
def isRender (c : Call crates) : Bool :=
  match c.operation with
  | .render .. => true
  | .run .. => false

/-- The operation that joined last acts. -/
theorem last_acts {g g' : Shared} {procs : List (Call crates)} {c c' : Call crates}
    (h : (behaviour crates).Reachable .fresh ⟨g, procs ++ [c]⟩) (hstep : Step g c g' c') :
    (behaviour crates).Reachable .fresh ⟨g', procs ++ [c']⟩ := by
  have hlast : (procs ++ [c])[procs.length]? = some c := by
    rw [List.getElem?_append_right (Nat.le_refl _), Nat.sub_self]
    rfl
  have hset : (procs ++ [c]).set procs.length c' = procs ++ [c'] := by
    rw [List.set_append_right _ _ (Nat.le_refl _), Nat.sub_self]
    rfl
  rw [← hset]
  exact .move h (.act hlast hstep)

/-- One more render takes a permit that is free, before it asks for the other. -/
theorem render_takes {g : Shared} {procs : List (Call crates)}
    (h : (behaviour crates).Reachable .fresh ⟨g, procs⟩) (hfree : 0 < g.free .permits)
    (path action : String) (options : RenderOptions) :
    ∃ g' c, (behaviour crates).Reachable .fresh ⟨g', procs ++ [c]⟩ ∧
      g'.free .permits = g.free .permits - 1 ∧ (c.isRender && c.holds .permits) = true := by
  have hjoined : (behaviour crates).Reachable .fresh
      ⟨g, procs ++ [fresh (.render path none options action)]⟩ := .move h (.join ⟨_, rfl⟩)
  have hentered := last_acts hjoined (.step rfl .enter)
  have hacquired := last_acts hentered (.step rfl (.acquired hfree))
  refine ⟨_, _, hacquired, ?_, rfl⟩
  dsimp only
  rw [Function.update_self]

/-- Three renders that hold a permit and have not asked for one to render. -/
theorem three_renders (crates : ClientCrates) : ∃ pool,
    (behaviour crates).Reachable .fresh pool ∧
      pool.procs.countP (fun c => c.isRender && c.holds .permits) = 3 := by
  have hfour : Shared.fresh.free .permits = 4 := rfl
  let options : RenderOptions := ⟨1000, 500, 1, "light", "UTC", "now-6h", "now", []⟩
  have hnone : (behaviour crates).Reachable .fresh ⟨.fresh, []⟩ := .init
  obtain ⟨g, a, hone, hfree, ha⟩ :=
    render_takes hnone (by omega) "/render/d/a" "dashboard" options
  obtain ⟨g', b, htwo, hfree', hb⟩ :=
    render_takes hone (by omega) "/render/d/b" "dashboard" options
  obtain ⟨g'', c, hthree, -, hc⟩ :=
    render_takes htwo (by omega) "/render/d/c" "dashboard" options
  refine ⟨_, hthree, ?_⟩
  simp [ha, hb, hc]

end Call

/-- The parameters, where nothing is read. -/
def offlineCrates : ClientCrates where
  join path _ := some ("https://grafana.example" ++ path)
  parseJson _ := none
  sha256 _ := ""

theorem calls_lawful_renders : ∃ pool : Pool Shared (Call offlineCrates),
    pool.procs.countP (fun c => c.isRender && c.holds .permits) = 3 ∧
    pool.procs.countP (Call.holds .permits) ≤ 4 ∧
    pool.procs.countP (Call.holds .renderPermits) ≤ 2 ∧ ∀ c ∈ pool.procs, c.Lawful := by
  obtain ⟨pool, hreachable, hcount⟩ := Call.three_renders offlineCrates
  obtain ⟨hpermits, hrenderPermits, -, -, hlawful⟩ := calls_lawful hreachable
  exact ⟨pool, hcount, hpermits, hrenderPermits, hlawful⟩

/-- **More renders than two hold a permit**, each until it is refused the other. -/
theorem third_render_holds : ¬ ∀ (crates : ClientCrates) (pool : Pool Shared (Call crates)),
    (Call.behaviour crates).Reachable .fresh pool →
      pool.procs.countP (fun c => c.isRender && c.holds .permits) ≤ 2 := by
  intro h
  obtain ⟨pool, hreachable, hcount⟩ := Call.three_renders offlineCrates
  have hfew := h offlineCrates pool hreachable
  omega

end Grafana
