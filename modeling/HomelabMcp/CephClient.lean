import HomelabMcp.HttpExchange
import HomelabMcp.Interaction
import HomelabMcp.JsonValue

/-!
# The Ceph Dashboard client

The client's requests as programs: `authenticate` under the lock of the token cache, `send` under a
permit, `query` with one more attempt after a rejected token, `mutate` with none, and the mutations
of the tools over them.  A timeout of one request is an answer of the exchange; the deadline of a
whole operation drops its program at an operation it awaits.

The JSON parser and the joining of URLs are parameters (`Crates`).  The queries that no mutation
needs are left out.
-/

namespace Ceph

open Interaction
open Http (Exchange)
open Json (Value)
open Text (Bytes)

/-- The errors of a call to Ceph. -/
inductive Error where
  | invalidArguments
  | capacityExhausted
  | timeout
  | unauthorized
  | notFound
  | unsupportedAction
  | queryRejected
  | mutationRejected
  | mutationOutcomeUnknown
  | unsafeToDestroy
  | upstreamUnavailable
  | invalidResponse
  | responseTooLarge
  deriving DecidableEq

/-- The longest body that is read. -/
def maxResponseBytes : Nat := 4 * 1024 * 1024
/-- The media types of the API, by version. -/
def apiV1 : String := "application/vnd.ceph.api.v1.0+json"

/-- Whether a request only asks or also acts. -/
inductive Operation where
  | query
  | mutation
  deriving DecidableEq

/-- The third-party functions of the client: the JSON parser, and whether a path joins the origin
to a URL. -/
structure Crates where
  parseJson : Bytes → Option Value
  joins : String → Bool

/-- The methods that the client uses. -/
inductive Method where
  | get
  | post
  | put
  deriving DecidableEq

/-- A request to the origin; `token` is its bearer token. -/
structure Request where
  method : Method
  path : String
  query : List (String × String)
  body : Option Value
  accept : String
  token : Option String

/-- An answer that was read. -/
structure UpstreamResponse where
  status : Nat
  body : Value

/-- The longest text that is handed on. -/
def maxTextBytes : Nat := 4096

/-- A text that fits its bound and has no control characters. -/
def boundedPlain (value : String) (bytes : Nat) : Option String :=
  if value.utf8ByteSize ≤ bytes ∧ Text.noControl value then some value else none

/-- A member that is such a text, or null, or missing. -/
def boundedString (value : Option Value) (bytes : Nat) : Except Error (Option String) :=
  match value with
  | none | some .null => .ok none
  | some value =>
      match value.asStr.bind fun s => boundedPlain s bytes with
      | some s => .ok (some s)
      | none => .error .invalidResponse

/-- A scalar, a text among them within its bound. -/
def boundedScalar (value : Value) (bytes : Nat) : Except Error (Option Value) :=
  match value with
  | .null => .ok none
  | .bool _ | .number _ => .ok (some value)
  | .string s =>
      match boundedPlain s bytes with
      | some s => .ok (some (.string s))
      | none => .error .invalidResponse
  | .array _ | .object _ => .error .invalidResponse

/-- An array of scalars, of a bounded length. -/
def boundedScalars (value : Option Value) (maximum bytes : Nat) : Except Error (List Value) :=
  match value with
  | none => .ok []
  | some value =>
      match value.asArray with
      | none => .error .invalidResponse
      | some values =>
          if values.length > maximum then .error .invalidResponse
          else values.mapM fun value => do
            match ← boundedScalar value bytes with
            | some value => pure value
            | none => throw .invalidResponse

/-- The answer to `safe_to_destroy`, bounded. -/
def safeToDestroyResult (cluster : String) (osdId : UInt32) (value : Value) :
    Except Error Value := do
  match (value.get "is_safe_to_destroy").bind Value.asBool with
  | none => throw .invalidResponse
  | some safe =>
      let active ← boundedScalars (value.get "active") 100 128
      let missingStats ← boundedScalars (value.get "missing_stats") 100 128
      let storedPgs ← boundedScalars (value.get "stored_pgs") 100 128
      let message ← boundedString (value.get "message") maxTextBytes
      return .object [
        ("active", .array active),
        ("cluster", .string cluster),
        ("message", Value.ofOption message),
        ("missing_stats", .array missingStats),
        ("osd_id", .nat osdId.toUInt64),
        ("safe_to_destroy", .bool safe),
        ("stored_pgs", .array storedPgs),
        ("truncated", .bool false)]

/-- An OSD id, written as a number or as digits. -/
def numericOsdId (value : Value) : Option UInt32 :=
  match value.asU64 with
  | some n => if n.toNat < 2 ^ 32 then some n.toUInt32 else none
  | none => value.asStr.bind fun s =>
      if s.isEmpty || s.utf8ByteSize > 10 || !s.toList.all Char.isDigit then none
      else
        let n := s.toList.foldl (fun n c => 10 * n + (c.toNat - 48)) 0
        if n < 2 ^ 32 then some n.toUInt32 else none

/-- An entry of the list of tasks: the removal of an OSD, or something else. -/
def task (value : Value) : Except Error (Option Value) :=
  match (value.get "name").bind Value.asStr with
  | none => .ok none
  | some "osd/delete" =>
      match (value.get "metadata").bind Value.asObject with
      | none => .error .invalidResponse
      | some metadata =>
          match (metadata.lookup "svc_id").bind numericOsdId with
          | none => .error .invalidResponse
          | some svcId => .ok (some (.object [
              ("metadata", .object [("svc_id", .nat svcId.toUInt64)]),
              ("name", .string "osd/delete")]))
  | some _ => .ok none

/-- The task that a removal answers with, of the OSD that is removed. -/
def mutationTask (value : Value) (action : String) (expectedOsdId : Option UInt32) :
    Except Error Value :=
  if action ≠ "osd.destroy" ∧ action ≠ "osd.purge" then .error .invalidResponse
  else match task value with
    | .error e => .error e
    | .ok none => .error .invalidResponse
    | .ok (some task) =>
        if (task.get "name").bind Value.asStr ≠ some "osd/delete" ∨
            (task.pointer "/metadata/svc_id").bind Value.asU64 ≠
              expectedOsdId.map UInt32.toUInt64 then .error .invalidResponse
        else .ok task

/-- What a call asks of its surroundings.  `lock` waits for the lock of the token cache and answers
the cached token; `store` and `unlock` are for its holder.  `progress` sets the dispatch flag. -/
inductive Op where
  | lock
  | store (token : Option String)
  | unlock
  | tryAcquire
  | release
  | progress
  | authenticate (request : Request)
  | send (operation : Operation) (request : Request)

/-- What each operation answers. -/
abbrev Ans : Op → Type
  | .lock => Option String
  | .tryAcquire => Bool
  | .authenticate _ | .send _ _ => Exchange
  | .store _ | .unlock | .release | .progress => Unit

/-- The operations a call awaits; only there it can be dropped. -/
def Op.awaits : Op → Bool
  | .lock | .authenticate _ | .send _ _ => true
  | .store _ | .unlock | .tryAcquire | .release | .progress => false

/-- A call, which may fail. -/
abbrev CephCall := Fallible Ans Error

/-- The credentials of a cluster. -/
structure CephClient where
  username : String
  password : String

/-- What a request that failed on its way says. -/
def failure : Operation → Error
  | .query => .upstreamUnavailable
  | .mutation => .mutationOutcomeUnknown

/-- What a body that is too long says. -/
def tooLarge : Operation → Error
  | .query => .responseTooLarge
  | .mutation => .mutationOutcomeUnknown

/-- The errors of the reader. -/
def readError (operation : Operation) : Http.ReadError → Error
  | .tooLarge => tooLarge operation
  | .broken => failure operation

/-- The body as JSON, an empty one as null. -/
def parseBytes (crates : Crates) (bytes : Bytes) (operation : Operation) : Except Error Value :=
  if bytes.isEmpty then .ok .null
  else match crates.parseJson bytes with
    | some value => .ok value
    | none => .error (match operation with
        | .query => .invalidResponse
        | .mutation => .mutationOutcomeUnknown)

/-- The body of a response, read and parsed. -/
def bodyValue (crates : Crates) (operation : Operation) (body : Http.Body) :
    Except Error Value := do
  parseBytes crates (← (Http.readLimited maxResponseBytes body).mapError (readError operation))
    operation

/-- What an authentication makes of its exchange. -/
def authToken (crates : Crates) : Exchange → Except Error String
  | .failed => .error .upstreamUnavailable
  | .elapsed => .error .timeout
  | .response status body => do
      if status = 401 ∨ status = 403 then throw .unauthorized
      if !Http.isSuccess status then throw .upstreamUnavailable
      let value ← bodyValue crates .query body
      match (value.get "token").bind Value.asStr with
      | none => throw .invalidResponse
      | some token =>
          if token.isEmpty || token.utf8ByteSize > 16 * 1024 || !Text.noControl token then
            throw .invalidResponse
          return token

/-- What a request makes of its exchange. -/
def reply (crates : Crates) (operation : Operation) : Exchange → Except Error UpstreamResponse
  | .failed => .error (failure operation)
  | .elapsed => .error (match operation with
      | .query => .timeout
      | .mutation => .mutationOutcomeUnknown)
  | .response status body =>
      if status = 401 then .error .unauthorized
      else if status = 403 then .error (match operation with
        | .query => .unauthorized
        | .mutation => .mutationRejected)
      else if status = 404 then .error .notFound
      else if !Http.isSuccess status then .error (match operation with
        | .query => if Http.isClientError status then .queryRejected else .upstreamUnavailable
        | .mutation => if Http.isClientError status then .mutationRejected
            else .mutationOutcomeUnknown)
      else match bodyValue crates operation body with
        | .ok value => .ok ⟨status, value⟩
        | .error e => .error e

namespace CephClient

variable (crates : Crates) (client : CephClient)

/-- The login. -/
def authRequest : Request where
  method := .post
  path := "api/auth"
  query := []
  body := some (.object [("password", .string client.password), ("username", .string client.username)])
  accept := apiV1
  token := none

/-- Authenticate, with the cache locked and empty. -/
def login : CephCall String := do
  ensure (crates.joins "api/auth") .invalidArguments
  ensure (← ask Op.tryAcquire) .capacityExhausted
  let exchange ← ask (Op.authenticate client.authRequest)
  ask Op.release
  let token ← answer (authToken crates exchange)
  ask (Op.store (some token))
  return token

/-- The cached token, or a new one. -/
def authenticate : CephCall String := do
  match ← ask Op.lock with
  | some token => do
      ask Op.unlock
      return token
  | none => do
      let result ← attempt (login crates client)
      ask Op.unlock
      answer result

/-- Clear the cache, when it is still `holding` the token. -/
def clear (holding : Bool) : CephCall Unit :=
  if holding then ask (Op.store none) else pure ()

/-- Clear the cache if it still holds the token. -/
def invalidate (token : String) : CephCall Unit := do
  let cached ← ask Op.lock
  clear (decide (cached = some token))
  ask Op.unlock

/-- A mutation sets the dispatch flag. -/
def setProgress : Operation → CephCall Unit
  | .query => pure ()
  | .mutation => ask Op.progress

/-- Send one request with the permit held, the dispatch flag being set right before. -/
def dispatch (operation : Operation) (request : Request) : CephCall UpstreamResponse := do
  setProgress operation
  let exchange ← ask (Op.send operation request)
  ask Op.release
  answer (reply crates operation exchange)

/-- Send one request. -/
def send (operation : Operation) (request : Request) : CephCall UpstreamResponse := do
  ensure (crates.joins request.path) (failure operation)
  ensure (← ask Op.tryAcquire) .capacityExhausted
  dispatch crates operation request

/-- The request of a query, with its token. -/
def queryRequest (method : Method) (path : String) (query : List (String × String))
    (body : Option Value) (accept token : String) : Request :=
  ⟨method, path, query, body, accept, some token⟩

/-- The second attempt of a query, after `rejected` was rejected. -/
def resend (request : String → Request) (rejected : String) : CephCall Value := do
  invalidate rejected
  let token ← authenticate crates client
  return (← send crates .query (request token)).body

/-- Send a query; after a rejected token, once more with a new one. -/
def query (method : Method) (path : String) (query : List (String × String)) (body : Option Value)
    (accept : String) : CephCall Value := do
  let request := queryRequest method path query body accept
  let token ← authenticate crates client
  match ← attempt (send crates .query (request token)) with
  | .error .unauthorized => resend crates client request token
  | .error e => throw e
  | .ok response => return response.body

/-- Send a mutation, with no second attempt. -/
def mutate (method : Method) (path : String) (query : List (String × String))
    (body : Option Value) : CephCall UpstreamResponse := do
  let token ← authenticate crates client
  send crates .mutation ⟨method, path, query, body, apiV1, some token⟩

/-- The path of an OSD, and below it. -/
def osdPath (osdId : UInt32) (suffix : String) : String :=
  "api/osd/" ++ toString osdId.toNat ++ suffix

/-- What a mutation says, by the status of its answer. -/
def mutationResult (cluster action : String) (osdId : Option UInt32) (response : UpstreamResponse) :
    Except Error Value :=
  let id := match osdId with
    | some id => Value.nat id.toUInt64
    | none => .null
  if response.status = 200 then .ok (.object [
    ("action", .string action), ("cluster", .string cluster), ("osd_id", id),
    ("status", .string "completed")])
  else if response.status = 202 then
    match mutationTask response.body action osdId with
    | .error _ => .error .mutationOutcomeUnknown
    | .ok task => .ok (.object [
        ("action", .string action), ("cluster", .string cluster), ("osd_id", id),
        ("status", .string "accepted"), ("task", task)])
  else .error .mutationOutcomeUnknown

/-- `safe_to_destroy`. -/
def safeToDestroy (cluster : String) (osdId : UInt32) : CephCall Value := do
  let ids := "[" ++ toString osdId.toNat ++ "]"
  let value ← query crates client .get "api/osd/safe_to_destroy" [("ids", ids)] none apiV1
  answer (safeToDestroyResult cluster osdId value)

/-- The safe check that stands before a removal. -/
def requireSafe (cluster : String) (osdId : UInt32) : CephCall Unit := do
  let result ← safeToDestroy crates client cluster osdId
  ensure ((result.get "safe_to_destroy").bind Value.asBool == some true) .unsafeToDestroy

/-- What an OSD is marked as. -/
inductive MarkState where
  | «in»
  | out
  | down
  deriving DecidableEq

/-- The two kinds of scrubbing. -/
inductive ScrubKind where
  | normal
  | deep
  deriving DecidableEq

/-- A double is finite unless its exponent is all ones. -/
def isFinite (bits : UInt64) : Bool := bits.toNat / 2 ^ 52 % 2 ^ 11 != 2047

/-- `mark_with_progress`. -/
def markWithProgress (cluster : String) (osdId : UInt32) (state : MarkState) : CephCall Value := do
  let action := match state with
    | .in => "in"
    | .out => "out"
    | .down => "down"
  let response ← mutate crates client .put (osdPath osdId "/mark") []
    (some (.object [("action", .string action)]))
  answer (mutationResult cluster "osd.mark" (some osdId) response)

/-- `reweight_with_progress`. -/
def reweightWithProgress (cluster : String) (osdId : UInt32) (weight : UInt64) :
    CephCall Value := do
  let value := if isFinite weight then .number (.float weight) else .null
  let response ← mutate crates client .post (osdPath osdId "/reweight") []
    (some (.object [("weight", value)]))
  answer (mutationResult cluster "osd.reweight" (some osdId) response)

/-- `scrub_with_progress`. -/
def scrubWithProgress (cluster : String) (osdId : UInt32) (kind : ScrubKind) : CephCall Value := do
  let deep := if kind = .deep then "true" else "false"
  let response ← mutate crates client .post (osdPath osdId "/scrub") [("deep", deep)] (some .null)
  answer (mutationResult cluster "osd.scrub" (some osdId) response)

/-- `destroy_with_progress`: the safe check, then the request. -/
def destroyWithProgress (cluster : String) (osdId : UInt32) : CephCall Value := do
  requireSafe crates client cluster osdId
  let response ← mutate crates client .post (osdPath osdId "/destroy") [] (some .null)
  answer (mutationResult cluster "osd.destroy" (some osdId) response)

/-- `purge_with_progress`, alike. -/
def purgeWithProgress (cluster : String) (osdId : UInt32) : CephCall Value := do
  requireSafe crates client cluster osdId
  let response ← mutate crates client .post (osdPath osdId "/purge") [] (some .null)
  answer (mutationResult cluster "osd.purge" (some osdId) response)

end CephClient

/-- What a call of `ceph.exec` asks for. -/
inductive ExecCommand where
  | mark (cluster : String) (osdId : UInt32) (state : CephClient.MarkState)
  | reweight (cluster : String) (osdId : UInt32) (weight : UInt64)
  | scrub (cluster : String) (osdId : UInt32) (kind : CephClient.ScrubKind)
  | destroy (cluster : String) (osdId : UInt32)
  | purge (cluster : String) (osdId : UInt32)

namespace ExecCommand

/-- The cluster it is about. -/
def cluster : ExecCommand → String
  | mark cluster _ _ | reweight cluster _ _ | scrub cluster _ _ | destroy cluster _
  | purge cluster _ => cluster

/-- The OSD it is about. -/
def osdId : ExecCommand → UInt32
  | mark _ osdId _ | reweight _ osdId _ | scrub _ osdId _ | destroy _ osdId
  | purge _ osdId => osdId

/-- The operation of a command. -/
def operation (crates : Crates) (client : CephClient) : ExecCommand → CephCall Value
  | mark cluster osdId state => client.markWithProgress crates cluster osdId state
  | reweight cluster osdId weight => client.reweightWithProgress crates cluster osdId weight
  | scrub cluster osdId kind => client.scrubWithProgress crates cluster osdId kind
  | destroy cluster osdId => client.destroyWithProgress crates cluster osdId
  | purge cluster osdId => client.purgeWithProgress crates cluster osdId

end ExecCommand

/-- The clients by the names of their clusters. -/
structure CephCatalog where
  clients : List (String × CephClient)

/-- The dispatch flag after a trace. -/
def progressSet (t : Trace Ans) : Bool :=
  t.any fun e => match e.1 with
    | .progress => true
    | _ => false

/-- The ends of `execute`: the events, the operation awaited if the deadline dropped the call, and
the result. -/
inductive CephCatalog.Executes (crates : Crates) (catalog : CephCatalog) (command : ExecCommand) :
    Trace Ans → Option Op → Except Error Value → Prop
  | unknownCluster (h : catalog.clients.lookup command.cluster = none) :
      Executes crates catalog command [] none (.error .invalidArguments)
  | finished {client : CephClient} {t : Trace Ans} {r : Except Error Value}
      (hclient : catalog.clients.lookup command.cluster = some client)
      (h : Reaches (command.operation crates client).run t (.done r)) :
      Executes crates catalog command t none r
  | elapsed {client : CephClient} {t : Trace Ans} {op : Op}
      {next : Ans op → Program Op Ans (Except Error Value)}
      (hclient : catalog.clients.lookup command.cluster = some client)
      (h : Reaches (command.operation crates client).run t (.call op next))
      (hawaits : op.awaits = true) :
      Executes crates catalog command t (some op)
        (.error (if progressSet t then .mutationOutcomeUnknown else .timeout))

end Ceph
