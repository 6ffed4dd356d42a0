import HomelabMcp.CephClient

/-!
# Ceph mutations

Two laws of the mutations of the tools, over every answer of the Dashboard, every failure and every
moment of a timeout.

* `dispatch_outcome_law`: the request of a mutation is issued once at most, an error that promises
  that nothing happened means that it was not issued, and once it was issued the result follows
  from the answer of the Dashboard to it.
* `removal_gated`: an OSD is destroyed or purged only after the Dashboard has answered, in the same
  call, that just this OSD is safe to destroy.

Both follow a call with a monitor of its trace.  What comes before the request of the mutation is
the same for both and is followed once (`Preliminary`).
-/

namespace Ceph

open Interaction
open Http (Exchange)
open Json (Value)
open Monitor (history)

variable {crates : Crates} {client : CephClient} {may : Trace Ans → Op → Prop}
  {I : Trace Ans → Prop} {allowed : Request → Prop} {t : Trace Ans}

/-- What a call issues before its mutation, its queries being `allowed`. -/
def Early (allowed : Request → Prop) : Op → Prop
  | .send .query request => allowed request
  | .send .mutation _ | .progress => False
  | .lock | .store _ | .unlock | .tryAcquire | .release | .authenticate _ => True

/-- While `I` holds, what comes before the mutation may be issued, and it keeps `I`. -/
def Preliminary (may : Trace Ans → Op → Prop) (I : Trace Ans → Prop)
    (allowed : Request → Prop) : Prop :=
  ∀ t op, I t → Early allowed op → may t op ∧ ∀ answer, I (t ++ [⟨op, answer⟩])

/-- An early operation keeps the invariant, whatever is answered. -/
theorem Preliminary.call (h : Preliminary may I allowed) (ht : I t) {α : Type} {op : Op}
    (hop : Early allowed op) {next : Ans op → Program Op Ans α} {Q : Trace Ans → α → Prop}
    (hnext : ∀ answer, I (t ++ [⟨op, answer⟩]) →
      (history may).wp (next answer) (t ++ [⟨op, answer⟩]) Q) :
    (history may).wp (.call op next) t Q :=
  ⟨(h t op ht hop).1, fun answer => hnext answer ((h t op ht hop).2 answer)⟩

/-- A login is early. -/
theorem Preliminary.login (h : Preliminary may I allowed) (ht : I t) :
    (history may).wp (client.login crates).run t fun t' _ => I t' := by
  unfold CephClient.login
  rw [Monitor.wp_run_bind]
  refine Monitor.wp_run_ensure _ (fun _ => ?_) fun _ => ht
  refine h.call ht (by trivial) fun granted ht => ?_
  cases granted with
  | false => exact ht
  | true =>
      refine h.call ht (by trivial) fun exchange ht => h.call ht (by trivial) fun _ ht => ?_
      show (history may).wp (answer (authToken crates exchange) >>= _).run _ _
      rw [Monitor.wp_run_bind, Monitor.wp_run_answer]
      cases authToken crates exchange with
      | error e => exact ht
      | ok token => exact h.call ht (by trivial) fun _ ht => ht

/-- So is looking for a token. -/
theorem Preliminary.authenticate (h : Preliminary may I allowed) (ht : I t) :
    (history may).wp (client.authenticate crates).run t fun t' _ => I t' := by
  refine h.call ht (by trivial) fun cached ht => ?_
  cases cached with
  | some token => exact h.call ht (by trivial) fun _ ht => ht
  | none =>
      show (history may).wp (attempt (client.login crates) >>= _).run _ _
      rw [Monitor.wp_run_bind, Monitor.wp_run_attempt]
      refine Monitor.wp_mono _ (h.login ht) fun t' r ht' => ?_
      exact h.call ht' (by trivial) fun _ ht => ht

/-- So is giving one up. -/
theorem Preliminary.invalidate (h : Preliminary may I allowed) (ht : I t) (token : String) :
    (history may).wp (CephClient.invalidate token).run t fun t' _ => I t' := by
  refine h.call ht (by trivial) fun cached ht => ?_
  show (history may).wp (CephClient.clear (decide (cached = some token)) >>= _).run _ _
  cases decide (cached = some token) with
  | false => exact h.call ht (by trivial) fun _ ht => ht
  | true => exact h.call ht (by trivial) fun _ ht => h.call ht (by trivial) fun _ ht => ht

/-- A query that succeeds got a response for its value. -/
def Answered (crates : Crates) (request : String → Request) (t : Trace Ans)
    (response : UpstreamResponse) : Prop :=
  ∃ token exchange, (⟨.send .query (request token), exchange⟩ : Event Ans) ∈ t ∧
    reply crates .query exchange = .ok response

/-- A query that may be sent is sent, and what it returns was answered to it. -/
theorem Preliminary.send (h : Preliminary may I allowed) (ht : I t)
    (request : String → Request) {token : String} (hrequest : allowed (request token)) :
    (history may).wp (CephClient.send crates .query (request token)).run t fun t' r =>
      I t' ∧ ∀ response, r = .ok response → Answered crates request t' response := by
  unfold CephClient.send
  rw [Monitor.wp_run_bind]
  refine Monitor.wp_run_ensure _ (fun _ => ?_) fun _ => ⟨ht, nofun⟩
  refine h.call ht (by trivial) fun granted ht => ?_
  cases granted with
  | false => exact ⟨ht, nofun⟩
  | true =>
      refine h.call ht (by exact hrequest) fun exchange ht => h.call ht (by trivial) fun _ ht => ?_
      exact ⟨ht, fun response hr => ⟨token, exchange, by simp, hr⟩⟩

/-- The same of the second request, after a rejected token. -/
theorem Preliminary.resend (h : Preliminary may I allowed) (ht : I t)
    {request : String → Request} (hrequest : ∀ token, allowed (request token)) (rejected : String) :
    (history may).wp (client.resend crates request rejected).run t fun t' r =>
      I t' ∧ ∀ value, r = .ok value → ∃ status, Answered crates request t' ⟨status, value⟩ := by
  unfold CephClient.resend
  rw [Monitor.wp_run_bind]
  refine Monitor.wp_mono _ (h.invalidate ht rejected) fun t₁ r₁ ht => ?_
  rcases r₁ with e | ⟨⟩
  · exact ⟨ht, nofun⟩
  simp only [Monitor.wp_run_bind]
  refine Monitor.wp_mono _ (h.authenticate ht) fun t₂ r₂ ht => ?_
  rcases r₂ with e | token
  · exact ⟨ht, nofun⟩
  refine Monitor.wp_mono _ (h.send ht request (hrequest token)) fun t₃ r₃ ⟨ht, hsent⟩ => ?_
  rcases r₃ with e | response
  · exact ⟨ht, nofun⟩
  · refine ⟨ht, fun value hvalue => ?_⟩
    obtain rfl : response.body = value := Except.ok.inj hvalue
    exact ⟨_, hsent _ rfl⟩

/-- A query keeps `I`, and its value is that of a response to its request. -/
theorem Preliminary.query (h : Preliminary may I allowed) (ht : I t) {method : Method}
    {path accept : String} {parameters : List (String × String)} {body : Option Value}
    (hrequest : ∀ token,
      allowed (CephClient.queryRequest method path parameters body accept token)) :
    (history may).wp (client.query crates method path parameters body accept).run t fun t' r =>
      I t' ∧ ∀ value, r = .ok value → ∃ status, Answered crates
        (CephClient.queryRequest method path parameters body accept) t' ⟨status, value⟩ := by
  unfold CephClient.query
  rw [Monitor.wp_run_bind]
  refine Monitor.wp_mono _ (h.authenticate ht) fun t₁ r₁ ht => ?_
  rcases r₁ with e | token
  · exact ⟨ht, nofun⟩
  show (history may).wp (attempt _ >>= _).run _ _
  rw [Monitor.wp_run_bind, Monitor.wp_run_attempt]
  refine Monitor.wp_mono _ (h.send ht _ (hrequest token)) fun t₂ r₂ ⟨ht, hsent⟩ => ?_
  rcases r₂ with e | response
  · cases e with
    | unauthorized => exact h.resend ht hrequest token
    | _ => exact ⟨ht, nofun⟩
  · refine ⟨ht, fun value hvalue => ?_⟩
    obtain rfl : response.body = value := Except.ok.inj hvalue
    exact ⟨_, hsent _ rfl⟩

/-- The request that asks whether an OSD is safe to destroy. -/
def safeCheck (osdId : UInt32) (token : String) : Request where
  method := .get
  path := "api/osd/safe_to_destroy"
  query := [("ids", "[" ++ toString osdId.toNat ++ "]")]
  body := none
  accept := apiV1
  token := some token

/-- The Dashboard has answered that the OSD is safe to destroy: with a success, a body that
normalizes, and the boolean `true`. -/
def CheckedSafe (crates : Crates) (cluster : String) (osdId : UInt32) (t : Trace Ans) : Prop :=
  ∃ token status body value result,
    (⟨.send .query (safeCheck osdId token), .response status body⟩ : Event Ans) ∈ t ∧
    Http.isSuccess status ∧ bodyValue crates .query body = .ok value ∧
    safeToDestroyResult cluster osdId value = .ok result ∧
    value.get "is_safe_to_destroy" = some (.bool true)

/-- A check stays made. -/
theorem CheckedSafe.append {cluster : String} {osdId : UInt32}
    (h : CheckedSafe crates cluster osdId t) (u : Trace Ans) :
    CheckedSafe crates cluster osdId (t ++ u) := by
  obtain ⟨token, status, body, value, result, hmem, hrest⟩ := h
  exact ⟨token, status, body, value, result, List.mem_append_left u hmem, hrest⟩

/-- A success is read. -/
theorem reply_success {operation : Operation} {status : Nat} {body : Http.Body}
    (h : Http.isSuccess status) :
    reply crates operation (.response status body) =
      (bodyValue crates operation body).map (UpstreamResponse.mk status) := by
  have hrange : 200 ≤ status ∧ status < 300 := by simpa [Http.isSuccess] using h
  have h401 : status ≠ 401 := by omega
  have h403 : status ≠ 403 := by omega
  have h404 : status ≠ 404 := by omega
  simp only [reply, h401, h403, h404, h, if_false, Bool.not_true, Bool.false_eq_true]
  cases bodyValue crates operation body <;> rfl

/-- Everything else is an error. -/
theorem reply_failure (crates : Crates) (operation : Operation) {status : Nat}
    (body : Http.Body) (h : ¬ Http.isSuccess status) :
    ∃ e, reply crates operation (.response status body) = .error e := by
  simp only [reply, eq_false_of_ne_true h, Bool.not_false, if_true]
  split_ifs <;> exact ⟨_, rfl⟩

/-- A request succeeds with the status and the parsed body of a successful response. -/
theorem reply_eq_ok {operation : Operation} {exchange : Exchange} {response : UpstreamResponse}
    (h : reply crates operation exchange = .ok response) :
    ∃ body, exchange = .response response.status body ∧ Http.isSuccess response.status ∧
      bodyValue crates operation body = .ok response.body := by
  cases exchange with
  | failed => cases h
  | elapsed => cases operation <;> cases h
  | response status body =>
      by_cases hsuccess : Http.isSuccess status
      · rw [reply_success hsuccess] at h
        cases hbody : bodyValue crates operation body with
        | error e => simp [hbody, Except.map] at h
        | ok value =>
            obtain rfl : ⟨status, value⟩ = response := by simpa [hbody, Except.map] using h
            exact ⟨body, rfl, hsuccess, hbody⟩
      · obtain ⟨e, he⟩ := reply_failure crates operation body hsuccess
        rw [he] at h
        cases h

/-- The normalized answer says what the answer says. -/
theorem get_of_safeToDestroyResult {cluster : String} {osdId : UInt32} {value result : Value}
    (h : safeToDestroyResult cluster osdId value = .ok result)
    (hsafe : (result.get "safe_to_destroy").bind Value.asBool = some true) :
    value.get "is_safe_to_destroy" = some (.bool true) := by
  unfold safeToDestroyResult at h
  split at h
  · cases h
  · next safe hvalue =>
      simp only [bind_eq_ok] at h
      obtain ⟨active, -, missing, -, stored, -, message, -, h⟩ := h
      obtain rfl := Except.ok.inj h
      obtain rfl : safe = true := Option.some.inj hsafe
      obtain ⟨member, hget, hmember⟩ := Option.bind_eq_some_iff.mp hvalue
      rw [hget, Value.asBool_eq_some.mp hmember]

/-- `require_safe` passes only when the OSD was found safe. -/
theorem Preliminary.requireSafe {cluster : String} {osdId : UInt32}
    (h : Preliminary may I allowed) (ht : I t) (hcheck : ∀ token, allowed (safeCheck osdId token)) :
    (history may).wp (client.requireSafe crates cluster osdId).run t fun t' r =>
      I t' ∧ (r = .ok () → CheckedSafe crates cluster osdId t') := by
  unfold CephClient.requireSafe CephClient.safeToDestroy
  simp only [Monitor.wp_run_bind]
  refine Monitor.wp_mono _ (h.query ht hcheck) fun t' r hquery => ?_
  obtain ⟨ht', hvalue⟩ := hquery
  have hrefused : ∀ e, (.error e : Except Error Unit) = .ok () →
      CheckedSafe crates cluster osdId t' := by
    intro e h
    cases h
  rcases r with e | value
  · exact ⟨ht', hrefused e⟩
  simp only [Monitor.wp_run_answer]
  cases hresult : safeToDestroyResult cluster osdId value with
  | error e => exact ⟨ht', hrefused e⟩
  | ok result =>
      refine Monitor.wp_run_ensure _ (fun hsafe => ⟨ht', fun _ => ?_⟩) fun _ => ⟨ht', hrefused _⟩
      obtain ⟨status, token, exchange, hmem, hreply⟩ := hvalue value rfl
      obtain ⟨body, rfl, hsuccess, hbody⟩ := reply_eq_ok hreply
      exact ⟨token, status, body, value, result, hmem, hsuccess, hbody, hresult,
        get_of_safeToDestroyResult hresult (by simpa using hsafe)⟩

/-- A mutation authenticates, sets the flag and sends its request once. -/
theorem Preliminary.mutate (h : Preliminary may I allowed) (ht : I t) {method : Method}
    {path : String} {parameters : List (String × String)} {body : Option Value}
    {Q : Trace Ans → Except Error UpstreamResponse → Prop}
    (hearly : ∀ t' e, I t' → Q t' (.error e))
    (hsend : ∀ t' token, I t' →
      (history may).wp (CephClient.dispatch crates .mutation
        ⟨method, path, parameters, body, apiV1, some token⟩).run t' Q) :
    (history may).wp (client.mutate crates method path parameters body).run t Q := by
  unfold CephClient.mutate CephClient.send
  rw [Monitor.wp_run_bind]
  refine Monitor.wp_mono _ (h.authenticate ht) fun t₁ r₁ ht => ?_
  rcases r₁ with e | token
  · exact hearly _ _ ht
  show (history may).wp (ensure _ _ >>= _).run _ _
  rw [Monitor.wp_run_bind]
  refine Monitor.wp_run_ensure _ (fun _ => ?_) fun _ => hearly _ _ ht
  refine h.call ht (by trivial) fun granted ht => ?_
  cases granted with
  | false => exact hearly _ _ ht
  | true => exact hsend _ token ht

namespace ExecCommand

/-- The name under which a command reports. -/
def action : ExecCommand → String
  | mark _ _ _ => "osd.mark"
  | reweight _ _ _ => "osd.reweight"
  | scrub _ _ _ => "osd.scrub"
  | destroy _ _ => "osd.destroy"
  | purge _ _ => "osd.purge"

/-- The result of a command from the response to its request. -/
def result (command : ExecCommand) : UpstreamResponse → Except Error Value :=
  CephClient.mutationResult command.cluster command.action (some command.osdId)

end ExecCommand

/-- The two ways to remove an OSD. -/
inductive Removal where
  | destroy
  | purge

namespace Removal

/-- Where the request of a removal goes, below the OSD. -/
def suffix : Removal → String
  | destroy => "/destroy"
  | purge => "/purge"

/-- The command of a removal. -/
def command : Removal → String → UInt32 → ExecCommand
  | destroy => .destroy
  | purge => .purge

/-- `destroy_with_progress` or `purge_with_progress`. -/
def withProgress (crates : Crates) (client : CephClient) :
    Removal → String → UInt32 → CephCall Value
  | destroy => client.destroyWithProgress crates
  | purge => client.purgeWithProgress crates

/-- The request that removes an OSD: no query parameter, and null as its body. -/
def request (removal : Removal) (osdId : UInt32) (token : String) : Request where
  method := .post
  path := CephClient.osdPath osdId removal.suffix
  query := []
  body := some .null
  accept := apiV1
  token := some token

end Removal

/-- Queries are safe checks of the OSD; the removal is sent only when the OSD was found safe. -/
def mayRemove (crates : Crates) (removal : Removal) (cluster : String) (osdId : UInt32)
    (t : Trace Ans) : Op → Prop
  | .send .query request => ∃ token, request = safeCheck osdId token
  | .send .mutation request =>
      (∃ token, request = removal.request osdId token) ∧ CheckedSafe crates cluster osdId t
  | _ => True

section Removal

variable {removal : Removal} {cluster : String} {osdId : UInt32}

/-- Before the removal only safe checks are sent, and what they found stays found. -/
theorem preliminary_mayRemove (crates : Crates) (removal : Removal) (cluster : String)
    (osdId : UInt32) {I : Trace Ans → Prop} (hI : ∀ t e, I t → I (t ++ [e])) :
    Preliminary (mayRemove crates removal cluster osdId) I
      fun request => ∃ token, request = safeCheck osdId token := by
  intro t op ht hop
  refine ⟨?_, fun answer => hI t _ ht⟩
  cases op with
  | send operation request =>
      cases operation with
      | query => exact hop
      | mutation => exact hop.elim
  | _ => trivial

/-- A removal is the safe check, the request and the reading of its answer. -/
theorem Removal.withProgress_eq :
    removal.withProgress crates client cluster osdId = (do
      client.requireSafe crates cluster osdId
      let response ← client.mutate crates .post (CephClient.osdPath osdId removal.suffix) []
        (some .null)
      answer ((removal.command cluster osdId).result response)) := by
  cases removal <;> rfl

/-- Every request of a removal waits for the check of the same call. -/
theorem removal_spec :
    (history (mayRemove crates removal cluster osdId)).wp
      (removal.withProgress crates client cluster osdId).run [] fun _ _ => True := by
  have hcheck := preliminary_mayRemove crates removal cluster osdId (I := fun _ => True)
    fun _ _ _ => trivial
  have hsafe := preliminary_mayRemove crates removal cluster osdId
    (I := CheckedSafe crates cluster osdId) fun _ e h => h.append [e]
  rw [Removal.withProgress_eq, Monitor.wp_run_bind]
  refine Monitor.wp_mono _ (hcheck.requireSafe trivial fun token => ⟨token, rfl⟩)
    fun t₁ r₁ ⟨_, hfound⟩ => ?_
  rcases r₁ with e | ⟨⟩
  · trivial
  show (history _).wp (client.mutate crates _ _ _ _ >>= _).run _ _
  rw [Monitor.wp_run_bind]
  refine Monitor.wp_mono _ (hsafe.mutate (Q := fun _ _ => True) (hfound rfl)
    (fun _ _ _ => trivial) fun t₂ token ht₂ => ?_) fun t₃ r₃ _ => ?_
  · exact ⟨trivial, fun _ => ⟨⟨⟨token, rfl⟩, ht₂.append _⟩, fun _ => ⟨trivial, fun _ => trivial⟩⟩⟩
  · cases r₃ <;> trivial

/-- **A removal is gated by a fresh check.**  Whatever request `destroy_with_progress` or
`purge_with_progress` comes to send, it is a safe check of the OSD, or it is the removal and the
same call has seen the OSD found safe. -/
theorem removal_gated (removal : Removal) (cluster : String) (osdId : UInt32) {t : Trace Ans}
    {operation : Operation} {request : Request}
    {next : Exchange → Program Op Ans (Except Error Value)}
    (h : Reaches (removal.withProgress crates client cluster osdId).run t
      (.call (.send operation request) next)) :
    (operation = .query ∧ ∃ token, request = safeCheck osdId token) ∨
      (operation = .mutation ∧ (∃ token, request = removal.request osdId token) ∧
        CheckedSafe crates cluster osdId t) := by
  have hmay := Monitor.history_pending h removal_spec
  cases operation with
  | query => exact .inl ⟨rfl, hmay⟩
  | mutation => exact .inr ⟨rfl, hmay⟩

/-- A parser that knows the one body the Dashboard sends in the samples. -/
def sampleCrates : Crates where
  parseJson bytes :=
    if bytes = Text.ascii "\x7b\"is_safe_to_destroy\":true\x7d" then
      some (.object [("is_safe_to_destroy", .bool true)])
    else none
  joins _ := true

/-- The events up to the request of a purge, with a cached token. -/
def sampleTrace : Trace Ans :=
  [⟨.lock, some "token"⟩, ⟨.unlock, ()⟩, ⟨.tryAcquire, true⟩,
    ⟨.send .query (safeCheck 3 "token"),
      .response 200 (.whole (Text.ascii "\x7b\"is_safe_to_destroy\":true\x7d"))⟩,
    ⟨.release, ()⟩, ⟨.lock, some "token"⟩, ⟨.unlock, ()⟩, ⟨.tryAcquire, true⟩, ⟨.progress, ()⟩]

/-- A purge that comes to its request. -/
theorem reaches_purge : ∃ next, Reaches
    (Removal.purge.withProgress sampleCrates ⟨"admin", "secret"⟩ "main" 3).run sampleTrace
    (.call (.send .mutation (Removal.purge.request 3 "token")) next) :=
  ⟨_, .step (.step (.step (.step (.step (.step (.step (.step (.step (.refl _)))))))))⟩

/-- The purge of OSD 3 is sent after its check. -/
theorem removal_gated_purge : CheckedSafe sampleCrates "main" 3 sampleTrace := by
  obtain ⟨next, h⟩ := reaches_purge
  rcases removal_gated .purge "main" 3 h with ⟨hquery, -⟩ | ⟨-, -, hsafe⟩
  · cases hquery
  · exact hsafe

end Removal

/-- What became of the requests of mutations in a trace. -/
def mutationExchanges (t : Trace Ans) : List Exchange :=
  t.filterMap fun
    | ⟨.send .mutation _, exchange⟩ => some exchange
    | _ => none

/-- Whether an operation sends a mutation. -/
def Op.isMutation : Op → Bool
  | .send .mutation _ => true
  | _ => false

/-- Nothing was dispatched. -/
def Undispatched (t : Trace Ans) : Prop := progressSet t = false ∧ mutationExchanges t = []

/-- The request of a mutation is issued once, with the flag set; all else that is awaited comes
before the flag. -/
def mayIssue (t : Trace Ans) : Op → Prop
  | .send .mutation _ => progressSet t = true ∧ mutationExchanges t = []
  | .lock | .authenticate _ | .send .query _ => Undispatched t
  | _ => True

/-- Progress is reported in one stretch or in the other. -/
theorem progressSet_append (t u : Trace Ans) :
    progressSet (t ++ u) = (progressSet t || progressSet u) := List.any_append

/-- The mutations of both stretches, in order. -/
theorem mutationExchanges_append (t u : Trace Ans) :
    mutationExchanges (t ++ u) = mutationExchanges t ++ mutationExchanges u :=
  List.filterMap_append

/-- Nothing is dispatched in two stretches where nothing is in either. -/
theorem Undispatched.append {t u : Trace Ans} (ht : Undispatched t) (hu : Undispatched u) :
    Undispatched (t ++ u) := by
  simp [Undispatched, progressSet_append, mutationExchanges_append, ht.1, ht.2, hu.1, hu.2]

/-- Nothing early dispatches a mutation. -/
theorem undispatched_early {op : Op} (hop : Early allowed op) (answer : Ans op) :
    Undispatched [⟨op, answer⟩] := by
  cases op with
  | send operation request =>
      cases operation with
      | query => exact ⟨rfl, rfl⟩
      | mutation => exact hop.elim
  | progress => exact hop.elim
  | _ => exact ⟨rfl, rfl⟩

/-- The requests before a mutation keep to what may be issued. -/
theorem preliminary_mayIssue : Preliminary mayIssue Undispatched fun _ => True := by
  intro t op ht hop
  refine ⟨?_, fun answer => ht.append (undispatched_early hop answer)⟩
  cases op with
  | send operation request =>
      cases operation with
      | query => exact ht
      | mutation => exact hop.elim
  | progress => exact hop.elim
  | lock | authenticate request => exact ht
  | _ => trivial

section Command

variable {command : ExecCommand}

namespace ExecCommand

/-- The commands whose answer may be a task. -/
def removes : ExecCommand → Bool
  | mark _ _ _ | reweight _ _ _ | scrub _ _ _ => false
  | destroy _ _ | purge _ _ => true

/-- What a command makes of what became of its request. -/
def outcome (crates : Crates) (command : ExecCommand) (exchange : Exchange) :
    Except Error Value := do
  command.result (← reply crates .mutation exchange)

end ExecCommand

/-- The end of a call: an error with nothing dispatched, or the outcome of the one request. -/
def Settled (crates : Crates) (command : ExecCommand) (t : Trace Ans)
    (r : Except Error Value) : Prop :=
  (Undispatched t ∧ ∃ e, r = .error e) ∨
    progressSet t = true ∧ ∃ exchange, mutationExchanges t = [exchange] ∧
      r = command.outcome crates exchange

/-- From before its mutation on, a command settles. -/
theorem settled_mutate (command : ExecCommand) (ht : Undispatched t) {method : Method}
    {path : String} {parameters : List (String × String)} {body : Option Value} :
    (history mayIssue).wp (do
        let response ← client.mutate crates method path parameters body
        answer (command.result response) : CephCall Value).run t (Settled crates command) := by
  rw [Monitor.wp_run_bind]
  refine preliminary_mayIssue.mutate ht (fun t' e ht' => .inl ⟨ht', e, rfl⟩) fun t' token ht' => ?_
  have hflag : ∀ u, progressSet (t' ++ [⟨.progress, ()⟩] ++ u) = true := fun u => by
    rw [progressSet_append, progressSet_append]
    exact Bool.or_eq_true_iff.mpr (.inl (Bool.or_true _))
  have hsent : ∀ u, mutationExchanges (t' ++ [⟨.progress, ()⟩] ++ u) = mutationExchanges u :=
    fun u => by
      rw [mutationExchanges_append, mutationExchanges_append, ht'.2]
      rfl
  refine ⟨trivial, fun ⟨⟩ => ⟨⟨?_, ?_⟩, fun exchange => ⟨trivial, fun ⟨⟩ => ?_⟩⟩⟩
  · simpa using hflag []
  · simpa [mutationExchanges] using hsent []
  show (history mayIssue).wp (answer (reply crates .mutation exchange)).run _ _
  rw [Monitor.wp_run_answer]
  have hsettled : ∀ r, r = command.outcome crates exchange →
      Settled crates command (t' ++ [⟨.progress, ()⟩] ++
        [⟨.send .mutation ⟨method, path, parameters, body, apiV1, some token⟩, exchange⟩] ++
        [⟨.release, ()⟩]) r := by
    rintro r rfl
    refine .inr ⟨?_, exchange, ?_, rfl⟩
    · rw [List.append_assoc]
      exact hflag _
    · rw [List.append_assoc, hsent]
      rfl
  unfold ExecCommand.outcome at hsettled
  cases hreply : reply crates .mutation exchange with
  | ok response => exact hsettled _ (by rw [hreply]; rfl)
  | error e => exact hsettled _ (by rw [hreply]; rfl)

/-- A removal ends as the law says. -/
theorem settled_removal (removal : Removal) {cluster : String} {osdId : UInt32} :
    (history mayIssue).wp (removal.withProgress crates client cluster osdId).run []
      (Settled crates (removal.command cluster osdId)) := by
  rw [Removal.withProgress_eq, Monitor.wp_run_bind]
  refine Monitor.wp_mono _ (preliminary_mayIssue.requireSafe ⟨rfl, rfl⟩ fun _ => trivial)
    fun t r ⟨ht, _⟩ => ?_
  rcases r with e | ⟨⟩
  · exact .inl ⟨ht, e, rfl⟩
  · exact settled_mutate _ ht

/-- So does every command. -/
theorem settled_operation (command : ExecCommand) :
    (history mayIssue).wp (command.operation crates client).run [] (Settled crates command) := by
  cases command with
  | mark cluster osdId state => exact settled_mutate (.mark cluster osdId state) ⟨rfl, rfl⟩
  | reweight cluster osdId weight =>
      exact settled_mutate (.reweight cluster osdId weight) ⟨rfl, rfl⟩
  | scrub cluster osdId kind => exact settled_mutate (.scrub cluster osdId kind) ⟨rfl, rfl⟩
  | destroy cluster osdId => exact settled_removal .destroy
  | purge cluster osdId => exact settled_removal .purge

/-- The task of a removal, normalized. -/
def deleteTask (osdId : UInt32) : Value :=
  .object [("metadata", .object [("svc_id", .nat osdId.toUInt64)]), ("name", .string "osd/delete")]

/-- The answers that confirm a command: a success whose body is empty or parses, with status 200,
or with status 202 and the task that removes this OSD. -/
def Confirmed (crates : Crates) (command : ExecCommand) : Exchange → Prop
  | .failed | .elapsed => False
  | .response status body => ∃ value, bodyValue crates .mutation body = .ok value ∧
      (status = 200 ∨
        status = 202 ∧ command.removes ∧ task value = .ok (some (deleteTask command.osdId)))

/-- The answers that reject a request. -/
def Rejected : Exchange → Prop
  | .failed | .elapsed => False
  | .response status _ => Http.isClientError status

/-- The errors for a rejected request. -/
def rejections : List Error := [.unauthorized, .notFound, .mutationRejected]

/-- A body of a mutation that cannot be read leaves the outcome unknown. -/
theorem bodyValue_mutation {body : Http.Body} {e : Error}
    (h : bodyValue crates .mutation body = .error e) : e = .mutationOutcomeUnknown := by
  unfold bodyValue at h
  cases hread : Http.readLimited maxResponseBytes body with
  | error e' =>
      rw [hread] at h
      cases e' <;> exact (Except.error.inj h).symm
  | ok bytes =>
      replace h : parseBytes crates bytes .mutation = .error e := by rwa [hread] at h
      unfold parseBytes at h
      split_ifs at h
      split at h
      · cases h
      · exact (Except.error.inj h).symm

/-- A mutation's request fails with a rejection exactly when it was rejected. -/
theorem reply_mutation {exchange : Exchange} {e : Error}
    (h : reply crates .mutation exchange = .error e) :
    e ∈ rejections ∧ Rejected exchange ∨ e = .mutationOutcomeUnknown ∧ ¬ Rejected exchange := by
  cases exchange with
  | failed => exact .inr ⟨(Except.error.inj h).symm, not_false⟩
  | elapsed => exact .inr ⟨(Except.error.inj h).symm, not_false⟩
  | response status body =>
      by_cases hsuccess : Http.isSuccess status
      · refine .inr ⟨?_, ?_⟩
        · rw [reply_success hsuccess] at h
          cases hbody : bodyValue crates .mutation body with
          | ok value => simp [hbody, Except.map] at h
          | error e' =>
              rw [hbody] at h
              rw [← Except.error.inj h]
              exact bodyValue_mutation hbody
        · simp only [Rejected, Http.isClientError, Http.isSuccess] at hsuccess ⊢
          grind
      · simp only [reply, Rejected, rejections] at h ⊢
        grind [Http.isClientError]

/-- A task that is recognised is the removal of one OSD. -/
theorem task_eq_ok {value result : Value} (h : task value = .ok (some result)) :
    ∃ osdId, result = deleteTask osdId := by
  unfold task at h
  split at h
  · cases h
  · split at h
    · cases h
    · split at h
      · cases h
      · next svcId _ => exact ⟨svcId, (Option.some.inj (Except.ok.inj h)).symm⟩
  · cases h

/-- Its name. -/
theorem deleteTask_name (osdId : UInt32) :
    ((deleteTask osdId).get "name").bind Value.asStr = some "osd/delete" := rfl

/-- Its OSD. -/
theorem deleteTask_svcId (osdId : UInt32) :
    ((deleteTask osdId).pointer "/metadata/svc_id").bind Value.asU64 = some osdId.toUInt64 := rfl

/-- A removal reads the task of its own OSD, and no other. -/
theorem mutationTask_eq_ok (value : Value) (action : String) (osdId : UInt32) :
    (∃ result, mutationTask value action (some osdId) = .ok result) ↔
      (action = "osd.destroy" ∨ action = "osd.purge") ∧
        task value = .ok (some (deleteTask osdId)) := by
  unfold mutationTask
  by_cases haction : action = "osd.destroy" ∨ action = "osd.purge"
  · rw [if_neg (by tauto), and_iff_right haction]
    cases htask : task value with
    | error e => exact ⟨nofun, nofun⟩
    | ok found =>
        cases found with
        | none => exact ⟨nofun, nofun⟩
        | some result =>
            obtain ⟨svcId, rfl⟩ := task_eq_ok htask
            dsimp only
            rw [deleteTask_name, deleteTask_svcId]
            by_cases hid : svcId = osdId
            · simp [hid]
            · have hwide : svcId.toUInt64 ≠ osdId.toUInt64 := fun h =>
                hid (UInt32.toNat_inj.mp (by simpa using congrArg UInt64.toNat h))
              have htasks : deleteTask svcId ≠ deleteTask osdId := fun h => hwide (by
                rw [← Option.some.injEq, ← deleteTask_svcId, h, deleteTask_svcId])
              simp [hwide, htasks]
  · rw [if_pos (by tauto)]
    exact ⟨nofun, fun h => absurd h.1 haction⟩

/-- An answer is a result where the mutation is done, or accepted with its task. -/
theorem result_eq_ok {response : UpstreamResponse} :
    (∃ value, command.result response = .ok value) ↔
      response.status = 200 ∨ response.status = 202 ∧ command.removes ∧
        task response.body = .ok (some (deleteTask command.osdId)) := by
  have haction : (command.action = "osd.destroy" ∨ command.action = "osd.purge") ↔
      command.removes = true := by
    cases command <;> simp [ExecCommand.action, ExecCommand.removes]
  have htask := mutationTask_eq_ok response.body command.action command.osdId
  rw [haction] at htask
  unfold ExecCommand.result CephClient.mutationResult
  by_cases h200 : response.status = 200
  · simp [h200]
  by_cases h202 : response.status = 202
  · rw [if_neg h200, if_pos h202, or_iff_right h200, and_iff_right h202, ← htask]
    cases mutationTask response.body command.action (some command.osdId) with
    | ok task => exact ⟨fun _ => ⟨task, rfl⟩, fun _ => ⟨_, rfl⟩⟩
    | error e => exact ⟨nofun, nofun⟩
  · simp [h200, h202]

/-- Every other answer leaves the outcome unknown. -/
theorem result_error {response : UpstreamResponse} {e : Error}
    (h : command.result response = .error e) : e = .mutationOutcomeUnknown := by
  unfold ExecCommand.result CephClient.mutationResult at h
  grind

/-- A confirming answer is a success. -/
theorem Confirmed.reply {exchange : Exchange} (h : Confirmed crates command exchange) :
    ∃ response, reply crates .mutation exchange = .ok response := by
  cases exchange with
  | failed => exact h.elim
  | elapsed => exact h.elim
  | response status body =>
      obtain ⟨value, hbody, hstatus⟩ := h
      have hsuccess : Http.isSuccess status := by
        rcases hstatus with rfl | ⟨rfl, -⟩ <;> rfl
      exact ⟨⟨status, value⟩, by rw [reply_success hsuccess, hbody]; rfl⟩

/-- **The three outcomes** of the request of a mutation: confirmed, rejected, or unknown. -/
theorem outcome_cases (crates : Crates) (command : ExecCommand) (exchange : Exchange) :
    (Confirmed crates command exchange ∧ ∃ value, command.outcome crates exchange = .ok value) ∨
    (Rejected exchange ∧ ∃ e ∈ rejections, command.outcome crates exchange = .error e) ∨
    (¬ Confirmed crates command exchange ∧ ¬ Rejected exchange ∧
      command.outcome crates exchange = .error .mutationOutcomeUnknown) := by
  unfold ExecCommand.outcome
  cases hreply : reply crates .mutation exchange with
  | error e =>
      rcases reply_mutation hreply with ⟨hmem, hrejected⟩ | ⟨rfl, hrejected⟩
      · exact .inr (.inl ⟨hrejected, e, hmem, rfl⟩)
      · refine .inr (.inr ⟨fun hconfirmed => ?_, hrejected, rfl⟩)
        obtain ⟨response, hok⟩ := hconfirmed.reply
        rw [hreply] at hok
        cases hok
  | ok response =>
      obtain ⟨body, rfl, hsuccess, hbody⟩ := reply_eq_ok hreply
      have hconfirmed : Confirmed crates command (.response response.status body) ↔
          ∃ value, command.result response = .ok value := by
        rw [result_eq_ok]
        refine ⟨fun ⟨value, hvalue, h⟩ => ?_, fun h => ⟨_, hbody, h⟩⟩
        rwa [← Except.ok.inj (hvalue.symm.trans hbody)]
      cases hresult : command.result response with
      | ok value => exact .inl ⟨hconfirmed.mpr ⟨value, hresult⟩, value, hresult⟩
      | error e =>
          obtain rfl := result_error hresult
          refine .inr (.inr ⟨fun h => ?_, fun h => ?_, hresult⟩)
          · obtain ⟨value, hvalue⟩ := hconfirmed.mp h
            rw [hresult] at hvalue
            cases hvalue
          · simp only [Rejected, Http.isSuccess, Http.isClientError] at hsuccess h
            grind

/-- A confirming answer does not reject. -/
theorem Confirmed.not_rejected {exchange : Exchange} (h : Confirmed crates command exchange) :
    ¬ Rejected exchange := by
  cases exchange with
  | failed => exact h.elim
  | elapsed => exact h.elim
  | response status body =>
      obtain ⟨value, -, hstatus⟩ := h
      rcases hstatus with rfl | ⟨rfl, -⟩ <;> simp [Rejected, Http.isClientError]

/-- The errors that promise that nothing was dispatched. -/
def promises : List Error :=
  [.timeout, .capacityExhausted, .upstreamUnavailable, .invalidResponse, .responseTooLarge,
    .invalidArguments, .unsafeToDestroy]

/-- What the result of a command says about the request of its mutation. -/
structure OutcomeLaw (crates : Crates) (command : ExecCommand) (t : Trace Ans)
    (pending : Option Op) (r : Except Error Value) : Prop where
  /-- The request is issued once at most. -/
  once : (mutationExchanges t).length + (if pending.any Op.isMutation then 1 else 0) ≤ 1
  /-- Without the flag it was not issued. -/
  flagged : progressSet t = false → mutationExchanges t = [] ∧ pending.any Op.isMutation = false
  promised : ∀ e ∈ promises, r = .error e → progressSet t = false
  /-- What is reported as done was issued. -/
  performed : ∀ value, r = .ok value → progressSet t = true
  confirmed : progressSet t = true → ((∃ value, r = .ok value) ↔
    ∃ exchange ∈ mutationExchanges t, Confirmed crates command exchange)
  rejected : progressSet t = true → ((∃ e ∈ rejections, r = .error e) ↔
    ∃ exchange ∈ mutationExchanges t, Rejected exchange)
  unknown : progressSet t = true → (∀ exchange ∈ mutationExchanges t,
    ¬ Confirmed crates command exchange ∧ ¬ Rejected exchange) → r = .error .mutationOutcomeUnknown

/-- A call that dispatched nothing, and is not about to, may end in any error. -/
theorem OutcomeLaw.undispatched {pending : Option Op} {e : Error} (ht : Undispatched t)
    (hpending : pending.any Op.isMutation = false) :
    OutcomeLaw crates command t pending (.error e) where
  once := by simp [ht.2, hpending]
  flagged _ := ⟨ht.2, hpending⟩
  promised _ _ _ := ht.1
  performed value h := by cases h
  confirmed h := by simp [ht.1] at h
  rejected h := by simp [ht.1] at h
  unknown h := by simp [ht.1] at h

/-- The deadline passes while the request is under way. -/
theorem OutcomeLaw.awaited {request : Request} (hflag : progressSet t = true)
    (hsent : mutationExchanges t = []) :
    OutcomeLaw crates command t (some (.send .mutation request))
      (.error .mutationOutcomeUnknown) where
  once := by simp [hsent, Op.isMutation]
  flagged h := by simp [hflag] at h
  promised e he h := by
    obtain rfl := Except.error.inj h
    simp [promises] at he
  performed value h := by cases h
  confirmed _ := by simp [hsent]
  rejected _ := by simp [hsent, rejections]
  unknown _ _ := rfl

/-- The request was answered, or failed, or its own time ran out. -/
theorem OutcomeLaw.dispatched {exchange : Exchange} (hflag : progressSet t = true)
    (hsent : mutationExchanges t = [exchange]) :
    OutcomeLaw crates command t none (command.outcome crates exchange) := by
  have hpromises : ∀ e ∈ promises, e ∉ rejections ∧ e ≠ .mutationOutcomeUnknown := by decide
  have honce : (mutationExchanges t).length + 0 ≤ 1 := by simp [hsent]
  have hflagged : progressSet t ≠ false := by simp [hflag]
  rcases outcome_cases crates command exchange with
    ⟨hconfirmed, value, h⟩ | ⟨hrejected, e, he, h⟩ | ⟨hconfirmed, hrejected, h⟩ <;> rw [h]
  · have hrejected := hconfirmed.not_rejected
    exact ⟨honce, fun hf => absurd hf hflagged, nofun, fun _ _ => hflag,
      by simp [hsent, hconfirmed], by simp [hsent, hrejected], by simp [hsent, hconfirmed]⟩
  · have hconfirmed : ¬ Confirmed crates command exchange := fun h => h.not_rejected hrejected
    refine ⟨honce, fun hf => absurd hf hflagged, fun e' he' h' => ?_, fun _ _ => hflag,
      by simp [hsent, hconfirmed], by simp [hsent, hrejected, he], by simp [hsent, hrejected]⟩
    exact absurd (Except.error.inj h' ▸ he) (hpromises e' he').1
  · refine ⟨honce, fun hf => absurd hf hflagged, fun e' he' h' => ?_, fun _ _ => hflag,
      by simp [hsent, hconfirmed], by simp [hsent, hrejected, rejections], fun _ _ => rfl⟩
    exact absurd (Except.error.inj h').symm (hpromises e' he').2

/-- **The outcome law of mutations.**  For every end of `execute`, at whatever operation the
deadline drops it: at most one request of a mutation was issued; the errors that promise that
nothing happened mean that none was, and `ok` that one was; and once one was issued, the result is
`ok` exactly when the answer confirms the command, a rejection exactly when the answer rejects it, and
`mutationOutcomeUnknown` otherwise. -/
theorem dispatch_outcome_law {catalog : CephCatalog} {command : ExecCommand} {t : Trace Ans}
    {pending : Option Op} {r : Except Error Value}
    (h : catalog.Executes crates command t pending r) :
    OutcomeLaw crates command t pending r := by
  cases h with
  | unknownCluster h => exact .undispatched ⟨rfl, rfl⟩ rfl
  | finished hclient h =>
      rcases Monitor.history_finished h (settled_operation command) with
        ⟨ht, e, rfl⟩ | ⟨hflag, exchange, hsent, rfl⟩
      · exact .undispatched ht rfl
      · exact .dispatched hflag hsent
  | @elapsed client t op next hclient h hawaits =>
      have hmay := Monitor.history_pending h (settled_operation command)
      cases op with
      | send operation request =>
          cases operation with
          | query => exact .undispatched hmay rfl
          | mutation =>
              rw [if_pos hmay.1]
              exact .awaited hmay.1 hmay.2
      | lock | authenticate request => exact .undispatched hmay rfl
      | _ => cases hawaits

/-- The events of a mark with a cached token. -/
def sampleMark : Trace Ans :=
  [⟨.lock, some "token"⟩, ⟨.unlock, ()⟩, ⟨.tryAcquire, true⟩, ⟨.progress, ()⟩,
    ⟨.send .mutation ⟨.put, "api/osd/3/mark", [], some (.object [("action", .string "out")]), apiV1,
      some "token"⟩, .response 200 (.whole [])⟩, ⟨.release, ()⟩]

/-- A mark is confirmed by a response with status 200 and no body. -/
theorem dispatch_outcome_law_mark : OutcomeLaw sampleCrates (.mark "main" 3 .out) sampleMark none
    (.ok (.object [("action", .string "osd.mark"), ("cluster", .string "main"), ("osd_id", .nat 3),
      ("status", .string "completed")])) := by
  have h : CephCatalog.Executes sampleCrates ⟨[("main", ⟨"admin", "secret"⟩)]⟩
      (.mark "main" 3 .out) sampleMark none _ :=
    .finished rfl (.step (.step (.step (.step (.step (.step (.refl _)))))))
  exact dispatch_outcome_law h

end Command

end Ceph
