import HomelabMcp.TektonListing
import HomelabMcp.TektonWorkflows

/-!
# Requests of the Tekton client, read off a run

A request is sent once, after its token was read and a permit taken, and its outcome is what the
exchange makes of it (`kubeJson_pending`, `kubeJson_done`).  All that the client does before a
mutation only reads (`ReadsOnly`), part by part.
-/

namespace Tekton

open Interaction
open Http (Exchange)
open Json (Value)

variable {crates : Crates} {client : TektonClient} {t : Trace Ans} {α β : Type}

/-- A request takes a permit, is sent, and gives it back. -/
theorem httpBytes_run (kind : OperationKind) (limit : Nat) (request : Request) :
    (httpBytes kind limit request).run = .call .tryAcquire fun granted : Bool =>
      if granted then .call (.send kind request) fun exchange =>
        .call .release fun _ => .done (reply kind limit exchange)
      else .done (.error .capacityExhausted) := by
  show Program.call _ _ = Program.call _ _
  congr 1
  funext granted
  cases granted <;> rfl

/-- A successful reply is a whole body within the limit. -/
theorem reply_eq_ok {kind : OperationKind} {limit : Nat} {exchange : Exchange}
    {bytes : Text.Bytes} (h : reply kind limit exchange = .ok bytes) :
    ∃ status body, exchange = .response status body ∧ bytes = body.chunks.flatten ∧
      bytes.length ≤ limit := by
  cases exchange with
  | failed => cases h
  | elapsed => cases h
  | response status body =>
      simp only [reply] at h
      split_ifs at h
      cases hread : Http.readLimited limit body with
      | error e => simp [hread, Except.mapError] at h
      | ok out =>
          rw [hread] at h
          obtain rfl := Except.ok.inj h
          obtain ⟨-, -, hbytes, hlength⟩ := Http.readLimited_eq_ok.mp hread
          exact ⟨status, body, rfl, hbytes, hlength⟩

/-- A request is sent once, and before it no other. -/
theorem httpBytes_pending {kind k : OperationKind} {limit : Nat} {request r : Request}
    {next : Ans (.send k r) → Program Op Ans (Except Error Text.Bytes)}
    (h : Reaches (httpBytes kind limit request).run t (.call (.send k r) next)) :
    k = kind ∧ r = request ∧ requests t = [] := by
  rw [httpBytes_run] at h
  cases h with
  | @step _ _ granted _ _ h =>
      cases granted with
      | false => cases h
      | true =>
          cases h with
          | refl => exact ⟨rfl, rfl, rfl⟩
          | step h =>
              cases h with
              | step h => cases h

/-- What a request ends with, and what was sent for it. -/
theorem httpBytes_done {kind : OperationKind} {limit : Nat} {request : Request}
    {r : Except Error Text.Bytes}
    (h : Reaches (httpBytes kind limit request).run t (.done r)) :
    (requests t = [] ∧ r = .error .capacityExhausted) ∨
      ∃ exchange, requests t = [(request, exchange)] ∧ r = reply kind limit exchange := by
  rw [httpBytes_run] at h
  cases h with
  | @step _ _ granted _ _ h =>
      cases granted with
      | false =>
          cases h
          exact .inl ⟨rfl, rfl⟩
      | true =>
          cases h with
          | @step _ _ exchange _ _ h =>
              cases h with
              | step h =>
                  cases h
                  exact .inr ⟨exchange, rfl, rfl⟩

/-- The token is read from its file. -/
theorem kubeToken_run : TektonClient.kubeToken.run =
    .call .readToken fun content => .done (serviceToken content) := rfl

/-- Reading it sends nothing. -/
theorem kubeToken_pending {k : OperationKind} {r : Request}
    {next : Ans (.send k r) → Program Op Ans (Except Error String)} :
    ¬ Reaches TektonClient.kubeToken.run t (.call (.send k r) next) := by
  rw [kubeToken_run]
  intro h
  cases h with
  | step h => cases h

/-- Reading the token sends nothing, and it fails in one way. -/
theorem kubeToken_done {r : Except Error String}
    (h : Reaches TektonClient.kubeToken.run t (.done r)) :
    requests t = [] ∧ ∀ e, r = .error e → e = .upstreamUnavailable := by
  rw [kubeToken_run] at h
  cases h with
  | @step _ _ content _ _ h =>
      cases h
      refine ⟨rfl, fun e he => ?_⟩
      unfold serviceToken at he
      split at he
      · exact (Except.error.inj he).symm
      · split_ifs at he
        exact (Except.error.inj he).symm

/-- What a JSON request to Kubernetes makes of an exchange. -/
def kubeReply (crates : Crates) (method : Method) (kind : OperationKind) (exchange : Exchange) :
    Except Error Value :=
  match method with
  | .patch => (reply kind maxResponseBytes exchange).map fun _ => .object []
  | .get | .post => jsonReply crates kind exchange

/-- A JSON request is sent once, and before it no other. -/
theorem kubeJson_pending {method : Method} {path : String} {query : List (String × String)}
    {body : Option Value} {kind k : OperationKind} {r : Request}
    {next : Ans (.send k r) → Program Op Ans (Except Error Value)}
    (h : Reaches (client.kubeJson crates method path query body kind).run t
      (.call (.send k r) next)) :
    k = kind ∧ requests t = [] ∧ ∃ token, r = ⟨method, client.kubeUrl path query, token, body⟩ := by
  unfold TektonClient.kubeJson at h
  rcases h.run_bind_call with ⟨next', htoken⟩ | ⟨token, first, rest, htoken, hrest, rfl⟩
  · exact absurd htoken kubeToken_pending
  rcases hrest.run_bind_call with ⟨next', hsend⟩ | ⟨bytes, sent, last, -, hlast, -⟩
  · obtain ⟨rfl, rfl, hnone⟩ := httpBytes_pending hsend
    exact ⟨rfl, by rw [requests_append, (kubeToken_done htoken).1, hnone]; rfl, token, rfl⟩
  · cases method <;> cases hlast

/-- What a JSON request ends with, and what was sent for it. -/
theorem kubeJson_done {method : Method} {path : String} {query : List (String × String)}
    {body : Option Value} {kind : OperationKind} {r : Except Error Value}
    (h : Reaches (client.kubeJson crates method path query body kind).run t (.done r)) :
    (requests t = [] ∧ (r = .error .capacityExhausted ∨ r = .error .upstreamUnavailable)) ∨
      ∃ token exchange, requests t =
          [(⟨method, client.kubeUrl path query, token, body⟩, exchange)] ∧
        r = kubeReply crates method kind exchange := by
  unfold TektonClient.kubeJson at h
  rcases h.run_bind_done with ⟨e, rfl, htoken⟩ | ⟨token, first, rest, htoken, hrest, rfl⟩
  · obtain ⟨hnone, he⟩ := kubeToken_done htoken
    exact .inl ⟨hnone, .inr (congrArg _ (he e rfl))⟩
  rw [requests_append, (kubeToken_done htoken).1, List.nil_append]
  rcases hrest.run_bind_done with ⟨e, rfl, hsent⟩ | ⟨bytes, sent, last, hsent, hlast, rfl⟩
  · rcases httpBytes_done hsent with ⟨hnone, hr⟩ | ⟨exchange, hone, hr⟩
    · exact .inl ⟨hnone, .inl (congrArg _ (Except.error.inj hr))⟩
    · refine .inr ⟨token, exchange, hone, ?_⟩
      cases method <;> simp [kubeReply, jsonReply, ← hr] <;> rfl
  · rcases httpBytes_done hsent with ⟨-, hr⟩ | ⟨exchange, hone, hr⟩
    · cases hr
    · have hend : last = [] ∧ r = kubeReply crates method kind exchange := by
        cases method <;> cases hlast <;> simp [kubeReply, jsonReply, ← hr] <;> rfl
      obtain ⟨rfl, rfl⟩ := hend
      exact .inr ⟨token, exchange, by simpa using hone, rfl⟩

/-- A log that was read, and what was sent for it. -/
theorem kubeText_ok {path token : String} {query : List (String × String)} {limit : Nat}
    {bytes : Text.Bytes}
    (h : Reaches (client.kubeText path query limit).run t (.done (.ok (bytes, token)))) :
    ∃ exchange, requests t = [(⟨.get, client.kubeUrl path query, token, none⟩, exchange)] ∧
      reply .read limit exchange = .ok bytes := by
  unfold TektonClient.kubeText at h
  obtain ⟨token', first, t₁, htoken, h₁, rfl⟩ := h.run_bind_ok
  obtain ⟨bytes', sent, last, hsent, h₂, rfl⟩ := h₁.run_bind_ok
  cases h₂
  rw [requests_append, (kubeToken_done htoken).1, List.nil_append, List.append_nil]
  rcases httpBytes_done hsent with ⟨-, hnone⟩ | ⟨exchange, hone, hreply⟩
  · cases hnone
  · exact ⟨exchange, hone, hreply.symm⟩

/-- Every request is a GET, sent as a reading. -/
def ReadsOnly (x : TektonCall α) : Prop :=
  ∀ t k r next, Reaches x.run t (.call (.send k r) next) → k = .read ∧ r.method = .get

/-- Parts that only read, one after the other. -/
theorem ReadsOnly.bind {x : TektonCall α} {f : α → TektonCall β} (hx : ReadsOnly x)
    (hf : ∀ a, ReadsOnly (f a)) : ReadsOnly (x >>= f) := by
  intro t k r next h
  rcases h.run_bind_call with ⟨next', hfirst⟩ | ⟨a, first, rest, -, hrest, -⟩
  · exact hx _ _ _ _ hfirst
  · exact hf a _ _ _ _ hrest

/-- A value only reads. -/
theorem ReadsOnly.answer (r : Except Error α) : ReadsOnly (answer r) := by
  intro t k request next h
  have h : Reaches (.done r : Program Op Ans (Except Error α)) t (.call (.send k request) next) := h
  cases h

/-- So does one that is returned. -/
theorem ReadsOnly.pure (a : α) : ReadsOnly (pure a) := ReadsOnly.answer (.ok a)

/-- So does a condition. -/
theorem ReadsOnly.ensure (ok : Bool) (e : Error) : ReadsOnly (ensure ok e) := by
  cases ok with
  | true => exact ReadsOnly.answer (.ok ())
  | false => exact ReadsOnly.answer (.error e)

/-- So does a request that gets. -/
theorem ReadsOnly.httpBytes {request : Request} {limit : Nat} (hget : request.method = .get) :
    ReadsOnly (httpBytes .read limit request) := by
  intro t k r next h
  obtain ⟨rfl, rfl, -⟩ := httpBytes_pending h
  exact ⟨rfl, hget⟩

/-- So does reading an object. -/
theorem kubeJson_readsOnly (path : String) (query : List (String × String)) (body : Option Value) :
    ReadsOnly (client.kubeJson crates .get path query body .read) := by
  intro t k r next h
  obtain ⟨rfl, -, token, rfl⟩ := kubeJson_pending h
  exact ⟨rfl, rfl⟩

/-- So does the loop of a list. -/
theorem kubeListFrom_readsOnly (path : String) (selector : Option String) (left : Nat)
    (items : List Value) (continuation : Option String) (seen : List String) :
    ReadsOnly (client.kubeListFrom crates path selector left items continuation seen) := by
  induction left generalizing items continuation seen with
  | zero => exact ReadsOnly.pure _
  | succ left ih =>
      unfold TektonClient.kubeListFrom
      split
      · exact ReadsOnly.pure _
      · refine (kubeJson_readsOnly _ _ _).bind fun wrapper => ?_
        refine (ReadsOnly.answer _).bind fun items => ?_
        split
        · exact ReadsOnly.pure _
        · exact (ReadsOnly.ensure _ _).bind fun _ => ih _ _ _

/-- So does a list. -/
theorem kubeList_readsOnly (path : String) (selector : Option String) :
    ReadsOnly (client.kubeList crates path selector) :=
  kubeListFrom_readsOnly path selector _ _ _ _

/-- So does the catalog. -/
theorem repositoryCatalog_readsOnly : ReadsOnly (client.repositoryCatalog crates) := by
  refine (kubeList_readsOnly _ _).bind fun listed => ?_
  obtain ⟨items, truncated⟩ := listed
  cases truncated with
  | true => exact ReadsOnly.answer (.error .invalidResponse)
  | false => exact ReadsOnly.answer _

/-- So does looking for a repository. -/
theorem repository_readsOnly (id : String) : ReadsOnly (client.repository crates id) :=
  repositoryCatalog_readsOnly.bind fun _ => ReadsOnly.answer _

/-- So does looking for a run. -/
theorem ownedRun_readsOnly (id : String) : ReadsOnly (client.ownedRun crates id) := by
  refine (ReadsOnly.answer _).bind fun name => ?_
  refine (kubeJson_readsOnly _ _ _).bind fun run => ?_
  refine (ReadsOnly.answer _).bind fun repository => ?_
  refine repositoryCatalog_readsOnly.bind fun catalog => ?_
  exact (ReadsOnly.answer _).bind fun repository => ReadsOnly.pure _

section Workflows

variable {crates : WorkflowCrates} {client : PacClient}

/-- So does a request to Forgejo. -/
theorem forgejoJson_readsOnly (segments : List (List Char)) (query : List (String × String)) :
    ReadsOnly (client.forgejoJson crates segments query) :=
  (ReadsOnly.httpBytes rfl).bind fun _ => ReadsOnly.answer _

/-- So does reading the files. -/
theorem fileWorkflows_readsOnly (repository : Repository) (revision : String)
    (files : List String) (total : Nat) :
    ReadsOnly (client.fileWorkflows crates repository revision files total) := by
  induction files generalizing total with
  | nil => exact ReadsOnly.pure _
  | cons path files ih =>
      refine (forgejoJson_readsOnly _ _).bind fun content => ?_
      refine (ReadsOnly.answer _).bind fun bytes => ?_
      refine (ReadsOnly.ensure _ _).bind fun _ => ?_
      refine (ReadsOnly.answer _).bind fun workflows => ?_
      exact (ih _).bind fun others => ReadsOnly.pure _

/-- And all workflows of a repository. -/
theorem repositoryWorkflows_readsOnly (repository : Repository) :
    ReadsOnly (client.repositoryWorkflows crates repository) := by
  refine (forgejoJson_readsOnly _ _).bind fun metadata => ?_
  refine (ReadsOnly.answer _).bind fun revision => ?_
  refine (forgejoJson_readsOnly _ _).bind fun listing => ?_
  exact (ReadsOnly.answer _).bind fun files => fileWorkflows_readsOnly _ _ _ _

end Workflows

/-- A request to this URL was answered with this value. -/
def Received (crates : Crates) (t : Trace Ans) (url : WebUrl.Url) (value : Value) : Prop :=
  ∃ token exchange, ((⟨.get, url, token, none⟩ : Request), exchange) ∈ requests t ∧
    jsonReply crates .read exchange = .ok value

/-- What was received stays so, with more before. -/
theorem Received.append_left {url : WebUrl.Url} {value : Value} (h : Received crates t url value)
    (u : Trace Ans) : Received crates (u ++ t) url value := by
  obtain ⟨token, exchange, hmem, hreply⟩ := h
  exact ⟨token, exchange, by rw [requests_append]; exact List.mem_append_right _ hmem, hreply⟩

/-- And with more after. -/
theorem Received.append_right {url : WebUrl.Url} {value : Value} (h : Received crates t url value)
    (u : Trace Ans) : Received crates (t ++ u) url value := by
  obtain ⟨token, exchange, hmem, hreply⟩ := h
  exact ⟨token, exchange, by rw [requests_append]; exact List.mem_append_left _ hmem, hreply⟩

/-- An object that is returned was received. -/
theorem kubeJson_received {path : String} {query : List (String × String)} {value : Value}
    (h : Reaches (client.kubeJson crates .get path query none .read).run t (.done (.ok value))) :
    Received crates t (client.kubeUrl path query) value := by
  rcases kubeJson_done h with ⟨-, hnone | hnone⟩ | ⟨token, exchange, hone, hreply⟩
  · cases hnone
  · cases hnone
  · exact ⟨token, exchange, by simp [hone], hreply.symm⟩

/-- So was a value of Forgejo. -/
theorem forgejoJson_received {crates : WorkflowCrates} {client : PacClient}
    {segments : List (List Char)} {query : List (String × String)} {value : Value}
    (h : Reaches (client.forgejoJson crates segments query).run t (.done (.ok value))) :
    Received crates.toCrates t (client.forgejoUrl segments query) value := by
  unfold PacClient.forgejoJson at h
  obtain ⟨bytes, first, rest, hsent, hrest, rfl⟩ := h.run_bind_ok
  obtain ⟨hparsed, rfl⟩ := hrest.run_answer_ok
  rcases httpBytes_done hsent with ⟨-, hnone⟩ | ⟨exchange, hone, hreply⟩
  · cases hnone
  · refine ⟨client.forgejoToken, exchange, by simp [hone], ?_⟩
    rw [jsonReply, ← hreply]
    exact hparsed

end Tekton
