import HomelabMcp.CephMutations
import HomelabMcp.ProcessPool

/-!
# The token cache

The queries and mutations of one client are the processes of a pool over its token cache.  A call
may be dropped wherever it waits, and the Dashboard answers as it likes.

* `token_cache_law`: in every interleaving a call clears only the token of its own last request,
  which was rejected, and it sends and authenticates no more often than it may.  As long as a
  mutation or a second request of a query is answered 401 only for a token that has left the cache,
  and the Dashboard issues no token again that it has answered with 401, a token answered 401 in
  the last request of a call that is over is not in the cache.
* `rejected_token_stays`: a mutation answered 401 leaves its token in the cache.

A call is followed by a `Session`: what its trace says about the lock and about its last request.
The programs obey the protocol of sessions (`protocol`), and the protocol keeps the invariants
between a session and the cache (`Tracked`, `Removed`), whatever the other calls do.
-/

namespace Ceph

open Interaction
open Http (Exchange)
open Json (Value)

variable {crates : Crates} {client : CephClient}

/-- The last request answered, with its answer. -/
def lastRequest : Trace Ans → Option (Request × Exchange)
  | [] => none
  | ⟨.send _ request, exchange⟩ :: t => some ((lastRequest t).getD (request, exchange))
  | _ :: t => lastRequest t

/-- The requests answered. -/
def sends (t : Trace Ans) : Nat := t.countP fun e => match e.1 with
  | .send _ _ => true
  | _ => false

/-- The authentications answered. -/
def auths (t : Trace Ans) : Nat := t.countP fun e => match e.1 with
  | .authenticate _ => true
  | _ => false

/-- The cache was locked after the last request. -/
def lockedSince : Trace Ans → Bool
  | [] => false
  | ⟨.lock, _⟩ :: t => (lastRequest t).isNone || lockedSince t
  | _ :: t => lockedSince t

/-- A response with status 401. -/
def unauthorized : Exchange → Bool
  | .response status _ => status == 401
  | .failed | .elapsed => false

/-- The token was answered 401. -/
def Refused (last : Option (Request × Exchange)) (token : String) : Prop :=
  ∃ request exchange, last = some (request, exchange) ∧ request.token = some token ∧
    unauthorized exchange

/-- The lock of the cache as its holder sees it: with the cached token, or with a new token that is
not stored yet. -/
inductive Hold where
  | away
  | holding (cached : Option String)
  | minted (token : String)

/-- What a call has seen of the cache since its last request: nothing, that its token is still
there, or that it has been cleared. -/
inductive Since where
  | nothing
  | present
  | cleared
  deriving DecidableEq

/-- What the protocol remembers of a call. -/
structure Session where
  sends : Nat
  auths : Nat
  hold : Hold
  last : Option (Request × Exchange)
  since : Since

namespace Session

/-- A call that has done nothing. -/
def start : Session := ⟨0, 0, .away, none, .nothing⟩

/-- The token of the last request. -/
def token (s : Session) : Option String := s.last.bind fun last => last.1.token

/-- What the call knows after it finds `cached` in the cache. -/
def see (s : Session) (cached : Option String) : Since :=
  if cached = s.token ∧ s.since ≠ .cleared then .present else .cleared

/-- A token answered 401 is not known to be in the cache. -/
def Settled (s : Session) : Prop := ∀ token, Refused s.last token → s.since ≠ .present

/-- A token answered 401 was cleared. -/
def Clear (s : Session) : Prop := ∀ token, Refused s.last token → s.since = .cleared

end Session

/-- The protocol of a call that may send `limit` requests. -/
def protocol (crates : Crates) (limit : Nat) : Monitor Ans Session where
  may s
    | .lock => s.hold = .away ∧ s.Settled
    | .store none => ∃ request exchange token, s.last = some (request, exchange) ∧
        request.token = some token ∧ s.hold = .holding (some token) ∧
        reply crates .query exchange = .error .unauthorized
    | .store (some token) => s.hold = .minted token
    | .unlock => (∃ cached, s.hold = .holding cached) ∧ s.Settled
    | .authenticate _ => s.hold = .holding none ∧ s.auths < limit ∧ s.Settled
    | .send _ _ => s.hold = .away ∧ s.sends < limit ∧ s.Settled
    | .tryAcquire | .release | .progress => True
  next s
    | .lock => fun cached => { s with hold := .holding cached, since := s.see cached }
    | .store token => fun _ =>
        { s with
          hold := .holding token
          since := if token.isNone then .cleared else s.since }
    | .unlock => fun _ => { s with hold := .away }
    | .authenticate _ => fun exchange =>
        { s with
          auths := s.auths + 1
          hold := match authToken crates exchange with
            | .ok token => .minted token
            | .error _ => s.hold }
    | .send _ request => fun exchange =>
        { s with sends := s.sends + 1, last := some (request, exchange), since := .nothing }
    | .tryAcquire | .release | .progress => fun _ => s

/-- The end of a call: the lock is released, and a token answered 401 was cleared unless the call
had no further request. -/
def Session.Ended (limit : Nat) (s : Session) : Prop :=
  s.hold = .away ∧ ∀ token, Refused s.last token → s.since = .cleared ∨ s.sends = limit

section Programs

variable {limit : Nat} {s : Session}

/-- What an authentication leaves of a session. -/
structure Session.Kept (s s' : Session) : Prop where
  last : s'.last = s.last
  sends : s'.sends = s.sends
  auths : s'.auths ≤ s.auths + 1
  clear : s'.Clear

/-- A call whose last request was not rejected has nothing to give up. -/
theorem Session.Clear.settled (h : s.Clear) : s.Settled := fun token htoken => by
  rw [h token htoken]
  nofun

/-- What is known to be cleared stays so when the cache is seen again. -/
theorem Session.Clear.see (h : s.Clear) (cached : Option String) {token : String}
    (htoken : Refused s.last token) : s.see cached = .cleared := by
  simp [Session.see, h token htoken]

/-- With the lock held and no token cached, an authentication keeps the lock. -/
theorem login_protocol (hclear : s.Clear) (hhold : s.hold = .holding none)
    (hlimit : s.auths < limit) :
    (protocol crates limit).wp (client.login crates).run s fun s' _ =>
      (∃ cached, s'.hold = .holding cached) ∧ s.Kept s' := by
  have hnone : (∃ cached, s.hold = .holding cached) ∧ s.Kept s :=
    ⟨⟨_, hhold⟩, rfl, rfl, Nat.le_succ _, hclear⟩
  unfold CephClient.login
  rw [Monitor.wp_run_bind]
  refine Monitor.wp_run_ensure _ (fun _ => ?_) fun _ => hnone
  refine ⟨trivial, fun granted => ?_⟩
  cases granted with
  | false => exact hnone
  | true =>
      refine ⟨⟨hhold, hlimit, hclear.settled⟩, fun exchange => ⟨trivial, fun _ => ?_⟩⟩
      show (protocol crates limit).wp (answer (authToken crates exchange) >>= _).run _ _
      rw [Monitor.wp_run_bind, Monitor.wp_run_answer]
      dsimp only [protocol]
      cases authToken crates exchange with
      | error e => exact ⟨⟨_, hhold⟩, rfl, rfl, Nat.le_refl _, hclear⟩
      | ok token => exact ⟨rfl, fun _ => ⟨⟨_, rfl⟩, rfl, rfl, Nat.le_refl _, hclear⟩⟩

/-- A token is taken from the cache, or a login stores one. -/
theorem authenticate_protocol (haway : s.hold = .away) (hclear : s.Clear)
    (hlimit : s.auths < limit) :
    (protocol crates limit).wp (client.authenticate crates).run s fun s' _ =>
      s'.hold = .away ∧ s.Kept s' := by
  refine ⟨⟨haway, hclear.settled⟩, fun cached => ?_⟩
  have hseen : ∀ token, Refused s.last token → s.see cached = .cleared :=
    fun _ => hclear.see cached
  have hsettled : ∀ token, Refused s.last token → s.see cached ≠ .present := fun token htoken => by
    rw [hseen token htoken]
    nofun
  cases cached with
  | some token =>
      exact ⟨⟨⟨_, rfl⟩, hsettled⟩, fun _ => ⟨rfl, rfl, rfl, Nat.le_succ _, hseen⟩⟩
  | none =>
      show (protocol crates limit).wp (attempt (client.login crates) >>= _).run _ _
      rw [Monitor.wp_run_bind, Monitor.wp_run_attempt]
      refine Monitor.wp_mono _ (login_protocol hseen rfl hlimit) fun s₁ r ⟨hhold, hkept⟩ => ?_
      exact ⟨⟨hhold, hkept.clear.settled⟩,
        fun _ => ⟨rfl, hkept.last, hkept.sends, hkept.auths, hkept.clear⟩⟩

/-- The last request was answered as unauthorized, and the cache was not seen since. -/
structure Session.Rejected (crates : Crates) (s : Session) (token : String) : Prop where
  hold : s.hold = .away
  since : s.since = .nothing
  last : ∃ request exchange, s.last = some (request, exchange) ∧ request.token = some token ∧
    reply crates .query exchange = .error .unauthorized

/-- A rejected token is taken out of the cache. -/
theorem invalidate_protocol {token : String} (h : s.Rejected crates token) :
    (protocol crates limit).wp (CephClient.invalidate token).run s fun s' _ =>
      s'.hold = .away ∧ s'.since = .cleared ∧ s'.last = s.last ∧ s'.sends = s.sends ∧
        s'.auths = s.auths := by
  obtain ⟨request, exchange, hlast, htoken, hreply⟩ := h.last
  have hown : s.token = some token := by simp [Session.token, hlast, htoken]
  refine ⟨⟨h.hold, fun _ _ => by rw [h.since]; nofun⟩, fun cached => ?_⟩
  show (protocol crates limit).wp (CephClient.clear (decide (cached = some token)) >>= _).run _ _
  by_cases hcached : cached = some token
  · rw [decide_eq_true hcached]
    subst hcached
    refine ⟨⟨request, exchange, token, hlast, htoken, rfl, hreply⟩, fun _ => ?_⟩
    exact ⟨⟨⟨_, rfl⟩, fun _ _ => nofun⟩, fun _ => ⟨rfl, rfl, rfl, rfl, rfl⟩⟩
  · rw [decide_eq_false hcached]
    have hsee : s.see cached = .cleared := by simp [Session.see, hown, hcached]
    exact ⟨⟨⟨_, rfl⟩, fun _ _ => by simp [protocol, hsee]⟩, fun _ => ⟨rfl, hsee, rfl, rfl, rfl⟩⟩

/-- A request answered 401 fails as unauthorized. -/
theorem reply_unauthorized (operation : Operation) {exchange : Exchange}
    (h : unauthorized exchange) : reply crates operation exchange = .error .unauthorized := by
  cases exchange with
  | failed => cases h
  | elapsed => cases h
  | response status body =>
      have hstatus : status = 401 := by simpa [unauthorized] using h
      simp [reply, hstatus]

/-- One request: it fails before it is sent, or it is sent and answered. -/
theorem send_protocol {operation : Operation} {request : Request} (haway : s.hold = .away)
    (hclear : s.Clear) (hlimit : s.sends < limit) :
    (protocol crates limit).wp (CephClient.send crates operation request).run s fun s' r =>
      (s' = s ∧ ∃ e, r = .error e ∧ e ≠ .unauthorized) ∨
        ∃ exchange, r = reply crates operation exchange ∧
          s' = { s with
            sends := s.sends + 1
            last := some (request, exchange)
            since := .nothing } := by
  unfold CephClient.send
  rw [Monitor.wp_run_bind]
  refine Monitor.wp_run_ensure _ (fun _ => ?_) fun _ => .inl ⟨rfl, _, rfl, by cases operation <;> nofun⟩
  refine ⟨trivial, fun granted => ?_⟩
  cases granted with
  | false => exact .inl ⟨rfl, _, rfl, nofun⟩
  | true =>
      cases operation with
      | query =>
          exact ⟨⟨haway, hlimit, hclear.settled⟩, fun exchange =>
            ⟨trivial, fun _ => .inr ⟨exchange, rfl, rfl⟩⟩⟩
      | mutation =>
          exact ⟨trivial, fun _ => ⟨⟨haway, hlimit, hclear.settled⟩, fun exchange =>
            ⟨trivial, fun _ => .inr ⟨exchange, rfl, rfl⟩⟩⟩⟩

/-- A request that does not fail as unauthorized was not answered 401. -/
theorem not_refused {operation : Operation} {request : Request} {exchange : Exchange}
    (h : reply crates operation exchange ≠ .error .unauthorized) (token : String) :
    ¬ Refused (some (request, exchange)) token := by
  rintro ⟨request', exchange', hlast, -, hrefused⟩
  obtain ⟨rfl, rfl⟩ := Prod.mk.inj (Option.some.inj hlast)
  exact h (reply_unauthorized operation hrefused)

/-- A call without a rejected token may end. -/
theorem Session.Clear.ended (h : s.Clear) (haway : s.hold = .away) : s.Ended limit :=
  ⟨haway, fun token htoken => .inl (h token htoken)⟩

/-- The last request a call may send. -/
theorem last_send_protocol {operation : Operation} {request : Request} (haway : s.hold = .away)
    (hclear : s.Clear) (hlimit : s.sends + 1 = limit) :
    (protocol crates limit).wp (CephClient.send crates operation request).run s
      fun s' _ => s'.Ended limit := by
  refine Monitor.wp_mono _ (send_protocol haway hclear (by omega)) fun s' r h => ?_
  rcases h with ⟨rfl, -⟩ | ⟨exchange, -, rfl⟩
  · exact hclear.ended haway
  · exact ⟨haway, fun _ _ => .inr hlimit⟩

/-- The second request, with a token of its own. -/
theorem resend_protocol {request : String → Request} {token : String}
    (h : s.Rejected crates token) (hsends : s.sends + 1 = limit) (hauths : s.auths < limit) :
    (protocol crates limit).wp (client.resend crates request token).run s
      fun s' _ => s'.Ended limit := by
  unfold CephClient.resend
  rw [Monitor.wp_run_bind]
  refine Monitor.wp_mono _ (invalidate_protocol h) fun s₁ r₁ ⟨haway, hcleared, _, hs, ha⟩ => ?_
  have hclear : s₁.Clear := fun _ _ => hcleared
  rcases r₁ with e | ⟨⟩
  · exact hclear.ended haway
  show (protocol crates limit).wp (client.authenticate crates >>= _).run _ _
  rw [Monitor.wp_run_bind]
  refine Monitor.wp_mono _ (authenticate_protocol haway hclear (by omega))
    fun s₂ r₂ ⟨haway, hkept⟩ => ?_
  rcases r₂ with e | new
  · exact hkept.clear.ended haway
  show (protocol crates limit).wp (CephClient.send crates _ _ >>= _).run _ _
  rw [Monitor.wp_run_bind]
  refine Monitor.wp_mono _ (last_send_protocol haway hkept.clear (by rw [hkept.sends]; omega))
    fun s₃ r₃ hended => ?_
  cases r₃ <;> exact hended

/-- Nothing is rejected before anything is sent. -/
theorem clear_start : Session.start.Clear := fun _ ⟨_, _, hlast, _⟩ => by cases hlast

/-- A query keeps to the protocol with two requests. -/
theorem query_protocol {method : Method} {path accept : String}
    {parameters : List (String × String)} {body : Option Value} :
    (protocol crates 2).wp (client.query crates method path parameters body accept).run .start
      fun s' _ => s'.Ended 2 := by
  unfold CephClient.query
  rw [Monitor.wp_run_bind]
  refine Monitor.wp_mono _ (authenticate_protocol rfl clear_start (by decide))
    fun s₁ r₁ ⟨haway, hkept⟩ => ?_
  have hsends : s₁.sends = 0 := hkept.sends
  have hauths : s₁.auths ≤ 1 := hkept.auths
  rcases r₁ with e | token
  · exact hkept.clear.ended haway
  show (protocol crates 2).wp (attempt _ >>= _).run _ _
  rw [Monitor.wp_run_bind, Monitor.wp_run_attempt]
  refine Monitor.wp_mono _ (send_protocol haway hkept.clear (by omega)) fun s₂ r₂ h => ?_
  rcases h with ⟨rfl, e, rfl, he⟩ | ⟨exchange, rfl, rfl⟩
  · have hended : s₂.Ended 2 := hkept.clear.ended haway
    cases e with
    | unauthorized => exact absurd rfl he
    | _ => exact hended
  · have hended : reply crates .query exchange ≠ .error .unauthorized →
        Session.Ended 2 { s₁ with
          sends := s₁.sends + 1
          last := some (CephClient.queryRequest method path parameters body accept token, exchange)
          since := .nothing } :=
      fun h => ⟨haway, fun token htoken => absurd htoken (not_refused h token)⟩
    cases hreply : reply crates .query exchange with
    | ok response => exact hended (by rw [hreply]; nofun)
    | error e =>
        cases e with
        | unauthorized =>
            exact resend_protocol ⟨haway, rfl, _, _, rfl, rfl, hreply⟩
              (congrArg (· + 2) hsends) (by simpa using Nat.lt_succ_of_le hauths)
        | _ => exact hended (by rw [hreply]; nofun)

/-- A mutation keeps to it with one. -/
theorem mutate_protocol {method : Method} {path : String}
    {parameters : List (String × String)} {body : Option Value} :
    (protocol crates 1).wp (client.mutate crates method path parameters body).run .start
      fun s' _ => s'.Ended 1 := by
  unfold CephClient.mutate
  rw [Monitor.wp_run_bind]
  refine Monitor.wp_mono _ (authenticate_protocol rfl clear_start (by decide))
    fun s₁ r₁ ⟨haway, hkept⟩ => ?_
  rcases r₁ with e | token
  · exact hkept.clear.ended haway
  · exact last_send_protocol haway hkept.clear (congrArg (· + 1) hkept.sends)

end Programs

/-- The token cache and its lock, held by the call at a place of the pool.  Of the history there
are the token of an authentication that is not stored yet, and the tokens answered 401. -/
structure TokenCache where
  token : Option String
  owner : Option Nat
  issued : Option String
  rejected : List String

namespace TokenCache

/-- The cache before the first call. -/
def empty : TokenCache := ⟨none, none, none, []⟩

/-- The call at place `i` gives up the lock, if it has it. -/
def leave (g : TokenCache) (i : Nat) : TokenCache :=
  if g.owner = some i then { g with owner := none, issued := none } else g

/-- An operation of the call at place `i`, with its answer, moves the cache. -/
def Heeds (crates : Crates) (i : Nat) (g : TokenCache) :
    (op : Op) → Ans op → TokenCache → Prop
  | .lock, cached, g' => g.owner = none ∧ cached = g.token ∧ g' = { g with owner := some i }
  | .store token, _, g' => g' = { g with token := token, issued := none }
  | .unlock, _, g' => g' = { g with owner := none }
  | .authenticate _, exchange, g' => g' = match authToken crates exchange with
      | .ok token => { g with issued := some token }
      | .error _ => g
  | .send _ request, exchange, g' => g' = if unauthorized exchange then
      { g with rejected := request.token.toList ++ g.rejected } else g
  | .tryAcquire, _, g' | .release, _, g' | .progress, _, g' => g' = g

end TokenCache

/-- A call of the client. -/
inductive CallRequest where
  | query (method : Method) (path : String) (parameters : List (String × String))
      (body : Option Value) (accept : String)
  | mutate (method : Method) (path : String) (parameters : List (String × String))
      (body : Option Value)

namespace CallRequest

/-- The program of a call; the cache does not depend on its result. -/
def program (crates : Crates) (client : CephClient) : CallRequest → Program Op Ans Unit
  | query method path parameters body accept =>
      (client.query crates method path parameters body accept).run >>= fun _ => .done ()
  | mutate method path parameters body =>
      (client.mutate crates method path parameters body).run >>= fun _ => .done ()

/-- The requests a call may send. -/
def limit : CallRequest → Nat
  | query _ _ _ _ _ => 2
  | mutate _ _ _ _ => 1

end CallRequest

/-- What has become of a call. -/
inductive Stage where
  | running (p : Program Op Ans Unit)
  | returned
  | dropped

/-- A call with the events it has gone through. -/
structure CacheCall where
  request : CallRequest
  stage : Stage
  trace : Trace Ans

namespace CephClient

/-- The steps of the call at place `i`. -/
inductive Step (crates : Crates) (i : Nat) (g : TokenCache) :
    CacheCall → TokenCache → CacheCall → Prop
  | work {q : CallRequest} {op : Op} {next : Ans op → Program Op Ans Unit} {t : Trace Ans}
      {g' : TokenCache} (answer : Ans op) (h : g.Heeds crates i op answer g') :
      Step crates i g ⟨q, .running (.call op next), t⟩ g'
        ⟨q, .running (next answer), t ++ [⟨op, answer⟩]⟩
  | finish {q : CallRequest} {t : Trace Ans} :
      Step crates i g ⟨q, .running (.done ()), t⟩ g ⟨q, .returned, t⟩
  | drop {q : CallRequest} {op : Op} {next : Ans op → Program Op Ans Unit} {t : Trace Ans}
      (h : op.awaits = true) :
      Step crates i g ⟨q, .running (.call op next), t⟩ (g.leave i) ⟨q, .dropped, t⟩

/-- Any number of calls over the cache of one client. -/
def calls (crates : Crates) (client : CephClient) :
    ProcessPool.Behaviour TokenCache CacheCall where
  start c := ∃ q, c = ⟨q, .running (q.program crates client), []⟩
  act := Step crates
  env _ _ := False

end CephClient

/-- The session of a call that has gone through a trace. -/
def session (crates : Crates) (limit : Nat) (t : Trace Ans) : Session :=
  (protocol crates limit).after .start t

/-- What the lock of the cache has to do with a session at place `i`. -/
def Hold.Holds (i : Nat) (g : TokenCache) : Hold → Prop
  | .away => g.owner ≠ some i
  | .holding cached => g.owner = some i ∧ g.token = cached ∧ g.issued = none
  | .minted token => g.owner = some i ∧ g.token = none ∧ g.issued = some token

/-- A token is issued under the lock, and one of the `n` calls has the lock. -/
def TokenCache.Sane (n : Nat) (g : TokenCache) : Prop :=
  (g.owner = none → g.issued = none) ∧ ∀ i, g.owner = some i → i < n

/-- A call obeys the protocol, and its session is right about the lock. -/
def Tracked (crates : Crates) (i : Nat) (g : TokenCache) (c : CacheCall) : Prop :=
  let s := session crates c.request.limit c.trace
  s.sends ≤ c.request.limit ∧ s.auths ≤ c.request.limit ∧
    match c.stage with
    | .running p => (protocol crates c.request.limit).wp p s
        (fun s _ => s.Ended c.request.limit) ∧ s.hold.Holds i g
    | .returned => s.Ended c.request.limit ∧ Hold.away.Holds i g
    | .dropped => s.Settled ∧ Hold.away.Holds i g

section Invariants

variable {n limit i : Nat} {g g' : TokenCache} {s : Session} {op : Op} {answer : Ans op}

/-- Of two calls at most one holds the lock. -/
theorem Hold.Holds.away {j : Nat} {hold : Hold} (hne : j ≠ i) (howner : g.owner = some i)
    (h : hold.Holds j g) : hold = .away := by
  cases hold with
  | away => rfl
  | holding cached => exact absurd (Option.some.inj (h.1.symm.trans howner)) hne
  | minted token => exact absurd (Option.some.inj (h.1.symm.trans howner)) hne

/-- An operation that the protocol allows keeps the sessions right about the lock. -/
theorem holds_work (hi : i < n) (hsane : g.Sane n) (hmay : (protocol crates limit).may s op)
    (hholds : s.hold.Holds i g) (h : g.Heeds crates i op answer g') :
    g'.Sane n ∧ ((protocol crates limit).next s op answer).hold.Holds i g' ∧
      ∀ j hold, j ≠ i → Hold.Holds j g hold → Hold.Holds j g' hold := by
  -- a call that holds the lock keeps the others away from it
  have hothers : g.owner = some i → (∀ j, j ≠ i → g'.owner ≠ some j) →
      ∀ j hold, j ≠ i → Hold.Holds j g hold → Hold.Holds j g' hold := by
    intro howner hfree j hold hne hj
    obtain rfl := hj.away hne howner
    exact hfree j hne
  cases op with
  | lock =>
      obtain ⟨hfree, rfl, rfl⟩ := h
      refine ⟨⟨nofun, fun j hj => Option.some.inj hj ▸ hi⟩, ⟨rfl, rfl, hsane.1 hfree⟩,
        fun j hold hne hj => ?_⟩
      cases hold with
      | away => exact fun h => hne (Option.some.inj h).symm
      | holding cached => exact absurd (hfree.symm.trans hj.1) nofun
      | minted token => exact absurd (hfree.symm.trans hj.1) nofun
  | store token =>
      obtain rfl := h
      have howner : g.owner = some i := by
        cases token with
        | none =>
            obtain ⟨_, _, token, -, -, hhold, -⟩ := hmay
            rw [hhold] at hholds
            exact hholds.1
        | some token =>
            have hhold : s.hold = .minted token := hmay
            rw [hhold] at hholds
            exact hholds.1
      exact ⟨⟨fun _ => rfl, hsane.2⟩, ⟨howner, rfl, rfl⟩,
        hothers howner fun j hne h => hne (Option.some.inj (howner.symm.trans h)).symm⟩
  | unlock =>
      obtain rfl := h
      obtain ⟨⟨cached, hhold⟩, -⟩ := hmay
      rw [hhold] at hholds
      exact ⟨⟨fun _ => hholds.2.2, nofun⟩, nofun, hothers hholds.1 fun _ _ => nofun⟩
  | authenticate request =>
      obtain rfl := h
      obtain ⟨hhold, -, -⟩ := hmay
      rw [hhold] at hholds
      have hfree : ∀ j, j ≠ i → g.owner ≠ some j := fun j hne h =>
        hne (Option.some.inj (hholds.1.symm.trans h)).symm
      dsimp only [protocol]
      cases authToken crates answer with
      | error e => exact ⟨hsane, hhold ▸ hholds, fun _ _ _ hj => hj⟩
      | ok token =>
          exact ⟨⟨fun h => absurd (hholds.1.symm.trans h) nofun, hsane.2⟩, ⟨hholds.1, hholds.2.1, rfl⟩,
            fun j hold hne hj => by
              obtain rfl := hj.away hne hholds.1
              exact hfree j hne⟩
  | send operation request =>
      obtain rfl := h
      have hsame : ∀ j hold, Hold.Holds j g hold → Hold.Holds j (if unauthorized answer then
          { g with rejected := request.token.toList ++ g.rejected } else g) hold := by
        intro j hold hj
        split
        · cases hold <;> exact hj
        · exact hj
      refine ⟨?_, hsame i s.hold hholds, fun j hold _ hj => hsame j hold hj⟩
      split <;> exact hsane
  | tryAcquire | release | progress =>
      obtain rfl := h
      exact ⟨hsane, hholds, fun _ _ _ hj => hj⟩

/-- One more operation is one more step of the protocol. -/
theorem session_snoc (t : Trace Ans) : session crates limit (t ++ [⟨op, answer⟩]) =
    (protocol crates limit).next (session crates limit t) op answer :=
  Monitor.after_append _ _ _ _

/-- An operation that the protocol allows keeps the bounds of a session. -/
theorem bounds_work (answer : Ans op) (hmay : (protocol crates limit).may s op)
    (hbounds : s.sends ≤ limit ∧ s.auths ≤ limit) :
    ((protocol crates limit).next s op answer).sends ≤ limit ∧
      ((protocol crates limit).next s op answer).auths ≤ limit := by
  cases op with
  | send operation request => exact ⟨hmay.2.1, hbounds.2⟩
  | authenticate request => exact ⟨hbounds.1, hmay.2.1⟩
  | _ => exact hbounds

/-- Where a call waits, it does not know its rejected token to be in the cache. -/
theorem settled_awaiting (hmay : (protocol crates limit).may s op) (hawaits : op.awaits) :
    s.Settled := by
  cases op with
  | lock => exact hmay.2
  | authenticate request => exact hmay.2.2
  | send operation request => exact hmay.2.2
  | _ => cases hawaits

/-- A call that is not at the lock is tracked whoever holds it. -/
theorem Tracked.away {j : Nat} {c : CacheCall} (hc : Tracked crates j g c)
    (h : ∀ hold, Hold.Holds j g hold → Hold.Holds j g' hold) : Tracked crates j g' c := by
  obtain ⟨q, stage, t⟩ := c
  obtain ⟨hsends, hauths, hstage⟩ := hc
  refine ⟨hsends, hauths, ?_⟩
  cases stage with
  | running p => exact ⟨hstage.1, h _ hstage.2⟩
  | returned => exact ⟨hstage.1, h _ hstage.2⟩
  | dropped => exact ⟨hstage.1, h _ hstage.2⟩

/-- A step of a call keeps the invariants of every call. -/
theorem tracked_step {c c' : CacheCall} (hi : i < n) (hsane : g.Sane n)
    (hc : Tracked crates i g c) (h : CephClient.Step crates i g c g' c') :
    g'.Sane n ∧ Tracked crates i g' c' ∧
      ∀ j r, j ≠ i → Tracked crates j g r → Tracked crates j g' r := by
  cases h with
  | @work q op next t _ answer h =>
      obtain ⟨hsends, hauths, ⟨hmay, hnext⟩, hholds⟩ := hc
      obtain ⟨hsane', hholds', hothers⟩ := holds_work hi hsane hmay hholds h
      obtain ⟨hsends', hauths'⟩ := bounds_work answer hmay ⟨hsends, hauths⟩
      refine ⟨hsane', ?_, fun j r hne hr => hr.away fun hold => hothers j hold hne⟩
      unfold Tracked
      dsimp only
      rw [session_snoc]
      exact ⟨hsends', hauths', hnext answer, hholds'⟩
  | finish =>
      obtain ⟨hsends, hauths, hended, hholds⟩ := hc
      refine ⟨hsane, ⟨hsends, hauths, hended, ?_⟩, fun _ _ _ hr => hr⟩
      rwa [hended.1] at hholds
  | @drop q op next t h =>
      obtain ⟨hsends, hauths, ⟨hmay, -⟩, -⟩ := hc
      have hgone : (g.leave i).owner ≠ some i := by
        unfold TokenCache.leave
        split_ifs with howner
        · nofun
        · exact howner
      refine ⟨?_, ⟨hsends, hauths, settled_awaiting hmay h, hgone⟩, fun j r hne hr => hr.away ?_⟩
      · unfold TokenCache.leave
        split_ifs
        · exact ⟨fun _ => rfl, nofun⟩
        · exact hsane
      · intro hold hj
        unfold TokenCache.leave
        split_ifs with howner
        · obtain rfl := hj.away hne howner
          nofun
        · exact hj

/-- A call that joins obeys the protocol. -/
theorem tracked_start (q : CallRequest) (hsane : g.Sane n) :
    Tracked crates n g ⟨q, .running (q.program crates client), []⟩ := by
  have haway : Hold.away.Holds n g := fun h => absurd (hsane.2 n h) (Nat.lt_irrefl n)
  refine ⟨Nat.zero_le _, Nat.zero_le _, ?_, haway⟩
  cases q with
  | query method path parameters body accept =>
      show (protocol crates 2).wp ((client.query crates _ _ _ _ _).run >>= _) _ _
      rw [Monitor.wp_bind]
      exact query_protocol
  | mutate method path parameters body =>
      show (protocol crates 1).wp ((client.mutate crates _ _ _ _).run >>= _) _ _
      rw [Monitor.wp_bind]
      exact mutate_protocol

end Invariants

/-- In every interleaving every call obeys the protocol. -/
theorem tracked {pool : ProcessPool.Pool TokenCache CacheCall}
    (h : (CephClient.calls crates client).Reachable .empty pool) :
    pool.shared.Sane pool.procs.length ∧
      ∀ i c, pool.procs[i]? = some c → Tracked crates i pool.shared c := by
  refine ProcessPool.Behaviour.local_invariant (I := Tracked crates)
    (J := fun n (g : TokenCache) => g.Sane n) ⟨fun _ => rfl, fun _ h => by cases h⟩ ?_
    (fun n i g c g' c' hi hsane hc h => tracked_step hi hsane hc h)
    (fun _ _ _ _ (h : False) => h.elim) h
  rintro n g c hsane ⟨q, rfl⟩
  exact ⟨⟨hsane.1, fun i hi => Nat.lt_succ_of_lt (hsane.2 i hi)⟩, tracked_start q hsane⟩

/-- A token was answered 401, and it is neither cached nor about to be. -/
def TokenCache.Gone (g : TokenCache) (token : String) : Prop :=
  token ∈ g.rejected ∧ g.token ≠ some token ∧ g.issued ≠ some token

/-- The condition on an answer, in the state before it: the `last` request a call may send is
answered 401 only for a token that is gone from the cache, and no token is issued that was answered
401. -/
def TokenCache.Permits (crates : Crates) (g : TokenCache) (last : Prop) :
    (op : Op) → Ans op → Prop
  | .send _ request, exchange => last → unauthorized exchange → ∀ token,
      request.token = some token → g.token ≠ some token ∧ g.issued ≠ some token
  | .authenticate _, exchange => ∀ token, authToken crates exchange = .ok token →
      token ∉ g.rejected
  | _, _ => True

/-- A step whose answer meets the condition. -/
def Careful (crates : Crates) (g : TokenCache) (c : CacheCall) (_ : TokenCache)
    (c' : CacheCall) : Prop :=
  ∀ op answer, c'.trace = c.trace ++ [⟨op, answer⟩] →
    g.Permits crates (sends c.trace + 1 = c.request.limit) op answer

/-- The token of a call's last request, if it was answered 401, is gone once it was cleared or the
call may send no more. -/
def Removed (crates : Crates) (g : TokenCache) (c : CacheCall) : Prop :=
  let s := session crates c.request.limit c.trace
  ∀ token, Refused s.last token → token ∈ g.rejected ∧
    (s.since = .cleared ∨ s.sends = c.request.limit → g.Gone token)

section Shows

variable {limit : Nat}

/-- The protocol counts the requests of the trace. -/
theorem after_sends (s : Session) (t : Trace Ans) :
    ((protocol crates limit).after s t).sends = s.sends + sends t := by
  induction t generalizing s with
  | nil => rfl
  | cons e t ih =>
      obtain ⟨op, answer⟩ := e
      rw [Monitor.after_cons, ih]
      cases op with
      | send operation request =>
          simp only [protocol, sends, List.countP_cons, if_true]
          omega
      | _ => simp [protocol, sends]

/-- It counts the logins. -/
theorem after_auths (s : Session) (t : Trace Ans) :
    ((protocol crates limit).after s t).auths = s.auths + auths t := by
  induction t generalizing s with
  | nil => rfl
  | cons e t ih =>
      obtain ⟨op, answer⟩ := e
      rw [Monitor.after_cons, ih]
      cases op with
      | authenticate request =>
          simp only [protocol, auths, List.countP_cons, if_true]
          omega
      | _ => simp [protocol, auths]

/-- It remembers the last request. -/
theorem after_last (s : Session) (t : Trace Ans) :
    ((protocol crates limit).after s t).last = (lastRequest t).or s.last := by
  induction t generalizing s with
  | nil => rfl
  | cons e t ih =>
      obtain ⟨op, answer⟩ := e
      rw [Monitor.after_cons, ih]
      cases op with
      | send operation request => cases h : lastRequest t <;> simp [protocol, lastRequest, h]
      | _ => rfl

/-- What was seen of the cache is forgotten only with a new request. -/
theorem after_since {s : Session} {t : Trace Ans}
    (h : lockedSince t ∨ lastRequest t = none ∧ s.since ≠ .nothing) :
    ((protocol crates limit).after s t).since ≠ .nothing := by
  induction t generalizing s with
  | nil => 
      rcases h with h | ⟨-, h⟩
      · cases h
      · exact h
  | cons e t ih =>
      obtain ⟨op, answer⟩ := e
      rw [Monitor.after_cons]
      refine ih ?_
      cases op with
      | send operation request =>
          rcases h with h | ⟨h, -⟩
          · exact .inl h
          · cases h
      | lock =>
          have hsee : s.see answer ≠ .nothing := by
            unfold Session.see
            split <;> nofun
          rcases h with h | ⟨h, -⟩
          · rcases (Bool.or_eq_true _ _).mp h with h | h
            · exact .inr ⟨Option.isNone_iff_eq_none.mp h, hsee⟩
            · exact .inl h
          · exact .inr ⟨h, hsee⟩
      | store token =>
          refine h.imp_right fun ⟨hlast, hsince⟩ => ⟨hlast, ?_⟩
          cases token with
          | none => nofun
          | some token => exact hsince
      | _ => exact h

/-- The same counts from the start of a call. -/
theorem session_sends (crates : Crates) (limit : Nat) (t : Trace Ans) :
    (session crates limit t).sends = sends t := (after_sends .start t).trans (Nat.zero_add _)

/-- Its logins. -/
theorem session_auths (crates : Crates) (limit : Nat) (t : Trace Ans) :
    (session crates limit t).auths = auths t := (after_auths .start t).trans (Nat.zero_add _)

/-- Its last request. -/
theorem session_last (crates : Crates) (limit : Nat) (t : Trace Ans) :
    (session crates limit t).last = lastRequest t := (after_last .start t).trans (Option.or_none ..)

/-- A call that has the lock since a rejection remembers so. -/
theorem session_since (crates : Crates) (limit : Nat) {t : Trace Ans} (h : lockedSince t) :
    (session crates limit t).since ≠ .nothing := after_since (.inl h)

end Shows

section Removal

variable {limit i : Nat} {g g' : TokenCache} {s : Session} {op : Op} {answer : Ans op}
  {last : Prop}

/-- A rejected token stays rejected. -/
theorem rejected_work (h : g.Heeds crates i op answer g') {token : String}
    (htoken : token ∈ g.rejected) : token ∈ g'.rejected := by
  cases op with
  | lock =>
      obtain ⟨-, -, rfl⟩ := h
      exact htoken
  | authenticate request =>
      obtain rfl := h
      split <;> exact htoken
  | send operation request =>
      obtain rfl := h
      split
      · exact List.mem_append_right _ htoken
      · exact htoken
  | store token | unlock | tryAcquire | release | progress =>
      obtain rfl := h
      exact htoken

/-- What is gone stays gone. -/
theorem gone_work (hmay : (protocol crates limit).may s op) (hholds : s.hold.Holds i g)
    (h : g.Heeds crates i op answer g') (hpermits : g.Permits crates last op answer)
    {token : String} (htoken : g.Gone token) : g'.Gone token := by
  refine ⟨rejected_work h htoken.1, ?_⟩
  obtain ⟨hrejected, hcached, hissued⟩ := htoken
  cases op with
  | lock =>
      obtain ⟨-, -, rfl⟩ := h
      exact ⟨hcached, hissued⟩
  | store stored =>
      obtain rfl := h
      cases stored with
      | none => exact ⟨nofun, nofun⟩
      | some stored =>
          have hhold : s.hold = .minted stored := hmay
          rw [hhold] at hholds
          exact ⟨hholds.2.2 ▸ hissued, nofun⟩
  | authenticate request =>
      obtain rfl := h
      cases hauth : authToken crates answer with
      | error e => exact ⟨hcached, hissued⟩
      | ok new =>
          refine ⟨hcached, fun h => hpermits new hauth ?_⟩
          rwa [Option.some.inj h]
  | send operation request =>
      obtain rfl := h
      split <;> exact ⟨hcached, hissued⟩
  | unlock | tryAcquire | release | progress =>
      obtain rfl := h
      exact ⟨hcached, hissued⟩

/-- A step of a call keeps the removal of its own token. -/
theorem removed_work {q : CallRequest} {t : Trace Ans} {stage stage' : Stage}
    (hmay : (protocol crates q.limit).may (session crates q.limit t) op)
    (hholds : (session crates q.limit t).hold.Holds i g)
    (hsane : g.owner = none → g.issued = none) (h : g.Heeds crates i op answer g')
    (hpermits : g.Permits crates (sends t + 1 = q.limit) op answer)
    (hremoved : Removed crates g ⟨q, stage, t⟩) :
    Removed crates g' ⟨q, stage', t ++ [⟨op, answer⟩]⟩ := by
  have hsends := session_sends crates q.limit t
  unfold Removed at hremoved ⊢
  dsimp only at hremoved ⊢
  rw [session_snoc]
  generalize session crates q.limit t = s at *
  have hgone : ∀ token, g.Gone token → g'.Gone token := fun token =>
    gone_work hmay hholds h hpermits
  intro token htoken
  cases op with
  | lock =>
      obtain ⟨hrejected, hcleared⟩ := hremoved token htoken
      refine ⟨rejected_work h hrejected, fun hs => hgone token ?_⟩
      obtain ⟨hfree, rfl, rfl⟩ := h
      have hown : s.token = some token := by
        obtain ⟨request, exchange, hlast, hrequest, -⟩ := htoken
        have hlast : s.last = some (request, exchange) := hlast
        simp [Session.token, hlast, hrequest]
      rcases hs with hs | hs
      · by_cases hsince : s.since = .cleared
        · exact hcleared (.inl hsince)
        · replace hs : s.see g.token = .cleared := hs
          refine ⟨hrejected, fun hcached => ?_, by simp [hsane hfree]⟩
          simp [Session.see, hcached, hown, hsince] at hs
      · exact hcleared (.inr hs)
  | store stored =>
      obtain ⟨hrejected, hcleared⟩ := hremoved token htoken
      refine ⟨rejected_work h hrejected, fun hs => ?_⟩
      cases stored with
      | none =>
          obtain rfl := h
          exact ⟨hrejected, nofun, nofun⟩
      | some stored => exact hgone token (hcleared hs)
  | send operation request =>
      obtain ⟨request', exchange, hlast, hrequest, hrefused⟩ := htoken
      obtain ⟨rfl, rfl⟩ := Prod.mk.inj (Option.some.inj hlast)
      obtain rfl := h
      have hmem : token ∈ request.token.toList ++ g.rejected := by simp [hrequest]
      rw [if_pos hrefused]
      refine ⟨hmem, fun hs => ⟨hmem, ?_⟩⟩
      rcases hs with hs | hs
      · cases hs
      · exact hpermits (hsends ▸ hs) hrefused token hrequest
  | _ =>
      obtain ⟨hrejected, hcleared⟩ := hremoved token htoken
      exact ⟨rejected_work h hrejected, fun hs => hgone token (hcleared hs)⟩

/-- A step of a call keeps its own rejected tokens out, and everyone else's. -/
theorem removed_step {n : Nat} {c c' : CacheCall} (hsane : g.Sane n) (hc : Tracked crates i g c)
    (hremoved : Removed crates g c) (h : CephClient.Step crates i g c g' c')
    (hcareful : Careful crates g c g' c') :
    Removed crates g' c' ∧ ∀ r, Removed crates g r → Removed crates g' r := by
  cases h with
  | @work q op next t _ answer h =>
      obtain ⟨-, -, ⟨hmay, -⟩, hholds⟩ := hc
      have hpermits := hcareful op answer rfl
      refine ⟨removed_work hmay hholds hsane.1 h hpermits hremoved, fun r hr token htoken => ?_⟩
      obtain ⟨hrejected, hcleared⟩ := hr token htoken
      exact ⟨rejected_work h hrejected, fun hs => gone_work hmay hholds h hpermits (hcleared hs)⟩
  | finish => exact ⟨hremoved, fun _ hr => hr⟩
  | drop h =>
      have hleave : ∀ r, Removed crates g r → Removed crates (g.leave i) r := by
        intro r hr
        unfold TokenCache.leave
        split_ifs
        · refine fun token htoken => ⟨(hr token htoken).1, fun hs => ?_⟩
          exact ⟨(hr token htoken).1, ((hr token htoken).2 hs).2.1, nofun⟩
        · exact hr
      exact ⟨hleave _ hremoved, hleave⟩

end Removal

/-- In every careful interleaving the rejected tokens are removed. -/
theorem removed {pool : ProcessPool.Pool TokenCache CacheCall}
    (h : ((CephClient.calls crates client).restrict (Careful crates)).Reachable .empty pool) :
    ∀ i c, pool.procs[i]? = some c →
      Tracked crates i pool.shared c ∧ Removed crates pool.shared c := by
  refine (ProcessPool.Behaviour.local_invariant
    (I := fun i g c => Tracked crates i g c ∧ Removed crates g c)
    (J := fun n (g : TokenCache) => g.Sane n) ⟨fun _ => rfl, fun _ h => by cases h⟩ ?_ ?_
    (fun _ _ _ _ (h : False) => h.elim) h).2
  · rintro n g c hsane ⟨q, rfl⟩
    refine ⟨⟨hsane.1, fun i hi => Nat.lt_succ_of_lt (hsane.2 i hi)⟩, tracked_start q hsane, ?_⟩
    exact fun token ⟨_, _, hlast, _⟩ => by cases hlast
  · rintro n i g c g' c' hi hsane ⟨hc, hremoved⟩ ⟨hstep, hcareful⟩
    obtain ⟨hsane', hc', hothers⟩ := tracked_step hi hsane hc hstep
    obtain ⟨hremoved', hkept⟩ := removed_step hsane hc hremoved hstep hcareful
    exact ⟨hsane', ⟨hc', hremoved'⟩, fun j r hne ⟨hr, hrr⟩ => ⟨hothers j r hne hr, hkept r hrr⟩⟩

/-- The operation a call comes to issue. -/
def CacheCall.pending (c : CacheCall) : Option Op :=
  match c.stage with
  | .running (.call op _) => some op
  | _ => none

/-- The requests sent by a call, with the one it awaits; or its authentications. -/
def CacheCall.issued (c : CacheCall) (count : Trace Ans → Nat) (kind : Op → Bool) : Nat :=
  count c.trace + if c.pending.any kind then 1 else 0

/-- Whether an operation is a request. -/
def Op.isSend : Op → Bool
  | .send _ _ => true
  | _ => false

/-- Whether it is a login. -/
def Op.isAuthenticate : Op → Bool
  | .authenticate _ => true
  | _ => false

/-- A call is over when it has returned, or was dropped; but not if it was dropped after its last
request before it had the lock. -/
def CacheCall.Over (c : CacheCall) : Prop :=
  match c.stage with
  | .running _ => False
  | .returned => True
  | .dropped => lockedSince c.trace

/-- A call that removes a token from the cache removes the token of its own last request, which was
rejected. -/
def RemovesOwn (crates : Crates) (i : Nat) (g : TokenCache) (c : CacheCall) : Prop :=
  ∀ g' c' token, CephClient.Step crates i g c g' c' → g.token = some token →
    g'.token ≠ some token → ∃ request exchange, lastRequest c.trace = some (request, exchange) ∧
      request.token = some token ∧ reply crates .query exchange = .error .unauthorized

section Law

variable {i : Nat} {g g' : TokenCache} {c c' : CacheCall}

/-- A tracked call takes out the token it was rejected with. -/
theorem Tracked.removesOwn (hc : Tracked crates i g c) : RemovesOwn crates i g c := by
  intro g' c' token h hcached hremoved
  cases h with
  | @work q op next t _ answer h =>
      obtain ⟨-, -, ⟨hmay, -⟩, hholds⟩ := hc
      cases op with
      | store stored =>
          cases stored with
          | none =>
              obtain ⟨request, exchange, own, hlast, hrequest, hhold, hreply⟩ := hmay
              rw [hhold] at hholds
              obtain rfl : token = own := Option.some.inj (hcached.symm.trans hholds.2.1)
              exact ⟨request, exchange, (session_last crates _ t).symm.trans hlast, hrequest, hreply⟩
          | some stored =>
              have hhold : (session crates q.limit t).hold = .minted stored := hmay
              rw [hhold] at hholds
              exact absurd (hcached.symm.trans hholds.2.1) nofun
      | lock =>
          obtain ⟨-, -, rfl⟩ := h
          exact absurd hcached hremoved
      | authenticate request =>
          obtain rfl := h
          cases hauth : authToken crates answer <;> rw [hauth] at hremoved <;>
            exact absurd hcached hremoved
      | send operation request =>
          obtain rfl := h
          split at hremoved <;> exact absurd hcached hremoved
      | unlock | tryAcquire | release | progress =>
          obtain rfl := h
          exact absurd hcached hremoved
  | finish => exact absurd hcached hremoved
  | drop h =>
      unfold TokenCache.leave at hremoved
      split at hremoved <;> exact absurd hcached hremoved

/-- It sends and logs in no more than it may, the operation it waits for included. -/
theorem Tracked.bounded (hc : Tracked crates i g c) :
    c.issued sends Op.isSend ≤ c.request.limit ∧
      c.issued auths Op.isAuthenticate ≤ c.request.limit := by
  obtain ⟨q, stage, t⟩ := c
  obtain ⟨hsends, hauths, hstage⟩ := hc
  dsimp only at hsends hauths hstage
  rw [session_sends] at hsends
  rw [session_auths] at hauths
  cases stage with
  | running p =>
      cases p with
      | done _ => exact ⟨hsends, hauths⟩
      | call op next =>
          obtain ⟨⟨hmay, -⟩, -⟩ := hstage
          cases op with
          | send operation request =>
              have hlt := hmay.2.1
              rw [session_sends] at hlt
              exact ⟨hlt, hauths⟩
          | authenticate request =>
              have hlt := hmay.2.1
              rw [session_auths] at hlt
              exact ⟨hsends, hlt⟩
          | _ => exact ⟨hsends, hauths⟩
  | returned => exact ⟨hsends, hauths⟩
  | dropped => exact ⟨hsends, hauths⟩

end Law

/-- **The law of the token cache.**  In every interleaving a call removes no token but the one of
its own last request, which was rejected, and it sends and authenticates at most `limit` times:
twice for a query, once for a mutation.  In every careful interleaving a token that was answered
401 in the last request of a call that is over is not in the cache. -/
theorem token_cache_law (crates : Crates) (client : CephClient) :
    (∀ pool, (client.calls crates).Reachable .empty pool →
      ∀ i c, pool.procs[i]? = some c → RemovesOwn crates i pool.shared c ∧
        c.issued sends Op.isSend ≤ c.request.limit ∧
        c.issued auths Op.isAuthenticate ≤ c.request.limit) ∧
    (∀ pool, ((client.calls crates).restrict (Careful crates)).Reachable .empty pool →
      ∀ c ∈ pool.procs, c.Over → ∀ token, Refused (lastRequest c.trace) token →
        pool.shared.token ≠ some token) := by
  refine ⟨fun pool h i c hi => ?_, fun pool h c hc hover token hrefused => ?_⟩
  · have hc := (tracked h).2 i c hi
    exact ⟨hc.removesOwn, hc.bounded⟩
  · obtain ⟨i, hi⟩ := List.getElem?_of_mem hc
    obtain ⟨⟨-, -, hstage⟩, hremoved⟩ := removed h i c hi
    rw [← session_last crates c.request.limit] at hrefused
    refine ((hremoved token hrefused).2 ?_).2.1
    obtain ⟨q, stage, t⟩ := c
    cases stage with
    | running p => exact hover.elim
    | returned => exact hstage.1.2 token hrefused
    | dropped =>
        have hseen := session_since crates q.limit hover
        have hsettled := hstage.1 token hrefused
        refine .inl ?_
        cases hsince : (session crates q.limit t).since with
        | nothing => exact absurd hsince hseen
        | present => exact absurd hsince hsettled
        | cleared => rfl

section Runs

variable {ok : TokenCache → CacheCall → TokenCache → CacheCall → Prop} {g g' : TokenCache}
  {q : CallRequest} {t u : Trace Ans}

/-- Events of a call on its own, from a cache to a cache, after the trace `t`. -/
inductive Runs (crates : Crates) (ok : TokenCache → CacheCall → TokenCache → CacheCall → Prop)
    (q : CallRequest) : TokenCache → Trace Ans → Trace Ans → TokenCache → Prop
  | nil (g : TokenCache) (t : Trace Ans) : Runs crates ok q g t [] g
  | cons {g g₁ g' : TokenCache} {t u : Trace Ans} {op : Op} {answer : Ans op}
      (h : g.Heeds crates 0 op answer g₁)
      (hok : ∀ s s', ok g ⟨q, s, t⟩ g₁ ⟨q, s', t ++ [⟨op, answer⟩]⟩)
      (hu : Runs crates ok q g₁ (t ++ [⟨op, answer⟩]) u g') :
      Runs crates ok q g t (⟨op, answer⟩ :: u) g'

/-- A call on its own runs as far as its program and the cache let it. -/
theorem Runs.reachable {p p' : Program Op Ans Unit} (hu : Runs crates ok q g t u g')
    (hp : Reaches p u p')
    (h : ((client.calls crates).restrict ok).Reachable .empty ⟨g, [⟨q, .running p, t⟩]⟩) :
    ((client.calls crates).restrict ok).Reachable .empty ⟨g', [⟨q, .running p', t ++ u⟩]⟩ := by
  induction hu generalizing p with
  | nil g t =>
      cases hp
      simpa using h
  | @cons g g₁ g' t u op answer hheeds hok hu ih =>
      cases hp with
      | step hp =>
          have hstep := ProcessPool.Behaviour.Reachable.move h
            (.act rfl ⟨.work (i := 0) answer hheeds, hok _ _⟩)
          simpa using ih hp hstep

/-- A call on its own from its start. -/
theorem Runs.from_start {p : Program Op Ans Unit} (hu : Runs crates ok q .empty [] u g)
    (hp : Reaches (q.program crates client) u p) :
    ((client.calls crates).restrict ok).Reachable .empty ⟨g, [⟨q, .running p, u⟩]⟩ :=
  hu.reachable hp (.move .init (.join ⟨q, rfl⟩))

/-- What the environment permits is careful. -/
theorem careful_work {s s' : Stage} {op : Op} {answer : Ans op}
    (h : g.Permits crates (sends t + 1 = q.limit) op answer) :
    Careful crates g ⟨q, s, t⟩ g' ⟨q, s', t ++ [⟨op, answer⟩]⟩ := by
  intro op' answer' htrace
  obtain ⟨rfl, hanswer⟩ := Sigma.mk.inj (List.singleton_injective (List.append_cancel_left htrace))
  obtain rfl := eq_of_heq hanswer
  exact h

end Runs

/-- A parser that knows the body of an authentication in the samples. -/
def loginCrates : Crates where
  parseJson bytes :=
    if bytes = Text.ascii "\x7b\"token\":\"a\"\x7d" then some (.object [("token", .string "a")])
    else none
  joins _ := true

/-- A client of a cluster. -/
def sampleClient : CephClient := ⟨"admin", "secret"⟩

/-- A first authentication, which yields the token `a`. -/
def sampleLogin : Trace Ans :=
  [⟨.lock, none⟩, ⟨.tryAcquire, true⟩,
    ⟨.authenticate sampleClient.authRequest,
      .response 200 (.whole (Text.ascii "\x7b\"token\":\"a\"\x7d"))⟩,
    ⟨.release, ()⟩, ⟨.store (some "a"), ()⟩, ⟨.unlock, ()⟩, ⟨.tryAcquire, true⟩]

/-- A mutation. -/
def sampleMutation : CallRequest := .mutate .put "api/osd/3/mark" [] none

/-- A mutation that authenticates and is answered 401. -/
def rejectedMutation : Trace Ans :=
  sampleLogin ++ [⟨.progress, ()⟩,
    ⟨.send .mutation ⟨.put, "api/osd/3/mark", [], none, apiV1, some "a"⟩, .response 401 (.whole [])⟩,
    ⟨.release, ()⟩]

/-- A mutation answered 401 leaves its token in the cache. -/
theorem rejected_token_stays : ¬ ∀ pool, (sampleClient.calls loginCrates).Reachable .empty pool →
    ∀ c ∈ pool.procs, c.Over → ∀ token, Refused (lastRequest c.trace) token →
      pool.shared.token ≠ some token := by
  have hreach : Reaches (sampleMutation.program loginCrates sampleClient) rejectedMutation
      (.done ()) :=
    .step (.step (.step (.step (.step (.step (.step (.step (.step (.step (.refl _))))))))))
  have hruns : Runs loginCrates (fun _ _ _ _ => True) sampleMutation .empty [] rejectedMutation
      ⟨some "a", none, none, ["a"]⟩ :=
    .cons ⟨rfl, rfl, rfl⟩ (fun _ _ => trivial) <| .cons rfl (fun _ _ => trivial) <|
      .cons rfl (fun _ _ => trivial) <| .cons rfl (fun _ _ => trivial) <|
      .cons rfl (fun _ _ => trivial) <| .cons rfl (fun _ _ => trivial) <|
      .cons rfl (fun _ _ => trivial) <| .cons rfl (fun _ _ => trivial) <|
      .cons rfl (fun _ _ => trivial) <| .cons rfl (fun _ _ => trivial) <| .nil _ _
  have hreturned : (sampleClient.calls loginCrates).Reachable .empty
      ⟨⟨some "a", none, none, ["a"]⟩, [⟨sampleMutation, .returned, rejectedMutation⟩]⟩ :=
    .move (hruns.from_start hreach).of_restrict (.act (i := 0) rfl .finish)
  exact fun h => h _ hreturned _ (List.mem_singleton_self _) trivial "a" ⟨_, _, rfl, rfl, rfl⟩ rfl

/-- A query. -/
def sampleQuery : CallRequest := .query .get "api/osd/flags" [] none apiV1

/-- A query that authenticates, is answered 401, clears the cache and finds no permit for another
authentication. -/
def rejectedQuery : Trace Ans :=
  sampleLogin ++ [⟨.send .query (CephClient.queryRequest .get "api/osd/flags" [] none apiV1 "a"),
      .response 401 (.whole [])⟩,
    ⟨.release, ()⟩, ⟨.lock, some "a"⟩, ⟨.store none, ()⟩, ⟨.unlock, ()⟩, ⟨.lock, none⟩,
    ⟨.tryAcquire, false⟩, ⟨.unlock, ()⟩]

/-- The pool after that query. -/
def rejectedQueryPool : ProcessPool.Pool TokenCache CacheCall :=
  ⟨⟨none, none, none, ["a"]⟩, [⟨sampleQuery, .returned, rejectedQuery⟩]⟩

/-- A query answered 401 does not leave its token in the cache. -/
theorem token_cache_law_query :
    ((sampleClient.calls loginCrates).restrict (Careful loginCrates)).Reachable .empty
      rejectedQueryPool ∧ rejectedQueryPool.shared.token ≠ some "a" := by
  have hreach : Reaches (sampleQuery.program loginCrates sampleClient) rejectedQuery (.done ()) :=
    .step (.step (.step (.step (.step (.step (.step (.step (.step (.step (.step (.step (.step
      (.step (.step (.refl _)))))))))))))))
  have hruns : Runs loginCrates (Careful loginCrates) sampleQuery .empty [] rejectedQuery
      ⟨none, none, none, ["a"]⟩ :=
    .cons ⟨rfl, rfl, rfl⟩ (fun _ _ => careful_work trivial) <|
      .cons rfl (fun _ _ => careful_work trivial) <|
      .cons rfl (fun _ _ => careful_work fun _ _ => List.not_mem_nil) <|
      .cons rfl (fun _ _ => careful_work trivial) <|
      .cons rfl (fun _ _ => careful_work trivial) <|
      .cons rfl (fun _ _ => careful_work trivial) <|
      .cons rfl (fun _ _ => careful_work trivial) <|
      .cons rfl (fun _ _ => careful_work fun h => by cases h) <|
      .cons rfl (fun _ _ => careful_work trivial) <|
      .cons ⟨rfl, rfl, rfl⟩ (fun _ _ => careful_work trivial) <|
      .cons rfl (fun _ _ => careful_work trivial) <|
      .cons rfl (fun _ _ => careful_work trivial) <|
      .cons ⟨rfl, rfl, rfl⟩ (fun _ _ => careful_work trivial) <|
      .cons rfl (fun _ _ => careful_work trivial) <|
      .cons rfl (fun _ _ => careful_work trivial) <| .nil _ _
  have hreturned : ((sampleClient.calls loginCrates).restrict (Careful loginCrates)).Reachable
      .empty rejectedQueryPool := by
    refine .move (hruns.from_start hreach) (.act (i := 0) rfl ⟨.finish, fun op answer h => ?_⟩)
    simp at h
  exact ⟨hreturned, (token_cache_law loginCrates sampleClient).2 _ hreturned _
    (List.mem_singleton_self _) trivial "a" ⟨_, _, rfl, rfl, rfl⟩⟩

end Ceph
