import HomelabMcp.Interaction

/-!
# Agent keys first, then the password

`AgentFirstAuthStrategy` asks the server for its methods, tries the first keys of the SSH agent and
asks for the password last.  Every call of the transport, of the agent and of the password getter
is one operation, and any answer may come, an exception of any class among them.

* `agent_first_law`: what holds of every run, whatever is answered.
* `reveals_law`: a lazy secret is not asked for again once it is known.
-/

namespace PasswordAuth

open Interaction

/-- `allowed_types` of an exception: no list, or a list whose entries may be no strings. -/
inductive AllowedTypes where
  | other
  | list (methods : List (Option String))
  deriving DecidableEq

/-- Exceptions by the classes that are told apart. -/
inductive Exn where
  | badAuthenticationType (allowed : AllowedTypes)
  | authenticationException (message : String)
  | sshException
  | osError
  | valueError (message : String)
  | exception
  | baseException
  deriving DecidableEq

namespace Exn

/-- An `AuthenticationException`. -/
def isAuthentication : Exn → Bool
  | badAuthenticationType _ | authenticationException _ => true
  | _ => false

/-- An `SSHException` or an `OSError`. -/
def isTransport : Exn → Bool
  | badAuthenticationType _ | authenticationException _ | sshException | osError => true
  | _ => false

/-- An `Exception`. -/
def isException : Exn → Bool
  | baseException => false
  | _ => true

end Exn

/-- A secret that is asked for when it is needed. -/
structure LazySecret where
  emptyError : String
  secret : Option String

namespace LazySecret

/-- What the getter is asked and how it answers. -/
abbrev Getter (_ : Unit) := Except Exn String

/-- What the getter gave, kept unless it is empty. -/
def keep (lazy : LazySecret) : Except Exn String → Except Exn (String × LazySecret)
  | .error e => .error e
  | .ok value =>
      if value = "" then .error (.valueError lazy.emptyError)
      else .ok (value, { lazy with secret := some value })

/-- The secret, with the state that keeps it. -/
def reveal (lazy : LazySecret) : Fallible Getter Exn (String × LazySecret) :=
  match lazy.secret with
  | some value => return (value, lazy)
  | none => do answer (lazy.keep (← ask ()))

/-- So many calls, one after the other; one that fails leaves the state as it was. -/
def reveals : Nat → LazySecret → Program Unit Getter (List (Except Exn String))
  | 0, _ => return []
  | n + 1, lazy => do
      match ← lazy.reveal.run with
      | .ok (value, lazy) => return .ok value :: (← reveals n lazy)
      | .error e => return .error e :: (← reveals n lazy)

/-- A secret that is known is not asked for. -/
theorem reveals_known {lazy : LazySecret} {value : String} (h : lazy.secret = some value)
    (n : Nat) : lazy.reveals n = .done (List.replicate n (.ok value)) := by
  induction n with
  | zero => rfl
  | succ n ih =>
      have hreveal : lazy.reveal.run = .done (.ok (value, lazy)) := by
        unfold reveal
        rw [h]
        rfl
      unfold reveals
      rw [hreveal, Program.done_bind]
      dsimp only
      rw [ih]
      rfl

/-- A secret that is not known is asked for. -/
theorem reveal_unknown {lazy : LazySecret} (h : lazy.secret = none) :
    lazy.reveal.run = .call () fun value => .done (lazy.keep value) := by
  unfold reveal
  rw [h]
  rfl

/-- The first call of several, and the others. -/
theorem reveals_first {lazy : LazySecret} (h : lazy.secret = none) {n : Nat} {t : Trace Getter}
    {results : List (Except Exn String)} (hrun : Reaches (lazy.reveals (n + 1)) t (.done results)) :
    ∃ value rest others, t = ⟨(), value⟩ :: rest ∧
      Reaches (match lazy.keep value with
        | .ok (_, lazy) => lazy.reveals n
        | .error _ => lazy.reveals n) rest (.done others) := by
  unfold reveals at hrun
  rw [reveal_unknown h, Program.call_bind] at hrun
  cases hrun with
  | @step _ _ value rest _ hrest =>
      dsimp only at hrest
      rw [Program.done_bind] at hrest
      cases hvalue : lazy.keep value with
      | error e =>
          rw [hvalue] at hrest
          obtain ⟨others, first, last, hfirst, hlast, rfl⟩ := hrest.bind_inv
          cases hlast
          exact ⟨value, first ++ [], others, rfl, by rwa [hvalue, List.append_nil]⟩
      | ok found =>
          rw [hvalue] at hrest
          obtain ⟨others, first, last, hfirst, hlast, rfl⟩ := hrest.bind_inv
          cases hlast
          exact ⟨value, first ++ [], others, rfl, by rwa [hvalue, List.append_nil]⟩

/-- **A lazy secret is asked for until it is known.** -/
theorem reveals_law (lazy : LazySecret) (n : Nat) {t : Trace Getter}
    {results : List (Except Exn String)} (h : Reaches (lazy.reveals n) t (.done results)) :
    ∀ before rest value, t = before ++ ⟨(), .ok value⟩ :: rest → value ≠ "" → rest = [] := by
  induction n generalizing lazy t results with
  | zero =>
      have h : Reaches (.done [] : Program Unit Getter _) t (.done results) := h
      cases h
      intro before rest value ht
      simp at ht
  | succ n ih =>
      cases hsecret : lazy.secret with
      | some known =>
          rw [reveals_known hsecret] at h
          cases h
          intro before rest value ht
          simp at ht
      | none =>
          obtain ⟨answer, others, results', rfl, hothers⟩ := reveals_first hsecret h
          intro before rest value ht hvalue
          cases before with
          | nil =>
              obtain ⟨hevent, rfl⟩ := List.cons.inj ht
              obtain rfl : answer = .ok value := eq_of_heq (Sigma.mk.inj hevent).2
              simp only [keep, if_neg hvalue] at hothers
              rw [reveals_known rfl] at hothers
              cases hothers
              rfl
          | cons first before =>
              obtain ⟨-, hlater⟩ := List.cons.inj ht
              cases hanswer : lazy.keep answer with
              | error e =>
                  rw [hanswer] at hothers
                  exact ih lazy hothers before rest value hlater hvalue
              | ok found =>
                  rw [hanswer] at hothers
                  exact ih found.2 hothers before rest value hlater hvalue

end LazySecret

section

variable (Key : Type)

/-- The calls of the transport, of the agent and of the password getter.  `getKeys` is the iterator
of the keys, `nextKey` one step of it. -/
inductive Op where
  | authNone (username : String)
  | agentFactory
  | getKeys
  | nextKey
  | authPublickey (username : String) (key : Key)
  | closeAgent
  | getPassword
  | authPassword (username password : String)

/-- An authentication that is not refused leaves the methods that are still to be passed. -/
abbrev Ans : Op Key → Type
  | .authNone _ | .authPublickey _ _ | .authPassword _ _ => Except Exn (List String)
  | .agentFactory | .getKeys | .closeAgent => Except Exn Unit
  | .nextKey => Except Exn (Option Key)
  | .getPassword => Except Exn String

/-- What an attempt was made with. -/
inductive Source where
  | methodProbe
  | agentKey (key : Key)
  | password

/-- The attempts so far. -/
abbrev AuthResult := List (Source Key × Except Exn (List String))

end

variable {Key : Type}

/-- A part of the strategy. -/
abbrev Call (Key α : Type) := Fallible (Ans Key) Exn α

/-- The most keys of an agent that are tried. -/
def maxAgentKeyAttempts : Nat := 4

/-- The strategy of a user. -/
structure AgentFirstAuthStrategy where
  username : String

/-- The methods a server may name. -/
def validMethod : Option String → Bool
  | none => false
  | some method => !method.isEmpty && method.length ≤ 64

/-- The list of methods, where it is one. -/
def methodList : AllowedTypes → Except Exn (List String)
  | .other =>
      .error (.authenticationException "SSH server returned an invalid authentication method list")
  | .list methods =>
      if methods.length > 16 || methods.any (!validMethod ·) then
        .error
          (.authenticationException "SSH server returned an invalid authentication method list")
      else .ok (methods.filterMap id)

namespace AgentFirstAuthStrategy

variable (strategy : AgentFirstAuthStrategy)

/-- The methods of the server, from the refusal of a login without one. -/
def probe : Call Key (List String × AuthResult Key) := do
  match ← ask (Op.authNone strategy.username) with
  | .error (.badAuthenticationType allowed) =>
      let methods ← answer (methodList allowed)
      return (methods, [(.methodProbe, .error (.badAuthenticationType allowed))])
  | .error e =>
      if e.isTransport then
        throw (.authenticationException
          "SSH server authentication methods could not be determined")
      else throw e
  | .ok _ =>
      throw (.authenticationException "SSH server unexpectedly accepted none authentication")

/-- At most so many keys more; whether one of them was enough. -/
def tryKeys : Nat → AuthResult Key → Call Key (AuthResult Key × Bool)
  | 0, result => return (result, false)
  | attempts + 1, result => do
      match ← answer (← ask Op.nextKey) with
      | none => return (result, false)
      | some key =>
          match ← ask (Op.authPublickey strategy.username key) with
          | .error e =>
              if e.isAuthentication then
                tryKeys attempts (result ++ [(.agentKey key, .error e)])
              else if e.isTransport then
                throw (.authenticationException
                  "SSH agent authentication could not be completed")
              else throw e
          | .ok remaining =>
              if remaining ≠ [] then
                throw (.authenticationException
                  "SSH server requires unsupported multi-step authentication")
              else return (result ++ [(.agentKey key, .ok remaining)], true)

/-- The handlers around the agent. -/
def agentError (e : Exn) : Exn :=
  if e.isAuthentication then e
  else if e.isTransport then .authenticationException "SSH agent could not be queried"
  else if e.isException then .authenticationException "SSH agent returned an invalid response"
  else e

/-- What an agent that was not closed comes to. -/
def closeError (e : Exn) : Exn :=
  if e.isException then .authenticationException "SSH agent could not be closed" else e

/-- The keys of the agent, which is closed whatever comes of them. -/
def tryAgent (result : AuthResult Key) : Call Key (AuthResult Key × Bool) := do
  let opened ← ask Op.agentFactory
  answer (opened.mapError agentError)
  let outcome ← attempt (do
    answer (← ask Op.getKeys)
    tryKeys strategy maxAgentKeyAttempts result)
  let closed ← ask Op.closeAgent
  answer (closed.mapError closeError)
  answer (outcome.mapError agentError)

/-- What a failed password comes to. -/
def passwordError (e : Exn) : Exn :=
  if e.isAuthentication then .authenticationException "SSH password authentication failed"
  else if e.isTransport then
    .authenticationException "SSH password authentication could not be completed"
  else e

/-- The password, at the end. -/
def tryPassword (result : AuthResult Key) : Call Key (AuthResult Key) := do
  let outcome ← attempt (do
    let password ← answer (← ask Op.getPassword)
    answer (← ask (Op.authPassword strategy.username password)))
  let remaining ← answer (outcome.mapError passwordError)
  if remaining ≠ [] then
    throw (.authenticationException "SSH server requires unsupported multi-step authentication")
  else return result ++ [(.password, .ok remaining)]

/-- The keys of the agent, if the server takes one. -/
def tryListedAgent (methods : List String) (result : AuthResult Key) :
    Call Key (AuthResult Key × Bool) :=
  if "publickey" ∈ methods then tryAgent strategy result else return (result, false)

/-- `authenticate`. -/
def authenticate : Call Key (AuthResult Key) := do
  let (methods, result) ← probe strategy
  let (result, accepted) ← tryListedAgent strategy methods result
  if accepted then return result
  else if "password" ∈ methods then tryPassword strategy result
  else if "publickey" ∈ methods then
    throw (.authenticationException ("SSH server permits publickey authentication, " ++
      "but no bounded agent identity succeeded"))
  else throw (.authenticationException "SSH server offers no supported authentication method")

end AgentFirstAuthStrategy

/-- The bounded method list of the server, from the first event. -/
def offered (t : Trace (Ans Key)) : Option (List String) := t.head?.bind fun
  | ⟨.authNone _, .error (.badAuthenticationType allowed)⟩ => (methodList allowed).toOption
  | _ => none

/-- The keys of the agent, in its order. -/
def given (t : Trace (Ans Key)) : List Key := t.filterMap fun
  | ⟨.nextKey, .ok key⟩ => key
  | _ => none

/-- The keys that were tried. -/
def tried (t : Trace (Ans Key)) : List Key := t.filterMap fun
  | ⟨.authPublickey _ key, _⟩ => some key
  | _ => none

/-- The outcomes of the attempts with keys and with the password. -/
def attempts (t : Trace (Ans Key)) : List (Except Exn (List String)) := t.filterMap fun
  | ⟨.authPublickey _ _, outcome⟩ => some outcome
  | ⟨.authPassword _ _, outcome⟩ => some outcome
  | _ => none

/-- How often the password getter was called. -/
def asked (t : Trace (Ans Key)) : Nat := t.countP fun
  | ⟨.getPassword, _⟩ => true
  | _ => false

/-- How often the factory returned an agent. -/
def opened (t : Trace (Ans Key)) : Nat := t.countP fun
  | ⟨.agentFactory, .ok _⟩ => true
  | _ => false

/-- How often an agent was closed. -/
def closed (t : Trace (Ans Key)) : Nat := t.countP fun
  | ⟨.closeAgent, _⟩ => true
  | _ => false

/-- An event before the password is asked for: the method list, a call of the agent that did not
fail, or a key that was refused. -/
def isCalm : Event (Ans Key) → Bool
  | ⟨.authNone _, .error (.badAuthenticationType _)⟩ => true
  | ⟨.agentFactory, .ok _⟩ | ⟨.getKeys, .ok _⟩ | ⟨.nextKey, .ok _⟩ | ⟨.closeAgent, .ok _⟩ => true
  | ⟨.authPublickey _ _, .error e⟩ => e.isAuthentication
  | _ => false

/-- The server's bounded list has the method. -/
def Listed (method : String) (t : Trace (Ans Key)) : Prop :=
  ∃ methods, offered t = some methods ∧ method ∈ methods

/-- What has to be before the password is asked for. -/
structure MayAsk (t : Trace (Ans Key)) : Prop where
  listed : Listed "password" t
  calm : ∀ e ∈ t, isCalm e = true

/-- A method that was listed stays listed. -/
theorem Listed.append {method : String} {t : Trace (Ans Key)} (h : Listed method t)
    (u : Trace (Ans Key)) : Listed method (t ++ u) := by
  obtain ⟨methods, hoffered, hmem⟩ := h
  refine ⟨methods, ?_, hmem⟩
  cases t with
  | nil => cases hoffered
  | cons e t =>
      rw [← hoffered]
      rfl

/-- When an operation may be called, after a trace. -/
def mayCall (t : Trace (Ans Key)) : Op Key → Prop
  | .authNone _ => t = []
  | .agentFactory => Listed "publickey" t ∧ opened t = 0
  | .getKeys => True
  | .nextKey => Listed "publickey" t ∧ tried t = given t ∧ (given t).length < maxAgentKeyAttempts
  | .authPublickey _ key => Listed "publickey" t ∧ tried t ++ [key] = given t
  | .closeAgent => closed t < opened t
  | .getPassword => MayAsk t ∧ asked t = 0
  | .authPassword _ _ => True

/-- What holds after every run. -/
structure Kept (t : Trace (Ans Key)) : Prop where
  asked_le : asked t ≤ 1
  tried_start : tried t <+: given t
  given_le : (given t).length ≤ maxAgentKeyAttempts
  tried_listed : tried t ≠ [] → Listed "publickey" t
  opened_le : opened t ≤ 1
  closed_le : closed t ≤ opened t

/-- Nothing done keeps to everything. -/
theorem kept_nil : Kept ([] : Trace (Ans Key)) where
  asked_le := Nat.zero_le 1
  tried_start := List.prefix_refl []
  given_le := Nat.zero_le _
  tried_listed h := absurd rfl h
  opened_le := Nat.zero_le 1
  closed_le := Nat.le_refl 0

section Projections

variable (t u : Trace (Ans Key))

/-- The keys that were given, in both stretches. -/
@[simp] theorem given_append : given (t ++ u) = given t ++ given u := List.filterMap_append

/-- The keys that were tried. -/
@[simp] theorem tried_append : tried (t ++ u) = tried t ++ tried u := List.filterMap_append

/-- The attempts. -/
@[simp] theorem attempts_append : attempts (t ++ u) = attempts t ++ attempts u :=
  List.filterMap_append

/-- The passwords asked for. -/
@[simp] theorem asked_append : asked (t ++ u) = asked t + asked u := List.countP_append

/-- The agents opened. -/
@[simp] theorem opened_append : opened (t ++ u) = opened t + opened u := List.countP_append

/-- The agents closed. -/
@[simp] theorem closed_append : closed (t ++ u) = closed t + closed u := List.countP_append

end Projections

/-- One event more. -/
theorem Kept.extend {t : Trace (Ans Key)} (h : Kept t) (e : Event (Ans Key))
    (hasked : asked t + asked [e] ≤ 1)
    (hstart : tried t ++ tried [e] <+: given t ++ given [e])
    (hgiven : (given t).length + (given [e]).length ≤ maxAgentKeyAttempts)
    (hlisted : tried [e] ≠ [] → Listed "publickey" t)
    (hopened : opened t + opened [e] ≤ 1)
    (hclosed : closed t + closed [e] ≤ opened t + opened [e]) : Kept (t ++ [e]) where
  asked_le := by rwa [asked_append]
  tried_start := by rwa [tried_append, given_append]
  given_le := by rwa [given_append, List.length_append]
  tried_listed hne := by
    have hold : Listed "publickey" t := by
      by_cases hnew : tried [e] = []
      · rw [tried_append, hnew, List.append_nil] at hne
        exact h.tried_listed hne
      · exact hlisted hnew
    exact hold.append [e]
  opened_le := by rwa [opened_append]
  closed_le := by rwa [closed_append, opened_append]

/-- An event without a key. -/
theorem Kept.plain {t : Trace (Ans Key)} (h : Kept t) (e : Event (Ans Key))
    (hgiven : given [e] = []) (htried : tried [e] = []) (hasked : asked t + asked [e] ≤ 1)
    (hopened : opened t + opened [e] ≤ 1)
    (hclosed : closed t + closed [e] ≤ opened t + opened [e]) : Kept (t ++ [e]) := by
  apply h.extend e hasked _ _ _ hopened hclosed
  · rw [htried, hgiven, List.append_nil, List.append_nil]
    exact h.tried_start
  · rw [hgiven]
    exact h.given_le
  · intro hne
    exact absurd htried hne

/-- **One call.**  An operation that may be called keeps it. -/
theorem Kept.step {t : Trace (Ans Key)} (h : Kept t) (op : Op Key) (answer : Ans Key op)
    (hmay : mayCall t op) : Kept (t ++ [⟨op, answer⟩]) := by
  have hasked := h.asked_le
  have hgiven := h.given_le
  have hopened := h.opened_le
  have hclosed := h.closed_le
  cases op with
  | authNone username => exact h.plain _ rfl rfl hasked hopened hclosed
  | getKeys => exact h.plain _ rfl rfl hasked hopened hclosed
  | authPassword username password => exact h.plain _ rfl rfl hasked hopened hclosed
  | agentFactory =>
      have hfirst : opened t = 0 := hmay.2
      cases answer with
      | error e => exact h.plain _ rfl rfl hasked hopened hclosed
      | ok u =>
          refine h.plain _ rfl rfl hasked ?_ ?_
          · show opened t + 1 ≤ 1
            omega
          · show closed t ≤ opened t + 1
            omega
  | nextKey =>
      obtain ⟨-, hsame, hfew⟩ : Listed "publickey" t ∧ tried t = given t ∧
        (given t).length < maxAgentKeyAttempts := hmay
      cases answer with
      | error e => exact h.plain _ rfl rfl hasked hopened hclosed
      | ok key =>
          cases key with
          | none => exact h.plain _ rfl rfl hasked hopened hclosed
          | some key =>
              refine h.extend _ hasked ?_ ?_ ?_ hopened hclosed
              · show tried t ++ [] <+: given t ++ [key]
                rw [hsame, List.append_nil]
                exact List.prefix_append _ _
              · show (given t).length + 1 ≤ maxAgentKeyAttempts
                omega
              · intro hne
                exact absurd rfl hne
  | authPublickey username key =>
      obtain ⟨hpublickey, hlast⟩ : Listed "publickey" t ∧ tried t ++ [key] = given t := hmay
      refine h.extend _ hasked ?_ hgiven ?_ hopened hclosed
      · show tried t ++ [key] <+: given t ++ []
        rw [hlast, List.append_nil]
      · intro _
        exact hpublickey
  | closeAgent =>
      have hopen : closed t < opened t := hmay
      refine h.plain _ rfl rfl hasked hopened ?_
      show closed t + 1 ≤ opened t
      omega
  | getPassword =>
      have hfirst : asked t = 0 := hmay.2
      refine h.plain _ rfl rfl ?_ hopened hclosed
      show asked t + 1 ≤ 1
      omega

/-- The calls that may be made, by what was done. -/
def watch : Monitor (Ans Key) (Trace (Ans Key)) := Monitor.history mayCall

/-- So far nothing failed but keys, each of which was tried. -/
structure Calm (methods : List String) (t : Trace (Ans Key)) : Prop where
  offered_eq : offered t = some methods
  calm : ∀ e ∈ t, isCalm e = true
  asked_zero : asked t = 0
  same : tried t = given t

/-- Calm steps more keep a stretch calm. -/
theorem Calm.extend {methods : List String} {t : Trace (Ans Key)} (h : Calm methods t)
    (u : Trace (Ans Key)) (hcalm : ∀ e ∈ u, isCalm e = true) (hasked : asked u = 0)
    (hsame : tried u = given u) : Calm methods (t ++ u) where
  offered_eq := by
    obtain ⟨first, rest, rfl⟩ : ∃ first rest, t = first :: rest := by
      apply List.exists_cons_of_ne_nil
      intro hnil
      have hoffered := h.offered_eq
      rw [hnil] at hoffered
      cases hoffered
    exact h.offered_eq
  calm := List.forall_mem_append.mpr ⟨h.calm, hcalm⟩
  asked_zero := by rw [asked_append, h.asked_zero, hasked]
  same := by rw [tried_append, given_append, h.same, hsame]

/-- So does one. -/
theorem Calm.step {methods : List String} {t : Trace (Ans Key)} (h : Calm methods t)
    (e : Event (Ans Key)) (hcalm : isCalm e = true) (hasked : asked [e] = 0)
    (hsame : tried [e] = given [e]) : Calm methods (t ++ [e]) :=
  h.extend [e] (List.forall_mem_singleton.mpr hcalm) hasked hsame

/-- The last attempt completed the authentication. -/
def Completed (t : Trace (Ans Key)) (result : AuthResult Key) : Prop :=
  (attempts t).getLast? = some (.ok []) ∧ result.getLast?.map Prod.snd = some (.ok [])

/-- What the keys lead to. -/
def KeysDone (methods : List String) (t : Trace (Ans Key)) :
    Except Exn (AuthResult Key × Bool) → Prop
  | .ok (result, true) => Completed t result
  | .ok (_, false) => Calm methods t
  | .error _ => True

/-- What a run ends with. -/
structure Ends (t : Trace (Ans Key)) (outcome : Except Exn (AuthResult Key)) : Prop where
  closed_eq : closed t = opened t
  completed : ∀ result, outcome = .ok result → Completed t result

/-- An error ends a run whose agents are closed. -/
theorem Ends.error {t : Trace (Ans Key)} (h : closed t = opened t) (e : Exn) :
    Ends t (.error e) where
  closed_eq := h
  completed _ hok := nomatch hok

namespace AgentFirstAuthStrategy

variable (strategy : AgentFirstAuthStrategy) {methods : List String}

/-- The probe lists the methods, and opens nothing. -/
theorem probe_spec : watch.wp (probe strategy).run ([] : Trace (Ans Key)) fun t r => match r with
    | .ok (methods, _) => Calm methods t ∧ given t = [] ∧ opened t = 0 ∧ closed t = 0
    | .error _ => opened t = 0 ∧ closed t = 0 := by
  unfold probe
  rw [Monitor.wp_run_bind, Monitor.wp_run_ask]
  refine ⟨rfl, fun outcome => ?_⟩
  cases outcome with
  | ok remaining => exact ⟨rfl, rfl⟩
  | error e =>
      cases e with
      | badAuthenticationType allowed =>
          dsimp only
          rw [Monitor.wp_run_bind, Monitor.wp_run_answer]
          cases hmethods : methodList allowed with
          | error e => exact ⟨rfl, rfl⟩
          | ok methods =>
              have hoffered : offered ([⟨.authNone strategy.username,
                  .error (.badAuthenticationType allowed)⟩] : Trace (Ans Key)) = some methods :=
                congrArg Except.toOption hmethods
              refine ⟨⟨hoffered, ?_, rfl, rfl⟩, rfl, rfl, rfl⟩
              exact List.forall_mem_singleton.mpr rfl
      | authenticationException message => exact ⟨rfl, rfl⟩
      | sshException => exact ⟨rfl, rfl⟩
      | osError => exact ⟨rfl, rfl⟩
      | valueError message => exact ⟨rfl, rfl⟩
      | exception => exact ⟨rfl, rfl⟩
      | baseException => exact ⟨rfl, rfl⟩

/-- The trace once a key was given and tried. -/
def afterKey (t : Trace (Ans Key)) (key : Key) (outcome : Except Exn (List String)) :
    Trace (Ans Key) :=
  t ++ [⟨.nextKey, .ok (some key)⟩] ++ [⟨.authPublickey strategy.username key, outcome⟩]

/-- A key that was refused is no failure. -/
theorem calm_refused {t : Trace (Ans Key)} (ht : Calm methods t) (key : Key) {e : Exn}
    (h : e.isAuthentication = true) : Calm methods (afterKey strategy t key (.error e)) := by
  rw [afterKey, List.append_assoc]
  apply ht.extend
  · intro event hevent
    rcases List.mem_cons.mp hevent with rfl | hevent
    · rfl
    · rw [List.mem_singleton.mp hevent]
      exact h
  · rfl
  · rfl

/-- **The keys**, by induction on the attempts that are left. -/
theorem tryKeys_spec (hpublickey : "publickey" ∈ methods) (attempts : Nat)
    (result : AuthResult Key) {t : Trace (Ans Key)} (ht : Calm methods t)
    (hfew : (given t).length + attempts ≤ maxAgentKeyAttempts) :
    watch.wp (tryKeys strategy attempts result).run t fun t' r =>
      (opened t' = opened t ∧ closed t' = closed t) ∧ KeysDone methods t' r := by
  induction attempts generalizing result t with
  | zero => exact ⟨⟨rfl, rfl⟩, ht⟩
  | succ attempts ih =>
      have hlisted : Listed "publickey" t := ⟨methods, ht.offered_eq, hpublickey⟩
      unfold tryKeys
      rw [Monitor.wp_run_bind, Monitor.wp_run_ask]
      refine ⟨⟨hlisted, ht.same, by omega⟩, fun found => ?_⟩
      dsimp only
      rw [Monitor.wp_run_bind, Monitor.wp_run_answer]
      cases found with
      | error e => exact ⟨⟨by simp [opened, watch], by simp [closed, watch]⟩, trivial⟩
      | ok key =>
          cases key with
          | none =>
              have hcalm := ht.step ⟨.nextKey, .ok none⟩ rfl rfl rfl
              exact ⟨⟨by simp [opened, watch], by simp [closed, watch]⟩, hcalm⟩
          | some key =>
              dsimp only
              rw [Monitor.wp_run_bind, Monitor.wp_run_ask]
              have hgiven : tried (t ++ [⟨.nextKey, .ok (some key)⟩]) ++ [key] =
                  given (t ++ [⟨.nextKey, .ok (some key)⟩]) := by
                rw [tried_append, given_append, ht.same]
                exact congrArg (· ++ [key]) (List.append_nil (given t))
              refine ⟨⟨hlisted.append _, hgiven⟩, fun outcome => ?_⟩
              have hcounts : ∀ outcome : Except Exn (List String),
                  opened (afterKey strategy t key outcome) = opened t ∧
                    closed (afterKey strategy t key outcome) = closed t := by
                intro outcome
                rw [afterKey, opened_append, opened_append, closed_append, closed_append]
                exact ⟨rfl, rfl⟩
              cases outcome with
              | error e =>
                  dsimp only
                  by_cases hrefused : e.isAuthentication = true
                  · rw [if_pos hrefused]
                    -- the key was refused, and the others are tried
                    have hcalm := calm_refused strategy ht key hrefused
                    have hlength : (given (afterKey strategy t key (.error e))).length =
                        (given t).length + 1 := by
                      rw [afterKey, given_append, given_append, List.length_append,
                        List.length_append]
                      rfl
                    have hothers := ih (result ++ [(.agentKey key, .error e)]) hcalm (by omega)
                    refine watch.wp_mono hothers fun t' r => ?_
                    intro ⟨⟨hopened, hclosed⟩, hdone⟩
                    exact ⟨⟨hopened.trans (hcounts _).1, hclosed.trans (hcounts _).2⟩, hdone⟩
                  · rw [if_neg hrefused]
                    split_ifs
                    · exact ⟨hcounts (.error e), trivial⟩
                    · exact ⟨hcounts (.error e), trivial⟩
              | ok remaining =>
                  dsimp only
                  by_cases hmore : remaining ≠ []
                  · rw [if_pos hmore]
                    exact ⟨hcounts (.ok remaining), trivial⟩
                  · rw [if_neg hmore]
                    obtain rfl := not_not.mp hmore
                    refine ⟨hcounts (.ok []), ?_, ?_⟩
                    · show (PasswordAuth.attempts (afterKey strategy t key (.ok []))).getLast? = _
                      rw [afterKey, attempts_append]
                      exact List.getLast?_concat
                    · show (result ++ [(Source.agentKey key, _)]).getLast?.map Prod.snd = _
                      rw [List.getLast?_concat]
                      rfl

/-- The agent is closed once, and what the keys led to stays. -/
theorem close_spec {t : Trace (Ans Key)} {outcome : Except Exn (AuthResult Key × Bool)}
    (hcounts : opened t = 1 ∧ closed t = 0) (hdone : KeysDone methods t outcome) :
    watch.wp (do
        let closed ← (ask Op.closeAgent : Call Key (Except Exn Unit))
        answer (closed.mapError closeError)
        answer (outcome.mapError agentError)).run t fun t' r =>
      closed t' = opened t' ∧ KeysDone methods t' r := by
  obtain ⟨hopened, hclosed⟩ := hcounts
  rw [Monitor.wp_run_bind, Monitor.wp_run_ask]
  refine ⟨show closed t < opened t by omega, fun answer => ?_⟩
  dsimp only
  rw [Monitor.wp_run_bind, Monitor.wp_run_answer]
  have heven : ∀ answer : Except Exn Unit,
      closed (t ++ [⟨.closeAgent, answer⟩]) = opened (t ++ [⟨.closeAgent, answer⟩]) := by
    intro answer
    rw [closed_append, opened_append, hopened, hclosed]
    rfl
  cases answer with
  | error e => exact ⟨heven (.error e), trivial⟩
  | ok u =>
      refine ⟨heven (.ok u), ?_⟩
      cases outcome with
      | error e => trivial
      | ok found =>
          obtain ⟨result, accepted⟩ := found
          cases accepted with
          | false => exact Calm.step hdone ⟨.closeAgent, .ok u⟩ rfl rfl rfl
          | true =>
              refine ⟨?_, hdone.2⟩
              show (attempts (t ++ [⟨.closeAgent, .ok u⟩])).getLast? = _
              rw [attempts_append]
              exact (congrArg List.getLast? (List.append_nil (attempts t))).trans hdone.1

/-- **The agent** is closed if it was opened. -/
theorem tryAgent_spec (hpublickey : "publickey" ∈ methods) (result : AuthResult Key)
    {t : Trace (Ans Key)} (ht : Calm methods t) (hgiven : given t = []) (hopened : opened t = 0)
    (hclosed : closed t = 0) :
    watch.wp (tryAgent strategy result).run t fun t' r =>
      closed t' = opened t' ∧ KeysDone methods t' r := by
  have hlisted : Listed "publickey" t := ⟨methods, ht.offered_eq, hpublickey⟩
  unfold tryAgent
  rw [Monitor.wp_run_bind, Monitor.wp_run_ask]
  refine ⟨⟨hlisted, hopened⟩, fun agent => ?_⟩
  dsimp only
  rw [Monitor.wp_run_bind, Monitor.wp_run_answer]
  cases agent with
  | error e =>
      refine ⟨?_, trivial⟩
      show closed (t ++ [⟨.agentFactory, .error e⟩]) = opened (t ++ [⟨.agentFactory, .error e⟩])
      rw [closed_append, opened_append, hclosed, hopened]
      rfl
  | ok u =>
      have hcalm := ht.step ⟨.agentFactory, .ok u⟩ rfl rfl rfl
      have hcalm' := hcalm.step ⟨.getKeys, .ok ()⟩ rfl rfl rfl
      show watch.wp _ (t ++ [⟨.agentFactory, .ok u⟩]) _
      dsimp only [Except.mapError]
      rw [Monitor.wp_run_bind, Monitor.wp_run_attempt, Monitor.wp_run_bind, Monitor.wp_run_ask]
      refine ⟨trivial, fun keys => ?_⟩
      dsimp only
      rw [Monitor.wp_run_bind, Monitor.wp_run_answer]
      have hcounts : ∀ keys : Except Exn Unit,
          opened (t ++ [⟨.agentFactory, .ok u⟩] ++ [⟨.getKeys, keys⟩]) = 1 ∧
            closed (t ++ [⟨.agentFactory, .ok u⟩] ++ [⟨.getKeys, keys⟩]) = 0 := by
        intro keys
        rw [opened_append, opened_append, closed_append, closed_append, hopened, hclosed]
        exact ⟨rfl, rfl⟩
      cases keys with
      | error e =>
          have hdone : KeysDone methods (t ++ [⟨.agentFactory, .ok u⟩] ++ [⟨.getKeys, .error e⟩])
              (.error e : Except Exn (AuthResult Key × Bool)) := trivial
          exact close_spec (hcounts (.error e)) hdone
      | ok v =>
          have hgiven' : given (t ++ [⟨.agentFactory, .ok u⟩] ++ [⟨.getKeys, .ok v⟩]) = [] := by
            rw [given_append, given_append, hgiven]
            rfl
          have hkeys := tryKeys_spec strategy hpublickey maxAgentKeyAttempts result hcalm'
            (by rw [hgiven', List.length_nil, Nat.zero_add])
          refine watch.wp_mono hkeys fun t' r => ?_
          intro ⟨⟨hopened', hclosed'⟩, hdone⟩
          exact close_spec ⟨hopened'.trans (hcounts (.ok v)).1, hclosed'.trans (hcounts (.ok v)).2⟩
            hdone

/-- **The password**, once the keys were not enough. -/
theorem tryPassword_spec (hpassword : "password" ∈ methods) (result : AuthResult Key)
    {t : Trace (Ans Key)} (ht : Calm methods t) (hclosed : closed t = opened t) :
    watch.wp (tryPassword strategy result).run t Ends := by
  have hlisted : Listed "password" t := ⟨methods, ht.offered_eq, hpassword⟩
  unfold tryPassword
  rw [Monitor.wp_run_bind, Monitor.wp_run_attempt, Monitor.wp_run_bind, Monitor.wp_run_ask]
  refine ⟨⟨⟨hlisted, ht.calm⟩, ht.asked_zero⟩, fun password => ?_⟩
  dsimp only
  rw [Monitor.wp_run_bind, Monitor.wp_run_answer]
  cases password with
  | error e =>
      apply Ends.error
      show closed (t ++ [⟨.getPassword, .error e⟩]) = opened (t ++ [⟨.getPassword, .error e⟩])
      rw [closed_append, opened_append, hclosed]
      rfl
  | ok password =>
      dsimp only
      rw [Monitor.wp_run_bind, Monitor.wp_run_ask]
      refine ⟨trivial, fun outcome => ?_⟩
      have heven : ∀ outcome : Except Exn (List String),
          closed (t ++ [⟨.getPassword, .ok password⟩] ++
              [⟨.authPassword strategy.username password, outcome⟩]) =
            opened (t ++ [⟨.getPassword, .ok password⟩] ++
              [⟨.authPassword strategy.username password, outcome⟩]) := by
        intro outcome
        rw [closed_append, closed_append, opened_append, opened_append, hclosed]
        rfl
      dsimp only
      rw [Monitor.wp_run_answer]
      cases outcome with
      | error e => exact Ends.error (heven (.error e)) _
      | ok remaining =>
          dsimp only [Except.mapError]
          rw [Monitor.wp_run_bind, Monitor.wp_run_answer]
          dsimp only
          by_cases hmore : remaining ≠ []
          · rw [if_pos hmore]
            exact Ends.error (heven (.ok remaining)) _
          · rw [if_neg hmore]
            obtain rfl := not_not.mp hmore
            refine ⟨heven (.ok []), fun accepted hok => ?_⟩
            obtain rfl := Except.ok.inj hok
            constructor
            · show (attempts (t ++ [⟨.getPassword, .ok password⟩] ++
                [⟨.authPassword strategy.username password, .ok []⟩])).getLast? = _
              rw [attempts_append]
              exact List.getLast?_concat
            · rw [List.getLast?_concat]
              rfl

/-- Every call of the strategy is made when it may be, and it ends as it should. -/
theorem authenticate_spec : watch.wp (authenticate strategy).run ([] : Trace (Ans Key)) Ends := by
  unfold authenticate
  rw [Monitor.wp_run_bind]
  refine watch.wp_mono (probe_spec strategy) fun t r hprobe => ?_
  cases r with
  | error e => exact Ends.error (hprobe.2.trans hprobe.1.symm) e
  | ok probed =>
      obtain ⟨methods, result⟩ := probed
      obtain ⟨hcalm, hgiven, hopened, hclosed⟩ := hprobe
      have hkeys : watch.wp (tryListedAgent strategy methods result).run t fun t' r =>
          closed t' = opened t' ∧ KeysDone methods t' r := by
        unfold tryListedAgent
        by_cases hpublickey : "publickey" ∈ methods
        · rw [if_pos hpublickey]
          exact tryAgent_spec strategy hpublickey result hcalm hgiven hopened hclosed
        · rw [if_neg hpublickey]
          exact ⟨hclosed.trans hopened.symm, hcalm⟩
      dsimp only
      rw [Monitor.wp_run_bind]
      refine watch.wp_mono hkeys fun t' r hdone => ?_
      obtain ⟨heven, hdone⟩ := hdone
      cases r with
      | error e => exact Ends.error heven e
      | ok found =>
          obtain ⟨result', accepted⟩ := found
          cases accepted with
          | true =>
              refine ⟨heven, fun returned hok => ?_⟩
              obtain rfl := Except.ok.inj hok
              exact hdone
          | false =>
              dsimp only
              rw [if_neg Bool.false_ne_true]
              by_cases hpassword : "password" ∈ methods
              · rw [if_pos hpassword]
                exact tryPassword_spec strategy hpassword result' hdone heven
              · rw [if_neg hpassword]
                split_ifs
                · exact Ends.error heven _
                · exact Ends.error heven _

end AgentFirstAuthStrategy

/-- What was done is the whole trace. -/
theorem watch_after (t : Trace (Ans Key)) : watch.after [] t = t := by
  have h : (Monitor.history mayCall).after [] t = [] ++ t := Monitor.after_history [] t
  exact h

/-- Every event of a run was called when it may be. -/
theorem allowed_before {t before rest : Trace (Ans Key)} {e : Event (Ans Key)}
    (h : watch.Allowed [] t) (ht : t = before ++ e :: rest) : mayCall before e.1 := by
  rw [ht, Monitor.allowed_append, Monitor.allowed_cons, watch_after] at h
  exact h.2.1

/-- **Agent first.**  In every run, whatever the transport, the agent and the getter answer: the
password is asked for once at most, and only if the bounded list has it and before it nothing
failed but keys that were refused; at most four keys of the agent are tried, in its order, and only
if the list has them; a result is returned only if the last attempt completed the authentication;
and the agent is closed once if there was one. -/
theorem agent_first_law (strategy : AgentFirstAuthStrategy) {t : Trace (Ans Key)}
    {q : Program (Op Key) (Ans Key) (Except Exn (AuthResult Key))}
    (h : Reaches strategy.authenticate.run t q) :
    (asked t ≤ 1 ∧ ∀ before rest answer,
        t = before ++ ⟨.getPassword, answer⟩ :: rest → MayAsk before) ∧
      (tried t <+: given t ∧ (given t).length ≤ maxAgentKeyAttempts ∧
        (tried t ≠ [] → Listed "publickey" t)) ∧
      (∀ outcome, q = .done outcome →
        (∀ result, outcome = .ok result → Completed t result) ∧ closed t = opened t) ∧
      opened t ≤ 1 ∧ closed t ≤ opened t := by
  obtain ⟨hpost, hallowed⟩ :=
    watch.wp_reaches h (AgentFirstAuthStrategy.authenticate_spec strategy)
  have hkept : Kept t := by
    have hrun := watch.after_invariant (fun t op answer ht hmay => Kept.step ht op answer hmay)
      kept_nil hallowed
    rwa [watch_after] at hrun
  rw [watch_after] at hpost
  refine ⟨⟨hkept.asked_le, fun before rest answer ht => ?_⟩,
    ⟨hkept.tried_start, hkept.given_le, hkept.tried_listed⟩, fun outcome hq => ?_,
    hkept.opened_le, hkept.closed_le⟩
  · exact (allowed_before hallowed ht).1
  · subst hq
    exact ⟨hpost.completed, hpost.closed_eq⟩

/-- A server that takes keys and passwords, and refuses the keys of the agent. -/
def sampleRespond : (op : Op String) → Ans String op
  | .authNone _ => .error (.badAuthenticationType (.list [some "publickey", some "password"]))
  | .agentFactory => .ok ()
  | .getKeys => .ok ()
  | .nextKey => .ok (some "ssh-ed25519")
  | .authPublickey _ _ => .error (.authenticationException "Authentication failed.")
  | .closeAgent => .ok ()
  | .getPassword => .ok "secret"
  | .authPassword _ _ => .ok []

/-- A run of the strategy. -/
def sampleTrace : Trace (Ans String) :=
  ((AgentFirstAuthStrategy.mk "admin").authenticate.run.answered sampleRespond 16).1

/-- Four keys are refused, and the password is taken. -/
theorem agent_first_fallback : ∃ result,
    Reaches (AgentFirstAuthStrategy.mk "admin").authenticate.run sampleTrace (.done (.ok result)) ∧
      Completed sampleTrace result ∧ closed sampleTrace = 1 ∧ asked sampleTrace ≤ 1 ∧
      (tried sampleTrace).length = 4 := by
  obtain ⟨result, hrun⟩ := Program.answered_ok sampleRespond 16
    (AgentFirstAuthStrategy.mk "admin").authenticate.run rfl
  obtain ⟨⟨hasked, -⟩, -, hends, -, -⟩ := agent_first_law ⟨"admin"⟩ hrun
  obtain ⟨hcompleted, hclosed⟩ := hends _ rfl
  exact ⟨result, hrun, hcompleted result rfl, hclosed.trans rfl, hasked, rfl⟩

end PasswordAuth
