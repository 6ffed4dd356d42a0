import HomelabMcp.DeployRunner
import HomelabMcp.HttpExchange
import HomelabMcp.WebUrlPaths

/-!
# The signer of the deploys

A deploy's key is signed by OpenBao in two requests: a login with the projected token of the
service account, and the signature with the token the login granted.

The JSON parser is a parameter; building the HTTP client and the zeroing of buffers are left out.

* `signs_iff`: the runs that end with a certificate are exactly those in which both are accepted.
* `requests_lawful`: in every run the login goes out at most once, and the signature at most once
  and only with a token that an accepted login granted.
  Every request goes to the login or to the signer of the configuration (`endpoints`).
-/

namespace OpenBao

open Deploys (DeployError FileMetadata)
open Http (Body Exchange isSuccess)
open Interaction
open Monitor (history wp_run_answer_bind wp_run_ask_bind wp_run_ensure_bind)
open Json (Value)
open Text (Bytes)
open WebUrl (Url)

/-- The longest token of a service account, and the longest body. -/
def maxJwtBytes : Nat := 16 * 1024
def maxResponseBytes : Nat := 64 * 1024

/-- The timeout of a request is in milliseconds. -/
structure OpenBaoConfig where
  origin : Url
  kubernetesAuthMount : String
  kubernetesRole : String
  sshMount : String
  sshRole : String
  jwtPath : String
  requestTimeout : Nat

/-- A client. -/
structure OpenBaoClient where
  config : OpenBaoConfig

/-- The characters of a segment. -/
def isSegmentChar (c : Char) : Bool := c.isAlphanum || c == '-' || c == '_'

/-- `valid_segment`. -/
def validSegment (value : String) : Bool :=
  !value.isEmpty && value.utf8ByteSize ≤ 128 && value.toList.all isSegmentChar

/-- `OpenBaoClient::new`. -/
def OpenBaoClient.new (config : OpenBaoConfig) : Except DeployError OpenBaoClient :=
  if config.origin.scheme ≠ "https" ∨ config.origin.segments ≠ [[]] ∨ config.origin.query ≠ none ∨
      config.origin.fragment ≠ none ∨ config.jwtPath.toList.head? ≠ some '/' ∨
      validSegment config.kubernetesAuthMount = false ∨ validSegment config.kubernetesRole = false ∨
      validSegment config.sshMount = false ∨ validSegment config.sshRole = false ∨
      ¬ (100 ≤ config.requestTimeout ∧ config.requestTimeout ≤ 30000) then
    .error .invalidConfiguration
  else .ok ⟨config⟩

/-- One line of two fields, the first of which is `kind`. -/
def isLineOf (kind line : String) : Bool :=
  match Text.split line ' ' with
  | [first, second] => first == kind && !second.isEmpty
  | _ => false

/-- `validate_public_key`. -/
def validatePublicKey (value : String) : Except DeployError Unit :=
  demand (isLineOf "ssh-ed25519" value && value.utf8ByteSize ≤ 1024) .credentialInvalid

/-- `value.trim_end_matches('\n')`. -/
def withoutNewlines (value : String) : String :=
  String.ofList (value.toList.rdropWhile (· == '\n'))

/-- `validate_certificate`. -/
def validateCertificate (value : String) : Except DeployError Unit :=
  demand (isLineOf "ssh-ed25519-cert-v01@openssh.com" (withoutNewlines value) &&
    value.utf8ByteSize ≤ 16 * 1024 && !value.toList.contains '\r' &&
    !(withoutNewlines value).toList.contains '\n') .credentialInvalid

/-- A projected token is a regular file of a bounded length. -/
def isJwtFile (metadata : FileMetadata) : Bool :=
  metadata.isFile && metadata.length != 0 && metadata.length ≤ maxJwtBytes

/-- A token of a service account has no blanks. -/
def isJwt (jwt : String) : Bool := Text.trim jwt == jwt && !jwt.toList.any Text.isWhitespace

/-- Nor has a token of OpenBao, which is bounded in addition. -/
def isToken (token : String) : Bool :=
  !token.isEmpty && token.utf8ByteSize ≤ 4096 && !token.toList.any Text.isWhitespace

/-- What `HeaderValue::from_str` of the `http` crate takes: visible ASCII, as it documents, with the
space and the tab. -/
def isHeaderText (text : String) : Bool :=
  text.toList.all fun c => (' ' ≤ c && c ≤ '~') || c == '\t'

/-- A field of a record that may have others: it stands once, or the record is an array of it. -/
def soleField (name : String) : Value → Option Value
  | .array [value] => some value
  | .object members =>
      match members.filter fun member => member.1 == name with
      | [member] => some member.2
      | _ => none
  | _ => none

/-- The token of a login. -/
def loginResponse (value : Value) : Option String := do
  (← soleField "client_token" (← soleField "auth" value)).asStr

/-- The certificate of a signature. -/
def signResponse (value : Value) : Option String := do
  (← soleField "signed_key" (← soleField "data" value)).asStr

section Responses

variable (parseJson : Bytes → Option Value)

/-- The value of an accepted response, within its bound. -/
def boundedJson (status : Nat) (body : Body) : Except DeployError Value :=
  if !isSuccess status || body.declared.any (· > maxResponseBytes) then
    .error .credentialUnavailable
  else match Http.collect maxResponseBytes body.broken [] body.chunks with
    | .error .broken => .error .credentialUnavailable
    | .error .tooLarge => .error .credentialInvalid
    | .ok bytes => okOr .credentialInvalid (parseJson bytes)

/-- What the field that `read` looks for is in the response, if there is one. -/
def received (read : Value → Option String) : Exchange → Except DeployError String
  | .failed | .elapsed => .error .credentialUnavailable
  | .response status body => do okOr .credentialInvalid (read (← boundedJson parseJson status body))

end Responses

/-- A POST; the members of its JSON body are strings. -/
structure Request where
  url : Url
  vaultToken : Option String
  body : List (String × String)

/-- The operations of a request for a certificate. -/
inductive Op where
  | metadata (path : String)
  | readToString (path : String)
  | post (request : Request)

/-- What each operation answers. -/
abbrev Ans : Op → Type
  | .metadata _ => Option FileMetadata
  | .readToString _ => Option String
  | .post _ => Exchange

namespace OpenBaoClient

variable (parseJson : Bytes → Option Value) (client : OpenBaoClient)

/-- Joining a relative path to an origin does not fail. -/
def endpoint (path : String) : Url := client.config.origin.join path.toList

/-- The login. -/
def loginRequest (jwt : String) : Request where
  url := client.endpoint ("v1/auth/" ++ client.config.kubernetesAuthMount ++ "/login")
  vaultToken := none
  body := [("role", client.config.kubernetesRole), ("jwt", jwt)]

/-- The signature. -/
def signRequest (token publicKey : String) : Request where
  url := client.endpoint ("v1/" ++ client.config.sshMount ++ "/sign/" ++ client.config.sshRole)
  vaultToken := some token
  body := [("public_key", publicKey), ("cert_type", "user"), ("valid_principals", "homelab"),
    ("ttl", "15m")]

/-- `request_certificate`. -/
def requestCertificate (publicKey : String) : Fallible Ans DeployError String := do
  answer (validatePublicKey publicKey)
  let metadata ← answer (okOr .credentialUnavailable (← ask (Op.metadata client.config.jwtPath)))
  ensure (isJwtFile metadata) .credentialUnavailable
  let jwt ← answer (okOr .credentialUnavailable (← ask (Op.readToString client.config.jwtPath)))
  ensure (isJwt jwt) .credentialInvalid
  let login ← ask (Op.post (client.loginRequest jwt))
  let token ← answer (received parseJson loginResponse login)
  ensure (isToken token) .credentialInvalid
  -- A header that cannot be written fails the request before it is sent.
  ensure (isHeaderText token) .credentialUnavailable
  let signed ← ask (Op.post (client.signRequest token publicKey))
  let certificate ← answer (received parseJson signResponse signed)
  answer (validateCertificate certificate)
  return certificate

end OpenBaoClient

section Received

variable {parseJson : Bytes → Option Value}

/-- A response is accepted if it is a success, arrives whole within the bound and has the field. -/
structure Accepted (parseJson : Bytes → Option Value) (read : Value → Option String)
    (status : Nat) (body : Body) (text : String) : Prop where
  success : isSuccess status = true
  declared : ∀ n, body.declared = some n → n ≤ maxResponseBytes
  unbroken : body.broken = false
  bounded : body.chunks.flatten.length ≤ maxResponseBytes
  field : ∃ value, parseJson body.chunks.flatten = some value ∧ read value = some text

/-- The value of a response is its body parsed, where status and length allow. -/
theorem boundedJson_eq_ok {status : Nat} {body : Body} {value : Value} :
    boundedJson parseJson status body = .ok value ↔
      isSuccess status = true ∧ (∀ n, body.declared = some n → n ≤ maxResponseBytes) ∧
        body.broken = false ∧ body.chunks.flatten.length ≤ maxResponseBytes ∧
        parseJson body.chunks.flatten = some value := by
  have hdeclared : body.declared.any (· > maxResponseBytes) = false ↔
      ∀ n, body.declared = some n → n ≤ maxResponseBytes := by
    cases body.declared <;> simp
  have hcollect (bytes : Bytes) : Http.collect maxResponseBytes body.broken [] body.chunks =
      .ok bytes ↔ body.broken = false ∧ bytes = body.chunks.flatten ∧
        bytes.length ≤ maxResponseBytes := by
    have hempty : ([] : Bytes).length ≤ maxResponseBytes := Nat.zero_le _
    simpa using Http.collect_eq_ok hempty
  unfold boundedJson
  by_cases hrefused : (!isSuccess status || body.declared.any (· > maxResponseBytes)) = true
  · rw [if_pos hrefused]
    simp only [reduceCtorEq, false_iff]
    intro ⟨hsuccess, hsize, _⟩
    rw [hsuccess, hdeclared.mpr hsize] at hrefused
    cases hrefused
  · rw [if_neg hrefused]
    simp only [Bool.or_eq_true, Bool.not_eq_true', not_or, Bool.not_eq_false,
      Bool.not_eq_true] at hrefused
    rw [hdeclared] at hrefused
    cases hread : Http.collect maxResponseBytes body.broken [] body.chunks with
    | error e =>
        have hnone : ¬ (body.broken = false ∧ body.chunks.flatten.length ≤ maxResponseBytes) := by
          intro ⟨hunbroken, hbounded⟩
          rw [(hcollect _).mpr ⟨hunbroken, rfl, hbounded⟩] at hread
          cases hread
        have hright : ¬ (isSuccess status = true ∧
            (∀ n, body.declared = some n → n ≤ maxResponseBytes) ∧ body.broken = false ∧
            body.chunks.flatten.length ≤ maxResponseBytes ∧
            parseJson body.chunks.flatten = some value) :=
          fun h => hnone ⟨h.2.2.1, h.2.2.2.1⟩
        apply iff_of_false _ hright
        cases e <;> exact nofun
    | ok bytes =>
        obtain ⟨hunbroken, rfl, hbounded⟩ := (hcollect bytes).mp hread
        dsimp only
        rw [okOr_eq_ok]
        exact ⟨fun h => ⟨hrefused.1, hrefused.2, hunbroken, hbounded, h⟩, fun h => h.2.2.2.2⟩

/-- What is received is read from such a response. -/
theorem received_eq_ok {read : Value → Option String} {exchange : Exchange} {text : String} :
    received parseJson read exchange = .ok text ↔
      ∃ status body, exchange = .response status body ∧
        Accepted parseJson read status body text := by
  cases exchange with
  | failed => simp [received]
  | elapsed => simp [received]
  | response status body =>
      simp only [received, bind_eq_ok, okOr_eq_ok, boundedJson_eq_ok, Exchange.response.injEq]
      constructor
      · rintro ⟨value, ⟨hsuccess, hdeclared, hunbroken, hbounded, hparse⟩, hread⟩
        exact ⟨status, body, ⟨rfl, rfl⟩, hsuccess, hdeclared, hunbroken, hbounded, value, hparse,
          hread⟩
      · rintro ⟨_, _, ⟨rfl, rfl⟩, haccepted⟩
        obtain ⟨value, hparse, hread⟩ := haccepted.field
        exact ⟨value, ⟨haccepted.success, haccepted.declared, haccepted.unbroken,
          haccepted.bounded, hparse⟩, hread⟩

end Received

/-- The requests of a trace with what came back. -/
def posts (t : Trace Ans) : List (Request × Exchange) :=
  t.filterMap fun
    | ⟨.post request, exchange⟩ => some (request, exchange)
    | _ => none

/-- The signer fails in two ways, neither of which says that a certificate may have been issued. -/
def IsRefusal (e : DeployError) : Prop := e = .credentialUnavailable ∨ e = .credentialInvalid

section Runs

variable (parseJson : Bytes → Option Value) (client : OpenBaoClient) (publicKey : String)

/-- A trace has read the projected token from its file. -/
structure JwtRead (t : Trace Ans) (jwt : String) : Prop where
  file : ∃ metadata, (⟨.metadata client.config.jwtPath, some metadata⟩ : Event Ans) ∈ t ∧
    isJwtFile metadata = true
  content : (⟨.readToString client.config.jwtPath, some jwt⟩ : Event Ans) ∈ t
  usable : isJwt jwt = true

/-- An exchange that granted a token which can be sent. -/
structure Grants (login : Exchange) (token : String) : Prop where
  accepted : ∃ status body, login = .response status body ∧
    Accepted parseJson loginResponse status body token
  usable : isToken token = true
  header : isHeaderText token = true

/-- An exchange that issued a certificate. -/
structure Issues (signed : Exchange) (certificate : String) : Prop where
  accepted : ∃ status body, signed = .response status body ∧
    Accepted parseJson signResponse status body certificate
  valid : validateCertificate certificate = .ok ()

/-- What goes over the wire: nothing, the login, or the login and the signature with the token that
the login granted. -/
inductive Wire (t : Trace Ans) : List (Request × Exchange) → Prop
  | silent : Wire t []
  | login {jwt : String} {login : Exchange} (hjwt : JwtRead client t jwt) :
      Wire t [(client.loginRequest jwt, login)]
  | signed {jwt token : String} {login signed : Exchange} (hjwt : JwtRead client t jwt)
      (hgrants : Grants parseJson login token) :
      Wire t [(client.loginRequest jwt, login), (client.signRequest token publicKey, signed)]

/-- What may be asked next.  A request continues the wire, whatever comes back; the key was
checked before. -/
def MayIssue (t : Trace Ans) : Op → Prop
  | .metadata path | .readToString path => path = client.config.jwtPath ∧ posts t = []
  | .post request => validatePublicKey publicKey = .ok () ∧
      ∀ exchange, Wire parseJson client publicKey t (posts t ++ [(request, exchange)])

/-- How a call ends. -/
def Ends (t : Trace Ans) : Except DeployError String → Prop
  | .error e => IsRefusal e ∧ Wire parseJson client publicKey t (posts t)
  | .ok certificate => ∃ jwt token login signed, JwtRead client t jwt ∧
      Grants parseJson login token ∧ Issues parseJson signed certificate ∧
      posts t = [(client.loginRequest jwt, login), (client.signRequest token publicKey, signed)]

end Runs

section Laws

variable {parseJson : Bytes → Option Value} {client : OpenBaoClient} {publicKey : String}

/-- A response that is not read is refused. -/
theorem refusal_of_boundedJson {status : Nat} {body : Body} {e : DeployError}
    (h : boundedJson parseJson status body = .error e) : IsRefusal e := by
  unfold boundedJson at h
  by_cases hrefused : (!isSuccess status || body.declared.any (· > maxResponseBytes)) = true
  · rw [if_pos hrefused] at h
    exact .inl (Except.error.inj h).symm
  · rw [if_neg hrefused] at h
    cases hread : Http.collect maxResponseBytes body.broken [] body.chunks with
    | error e' =>
        rw [hread] at h
        cases e' with
        | tooLarge => exact .inr (Except.error.inj h).symm
        | broken => exact .inl (Except.error.inj h).symm
    | ok bytes =>
        rw [hread] at h
        exact .inr (okOr_eq_error.mp h).2.symm

/-- So is one without the text that is looked for. -/
theorem refusal_of_received {read : Value → Option String} {exchange : Exchange} {e : DeployError}
    (h : received parseJson read exchange = .error e) : IsRefusal e := by
  cases exchange with
  | failed => exact .inl (Except.error.inj h).symm
  | elapsed => exact .inl (Except.error.inj h).symm
  | response status body =>
      obtain hbody | ⟨value, -, hfield⟩ := bind_eq_error.mp h
      · exact refusal_of_boundedJson hbody
      · exact .inr (okOr_eq_error.mp hfield).2.symm

/-- **The law of a call**: what it asks, and how it ends. -/
theorem requestCertificate_spec :
    (history (MayIssue parseJson client publicKey)).wp
      (client.requestCertificate parseJson publicKey).run [] (Ends parseJson client publicKey) := by
  unfold OpenBaoClient.requestCertificate
  rw [wp_run_answer_bind]
  cases hkey : validatePublicKey publicKey with
  | error e => exact ⟨.inr (demand_eq_error.mp hkey).2.symm, .silent⟩
  | ok _ =>
    dsimp only
    rw [wp_run_ask_bind]
    refine ⟨⟨rfl, rfl⟩, fun found => ?_⟩
    rw [wp_run_answer_bind]
    cases found with
    | none => exact ⟨.inl rfl, .silent⟩
    | some metadata =>
      apply wp_run_ensure_bind _ _ fun _ => ⟨.inl rfl, .silent⟩
      intro hfile
      rw [wp_run_ask_bind]
      refine ⟨⟨rfl, rfl⟩, fun text => ?_⟩
      rw [wp_run_answer_bind]
      cases text with
      | none => exact ⟨.inl rfl, .silent⟩
      | some jwt =>
        apply wp_run_ensure_bind _ _ fun _ => ⟨.inr rfl, .silent⟩
        intro husable
        -- The token stays read whatever is asked after it.
        have hread (more : Trace Ans) : JwtRead client
            ([⟨.metadata client.config.jwtPath, some metadata⟩,
              ⟨.readToString client.config.jwtPath, some jwt⟩] ++ more) jwt :=
          ⟨⟨metadata, by simp, hfile⟩, by simp, husable⟩
        rw [wp_run_ask_bind]
        refine ⟨⟨hkey, fun login => .login (hread [])⟩, fun login => ?_⟩
        rw [wp_run_answer_bind]
        cases hlogin : received parseJson loginResponse login with
        | error e => exact ⟨refusal_of_received hlogin, .login (hread [_])⟩
        | ok token =>
          apply wp_run_ensure_bind _ _ fun _ => ⟨.inr rfl, .login (hread [_])⟩
          intro htoken
          apply wp_run_ensure_bind _ _ fun _ => ⟨.inl rfl, .login (hread [_])⟩
          intro hheader
          have hgrants : Grants parseJson login token :=
            ⟨received_eq_ok.mp hlogin, htoken, hheader⟩
          rw [wp_run_ask_bind]
          refine ⟨⟨hkey, fun signed => .signed (hread [_]) hgrants⟩, fun signed => ?_⟩
          rw [wp_run_answer_bind]
          cases hsigned : received parseJson signResponse signed with
          | error e => exact ⟨refusal_of_received hsigned, .signed (hread [_, _]) hgrants⟩
          | ok certificate =>
            dsimp only
            rw [wp_run_answer_bind]
            cases hvalid : validateCertificate certificate with
            | error e =>
                exact ⟨.inr (demand_eq_error.mp hvalid).2.symm, .signed (hread [_, _]) hgrants⟩
            | ok _ =>
                exact ⟨jwt, token, login, signed, hread [_, _], hgrants,
                  ⟨received_eq_ok.mp hsigned, hvalid⟩, rfl⟩

/-- The wire before the last request. -/
theorem Wire.init {t : Trace Ans} {sent : List (Request × Exchange)} {last : Request × Exchange}
    (h : Wire parseJson client publicKey t (sent ++ [last])) :
    Wire parseJson client publicKey t sent := by
  generalize hall : sent ++ [last] = all at h
  cases h with
  | silent => simp at hall
  | login hjwt =>
      obtain rfl : sent = [] := List.append_eq_singleton_iff.mp hall |>.elim And.left (by simp)
      exact .silent
  | @signed jwt token login signed hjwt hgrants =>
      have hsplit : sent ++ [last] = [(client.loginRequest jwt, login)] ++ [_] := hall
      obtain ⟨rfl, -⟩ := List.append_inj' hsplit rfl
      exact .login hjwt

/-- A run in which everything is accepted ends with the certificate. -/
theorem reaches_signed {metadata : FileMetadata} {jwt token certificate : String}
    {login signed : Exchange} (hkey : validatePublicKey publicKey = .ok ())
    (hfile : isJwtFile metadata = true) (hjwt : isJwt jwt = true)
    (hgrants : Grants parseJson login token) (hissues : Issues parseJson signed certificate) :
    Reaches (client.requestCertificate parseJson publicKey).run
      [⟨.metadata client.config.jwtPath, some metadata⟩,
        ⟨.readToString client.config.jwtPath, some jwt⟩,
        ⟨.post (client.loginRequest jwt), login⟩,
        ⟨.post (client.signRequest token publicKey), signed⟩] (.done (.ok certificate)) := by
  apply Reaches.answer_bind hkey
  apply Reaches.ask_bind
  apply Reaches.answer_bind rfl
  apply Reaches.ensure_bind hfile
  apply Reaches.ask_bind
  apply Reaches.answer_bind rfl
  apply Reaches.ensure_bind hjwt
  apply Reaches.ask_bind
  apply Reaches.answer_bind (received_eq_ok.mpr hgrants.accepted)
  apply Reaches.ensure_bind hgrants.usable
  apply Reaches.ensure_bind hgrants.header
  apply Reaches.ask_bind
  apply Reaches.answer_bind (received_eq_ok.mpr hissues.accepted)
  apply Reaches.answer_bind hissues.valid
  exact .refl _

/-- **Success**: the runs that end with a certificate. -/
theorem signs_iff {t : Trace Ans} {certificate : String} :
    Reaches (client.requestCertificate parseJson publicKey).run t (.done (.ok certificate)) ↔
      validatePublicKey publicKey = .ok () ∧ ∃ metadata jwt token login signed,
        isJwtFile metadata = true ∧ isJwt jwt = true ∧ Grants parseJson login token ∧
          Issues parseJson signed certificate ∧
          t = [⟨.metadata client.config.jwtPath, some metadata⟩,
            ⟨.readToString client.config.jwtPath, some jwt⟩,
            ⟨.post (client.loginRequest jwt), login⟩,
            ⟨.post (client.signRequest token publicKey), signed⟩] := by
  constructor
  · intro h
    obtain ⟨_, hkey, hchecked⟩ := h.run_answer_bind_ok
    obtain ⟨found, t, hfound, rfl⟩ := hchecked.run_ask_ok
    obtain ⟨metadata, rfl, hmetadata⟩ := hfound.run_okOr_ok
    obtain ⟨hfile, hopened⟩ := hmetadata.run_ensure_ok
    obtain ⟨text, t, htext, rfl⟩ := hopened.run_ask_ok
    obtain ⟨jwt, rfl, hread⟩ := htext.run_okOr_ok
    obtain ⟨hjwt, hlogging⟩ := hread.run_ensure_ok
    obtain ⟨login, t, hanswered, rfl⟩ := hlogging.run_ask_ok
    obtain ⟨token, hlogin, hgranted⟩ := hanswered.run_answer_bind_ok
    obtain ⟨htoken, hsendable⟩ := hgranted.run_ensure_ok
    obtain ⟨hheader, hsigning⟩ := hsendable.run_ensure_ok
    obtain ⟨signed, t, hreceived, rfl⟩ := hsigning.run_ask_ok
    obtain ⟨issued, hsigned, hissued⟩ := hreceived.run_answer_bind_ok
    obtain ⟨_, hvalid, hended⟩ := hissued.run_answer_bind_ok
    cases hended
    exact ⟨hkey, metadata, jwt, token, login, signed, hfile, hjwt,
      ⟨received_eq_ok.mp hlogin, htoken, hheader⟩, ⟨received_eq_ok.mp hsigned, hvalid⟩, rfl⟩
  · rintro ⟨hkey, metadata, jwt, token, login, signed, hfile, hjwt, hgrants, hissues, rfl⟩
    exact reaches_signed hkey hfile hjwt hgrants hissues

end Laws

/-- A segment needs no encoding. -/
theorem isUnreserved_of_isSegmentChar {c : Char} (h : isSegmentChar c = true) :
    WebUrl.isUnreserved c = true := by
  have hcases : c.isAlphanum = true ∨ c = '-' ∨ c = '_' := by
    simpa [isSegmentChar, or_assoc] using h
  obtain halnum | rfl | rfl := hcases
  · simp [WebUrl.isUnreserved, halnum]
  · rfl
  · rfl

/-- A segment of the configuration stands for itself in a path. -/
theorem plainSegment_of_valid {value : String} (h : validSegment value = true) :
    WebUrl.PlainSegment value.toList := by
  have hchars : ∀ c ∈ value.toList, isSegmentChar c = true := by
    have hall := (Bool.and_eq_true_iff.mp h).2
    exact List.all_eq_true.mp hall
  have hplain (c : Char) (hc : c ∈ value.toList) : WebUrl.isUnreserved c = true :=
    isUnreserved_of_isSegmentChar (hchars c hc)
  have hdots {n : Nat} (hn : 0 < n) : WebUrl.dots value.toList ≠ some n := by
    intro h
    have hreplicate := (WebUrl.dots_unreserved hplain).mp h
    have hdot := hchars '.' (by rw [hreplicate]; simp [Nat.pos_iff_ne_zero.mp hn])
    exact absurd hdot (by decide)
  exact ⟨fun c hc => ⟨WebUrl.not_isC0OrSpace (hplain c hc), WebUrl.not_endsPath (hplain c hc)⟩,
    fun c hc => WebUrl.not_isSlash (hplain c hc), hdots (by decide), hdots (by decide)⟩

/-- A client is built of a secure origin and valid segments. -/
theorem new_eq_ok {config : OpenBaoConfig} {client : OpenBaoClient} :
    OpenBaoClient.new config = .ok client ↔
      client = ⟨config⟩ ∧ config.origin.scheme = "https" ∧ config.origin.segments = [[]] ∧
        config.origin.query = none ∧ config.origin.fragment = none ∧
        config.jwtPath.toList.head? = some '/' ∧
        validSegment config.kubernetesAuthMount = true ∧
        validSegment config.kubernetesRole = true ∧ validSegment config.sshMount = true ∧
        validSegment config.sshRole = true ∧
        100 ≤ config.requestTimeout ∧ config.requestTimeout ≤ 30000 := by
  unfold OpenBaoClient.new
  split
  · next hbad =>
      simp only [reduceCtorEq, false_iff]
      rintro ⟨-, hscheme, hpath, hquery, hfragment, hjwt, hmount, hrole, hssh, hsign, htimeout⟩
      simp [hscheme, hpath, hquery, hfragment, hjwt, hmount, hrole, hssh, hsign, htimeout] at hbad
  · next hgood =>
      push Not at hgood
      simp only [Except.ok.injEq, eq_comm (a := OpenBaoClient.mk config)]
      simp only [Bool.not_eq_false] at hgood
      exact ⟨fun h => ⟨h, hgood⟩, fun h => h.1⟩

/-- The origin with a path. -/
def originAt (origin : Url) (path : List String) : Url :=
  { origin with segments := path.map String.toList, query := none, fragment := none }

/-- Joining plain segments to an origin gives their path. -/
theorem join_at {origin : Url} (horigin : origin.segments = [[]]) {front : List String}
    (hne : front ≠ []) {last : String} (hfront : ∀ s ∈ front, WebUrl.PlainSegment s.toList)
    (hlast : WebUrl.PlainSegment last.toList) :
    origin.join (WebUrl.directory (front.map String.toList) ++ last.toList) =
      originAt origin (front ++ [last]) := by
  have hsegments : ∀ s ∈ front.map String.toList, WebUrl.PlainSegment s := by
    intro s hs
    obtain ⟨name, hname, rfl⟩ := List.mem_map.mp hs
    exact hfront name hname
  rw [WebUrl.join_segment (by simpa using hne) hsegments origin hlast.plain hlast.noSlash,
    WebUrl.addSegment_of_noDots hlast.noDots, horigin]
  simp [originAt]

section Urls

variable {config : OpenBaoConfig} {client : OpenBaoClient}

/-- The segments of the API are plain. -/
theorem plainSegment_api : WebUrl.PlainSegment "v1".toList ∧ WebUrl.PlainSegment "auth".toList ∧
    WebUrl.PlainSegment "login".toList ∧ WebUrl.PlainSegment "sign".toList := by decide +kernel

/-- Where the login goes. -/
theorem loginRequest_url (h : OpenBaoClient.new config = .ok client) (jwt : String) :
    (client.loginRequest jwt).url =
      originAt config.origin ["v1", "auth", config.kubernetesAuthMount, "login"] := by
  obtain ⟨rfl, -, horigin, -, -, -, hmount, -⟩ := new_eq_ok.mp h
  obtain ⟨hv1, hauth, hlogin, -⟩ := plainSegment_api
  have hfront : ∀ s ∈ ["v1", "auth", config.kubernetesAuthMount],
      WebUrl.PlainSegment s.toList := by
    simp only [List.forall_mem_cons]
    exact ⟨hv1, hauth, plainSegment_of_valid hmount, nofun⟩
  have htext : ("v1/auth/" ++ config.kubernetesAuthMount ++ "/login").toList =
      WebUrl.directory (["v1", "auth", config.kubernetesAuthMount].map String.toList) ++
        "login".toList := by
    simp [WebUrl.directory, String.toList_append]
  rw [OpenBaoClient.loginRequest, OpenBaoClient.endpoint, htext]
  exact join_at horigin (List.cons_ne_nil _ _) hfront hlogin

/-- Where the signature is asked for. -/
theorem signRequest_url (h : OpenBaoClient.new config = .ok client) (token publicKey : String) :
    (client.signRequest token publicKey).url =
      originAt config.origin ["v1", config.sshMount, "sign", config.sshRole] := by
  obtain ⟨rfl, -, horigin, -, -, -, -, -, hmount, hrole, -⟩ := new_eq_ok.mp h
  obtain ⟨hv1, -, -, hsign⟩ := plainSegment_api
  have hfront : ∀ s ∈ ["v1", config.sshMount, "sign"], WebUrl.PlainSegment s.toList := by
    simp only [List.forall_mem_cons]
    exact ⟨hv1, plainSegment_of_valid hmount, hsign, nofun⟩
  have htext : ("v1/" ++ config.sshMount ++ "/sign/" ++ config.sshRole).toList =
      WebUrl.directory (["v1", config.sshMount, "sign"].map String.toList) ++
        config.sshRole.toList := by
    simp [WebUrl.directory, String.toList_append]
  rw [OpenBaoClient.signRequest, OpenBaoClient.endpoint, htext]
  exact join_at horigin (List.cons_ne_nil _ _) hfront (plainSegment_of_valid hrole)

end Urls

/-- Where the requests of a configuration go: to its login, and to its signer. -/
def endpoints (config : OpenBaoConfig) : List Url :=
  [originAt config.origin ["v1", "auth", config.kubernetesAuthMount, "login"],
    originAt config.origin ["v1", config.sshMount, "sign", config.sshRole]]

section Lawful

variable {parseJson : Bytes → Option Value} {client : OpenBaoClient} {publicKey : String}

/-- The requests on the wire go to the endpoints, in their order. -/
theorem Wire.urls {t : Trace Ans} {exchanges : List (Request × Exchange)}
    (h : Wire parseJson client publicKey t exchanges) {config : OpenBaoConfig}
    (hnew : OpenBaoClient.new config = .ok client) :
    exchanges.map (fun exchange => exchange.1.url) <+: endpoints config := by
  unfold endpoints
  cases h with
  | silent => exact List.nil_prefix
  | @login jwt _ hjwt =>
      rw [List.map_singleton, loginRequest_url hnew jwt]
      exact List.cons_prefix_cons.mpr ⟨rfl, List.nil_prefix⟩
  | @signed jwt token _ _ hjwt hgrants =>
      rw [List.map_cons, List.map_singleton, loginRequest_url hnew jwt,
        signRequest_url hnew token publicKey]

/-- **Every run**, also one that is dropped: what is on the wire, what may come next, how a call
that has ended has ended, and that the requests go to the endpoints of the configuration. -/
theorem requests_lawful {t : Trace Ans} {q : Program Op Ans (Except DeployError String)}
    (h : Reaches (client.requestCertificate parseJson publicKey).run t q) :
    Wire parseJson client publicKey t (posts t) ∧
      (∀ op next, q = .call op next → MayIssue parseJson client publicKey t op) ∧
      (∀ result, q = .done result → Ends parseJson client publicKey t result) ∧
      ∀ config, OpenBaoClient.new config = .ok client →
        (posts t).map (fun exchange => exchange.1.url) <+: endpoints config ∧
          ∀ request next, q = .call (.post request) next →
            (posts t).map (fun exchange => exchange.1.url) ++ [request.url] <+:
              endpoints config := by
  have hspec : (history (MayIssue parseJson client publicKey)).wp _ [] (Ends _ _ _) :=
    requestCertificate_spec
  cases q with
  | call op next =>
      have hmay := Monitor.history_pending h hspec
      have hwire : Wire parseJson client publicKey t (posts t) := by
        cases op with
        | metadata path =>
            rw [hmay.2]
            exact .silent
        | readToString path =>
            rw [hmay.2]
            exact .silent
        | post request => exact (hmay.2 .failed).init
      refine ⟨hwire, fun _ _ hq => by cases hq; exact hmay, nofun, ?_⟩
      intro config hnew
      refine ⟨hwire.urls hnew, ?_⟩
      intro request next' hnext
      cases hnext
      have hurls := (hmay.2 .failed).urls hnew
      rwa [List.map_append, List.map_singleton] at hurls
  | done result =>
      have hends := Monitor.history_finished h hspec
      have hwire : Wire parseJson client publicKey t (posts t) := by
        cases result with
        | error e => exact hends.2
        | ok certificate =>
            obtain ⟨jwt, token, login, signed, hjwt, hgrants, -, hposts⟩ := hends
            rw [hposts]
            exact .signed hjwt hgrants
      refine ⟨hwire, nofun, fun _ hq => by cases hq; exact hends, ?_⟩
      intro config hnew
      refine ⟨hwire.urls hnew, ?_⟩
      intro request next hnext
      cases hnext

end Lawful

section Sample

/-- A client. -/
def sampleClient : OpenBaoClient where
  config := ⟨⟨"https", "", none, "openbao.holdenitdown.net", 443, [[]], none, none⟩, "kubernetes",
    "homelab-mcp", "ssh-client-signer", "homelab", "/token", 5000⟩

/-- A parser of two texts. -/
def sampleJson (bytes : Bytes) : Option Value :=
  if bytes = Text.ascii "\x7b\"auth\":\x7b\"client_token\":\"s.1\"\x7d\x7d" then
    some (.object [("auth", .object [("client_token", .string "s.1")])])
  else if bytes = Text.ascii
      "\x7b\"data\":\x7b\"signed_key\":\"ssh-ed25519-cert-v01@openssh.com AAAATEST\"\x7d\x7d" then
    some (.object [("data", .object
      [("signed_key", .string "ssh-ed25519-cert-v01@openssh.com AAAATEST")])])
  else none

/-- The answer to its login. -/
def sampleLogin : Exchange :=
  .response 200 (.whole (Text.ascii "\x7b\"auth\":\x7b\"client_token\":\"s.1\"\x7d\x7d"))

/-- The answer to its signature. -/
def sampleSigned : Exchange :=
  .response 200 (.whole (Text.ascii
    "\x7b\"data\":\x7b\"signed_key\":\"ssh-ed25519-cert-v01@openssh.com AAAATEST\"\x7d\x7d"))

/-- The login grants the token. -/
theorem sample_grants : Grants sampleJson sampleLogin "s.1" :=
  ⟨received_eq_ok.mp (by decide +kernel), by decide +kernel, by decide +kernel⟩

/-- The signature issues the certificate. -/
theorem sample_issues :
    Issues sampleJson sampleSigned "ssh-ed25519-cert-v01@openssh.com AAAATEST" :=
  ⟨received_eq_ok.mp (by decide +kernel), by decide +kernel⟩

/-- The login and the signature, with what came before them. -/
def sampleTrace : Trace Ans :=
  [⟨.metadata "/token", some ⟨true, 20⟩⟩, ⟨.readToString "/token", some "jwt"⟩,
    ⟨.post (sampleClient.loginRequest "jwt"), sampleLogin⟩,
    ⟨.post (sampleClient.signRequest "s.1" "ssh-ed25519 AAAATEST"), sampleSigned⟩]

/-- The key of a deploy is signed with the token of the login, at the path of the signer. -/
theorem requests_lawful_signed :
    Wire sampleJson sampleClient "ssh-ed25519 AAAATEST" sampleTrace
      [(sampleClient.loginRequest "jwt", sampleLogin),
        (sampleClient.signRequest "s.1" "ssh-ed25519 AAAATEST", sampleSigned)] ∧
    [(sampleClient.loginRequest "jwt").url,
      (sampleClient.signRequest "s.1" "ssh-ed25519 AAAATEST").url] <+:
        endpoints sampleClient.config := by
  have hnew : OpenBaoClient.new sampleClient.config = .ok sampleClient :=
    new_eq_ok.mpr ⟨rfl, by decide +kernel⟩
  have hrun : Reaches (sampleClient.requestCertificate sampleJson "ssh-ed25519 AAAATEST").run
      sampleTrace (.done (.ok "ssh-ed25519-cert-v01@openssh.com AAAATEST")) :=
    reaches_signed (by decide +kernel) (by decide) (by decide +kernel) sample_grants sample_issues
  obtain ⟨hwire, -, -, hurls⟩ := requests_lawful hrun
  exact ⟨hwire, (hurls _ hnew).1⟩

end Sample

end OpenBao
