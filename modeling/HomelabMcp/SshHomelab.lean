import HomelabMcp.TokenCache

/-!
# The SSH client

`run` gets a token, from the cache or by a login, has OpenBao sign a key with it, and opens the
session.  A token is looked up before it signs.  A token that does not hold is revoked and removed
from the cache, whatever comes of the revocation.

The URL check, the check of the certificate and the JSON parser are parameters.
-/

namespace SshHomelab

open Interaction
open Json (Value)
open Text (Bytes)

/-- The bounds and the one policy of a token. -/
def maxBaoResponseBytes : Nat := 65536
def maxTokenTtlSeconds : Nat := 8 * 60 * 60
def expectedTokenPolicy : String := "homelab-ssh-client-sign"

/-- What a lookup says of a token. -/
inductive TokenLookup where
  | valid
  | rejected
  | contractInvalid
  | indeterminate
  deriving DecidableEq

/-- The texts that say that a token is refused. -/
def authRejectionMarkers : List Bytes :=
  ["permission denied", "invalid token", "token is expired", "expired token", "bad token",
    "missing client token", "code\":403", "code: 403"].map Text.ascii

/-- `bytes.lower` on one byte. -/
def lowerByte (b : UInt8) : UInt8 := if 0x41 ≤ b ∧ b ≤ 0x5A then b + 0x20 else b

/-- `in` on bytes. -/
def containsBytes (pattern : Bytes) : Bytes → Bool
  | [] => pattern.isEmpty
  | b :: rest => pattern.isPrefixOf (b :: rest) || containsBytes pattern rest

/-- `_is_authentication_rejection`. -/
def isAuthenticationRejection (diagnostic : Bytes) : Bool :=
  let lowered := (diagnostic.take maxBaoResponseBytes).map lowerByte
  authRejectionMarkers.any fun marker => containsBytes marker lowered

/-- Whether the policies are the one that is expected. -/
def policiesExpected : Value → Bool
  | .array [.string policy] => policy == expectedTokenPolicy
  | _ => false

/-- The data of a lookup is what the role of the SSH client gives a token. -/
def contractHolds (data : Value) : Bool :=
  (((data.get "ttl").bind Value.asU64).any fun ttl => 0 < ttl && ttl.toNat ≤ maxTokenTtlSeconds) &&
    (data.get "policies").any policiesExpected &&
    ((data.get "meta").bind (Value.get · "role")).bind Value.asStr == some "ssh" &&
    (data.get "type").bind Value.asStr == some "service" &&
    (data.get "token_policies").all policiesExpected &&
    ((data.get "identity_policies").all fun policies =>
      policies.isNull || policies.asArray.any List.isEmpty) &&
    (data.get "path").all fun path =>
      path.asStr.any fun path => "auth/oidc/".toList.isPrefixOf path.toList

/-- What the response to a lookup says of the token. -/
def judge (response : Value) : TokenLookup :=
  match response.get "data" with
  | some (.object members) =>
      if contractHolds (.object members) then .valid else .contractInvalid
  | _ => .indeterminate

/-- What a lookup says of the token.  Of the failures of `json.loads` only the refusals are caught;
the others leave the lookup. -/
def classify (loads : Bytes → Except LoadsError Value) : Ran → Except Exn TokenLookup
  | .error _ => .ok .indeterminate
  | .ok result =>
      if result.stdout.length > maxBaoResponseBytes ∨ result.stderr.length > maxBaoResponseBytes then
        .ok .indeterminate
      else if result.returncode ≠ 0 then
        .ok (if isAuthenticationRejection result.stderr then .rejected else .indeterminate)
      else match loads result.stdout with
        | .ok response => .ok (judge response)
        | .error .refused => .ok .indeterminate
        | .error failure => .error failure.exn

/-- The token of a login. -/
def loginToken : Ran → Except Exn String
  | .error e => .error e.exn
  | .ok result =>
      if result.returncode ≠ 0 then .error (.runtimeError "OpenBao OIDC login failed")
      else if result.stdout.length > maxBaoResponseBytes then
        .error (.runtimeError "OpenBao OIDC login response exceeded its bound")
      else match Text.decode result.stdout with
        | none => .error (.runtimeError "OpenBao OIDC login returned an invalid response")
        | some text =>
            let token := (text.toList.dropWhile isSpace).rdropWhile isSpace
            if token.isEmpty || token.any isSpace then
              .error (.runtimeError "OpenBao OIDC login returned no token")
            else .ok (String.ofList token)

/-- Whether a revocation succeeded. -/
def revoked : Ran → Bool
  | .error _ => false
  | .ok result => result.returncode == 0 && result.stdout.length ≤ maxBaoResponseBytes &&
      result.stderr.length ≤ maxBaoResponseBytes

/-- What signing comes to, before the certificate is written. -/
def signed : Ran → Except Exn Unit
  | .error e => .error e.exn
  | .ok result =>
      if result.returncode ≠ 0 then
        if result.stdout.length > maxBaoResponseBytes ∨
            result.stderr.length > maxBaoResponseBytes then
          .error (.runtimeError "OpenBao SSH certificate request failed")
        else if isAuthenticationRejection result.stderr then .error .authenticationRejected
        else .error (.runtimeError "OpenBao SSH certificate request failed")
      else if result.stdout.isEmpty ∨ result.stdout.length > maxBaoResponseBytes then
        .error (.runtimeError "OpenBao SSH certificate response is empty or too large")
      else .ok ()

/-- What stands outside: the user, and the parts that are parameters. -/
structure Outside where
  uid : Nat
  loads : Bytes → Except LoadsError Value
  validateOpenbaoUrl : String → Except Exn String
  validateUserCertificate : Bytes → Except Exn Unit

variable (o : Outside)

/-- `_executable`. -/
def executable (name : String) : Call Unit := do
  let found ← (ask (Op.which name) : Call Bool)
  ensure found (.valueError ("required executable is unavailable: " ++ name))

/-- No environment variable holds a null character. -/
def tokenEnvironment (token : String) : Call Unit :=
  ensure (!token.toList.contains '\x00') (.valueError "embedded null byte")

/-- `_login`. -/
def login : Call String := do
  let result ← (ask Op.login : Call Ran)
  answer (loginToken result)

/-- `_lookup_token`. -/
def lookupToken (token : String) : Call TokenLookup := do
  tokenEnvironment token
  let result ← (ask (Op.lookup token) : Call Ran)
  answer (classify o.loads result)

/-- `_revoke_token`. -/
def revokeToken (token : String) : Call Bool := do
  tokenEnvironment token
  let result ← (ask (Op.revoke token) : Call Ran)
  return revoked result

/-- `_sign`. -/
def sign (token : String) : Call Unit := do
  tokenEnvironment token
  let result ← (ask (Op.sign token) : Call Ran)
  answer (signed result)
  act (ask Op.storeCertificate)

/-- A warning where something failed. -/
def warnUnless (ok : Bool) (message : String) : Call Unit :=
  if ok then pure () else ask (Op.warn message)

/-- What follows the login: a token that is not valid is revoked, a valid one is saved. -/
def validateAndSave (origin : String) (cache : TokenCache) (token : String) : Call String := do
  let found ← lookupToken o token
  if found = .valid then
    cache.save origin token
    return token
  else
    let revoked ← revokeToken token
    warnUnless revoked ("warning: the new OpenBao token could not be confirmed revoked; it was " ++
      "not cached but may remain valid until its server-side expiry")
    if found = .indeterminate then
      throw (.runtimeError ("OpenBao OIDC token validation was indeterminate; the token was not " ++
        "cached; retry login"))
    throw (.runtimeError "OpenBao OIDC token did not satisfy the SSH signing token contract")

/-- `_login_validate_and_save`. -/
def loginValidateAndSave (origin : String) (cache : TokenCache) : Call String := do
  let token ← login
  validateAndSave o origin cache token

/-- The arguments of the command line. -/
structure Args where
  target : Option String
  openbaoUrl : String
  reauth : Bool
  logout : Bool

/-- `--logout`. -/
def runLogout (cache : TokenCache) : Option CachedToken → Call Int
  | none => return 0
  | some cached => do
      executable "bao"
      let revoked ← finallyDo (revokeToken cached.token) cache.clear
      warnUnless revoked ("warning: cached OpenBao token could not be revoked; the local cache " ++
        "was cleared but the token may remain valid until its server-side expiry")
      return 0

/-- `--reauth`: the cached token goes. -/
def dropCached (cache : TokenCache) : Option CachedToken → Call Unit
  | none => return ()
  | some cached => do
      let revoked ← finallyDo (revokeToken cached.token) cache.clear
      warnUnless revoked ("warning: cached OpenBao token could not be revoked; continuing with a " ++
        "new login after clearing the local cache")

/-- The cached token if it is valid; one that does not hold goes. -/
def validCached (cache : TokenCache) : Option CachedToken → Call (Option String)
  | none => return none
  | some cached => do
      let found ← lookupToken o cached.token
      match found with
      | .indeterminate =>
          throw (.runtimeError ("cached OpenBao token validation was indeterminate; the cache " ++
            "was preserved; retry or use --reauth"))
      | .valid => return some cached.token
      | .contractInvalid =>
          let revoked ← revokeToken cached.token
          warnUnless revoked ("warning: the contract-invalid cached OpenBao token could not be " ++
            "confirmed revoked; clearing it before login")
          cache.clear
          return none
      | .rejected =>
          cache.clear
          return none

/-- A new token was rejected while signing. -/
def dropRejected (cache : TokenCache) (token : String) : Call Unit := do
  let revoked ← revokeToken token
  cache.clear
  warnUnless revoked ("warning: the rejected OpenBao token could not be confirmed revoked; " ++
    "the local cache was cleared")
  throw (.runtimeError "OpenBao SSH certificate request rejected the new OIDC token")

/-- Sign; where the token was a cached one and is rejected, once more with a new one. -/
def certify (origin : String) (cache : TokenCache) (token : String) (tokenIsCached : Bool) :
    Call Unit := do
  let first ← attempt (sign token)
  match first with
  | .error .authenticationRejected =>
      if !tokenIsCached then dropRejected cache token
      else
        let revoked ← revokeToken token
        warnUnless revoked ("warning: the rejected cached OpenBao token could not be confirmed " ++
          "revoked; clearing it before login")
        cache.clear
        let token ← loginValidateAndSave o origin cache
        let second ← attempt (sign token)
        match second with
        | .error .authenticationRejected => dropRejected cache token
        | outcome => answer outcome
  | outcome => answer outcome

/-- A process that has to succeed. -/
def succeed (message : String) : Ran → Except Exn Bytes
  | .error e => .error e.exn
  | .ok result => if result.returncode ≠ 0 then .error (.runtimeError message)
      else .ok result.stdout

/-- In the temporary directory: the key, its certificate and the session. -/
def connect (origin : String) (cache : TokenCache) (token : String) (tokenIsCached : Bool) :
    Call Int := do
  let generated ← (ask Op.keygen : Call Ran)
  let _ ← answer (succeed "temporary SSH key generation failed" generated)
  certify o origin cache token tokenIsCached
  let inspected ← (ask Op.inspect : Call Ran)
  let certificate ← answer (succeed "OpenBao returned an invalid SSH certificate" inspected)
  ensure (certificate.length ≤ 65536)
    (.runtimeError "SSH certificate inspection exceeded its bound")
  answer (o.validateUserCertificate certificate)
  let session ← (ask Op.session : Call Ran)
  answer ((session.map Completed.returncode).mapError Unfinished.exn)

/-- The temporary directory around the session. -/
def openSession (origin : String) (cache : TokenCache) (token : String) (tokenIsCached : Bool) :
    Call Int := do
  executable "ssh-keygen"
  executable "ssh"
  act (ask Op.enterDirectory)
  finallyDo (connect o origin cache token tokenIsCached) (act (ask Op.leaveDirectory))

/-- A session with the cached token, or else with a new one. -/
def runSession (origin : String) (cache : TokenCache) (cached : Option CachedToken) :
    Call Int := do
  let valid ← validCached o cache cached
  match valid with
  | some token => openSession o origin cache token true
  | none =>
      let token ← loginValidateAndSave o origin cache
      openSession o origin cache token false

/-- A session with a target; with `--reauth` the cached token goes first. -/
def runTarget (args : Args) (origin : String) (cache : TokenCache) (cached : Option CachedToken) :
    Call Int := do
  ensure args.target.isSome (.valueError "target is required unless --logout is used")
  let isFile ← (ask Op.knownHostsIsFile : Call Bool)
  ensure isFile (.valueError "known-hosts must name an existing file")
  executable "bao"
  if args.reauth then
    dropCached cache cached
    runSession o origin cache none
  else runSession o origin cache cached

/-- `run`. -/
def run (args : Args) : Call Int := do
  let origin ← answer (o.validateOpenbaoUrl args.openbaoUrl)
  let cache ← TokenCache.fromEnvironment o.uid o.loads
  let cached ← cache.load origin
  if args.logout then runLogout cache cached else runTarget o args origin cache cached

end SshHomelab
