import HomelabMcp.Interaction
import HomelabMcp.JsonValue

/-!
# The token cache of the SSH client

`TokenCache` keeps one OpenBao token in a file of the runtime directory.  `load`, `save` and
`clear` look at the directory and at the file before they touch them, and give up with an exception
where these are not what the cache has made.

Every operation of the file system is one operation of the program, and any answer may come.  The
operations of the SSH client, which shares them, are `Op` too.  `json.loads` is a parameter, with
the exceptions that it raises.
-/

namespace SshHomelab

open Interaction
open Json (Value)
open Text (Bytes)

/-- The exceptions that the SSH client and its cache raise or let through. -/
inductive Exn where
  | valueError (message : String)
  | runtimeError (message : String)
  | authenticationRejected
  | osError
  | subprocessError
  | recursionError
  deriving DecidableEq

/-- How `json.loads` fails.  `refused` stands for `UnicodeDecodeError` and `JSONDecodeError`; an
integer with more digits than Python converts raises another `ValueError`, and a value that is
nested too deep a `RecursionError`. -/
inductive LoadsError where
  | refused
  | valueError
  | recursionError

/-- The exception of a failure. -/
def LoadsError.exn : LoadsError → Exn
  | .refused => .valueError "the content is not JSON"
  | .valueError => .valueError "Exceeds the limit for integer string conversion"
  | .recursionError => .recursionError

/-- A command that has run. -/
structure Completed where
  returncode : Int
  stdout : Bytes
  stderr : Bytes

/-- A process that was not run, or not to its end. -/
inductive Unfinished where
  | osError
  | subprocessError

/-- The exception of a command that has not. -/
def Unfinished.exn : Unfinished → Exn
  | .osError => .osError
  | .subprocessError => .subprocessError

/-- What running a command gives. -/
abbrev Ran := Except Unfinished Completed

/-- The kinds of files. -/
inductive FileKind where
  | link
  | directory
  | regular
  | other
  deriving DecidableEq

/-- What `lstat` and `fstat` say; the mode without the kind. -/
structure Metadata where
  kind : FileKind
  uid : Nat
  mode : Nat

/-- What opening the file without following links gives. -/
inductive Opened where
  | missing
  | refused
  | descriptor (metadata : Metadata)

/-- What the cache holds.  Origin and token are Unicode text: a Python string with surrogate code
points, which UTF-8 does not encode, is none of them. -/
structure CachedToken where
  origin : String
  token : String
  deriving DecidableEq

/-- What the cache is looked at for; `created` is the second look of a save, once the directory was
made. -/
inductive Use where
  | load
  | save
  | created
  | clear
  deriving DecidableEq

/-- The operations of the file system and of the processes.  `replaceCache` puts the file that was
written from the entry in place. -/
inductive Op where
  | environment (name : String)
  | lstatRoot
  | lstatDirectory (use : Use)
  | mkdir
  | openCache (use : Use)
  | readCache
  | makeTemporary
  | writeTemporary (entry : CachedToken)
  | replaceCache (entry : CachedToken)
  | syncDirectory
  | removeTemporary
  | unlinkCache
  | knownHostsIsFile
  | which (name : String)
  | login
  | lookup (token : String)
  | revoke (token : String)
  | sign (token : String)
  | storeCertificate
  | enterDirectory
  | leaveDirectory
  | keygen
  | inspect
  | session
  | warn (message : String)
  deriving DecidableEq

/-- The outcome of an operation that may fail with an error of the system. -/
abbrev Did (α : Type) := Except Unit α

/-- A missing directory has no metadata; one that is there already is not made. -/
def Ans : Op → Type
  | .environment _ => Option String
  | .lstatRoot | .lstatDirectory _ => Did (Option Metadata)
  | .mkdir => Did Bool
  | .openCache _ => Opened
  | .readCache => Did Bytes
  | .makeTemporary | .writeTemporary _ | .replaceCache _ | .syncDirectory | .removeTemporary
  | .unlinkCache | .storeCertificate | .enterDirectory | .leaveDirectory => Did Unit
  | .knownHostsIsFile | .which _ => Bool
  | .login | .lookup _ | .revoke _ | .sign _ | .keygen | .inspect | .session => Ran
  | .warn _ => Unit

/-- A part of the program. -/
abbrev Call := Fallible Ans Exn

/-- The value of an operation that may fail. -/
def act {α : Type} (step : Call (Did α)) : Call α := do
  let result ← step
  answer (result.mapError fun _ => .osError)

/-- `try x finally: y`. -/
def finallyDo {α : Type} (x : Call α) (y : Call Unit) : Call α := do
  let result ← attempt x
  y
  answer result

/-- The bounds of a file and of a token. -/
def maxCacheBytes : Nat := 65536
def maxTokenBytes : Nat := 16384

/-- `str.isspace` of one character. -/
def isSpace (c : Char) : Bool := Text.isWhitespace c || (0x1C ≤ c.toNat && c.toNat ≤ 0x1F)

/-- `_valid_token`. -/
def validToken (token : String) : Bool :=
  !token.isEmpty && token.utf8ByteSize ≤ maxTokenBytes && !token.toList.any isSpace

/-- `json.dumps` of a character; everything but printable ASCII is escaped. -/
def dumpsChar (c : Char) : List Char :=
  let hex (n : Nat) : List Char := Char.ofNat 0x5C :: 'u' ::
    [n / 4096 % 16, n / 256 % 16, n / 16 % 16, n % 16].map Nat.digitChar
  match c.toNat with
  | 0x22 | 0x5C => [Char.ofNat 0x5C, c]
  | 0x0A => [Char.ofNat 0x5C, 'n']
  | 0x0D => [Char.ofNat 0x5C, 'r']
  | 0x09 => [Char.ofNat 0x5C, 't']
  | 0x0C => [Char.ofNat 0x5C, 'f']
  | 0x08 => [Char.ofNat 0x5C, 'b']
  | n =>
      if 0x20 ≤ n ∧ n ≤ 0x7E then [c]
      else if n < 0x10000 then hex n
      else hex (0xD800 + (n - 0x10000) / 1024) ++ hex (0xDC00 + (n - 0x10000) % 1024)

/-- `json.dumps` of a text. -/
def dumpsString (s : String) : List Char :=
  Char.ofNat 0x22 :: s.toList.flatMap dumpsChar ++ [Char.ofNat 0x22]

/-- The content of the cache file. -/
def dumps (entry : CachedToken) : List Char :=
  "\x7b\"schema\":1,\"origin\":".toList ++ dumpsString entry.origin ++ ",\"token\":".toList ++
    dumpsString entry.token ++ "\x7d".toList

/-- The entry of a file with this content, if the content is valid. -/
def readEntry (loads : Bytes → Except LoadsError Value) (content : Bytes) :
    Option CachedToken := do
  guard (content.length ≤ maxCacheBytes)
  let value ← (loads content).toOption
  let members ← value.asObject
  let keys := ["schema", "origin", "token"]
  guard (members.all (fun m => keys.contains m.1) && keys.all fun key => (value.get key).isSome)
  guard ((value.get "schema").bind Value.asU64 == some 1)
  let origin ← (value.get "origin").bind Value.asStr
  let token ← (value.get "token").bind Value.asStr
  guard (validToken token)
  return ⟨origin, token⟩

/-- The content is nested too deep for `json.loads`.  `load` takes every other failure for a
malformed content, and lets this one through. -/
def overflows (loads : Bytes → Except LoadsError Value) (content : Bytes) : Bool :=
  content.length ≤ maxCacheBytes && match loads content with
    | .error .recursionError => true
    | _ => false

/-- The user of the process and the JSON parser. -/
structure TokenCache where
  uid : Nat
  loads : Bytes → Except LoadsError Value

namespace TokenCache

/-- `TokenCache.from_environment`. -/
def fromEnvironment (uid : Nat) (loads : Bytes → Except LoadsError Value) :
    Call TokenCache := do
  let value ← (ask (Op.environment "XDG_RUNTIME_DIR") : Call (Option String))
  match value with
  | none => throw (.valueError "XDG_RUNTIME_DIR is required for the OpenBao token cache")
  | some root =>
      ensure (!root.isEmpty)
        (.valueError "XDG_RUNTIME_DIR is required for the OpenBao token cache")
      ensure (root.toList.head? == some '/')
        (.valueError "XDG_RUNTIME_DIR must be an absolute path")
      let metadata ← act (ask Op.lstatRoot)
      match metadata with
      | none => throw (.valueError "XDG_RUNTIME_DIR must name an existing secure directory")
      | some metadata =>
          ensure (metadata.kind == .directory)
            (.valueError "XDG_RUNTIME_DIR must be a real directory, not a symlink")
          ensure (metadata.uid == uid)
            (.valueError "XDG_RUNTIME_DIR must be owned by the current user")
          ensure (metadata.mode % 64 == 0)
            (.valueError "XDG_RUNTIME_DIR must not grant group or other permissions")
          return ⟨uid, loads⟩

/-- Whether the directory is there; it is refused if it is not the cache's. -/
def checkDirectory (uid : Nat) : Option Metadata → Except Exn Bool
  | none => .ok false
  | some metadata =>
      if metadata.kind ≠ .directory then
        .error (.valueError "OpenBao token cache directory must be a real directory")
      else if metadata.uid ≠ uid then
        .error (.valueError "OpenBao token cache directory has the wrong owner")
      else if metadata.mode ≠ 0o700 then
        .error (.valueError "OpenBao token cache directory must have mode 0700")
      else .ok true

/-- `_validate_directory`. -/
def validateDirectory (cache : TokenCache) (use : Use) : Call Bool := do
  let metadata ← act (ask (Op.lstatDirectory use))
  answer (checkDirectory cache.uid metadata)

/-- `_ensure_directory`. -/
def ensureDirectory (cache : TokenCache) : Call Unit := do
  let there ← cache.validateDirectory .save
  if !there then
    let _ ← act (ask Op.mkdir)
    let there ← cache.validateDirectory .created
    ensure there
      (.valueError "OpenBao token cache directory could not be created securely")

/-- Whether the file is there; it is refused if it is not the cache's. -/
def checkFile (uid : Nat) : Opened → Except Exn Bool
  | .missing => .ok false
  | .refused => .error (.valueError "OpenBao token cache must be a regular non-symlink file")
  | .descriptor metadata =>
      if metadata.kind ≠ .regular ∨ metadata.uid ≠ uid ∨ metadata.mode ≠ 0o600 then
        .error
          (.valueError "OpenBao token cache must be an owner-owned mode 0600 regular file")
      else .ok true

/-- Whether there is a file that can be read. -/
def openCache (cache : TokenCache) (use : Use) : Call Bool := do
  let there ← cache.validateDirectory use
  if !there then return false
  let opened ← (ask (Op.openCache use) : Call Opened)
  answer (checkFile cache.uid opened)

/-- `clear`. -/
def clear (cache : TokenCache) : Call Unit := do
  let there ← cache.openCache .clear
  if there then act (ask Op.unlinkCache)

/-- What `load` does with the entry of the file. -/
def loadEntry (cache : TokenCache) (expectedOrigin : String) (found : Option CachedToken) :
    Call (Option CachedToken) :=
  match found with
  | some entry => do
      if entry.origin = expectedOrigin then return some entry
      cache.clear
      return none
  | none => do
      cache.clear
      return none

/-- `load`. -/
def load (cache : TokenCache) (expectedOrigin : String) : Call (Option CachedToken) := do
  let there ← cache.openCache .load
  if !there then return none
  let content ← attempt (act (ask Op.readCache))
  match content with
  | .error _ => throw (.valueError "OpenBao token cache could not be read safely")
  | .ok content =>
      ensure (!overflows cache.loads content) .recursionError
      cache.loadEntry expectedOrigin (readEntry cache.loads content)

/-- `save`. -/
def save (cache : TokenCache) (origin token : String) : Call Unit := do
  ensure (validToken token) (.valueError "OpenBao token is invalid for caching")
  let entry : CachedToken := ⟨origin, token⟩
  ensure ((dumps entry).length ≤ maxCacheBytes)
    (.valueError "OpenBao token cache content exceeds its bound")
  cache.ensureDirectory
  let _ ← cache.openCache .save
  act (ask Op.makeTemporary)
  finallyDo (do
    act (ask (Op.writeTemporary entry))
    act (ask (Op.replaceCache entry))
    act (ask Op.syncDirectory)) (act (ask Op.removeTemporary))

end TokenCache

end SshHomelab
