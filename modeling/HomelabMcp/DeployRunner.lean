import HomelabMcp.ChildProcess
import HomelabMcp.JsonValue
import HomelabMcp.MachineInventory
import HomelabMcp.SupervisedTask

/-!
# The deploy runner

`DeployRunner.runCancelled` takes the one permit, resolves the deploy, and hands both to a worker:
check the host pin, create a run directory, generate a key, have it signed, write the files, run
uv under a watch, and read its output.  The run directory is removed however the worker ends, and
the answer to the removal is not looked at.

Base64 decoding and the text of a JSON value are parameters (`Crates`); the signer is an operation
with any answer.  The diagnostics of failed stages are left out.
-/

namespace Deploys

open Interaction SupervisedTask
open ChildProcess (ExitStatus Endings Target Child)
open Inventory (Machine)
open Text (Bytes)

/-- The errors of a deploy. -/
inductive DeployError where
  | invalidConfiguration
  | invalidCatalog
  | deployNotFound
  | deployUnavailable
  | missingHostPin
  | busy
  | credentialUnavailable
  | credentialInvalid
  | executionRejected
  | cancelled
  | executionOutcomeUnknown
  | timeoutOutcomeUnknown
  | cancelledOutcomeUnknown
  | outputTooLargeOutcomeUnknown
  | invalidOutput
  deriving DecidableEq

/-- `DeployError::code`. -/
def DeployError.code : DeployError → String
  | invalidConfiguration => "invalid_configuration"
  | invalidCatalog => "invalid_catalog"
  | deployNotFound => "deploy_not_found"
  | deployUnavailable => "deploy_unavailable"
  | missingHostPin => "missing_host_pin"
  | busy => "deploy_busy"
  | credentialUnavailable => "credential_unavailable"
  | credentialInvalid => "credential_invalid"
  | executionRejected => "execution_rejected"
  | cancelled => "cancelled"
  | executionOutcomeUnknown => "execution_outcome_unknown"
  | timeoutOutcomeUnknown => "timeout_outcome_unknown"
  | cancelledOutcomeUnknown => "cancelled_outcome_unknown"
  | outputTooLargeOutcomeUnknown => "output_too_large_outcome_unknown"
  | invalidOutput => "invalid_output"

/-- An entry of the catalog. -/
structure DeployEntry where
  id : String
  entrypoint : String
  inventory : String
  mcpAvailable : Bool
  timeoutSeconds : Nat

/-- The catalog, with the directory that its paths are below. -/
structure DeployCatalog where
  root : String
  entries : List DeployEntry

/-- A deploy with its paths. -/
structure ResolvedDeploy where
  root : String
  entrypoint : String
  inventory : String
  timeoutSeconds : Nat

/-- `valid_id`. -/
def validId (value : String) : Bool :=
  !value.isEmpty && value.utf8ByteSize ≤ 64 && !(value.toList.head? == some '-') &&
    value.toList.all fun c => ('a' ≤ c && c ≤ 'z') || ('0' ≤ c && c ≤ '9') || c == '-'

/-- `DeployCatalog::resolve`. -/
def DeployCatalog.resolve (catalog : DeployCatalog) (id : String) :
    Except DeployError ResolvedDeploy :=
  if !validId id then .error .deployNotFound
  else match catalog.entries.find? (fun entry => entry.id == id) with
    | none => .error .deployNotFound
    | some entry =>
        if !entry.mcpAvailable then .error .deployUnavailable
        else .ok ⟨catalog.root, entry.entrypoint, entry.inventory, entry.timeoutSeconds⟩

/-- The sections of the output, in the order in which they were read. -/
structure SystemInfo where
  sections : List (String × String)
  deriving DecidableEq

/-- What a deploy returns. -/
inductive DeployResult where
  | systemInfo (info : SystemInfo)
  deriving DecidableEq

/-- The longest section. -/
def maxSectionBytes : Nat := 32 * 1024

/-- The sections that must be there, in their order. -/
def sectionNames : List String :=
  ["hostname", "uptime", "boot_time", "os_release", "kernel_arch", "cpu", "memory", "filesystems",
    "block_devices", "interfaces"]

/-- The section that may be left out. -/
def optionalSection : String := "default_routes"

/-- The lines around the sections. -/
def beginMarker : String := "HOMELAB_SYSTEM_INFO_V1_BEGIN\n"
def endMarker : String := "HOMELAB_SYSTEM_INFO_V1_END"

/-- Read the sections in order, up to the end of the payload. -/
def readSections : List String → List Char → Except DeployError (List (String × String))
  | [], [] => .ok []
  | [], _ :: _ => .error .invalidOutput
  | name :: names, remaining =>
      match Text.stripPrefix ("--- " ++ name ++ " BEGIN ---\n").toList remaining with
      | none => .error .invalidOutput
      | some body =>
          match Text.splitOnce ("\n--- " ++ name ++ " END ---\n").toList body with
          | none => .error .invalidOutput
          | some (value, rest) =>
              if (String.ofList value).utf8ByteSize > maxSectionBytes || value.contains '\x00' then
                .error .invalidOutput
              else match readSections names rest with
                | .error e => .error e
                | .ok sections => .ok ((name, String.ofList value) :: sections)

/-- `system_info`: the output of the deploy, decoded. -/
def systemInfo (stdout : Bytes) : Except DeployError DeployResult :=
  match Text.decode stdout with
  | none => .error .invalidOutput
  | some text =>
      match Text.splitOnce beginMarker.toList text.toList with
      | none => .error .invalidOutput
      | some (_, tail) =>
          match Text.splitOnce endMarker.toList tail with
          | none => .error .invalidOutput
          | some (payload, after) =>
              if Text.hasInfix endMarker.toList after then .error .invalidOutput
              else match readSections (sectionNames ++ [optionalSection]) payload with
                | .error e => .error e
                | .ok sections => .ok (.systemInfo ⟨sections⟩)

/-- Sections that are not as they must be are invalid output. -/
theorem readSections_error {names : List String} {text : List Char} {e : DeployError}
    (h : readSections names text = .error e) : e = .invalidOutput := by
  induction names generalizing text with
  | nil => cases text <;> simp_all [readSections]
  | cons name names ih =>
      simp only [readSections] at h
      split at h
      · simpa using h.symm
      · split at h
        · simpa using h.symm
        · split at h
          · simpa using h.symm
          · split at h
            · next he =>
                cases h
                exact ih he
            · simp at h

/-- The output of a deploy is refused with one error only. -/
theorem systemInfo_error {stdout : Bytes} {e : DeployError} (h : systemInfo stdout = .error e) :
    e = .invalidOutput := by
  unfold systemInfo at h
  split at h
  · simpa using h.symm
  · split at h
    · simpa using h.symm
    · split at h
      · simpa using h.symm
      · split at h
        · simpa using h.symm
        · split at h
          · next he =>
              cases h
              exact readSections_error he
          · simp at h

/-- The third-party functions the runner calls: the standard base64 decoder, and the text
serde_json gives a value. -/
structure Crates where
  decodeBase64 : String → Option Bytes
  jsonText : Json.Value → String

/-- `validate_host_pin`. -/
def validateHostPin (crates : Crates) (pin : String) : Except DeployError Unit :=
  match Text.split pin ' ' with
  | ["ssh-ed25519", encoded] =>
      if encoded.isEmpty || pin.utf8ByteSize > 256 then .error .missingHostPin
      else match crates.decodeBase64 encoded with
        | none => .error .missingHostPin
        | some bytes =>
            if bytes.length != 51 || bytes.take 15 != [0, 0, 0, 11] ++ Inventory.ed25519Name ||
                (bytes.drop 15).take 4 != [0, 0, 0, 32] then .error .missingHostPin
            else .ok ()
  | _ => .error .missingHostPin

/-- A host as it stands in `known_hosts`. -/
def knownHostsHost (host : String) (port : UInt16) : String :=
  if port = 22 then host else "[" ++ host ++ "]:" ++ toString port.toNat

/-- The paths of the runner. -/
structure DeployRunnerConfig where
  uvExecutable : String
  sshKeygenExecutable : String
  tempRoot : String

/-- A runner. -/
structure DeployRunner where
  catalog : DeployCatalog
  config : DeployRunnerConfig

/-- A command line with the whole environment of the process, and where it runs. -/
structure Command where
  executable : String
  env : List (String × String)
  args : List String
  currentDir : Option String
  deriving DecidableEq

/-- What `try_recv` finds. -/
inductive Received where
  | message
  | closed
  | empty
  deriving DecidableEq

/-- What comes of making a directory. -/
inductive Created where
  | created
  | alreadyExists
  | failed
  deriving DecidableEq

/-- How the select over the signer and the cancellation ends. -/
inductive Signed where
  | cancelled
  | answered (result : Except DeployError String)

/-- What the worker looks at of a file. -/
structure FileMetadata where
  isFile : Bool
  length : Nat

/-- A process with the pipes it was given. -/
structure Spawned where
  pid : Nat
  stdout : Bool
  stderr : Bool

/-- What a worker asks of its surroundings.  A file operation answers whether it succeeded, and so
does the removal of the run directory with all that is in it. -/
inductive Op where
  | tryRecv
  | random
  | createDir (path : String) (mode : Nat)
  | spawnKeygen (command : Command)
  | keygen (op : ChildProcess.Op)
  | setPermissions (path : String) (mode : Nat)
  | metadata (path : String)
  | readToString (path : String)
  | sign (publicKey : String)
  | openNew (path : String) (mode : Nat)
  | writeAll (path : String) (text : String)
  | removeFile (path : String)
  | spawnUv (command : Command)
  | uv (op : ChildProcess.Op)
  | removeDirAll (path : String)

/-- What each operation answers. -/
abbrev Ans : Op → Type
  | .tryRecv => Received
  | .random => Option { bytes : Bytes // bytes.length = 16 }
  | .createDir _ _ => Created
  | .spawnKeygen _ => Option Nat
  | .keygen op => ChildProcess.Ans op
  | .setPermissions _ _ => Bool
  | .metadata _ => Option FileMetadata
  | .readToString _ => Option String
  | .sign _ => Signed
  | .openNew _ _ => Bool
  | .writeAll _ _ => Bool
  | .removeFile _ => Bool
  | .spawnUv _ => Option Spawned
  | .uv op => ChildProcess.Ans op
  | .removeDirAll _ => Bool

/-- The answers the signal of the task leaves possible. -/
def heeds (signalled : Bool) : (op : Op) → Ans op → Prop
  | .tryRecv, received => received = .empty ↔ signalled = false
  | .keygen op, answer => ChildProcess.heeds signalled op answer
  | .uv op, answer => ChildProcess.heeds signalled op answer
  | .sign _, .cancelled => signalled = true
  | _, _ => True

/-- A part of a worker. -/
abbrev Worker := Fallible Ans DeployError

/-- The longest output that is read. -/
def maxStdoutBytes : Nat := 512 * 1024
def maxStderrBytes : Nat := 32 * 1024

/-- `cancelled_now`. -/
def cancelledNow : Worker Unit := do
  match ← ask Op.tryRecv with
  | .message | .closed => throw .cancelled
  | .empty => return ()

/-- `Path::join`. -/
def joinPath (dir name : String) : String := dir ++ "/" ++ name

/-- Two lower-case hexadecimal digits. -/
def hexByte (b : UInt8) : List Char :=
  [Nat.digitChar (b.toNat / 16), Nat.digitChar (b.toNat % 16)]

/-- Create a directory under a random name; a name that is taken is tried again. -/
def createRunDir (root : String) : (attempts : Nat) → Worker String
  | 0 => throw .executionRejected
  | attempts + 1 => do
      match ← ask Op.random with
      | none => throw .executionRejected
      | some random =>
          let name := String.ofList (random.1.flatMap hexByte)
          let path := joinPath root ("homelab-deploy-" ++ name)
          match ← ask (Op.createDir path 0o700) with
          | .created => return path
          | .alreadyExists => createRunDir root attempts
          | .failed => throw .executionRejected

/-- Kill the group of a child that has not been waited for. -/
def killGroup (child : Child) : Option Target := child.id.map fun _ => .group

/-- `terminate_group`. -/
def terminateGroup (child : Child) (stdout stderr : Bool) :
    Program ChildProcess.Op ChildProcess.Ans Unit :=
  ChildProcess.terminate killGroup child stdout stderr

/-- A child's program inside a worker. -/
def watching {α : Type} (part : ChildProcess.Op → Op)
    (p : Program ChildProcess.Op (fun op => Ans (part op)) α) : Worker α :=
  ExceptT.lift (p.lift part)

/-- Wait for the key generator, a cancellation or ten seconds. -/
def awaitKeygen (pid : Nat) : Worker Unit := do
  match ← ask (Op.keygen (.select ⟨true, false, false⟩)) with
  | ⟨.exited status, _⟩ => ensure status.success .executionRejected
  | ⟨.waitFailed, _⟩ => do
      -- the child is dropped, which kills it
      ask (Op.keygen (.kill pid .leader))
      throw .executionRejected
  | ⟨.cancelled, _⟩ => do
      watching Op.keygen (terminateGroup ⟨pid, false⟩ false false)
      throw .cancelled
  | ⟨.expired, _⟩ => do
      watching Op.keygen (terminateGroup ⟨pid, false⟩ false false)
      throw .executionRejected
  | ⟨.stdout _, h⟩ => nomatch h
  | ⟨.stderr _, h⟩ => nomatch h

/-- `run_keygen`. -/
def runKeygen (executable key : String) : Worker Unit := do
  match ← ask (Op.spawnKeygen ⟨executable, [],
      ["-q", "-t", "ed25519", "-N", "", "-C", "", "-f", key], none⟩) with
  | none => throw .executionRejected
  | some pid => do
      awaitKeygen pid
      ensure (← ask (Op.setPermissions key 0o600)) .executionRejected
      ensure (← ask (Op.setPermissions (key ++ ".pub") 0o600)) .executionRejected

/-- `read_bounded`. -/
def readBounded (path : String) (limit : Nat) : Worker String := do
  match ← ask (Op.metadata path) with
  | none => throw .executionRejected
  | some metadata => do
      ensure (metadata.isFile && metadata.length != 0 && metadata.length ≤ limit) .credentialInvalid
      match ← ask (Op.readToString path) with
      | none => throw .credentialInvalid
      | some text => return text

/-- The signature of the public key, or the cancellation. -/
def sign (publicKey : String) : Worker String := do
  match ← ask (Op.sign publicKey) with
  | .cancelled => throw .cancelled
  | .answered result => answer result

/-- `write_private`. -/
def writePrivate (path text : String) : Worker Unit := do
  ensure (← ask (Op.openNew path 0o600)) .executionRejected
  ensure (← ask (Op.writeAll path text)) .executionRejected

/-- What the loop over uv makes of its ends. -/
def endings : Endings (Except DeployError Bytes) where
  stdoutLimit := maxStdoutBytes
  stderrLimit := maxStderrBytes
  kill := killGroup
  finish status output _ :=
    if status.success then .ok output else .error .executionOutcomeUnknown
  cancelled := .error .cancelledOutcomeUnknown
  expired := .error .timeoutOutcomeUnknown
  waitFailed := .error .executionOutcomeUnknown
  streamFailed := .error .outputTooLargeOutcomeUnknown

/-- The command line of `uv`, with its whole environment. -/
def uvCommand (config : DeployRunnerConfig) (deploy : ResolvedDeploy) (inventory : String) :
    Command :=
  let projectEnvironment := joinPath deploy.root ".venv"
  { executable := config.uvExecutable
    env := [("HOME", config.tempRoot), ("HOMELAB_INVENTORY_JSON", inventory),
      ("PATH", joinPath projectEnvironment "bin" ++ ":/usr/local/bin:/usr/bin:/bin"),
      ("UV_NO_CACHE", "1"), ("UV_NO_SYNC", "1"), ("UV_OFFLINE", "1"),
      ("UV_PROJECT_ENVIRONMENT", projectEnvironment)]
    args := ["run", "--locked", "pyinfra", "--yes", deploy.inventory, deploy.entrypoint]
    currentDir := some deploy.root }

/-- `run_uv`. -/
def runUv (config : DeployRunnerConfig) (deploy : ResolvedDeploy) (inventory : String) :
    Worker Bytes := do
  match ← ask (Op.spawnUv (uvCommand config deploy inventory)) with
  | none => throw .executionRejected
  | some spawned =>
      if spawned.stdout && spawned.stderr then do
        answer (← watching Op.uv
          (ChildProcess.watch endings ⟨⟨spawned.pid, false⟩, none, none, none⟩))
      else do
        -- a pipe is missing: the child is dropped, which kills it
        ask (Op.uv (.kill spawned.pid .leader))
        throw .executionOutcomeUnknown

/-- The inventory handed to pyinfra. -/
def inventoryValue (machine : Machine) (key knownHosts : String) : Json.Value :=
  .object [
    ("host", .object [
      ("address", .string machine.sshHost),
      ("known_hosts", .string knownHosts),
      ("port", .nat machine.sshPort.toNat.toUInt64),
      ("ssh_key", .string key),
      ("user", .string machine.sshUsername)]),
    ("version", .nat 1)]

/-- What the worker does in its run directory. -/
def inRunDir (crates : Crates) (config : DeployRunnerConfig) (deploy : ResolvedDeploy)
    (machine : Machine) (pin runDir : String) : Worker DeployResult := do
  let key := joinPath runDir "identity"
  let knownHosts := joinPath runDir "known_hosts"
  runKeygen config.sshKeygenExecutable key
  let publicKey ← readBounded (key ++ ".pub") 1024
  cancelledNow
  let certificate ← sign (Text.trimEnd publicKey)
  writePrivate (joinPath runDir "identity-cert.pub") certificate
  ensure (← ask (Op.removeFile (key ++ ".pub"))) .executionRejected
  writePrivate knownHosts (knownHostsHost machine.sshHost machine.sshPort ++ " " ++ pin ++ "\n")
  let output ← runUv config deploy (crates.jsonText (inventoryValue machine key knownHosts))
  answer (systemInfo output)

/-- Run `body`, then remove the directory whatever its outcome. -/
def withCleanup {α : Type} (dir : String) (body : Worker α) : Worker α := do
  let result ← attempt body
  -- the guard drops what the removal says
  let _ ← ask (Op.removeDirAll dir)
  answer result

/-- `worker`. -/
def worker (crates : Crates) (config : DeployRunnerConfig) (deploy : ResolvedDeploy)
    (machine : Machine) : Worker DeployResult := do
  cancelledNow
  match machine.pinnedHostPublicKey with
  | none => throw .missingHostPin
  | some pin =>
      answer (validateHostPin crates pin)
      let runDir ← createRunDir config.tempRoot 8
      withCleanup runDir (inRunDir crates config deploy machine pin runDir)

/-- The arguments of `run_cancelled`. -/
structure Request where
  deployId : String
  machine : Machine

/-- `run_cancelled`: a cancelled call returns what the worker ends with. -/
def DeployRunner.runCancelled (crates : Crates) (runner : DeployRunner) :
    Supervisor Op Ans Request (Except DeployError DeployResult) where
  busy := .error .busy
  accept request :=
    match runner.catalog.resolve request.deployId with
    | .error e => .error (.error e)
    | .ok deploy =>
        if request.machine.pinnedHostPublicKey.isNone then .error (.error .missingHostPin)
        else .ok (worker crates runner.config deploy request.machine).run
  onCancel _ result := result
  heeds := heeds

end Deploys
