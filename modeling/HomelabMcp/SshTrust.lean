import HomelabMcp.Text
import HomelabMcp.WorldEffects

/-!
# The SSH trust transaction

The shell script with which the bootstrap installs the user CA key and the drop-in of sshd: stage
both, check the configuration they would make, put each in its place unless it is there already,
check again, and reload the service if the content of either has changed.

Every command may fail, whatever it has done by then, and a signal may come with any command.  Under
`set -e` a failed command ends the script, except in the condition of an `if`; the trap runs at the
end and at a signal, after which the script goes on.  The removals of the trap are taken as done.

What a command prints on the terminal is left out.
-/

namespace SshTrust

open Interaction
open Text (Bytes)

/-- The two files, with what is staged for each. -/
inductive Target where
  | ca
  | dropIn
  deriving DecidableEq

/-- `_SSHD_DROP_IN` -/
def sshdDropIn : Bytes := Text.ascii "TrustedUserCAKeys /etc/ssh/trusted-user-ca-keys.pem\n"

/-- What each file should hold. -/
def desired (caPublicKey : Bytes) : Target → Bytes
  | .ca => caPublicKey
  | .dropIn => sshdDropIn

/-- What stands at a path.  A symbolic link is followed to the content of a regular file, if it
leads to one. -/
inductive Node where
  | absent
  | directory
  | regular (content : Bytes) (uid gid mode : Nat)
  | symlink (leadsTo : Option Bytes)
  | special
  deriving DecidableEq

/-- The content that is read at a path. -/
def Node.content : Node → Option Bytes
  | .regular content _ _ _ => some content
  | .symlink leadsTo => leadsTo
  | _ => none

/-- What `stat -c '%F:%u:%g:%a'` prints of a regular file that is not empty, and anything else it
prints. -/
inductive Metadata where
  | regularFile (uid gid mode : Nat)
  | other
  deriving DecidableEq

/-- What `stat` says of a file. -/
def Node.metadata : Node → Option Metadata
  | .absent => none
  | .regular content uid gid mode =>
      if content.isEmpty then some .other else some (.regularFile uid gid mode)
  | _ => some .other

/-- The private directory of a run: not there, there but not known to the run, or known to it. -/
inductive Staging where
  | none
  | unnamed
  | named (files : Target → Option Bytes)

/-- The machine, with the files of the present run. -/
structure World where
  files : Target → Node
  active : Bool
  loaded : Target → Option Bytes
  staging : Staging
  temps : Target → Option Node

/-- What sshd would read now. -/
def World.content (w : World) (t : Target) : Option Bytes := (w.files t).content

/-- The machine as the next run finds it: the names of its own files are new. -/
def World.fresh (w : World) : World := { w with staging := .none, temps := fun _ => none }

/-- After the removals of the trap. -/
def World.cleaned (w : World) : World :=
  { w with
    staging := match w.staging with
      | .named _ => .none
      | other => other
    temps := fun _ => none }

/-- What is staged for a file. -/
def World.staged (w : World) (t : Target) : Option Bytes :=
  match w.staging with
  | .named files => files t
  | _ => none

/-- The commands whose failure ends the script. -/
inductive Command where
  | mktemp
  | stage (target : Target)
  | validateConf
  | keygen
  | copyConfig
  | includeConf
  | testCandidate
  | installDirectory
  | install (target : Target)
  | move (target : Target)
  | testFinal
  | mkfifo
  | capture
  | removeFifo
  | countBytes
  | testSize
  | grepEffective
  | reload
  deriving DecidableEq

/-- The conditions of the script. -/
inductive Query where
  | isDirectory (target : Target)
  | contentMatches (target : Target)
  | producer
  | isActive
  deriving DecidableEq

/-- How a condition ends: as the machine is, or cut off, which counts as no. -/
inductive Verdict where
  | yes
  | no
  | cut
  deriving DecidableEq

/-- The operations of the script. -/
inductive Op where
  | run (command : Command)
  | query (query : Query)
  | stat (target : Target)
  | cleanup

/-- What a command ends with, and whether a signal came meanwhile. -/
structure Answer (α : Type) where
  value : α
  signalled : Bool
  deriving DecidableEq

/-- What each operation answers. -/
abbrev Ans : Op → Type
  | .run _ => Answer Bool
  | .query _ => Answer Verdict
  | .stat _ => Answer (Option Metadata)
  | .cleanup => Unit

/-- A part of the script. -/
abbrev Script := Fallible Ans Unit

/-- The trap of a signal. -/
def heed (signalled : Bool) : Script Unit := if signalled then ask Op.cleanup else pure ()

/-- A command, which the script ends with where it fails. -/
def run (command : Command) : Script Unit := do
  let answer ← ask (Op.run command)
  heed answer.signalled
  ensure answer.value ()

/-- A command in a condition. -/
def query (query : Query) : Script Bool := do
  let answer ← ask (Op.query query)
  heed answer.signalled
  return answer.value == .yes

/-- `stat` in a substitution. -/
def stat (target : Target) : Script (Option Metadata) := do
  let answer ← ask (Op.stat target)
  heed answer.signalled
  return answer.value

/-- A directory in place of a file is refused. -/
def refuseDirectory (target : Target) : Script Unit := do
  ensure (!(← query (.isDirectory target))) ()

/-- The directory of the drop-in is made first. -/
def makeParent : Target → Script Unit
  | .ca => pure ()
  | .dropIn => run .installDirectory

/-- Put a file in its place unless it is there; whether its content was another. -/
def reconcile (target : Target) : Script Bool := do
  let metadata ← stat target
  let contentMatches ← query (.contentMatches target)
  if !contentMatches || metadata != some (.regularFile 0 0 0o644) then
    makeParent target
    run (.install target)
    run (.move target)
    return !contentMatches
  else return false

/-- The bounded output of `sshd -T` names the CA file. -/
def checkEffective : Script Unit := do
  run .mkfifo
  run .capture
  let produced ← query .producer
  run .removeFifo
  ensure produced ()
  run .countBytes
  run .testSize
  run .grepEffective

/-- The reload, where something changed and the service is active. -/
def reload (contentChanged : Bool) : Script Unit := do
  if contentChanged then
    if ← query .isActive then run .reload

/-- The script up to its traps. -/
def body : Script Unit := do
  run .mktemp
  refuseDirectory .ca
  refuseDirectory .dropIn
  run (.stage .ca)
  run (.stage .dropIn)
  run .validateConf
  run .keygen
  run .copyConfig
  run .includeConf
  run .testCandidate
  let caChanged ← reconcile .ca
  let dropInChanged ← reconcile .dropIn
  run .testFinal
  checkEffective
  reload (caChanged || dropInChanged)

/-- The script of `_ssh_trust_command`, with the trap at its end. -/
def sshTrust : Script Unit := do
  let outcome ← attempt body
  ask Op.cleanup
  answer outcome

/-- A file is written, whole or in part, in the private directory. -/
def World.stage (w : World) (t : Target) (content : Option Bytes) : World :=
  { w with
    staging := match w.staging with
      | .named files => .named (Function.update files t content)
      | other => other }

/-- The world with another temporary file. -/
def World.setTemp (w : World) (t : Target) (node : Option Node) : World :=
  { w with temps := Function.update w.temps t node }

/-- The temporary file takes the place of the target, which is no directory. -/
def World.Moved (w : World) (t : Target) (w' : World) : Prop :=
  ∃ node, w.temps t = some node ∧ w.files t ≠ .directory ∧
    w' = { w with
      files := Function.update w.files t node
      temps := Function.update w.temps t none }

/-- The world after a reload. -/
def World.reloaded (w : World) : World := { w with loaded := w.content }

/-- What a command may have done when it ends with success, or with failure. -/
def commandEffect (caPublicKey : Bytes) : Command → Bool → World → World → Prop
  | .mktemp, true, w, w' => w' = { w with staging := .named fun _ => none }
  | .mktemp, false, w, w' => w' = w ∨ w' = { w with staging := .unnamed }
  | .stage t, true, w, w' =>
      (∃ files, w.staging = .named files) ∧ w' = w.stage t (some (desired caPublicKey t))
  | .stage t, false, w, w' => ∃ content, w' = w ∨ w' = w.stage t content
  | .install t, true, w, w' =>
      ∃ content, w.staged t = some content ∧ w' = w.setTemp t (some (.regular content 0 0 0o644))
  | .install t, false, w, w' => ∃ node, w' = w ∨ w' = w.setTemp t node
  | .move t, true, w, w' => w.Moved t w'
  | .move t, false, w, w' => w' = w ∨ w.Moved t w'
  | .reload, true, w, w' => w' = w.reloaded
  | .reload, false, w, w' => w' = w ∨ w' = w.reloaded
  | _, _, w, w' => w' = w

/-- What a condition asks of the machine. -/
def Query.holds : Query → World → Prop
  | .isDirectory t, w => w.files t = .directory
  | .contentMatches t, w => ∃ content, w.staged t = some content ∧ w.content t = some content
  | .producer, _ => True
  | .isActive, w => w.active = true

/-- What a condition says of the world. -/
def queryEffect : Query → Verdict → World → World → Prop
  | .producer, _, w, w' => w' = w
  | q, .yes, w, w' => w' = w ∧ q.holds w
  | q, .no, w, w' => w' = w ∧ ¬ q.holds w
  | _, .cut, w, w' => w' = w

/-- What each operation does to the world. -/
def effect (caPublicKey : Bytes) : Effect Ans World
  | .run command, answer, w, w' => commandEffect caPublicKey command answer.value w w'
  | .query query, answer, w, w' => queryEffect query answer.value w w'
  | .stat t, answer, w, w' => w' = w ∧
      (answer.value = none ∨ answer.value = (w.files t).metadata)
  | .cleanup, _, w, w' => w' = w.cleaned

/-- No condition of the script was cut off. -/
def Uncut : Event Ans → Prop
  | ⟨.query _, answer⟩ => answer.value ≠ .cut
  | _ => True

/-- A run: the machine before it, what has happened, how it has ended if it was not cut short, and
the machine after it. -/
structure Run where
  before : World
  trace : Trace Ans
  ended : Option (Except Unit Unit)
  after : World

/-- A run that the script and the machine can make. -/
structure Ran (caPublicKey : Bytes) (r : Run) : Prop where
  reaches : ∃ q, Reaches sshTrust.run r.trace q ∧ q.ended = r.ended
  moves : Moves (effect caPublicKey) r.before.fresh r.trace r.after

/-- Runs with one key, each on the machine the one before has left. -/
inductive History (caPublicKey : Bytes) : World → List Run → Prop where
  | nil (w : World) : History caPublicKey w []
  | cons {r : Run} {runs : List Run} : Ran caPublicKey r → History caPublicKey r.after runs →
      History caPublicKey r.before (r :: runs)

end SshTrust
