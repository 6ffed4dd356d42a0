import HomelabMcp.Interaction
import HomelabMcp.IpAddress

/-!
# The machine inventory

The repository of machines: the checks of its inputs, and its statements as programs over a
database.  `Fetched` and `Executed` say how a statement ends: with an answer, with an error of the
database (which has done nothing), or with no answer at all.

The decoder of base64 is a parameter; listing is left out.
-/

namespace Inventory

open Interaction
open Text (Bytes)

/-- The one port and the one user name. -/
def defaultSshPort : UInt16 := 22
def defaultSshUsername : String := "homelab"

/-- A UUID as its 128-bit number. -/
abbrev Uuid := BitVec 128

/-- A machine; times are in microseconds since the epoch. -/
structure Machine where
  id : Uuid
  displayName : String
  sshHost : String
  sshPort : UInt16
  sshUsername : String
  pinnedHostPublicKey : Option String
  createdAt : Int
  updatedAt : Int
  deriving DecidableEq

/-- The input of a new machine. -/
structure CreateMachine where
  displayName : String
  sshHost : String
  sshPort : UInt16
  sshUsername : String
  pinnedHostPublicKey : Option String

/-- The input of a change. -/
structure UpdateMachine where
  displayName : String
  sshHost : String
  sshPort : UInt16
  sshUsername : String

/-- The fields that a validation may refuse. -/
inductive ValidationError where
  | displayName
  | sshHost
  | sshPort
  | sshUsername
  | hostPublicKey
  deriving DecidableEq

/-- The errors of the repository. -/
inductive RepositoryError where
  | validation (e : ValidationError)
  | notFound
  | conflict
  | database
  deriving DecidableEq

/-- `u8::is_ascii_alphanumeric`. -/
def isAsciiAlphanumeric (c : Char) : Bool :=
  ('0' ≤ c && c ≤ '9') || ('a' ≤ c && c ≤ 'z') || ('A' ≤ c && c ≤ 'Z')

/-- `valid_ssh_host`. -/
def validSshHost (host : String) : Bool :=
  if host.isEmpty || host.utf8ByteSize > 253 || Text.trim host != host then false
  else if (IpAddress.parse host).isSome then true
  else (Text.split host '.').all fun label =>
    !label.isEmpty && label.utf8ByteSize ≤ 63 && !(label.toList.head? == some '-') &&
      !(label.toList.getLast? == some '-') &&
      label.toList.all fun c => isAsciiAlphanumeric c || c == '-'

/-- `validate_machine_fields`. -/
def validateMachineFields (displayName sshHost : String) (sshPort : UInt16)
    (sshUsername : String) : Except ValidationError Unit :=
  if displayName.isEmpty || displayName.utf8ByteSize > 100 || Text.trim displayName != displayName ||
      !displayName.toList.all (fun c => isAsciiAlphanumeric c || " ._-".toList.contains c) then
    .error .displayName
  else if !validSshHost sshHost then .error .sshHost
  else if sshPort != defaultSshPort then .error .sshPort
  else if sshUsername != defaultSshUsername then .error .sshUsername
  else .ok ()

/-- A string of the SSH wire format at an offset: four bytes of length, then the bytes; with the
offset behind it. -/
def sshString (bytes : Bytes) (offset : Nat) : Option (Bytes × Nat) :=
  match (bytes.drop offset).take 4 with
  | [a, b, c, d] =>
      let length := ((a.toNat * 256 + b.toNat) * 256 + c.toNat) * 256 + d.toNat
      let start := offset + 4
      if start + length ≤ bytes.length then
        some ((bytes.drop start).take length, start + length)
      else none
  | _ => none

/-- The bytes of `ssh-ed25519`. -/
def ed25519Name : Bytes := [115, 115, 104, 45, 101, 100, 50, 53, 53, 49, 57]

/-- `validate_host_public_key`. -/
def validateHostPublicKey (decode : String → Option Bytes) (key : String) :
    Except ValidationError Unit :=
  if key.utf8ByteSize > 256 || Text.trim key != key then .error .hostPublicKey
  else match Text.split key ' ' with
    | ["ssh-ed25519", encoded] =>
        if encoded.isEmpty then .error .hostPublicKey
        else match decode encoded with
          | none => .error .hostPublicKey
          | some decoded =>
              match sshString decoded 0 with
              | none => .error .hostPublicKey
              | some (algorithm, middle) =>
                  match sshString decoded middle with
                  | none => .error .hostPublicKey
                  | some (publicKey, finish) =>
                      if algorithm != ed25519Name || publicKey.length != 32 ||
                          finish != decoded.length then .error .hostPublicKey
                      else .ok ()
    | _ => .error .hostPublicKey

/-- The same by codes. -/
theorem isAsciiAlphanumeric_iff {c : Char} : isAsciiAlphanumeric c = true ↔
    (48 ≤ c.toNat ∧ c.toNat ≤ 57) ∨ (97 ≤ c.toNat ∧ c.toNat ≤ 122) ∨
      (65 ≤ c.toNat ∧ c.toNat ≤ 90) := by
  simp only [isAsciiAlphanumeric, Bool.or_eq_true, Bool.and_eq_true, decide_eq_true_eq,
    Char.le_def, UInt32.le_iff_toNat_le, or_assoc]
  rfl

/-- A label of a host name. -/
structure ValidLabel (label : List Char) : Prop where
  nonempty : label ≠ []
  length : label.length ≤ 63
  first : label.head? ≠ some '-'
  last : label.getLast? ≠ some '-'
  chars : ∀ c ∈ label, isAsciiAlphanumeric c = true ∨ c = '-'

/-- A host that passes is short and is an address or a name of valid labels. -/
theorem validSshHost_cases {host : String} (h : validSshHost host = true) :
    host.isEmpty = false ∧ host.utf8ByteSize ≤ 253 ∧
      ((IpAddress.parse host).isSome ∨
        ∀ label ∈ Text.pieces (· == '.') host.toList, ValidLabel label) := by
  unfold validSshHost at h
  split_ifs at h with hbad haddress
  · have hgood : host.isEmpty = false ∧ host.utf8ByteSize ≤ 253 := by
      simp only [Bool.or_eq_true, not_or, decide_eq_true_eq] at hbad
      exact ⟨by simpa using hbad.1.1, by omega⟩
    exact ⟨hgood.1, hgood.2, Or.inl haddress⟩
  · have hgood : host.isEmpty = false ∧ host.utf8ByteSize ≤ 253 := by
      simp only [Bool.or_eq_true, not_or, decide_eq_true_eq] at hbad
      exact ⟨by simpa using hbad.1.1, by omega⟩
    refine ⟨hgood.1, hgood.2, Or.inr ?_⟩
    intro label hlabel
    rw [List.all_eq_true] at h
    have hchecks := h (String.ofList label) (List.mem_map_of_mem hlabel)
    simp only [Bool.and_eq_true, decide_eq_true_eq, String.toList_ofList, List.all_eq_true] at hchecks
    obtain ⟨⟨⟨⟨hnonempty, hsize⟩, hfirst⟩, hlast⟩, hchars⟩ := hchecks
    have hlength := Text.length_le_utf8ByteSize (String.ofList label)
    rw [String.toList_ofList] at hlength
    refine ⟨?_, by omega, by simpa using hfirst, by simpa using hlast, ?_⟩
    · intro hnil
      simp [hnil] at hnonempty
    · intro c hc
      simpa using hchars c hc

/-- The characters a host may have. -/
def isHostChar (c : Char) : Bool :=
  isAsciiAlphanumeric c || c == '-' || c == '.' || c == ':'

/-- An address has the characters of hosts. -/
theorem isHostChar_of_address {c : Char} (h : IpAddress.isAddressChar c = true) :
    isHostChar c = true := by
  unfold IpAddress.isAddressChar at h
  simp only [Bool.or_eq_true, beq_iff_eq] at h
  rcases h with (hdigit | rfl) | rfl
  · have halnum : isAsciiAlphanumeric c = true := by
      unfold IpAddress.digit at hdigit
      unfold isAsciiAlphanumeric
      simp only [Bool.or_eq_true, Bool.and_eq_true, decide_eq_true_eq]
      split_ifs at hdigit with hdecimal hlower hupper
      · exact Or.inl (Or.inl hdecimal)
      · have hz : c ≤ 'z' := le_trans hlower.2 (by decide)
        exact Or.inl (Or.inr ⟨hlower.1, hz⟩)
      · have hz : c ≤ 'Z' := le_trans hupper.2 (by decide)
        exact Or.inr ⟨hupper.1, hz⟩
      · simp at hdigit
    unfold isHostChar
    rw [halnum]
    rfl
  · rfl
  · rfl

/-- A name of valid labels has only the characters of labels and dots. -/
theorem mem_of_validLabels {cs : List Char}
    (h : ∀ label ∈ Text.pieces (· == '.') cs, ValidLabel label) :
    ∀ c ∈ cs, isAsciiAlphanumeric c = true ∨ c = '-' ∨ c = '.' := by
  intro c hc
  rcases Text.mem_pieces (· == '.') hc with hdot | ⟨label, hlabel, hmem⟩
  · exact Or.inr (Or.inr (by simpa using hdot))
  · rcases (h label hlabel).chars c hmem with halnum | hhyphen
    · exact Or.inl halnum
    · exact Or.inr (Or.inl hhyphen)

/-- **A host that passes has letters, digits, hyphens, dots and colons only.** -/
theorem isHostChar_of_valid {host : String} (h : validSshHost host = true) :
    ∀ c ∈ host.toList, isHostChar c = true := by
  intro c hc
  obtain ⟨-, -, haddress | hlabels⟩ := validSshHost_cases h
  · exact isHostChar_of_address (IpAddress.isAddressChar_of_parse haddress c hc)
  · unfold isHostChar
    rcases mem_of_validLabels hlabels c hc with halnum | rfl | rfl
    · rw [halnum]
      rfl
    · rfl
    · rfl

/-- A value bound to a statement. -/
inductive Bind where
  | uuid (id : Uuid)
  | text (value : String)
  | int4 (value : Int)
  | nullableText (value : Option String)
  deriving DecidableEq

/-- A statement with its bound values. -/
structure Statement where
  sql : String
  binds : List Bind
  deriving DecidableEq

/-- The end of a statement that returns a row.  `lost` is every failure after the statement was sent
that is not the database's own: a broken connection, a protocol error, a row that cannot be
decoded. -/
inductive Fetched where
  | row (machine : Machine)
  | noRow
  | refused (code : Option String)
  | lost

/-- The end of a statement that returns a count. -/
inductive Executed where
  | affected (rows : Nat)
  | refused (code : Option String)
  | lost

/-- The operations of the repository. -/
inductive Op where
  | newUuid
  | connect
  | fetch (statement : Statement)
  | execute (statement : Statement)

/-- What each operation answers. -/
abbrev Ans : Op → Type
  | .newUuid => Uuid
  | .connect => Bool
  | .fetch _ => Fetched
  | .execute _ => Executed

/-- The errors of sqlx, as far as they are told apart. -/
inductive SqlxError where
  | database (code : Option String)
  | rowNotFound
  | other
  deriving DecidableEq

/-- `map_database_error`: a unique violation is a conflict. -/
def mapDatabaseError : SqlxError → RepositoryError
  | .database (some "23505") => .conflict
  | _ => .database

/-- Run a statement for at most one row, on a connection of the pool. -/
def fetchOptional (statement : Statement) : Fallible Ans SqlxError (Option Machine) := do
  if !(← ask Op.connect) then throw .other
  match ← ask (Op.fetch statement) with
  | .row machine => return some machine
  | .noRow => return none
  | .refused code => throw (.database code)
  | .lost => throw .other

/-- Run a statement for one row. -/
def fetchOne (statement : Statement) : Fallible Ans SqlxError Machine := do
  match ← fetchOptional statement with
  | some machine => return machine
  | none => throw .rowNotFound

/-- A statement that returns a count. -/
def execute (statement : Statement) : Fallible Ans SqlxError Nat := do
  if !(← ask Op.connect) then throw .other
  match ← ask (Op.execute statement) with
  | .affected rows => return rows
  | .refused code => throw (.database code)
  | .lost => throw .other

/-- A fallible program with its errors mapped. -/
def mapErr {ε ε' α : Type} (f : ε → ε') (x : Fallible Ans ε α) : Fallible Ans ε' α :=
  ExceptT.mk (x.run >>= fun r => Program.done (r.mapError f))

/-- A call of the repository. -/
abbrev Repository := Fallible Ans RepositoryError

/-- The columns of a machine. -/
def machineColumns : String :=
  "id, display_name, ssh_host, ssh_port, ssh_username, pinned_host_public_key, created_at, " ++
    "updated_at"

/-- The statement of `create`. -/
def createSql : String :=
  "INSERT INTO homelab.machines (id, display_name, ssh_host, ssh_port, ssh_username, " ++
    "pinned_host_public_key) VALUES ($1, $2, $3, $4, $5, $6) RETURNING " ++ machineColumns

/-- The statement of `get`. -/
def getSql : String := "SELECT " ++ machineColumns ++ " FROM homelab.machines WHERE id = $1"

/-- The statement of `update`. -/
def updateSql : String :=
  "UPDATE homelab.machines SET display_name = $2, ssh_host = $3, ssh_port = $4, " ++
    "ssh_username = $5, updated_at = now() WHERE id = $1 RETURNING " ++ machineColumns

/-- The statement of `set_host_key`. -/
def setHostKeySql : String :=
  "UPDATE homelab.machines SET pinned_host_public_key = $2, updated_at = now() WHERE id = $1 " ++
    "RETURNING " ++ machineColumns

/-- The statement of `delete`. -/
def deleteSql : String := "DELETE FROM homelab.machines WHERE id = $1"

/-- The row of a machine that must exist. -/
def fetchExisting (statement : Statement) : Repository Machine := do
  match ← mapErr mapDatabaseError (fetchOptional statement) with
  | some machine => return machine
  | none => throw .notFound

/-- `create`. -/
def create (decode : String → Option Bytes) (input : CreateMachine) : Repository Machine := do
  answer ((validateMachineFields input.displayName input.sshHost input.sshPort
    input.sshUsername).mapError .validation)
  if let some key := input.pinnedHostPublicKey then
    answer ((validateHostPublicKey decode key).mapError .validation)
  let id ← ask Op.newUuid
  mapErr mapDatabaseError (fetchOne ⟨createSql, [.uuid id, .text input.displayName,
    .text input.sshHost, .int4 input.sshPort.toNat, .text input.sshUsername,
    .nullableText input.pinnedHostPublicKey]⟩)

/-- `get`. -/
def get (id : Uuid) : Repository Machine := fetchExisting ⟨getSql, [.uuid id]⟩

/-- `update`. -/
def update (id : Uuid) (input : UpdateMachine) : Repository Machine := do
  answer ((validateMachineFields input.displayName input.sshHost input.sshPort
    input.sshUsername).mapError .validation)
  fetchExisting ⟨updateSql, [.uuid id, .text input.displayName, .text input.sshHost,
    .int4 input.sshPort.toNat, .text input.sshUsername]⟩

/-- `set_host_key`. -/
def setHostKey (id : Uuid) (hostPublicKey : Option String) : Repository Machine :=
  fetchExisting ⟨setHostKeySql, [.uuid id, .nullableText hostPublicKey]⟩

/-- `replace_host_key`. -/
def replaceHostKey (decode : String → Option Bytes) (id : Uuid) (hostPublicKey : String) :
    Repository Machine := do
  answer ((validateHostPublicKey decode hostPublicKey).mapError .validation)
  setHostKey id (some hostPublicKey)

/-- `clear_host_key`. -/
def clearHostKey (id : Uuid) : Repository Machine := setHostKey id none

/-- `delete`: no row is not found. -/
def delete (id : Uuid) : Repository Unit := do
  let rows ← mapErr mapDatabaseError (execute ⟨deleteSql, [.uuid id]⟩)
  if rows = 0 then throw .notFound
  return ()

end Inventory
