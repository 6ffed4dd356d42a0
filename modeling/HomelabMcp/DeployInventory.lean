import HomelabMcp.DeployRunner
import HomelabMcp.TextPairs

/-!
# The inventory of a deploy

The inventory a deploy starts from, checked again by the Python program that runs it, and how that
check compares with the one a machine has passed when it was stored.  `ssh_host` and the address of
a host are two grammars for the same text.

* `hostAddresses_agree_iff`: on a host the store has accepted, the second grammar accepts too
  exactly if the host is an address or has more in it than ASCII digits and dots; a stored user
  and port are always accepted.
* `stored_host_unreadable`: `999.1.1.1` can be stored and not be deployed to.

The characters Python takes for digits and the files of the worker are parameters; the bound on
the inventory's text, the bootstrap inventory and the reading of JSON are left out.
-/

namespace DeployInventory

open Inventory (isAsciiAlphanumeric validSshHost validateMachineFields)

/-- What `str.isdigit` says of one character. -/
structure DigitClass where
  isdigit : Char → Bool
  ascii : ∀ c : Char, c.toNat < 128 → isdigit c = c.isDigit

/-- What `pathlib` says of a path: whether it names a file, and its text. -/
structure Files where
  isFile : String → Bool
  text : String → String

/-- A check that raises `ValueError` with a message. -/
abbrev Checked := Except String

/-- The keys of the connection, each of which must be there. -/
def hostKeys : List String := ["address", "user", "port", "ssh_key", "known_hosts"]

/-- `^[A-Za-z0-9](?:[A-Za-z0-9-]{0,61}[A-Za-z0-9])?$` -/
def dnsLabel : List Char → Bool
  | [] => false
  | first :: rest =>
      isAsciiAlphanumeric first &&
        (rest.isEmpty || (rest.dropLast.length ≤ 61 &&
          rest.dropLast.all (fun c => isAsciiAlphanumeric c || c == '-') &&
          rest.getLast?.any isAsciiAlphanumeric))

/-- `^[a-z_][a-z0-9_-]{0,31}$` -/
def safeUser (user : String) : Bool :=
  match user.toList with
  | [] => false
  | first :: rest =>
      (('a' ≤ first && first ≤ 'z') || first == '_') && rest.length ≤ 31 &&
        rest.all fun c => ('a' ≤ c && c ≤ 'z') || ('0' ≤ c && c ≤ '9') || c == '_' || c == '-'

/-- `ip_address`: an address, or an IPv6 address with a scope behind a percent sign. -/
def ipAddress (value : String) : Bool :=
  match Text.splitOnce ['%'] value.toList with
  | none => (IpAddress.parse value).isSome
  | some (address, scope) =>
      match IpAddress.readIpv6 address with
      | some (_, []) => !scope.isEmpty && !scope.contains '%'
      | _ => false

/-- The error of an address. -/
def addressError : String := "host.address must be a valid bounded DNS name or IP address"

/-- `_validate_address`. -/
def validateAddress (digits : DigitClass) (value : Json.Value) : Checked String :=
  match value with
  | .string value =>
      if value.isEmpty || value.length > 253 then .error addressError
      else if ipAddress value then .ok value
      else if value.toList.contains ':' ||
          value.toList.all (fun c => digits.isdigit c || c == '.') then .error addressError
      else
        let name := if value.toList.getLast? == some '.' then value.toList.dropLast else value.toList
        if name.isEmpty || (Text.pieces (· == '.') name).any (fun label => !dnsLabel label) then
          .error addressError
        else .ok value
  | _ => .error addressError

/-- `_validate_path`. -/
def validatePath (files : Files) (value : Json.Value) (field : String) : Checked String :=
  match value with
  | .string path =>
      if path.toList.head? != some '/' || !files.isFile path then
        .error (field ++ " must name an existing absolute file")
      else .ok (files.text path)
  | _ => .error (field ++ " must be a string")

/-- A JSON number that Python reads as an integer. -/
def asInt : Json.Value → Option Int
  | .number (.posInt n) => some n.toNat
  | .number (.negInt n) => some n.toInt
  | _ => none

/-- The host data of pyinfra. -/
structure Connection where
  sshUser : String
  sshPort : Int
  sshKey : String
  sshKnownHostsFile : String
  sshStrictHostKeyChecking : String
  deriving DecidableEq

/-- The keys of an object, as a set. -/
def hasKeys (members : List (String × Json.Value)) (keys : List String) : Bool :=
  members.all (fun member => keys.contains member.1) &&
    keys.all fun key => (members.map Prod.fst).contains key

/-- `_validate_user`. -/
def validateUser (value : Json.Value) : Checked String :=
  match value with
  | .string user => if safeUser user then .ok user else .error "host.user is invalid"
  | _ => .error "host.user is invalid"

/-- `_validate_port`. -/
def validatePort (value : Json.Value) : Checked Int :=
  match asInt value with
  | some port =>
      if 1 ≤ port ∧ port ≤ 65535 then .ok port
      else .error "host.port must be an integer from 1 through 65535"
  | none => .error "host.port must be an integer from 1 through 65535"

/-- `_host`. -/
def host (digits : DigitClass) (files : Files) (value : Json.Value) :
    Checked (String × Connection) := do
  match value with
  | .object members =>
      if !hasKeys members hostKeys then
        .error "host must contain exactly ['address', 'known_hosts', 'port', 'ssh_key', 'user']"
      else
        let address ← validateAddress digits (value.field "address")
        let user ← validateUser (value.field "user")
        let port ← validatePort (value.field "port")
        let key ← validatePath files (value.field "ssh_key") "host.ssh_key"
        let knownHosts ← validatePath files (value.field "known_hosts") "host.known_hosts"
        return (address, ⟨user, port, key, knownHosts, "yes"⟩)
  | _ => .error "host must contain exactly ['address', 'known_hosts', 'port', 'ssh_key', 'user']"

/-- A value Python compares equal to 1. -/
def isOne : Json.Value → Bool
  | .number (.posInt n) => n == 1
  | .number (.float bits) => bits == 0x3FF0000000000000
  | .bool b => b
  | _ => false

/-- `system_info_inventory`. -/
def systemInfoInventory (digits : DigitClass) (files : Files) (value : Json.Value) :
    Checked (List (String × Connection)) := do
  match value with
  | .object members =>
      if !hasKeys members ["version", "host"] || !isOne (value.field "version") then
        .error "system-info inventory requires only version 1 and host"
      else
        let (address, data) ← host digits files (value.field "host")
        return [(address, data)]
  | _ => .error "inventory must be a JSON object"

/-- The digits of ASCII alone. -/
def asciiDigits : DigitClass := ⟨Char.isDigit, fun _ _ => rfl⟩

/-- An address, or a text with more in it than digits and dots. -/
def addressOrNamed (host : String) : Bool :=
  (IpAddress.parse host).isSome || host.toList.any fun c => !(c.isDigit || c == '.')

/-- A label that the server accepts is one that the helper accepts. -/
theorem dnsLabel_of_valid {label : List Char} (h : Inventory.ValidLabel label) :
    dnsLabel label = true := by
  have halnum : ∀ c ∈ label, c ≠ '-' → isAsciiAlphanumeric c = true := by
    intro c hc hne
    exact (h.chars c hc).resolve_right hne
  cases label with
  | nil => exact absurd rfl h.nonempty
  | cons first rest =>
      have hfirst : isAsciiAlphanumeric first = true := by
        apply halnum first List.mem_cons_self
        intro hhyphen
        exact h.first (by rw [hhyphen, List.head?_cons])
      cases hlast : rest.getLast? with
      | none =>
          obtain rfl : rest = [] := List.getLast?_eq_none_iff.mp hlast
          simp [dnsLabel, hfirst]
      | some last =>
          have hend : isAsciiAlphanumeric last = true := by
            apply halnum last (List.mem_cons_of_mem _ (List.mem_of_getLast? hlast))
            intro hhyphen
            apply h.last
            rw [List.getLast?_cons, hlast, hhyphen]
            rfl
          have hlength : rest.dropLast.length ≤ 61 := by
            have hall := h.length
            rw [List.length_cons] at hall
            rw [List.length_dropLast]
            omega
          have hinner : ∀ c ∈ rest.dropLast, (isAsciiAlphanumeric c || c == '-') = true := by
            intro c hc
            have hmem := List.mem_cons_of_mem first (List.mem_of_mem_dropLast hc)
            simpa using h.chars c hmem
          simp only [dnsLabel, hfirst, hlast, hlength, List.all_eq_true.mpr hinner, hend,
            Option.any_some, decide_true, Bool.and_true, Bool.or_true]

/-- Without a scope the two languages read the same addresses. -/
theorem ipAddress_eq {host : String} (h : '%' ∉ host.toList) :
    ipAddress host = (IpAddress.parse host).isSome := by
  unfold ipAddress
  rw [Text.splitOnce_eq_none h]

/-- The characters of an accepted host are ASCII, and none is a percent sign. -/
theorem char_of_valid {host : String} (h : validSshHost host = true) {c : Char}
    (hc : c ∈ host.toList) : c.toNat < 128 ∧ c ≠ '%' := by
  have hchar := Inventory.isHostChar_of_valid h c hc
  unfold Inventory.isHostChar at hchar
  simp only [Bool.or_eq_true, beq_iff_eq, Inventory.isAsciiAlphanumeric_iff] at hchar
  rcases hchar with ((halnum | rfl) | rfl) | rfl
  · refine ⟨by omega, ?_⟩
    rintro rfl
    revert halnum
    decide
  · decide
  · decide
  · decide

/-- Labels have no colon. -/
theorem not_colon_of_validLabels {cs : List Char}
    (h : ∀ label ∈ Text.pieces (· == '.') cs, Inventory.ValidLabel label) :
    cs.contains ':' = false := by
  rw [List.contains_eq_mem, decide_eq_false_iff_not]
  intro hmem
  rcases Inventory.mem_of_validLabels h ':' hmem with halnum | hhyphen | hdot
  · exact absurd halnum (by decide)
  · exact absurd hhyphen (by decide)
  · exact absurd hdot (by decide)

/-- None of the server's labels is refused. -/
theorem any_not_dnsLabel {labels : List (List Char)}
    (h : ∀ label ∈ labels, Inventory.ValidLabel label) :
    labels.any (fun label => !dnsLabel label) = false := by
  rw [List.any_eq_false]
  intro label hlabel
  rw [dnsLabel_of_valid (h label hlabel)]
  decide

/-- **What the second check makes of a host the first has passed.** -/
theorem validateAddress_of_valid (digits : DigitClass) {host : String}
    (h : validSshHost host = true) :
    validateAddress digits (.string host) =
      if addressOrNamed host then .ok host else .error addressError := by
  obtain ⟨hnonempty, hsize, hkind⟩ := Inventory.validSshHost_cases h
  have hlength : ¬ host.length > 253 := by
    have hchars := Text.length_le_utf8ByteSize host
    rw [String.length_toList] at hchars
    omega
  have haddress : ipAddress host = (IpAddress.parse host).isSome :=
    ipAddress_eq fun hmem => (char_of_valid h hmem).2 rfl
  have hdigits : host.toList.all (fun c => digits.isdigit c || c == '.') =
      host.toList.all fun c => c.isDigit || c == '.' := by
    rw [Bool.eq_iff_iff, List.all_eq_true, List.all_eq_true]
    refine forall₂_congr fun c hc => ?_
    rw [digits.ascii c (char_of_valid h hc).1]
  have hnamed : host.toList.any (fun c => !(c.isDigit || c == '.')) =
      !host.toList.all fun c => c.isDigit || c == '.' := List.not_all_eq_any_not.symm
  unfold validateAddress addressOrNamed
  dsimp only
  rw [if_neg (by simp only [hnonempty, hlength, decide_false, Bool.or_false]; decide), haddress,
    hdigits, hnamed]
  by_cases hparse : (IpAddress.parse host).isSome
  · rw [if_pos hparse, hparse, Bool.true_or, if_pos rfl]
  · have hlabels := hkind.resolve_left hparse
    rw [if_neg hparse, not_colon_of_validLabels hlabels, Bool.false_or,
      Bool.eq_false_of_not_eq_true hparse, Bool.false_or]
    by_cases hall : host.toList.all (fun c => c.isDigit || c == '.') = true
    · rw [if_pos hall, hall, Bool.not_true, if_neg Bool.false_ne_true]
    · have hlast : host.toList.getLast? ≠ some '.' :=
        Text.getLast?_ne_of_pieces (fun hnil => (hlabels [] hnil).nonempty rfl) rfl
      have hdot : ¬ (host.toList.getLast? == some '.') = true := by simpa using hlast
      have hname : ¬ host.toList.isEmpty = true := by
        rw [List.isEmpty_iff]
        exact fun hnil => absurd (String.toList_eq_nil_iff.mp hnil)
          (by simpa using hnonempty)
      rw [if_neg hall, Bool.eq_false_of_not_eq_true hall, Bool.not_false, if_pos rfl, if_neg hdot,
        any_not_dnsLabel hlabels, Bool.or_false, if_neg hname]

/-- The object of a host, as the runner writes it. -/
def hostObject (address : Json.Value) (user : String) (port : UInt16)
    (key knownHosts : Json.Value) : Json.Value :=
  .object [("address", address), ("known_hosts", knownHosts), ("port", .nat port.toNat.toUInt64),
    ("ssh_key", key), ("user", .string user)]

/-- A machine that passes has the one user and the one port. -/
theorem fields_of_valid {displayName sshHost sshUsername : String} {sshPort : UInt16}
    (h : validateMachineFields displayName sshHost sshPort sshUsername = .ok ()) :
    validSshHost sshHost = true ∧ sshPort = 22 ∧ sshUsername = "homelab" := by
  unfold validateMachineFields at h
  split_ifs at h with hname hhost hport huser
  refine ⟨by simpa using hhost, ?_, ?_⟩
  · simpa [Inventory.defaultSshPort] using hport
  · simpa [Inventory.defaultSshUsername] using huser

/-- **A stored user and port always pass**: the address and the two paths decide. -/
theorem host_of_valid (digits : DigitClass) (files : Files)
    {displayName sshHost sshUsername : String} {sshPort : UInt16}
    (h : validateMachineFields displayName sshHost sshPort sshUsername = .ok ())
    (address key knownHosts : Json.Value) :
    host digits files (hostObject address sshUsername sshPort key knownHosts) = do
      let address ← validateAddress digits address
      let key ← validatePath files key "host.ssh_key"
      let knownHosts ← validatePath files knownHosts "host.known_hosts"
      return (address, ⟨sshUsername, sshPort.toNat, key, knownHosts, "yes"⟩) := by
  obtain ⟨-, rfl, rfl⟩ := fields_of_valid h
  have hkeys : hasKeys [("address", address), ("known_hosts", knownHosts),
      ("port", .nat (22 : UInt16).toNat.toUInt64), ("ssh_key", key),
      ("user", .string "homelab")] hostKeys = true := rfl
  have huser : validateUser (.string "homelab") = .ok "homelab" := rfl
  have hport : validatePort (.nat (22 : UInt16).toNat.toUInt64) = .ok 22 := rfl
  unfold host hostObject
  dsimp only
  rw [hkeys, Bool.not_true, if_neg Bool.false_ne_true]
  change (validateAddress digits address >>= fun address =>
    validateUser (.string "homelab") >>= fun user =>
      validatePort (.nat (22 : UInt16).toNat.toUInt64) >>= fun port => _) = _
  rw [huser, hport]
  rfl

/-- **The inventory of a stored machine** is read exactly if its host is an address or has more in
it than digits and dots; the files are those the runner has written. -/
theorem systemInfoInventory_of_valid (digits : DigitClass) (files : Files)
    {machine : Inventory.Machine}
    (h : validateMachineFields machine.displayName machine.sshHost machine.sshPort
      machine.sshUsername = .ok ())
    {key knownHosts keyText knownHostsText : String}
    (hkey : validatePath files (.string key) "host.ssh_key" = .ok keyText)
    (hknownHosts : validatePath files (.string knownHosts) "host.known_hosts" =
      .ok knownHostsText) :
    systemInfoInventory digits files (Deploys.inventoryValue machine key knownHosts) =
      if addressOrNamed machine.sshHost then
        .ok [(machine.sshHost,
          ⟨machine.sshUsername, machine.sshPort.toNat, keyText, knownHostsText, "yes"⟩)]
      else .error addressError := by
  have hhost := host_of_valid digits files h (.string machine.sshHost) (.string key)
    (.string knownHosts)
  rw [validateAddress_of_valid digits (fields_of_valid h).1, hkey, hknownHosts] at hhost
  have hobject : systemInfoInventory digits files
      (Deploys.inventoryValue machine key knownHosts) = (do
        let (address, data) ← host digits files (hostObject (.string machine.sshHost)
          machine.sshUsername machine.sshPort (.string key) (.string knownHosts))
        return [(address, data)]) := rfl
  rw [hobject, hhost]
  split_ifs <;> rfl

/-- **The two checks agree on a host the store has accepted** exactly if it is an address or has
more in it than digits and dots; on an accepted user and port they always agree. -/
theorem hostAddresses_agree_iff (digits : DigitClass) (files : Files) :
    (∀ host : String, validSshHost host = true →
      (validateAddress digits (.string host) = .ok host ↔ addressOrNamed host = true)) ∧
    ∀ (displayName sshHost : String) (sshPort : UInt16) (sshUsername : String),
      validateMachineFields displayName sshHost sshPort sshUsername = .ok () →
      ∀ address key knownHosts : Json.Value,
        host digits files (hostObject address sshUsername sshPort key knownHosts) = do
          let address ← validateAddress digits address
          let key ← validatePath files key "host.ssh_key"
          let knownHosts ← validatePath files knownHosts "host.known_hosts"
          return (address, ⟨sshUsername, sshPort.toNat, key, knownHosts, "yes"⟩) := by
  constructor
  · intro host h
    rw [validateAddress_of_valid digits h]
    by_cases hnamed : addressOrNamed host = true
    · simp [hnamed]
    · simp [hnamed]
  · intro displayName sshHost sshPort sshUsername h address key knownHosts
    exact host_of_valid digits files h address key knownHosts

/-- The hypotheses of `hostAddresses_agree_iff` hold of an ordinary name and of a machine that has
it. -/
theorem hostAddresses_agree_iff_node :
    validateAddress asciiDigits (.string "node.example") = .ok "node.example" ∧
    host asciiDigits ⟨fun _ => true, id⟩
        (hostObject (.string "node.example") "homelab" 22 (.string "/k") (.string "/h")) =
      .ok ("node.example", ⟨"homelab", 22, "/k", "/h", "yes"⟩) := by
  constructor
  · exact ((hostAddresses_agree_iff asciiDigits ⟨fun _ => true, id⟩).1 "node.example"
      (by decide)).mpr (by decide)
  · rw [(hostAddresses_agree_iff asciiDigits ⟨fun _ => true, id⟩).2 "node" "node.example" 22
      "homelab" (by decide) (.string "node.example") (.string "/k") (.string "/h")]
    decide

/-- Four numbers that are no address can be stored, and the deploy refuses them. -/
theorem stored_host_unreadable :
    validateMachineFields "node" "999.1.1.1" 22 "homelab" = .ok () ∧
      validateAddress asciiDigits (.string "999.1.1.1") = .error addressError := by
  decide

end DeployInventory
