import HomelabMcp.ClusterConfig
import HomelabMcp.TextDecimals

/-!
# The clusters of a deployment

The deployment program checks the clusters of its configuration and writes them into the environment
of the server, which reads and checks them again.

* `cephClusters_accepted`, `kubernetesClusters_accepted`: what holds of the clusters that the
  program accepts.
* `server_reads_policy`: the server reads the Kubernetes clusters that were accepted.  It reads the
  Ceph clusters exactly if no name ends with a hyphen and no origin has an empty query or fragment.
* `hyphen_refused`: a cluster that the program accepts and the server does not.
-/

namespace Policy

open Config (IsOrigin isAsciiLowercase)
open Interaction (bind_eq_ok demand demand_eq_ok)
open Json (Value)
open Whatwg (UrlRecord)

/-- A character of the first kind, and at most so many of the second. -/
def startsAndContinues (first rest : Char → Bool) (limit : Nat) (value : String) : Bool :=
  match value.toList with
  | [] => false
  | c :: cs => first c && cs.length ≤ limit && cs.all rest

/-- What a label may begin with. -/
def isLabelStart (c : Char) : Bool := isAsciiLowercase c || c.isDigit

/-- `^[a-z0-9][a-z0-9-]{0,62}$`. -/
def isDnsLabel (value : String) : Bool :=
  startsAndContinues isLabelStart (fun c => isLabelStart c || c == '-') 62 value

/-- `^[A-Za-z0-9][A-Za-z0-9_.-]{0,127}$`. -/
def isSafeContext (value : String) : Bool :=
  startsAndContinues Char.isAlphanum
    (fun c => c.isAlphanum || c == '_' || c == '.' || c == '-') 127 value

/-- `value.replace(/\/$/, "")`. -/
def withoutSlash (value : String) : String :=
  if value.toList.getLast? = some '/' then String.ofList value.toList.dropLast else value

section Checks

variable (parseUrl : String → Option UrlRecord)

/-- `validateHttpsOrigin`. -/
def validateHttpsOrigin (value name : String) : Except String String :=
  let normalized := withoutSlash value
  match parseUrl normalized with
  | none => .error "Invalid URL"
  | some url =>
      if url.protocol ≠ "https:" ∨ url.username ≠ "" ∨ url.password ≠ "" ∨ url.path ≠ "/" ∨
          url.search ≠ "" ∨ url.hash ≠ "" then
        .error (name ++
          " must be an HTTPS origin without credentials, path, query, or fragment")
      else .ok normalized

/-- The members of an object with the expected keys and no others. -/
def exactFields (place : String) (expectedKeys : List String) (value : Value) :
    Except String Unit :=
  match value with
  | .object members =>
      demand (members.length == expectedKeys.length &&
        (members.map Prod.fst).all expectedKeys.contains) (place ++ " contains unknown fields")
  | _ => .error (place ++ " must be an object")

/-- Check the values one after another, each with what the ones before it gave. -/
def validateEach {α : Type} (validate : List α → Nat → Value → Except String α) (seen : List α) :
    List Value → Except String (List α)
  | [] => .ok []
  | value :: values => do
      let cluster ← validate seen seen.length value
      let clusters ← validateEach validate (cluster :: seen) values
      return cluster :: clusters

/-- A Ceph cluster of the stack. -/
structure CephClusterConfig where
  name : String
  origin : String
  expectedMajorRelease : Nat

/-- `value === 19`. -/
def isNineteen : Value → Bool
  | .number (.posInt n) => n == 19
  | .number (.float bits) => bits == 0x4033000000000000
  | _ => false

/-- The checks of one Ceph cluster, those before it given. -/
def validateCephCluster (seen : List CephClusterConfig) (index : Nat) (value : Value) :
    Except String CephClusterConfig := do
  let place := "cephClusters." ++ toString index
  exactFields place ["expectedMajorRelease", "name", "origin"] value
  match value.get "name", value.get "origin", value.get "expectedMajorRelease" with
  | some (.string name), some (.string origin), some release =>
      demand (isNineteen release) (place ++ " has invalid field values")
      demand (isDnsLabel name) "cephClusters names must be safe DNS labels"
      demand (!(seen.map CephClusterConfig.name).contains name)
        "cephClusters names must be unique"
      let origin ← validateHttpsOrigin parseUrl origin ("cephClusters." ++ name ++ ".origin")
      return ⟨name, origin, 19⟩
  | _, _, _ => throw (place ++ " has invalid field values")

/-- `validateCephClusters`. -/
def validateCephClusters (clusters : Value) : Except String (List CephClusterConfig) :=
  match clusters with
  | .array values =>
      if values.length > 32 then .error "cephClusters must contain at most 32 entries"
      else validateEach (validateCephCluster parseUrl) [] values
  | _ => .error "cephClusters must be an array"

/-- A Kubernetes cluster of the stack. -/
structure KubernetesClusterConfig where
  name : String
  context : String
  server : String
  apiServerEndpointCidrs : List String
  apiServerPort : Nat

/-- A number in decimal digits without leading zeros. -/
def prefixNumber (text : String) : Option Nat :=
  let digits := text.toList
  if digits = [] ∨ !digits.all Char.isDigit ∨ (digits.head? = some '0' ∧ digits ≠ ['0']) then none
  else some (Nat.ofDigitChars 10 digits 0)

/-- `isIP` is 4 or 6 for an address of that family, and else 0. -/
def isCidr (isIP : String → Nat) (cidr : String) : Bool :=
  match Text.split cidr '/' with
  | [address, bits] =>
      isIP address != 0 &&
        (prefixNumber bits).any fun n => n ≤ if isIP address = 4 then 32 else 128
  | _ => false

/-- The checks of one Kubernetes cluster, those before it given. -/
def validateKubernetesCluster (isIP : String → Nat) (seen : List KubernetesClusterConfig)
    (index : Nat) (value : Value) : Except String KubernetesClusterConfig := do
  let place := "kubernetesClusters." ++ toString index
  exactFields place ["apiServerEndpointCidrs", "context", "name", "server"] value
  match value.get "name", value.get "context", value.get "server",
      ((value.get "apiServerEndpointCidrs").bind Value.asArray).bind (·.mapM Value.asStr) with
  | some (.string name), some (.string context), some (.string server), some cidrs =>
      demand (isDnsLabel name) "kubernetesClusters names must be safe DNS labels"
      demand (!(seen.map KubernetesClusterConfig.name).contains name)
        "kubernetesClusters names must be unique"
      demand (isSafeContext context) "kubernetesClusters contexts must be nonempty safe names"
      demand (!(seen.map KubernetesClusterConfig.context).contains context)
        "kubernetesClusters contexts must be unique"
      let server ← validateHttpsOrigin parseUrl server ("kubernetesClusters." ++ name ++ ".server")
      let apiServerPort := ((parseUrl server).bind UrlRecord.port).elim 443 UInt16.toNat
      demand (1 ≤ apiServerPort && apiServerPort ≤ 65535)
        "kubernetesClusters server ports must be between 1 and 65535"
      demand (!cidrs.isEmpty && cidrs.all (isCidr isIP))
        "kubernetesClusters apiServerEndpointCidrs must contain valid CIDRs"
      return ⟨name, context, server, cidrs, apiServerPort⟩
  | _, _, _, _ => throw (place ++ " has invalid field types")

/-- `validateKubernetesClusters`. -/
def validateKubernetesClusters (isIP : String → Nat) (clusters : Value) :
    Except String (List KubernetesClusterConfig) :=
  match clusters with
  | .array values =>
      if values.length < 1 ∨ values.length > 32 then
        .error "kubernetesClusters must contain between 1 and 32 entries"
      else validateEach (validateKubernetesCluster parseUrl isIP) [] values
  | _ => .error "kubernetesClusters must be an array"

end Checks

/-- What a field of a record is: the records that are serialized have texts and natural numbers
only. -/
inductive Field where
  | text (s : String)
  | number (n : Nat)

/-- The field as a value. -/
def Field.value : Field → Value
  | .text s => .string s
  | .number n => .nat n.toUInt64

/-- Records, each with its fields in order. -/
abbrev Records : Type := List (List (String × Field))

/-- The value that a reader of JSON has for records. -/
def Records.value (records : Records) : Value :=
  .array (records.map fun fields => .object (fields.map fun (key, field) => (key, field.value)))

/-- A character within quotes. -/
def escapeChar (c : Char) : List Char :=
  if c = '\x22' ∨ c = '\x5c' then ['\x5c', c]
  else if c.toNat = 8 then ['\x5c', 'b']
  else if c = '\t' then ['\x5c', 't']
  else if c = '\n' then ['\x5c', 'n']
  else if c.toNat = 12 then ['\x5c', 'f']
  else if c = '\r' then ['\x5c', 'r']
  else if c.toNat < 0x20 then
    ['\x5c', 'u', '0', '0', (c.toNat / 16).digitChar, (c.toNat % 16).digitChar]
  else [c]

/-- A text within quotes. -/
def quote (s : String) : List Char := '\x22' :: s.toList.flatMap escapeChar ++ ['\x22']

/-- A field as it is written. -/
def Field.stringify : Field → List Char
  | .text s => quote s
  | .number n => Text.decimal n

/-- A record as it is written. -/
def stringifyFields (fields : List (String × Field)) : List Char :=
  let members := fields.map fun (key, field) => quote key ++ ':' :: field.stringify
  '\x7b' :: [','].intercalate members ++ ['\x7d']

/-- `JSON.stringify`. -/
def stringify (records : Records) : String :=
  String.ofList ('[' :: [','].intercalate (records.map stringifyFields) ++ [']'])

/-- Where the one kubeconfig is mounted. -/
def kubernetesKubeconfigPath : String := "/var/run/secrets/homelab-mcp/kubernetes/kubeconfig"

/-- What the server is handed of the Kubernetes clusters. -/
def kubernetesRecords (clusters : List KubernetesClusterConfig) : Records :=
  clusters.map fun cluster => [
    ("name", .text cluster.name),
    ("kubeconfig", .text kubernetesKubeconfigPath),
    ("context", .text cluster.context),
    ("cache_dir", .text ("/tmp/kubectl/" ++ cluster.name))]

/-- An accepted name is ASCII. -/
def environmentPrefix (name : String) : String :=
  String.ofList ((name.toList.map Char.toUpper).map fun c => if c = '-' then '_' else c)

/-- The variable of a user name. -/
def usernameKey (cluster : CephClusterConfig) : String :=
  "HOMELAB_MCP_CEPH_" ++ environmentPrefix cluster.name ++ "_USERNAME"

/-- The variable of a password. -/
def passwordKey (cluster : CephClusterConfig) : String :=
  "HOMELAB_MCP_CEPH_" ++ environmentPrefix cluster.name ++ "_PASSWORD"

/-- What it is handed of the Ceph clusters. -/
def cephRecords (clusters : List CephClusterConfig) : Records :=
  clusters.map fun cluster => [
    ("name", .text cluster.name),
    ("origin", .text cluster.origin),
    ("expected_major_release", .number cluster.expectedMajorRelease),
    ("username_env", .text (usernameKey cluster)),
    ("password_env", .text (passwordKey cluster))]

/-- The two kinds of names of the server, for a text of the first pattern. -/
theorem startsAndContinues_iff {first rest : Char → Bool} {limit : Nat} {value : String} :
    startsAndContinues first rest limit value = true ↔
      ∃ c cs, value.toList = c :: cs ∧ first c = true ∧ cs.length ≤ limit ∧
        ∀ d ∈ cs, rest d = true := by
  unfold startsAndContinues
  cases value.toList with
  | nil => simp
  | cons c cs => simp [and_assoc]

/-- A label begins with a letter or a digit. -/
theorem isLabelStart_alphanum {c : Char} (h : isLabelStart c = true) : c.isAlphanum = true := by
  rw [isLabelStart, isAsciiLowercase, Bool.or_eq_true] at h
  rw [Char.isAlphanum, Char.isAlpha, Char.isLower, Bool.or_eq_true, Bool.or_eq_true]
  rcases h with h | h
  · exact .inl (.inr h)
  · exact .inr h

/-- A wider pattern takes what a narrower one took. -/
theorem startsAndContinues_mono {first rest first' rest' : Char → Bool} {limit limit' : Nat}
    {value : String} (h : startsAndContinues first rest limit value = true)
    (hfirst : ∀ c, first c = true → first' c = true) (hrest : ∀ c, rest c = true → rest' c = true)
    (hlimit : limit ≤ limit') : startsAndContinues first' rest' limit' value = true := by
  obtain ⟨c, cs, hvalue, hc, hlength, hcs⟩ := startsAndContinues_iff.mp h
  exact startsAndContinues_iff.mpr
    ⟨c, cs, hvalue, hfirst c hc, hlength.trans hlimit, fun d hd => hrest d (hcs d hd)⟩

/-- The characters of names and contexts. -/
def isNameChar (c : Char) : Bool := c.isAlphanum || c == '_' || c == '.' || c == '-'

/-- The characters of names lie in this range, the slash apart. -/
theorem isNameChar_range {c : Char} (h : isNameChar c = true) :
    45 ≤ c.toNat ∧ c.toNat ≤ 122 ∧ c ≠ '/' := by
  simp only [isNameChar, Char.isAlphanum, Char.isAlpha, Char.isUpper, Char.isLower, Char.isDigit,
    Bool.or_eq_true, Bool.and_eq_true, decide_eq_true_eq, beq_iff_eq] at h
  have hslash : c = '/' → c.toNat = 47 := fun heq => heq ▸ rfl
  rcases h with ((((⟨hlow, hhigh⟩ | ⟨hlow, hhigh⟩) | ⟨hlow, hhigh⟩) | rfl) | rfl) | rfl
  · have hlow : 65 ≤ c.toNat := hlow
    have hhigh : c.toNat ≤ 90 := hhigh
    exact ⟨by omega, by omega, fun heq => by have := hslash heq; omega⟩
  · have hlow : 97 ≤ c.toNat := hlow
    have hhigh : c.toNat ≤ 122 := hhigh
    exact ⟨by omega, by omega, fun heq => by have := hslash heq; omega⟩
  · have hlow : 48 ≤ c.toNat := hlow
    have hhigh : c.toNat ≤ 57 := hhigh
    exact ⟨by omega, by omega, fun heq => by have := hslash heq; omega⟩
  all_goals decide

/-- They are visible, and of one byte. -/
theorem isNameChar_visible {c : Char} (h : isNameChar c = true) :
    Text.isControl c = false ∧ Text.isWhitespace c = false ∧ c.utf8Size = 1 := by
  obtain ⟨hlow, hhigh, -⟩ := isNameChar_range h
  refine ⟨?_, ?_, ?_⟩
  · simp only [Text.isControl, Bool.or_eq_false_iff, Bool.and_eq_false_iff, decide_eq_false_iff_not]
    omega
  · simp only [Text.isWhitespace, List.contains_cons, List.contains_nil, Bool.or_eq_false_iff,
      Bool.and_eq_false_iff, decide_eq_false_iff_not, beq_eq_false_iff_ne, and_true]
    omega
  · exact Char.utf8Size_eq_one_iff.mpr (UInt32.le_iff_toNat_le.mpr (by
      have htop : c.val.toNat = c.toNat := rfl
      have hlimit : (127 : UInt32).toNat = 127 := rfl
      omega))

/-- A context has no others. -/
theorem context_chars {value : String} (h : isSafeContext value = true) :
    ∀ c ∈ value.toList, isNameChar c = true := by
  obtain ⟨c, cs, hvalue, hc, -, hcs⟩ := startsAndContinues_iff.mp h
  intro d hd
  rw [hvalue, List.mem_cons] at hd
  rcases hd with rfl | hd
  · rw [isNameChar, hc, Bool.true_or, Bool.true_or, Bool.true_or]
  · exact hcs d hd

/-- A context is not longer than 128 bytes. -/
theorem size_of_context {value : String} (h : isSafeContext value = true) :
    value.utf8ByteSize ≤ 128 := by
  obtain ⟨c, cs, hvalue, -, hlength, -⟩ := startsAndContinues_iff.mp h
  have hsize := Text.utf8ByteSize_of_ascii fun d hd =>
    (isNameChar_visible (context_chars h d hd)).2.2
  rw [String.ofList_toList, hvalue, List.length_cons] at hsize
  omega

/-- The server accepts every context that the program accepts. -/
theorem validKubernetesIdentifier_of_context {value : String} (h : isSafeContext value = true)
    (context : Bool) : Config.validKubernetesIdentifier value context = true := by
  have hchars := context_chars h
  have hsize := size_of_context h
  obtain ⟨c, cs, hvalue, hc, -, -⟩ := startsAndContinues_iff.mp h
  have hne : value.isEmpty = false := by
    rw [Bool.eq_false_iff]
    intro hempty
    rw [String.isEmpty_iff.mp hempty] at hvalue
    cases hvalue
  have hhyphen : (c == '-') = false := by
    rw [beq_eq_false_iff_ne]
    rintro rfl
    exact absurd hc (by decide)
  have hstart : (value.toList.head? == some '-') = false := by
    rw [hvalue, List.head?_cons]
    exact hhyphen
  have hvisible : value.toList.any (fun c => Text.isControl c || Text.isWhitespace c) = false := by
    rw [List.any_eq_false]
    intro d hd
    obtain ⟨hcontrol, hwhitespace, -⟩ := isNameChar_visible (hchars d hd)
    rw [hcontrol, hwhitespace]
    decide
  have hall : value.toList.all (fun c => c.isAlphanum || c == '-' || c == '.' || c == '_' ||
      context && (c == ':' || c == '/')) = true := by
    rw [List.all_eq_true]
    intro d hd
    have hname := hchars d hd
    simp only [isNameChar, Bool.or_eq_true] at hname ⊢
    tauto
  have hlimit : decide (value.utf8ByteSize ≤ 253) = true := decide_eq_true (by omega)
  rw [Config.validKubernetesIdentifier, hne, hlimit, hstart, hvisible, hall]
  rfl

/-- A label is a context. -/
theorem context_of_label {value : String} (h : isDnsLabel value = true) :
    isSafeContext value = true := by
  refine startsAndContinues_mono h (fun _ => isLabelStart_alphanum) ?_ (by decide)
  intro c hc
  rcases (Bool.or_eq_true _ _).mp hc with hlabel | hhyphen
  · rw [isLabelStart_alphanum hlabel, Bool.true_or, Bool.true_or, Bool.true_or]
  · rw [hhyphen, Bool.or_true]

/-- Of the labels that the program accepts the server refuses those that end with a hyphen. -/
theorem validCephClusterName_of_label {value : String} (h : isDnsLabel value = true) :
    Config.validCephClusterName value = true ↔ value.toList.getLast? ≠ some '-' := by
  have hcontext := context_of_label h
  obtain ⟨c, cs, hvalue, hc, hlength, hcs⟩ := startsAndContinues_iff.mp h
  have hsize : value.utf8ByteSize = cs.length + 1 := by
    rw [← List.length_cons, ← hvalue, ← Text.utf8ByteSize_of_ascii fun d hd =>
      (isNameChar_visible (context_chars hcontext d hd)).2.2, String.ofList_toList]
  have hne : value.isEmpty = false := by
    rw [Bool.eq_false_iff]
    intro hempty
    rw [String.isEmpty_iff.mp hempty] at hvalue
    cases hvalue
  have hall : value.toList.all (fun c => isAsciiLowercase c || c.isDigit || c == '-') = true := by
    rw [hvalue, List.all_cons, Bool.and_eq_true, List.all_eq_true]
    refine ⟨?_, hcs⟩
    rw [show (isAsciiLowercase c || c.isDigit) = true from hc, Bool.true_or]
  have hhead : value.toList.head?.any Char.isAlphanum = true := by
    rw [hvalue]
    exact isLabelStart_alphanum hc
  have hlimit : decide (value.utf8ByteSize ≤ 63) = true := decide_eq_true (by omega)
  have hlast : value.toList.getLast?.any Char.isAlphanum = true ↔
      value.toList.getLast? ≠ some '-' := by
    obtain ⟨last, hlast⟩ := Option.isSome_iff_exists.mp (by
      rw [List.getLast?_isSome, hvalue]
      exact List.cons_ne_nil c cs : value.toList.getLast?.isSome = true)
    have hchar := List.all_eq_true.mp hall last (List.mem_of_getLast? hlast)
    rw [hlast, Option.any_some, ne_eq, Option.some.injEq]
    constructor
    · rintro halnum rfl
      exact absurd halnum (by decide)
    · intro hhyphen
      simp only [Bool.or_eq_true, beq_iff_eq, hhyphen, or_false] at hchar
      exact isLabelStart_alphanum ((Bool.or_eq_true _ _).mpr hchar)
  rw [Config.validCephClusterName, hne, hlimit, hall, hhead, ← hlast]
  rfl

/-- The cache directory of a label is one that the server accepts. -/
theorem safeAbsolutePath_cacheDir {name : String} (h : isDnsLabel name = true) :
    Config.safeAbsolutePath ("/tmp/kubectl/" ++ name) = true := by
  have hcontext := context_of_label h
  have hchars := context_chars hcontext
  have hsize := size_of_context hcontext
  have htext : ("/tmp/kubectl/" ++ name).toList = "/tmp/kubectl".toList ++ '/' :: name.toList := by
    rw [String.toList_append, String.toList_ofList, String.toList_ofList]
    rfl
  have hlast : Text.pieces (· == '/') name.toList = [name.toList] :=
    Text.pieces_single fun c hc => beq_false_of_ne (isNameChar_range (hchars c hc)).2.2
  have hpieces : Text.pieces (· == '/') ("/tmp/kubectl/" ++ name).toList =
      [[], ['t', 'm', 'p'], ['k', 'u', 'b', 'e', 'c', 't', 'l'], name.toList] := by
    rw [htext]
    apply (Text.pieces_append (by rfl) _ _).trans
    rw [hlast]
    rfl
  have hparent : (Text.pieces (· == '/') ("/tmp/kubectl/" ++ name).toList).contains ['.', '.'] =
      false := by
    obtain ⟨c, cs, hvalue, hc, -, -⟩ := startsAndContinues_iff.mp hcontext
    have hname : (['.', '.'] == name.toList) = false := by
      rw [hvalue, beq_eq_false_iff_ne]
      intro heq
      obtain ⟨rfl, -⟩ := List.cons.inj heq
      exact absurd hc (by decide)
    rw [hpieces, List.contains_cons, List.contains_cons, List.contains_cons, List.contains_cons,
      hname]
    rfl
  have hcontrol : Text.noControl ("/tmp/kubectl/" ++ name) = true := by
    have hname : name.toList.any Text.isControl = false := by
      rw [List.any_eq_false]
      intro c hc
      rw [(isNameChar_visible (hchars c hc)).1]
      exact Bool.false_ne_true
    rw [Text.noControl, String.toList_append, List.any_append, hname]
    rfl
  have hlimit : decide (("/tmp/kubectl/" ++ name).utf8ByteSize ≤ 4096) = true := by
    rw [decide_eq_true_eq, String.utf8ByteSize_append]
    have hstart : "/tmp/kubectl/".utf8ByteSize = 13 := rfl
    omega
  have hne : ("/tmp/kubectl/" ++ name).isEmpty = false := by
    rw [Bool.eq_false_iff]
    intro hempty
    rw [String.isEmpty_iff.mp hempty] at htext
    cases htext
  have hhead : (("/tmp/kubectl/" ++ name).toList.head? == some '/') = true := by
    rw [htext]
    rfl
  rw [Config.safeAbsolutePath, hne, hlimit, hcontrol, hhead, hparent]
  rfl

/-- So is the path of the kubeconfig. -/
theorem safeAbsolutePath_kubeconfig :
    Config.safeAbsolutePath kubernetesKubeconfigPath = true := by
  decide +kernel

/-- A URL that is an origin for the program: a query and a fragment may be there and empty. -/
structure IsPlainOrigin (url : UrlRecord) : Prop where
  scheme : url.scheme = "https"
  username : url.username = ""
  password : url.password = ""
  path : url.path = "/"
  query : url.query = none ∨ url.query = some ""
  fragment : url.fragment = none ∨ url.fragment = some ""

/-- The protocol is written with its colon. -/
theorem protocol_eq_https {url : UrlRecord} : url.protocol = "https:" ↔ url.scheme = "https" := by
  constructor
  · intro h
    have htext : url.scheme.toList ++ [':'] = "https".toList ++ [':'] := by
      have hlist := congrArg String.toList h
      rwa [UrlRecord.protocol, String.toList_append] at hlist
    exact String.toList_injective (List.append_cancel_right htext)
  · intro h
    rw [UrlRecord.protocol, h]
    rfl

section Accepted

variable {parseUrl : String → Option UrlRecord}

/-- An accepted origin is a plain one, without the slash at its end. -/
theorem validateHttpsOrigin_eq_ok {value name origin : String} :
    validateHttpsOrigin parseUrl value name = .ok origin ↔
      origin = withoutSlash value ∧ ∃ url, parseUrl origin = some url ∧ IsPlainOrigin url := by
  simp only [validateHttpsOrigin]
  cases hparse : parseUrl (withoutSlash value) with
  | none =>
      refine ⟨nofun, ?_⟩
      rintro ⟨rfl, url, hurl, -⟩
      rw [hparse] at hurl
      cases hurl
  | some url =>
      have hplain : IsPlainOrigin url ↔ ¬ (url.protocol ≠ "https:" ∨ url.username ≠ "" ∨
          url.password ≠ "" ∨ url.path ≠ "/" ∨ url.search ≠ "" ∨ url.hash ≠ "") := by
        have hquery : UrlRecord.marked "?" url.query = "" ↔ _ :=
          UrlRecord.marked_eq_empty (by decide)
        have hfragment : UrlRecord.marked "#" url.fragment = "" ↔ _ :=
          UrlRecord.marked_eq_empty (by decide)
        rw [← UrlRecord.search] at hquery
        rw [← UrlRecord.hash] at hfragment
        push Not
        rw [protocol_eq_https, hquery, hfragment]
        constructor
        · exact fun h => ⟨h.scheme, h.username, h.password, h.path, h.query, h.fragment⟩
        · rintro ⟨hscheme, husername, hpassword, hpath, hquery, hfragment⟩
          exact ⟨hscheme, husername, hpassword, hpath, hquery, hfragment⟩
      by_cases hbad : url.protocol ≠ "https:" ∨ url.username ≠ "" ∨ url.password ≠ "" ∨
          url.path ≠ "/" ∨ url.search ≠ "" ∨ url.hash ≠ ""
      · simp only [if_pos hbad, reduceCtorEq, false_iff]
        rintro ⟨rfl, found, hfound, horigin⟩
        rw [hparse] at hfound
        obtain rfl := Option.some.inj hfound
        exact hplain.mp horigin hbad
      · simp only [if_neg hbad, Except.ok.injEq]
        constructor
        · rintro rfl
          exact ⟨rfl, url, hparse, hplain.mpr hbad⟩
        · rintro ⟨rfl, -⟩
          rfl

/-- What the checks of each value give, together. -/
theorem validateEach_eq_ok {α κ : Type} {validate : List α → Nat → Value → Except String α}
    {Accepts : Value → α → Prop} {key : α → κ}
    {seen clusters : List α} {values : List Value}
    (h : validateEach validate seen values = .ok clusters)
    (hstep : ∀ seen index value cluster, validate seen index value = .ok cluster →
      Accepts value cluster ∧ key cluster ∉ seen.map key) :
    List.Forall₂ Accepts values clusters ∧ (∀ cluster ∈ clusters, key cluster ∉ seen.map key) ∧
      (clusters.map key).Nodup := by
  induction values generalizing seen clusters with
  | nil =>
      obtain rfl := Except.ok.inj h
      exact ⟨.nil, List.forall_mem_nil _, List.nodup_nil⟩
  | cons value values ih =>
      obtain ⟨cluster, hcluster, h⟩ := bind_eq_ok.mp h
      obtain ⟨rest, hrest, h⟩ := bind_eq_ok.mp h
      obtain rfl := Except.ok.inj h
      obtain ⟨haccepts, hnew⟩ := hstep _ _ _ _ hcluster
      obtain ⟨hall, hdistinct, hnodup⟩ := ih hrest
      refine ⟨.cons haccepts hall, ?_, ?_⟩
      · rw [List.forall_mem_cons]
        refine ⟨hnew, fun other hother hmem => ?_⟩
        exact hdistinct other hother (List.mem_cons_of_mem _ hmem)
      · rw [List.map_cons, List.nodup_cons]
        refine ⟨?_, hnodup⟩
        intro hmem
        obtain ⟨other, hother, hkey⟩ := List.mem_map.mp hmem
        apply hdistinct other hother
        rw [hkey]
        exact List.mem_cons_self

/-- What the stack accepts of a Ceph cluster. -/
structure AcceptsCeph (parseUrl : String → Option UrlRecord) (value : Value)
    (cluster : CephClusterConfig) : Prop where
  name : value.get "name" = some (.string cluster.name)
  label : isDnsLabel cluster.name = true
  origin : ∃ origin, value.get "origin" = some (.string origin) ∧
    cluster.origin = withoutSlash origin
  url : ∃ url, parseUrl cluster.origin = some url ∧ IsPlainOrigin url
  release : cluster.expectedMajorRelease = 19

/-- A cluster that passes is one of these, and its name is new. -/
theorem validateCephCluster_eq_ok {seen : List CephClusterConfig} {index : Nat} {value : Value}
    {cluster : CephClusterConfig}
    (h : validateCephCluster parseUrl seen index value = .ok cluster) :
    AcceptsCeph parseUrl value cluster ∧ cluster.name ∉ seen.map CephClusterConfig.name := by
  obtain ⟨-, -, h⟩ := bind_eq_ok.mp h
  split at h
  · next name origin release hname horigin hrelease =>
      obtain ⟨-, -, h⟩ := bind_eq_ok.mp h
      obtain ⟨_, hlabel, h⟩ := bind_eq_ok.mp h
      obtain ⟨_, hnew, h⟩ := bind_eq_ok.mp h
      obtain ⟨normalized, hnormalized, h⟩ := bind_eq_ok.mp h
      obtain rfl := Except.ok.inj h
      obtain ⟨hslash, hurl⟩ := validateHttpsOrigin_eq_ok.mp hnormalized
      have hlabel := demand_eq_ok.mp hlabel
      have hnew := demand_eq_ok.mp hnew
      rw [Bool.not_eq_true', ← Bool.not_eq_true, List.contains_iff_mem] at hnew
      exact ⟨⟨hname, hlabel, ⟨origin, horigin, hslash⟩, hurl, rfl⟩, hnew⟩
  · cases h

/-- What it accepts of a Kubernetes cluster. -/
structure AcceptsKubernetes (value : Value) (cluster : KubernetesClusterConfig) : Prop where
  name : value.get "name" = some (.string cluster.name)
  label : isDnsLabel cluster.name = true
  context : value.get "context" = some (.string cluster.context)
  safe : isSafeContext cluster.context = true

/-- The same of a Kubernetes cluster. -/
theorem validateKubernetesCluster_eq_ok {isIP : String → Nat}
    {seen : List KubernetesClusterConfig} {index : Nat} {value : Value}
    {cluster : KubernetesClusterConfig}
    (h : validateKubernetesCluster parseUrl isIP seen index value = .ok cluster) :
    AcceptsKubernetes value cluster ∧ cluster.name ∉ seen.map KubernetesClusterConfig.name := by
  obtain ⟨-, -, h⟩ := bind_eq_ok.mp h
  split at h
  · next name context server cidrs hname hcontext _ _ =>
      obtain ⟨_, hlabel, h⟩ := bind_eq_ok.mp h
      obtain ⟨_, hnew, h⟩ := bind_eq_ok.mp h
      obtain ⟨_, hsafe, h⟩ := bind_eq_ok.mp h
      obtain ⟨-, -, h⟩ := bind_eq_ok.mp h
      obtain ⟨normalized, -, h⟩ := bind_eq_ok.mp h
      obtain ⟨-, -, h⟩ := bind_eq_ok.mp h
      obtain ⟨-, -, h⟩ := bind_eq_ok.mp h
      obtain rfl := Except.ok.inj h
      have hnew := demand_eq_ok.mp hnew
      rw [Bool.not_eq_true', ← Bool.not_eq_true, List.contains_iff_mem] at hnew
      exact ⟨⟨hname, demand_eq_ok.mp hlabel, hcontext, demand_eq_ok.mp hsafe⟩, hnew⟩
  · cases h

/-- **Ceph clusters that the program accepts.** -/
theorem cephClusters_accepted {values : List Value} {clusters : List CephClusterConfig}
    (h : validateCephClusters parseUrl (.array values) = .ok clusters) :
    clusters.length ≤ 32 ∧ List.Forall₂ (AcceptsCeph parseUrl) values clusters ∧
      (clusters.map CephClusterConfig.name).Nodup := by
  simp only [validateCephClusters] at h
  by_cases hcount : values.length > 32
  · simp only [if_pos hcount, reduceCtorEq] at h
  · simp only [if_neg hcount] at h
    obtain ⟨hall, -, hnodup⟩ := validateEach_eq_ok h fun _ _ _ _ => validateCephCluster_eq_ok
    have hlength := hall.length_eq
    exact ⟨by omega, hall, hnodup⟩

/-- **Kubernetes clusters that the program accepts.** -/
theorem kubernetesClusters_accepted {isIP : String → Nat} {values : List Value}
    {clusters : List KubernetesClusterConfig}
    (h : validateKubernetesClusters parseUrl isIP (.array values) = .ok clusters) :
    clusters ≠ [] ∧ clusters.length ≤ 32 ∧ List.Forall₂ AcceptsKubernetes values clusters ∧
      (clusters.map KubernetesClusterConfig.name).Nodup := by
  simp only [validateKubernetesClusters] at h
  by_cases hcount : values.length < 1 ∨ values.length > 32
  · simp only [if_pos hcount, reduceCtorEq] at h
  · simp only [if_neg hcount] at h
    obtain ⟨hall, -, hnodup⟩ := validateEach_eq_ok h fun _ _ _ _ => validateKubernetesCluster_eq_ok
    have hlength := hall.length_eq
    have hne : clusters ≠ [] := by
      rintro rfl
      rw [List.length_nil] at hlength
      omega
    exact ⟨hne, by omega, hall, hnodup⟩

end Accepted

/-- Reading what was written of each gives what was to be read of each. -/
theorem mapM_map_eq_some {α β γ : Type} {f : α → β} {g : β → Option γ} {k : α → γ} {l : List α}
    (h : ∀ a ∈ l, g (f a) = some (k a)) : (l.map f).mapM g = some (l.map k) := by
  induction l with
  | nil => rfl
  | cons a l ih =>
      obtain ⟨ha, hl⟩ := List.forall_mem_cons.mp h
      rw [List.map_cons, List.mapM_cons, ha, ih hl]
      rfl

/-- The cluster of the server for one of the program. -/
def kubernetesConfig (cluster : KubernetesClusterConfig) : Config.KubernetesClusterConfig :=
  ⟨cluster.name, kubernetesKubeconfigPath, cluster.context, "/tmp/kubectl/" ++ cluster.name⟩

/-- The server reads the records of the Kubernetes clusters. -/
theorem read_kubernetesRecords (clusters : List KubernetesClusterConfig) :
    (((kubernetesRecords clusters).value).asArray.bind fun items =>
      items.mapM Config.KubernetesClusterConfig.deserialize) =
        some (clusters.map kubernetesConfig) := by
  rw [Records.value, kubernetesRecords, Value.asArray, Option.bind_some, List.map_map]
  apply mapM_map_eq_some
  intro cluster _
  simp [Config.KubernetesClusterConfig.deserialize, Config.recordFields, Field.value, Value.asStr,
    kubernetesConfig, List.lookup_cons]

/-- A Ceph cluster as the server reads it. -/
def rawCephConfig (cluster : CephClusterConfig) : Config.RawCephClusterConfig :=
  ⟨cluster.name, cluster.origin, Config.cephMajorRelease, usernameKey cluster, passwordKey cluster⟩

/-- The server reads the records of the Ceph clusters. -/
theorem read_cephRecords {clusters : List CephClusterConfig}
    (h : ∀ cluster ∈ clusters, cluster.expectedMajorRelease = 19) :
    (((cephRecords clusters).value).asArray.bind fun items =>
      items.mapM Config.RawCephClusterConfig.deserialize) = some (clusters.map rawCephConfig) := by
  rw [Records.value, cephRecords, Value.asArray, Option.bind_some, List.map_map]
  apply mapM_map_eq_some
  intro cluster hcluster
  have hrelease : Config.asU8 (.nat 19) = some Config.cephMajorRelease := by decide
  simp [Config.RawCephClusterConfig.deserialize, Config.recordFields, Field.value, Value.asStr,
    rawCephConfig, List.lookup_cons, h cluster hcluster, hrelease]

/-- The prefix of the variables, on both sides. -/
theorem ceph_prefix : Config.PREFIX ++ "CEPH_" = "HOMELAB_MCP_CEPH_" := by
  apply String.toList_injective
  rw [String.toList_append, Config.PREFIX, String.toList_ofList, String.toList_ofList,
    String.toList_ofList]
  rfl

/-- Both sides name the variable of the user name alike. -/
theorem usernameKey_eq (cluster : CephClusterConfig) :
    usernameKey cluster = Config.usernameEnv cluster.name :=
  congrArg (fun start => start ++ Config.environment cluster.name ++ "_USERNAME") ceph_prefix.symm

/-- And that of the password. -/
theorem passwordKey_eq (cluster : CephClusterConfig) :
    passwordKey cluster = Config.passwordEnv cluster.name :=
  congrArg (fun start => start ++ Config.environment cluster.name ++ "_PASSWORD") ceph_prefix.symm

/-- The path of the executable in the stack's check. -/
theorem safeAbsolutePath_inert : Config.safeAbsolutePath "/inert/kubectl" = true := by
  decide +kernel

section Server

variable {parseUrl : String → Option UrlRecord} {credential : String → Option String}
  {readJson : String → Option Value}

/-- The server accepts every Kubernetes cluster that the program accepts. -/
theorem kubernetes_valid {value : Value} {cluster : KubernetesClusterConfig}
    (h : AcceptsKubernetes value cluster) : (kubernetesConfig cluster).Valid where
  name := validKubernetesIdentifier_of_context (context_of_label h.label) false
  context := validKubernetesIdentifier_of_context h.safe true
  kubeconfig := safeAbsolutePath_kubeconfig
  cacheDir := safeAbsolutePath_cacheDir h.label

/-- The Kubernetes clusters of the stack are accepted by the server. -/
theorem kubernetes_read {isIP : String → Nat} {values : List Value}
    {clusters : List KubernetesClusterConfig}
    (h : validateKubernetesClusters parseUrl isIP (.array values) = .ok clusters)
    (hread : readJson (stringify (kubernetesRecords clusters)) =
      some (kubernetesRecords clusters).value)
    (hsize : (stringify (kubernetesRecords clusters)).utf8ByteSize ≤
      Config.maxKubernetesClustersJsonBytes) :
    Config.parseKubernetesClusters readJson (stringify (kubernetesRecords clusters)) =
      .ok (clusters.map kubernetesConfig) := by
  obtain ⟨hne, hcount, hall, hnodup⟩ := kubernetesClusters_accepted h
  have hnames : (clusters.map kubernetesConfig).map Config.KubernetesClusterConfig.name =
      clusters.map KubernetesClusterConfig.name := by
    rw [List.map_map]
    rfl
  have hvalid : Config.validateKubernetesConfig ⟨"/inert/kubectl", clusters.map kubernetesConfig⟩ =
      .ok () := by
    rw [Config.accepted_kubernetes]
    refine ⟨safeAbsolutePath_inert, ?_, ?_, ?_, ?_⟩
    · exact fun hnil => hne (List.map_eq_nil_iff.mp hnil)
    · rwa [List.length_map]
    · intro config hconfig
      obtain ⟨cluster, hcluster, rfl⟩ := List.mem_map.mp hconfig
      obtain ⟨value, -, haccepts⟩ := Interaction.exists_left_of_mem hall hcluster
      exact kubernetes_valid haccepts
    · rwa [hnames]
  rw [Config.parseKubernetesClusters, if_neg hsize.not_gt, hread, Option.bind_some,
    read_kubernetesRecords]
  simp only [hvalid]
  rfl

/-- What the program does not check of a Ceph cluster. -/
def Readable (parseUrl : String → Option UrlRecord) (name origin : String) : Prop :=
  name.toList.getLast? ≠ some '-' ∧
    ∀ url, parseUrl origin = some url → url.query = none ∧ url.fragment = none

/-- The server reads one cluster that the program accepts. -/
theorem ceph_reads_iff {value : Value} {cluster : CephClusterConfig}
    (hhost : ∀ text url, parseUrl text = some url → url.scheme = "https" → url.host ≠ none)
    (h : AcceptsCeph parseUrl value cluster) {username password : String}
    (husername : Config.filled credential (usernameKey cluster) = .ok username)
    (hpassword : Config.filled credential (passwordKey cluster) = .ok password) :
    (∃ config, Config.Reads parseUrl credential (rawCephConfig cluster) config) ↔
      Readable parseUrl cluster.name cluster.origin := by
  obtain ⟨url, hurl, hplain⟩ := h.url
  constructor
  · rintro ⟨config, hreads⟩
    refine ⟨(validCephClusterName_of_label h.label).mp hreads.name_valid, ?_⟩
    intro found hfound
    obtain ⟨hparsed, horigin⟩ := hreads.origin
    obtain rfl := Option.some.inj (hfound.symm.trans hparsed)
    exact ⟨horigin.query, horigin.fragment⟩
  · rintro ⟨hname, horigin⟩
    obtain ⟨hquery, hfragment⟩ := horigin url hurl
    have hisOrigin : IsOrigin url := ⟨hplain.scheme, hhost _ url hurl hplain.scheme,
      hplain.username, hplain.password, hplain.path, hquery, hfragment⟩
    exact ⟨⟨cluster.name, url, Config.cephMajorRelease, username, password⟩,
      (validCephClusterName_of_label h.label).mpr hname, rfl, usernameKey_eq cluster,
      passwordKey_eq cluster, ⟨hurl, hisOrigin⟩, by rw [← husername, usernameKey_eq]; rfl,
      by rw [← hpassword, passwordKey_eq]; rfl, rfl, rfl⟩

/-- A Ceph cluster of the configuration whose name does not end with a hyphen and whose origin has
neither a query nor a fragment. -/
def Deployable (parseUrl : String → Option UrlRecord) (value : Value) : Prop :=
  ∀ name origin, value.get "name" = some (.string name) →
    value.get "origin" = some (.string origin) → Readable parseUrl name (withoutSlash origin)

/-- A Ceph cluster can be deployed where the server can read its name and its origin. -/
theorem deployable_iff {value : Value} {cluster : CephClusterConfig}
    (h : AcceptsCeph parseUrl value cluster) :
    Deployable parseUrl value ↔ Readable parseUrl cluster.name cluster.origin := by
  obtain ⟨origin, horigin, hslash⟩ := h.origin
  rw [hslash]
  constructor
  · intro hdeployable
    exact hdeployable _ _ h.name horigin
  · intro hreadable name' origin' hname' horigin'
    rw [h.name, Option.some.injEq, Value.string.injEq] at hname'
    rw [horigin, Option.some.injEq, Value.string.injEq] at horigin'
    rwa [← hname', ← horigin']

/-- The credentials of a cluster are there. -/
def HasCredentials (credential : String → Option String) (cluster : CephClusterConfig) : Prop :=
  ∃ username password, Config.filled credential (usernameKey cluster) = .ok username ∧
    Config.filled credential (passwordKey cluster) = .ok password

/-- All can, where the server reads all. -/
theorem ceph_configs_iff
    (hhost : ∀ text url, parseUrl text = some url → url.scheme = "https" → url.host ≠ none)
    {values : List Value} {clusters : List CephClusterConfig}
    (hall : List.Forall₂ (AcceptsCeph parseUrl) values clusters)
    (hcredentials : ∀ cluster ∈ clusters, HasCredentials credential cluster) :
    (∃ configs, List.Forall₂ (Config.Reads parseUrl credential) (clusters.map rawCephConfig)
      configs) ↔ ∀ value ∈ values, Deployable parseUrl value := by
  induction hall with
  | nil => simp
  | cons haccepts _ ih =>
      obtain ⟨⟨username, password, husername, hpassword⟩, hrest⟩ :=
        List.forall_mem_cons.mp hcredentials
      have hone := ceph_reads_iff hhost haccepts husername hpassword
      rw [List.forall_mem_cons, ← ih hrest, deployable_iff haccepts, ← hone]
      constructor
      · rintro ⟨configs, h⟩
        cases h with
        | cons hreads hconfigs => exact ⟨⟨_, hreads⟩, _, hconfigs⟩
      · rintro ⟨⟨config, hreads⟩, configs, hconfigs⟩
        exact ⟨config :: configs, .cons hreads hconfigs⟩

/-- The server has the name and the origin of a cluster. -/
def SameCluster (parseUrl : String → Option UrlRecord) (cluster : CephClusterConfig)
    (config : Config.CephClusterConfig) : Prop :=
  config.name = cluster.name ∧ parseUrl cluster.origin = some config.origin

/-- What the server reads is the cluster that was written. -/
theorem sameCluster_of_reads {clusters : List CephClusterConfig}
    {configs : List Config.CephClusterConfig}
    (h : List.Forall₂ (Config.Reads parseUrl credential) (clusters.map rawCephConfig) configs) :
    List.Forall₂ (SameCluster parseUrl) clusters configs := by
  rw [List.forall₂_map_left_iff] at h
  exact h.imp fun cluster config hreads => ⟨hreads.same_name, hreads.origin.1⟩

/-- The clusters that were written are the ones that are parsed. -/
theorem ceph_written {values : List Value} {clusters : List CephClusterConfig}
    (h : validateCephClusters parseUrl (.array values) = .ok clusters)
    (hread : readJson (stringify (cephRecords clusters)) = some (cephRecords clusters).value)
    (hsize : (stringify (cephRecords clusters)).utf8ByteSize ≤ Config.maxCephClustersJsonBytes) :
    Config.parseCephClusters parseUrl credential readJson
        (some (stringify (cephRecords clusters))) =
      Config.collectCephClusters parseUrl credential [] (clusters.map rawCephConfig) := by
  obtain ⟨hcount, hall, -⟩ := cephClusters_accepted h
  have hrelease : ∀ cluster ∈ clusters, cluster.expectedMajorRelease = 19 := by
    intro cluster hcluster
    obtain ⟨value, -, haccepts⟩ := Interaction.exists_left_of_mem hall hcluster
    exact haccepts.release
  have hfew : ¬ (clusters.map rawCephConfig).length > Config.maxCephClusters := by
    rw [List.length_map]
    exact hcount.not_gt
  simp only [Config.parseCephClusters, Option.getD_some, if_neg hsize.not_gt, hread,
    Option.bind_some, read_cephRecords hrelease, if_neg hfew]

/-- The server reads the clusters where each can be deployed. -/
theorem ceph_read_iff
    (hhost : ∀ text url, parseUrl text = some url → url.scheme = "https" → url.host ≠ none)
    {values : List Value} {clusters : List CephClusterConfig}
    (h : validateCephClusters parseUrl (.array values) = .ok clusters)
    (hread : readJson (stringify (cephRecords clusters)) = some (cephRecords clusters).value)
    (hsize : (stringify (cephRecords clusters)).utf8ByteSize ≤ Config.maxCephClustersJsonBytes)
    (hcredentials : ∀ cluster ∈ clusters, HasCredentials credential cluster) :
    (∃ configs, Config.parseCephClusters parseUrl credential readJson
        (some (stringify (cephRecords clusters))) = .ok configs ∧
          List.Forall₂ (SameCluster parseUrl) clusters configs) ↔
      ∀ value ∈ values, Deployable parseUrl value := by
  obtain ⟨-, hall, hnodup⟩ := cephClusters_accepted h
  have hnames : ((clusters.map rawCephConfig).map Config.RawCephClusterConfig.name).Nodup := by
    rwa [List.map_map]
  rw [ceph_written h hread hsize, ← ceph_configs_iff hhost hall hcredentials]
  constructor
  · rintro ⟨configs, hcollect, -⟩
    exact ⟨configs, (Config.collectCephClusters_eq_ok.mp hcollect).1⟩
  · rintro ⟨configs, hreads⟩
    refine ⟨configs, ?_, sameCluster_of_reads hreads⟩
    exact Config.collectCephClusters_eq_ok.mpr ⟨hreads, fun _ _ => List.not_mem_nil, hnames⟩

/-- **The server and the policy.**  What the program writes of accepted Kubernetes clusters is read
by the server, with the same names and contexts.  What it writes of accepted Ceph clusters is read,
with the same names and origins, exactly if no name ends with a hyphen and no origin has a query or
a fragment; one that the program accepts is empty. -/
theorem server_reads_policy
    (hhost : ∀ text url, parseUrl text = some url → url.scheme = "https" → url.host ≠ none) :
    (∀ (isIP : String → Nat) (values : List Value) (clusters : List KubernetesClusterConfig),
      validateKubernetesClusters parseUrl isIP (.array values) = .ok clusters →
      readJson (stringify (kubernetesRecords clusters)) =
        some (kubernetesRecords clusters).value →
      (stringify (kubernetesRecords clusters)).utf8ByteSize ≤
        Config.maxKubernetesClustersJsonBytes →
      ∃ configs, Config.parseKubernetesClusters readJson
          (stringify (kubernetesRecords clusters)) = .ok configs ∧
        configs.map (fun config => (config.name, config.context)) =
          clusters.map fun cluster => (cluster.name, cluster.context)) ∧
    ∀ (values : List Value) (clusters : List CephClusterConfig),
      validateCephClusters parseUrl (.array values) = .ok clusters →
      readJson (stringify (cephRecords clusters)) = some (cephRecords clusters).value →
      (stringify (cephRecords clusters)).utf8ByteSize ≤ Config.maxCephClustersJsonBytes →
      (∀ cluster ∈ clusters, HasCredentials credential cluster) →
      ((∃ configs, Config.parseCephClusters parseUrl credential readJson
          (some (stringify (cephRecords clusters))) = .ok configs ∧
            List.Forall₂ (SameCluster parseUrl) clusters configs) ↔
        ∀ value ∈ values, Deployable parseUrl value) := by
  constructor
  · intro isIP values clusters h hread hsize
    refine ⟨clusters.map kubernetesConfig, kubernetes_read h hread hsize, ?_⟩
    rw [List.map_map]
    rfl
  · intro values clusters
    exact ceph_read_iff hhost

end Server

section Refused

/-- The parser, on the one URL of these clusters. -/
def dashboardUrl (text : String) : Option UrlRecord :=
  if text = "https://ceph.example" then
    some ⟨"https", "", "", some "ceph.example", none, "/", none, none⟩
  else none

/-- It gives a host. -/
theorem dashboardUrl_host (text : String) (url : UrlRecord) (h : dashboardUrl text = some url)
    (_ : url.scheme = "https") : url.host ≠ none := by
  unfold dashboardUrl at h
  split_ifs at h
  obtain rfl := Option.some.inj h
  exact Option.some_ne_none _

/-- A cluster with that dashboard. -/
def dashboard (name : String) : Value :=
  .object [("name", .string name), ("origin", .string "https://ceph.example/"),
    ("expectedMajorRelease", .nat 19)]

/-- What the stack makes of it. -/
def dashboardClusters (name : String) : List CephClusterConfig :=
  [⟨name, "https://ceph.example", 19⟩]

/-- A reader of one text. -/
def readWritten (records : Records) (text : String) : Option Value :=
  if text = stringify records then some records.value else none

/-- What was written is read. -/
theorem readWritten_self (records : Records) :
    readWritten records (stringify records) = some records.value := if_pos rfl

/-- Its credentials are there. -/
theorem dashboard_credentials (name : String) :
    ∀ cluster ∈ dashboardClusters name, HasCredentials (fun _ => some "secret") cluster :=
  fun _ _ => ⟨"secret", "secret", rfl, rfl⟩

/-- The stack accepts it. -/
theorem romulus_accepted : validateCephClusters dashboardUrl (.array [dashboard "romulus"]) =
    .ok (dashboardClusters "romulus") := rfl

/-- It is short enough. -/
theorem romulus_size : (stringify (cephRecords (dashboardClusters "romulus"))).utf8ByteSize ≤
    Config.maxCephClustersJsonBytes := by
  decide +kernel

/-- It can be deployed. -/
theorem romulus_deployable : Deployable dashboardUrl (dashboard "romulus") := by
  intro name origin hname horigin
  obtain rfl : "romulus" = name := Value.string.inj (Option.some.inj hname)
  obtain rfl : "https://ceph.example/" = origin := Value.string.inj (Option.some.inj horigin)
  refine ⟨by decide, fun url hurl => ?_⟩
  have hself : dashboardUrl (withoutSlash "https://ceph.example/") =
      some ⟨"https", "", "", some "ceph.example", none, "/", none, none⟩ := rfl
  obtain rfl := Option.some.inj (hself.symm.trans hurl)
  exact ⟨rfl, rfl⟩

theorem server_reads_policy_romulus :
    ∃ configs, Config.parseCephClusters dashboardUrl (fun _ => some "secret")
        (readWritten (cephRecords (dashboardClusters "romulus")))
        (some (stringify (cephRecords (dashboardClusters "romulus")))) = .ok configs ∧
      List.Forall₂ (SameCluster dashboardUrl) (dashboardClusters "romulus") configs :=
  ((server_reads_policy dashboardUrl_host).2 _ _ romulus_accepted (readWritten_self _) romulus_size
    (dashboard_credentials "romulus")).mpr (List.forall_mem_singleton.mpr romulus_deployable)

/-- **A cluster that is refused.**  The program accepts the name `romulus-`, the server does not. -/
theorem hyphen_refused :
    validateCephClusters dashboardUrl (.array [dashboard "romulus-"]) =
      .ok (dashboardClusters "romulus-") ∧
    (stringify (cephRecords (dashboardClusters "romulus-"))).utf8ByteSize ≤
      Config.maxCephClustersJsonBytes ∧
    ∀ configs, Config.parseCephClusters dashboardUrl (fun _ => some "secret")
      (readWritten (cephRecords (dashboardClusters "romulus-")))
      (some (stringify (cephRecords (dashboardClusters "romulus-")))) ≠ .ok configs := by
  have haccepted : validateCephClusters dashboardUrl (.array [dashboard "romulus-"]) =
      .ok (dashboardClusters "romulus-") := rfl
  have hsize : (stringify (cephRecords (dashboardClusters "romulus-"))).utf8ByteSize ≤
      Config.maxCephClustersJsonBytes := by decide +kernel
  refine ⟨haccepted, hsize, fun configs hconfigs => ?_⟩
  rw [ceph_written haccepted (readWritten_self _) hsize] at hconfigs
  obtain ⟨hreads, -⟩ := Config.collectCephClusters_eq_ok.mp hconfigs
  have hname := Config.names_valid hreads _ List.mem_cons_self
  exact absurd hname (by decide)

end Refused

end Policy
