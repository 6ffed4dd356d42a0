import HomelabMcp.Interaction
import HomelabMcp.JsonValue
import HomelabMcp.UrlRecord
import Mathlib.Data.String.Basic

/-!
# The configuration of the clusters

The server reads its Kubernetes and its Ceph clusters from two JSON texts.  What is read is checked
before anything is built from it.

* `accepted_kubernetes`: what holds of every Kubernetes cluster that is accepted.
* `accepted_ceph`: what holds of every Ceph cluster that is accepted.
* `environment_injective`: the names of two Ceph clusters derive different variables.
-/

namespace Config

open Json (Value)
open Whatwg (UrlRecord)

/-- The prefix of every variable, and the bounds of the configuration. -/
def PREFIX : String := "HOMELAB_MCP_"
def maxKubernetesClustersJsonBytes : Nat := 64 * 1024
def maxCephClustersJsonBytes : Nat := 64 * 1024
def maxCephClusters : Nat := 32
def cephMajorRelease : UInt8 := 19

section Origins

variable (parseUrl : String → Option UrlRecord)

/-- `secure_url`. -/
def secureUrl (name value : String) : Except String UrlRecord :=
  match parseUrl value with
  | none => .error ("invalid " ++ PREFIX ++ name)
  | some url =>
      if url.scheme ≠ "https" ∨ url.host = none ∨ url.username ≠ "" ∨ url.passwordStr ≠ none then
        .error ("invalid " ++ PREFIX ++ name)
      else .ok url

/-- `secure_origin`: no path, no query and no fragment in addition. -/
def secureOrigin (name value : String) : Except String UrlRecord := do
  let url ← secureUrl parseUrl name value
  if url.path ≠ "/" ∨ url.query ≠ none ∨ url.fragment ≠ none then
    throw ("invalid " ++ PREFIX ++ name)
  return url

end Origins

/-- `u8::is_ascii_lowercase`. -/
def isAsciiLowercase (c : Char) : Bool := 'a' ≤ c && c ≤ 'z'

/-- `valid_ceph_cluster_name`. -/
def validCephClusterName (value : String) : Bool :=
  !value.isEmpty && value.utf8ByteSize ≤ 63 &&
    value.toList.all (fun c => isAsciiLowercase c || c.isDigit || c == '-') &&
    value.toList.head?.any Char.isAlphanum && value.toList.getLast?.any Char.isAlphanum

/-- `safe_absolute_path`. -/
def safeAbsolutePath (value : String) : Bool :=
  !value.isEmpty && value.utf8ByteSize ≤ 4096 && Text.noControl value &&
    value.toList.head? == some '/' &&
    !(Text.pieces (· == '/') value.toList).contains ['.', '.']

/-- A name, or with `context` a context, where two more marks are allowed. -/
def validKubernetesIdentifier (value : String) (context : Bool) : Bool :=
  !value.isEmpty && value.utf8ByteSize ≤ 253 && !(value.toList.head? == some '-') &&
    !value.toList.any (fun c => Text.isControl c || Text.isWhitespace c) &&
    value.toList.all fun c =>
      c.isAlphanum || c == '-' || c == '.' || c == '_' || context && (c == ':' || c == '/')

/-- The fields of a record that knows no others: an object with each of them once, or an array.
The members of an object are as they are written, with every repetition. -/
def recordFields (names : List String) : Value → Option (List Value)
  | .array items => if items.length = names.length then some items else none
  | .object members =>
      if (members.map Prod.fst).Nodup ∧ (members.map Prod.fst).all names.contains then
        names.mapM fun name => members.lookup name
      else none
  | _ => none

/-- A cluster of the Kubernetes catalog as it is configured. -/
structure KubernetesClusterConfig where
  name : String
  kubeconfig : String
  context : String
  cacheDir : String
  deriving DecidableEq

/-- The record of a cluster: its four fields, each once, and no other. -/
def KubernetesClusterConfig.deserialize (value : Value) : Option KubernetesClusterConfig := do
  match ← recordFields ["name", "kubeconfig", "context", "cache_dir"] value with
  | [name, kubeconfig, context, cacheDir] =>
      return ⟨← name.asStr, ← kubeconfig.asStr, ← context.asStr, ← cacheDir.asStr⟩
  | _ => none

/-- A cluster of the Ceph catalog as it is written, its credentials by name. -/
structure RawCephClusterConfig where
  name : String
  origin : String
  expectedMajorRelease : UInt8
  usernameEnv : String
  passwordEnv : String
  deriving DecidableEq

/-- A number of one byte. -/
def asU8 (value : Value) : Option UInt8 :=
  value.asU64.bind fun n => if n.toNat < 256 then some n.toNat.toUInt8 else none

/-- The record of such a cluster: its five fields, each once, and no other. -/
def RawCephClusterConfig.deserialize (value : Value) : Option RawCephClusterConfig := do
  match ← recordFields ["name", "origin", "expected_major_release", "username_env",
      "password_env"] value with
  | [name, origin, release, usernameEnv, passwordEnv] =>
      return ⟨← name.asStr, ← origin.asStr, ← asU8 release, ← usernameEnv.asStr,
        ← passwordEnv.asStr⟩
  | _ => none

/-- A cluster with its credentials. -/
structure CephClusterConfig where
  name : String
  origin : UrlRecord
  expectedMajorRelease : UInt8
  username : String
  password : String
  deriving DecidableEq

/-- The configuration of the Kubernetes integration. -/
structure KubernetesIntegrationConfig where
  kubectlPath : String
  clusters : List KubernetesClusterConfig
  deriving DecidableEq

/-- The error of that configuration. -/
def invalidKubernetes : String := "Kubernetes integration configuration is invalid"

/-- The checks of the clusters, after those with the names of `names`. -/
def validateKubernetesClusters (names : List String) :
    List KubernetesClusterConfig → Except String Unit
  | [] => .ok ()
  | cluster :: clusters =>
      if !validKubernetesIdentifier cluster.name false ||
          !validKubernetesIdentifier cluster.context true ||
          !safeAbsolutePath cluster.kubeconfig || !safeAbsolutePath cluster.cacheDir ||
          names.contains cluster.name then .error invalidKubernetes
      else validateKubernetesClusters (cluster.name :: names) clusters

/-- `validate_kubernetes_config`. -/
def validateKubernetesConfig (config : KubernetesIntegrationConfig) : Except String Unit :=
  if !safeAbsolutePath config.kubectlPath || config.clusters.isEmpty ||
      config.clusters.length > 32 then .error invalidKubernetes
  else validateKubernetesClusters [] config.clusters

/-- `readJson` is the syntax of a text. -/
def parseKubernetesClusters (readJson : String → Option Value) (value : String) :
    Except String (List KubernetesClusterConfig) :=
  if value.utf8ByteSize > maxKubernetesClustersJsonBytes then
    .error "invalid HOMELAB_MCP_KUBERNETES_CLUSTERS"
  else do
    match (((readJson value).bind Value.asArray).bind fun items =>
        items.mapM KubernetesClusterConfig.deserialize) with
    | none => throw "invalid HOMELAB_MCP_KUBERNETES_CLUSTERS"
    | some clusters =>
        validateKubernetesConfig ⟨"/inert/kubectl", clusters⟩
        return clusters

/-- The error of the Ceph clusters. -/
def invalidCeph : String := "invalid HOMELAB_MCP_CEPH_CLUSTERS"

/-- A name as it stands in a variable. -/
def environment (name : String) : String :=
  String.ofList ((name.toList.map Char.toUpper).map fun c => if c = '-' then '_' else c)

/-- The variable that holds the user name. -/
def usernameEnv (name : String) : String := PREFIX ++ "CEPH_" ++ environment name ++ "_USERNAME"

/-- The variable that holds the password. -/
def passwordEnv (name : String) : String := PREFIX ++ "CEPH_" ++ environment name ++ "_PASSWORD"

/-- A credential that is there and not blank. -/
def filled (credential : String → Option String) (name : String) : Except String String :=
  match credential name with
  | some value => if (Text.trim value).isEmpty then .error ("missing " ++ name) else .ok value
  | none => .error ("missing " ++ name)

section Ceph

variable (parseUrl : String → Option UrlRecord) (credential : String → Option String)

/-- One cluster, after those with the names of `names`. -/
def parseCephCluster (names : List String) (cluster : RawCephClusterConfig) :
    Except String CephClusterConfig :=
  if !validCephClusterName cluster.name || names.contains cluster.name ||
      cluster.expectedMajorRelease != cephMajorRelease ||
      cluster.usernameEnv != usernameEnv cluster.name ||
      cluster.passwordEnv != passwordEnv cluster.name then .error invalidCeph
  else
    match secureOrigin parseUrl "CEPH_CLUSTERS" cluster.origin with
    | .error _ => .error invalidCeph
    | .ok origin => do
        let username ← filled credential (usernameEnv cluster.name)
        let password ← filled credential (passwordEnv cluster.name)
        return ⟨cluster.name, origin, cluster.expectedMajorRelease, username, password⟩

/-- The clusters, one after another, up to the first that is refused. -/
def collectCephClusters (names : List String) :
    List RawCephClusterConfig → Except String (List CephClusterConfig)
  | [] => .ok []
  | cluster :: raw => do
      let config ← parseCephCluster parseUrl credential names cluster
      let configs ← collectCephClusters (cluster.name :: names) raw
      return config :: configs

/-- `parse_ceph_clusters`. -/
def parseCephClusters (readJson : String → Option Value) (value : Option String) :
    Except String (List CephClusterConfig) :=
  let value := value.getD "[]"
  if value.utf8ByteSize > maxCephClustersJsonBytes then .error invalidCeph
  else
    match (((readJson value).bind Value.asArray).bind fun items =>
        items.mapM RawCephClusterConfig.deserialize) with
    | none => .error invalidCeph
    | some raw =>
        if raw.length > maxCephClusters then .error invalidCeph
        else collectCephClusters parseUrl credential [] raw

end Ceph

/-- A URL of an origin only: nothing is in it but the scheme, a host and perhaps a port. -/
structure IsOrigin (url : UrlRecord) : Prop where
  scheme : url.scheme = "https"
  host : url.host ≠ none
  username : url.username = ""
  password : url.password = ""
  path : url.path = "/"
  query : url.query = none
  fragment : url.fragment = none

/-- A secure origin is a URL that is an origin. -/
theorem secureOrigin_eq_ok {parseUrl : String → Option UrlRecord} {name value : String}
    {url : UrlRecord} :
    secureOrigin parseUrl name value = .ok url ↔ parseUrl value = some url ∧ IsOrigin url := by
  unfold secureOrigin secureUrl
  cases hparse : parseUrl value with
  | none => simp [bind, Except.bind]
  | some found =>
      by_cases hsecure : found.scheme ≠ "https" ∨ found.host = none ∨ found.username ≠ "" ∨
          found.passwordStr ≠ none
      · have hno : ¬ IsOrigin found := fun h => by
          have hpassword := UrlRecord.passwordStr_eq_none.mpr h.password
          have hscheme := h.scheme
          have hhost := h.host
          have husername := h.username
          tauto
        simp only [if_pos hsecure, bind, Except.bind, Option.some.injEq, reduceCtorEq, false_iff]
        rintro ⟨rfl, h⟩
        exact hno h
      · simp only [if_neg hsecure, bind, Except.bind, Option.some.injEq]
        by_cases hroot : found.path ≠ "/" ∨ found.query ≠ none ∨ found.fragment ≠ none
        · simp only [if_pos hroot]
          refine ⟨nofun, ?_⟩
          rintro ⟨rfl, h⟩
          rcases hroot with hpath | hquery | hfragment
          · exact absurd h.path hpath
          · exact absurd h.query hquery
          · exact absurd h.fragment hfragment
        · simp only [if_neg hroot]
          push Not at hsecure hroot
          obtain ⟨hscheme, hhost, husername, hpassword⟩ := hsecure
          obtain ⟨hpath, hquery, hfragment⟩ := hroot
          refine ⟨fun h => ?_, fun h => congrArg Except.ok h.1⟩
          refine ⟨Except.ok.inj h, ?_⟩
          exact Except.ok.inj h ▸ ⟨hscheme, hhost, husername,
            UrlRecord.passwordStr_eq_none.mp hpassword, hpath, hquery, hfragment⟩

/-- What is accepted of a Kubernetes cluster. -/
structure KubernetesClusterConfig.Valid (cluster : KubernetesClusterConfig) : Prop where
  name : validKubernetesIdentifier cluster.name false = true
  context : validKubernetesIdentifier cluster.context true = true
  kubeconfig : safeAbsolutePath cluster.kubeconfig = true
  cacheDir : safeAbsolutePath cluster.cacheDir = true

/-- The clusters that are accepted are those with good fields and different names. -/
theorem validateKubernetesClusters_eq_ok {names : List String}
    {clusters : List KubernetesClusterConfig} :
    validateKubernetesClusters names clusters = .ok () ↔
      (∀ cluster ∈ clusters, cluster.Valid ∧ cluster.name ∉ names) ∧
        (clusters.map KubernetesClusterConfig.name).Nodup := by
  induction clusters generalizing names with
  | nil => simp [validateKubernetesClusters]
  | cons cluster clusters ih =>
      rw [validateKubernetesClusters]
      by_cases hbad : (!validKubernetesIdentifier cluster.name false ||
          !validKubernetesIdentifier cluster.context true ||
          !safeAbsolutePath cluster.kubeconfig || !safeAbsolutePath cluster.cacheDir ||
          names.contains cluster.name) = true
      · rw [if_pos hbad]
        refine ⟨nofun, fun h => ?_⟩
        obtain ⟨hvalid, hnew⟩ := h.1 cluster (List.mem_cons_self ..)
        simp [hvalid.name, hvalid.context, hvalid.kubeconfig, hvalid.cacheDir, hnew] at hbad
      · rw [if_neg hbad, ih]
        simp only [Bool.or_eq_true, Bool.not_eq_true', List.contains_iff_mem, not_or,
          Bool.not_eq_false] at hbad
        obtain ⟨⟨⟨⟨hname, hcontext⟩, hkubeconfig⟩, hcacheDir⟩, hnew⟩ := hbad
        have hvalid : cluster.Valid := ⟨hname, hcontext, hkubeconfig, hcacheDir⟩
        rw [List.forall_mem_cons, List.map_cons, List.nodup_cons]
        simp only [List.mem_cons, not_or, List.mem_map, not_exists, not_and]
        constructor
        · rintro ⟨hall, hnodup⟩
          exact ⟨⟨⟨hvalid, hnew⟩, fun c hc => ⟨(hall c hc).1, (hall c hc).2.2⟩⟩,
            fun c hc => (hall c hc).2.1, hnodup⟩
        · rintro ⟨⟨-, hall⟩, hdistinct, hnodup⟩
          exact ⟨fun c hc => ⟨(hall c hc).1, hdistinct c hc, (hall c hc).2⟩, hnodup⟩

/-- A configuration of Kubernetes is accepted where its clusters are valid and their names
differ. -/
theorem accepted_kubernetes {config : KubernetesIntegrationConfig} :
    validateKubernetesConfig config = .ok () ↔
      safeAbsolutePath config.kubectlPath = true ∧ config.clusters ≠ [] ∧
        config.clusters.length ≤ 32 ∧ (∀ cluster ∈ config.clusters, cluster.Valid) ∧
        (config.clusters.map KubernetesClusterConfig.name).Nodup := by
  unfold validateKubernetesConfig
  by_cases hbad : (!safeAbsolutePath config.kubectlPath || config.clusters.isEmpty ||
      config.clusters.length > 32) = true
  · rw [if_pos hbad]
    refine ⟨nofun, ?_⟩
    rintro ⟨hpath, hne, hcount, -⟩
    simp [hpath, hne, hcount.not_gt] at hbad
  · rw [if_neg hbad, validateKubernetesClusters_eq_ok]
    simp only [Bool.or_eq_true, Bool.not_eq_true', List.isEmpty_iff, decide_eq_true_eq, not_or,
      Bool.not_eq_false, not_lt] at hbad
    obtain ⟨⟨hpath, hne⟩, hcount⟩ := hbad
    simp [hpath, hne, hcount]

/-- What a cluster is read to. -/
structure Reads (parseUrl : String → Option UrlRecord) (credential : String → Option String)
    (raw : RawCephClusterConfig) (config : CephClusterConfig) : Prop where
  name_valid : validCephClusterName raw.name = true
  release : raw.expectedMajorRelease = cephMajorRelease
  usernameEnv : raw.usernameEnv = Config.usernameEnv raw.name
  passwordEnv : raw.passwordEnv = Config.passwordEnv raw.name
  origin : parseUrl raw.origin = some config.origin ∧ IsOrigin config.origin
  username : filled credential (Config.usernameEnv raw.name) = .ok config.username
  password : filled credential (Config.passwordEnv raw.name) = .ok config.password
  same_name : config.name = raw.name
  same_release : config.expectedMajorRelease = raw.expectedMajorRelease

section Ceph

variable {parseUrl : String → Option UrlRecord} {credential : String → Option String}

/-- A Ceph cluster is parsed where its name is new and its parts are read. -/
theorem parseCephCluster_eq_ok {names : List String} {raw : RawCephClusterConfig}
    {config : CephClusterConfig} :
    parseCephCluster parseUrl credential names raw = .ok config ↔
      raw.name ∉ names ∧ Reads parseUrl credential raw config := by
  unfold parseCephCluster
  by_cases hbad : (!validCephClusterName raw.name || names.contains raw.name ||
      raw.expectedMajorRelease != cephMajorRelease || raw.usernameEnv != usernameEnv raw.name ||
      raw.passwordEnv != passwordEnv raw.name) = true
  · rw [if_pos hbad]
    refine ⟨nofun, ?_⟩
    rintro ⟨hnew, h⟩
    simp [h.name_valid, hnew, h.release, h.usernameEnv, h.passwordEnv] at hbad
  · rw [if_neg hbad]
    simp only [Bool.or_eq_true, Bool.not_eq_true', List.contains_iff_mem, bne_iff_ne, not_or,
      Bool.not_eq_false, not_not] at hbad
    obtain ⟨⟨⟨⟨hname, hnew⟩, hrelease⟩, husername⟩, hpassword⟩ := hbad
    constructor
    · intro h
      split at h
      · cases h
      · next origin horigin =>
          simp only [Interaction.bind_eq_ok] at h
          obtain ⟨username, hu, password, hp, h⟩ := h
          cases h
          exact ⟨hnew, hname, hrelease, husername, hpassword, secureOrigin_eq_ok.mp horigin, hu,
            hp, rfl, rfl⟩
    · rintro ⟨-, h⟩
      rw [secureOrigin_eq_ok.mpr h.origin]
      simp only [Interaction.bind_eq_ok]
      refine ⟨config.username, h.username, config.password, h.password, ?_⟩
      rw [← h.same_name, ← h.same_release]
      rfl

/-- The clusters that are accepted are those that are read one by one, under different names. -/
theorem collectCephClusters_eq_ok {names : List String} {raw : List RawCephClusterConfig}
    {configs : List CephClusterConfig} :
    collectCephClusters parseUrl credential names raw = .ok configs ↔
      List.Forall₂ (Reads parseUrl credential) raw configs ∧
        (∀ cluster ∈ raw, cluster.name ∉ names) ∧
        (raw.map RawCephClusterConfig.name).Nodup := by
  induction raw generalizing names configs with
  | nil => simp [collectCephClusters, eq_comm]
  | cons cluster raw ih =>
      rw [List.forall_mem_cons, List.map_cons, List.nodup_cons]
      simp only [collectCephClusters, Interaction.bind_eq_ok, parseCephCluster_eq_ok, ih,
        List.mem_cons, not_or, List.mem_map, not_exists, not_and]
      constructor
      · rintro ⟨config, ⟨hnew, hreads⟩, configs, ⟨hall, hnames, hnodup⟩, h⟩
        cases h
        exact ⟨.cons hreads hall, ⟨hnew, fun c hc => (hnames c hc).2⟩,
          fun c hc => (hnames c hc).1, hnodup⟩
      · rintro ⟨hall, ⟨hnew, hnames⟩, hdistinct, hnodup⟩
        cases hall with
        | cons hreads hall =>
            exact ⟨_, ⟨hnew, hreads⟩, _, ⟨hall, fun c hc => ⟨hdistinct c hc, hnames c hc⟩,
              hnodup⟩, rfl⟩

/-- The clusters that are accepted were read one by one, and their names differ. -/
theorem accepted_ceph {readJson : String → Option Value} {value : Option String}
    {configs : List CephClusterConfig}
    (h : parseCephClusters parseUrl credential readJson value = .ok configs) :
    ∃ raw : List RawCephClusterConfig, raw.length ≤ maxCephClusters ∧
      List.Forall₂ (Reads parseUrl credential) raw configs ∧
      (raw.map RawCephClusterConfig.name).Nodup := by
  unfold parseCephClusters at h
  simp only at h
  split at h
  · cases h
  · split at h
    · cases h
    · next raw hraw =>
        split at h
        · cases h
        · next hcount =>
            obtain ⟨hreads, -, hnodup⟩ := collectCephClusters_eq_ok.mp h
            exact ⟨raw, not_lt.mp hcount, hreads, hnodup⟩

/-- The names that were read are valid. -/
theorem names_valid {raw : List RawCephClusterConfig} {configs : List CephClusterConfig}
    (h : List.Forall₂ (Reads parseUrl credential) raw configs) :
    ∀ cluster ∈ raw, validCephClusterName cluster.name = true := by
  induction h with
  | nil => exact List.forall_mem_nil _
  | cons hreads _ ih => exact List.forall_mem_cons.mpr ⟨hreads.name_valid, ih⟩

/-- Names are kept. -/
theorem same_names {raw : List RawCephClusterConfig} {configs : List CephClusterConfig}
    (h : List.Forall₂ (Reads parseUrl credential) raw configs) :
    configs.map CephClusterConfig.name = raw.map RawCephClusterConfig.name := by
  induction h with
  | nil => rfl
  | cons hreads _ ih => rw [List.map_cons, List.map_cons, ih, hreads.same_name]

/-- Every accepted cluster has a valid name. -/
theorem accepted_name {readJson : String → Option Value} {value : Option String}
    {configs : List CephClusterConfig}
    (h : parseCephClusters parseUrl credential readJson value = .ok configs) :
    ∀ cluster ∈ configs, validCephClusterName cluster.name = true := by
  obtain ⟨raw, -, hreads, -⟩ := accepted_ceph h
  intro cluster hcluster
  have hname : cluster.name ∈ raw.map RawCephClusterConfig.name := by
    rw [← same_names hreads]
    exact List.mem_map_of_mem hcluster
  obtain ⟨source, hsource, heq⟩ := List.mem_map.mp hname
  rw [← heq]
  exact names_valid hreads source hsource

end Ceph

/-- What a variable has for a character of a name. -/
def environmentChar (c : Char) : Char := if c.toUpper = '-' then '_' else c.toUpper

/-- The character of a name that a variable has one for. -/
def nameChar (c : Char) : Char := if c = '_' then '-' else c.toLower

/-- A character of a name is told from its variable. -/
theorem nameChar_environmentChar {c : Char}
    (h : (isAsciiLowercase c || c.isDigit || c == '-') = true) :
    nameChar (environmentChar c) = c := by
  have hall : ∀ n < 128, (isAsciiLowercase (Char.ofNat n) || (Char.ofNat n).isDigit ||
      Char.ofNat n == '-') = true → nameChar (environmentChar (Char.ofNat n)) = Char.ofNat n := by
    decide +kernel
  have hascii : c.toNat < 128 := by
    simp only [isAsciiLowercase, Char.isDigit, Bool.or_eq_true, Bool.and_eq_true,
      decide_eq_true_eq, beq_iff_eq] at h
    rcases h with (⟨-, h⟩ | ⟨-, h⟩) | rfl
    · exact lt_of_le_of_lt (show c.toNat ≤ 122 from h) (by decide)
    · exact lt_of_le_of_lt (show c.toNat ≤ 57 from h) (by decide)
    · decide
  have hself := hall c.toNat hascii
  rw [Char.ofNat_toNat] at hself
  exact hself h

/-- Names have lower case letters, digits and hyphens only. -/
theorem validCephClusterName_chars {name : String} (h : validCephClusterName name = true) :
    ∀ c ∈ name.toList, (isAsciiLowercase c || c.isDigit || c == '-') = true := by
  simp only [validCephClusterName, Bool.and_eq_true, List.all_eq_true] at h
  exact h.1.1.2

/-- A name can be read off what it has in a variable. -/
theorem environment_injective {a b : String} (ha : validCephClusterName a = true)
    (hb : validCephClusterName b = true) (h : environment a = environment b) : a = b := by
  have hname : ∀ {name : String}, validCephClusterName name = true →
      (environment name).toList.map nameChar = name.toList := by
    intro name hvalid
    rw [environment, String.toList_ofList, List.map_map, List.map_map]
    calc name.toList.map (nameChar ∘ (fun c => if c = '-' then '_' else c) ∘ Char.toUpper)
        = name.toList.map id := List.map_congr_left fun c hc =>
          nameChar_environmentChar (validCephClusterName_chars hvalid c hc)
      _ = name.toList := List.map_id _
  have hlist : a.toList = b.toList := by rw [← hname ha, ← hname hb, h]
  exact String.toList_injective hlist

/-- A variable of a user name tells the name. -/
theorem usernameEnv_injective {a b : String} (h : usernameEnv a = usernameEnv b) :
    environment a = environment b := by
  have hlist := congrArg String.toList h
  simp only [usernameEnv, String.toList_append, List.append_assoc, List.append_cancel_left_eq,
    List.append_cancel_right_eq] at hlist
  exact String.toList_injective hlist

/-- So does that of a password. -/
theorem passwordEnv_injective {a b : String} (h : passwordEnv a = passwordEnv b) :
    environment a = environment b := by
  have hlist := congrArg String.toList h
  simp only [passwordEnv, String.toList_append, List.append_assoc, List.append_cancel_left_eq,
    List.append_cancel_right_eq] at hlist
  exact String.toList_injective hlist

/-- A variable of a user name is none of a password. -/
theorem usernameEnv_ne_passwordEnv (a b : String) : usernameEnv a ≠ passwordEnv b := by
  intro h
  have hlast := congrArg (fun s => s.toList.getLast?) h
  simp only [usernameEnv, passwordEnv, String.toList_append, List.getLast?_append] at hlast
  exact absurd hlast (by simp)

end Config
