import HomelabMcp.CephClient
import HomelabMcp.ClusterConfig
import HomelabMcp.KubernetesPodLogs
import Mathlib.Data.List.Sort

/-!
# The catalogs that the configuration builds

At start-up the server builds a client for each cluster that its configuration accepts, and two
catalogs of them.  Names, paths, contexts, origins, credentials and counts are checked again by the
constructors.

* `accepted_constructs`: no constructor refuses what the configuration has accepted, and two Ceph
  clusters share no variable.
-/

namespace Kubernetes

open Config (KubernetesIntegrationConfig KubernetesClusterConfig)
open Json (Value)
open Text (Bytes)

/-- The largest catalog. -/
def maxClusters : Nat := 32

/-- `KubernetesConfig::new`, with the defaults of the limits. -/
def KubernetesConfig.new (kubectlExecutable kubeconfig cacheDir context clusterName : String) :
    KubernetesConfig where
  kubectlExecutable := kubectlExecutable
  kubeconfig := kubeconfig
  cacheDir := cacheDir
  context := context
  clusterName := clusterName
  deadline := 30000000000
  redactions := []

/-- `with_redactions`. -/
def KubernetesConfig.withRedactions (config : KubernetesConfig) (redactions : List String) :
    KubernetesConfig := { config with redactions := redactions }

/-- The clients in the order of their names. -/
structure KubernetesCatalog where
  clients : List (String × KubernetesClient)

section Catalog

variable (parseYaml : Bytes → Option Value) (readFile : String → Option Bytes)

/-- The clients of the configurations, beside those that are there. -/
def KubernetesCatalog.insertAll (clients : List (String × KubernetesClient)) :
    List KubernetesConfig → Except String KubernetesCatalog
  | [] => .ok ⟨clients⟩
  | config :: configs => do
      let client ← KubernetesClient.new parseYaml (readFile config.kubeconfig) config
      if (clients.map Prod.fst).contains config.clusterName then
        throw "duplicate Kubernetes cluster name"
      insertAll (clients.orderedInsert (fun a b => a.1 ≤ b.1) (config.clusterName, client)) configs

/-- `KubernetesCatalog::new`. -/
def KubernetesCatalog.new (configs : List KubernetesConfig) : Except String KubernetesCatalog :=
  if configs.isEmpty || configs.length > maxClusters then
    .error "invalid Kubernetes cluster catalog"
  else KubernetesCatalog.insertAll parseYaml readFile [] configs

/-- What `Services::production` makes of a cluster. -/
def clusterConfig (config : KubernetesIntegrationConfig) (redactions : List String)
    (cluster : KubernetesClusterConfig) : KubernetesConfig :=
  (KubernetesConfig.new config.kubectlPath cluster.kubeconfig cluster.cacheDir cluster.context
    cluster.name).withRedactions redactions

/-- The catalog of `Services::production`. -/
def productionCatalog (config : KubernetesIntegrationConfig) (redactions : List String) :
    Except String KubernetesCatalog :=
  KubernetesCatalog.new parseYaml readFile (config.clusters.map (clusterConfig config redactions))

end Catalog

/-- A path that the configuration accepts is absolute. -/
theorem isAbsolute_of_safe {path : String} (h : Config.safeAbsolutePath path = true) :
    isAbsolute path = true := by
  simp only [Config.safeAbsolutePath, Bool.and_eq_true] at h
  exact h.1.2

/-- A name that it accepts is one of the catalog's. -/
theorem validCatalogName_of_identifier {name : String}
    (h : Config.validKubernetesIdentifier name false = true) : validCatalogName name = true := by
  simpa [Config.validKubernetesIdentifier, validCatalogName, validIdentifier] using h

/-- A context that it accepts is one of the runner's. -/
theorem validContext_of_identifier {context : String}
    (h : Config.validKubernetesIdentifier context true = true) : validContext context = true := by
  simp only [Config.validKubernetesIdentifier, validContext, Bool.and_eq_true] at h ⊢
  refine ⟨h.1, ?_⟩
  rw [List.all_eq_true] at h ⊢
  intro c hc
  have hchar := h.2 c hc
  simp only [Char.isAlphanum, Char.isAlpha, Char.isUpper, Char.isLower, Char.isDigit,
    Bool.or_eq_true, Bool.and_eq_true, decide_eq_true_eq, beq_iff_eq, true_and] at hchar ⊢
  simp only [Char.le_def]
  tauto

/-- A runner is built of such paths and such a context. -/
theorem Runner.new_ok {executable kubeconfig cacheDir context : String} {deadline : Nat}
    (hexecutable : isAbsolute executable = true) (hkubeconfig : isAbsolute kubeconfig = true)
    (hcacheDir : isAbsolute cacheDir = true) (hcontext : validContext context = true)
    (hdeadline : 2000000 ≤ deadline ∧ deadline ≤ 30000000000) :
    ∃ runner, Runner.new executable kubeconfig cacheDir context deadline = .ok runner := by
  unfold Runner.new
  rw [if_neg (by simp [hexecutable, hkubeconfig, hcacheDir]), dif_pos ⟨hcontext, hdeadline⟩]
  exact ⟨_, rfl⟩

section Accepted

variable {parseYaml : Bytes → Option Value} {readFile : String → Option Bytes}
  {config : KubernetesIntegrationConfig} {redactions : List String}

/-- A client is built of a valid cluster, whatever its file says. -/
theorem KubernetesClient.new_ok {cluster : KubernetesClusterConfig} {file : Option Bytes}
    (hkubectl : Config.safeAbsolutePath config.kubectlPath = true) (hcluster : cluster.Valid) :
    ∃ client, KubernetesClient.new parseYaml file (clusterConfig config redactions cluster) =
      .ok client := by
  have hdeadline : 2000000 ≤ 30000000000 ∧ 30000000000 ≤ 30000000000 := by omega
  obtain ⟨runner, hrunner⟩ := Runner.new_ok (isAbsolute_of_safe hkubectl)
    (isAbsolute_of_safe hcluster.kubeconfig) (isAbsolute_of_safe hcluster.cacheDir)
    (validContext_of_identifier hcluster.context) hdeadline
  have hname : validCatalogName (clusterConfig config redactions cluster).clusterName = true :=
    validCatalogName_of_identifier hcluster.name
  unfold KubernetesClient.new
  rw [if_neg (by simp [hname])]
  exact ⟨_, Interaction.bind_eq_ok.mpr ⟨runner, hrunner, rfl⟩⟩

/-- Valid clusters of new names are inserted. -/
theorem KubernetesCatalog.insertAll_ok {clients : List (String × KubernetesClient)}
    {clusters : List KubernetesClusterConfig}
    (hkubectl : Config.safeAbsolutePath config.kubectlPath = true)
    (hclusters : ∀ cluster ∈ clusters, cluster.Valid ∧ cluster.name ∉ clients.map Prod.fst)
    (hnodup : (clusters.map KubernetesClusterConfig.name).Nodup) :
    ∃ catalog, KubernetesCatalog.insertAll parseYaml readFile clients
      (clusters.map (clusterConfig config redactions)) = .ok catalog := by
  induction clusters generalizing clients with
  | nil => exact ⟨⟨clients⟩, rfl⟩
  | cons cluster clusters ih =>
      obtain ⟨⟨hvalid, hnew⟩, hrest⟩ := List.forall_mem_cons.mp hclusters
      rw [List.map_cons, List.nodup_cons] at hnodup
      obtain ⟨client, hclient⟩ : ∃ client, KubernetesClient.new parseYaml
          (readFile cluster.kubeconfig) (clusterConfig config redactions cluster) = .ok client :=
        KubernetesClient.new_ok hkubectl hvalid
      have hinserted : ∀ c ∈ clusters, c.Valid ∧ c.name ∉ (clients.orderedInsert
          (fun a b => a.1 ≤ b.1) (cluster.name, client)).map Prod.fst := by
        intro c hc
        refine ⟨(hrest c hc).1, fun hmem => ?_⟩
        obtain ⟨entry, hentry, hname⟩ := List.mem_map.mp hmem
        rcases List.mem_orderedInsert _ |>.mp hentry with rfl | hold
        · exact hnodup.1 (List.mem_map.mpr ⟨c, hc, hname.symm⟩)
        · exact (hrest c hc).2 (List.mem_map.mpr ⟨entry, hold, hname⟩)
      obtain ⟨catalog, hcatalog⟩ := ih hinserted hnodup.2
      refine ⟨catalog, Interaction.bind_eq_ok.mpr ⟨client, hclient, ?_⟩⟩
      have hfresh : ¬ (clients.map Prod.fst).contains cluster.name = true := by
        simpa using hnew
      exact (if_neg hfresh).trans hcatalog

/-- An accepted configuration of Kubernetes yields its catalog. -/
theorem productionCatalog_ok (h : Config.validateKubernetesConfig config = .ok ()) :
    ∃ catalog, productionCatalog parseYaml readFile config redactions = .ok catalog := by
  obtain ⟨hkubectl, hne, hcount, hvalid, hnodup⟩ := Config.accepted_kubernetes.mp h
  unfold productionCatalog KubernetesCatalog.new
  rw [if_neg (by simp [hne, maxClusters, hcount])]
  exact KubernetesCatalog.insertAll_ok hkubectl
    (fun cluster hcluster => ⟨hvalid cluster hcluster, List.not_mem_nil⟩) hnodup

end Accepted

end Kubernetes

namespace Ceph

open Config (CephClusterConfig)
open Json (Value)
open Whatwg (UrlRecord)

/-- The largest catalog of Ceph. -/
def maxClusters : Nat := 32

/-- The names of the catalog of Ceph. -/
def validCluster (value : String) : Bool :=
  !value.isEmpty && value.utf8ByteSize ≤ 63 &&
    value.toList.all (fun c => Config.isAsciiLowercase c || c.isDigit || c == '-') &&
    value.toList.head?.any Char.isAlphanum && value.toList.getLast?.any Char.isAlphanum

/-- `validate_origin`. -/
def validateOrigin (origin : UrlRecord) (allowHttp : Bool) : Except String Unit :=
  if (!allowHttp ∧ origin.scheme ≠ "https") ∨
      (allowHttp ∧ origin.scheme ≠ "http" ∧ origin.scheme ≠ "https") ∨ origin.host = none ∨
      origin.username ≠ "" ∨ origin.passwordStr ≠ none ∨ origin.query ≠ none ∨
      origin.fragment ≠ none ∨ origin.path ≠ "/" then
    .error "invalid Ceph Dashboard origin"
  else .ok ()

section Catalog

variable (http : Except String Unit)

/-- `http` is what building the HTTP client gives. -/
def CephClient.new (origin : UrlRecord) (username password : String) : Except String CephClient := do
  validateOrigin origin false
  if username.isEmpty || password.isEmpty then
    throw "Ceph Dashboard credentials must not be empty"
  http.mapError fun _ => "failed to initialize Ceph Dashboard client"
  return ⟨username, password⟩

/-- The clients of the entries, beside those that are there. -/
def CephCatalog.insertAll (clients : List (String × CephClient)) :
    List (String × CephClient) → Except String CephCatalog
  | [] => .ok ⟨clients⟩
  | (name, client) :: entries =>
      if !validCluster name then .error "invalid Ceph cluster name"
      else if clients.length ≥ maxClusters then .error "too many Ceph clusters"
      else if (clients.map Prod.fst).contains name then .error "duplicate Ceph cluster name"
      else insertAll (clients.orderedInsert (fun a b => a.1 ≤ b.1) (name, client)) entries

/-- `CephCatalog::new`. -/
def CephCatalog.new (entries : List (String × CephClient)) : Except String CephCatalog :=
  CephCatalog.insertAll [] entries

/-- The entry that `Services::production` makes of a cluster. -/
def clusterEntry (cluster : CephClusterConfig) : Except String (String × CephClient) := do
  let client ← CephClient.new http cluster.origin cluster.username cluster.password
  return (cluster.name, client)

/-- The catalog of `Services::production`. -/
def productionCatalog (clusters : List CephClusterConfig) : Except String CephCatalog := do
  let entries ← clusters.mapM (clusterEntry http)
  CephCatalog.new entries

end Catalog

/-- An origin that the configuration accepts is one of the client's. -/
theorem validateOrigin_ok {origin : UrlRecord} (h : Config.IsOrigin origin) :
    validateOrigin origin false = .ok () := by
  have hpassword := UrlRecord.passwordStr_eq_none.mpr h.password
  unfold validateOrigin
  rw [if_neg]
  simp [h.scheme, h.host, h.username, hpassword, h.query, h.fragment, h.path]

/-- A credential that is read is not empty. -/
theorem filled_ne_empty {credential : String → Option String} {name value : String}
    (h : Config.filled credential name = .ok value) : value.isEmpty = false := by
  unfold Config.filled at h
  split at h
  · next found hfound =>
      split at h
      · cases h
      · next hblank =>
          cases h
          by_contra hempty
          have hvalue : value = "" := by simpa using hempty
          subst hvalue
          exact hblank rfl
  · cases h

section Accepted

variable {parseUrl : String → Option UrlRecord} {credential : String → Option String}
  {http : Except String Unit}

/-- An entry is built of a cluster that was read. -/
theorem clusterEntry_ok {raw : Config.RawCephClusterConfig} {cluster : CephClusterConfig}
    (hhttp : http = .ok ()) (h : Config.Reads parseUrl credential raw cluster) :
    ∃ client, clusterEntry http cluster = .ok (cluster.name, client) := by
  have husername := filled_ne_empty h.username
  have hpassword := filled_ne_empty h.password
  have hnew : CephClient.new http cluster.origin cluster.username cluster.password =
      .ok ⟨cluster.username, cluster.password⟩ := by
    unfold CephClient.new
    rw [validateOrigin_ok h.origin.2, husername, hpassword, hhttp]
    rfl
  exact ⟨_, Interaction.bind_eq_ok.mpr ⟨_, hnew, rfl⟩⟩

/-- The entries of clusters that were read, in their order. -/
theorem entries_ok {raw : List Config.RawCephClusterConfig} {clusters : List CephClusterConfig}
    (hhttp : http = .ok ()) (h : List.Forall₂ (Config.Reads parseUrl credential) raw clusters) :
    ∃ entries, clusters.mapM (clusterEntry http) = .ok entries ∧
      entries.map Prod.fst = raw.map Config.RawCephClusterConfig.name := by
  induction h with
  | nil => exact ⟨[], rfl, rfl⟩
  | @cons _ cluster _ _ hreads _ ih =>
      obtain ⟨client, hclient⟩ := clusterEntry_ok hhttp hreads
      obtain ⟨entries, hentries, hnames⟩ := ih
      refine ⟨(cluster.name, client) :: entries, ?_, ?_⟩
      · rw [List.mapM_cons]
        exact Interaction.bind_eq_ok.mpr
          ⟨_, hclient, Interaction.bind_eq_ok.mpr ⟨_, hentries, rfl⟩⟩
      · rw [List.map_cons, List.map_cons, hnames, hreads.same_name]

/-- Entries of new names are inserted. -/
theorem CephCatalog.insertAll_ok {clients entries : List (String × CephClient)}
    (hvalid : ∀ entry ∈ entries, validCluster entry.1 = true ∧ entry.1 ∉ clients.map Prod.fst)
    (hnodup : (entries.map Prod.fst).Nodup)
    (hcount : clients.length + entries.length ≤ maxClusters) :
    ∃ catalog, CephCatalog.insertAll clients entries = .ok catalog := by
  induction entries generalizing clients with
  | nil => exact ⟨⟨clients⟩, rfl⟩
  | cons entry entries ih =>
      obtain ⟨name, client⟩ := entry
      obtain ⟨⟨hname, hnew⟩, hrest⟩ := List.forall_mem_cons.mp hvalid
      rw [List.map_cons, List.nodup_cons] at hnodup
      rw [List.length_cons] at hcount
      have hinserted : ∀ e ∈ entries, validCluster e.1 = true ∧
          e.1 ∉ (clients.orderedInsert (fun a b => a.1 ≤ b.1) (name, client)).map Prod.fst := by
        intro e he
        refine ⟨(hrest e he).1, fun hmem => ?_⟩
        obtain ⟨old, hold, heq⟩ := List.mem_map.mp hmem
        rcases List.mem_orderedInsert _ |>.mp hold with rfl | hold
        · exact hnodup.1 (List.mem_map.mpr ⟨e, he, heq.symm⟩)
        · exact (hrest e he).2 (List.mem_map.mpr ⟨old, hold, heq⟩)
      rw [CephCatalog.insertAll, if_neg (by simp [hname]), if_neg (by omega),
        if_neg (by simpa using hnew)]
      exact ih hinserted hnodup.2 (by rw [List.orderedInsert_length]; omega)

/-- An accepted configuration of Ceph yields its catalog. -/
theorem productionCatalog_ok {readJson : String → Option Value} {value : Option String}
    {clusters : List CephClusterConfig} (hhttp : http = .ok ())
    (h : Config.parseCephClusters parseUrl credential readJson value = .ok clusters) :
    ∃ catalog, productionCatalog http clusters = .ok catalog := by
  obtain ⟨raw, hcount, hreads, hnodup⟩ := Config.accepted_ceph h
  obtain ⟨entries, hentries, hnames⟩ := entries_ok hhttp hreads
  have hvalid : ∀ entry ∈ entries, validCluster entry.1 = true ∧ entry.1 ∉ ([] : List String) := by
    intro entry hentry
    have hname : entry.1 ∈ raw.map Config.RawCephClusterConfig.name := by
      rw [← hnames]
      exact List.mem_map_of_mem hentry
    obtain ⟨cluster, hcluster, heq⟩ := List.mem_map.mp hname
    rw [← heq]
    exact ⟨Config.names_valid hreads cluster hcluster, List.not_mem_nil⟩
  have hlength : entries.length = raw.length := by
    simpa using congrArg List.length hnames
  rw [← hnames] at hnodup
  have hroom : ([] : List (String × CephClient)).length + entries.length ≤ maxClusters := by
    rw [List.length_nil, Nat.zero_add, hlength]
    exact hcount
  obtain ⟨catalog, hcatalog⟩ := CephCatalog.insertAll_ok hvalid hnodup hroom
  exact ⟨catalog, Interaction.bind_eq_ok.mpr ⟨entries, hentries, hcatalog⟩⟩

end Accepted

end Ceph

namespace Config

open Json (Value)
open Text (Bytes)
open Whatwg (UrlRecord)

/-- **What is accepted is constructed.**  No constructor that `Services::production` calls refuses a
Kubernetes or a Ceph configuration that was accepted, and the accepted names of two Ceph clusters
derive four different variables. -/
theorem accepted_constructs (parseUrl : String → Option UrlRecord)
    (readJson : String → Option Value) (parseYaml : Bytes → Option Value)
    (readFile : String → Option Bytes) :
    (∀ config redactions, validateKubernetesConfig config = .ok () →
      ∃ catalog, Kubernetes.productionCatalog parseYaml readFile config redactions = .ok catalog) ∧
    (∀ credential value clusters,
      parseCephClusters parseUrl credential readJson value = .ok clusters →
      ∃ catalog, Ceph.productionCatalog (.ok ()) clusters = .ok catalog) ∧
    (∀ credential value clusters credential' value' clusters',
      parseCephClusters parseUrl credential readJson value = .ok clusters →
      parseCephClusters parseUrl credential' readJson value' = .ok clusters' →
      ∀ a ∈ clusters, ∀ b ∈ clusters', a.name ≠ b.name →
        [usernameEnv a.name, passwordEnv a.name, usernameEnv b.name, passwordEnv b.name].Nodup) := by
  refine ⟨fun config redactions h => Kubernetes.productionCatalog_ok h,
    fun credential value clusters h => Ceph.productionCatalog_ok rfl h, ?_⟩
  intro credential value clusters credential' value' clusters' h h' a ha b hb hne
  have henvironment : environment a.name ≠ environment b.name := fun heq =>
    hne (environment_injective (accepted_name h a ha) (accepted_name h' b hb) heq)
  have husername : usernameEnv a.name ≠ usernameEnv b.name := fun heq =>
    henvironment (usernameEnv_injective heq)
  have hpassword : passwordEnv a.name ≠ passwordEnv b.name := fun heq =>
    henvironment (passwordEnv_injective heq)
  have hcross := usernameEnv_ne_passwordEnv
  simp [husername, hpassword, hcross, (hcross _ _).symm]

/-- One Kubernetes cluster. -/
def sampleKubernetes : KubernetesIntegrationConfig where
  kubectlPath := "/usr/local/bin/kubectl"
  clusters := [⟨"pantheon", "/run/kubeconfig", "pantheon", "/tmp/kubectl/pantheon"⟩]

/-- The origin of a dashboard. -/
def sampleOrigin : UrlRecord where
  scheme := "https"
  username := ""
  password := ""
  host := some "ceph.example"
  port := none
  path := "/"
  query := none
  fragment := none

/-- The text of a cluster. -/
def sampleCluster (name upper : String) : String :=
  "\x7b\"name\":\"" ++ name ++ "\",\"origin\":\"https://ceph.example\"," ++
    "\"expected_major_release\":19,\"username_env\":\"HOMELAB_MCP_CEPH_" ++ upper ++
    "_USERNAME\",\"password_env\":\"HOMELAB_MCP_CEPH_" ++ upper ++ "_PASSWORD\"\x7d"

/-- A cluster as it is written in the configuration. -/
def sampleValue (name upper : String) : Value := .object [
  ("name", .string name), ("origin", .string "https://ceph.example"),
  ("expected_major_release", .nat 19),
  ("username_env", .string ("HOMELAB_MCP_CEPH_" ++ upper ++ "_USERNAME")),
  ("password_env", .string ("HOMELAB_MCP_CEPH_" ++ upper ++ "_PASSWORD"))]

/-- Two of them. -/
def sampleText : String := "[" ++ sampleCluster "a-b" "A_B" ++ "," ++ sampleCluster "c" "C" ++ "]"

/-- The syntax of the sample. -/
def sampleJson (text : String) : Option Value :=
  if text = sampleText then some (.array [sampleValue "a-b" "A_B", sampleValue "c" "C"]) else none

/-- The parser, on the one URL of these clusters. -/
def sampleUrl (text : String) : Option UrlRecord :=
  if text = "https://ceph.example" then some sampleOrigin else none

/-- What the sample is read to. -/
def sampleClusters : List CephClusterConfig :=
  [⟨"a-b", sampleOrigin, 19, "user", "user"⟩, ⟨"c", sampleOrigin, 19, "user", "user"⟩]

/-- They are read. -/
theorem sampleText_read : parseCephClusters sampleUrl (fun _ => some "user") sampleJson
    (some sampleText) = .ok sampleClusters := by
  decide +kernel

/-- The sample is constructed, and its variables differ. -/
theorem accepted_constructs_sample :
    (∃ catalog, Kubernetes.productionCatalog (fun _ => none) (fun _ => none) sampleKubernetes [] =
      .ok catalog) ∧
    (∃ catalog, Ceph.productionCatalog (.ok ()) sampleClusters = .ok catalog) ∧
    [usernameEnv "a-b", passwordEnv "a-b", usernameEnv "c", passwordEnv "c"].Nodup := by
  have hconstructs := accepted_constructs sampleUrl sampleJson (fun _ => none) (fun _ => none)
  refine ⟨hconstructs.1 _ _ (by decide +kernel), hconstructs.2.1 _ _ _ sampleText_read, ?_⟩
  exact hconstructs.2.2 _ _ _ _ _ _ sampleText_read sampleText_read
    ⟨"a-b", sampleOrigin, 19, "user", "user"⟩ (List.mem_cons_self ..)
    ⟨"c", sampleOrigin, 19, "user", "user"⟩ (by simp [sampleClusters]) (by decide)

end Config
