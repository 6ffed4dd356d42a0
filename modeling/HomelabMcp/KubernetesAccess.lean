import HomelabMcp.KubernetesActions
import HomelabMcp.KubernetesSelectors
import HomelabMcp.Rbac

/-!
# Access to the clusters

The deployment gives the server an identity in every cluster, with rules for what it reads there and
rules for its commands.  What it reads it asks for with raw paths.

* `attributes_objectPath`: how the API reads the path of a kind.
* `reads_match_rules`: the paths are allowed, and what is allowed is asked for.

The rules for commands are left out: what kubectl asks for in a command is not said by its
arguments.
-/

namespace Kubernetes

open Interaction Rbac
open Json (Value)
open Text (Bytes)

/-- A rule for some resources of a group. -/
def resourceRule (group : String) (resources verbs : List String) : PolicyRule :=
  ⟨[group], resources, [], verbs⟩

/-- The paths that may be read as they are. -/
def kubernetesReadUrls : List String := [
  "/api", "/apis", "/version", "/api/v1", "/apis/apps/v1", "/apis/autoscaling/v2",
  "/apis/batch/v1", "/apis/ceph.rook.io/v1", "/apis/cert-manager.io/v1",
  "/apis/discovery.k8s.io/v1", "/apis/events.k8s.io/v1", "/apis/gateway.networking.k8s.io/v1",
  "/apis/kafka.strimzi.io/v1beta2", "/apis/metrics.k8s.io/v1beta1", "/apis/networking.k8s.io/v1",
  "/apis/policy/v1", "/apis/postgresql.cnpg.io/v1", "/apis/storage.k8s.io/v1",
  "/apis/velero.io/v1"]

/-- The rules that the deployment grants for reading. -/
def kubernetesReadRules : List PolicyRule := [
  ⟨[], [], kubernetesReadUrls, ["get"]⟩,
  resourceRule "" ["namespaces", "nodes", "pods", "services", "persistentvolumeclaims"]
    ["get", "list"],
  resourceRule "" ["pods/log"] ["get"],
  resourceRule "events.k8s.io" ["events"] ["get", "list"],
  resourceRule "apps" ["deployments", "statefulsets", "daemonsets", "replicasets"] ["get", "list"],
  resourceRule "batch" ["jobs", "cronjobs"] ["get", "list"],
  resourceRule "metrics.k8s.io" ["pods", "nodes"] ["get", "list"],
  resourceRule "discovery.k8s.io" ["endpointslices"] ["get", "list"],
  resourceRule "networking.k8s.io" ["ingresses", "networkpolicies"] ["get", "list"],
  resourceRule "gateway.networking.k8s.io" ["gatewayclasses", "gateways", "httproutes"]
    ["get", "list"],
  resourceRule "autoscaling" ["horizontalpodautoscalers"] ["get", "list"],
  resourceRule "policy" ["poddisruptionbudgets"] ["get", "list"],
  resourceRule "storage.k8s.io" ["storageclasses"] ["get", "list"],
  resourceRule "cert-manager.io" ["certificates", "clusterissuers"] ["get", "list"],
  resourceRule "postgresql.cnpg.io" ["clusters"] ["get", "list"],
  resourceRule "kafka.strimzi.io" ["kafkas", "kafkanodepools", "kafkatopics"] ["get", "list"],
  resourceRule "ceph.rook.io" ["cephclusters", "cephfilesystems", "cephblockpools",
    "cephobjectstores"] ["get", "list"],
  resourceRule "velero.io" ["backups", "schedules", "backupstoragelocations"] ["get", "list"]]

/-- The group of a kind. -/
def ResourceKind.apiGroup : ResourceKind → String
  | .namespace | .node | .pod | .service | .persistentVolumeClaim => ""
  | .deployment | .statefulSet | .daemonSet | .replicaSet => "apps"
  | .job | .cronJob => "batch"
  | .event => "events.k8s.io"
  | .podMetric | .nodeMetric => "metrics.k8s.io"
  | .endpointSlice => "discovery.k8s.io"
  | .ingress | .networkPolicy => "networking.k8s.io"
  | .gateway | .gatewayClass | .httpRoute => "gateway.networking.k8s.io"
  | .storageClass => "storage.k8s.io"
  | .horizontalPodAutoscaler => "autoscaling"
  | .podDisruptionBudget => "policy"
  | .certificate | .clusterIssuer => "cert-manager.io"
  | .cnpgCluster => "postgresql.cnpg.io"
  | .kafka | .kafkaNodePool | .kafkaTopic => "kafka.strimzi.io"
  | .cephCluster | .cephFilesystem | .cephBlockPool | .cephObjectStore => "ceph.rook.io"
  | .veleroBackup | .veleroSchedule | .backupStorageLocation => "velero.io"

/-- The name of the resource in the API. -/
abbrev ResourceKind.plural (kind : ResourceKind) : String := kind.mapping.2.2

/-- The parts of the path of a group. -/
def ResourceKind.apiParts (kind : ResourceKind) : List String :=
  kind.mapping.1 :: Text.split kind.mapping.2.1 '/'

/-- Where the rules have a kind: the place of the rule, and the place in its resources. -/
def ResourceKind.place : ResourceKind → Nat × Nat
  | .namespace => (1, 0) | .node => (1, 1) | .pod => (1, 2) | .service => (1, 3)
  | .persistentVolumeClaim => (1, 4)
  | .event => (3, 0)
  | .deployment => (4, 0) | .statefulSet => (4, 1) | .daemonSet => (4, 2) | .replicaSet => (4, 3)
  | .job => (5, 0) | .cronJob => (5, 1)
  | .podMetric => (6, 0) | .nodeMetric => (6, 1)
  | .endpointSlice => (7, 0)
  | .ingress => (8, 0) | .networkPolicy => (8, 1)
  | .gatewayClass => (9, 0) | .gateway => (9, 1) | .httpRoute => (9, 2)
  | .horizontalPodAutoscaler => (10, 0)
  | .podDisruptionBudget => (11, 0)
  | .storageClass => (12, 0)
  | .certificate => (13, 0) | .clusterIssuer => (13, 1)
  | .cnpgCluster => (14, 0)
  | .kafka => (15, 0) | .kafkaNodePool => (15, 1) | .kafkaTopic => (15, 2)
  | .cephCluster => (16, 0) | .cephFilesystem => (16, 1) | .cephBlockPool => (16, 2)
  | .cephObjectStore => (16, 3)
  | .veleroBackup => (17, 0) | .veleroSchedule => (17, 1) | .backupStorageLocation => (17, 2)

/-- Every kind has its place in the rules. -/
theorem ResourceKind.rule (kind : ResourceKind) : ∃ resources,
    kubernetesReadRules[kind.place.1]? =
      some (resourceRule kind.apiGroup resources ["get", "list"]) ∧
      resources[kind.place.2]? = some kind.plural := by
  cases kind <;> exact ⟨_, rfl, rfl⟩

/-- Splitting a string is splitting its characters. -/
theorem split_ofList {cs : List Char} {pieces : List (List Char)}
    (h : Text.pieces (· == '/') cs = pieces) :
    Text.split (String.ofList cs) '/' = pieces.map String.ofList := by
  rw [Text.split, String.toList_ofList, h]

/-- A text without slash, question mark and percent sign is a part of a path. -/
theorem part_ofList {cs : List Char}
    (h : (!cs.isEmpty && cs.all fun c => c != '/' && c != '?' && c != '%') = true) :
    Part (String.ofList cs) := by
  simp only [Bool.and_eq_true, List.all_eq_true, bne_iff_ne] at h
  rw [← String.toList_ofList (l := cs)] at h
  refine ⟨fun hnil => ?_, fun hc => (h.2 _ hc).1.1 rfl, fun hc => (h.2 _ hc).1.2 rfl,
    fun hc => (h.2 _ hc).2 rfl⟩
  simp [hnil] at h

/-- A kind is of the core group, or of a named one. -/
theorem ResourceKind.apiParts_cases (kind : ResourceKind) :
    (kind.apiParts = ["api", "v1"] ∧ kind.apiGroup = "") ∨
      ∃ version, kind.apiParts = ["apis", kind.apiGroup, version] ∧ Part kind.apiGroup ∧
        Part version := by
  cases kind <;> first
    | exact Or.inl ⟨congrArg _ ((split_ofList rfl).trans rfl), rfl⟩
    | exact Or.inr ⟨_, congrArg _ ((split_ofList rfl).trans rfl), part_ofList rfl, part_ofList rfl⟩

/-- Every resource of the rules is a log or one of the kinds. -/
theorem ResourceKind.of_rule : ∀ rule ∈ kubernetesReadRules, ∀ resource ∈ rule.resources,
    (rule = resourceRule "" ["pods/log"] ["get"] ∧ resource = "pods/log") ∨
      ∃ kind : ResourceKind, rule.apiGroups = [kind.apiGroup] ∧ resource = kind.plural ∧
        rule.verbs = ["get", "list"] := by
  intro rule hrule resource hresource
  -- One goal for each resource of each rule, in their order.
  fin_cases hrule <;> fin_cases hresource
  exacts [Or.inr ⟨.namespace, rfl, rfl, rfl⟩, Or.inr ⟨.node, rfl, rfl, rfl⟩,
    Or.inr ⟨.pod, rfl, rfl, rfl⟩, Or.inr ⟨.service, rfl, rfl, rfl⟩,
    Or.inr ⟨.persistentVolumeClaim, rfl, rfl, rfl⟩, Or.inl ⟨rfl, rfl⟩,
    Or.inr ⟨.event, rfl, rfl, rfl⟩, Or.inr ⟨.deployment, rfl, rfl, rfl⟩,
    Or.inr ⟨.statefulSet, rfl, rfl, rfl⟩, Or.inr ⟨.daemonSet, rfl, rfl, rfl⟩,
    Or.inr ⟨.replicaSet, rfl, rfl, rfl⟩, Or.inr ⟨.job, rfl, rfl, rfl⟩,
    Or.inr ⟨.cronJob, rfl, rfl, rfl⟩, Or.inr ⟨.podMetric, rfl, rfl, rfl⟩,
    Or.inr ⟨.nodeMetric, rfl, rfl, rfl⟩, Or.inr ⟨.endpointSlice, rfl, rfl, rfl⟩,
    Or.inr ⟨.ingress, rfl, rfl, rfl⟩, Or.inr ⟨.networkPolicy, rfl, rfl, rfl⟩,
    Or.inr ⟨.gatewayClass, rfl, rfl, rfl⟩, Or.inr ⟨.gateway, rfl, rfl, rfl⟩,
    Or.inr ⟨.httpRoute, rfl, rfl, rfl⟩, Or.inr ⟨.horizontalPodAutoscaler, rfl, rfl, rfl⟩,
    Or.inr ⟨.podDisruptionBudget, rfl, rfl, rfl⟩, Or.inr ⟨.storageClass, rfl, rfl, rfl⟩,
    Or.inr ⟨.certificate, rfl, rfl, rfl⟩, Or.inr ⟨.clusterIssuer, rfl, rfl, rfl⟩,
    Or.inr ⟨.cnpgCluster, rfl, rfl, rfl⟩, Or.inr ⟨.kafka, rfl, rfl, rfl⟩,
    Or.inr ⟨.kafkaNodePool, rfl, rfl, rfl⟩, Or.inr ⟨.kafkaTopic, rfl, rfl, rfl⟩,
    Or.inr ⟨.cephCluster, rfl, rfl, rfl⟩, Or.inr ⟨.cephFilesystem, rfl, rfl, rfl⟩,
    Or.inr ⟨.cephBlockPool, rfl, rfl, rfl⟩, Or.inr ⟨.cephObjectStore, rfl, rfl, rfl⟩,
    Or.inr ⟨.veleroBackup, rfl, rfl, rfl⟩, Or.inr ⟨.veleroSchedule, rfl, rfl, rfl⟩,
    Or.inr ⟨.backupStorageLocation, rfl, rfl, rfl⟩]

/-- A name is a part of a path. -/
theorem part_of_nameChars {text : String} (hne : text.toList ≠ [])
    (h : ∀ c ∈ text.toList, isNameChar c = true) : Part text := by
  refine ⟨hne, fun hc => ?_, fun hc => ?_, fun hc => ?_⟩
  · exact absurd (h _ hc) (by decide)
  · exact absurd (h _ hc) (by decide)
  · exact absurd (h _ hc) (by decide)

/-- So is the name of an object. -/
theorem part_of_validObjectName {name : String} (h : validObjectName name = true) :
    Part name := by
  obtain ⟨-, hlabels⟩ := validDnsSubdomain_iff.mp h
  apply part_of_nameChars
  · intro hnil
    have hlabel := hlabels [] (by simp [hnil, labels, Text.pieces])
    exact absurd hlabel.head (by simp)
  · exact nameChar_of_labels hlabels

/-- So is a namespace. -/
theorem part_of_validNamespace {ns : String} (h : validNamespace ns = true) : Part ns := by
  have hlabel : Label ns.toList := by
    apply (label_iff ns.toList).mp
    rwa [String.ofList_toList]
  apply part_of_nameChars
  · intro hnil
    have hhead := hlabel.head
    simp [hnil] at hhead
  · intro c hc
    rw [isNameChar, hlabel.chars c hc, Bool.true_or]

/-- So is the plural of a kind. -/
theorem ResourceKind.part_plural (kind : ResourceKind) : Part kind.plural := by
  cases kind <;> exact part_ofList rfl

/-- So is each part in front of it. -/
theorem ResourceKind.part_apiParts (kind : ResourceKind) : ∀ part ∈ kind.apiParts, Part part := by
  rcases kind.apiParts_cases with ⟨hparts, -⟩ | ⟨version, hparts, hgroup, hversion⟩
  · rw [hparts]
    simp only [List.forall_mem_cons]
    exact ⟨part_ofList rfl, part_ofList rfl, by simp⟩
  · rw [hparts]
    simp only [List.forall_mem_cons]
    exact ⟨part_ofList rfl, hgroup, hversion, by simp⟩

/-- A word that is none of these is not special. -/
theorem special_ofList {cs : List Char}
    (h : ([['p', 'r', 'o', 'x', 'y'], ['w', 'a', 't', 'c', 'h'], ['s', 't', 'a', 't', 'u', 's'],
      ['f', 'i', 'n', 'a', 'l', 'i', 'z', 'e']].contains cs) = false) :
    isSpecialVerb (String.ofList cs) = false ∧
      isNamespaceSubresource (String.ofList cs) = false := by
  simp only [List.contains_cons, Bool.or_eq_false_iff, beq_eq_false_iff_ne] at h
  obtain ⟨hproxy, hwatch, hstatus, hfinalize, -⟩ := h
  have hne {a : List Char} (hcs : cs ≠ a) : String.ofList cs ≠ String.ofList a :=
    fun heq => hcs (String.ofList_injective heq)
  simp only [isSpecialVerb, isNamespaceSubresource, Bool.or_eq_false_iff, decide_eq_false_iff_not]
  exact ⟨⟨hne hproxy, hne hwatch⟩, hne hstatus, hne hfinalize⟩

/-- No kind is named like a verb or a subresource. -/
theorem ResourceKind.plain (kind : ResourceKind) : isSpecialVerb kind.plural = false ∧
    isNamespaceSubresource kind.plural = false := by
  cases kind <;> exact special_ofList rfl

/-- The parts of a path for a namespace. -/
def nsParts (namespaced : Bool) (ns : Option String) : List String :=
  if namespaced then ns.elim [] fun ns => ["namespaces", ns] else []

/-- The parts of a path from the group on. -/
def scopeParts (kind : ResourceKind) (ns name : Option String) : List String :=
  nsParts kind.namespaced ns ++ kind.plural :: name.toList

/-- The namespace has two parts, or none. -/
theorem nsParts_cases (namespaced : Bool) (ns : Option String) :
    nsParts namespaced ns = [] ∨ ∃ n ∈ ns, nsParts namespaced ns = ["namespaces", n] := by
  cases namespaced with
  | false => exact Or.inl rfl
  | true =>
      cases ns with
      | none => exact Or.inl rfl
      | some n => exact Or.inr ⟨n, rfl, rfl⟩

/-- Parts one after another. -/
theorem joined_append (a b : List String) : joined (a ++ b) = joined a ++ joined b := by
  induction a with
  | nil => rfl
  | cons part rest ih => simp [joined, ih]

/-- Splitting at the slashes and joining is the identity. -/
theorem joined_split (text : String) : joined (Text.split text '/') = '/' :: text.toList := by
  have hjoined (pieces : List (List Char)) (hne : pieces ≠ []) :
      joined (pieces.map String.ofList) = '/' :: ['/'].intercalate pieces := by
    induction pieces with
    | nil => exact absurd rfl hne
    | cons piece rest ih =>
        cases rest with
        | nil => simp [joined]
        | cons next rest =>
            have hrest := ih (List.cons_ne_nil _ _)
            rw [List.map_cons, joined, hrest, List.intercalate_cons_cons]
            simp
  rw [Text.split, hjoined _ (Text.pieces_ne_nil _ _), Text.intercalate_pieces]

/-- The path of an object is made of its parts. -/
theorem toList_objectPath {kind : ResourceKind} {ns name : Option String} {path : String}
    (h : objectPath kind ns name = .ok path) :
    path.toList = joined (kind.apiParts ++ scopeParts kind ns name) := by
  have hslash : "/".toList = ['/'] := rfl
  have hnamespaces : "/namespaces/".toList = joined ["namespaces"] ++ ['/'] := rfl
  rw [joined_append, ResourceKind.apiParts, joined, joined_split, scopeParts, joined_append,
    ResourceKind.plural]
  unfold objectPath at h
  split_ifs at h
  generalize kind.mapping = mapping at h ⊢
  generalize kind.namespaced = namespaced at h ⊢
  obtain ⟨start, version, resource⟩ := mapping
  obtain rfl := Except.ok.inj h
  cases namespaced <;> cases ns <;> cases name <;>
    simp [nsParts, hslash, hnamespaces, joined]

/-- The names of a query that may be in a path. -/
structure Named (ns name : Option String) : Prop where
  ns : ∀ n ∈ ns, Part n
  name : ∀ n ∈ name, Part n

/-- All of them are parts. -/
theorem part_scopeParts {kind : ResourceKind} {ns name : Option String} (h : Named ns name) :
    ∀ part ∈ kind.apiParts ++ scopeParts kind ns name, Part part := by
  intro part hpart
  rcases List.mem_append.mp hpart with hapi | hscope
  · exact kind.part_apiParts part hapi
  · rcases List.mem_append.mp hscope with hns | hobject
    · rcases nsParts_cases kind.namespaced ns with hnone | ⟨n, hn, hsome⟩
      · rw [hnone] at hns
        cases hns
      · rw [hsome] at hns
        rcases List.mem_cons.mp hns with rfl | hlast
        · exact part_ofList rfl
        · rw [List.mem_singleton.mp hlast]
          exact h.ns n hn
    · rcases List.mem_cons.mp hobject with rfl | hname
      · exact kind.part_plural
      · exact h.name part (Option.mem_toList.mp hname)

/-- The path of a URL ends at its query. -/
theorem pathOf_of_toList {url : String} {path rest : List Char} (hpath : '?' ∉ path)
    (h : url.toList = path ++ rest) (hrest : rest = [] ∨ ∃ query, rest = '?' :: query) :
    pathOf url = path := by
  have hall : ∀ c ∈ path, (c != '?') = true := by
    intro c hc
    rw [bne_iff_ne]
    intro heq
    exact hpath (heq ▸ hc)
  rw [pathOf, h, List.takeWhile_append_of_pos hall]
  rcases hrest with rfl | ⟨query, rfl⟩ <;> simp

/-- A path with its parameters, if there are any. -/
theorem joins_objectPath {kind : ResourceKind} {ns name : Option String} {path url : String}
    {rest : List Char} (hnamed : Named ns name) (h : objectPath kind ns name = .ok path)
    (hurl : url.toList = path.toList ++ rest) (hrest : rest = [] ∨ ∃ query, rest = '?' :: query) :
    Joins url (kind.apiParts ++ scopeParts kind ns name) := by
  have hparts := @part_scopeParts kind ns name hnamed
  refine ⟨hparts, ?_⟩
  apply pathOf_of_toList (question_joined hparts) _ hrest
  rw [hurl, toList_objectPath h]

/-- A name that is a part asks to get. -/
theorem verbOf_get {name : String} (h : Part name) : verbOf "get" (some name) = "get" := by
  apply if_neg
  rintro ⟨-, hempty⟩
  have hname : name = "" := hempty
  exact h.nonempty (by simp [hname])

/-- The parts from the group on say which resource it is. -/
theorem inGroup_scopeParts {kind : ResourceKind} {ns name : Option String} (hnamed : Named ns name)
    {part : String} {rest : List String} (h : scopeParts kind ns name = part :: rest)
    (group : String) : ∃ scope, inGroup "get" group part rest =
      .resource (if name.isSome then "get" else "list") group kind.plural none scope name := by
  obtain ⟨hspecial, hsub⟩ := kind.plain
  have hnot : isSpecialVerb "namespaces" = false := (special_ofList rfl).1
  have hlist : verbOf "get" none = "list" := rfl
  rw [scopeParts] at h
  rcases nsParts_cases kind.namespaced ns with hnone | ⟨n, -, hsome⟩
  · rw [hnone, List.nil_append] at h
    obtain ⟨rfl, rfl⟩ := List.cons.inj h
    rw [inGroup, hspecial, if_neg Bool.false_ne_true]
    cases name with
    | none => exact ⟨none, by simp [scopeOf, resourceAttributes, hlist]⟩
    | some m =>
        have hget := verbOf_get (hnamed.name m rfl)
        by_cases hns : kind.plural = "namespaces"
        · exact ⟨some m, by simp [scopeOf, resourceAttributes, hns, hget]⟩
        · exact ⟨none, by simp [scopeOf, resourceAttributes, hns, hget]⟩
  · rw [hsome] at h
    obtain ⟨rfl, rfl⟩ := List.cons.inj h
    rw [inGroup, hnot, if_neg Bool.false_ne_true]
    cases name with
    | none => exact ⟨some n, by simp [scopeOf, resourceAttributes, hsub, hlist]⟩
    | some m =>
        have hget := verbOf_get (hnamed.name m rfl)
        exact ⟨some n, by simp [scopeOf, resourceAttributes, hsub, hget]⟩

/-- **A path of a kind is read as that kind.** -/
theorem attributes_objectPath {kind : ResourceKind} {ns name : Option String} {path url : String}
    {rest : List Char} (hnamed : Named ns name) (h : objectPath kind ns name = .ok path)
    (hurl : url.toList = path.toList ++ rest) (hrest : rest = [] ∨ ∃ query, rest = '?' :: query) :
    ∃ scope, attributes "get" url =
      .resource (if name.isSome then "get" else "list") kind.apiGroup kind.plural none scope
        name := by
  have hjoins := joins_objectPath hnamed h hurl hrest
  obtain ⟨part, more, hparts⟩ : ∃ part more, scopeParts kind ns name = part :: more := by
    cases hscope : scopeParts kind ns name with
    | nil => simp [scopeParts] at hscope
    | cons part more => exact ⟨part, more, rfl⟩
  rw [hparts] at hjoins
  rcases kind.apiParts_cases with ⟨hapi, hgroup⟩ | ⟨version, hapi, -, -⟩
  · rw [hapi] at hjoins
    rw [hjoins.attributes_api, hgroup]
    exact inGroup_scopeParts hnamed hparts ""
  · rw [hapi] at hjoins
    rw [hjoins.attributes_apis]
    exact inGroup_scopeParts hnamed hparts kind.apiGroup

/-- A run of kubectl that reads what the rules allow. -/
def Granted (run : Run) : Prop :=
  ∃ path, run = rawRun path .query ∧ Allowed kubernetesReadRules (attributes "get" path)

/-- The request at the path of an object is granted. -/
theorem granted_objectPath {kind : ResourceKind} {ns name : Option String} {path url : String}
    {rest : List Char} (hnamed : Named ns name) (h : objectPath kind ns name = .ok path)
    (hurl : url.toList = path.toList ++ rest) (hrest : rest = [] ∨ ∃ query, rest = '?' :: query) :
    Granted (rawRun url .query) := by
  obtain ⟨scope, hattributes⟩ := attributes_objectPath hnamed h hurl hrest
  obtain ⟨resources, hrule, hresource⟩ := kind.rule
  refine ⟨url, rfl, ?_⟩
  rw [hattributes]
  apply Allowed.of_mem (List.mem_of_getElem? hrule)
  apply PolicyRule.allows_resource
  · cases name with
    | none => exact List.mem_cons_of_mem _ List.mem_cons_self
    | some n => exact List.mem_cons_self
  · exact List.mem_cons_self
  · exact List.mem_of_getElem? hresource

/-- A valid query has valid names. -/
theorem named_of_isValid {query : ResourceQuery} (h : query.isValid = true) :
    Named query.ns query.name := by
  simp only [ResourceQuery.isValid, Bool.and_eq_true, Option.all_eq_true] at h
  obtain ⟨⟨⟨⟨⟨⟨hns, hname⟩, -⟩, -⟩, -⟩, -⟩, -⟩ := h
  exact ⟨fun n hn => part_of_validNamespace (hns n hn),
    fun n hn => part_of_validObjectName (hname n hn)⟩

/-- A raw read runs one command. -/
theorem rawCancelled_only {P : Run → Prop} {path : String} (h : P (rawRun path .query)) :
    (rawCancelled path .query).run.Only P :=
  only_run_bind (only_ask h) fun _ => only_answer _

/-- Getting an object asks only for what is granted. -/
theorem getCancelled_granted (parser : Bytes → Option Value) {query : ResourceQuery} {name : String}
    (hnamed : Named query.ns (some name)) : (getCancelled parser query name).run.Only Granted := by
  apply only_answer_bind
  intro path hpath
  apply only_run_bind
  · apply rawCancelled_only
    exact granted_objectPath hnamed hpath (List.append_nil _).symm (Or.inl rfl)
  · intro bytes
    apply only_run_bind (only_answer _)
    intro value
    apply only_run_bind (only_answer _)
    intro found
    exact only_run_bind (only_ensure _ _) fun _ => trivial

/-- Every request of a list is for a page. -/
theorem listFrom_only (parser : Bytes → Option Value) (base : String)
    (labels : List (String × String)) (left : Nat) (items : List Value)
    (continuation : Option String) (seen : List String) :
    (listFrom parser base labels left items continuation seen).run.Only fun run =>
      ∃ requested continuation,
        run = rawRun (listPath base labels requested continuation) .query := by
  induction left generalizing items continuation seen with
  | zero => trivial
  | succ left ih =>
      unfold listFrom
      split_ifs with hfull
      · trivial
      · refine only_run_bind ?_ fun bytes => only_run_bind (only_answer _) fun wrapper =>
          only_run_bind (only_answer _) fun found => ?_
        · exact only_run_bind (only_ask ⟨_, _, rfl⟩) fun result => only_answer _
        · obtain ⟨page, next⟩ := found
          cases next with
          | none => trivial
          | some token => exact only_run_bind (only_ensure _ _) fun _ => ih _ _ _

/-- So does a listing, on each of its pages. -/
theorem listCancelled_granted (parser : Bytes → Option Value) {query : ResourceQuery}
    (hnamed : Named query.ns none) : (listCancelled parser query).run.Only Granted := by
  apply only_answer_bind
  intro base hbase
  apply only_run_bind
  · apply Program.Only.mono (listFrom_only parser base query.labels maxPages [] none [])
    intro run hrun
    obtain ⟨requested, continuation, rfl⟩ := hrun
    exact granted_objectPath hnamed hbase (toList_listPath _ _ _ _) (Or.inr ⟨_, rfl⟩)
  · intro listing
    exact only_run_bind (only_answer _) fun _ => trivial

/-- So does a query. -/
theorem queryCancelled_granted (parser : Bytes → Option Value) (query : ResourceQuery) :
    (queryCancelled parser query).run.Only Granted := by
  apply only_ensure_bind
  intro hvalid
  have hnamed := named_of_isValid hvalid
  cases hname : query.name with
  | some name =>
      rw [hname] at hnamed
      exact only_run_bind (getCancelled_granted parser hnamed) fun _ => trivial
  | none =>
      rw [hname] at hnamed
      exact only_run_bind (listCancelled_granted parser hnamed) fun _ => trivial

/-- The parts of the path of a log. -/
def logParts (query : PodLogsQuery) : List String :=
  ["api", "v1", "namespaces", query.ns, "pods", query.pod, "log"]

/-- The path of a log is made of its parts, with a query. -/
theorem toList_podLogPath (query : PodLogsQuery) :
    ∃ rest, (podLogPath query).toList = joined (logParts query) ++ '?' :: rest := by
  have hstart : "/api/v1/namespaces/".toList = joined ["api", "v1", "namespaces"] ++ ['/'] := rfl
  have hpods : "/pods/".toList = joined ["pods"] ++ ['/'] := rfl
  have hlog : "/log?container=".toList = joined ["log"] ++ '?' :: "container=".toList := rfl
  have hbegin : ∃ rest, ("/api/v1/namespaces/" ++ query.ns ++ "/pods/" ++ query.pod ++
      "/log?container=").toList = joined (logParts query) ++ '?' :: rest := by
    refine ⟨"container=".toList, ?_⟩
    simp [hstart, hpods, hlog, logParts, joined]
  have hmore {text : String} (more : String)
      (h : ∃ rest, text.toList = joined (logParts query) ++ '?' :: rest) :
      ∃ rest, (text ++ more).toList = joined (logParts query) ++ '?' :: rest := by
    obtain ⟨rest, hrest⟩ := h
    refine ⟨rest ++ more.toList, ?_⟩
    rw [String.toList_append, hrest, List.append_assoc, List.cons_append]
  have hcurrent := hmore "&timestamps=true" (hmore (toString query.maxBytes.toNat)
    (hmore "&limitBytes=" (hmore (toString query.tailLines.toNat) (hmore "&tailLines="
      (hmore query.container hbegin)))))
  rw [podLogPath]
  split_ifs
  · exact hmore "&previous=true" hcurrent
  · exact hcurrent

/-- It asks for the log of a pod. -/
theorem attributes_podLogPath {query : PodLogsQuery} (h : query.isValid = true) :
    attributes "get" (podLogPath query) =
      .resource "get" "" "pods" (some "log") (some query.ns) (some query.pod) := by
  simp only [PodLogsQuery.isValid, Bool.and_eq_true] at h
  obtain ⟨⟨⟨⟨⟨hns, hpod⟩, -⟩, -⟩, -⟩, -⟩ := h
  have hpart := part_of_validObjectName hpod
  have hparts : ∀ part ∈ logParts query, Part part := by
    simp only [logParts, List.forall_mem_cons]
    exact ⟨part_ofList rfl, part_ofList rfl, part_ofList rfl, part_of_validNamespace hns,
      part_ofList rfl, hpart, part_ofList rfl, by simp⟩
  obtain ⟨rest, hpath⟩ := toList_podLogPath query
  have hjoins : Joins (podLogPath query) (logParts query) :=
    ⟨hparts, pathOf_of_toList (question_joined hparts) hpath (Or.inr ⟨rest, rfl⟩)⟩
  have hnot : isSpecialVerb "namespaces" = false := (special_ofList rfl).1
  have hpods : isNamespaceSubresource "pods" = false := (special_ofList rfl).2
  rw [hjoins.attributes_api, inGroup, hnot, if_neg Bool.false_ne_true]
  simp [scopeOf, resourceAttributes, hpods, verbOf_get hpart]

/-- Reading a log asks only for what is granted. -/
theorem podLogsCancelled_granted (client : KubernetesClient) (parser : Bytes → Option Value)
    (query : PodLogsQuery) : (client.podLogsCancelled parser query).run.Only Granted := by
  apply only_ensure_bind
  intro hvalid
  have hlog : Granted (rawRun (podLogPath query) .query) := by
    refine ⟨_, rfl, ?_⟩
    rw [attributes_podLogPath hvalid]
    have hrule : kubernetesReadRules[2]? = some (resourceRule "" ["pods/log"] ["get"]) := rfl
    apply Allowed.of_mem (List.mem_of_getElem? hrule)
    exact PolicyRule.allows_resource List.mem_cons_self List.mem_cons_self List.mem_cons_self
  simp only [PodLogsQuery.isValid, Bool.and_eq_true] at hvalid
  obtain ⟨⟨⟨⟨⟨hns, hpod⟩, -⟩, -⟩, -⟩, -⟩ := hvalid
  have hnamed : Named (some query.ns) (some query.pod) := by
    constructor
    · intro n hn
      rw [← Option.mem_some.mp hn]
      exact part_of_validNamespace hns
    · intro n hn
      rw [← Option.mem_some.mp hn]
      exact part_of_validObjectName hpod
  apply only_answer_bind
  intro path hpath
  have hpodRun : Granted (rawRun path .query) :=
    granted_objectPath hnamed hpath (List.append_nil _).symm (Or.inl rfl)
  apply only_run_bind (rawCancelled_only hpodRun)
  intro first
  apply only_run_bind (only_answer _)
  intro pod
  apply only_run_bind (only_ensure _ _)
  intro _
  apply only_run_bind (rawCancelled_only hlog)
  intro bytes
  apply only_run_bind (rawCancelled_only hpodRun)
  intro last
  apply only_run_bind (only_answer _)
  intro again
  exact only_run_bind (only_ensure _ _) fun _ => trivial

/-- The path of the group of a kind. -/
def ResourceKind.groupPath (kind : ResourceKind) : String :=
  "/" ++ kind.mapping.1 ++ "/" ++ kind.mapping.2.1

/-- The path of a group is made of its parts. -/
theorem toList_groupPath (kind : ResourceKind) : kind.groupPath.toList = joined kind.apiParts := by
  rw [ResourceKind.apiParts, joined, joined_split, ResourceKind.groupPath]
  simp

/-- Where the paths of the groups are among those that may be read. -/
def ResourceKind.groupPlace : ResourceKind → Nat
  | .namespace | .node | .pod | .service | .persistentVolumeClaim => 3
  | .deployment | .statefulSet | .daemonSet | .replicaSet => 4
  | .horizontalPodAutoscaler => 5
  | .job | .cronJob => 6
  | .cephCluster | .cephFilesystem | .cephBlockPool | .cephObjectStore => 7
  | .certificate | .clusterIssuer => 8
  | .endpointSlice => 9
  | .event => 10
  | .gateway | .gatewayClass | .httpRoute => 11
  | .kafka | .kafkaNodePool | .kafkaTopic => 12
  | .podMetric | .nodeMetric => 13
  | .ingress | .networkPolicy => 14
  | .podDisruptionBudget => 15
  | .cnpgCluster => 16
  | .storageClass => 17
  | .veleroBackup | .veleroSchedule | .backupStorageLocation => 18

/-- It stands in the rules. -/
theorem ResourceKind.groupPath_place (kind : ResourceKind) :
    ∃ rule ∈ kubernetesReadRules, rule.verbs = ["get"] ∧
      rule.nonResourceURLs[kind.groupPlace]? = some kind.groupPath := by
  refine ⟨_, List.mem_cons_self, rfl, ?_⟩
  cases kind <;> rfl

/-- It asks for no resource. -/
theorem attributes_groupPath (kind : ResourceKind) :
    attributes "get" kind.groupPath = .nonResource "get" kind.groupPath := by
  have hjoins : Joins kind.groupPath kind.apiParts := by
    refine ⟨kind.part_apiParts, ?_⟩
    apply pathOf_of_toList (question_joined kind.part_apiParts) _ (Or.inl rfl)
    rw [toList_groupPath, List.append_nil]
  have htext : String.ofList (joined kind.apiParts) = kind.groupPath := by
    rw [← toList_groupPath, String.ofList_toList]
  rw [← htext] at hjoins ⊢
  rcases kind.apiParts_cases with ⟨hparts, -⟩ | ⟨version, hparts, -, -⟩
  · rw [hparts] at hjoins ⊢
    exact hjoins.attributes_short (by decide)
  · rw [hparts] at hjoins ⊢
    exact hjoins.attributes_group

/-- Discovery runs one command. -/
theorem discover_only {P : Run → Prop} {parser : Bytes → Option Value} {path version : String}
    (h : P (rawRun path .query)) : (discover parser path version).run.Only P := by
  apply only_run_bind (only_attempt (rawCancelled_only h))
  intro result
  cases result with
  | ok bytes => exact only_run_bind (only_answer _) fun _ => trivial
  | error e => cases e <;> trivial

/-- And that command is granted. -/
theorem granted_groupPath (kind : ResourceKind) : Granted (rawRun kind.groupPath .query) := by
  obtain ⟨rule, hrule, hverbs, hplace⟩ := kind.groupPath_place
  refine ⟨_, rfl, ?_⟩
  rw [attributes_groupPath]
  apply Allowed.of_mem hrule
  refine ⟨Or.inl ?_, kind.groupPath, List.mem_of_getElem? hplace, Or.inl rfl⟩
  rw [hverbs]
  exact List.mem_cons_self

/-- So are those of the whole loop. -/
theorem capabilitiesFrom_granted (parser : Bytes → Option Value) (kinds : List ResourceKind)
    (endpoints : Endpoints) : (capabilitiesFrom parser kinds endpoints).run.Only Granted := by
  induction kinds generalizing endpoints with
  | nil => trivial
  | cons kind kinds ih =>
      have hgroup := granted_groupPath kind
      rw [ResourceKind.groupPath] at hgroup
      unfold capabilitiesFrom
      generalize kind.mapping = mapping at hgroup ⊢
      obtain ⟨start, version, resourceName⟩ := mapping
      dsimp only
      split
      · apply only_run_bind
        · trivial
        · intro known
          exact only_run_bind (ih known) fun _ => trivial
      · apply only_run_bind (discover_only hgroup)
        intro resources
        apply only_run_bind
        · trivial
        · intro known
          exact only_run_bind (ih known) fun _ => trivial

/-- And those of the call. -/
theorem capabilitiesCancelled_granted (parser : Bytes → Option Value) (query : CapabilitiesQuery) :
    (capabilitiesCancelled parser query).run.Only Granted := by
  apply only_ensure_bind
  intro hvalid
  apply only_run_bind (capabilitiesFrom_granted parser query.kinds [])
  intro rest
  trivial

/-- A text without a star. -/
theorem starless_ofList {cs : List Char} (h : cs.contains '*' = false) :
    '*' ∉ (String.ofList cs).toList := by
  intro hmem
  rw [String.toList_ofList] at hmem
  simp [hmem] at h

/-- No rule has a star. -/
theorem plain_of_mem {rule : PolicyRule} (h : rule ∈ kubernetesReadRules) : rule.Plain := by
  fin_cases h <;> constructor <;> intro text htext <;> fin_cases htext <;>
    exact starless_ofList rfl

/-- The query for the objects of a kind, or for one of them. -/
def sampleQuery (kind : ResourceKind) (name : Option String) : ResourceQuery :=
  ⟨kind, if kind.namespaced then some "a" else none, name, [], 1⟩

/-- The query of one object of each kind is valid. -/
theorem sampleQuery_isValid (kind : ResourceKind) {name : Option String}
    (h : name.all validObjectName = true) : (sampleQuery kind name).isValid = true := by
  have hns : validNamespace "a" = true := by decide
  cases hnamespaced : kind.namespaced <;>
    simp [ResourceQuery.isValid, sampleQuery, hnamespaced, h, hns, maxSelectors]

/-- It has a path. -/
theorem objectPath_sampleQuery (kind : ResourceKind) (name : Option String) :
    ∃ path, objectPath kind (sampleQuery kind name).ns name = .ok path := by
  unfold objectPath
  rw [if_neg]
  · exact ⟨_, rfl⟩
  · cases hnamespaced : kind.namespaced <;> simp [sampleQuery, hnamespaced]

/-- With some answers, the server asks for this. -/
def Asked (client : KubernetesClient) (run : Run) : Prop :=
  ∃ parser, (∃ query, (queryCancelled parser query).run.Asks (· = run)) ∨
    (∃ query, (client.podLogsCancelled parser query).run.Asks (· = run)) ∨
    ∃ query, (capabilitiesCancelled parser query).run.Asks (· = run)

/-- A raw read comes to its command. -/
theorem rawCancelled_asks (path : String) :
    (rawCancelled path .query).run.Asks (· = rawRun path .query) := asks_run_bind (asks_ask rfl)

/-- Some call gets an object of each kind. -/
theorem get_asked (client : KubernetesClient) (kind : ResourceKind) :
    ∃ path scope, attributes "get" path =
      .resource "get" kind.apiGroup kind.plural none scope (some "a") ∧
        Asked client (rawRun path .query) := by
  have hvalid := @sampleQuery_isValid kind (some "a") (by decide)
  obtain ⟨path, hpath⟩ := objectPath_sampleQuery kind (some "a")
  obtain ⟨scope, hattributes⟩ := attributes_objectPath (named_of_isValid hvalid) hpath
    (List.append_nil _).symm (Or.inl rfl)
  refine ⟨path, scope, hattributes, fun _ => none, Or.inl ⟨sampleQuery kind (some "a"), ?_⟩⟩
  apply asks_ensure_bind hvalid
  apply asks_run_bind
  exact asks_answer_bind hpath (asks_run_bind (rawCancelled_asks path))

/-- Some call lists each kind. -/
theorem list_asked (client : KubernetesClient) (kind : ResourceKind) :
    ∃ path scope, attributes "get" path =
      .resource "list" kind.apiGroup kind.plural none scope none ∧
        Asked client (rawRun path .query) := by
  have hvalid := @sampleQuery_isValid kind none rfl
  obtain ⟨base, hbase⟩ := objectPath_sampleQuery kind none
  obtain ⟨scope, hattributes⟩ := attributes_objectPath (named_of_isValid hvalid) hbase
    (toList_listPath base [] 100 none) (Or.inr ⟨_, rfl⟩)
  refine ⟨_, scope, hattributes, fun _ => none, Or.inl ⟨sampleQuery kind none, ?_⟩⟩
  apply asks_ensure_bind hvalid
  apply asks_run_bind
  apply asks_answer_bind hbase
  exact asks_run_bind (asks_run_bind (rawCancelled_asks (listPath base [] 100 none)))

/-- Some call reads a log. -/
theorem log_asked (client : KubernetesClient) :
    Asked client (rawRun (podLogPath sampleLogsQuery) .query) := by
  have hvalid : sampleLogsQuery.isValid = true := by decide
  obtain ⟨path, hpath⟩ : ∃ path, objectPath .pod (some "a") (some "a") = .ok path := ⟨_, rfl⟩
  have hpod : podMatchesLogQuery samplePodValue sampleLogsQuery = true := by decide
  refine ⟨fun _ => some samplePodValue, Or.inr (Or.inl ⟨sampleLogsQuery, ?_⟩)⟩
  apply asks_ensure_bind hvalid
  apply asks_answer_bind hpath
  -- Any answer will do, for every one is read as the pod of the sample.
  refine Or.inr ⟨.ok ⟨samplePod⟩, ?_⟩
  dsimp only [Except.map]
  apply asks_answer_bind rfl
  apply asks_ensure_bind hpod
  exact asks_run_bind (rawCancelled_asks _)

/-- Some call discovers each group. -/
theorem group_asked (client : KubernetesClient) (kind : ResourceKind) :
    Asked client (rawRun kind.groupPath .query) := by
  refine ⟨fun _ => none, Or.inr (Or.inr ⟨⟨[kind]⟩, ?_⟩)⟩
  have hvalid : (CapabilitiesQuery.mk [kind]).isValid = true := by cases kind <;> rfl
  apply asks_ensure_bind hvalid
  apply asks_run_bind
  exact asks_run_bind (asks_run_bind (rawCancelled_asks _))

/-- The paths of the rules are for reading. -/
theorem urls_of_mem {rule : PolicyRule} {path : String} (h : rule ∈ kubernetesReadRules)
    (hpath : path ∈ rule.nonResourceURLs) : rule.verbs = ["get"] ∧ path ∈ kubernetesReadUrls := by
  fin_cases h
  · exact ⟨rfl, hpath⟩
  all_goals cases hpath

/-- They are these three, or the paths of groups. -/
theorem url_cases {path : String} (hpath : path ∈ kubernetesReadUrls) :
    path ∈ ["/api", "/apis", "/version"] ∨ ∃ kind : ResourceKind, path = kind.groupPath := by
  fin_cases hpath
  exacts [Or.inl List.mem_cons_self, Or.inl (List.mem_cons_of_mem _ List.mem_cons_self),
    Or.inl (List.mem_of_getElem? (i := 2) rfl), Or.inr ⟨.pod, rfl⟩, Or.inr ⟨.deployment, rfl⟩,
    Or.inr ⟨.horizontalPodAutoscaler, rfl⟩, Or.inr ⟨.job, rfl⟩, Or.inr ⟨.cephCluster, rfl⟩,
    Or.inr ⟨.certificate, rfl⟩, Or.inr ⟨.endpointSlice, rfl⟩, Or.inr ⟨.event, rfl⟩,
    Or.inr ⟨.gateway, rfl⟩, Or.inr ⟨.kafka, rfl⟩, Or.inr ⟨.podMetric, rfl⟩,
    Or.inr ⟨.ingress, rfl⟩, Or.inr ⟨.podDisruptionBudget, rfl⟩, Or.inr ⟨.cnpgCluster, rfl⟩,
    Or.inr ⟨.storageClass, rfl⟩, Or.inr ⟨.veleroBackup, rfl⟩]

/-- Only the log of a pod is named so. -/
theorem combined_eq_log {resource : String} {subresource : Option String}
    (hslash : '/' ∉ resource.toList) (h : combined resource subresource = "pods/log") :
    resource = "pods" ∧ subresource = some "log" := by
  cases subresource with
  | none =>
      have hresource : resource = "pods/log" := h
      rw [hresource] at hslash
      exact absurd (by decide) hslash
  | some s =>
      have htext : resource.toList ++ '/' :: s.toList = "pods".toList ++ '/' :: "log".toList := by
        have htext := congrArg String.toList h
        simpa [combined] using htext
      have hsplit := Text.splitOnce_append hslash s.toList
      rw [htext, Text.splitOnce_append (by decide)] at hsplit
      obtain ⟨hpods, hlog⟩ := Prod.mk.inj (Option.some.inj hsplit)
      exact ⟨(String.toList_inj.mp hpods).symm, congrArg some (String.toList_inj.mp hlog).symm⟩

/-- The plural of a kind has no subresource. -/
theorem combined_eq_plural {resource : String} {subresource : Option String}
    {kind : ResourceKind} (h : combined resource subresource = kind.plural) :
    resource = kind.plural ∧ subresource = none := by
  cases subresource with
  | none => exact ⟨h, rfl⟩
  | some s =>
      apply absurd _ kind.part_plural.slash
      rw [← h]
      simp [combined]

/-- What the rules allow for a resource, the server asks for. -/
theorem resource_asked (client : KubernetesClient) {verb group resource : String}
    {subresource ns name : Option String} (hslash : '/' ∉ resource.toList)
    (h : Allowed kubernetesReadRules (.resource verb group resource subresource ns name)) :
    ∃ path ns' name', attributes "get" path =
      .resource verb group resource subresource ns' name' ∧ Asked client (rawRun path .query) := by
  obtain ⟨rule, hrule, hallows⟩ := h
  obtain ⟨hverb, hgroup, hresource⟩ := (plain_of_mem hrule).allows_iff.mp hallows
  rcases ResourceKind.of_rule rule hrule _ hresource with
    ⟨rfl, hlog⟩ | ⟨kind, hgroups, hkind, hverbs⟩
  · obtain ⟨rfl, rfl⟩ := combined_eq_log hslash hlog
    obtain rfl := List.mem_singleton.mp hverb
    obtain rfl := List.mem_singleton.mp hgroup
    have hread := @attributes_podLogPath sampleLogsQuery (by decide)
    exact ⟨_, _, _, hread, log_asked client⟩
  · obtain ⟨rfl, rfl⟩ := combined_eq_plural hkind
    rw [hgroups] at hgroup
    obtain rfl := List.mem_singleton.mp hgroup
    rw [hverbs] at hverb
    rcases List.mem_cons.mp hverb with rfl | hlist
    · obtain ⟨path, scope, hread, hasked⟩ := get_asked client kind
      exact ⟨path, scope, _, hread, hasked⟩
    · obtain rfl := List.mem_singleton.mp hlist
      obtain ⟨path, scope, hread, hasked⟩ := list_asked client kind
      exact ⟨path, scope, _, hread, hasked⟩

/-- A path that is allowed is one of the three, or some call asks for it. -/
theorem path_asked (client : KubernetesClient) {verb path : String}
    (h : Allowed kubernetesReadRules (.nonResource verb path)) :
    verb = "get" ∧ (path ∈ ["/api", "/apis", "/version"] ∨
      attributes "get" path = .nonResource "get" path ∧ Asked client (rawRun path .query)) := by
  obtain ⟨rule, hrule, hallows⟩ := h
  obtain ⟨hverb, hurl⟩ := (plain_of_mem hrule).allows_path_iff.mp hallows
  obtain ⟨hverbs, hpath⟩ := urls_of_mem hrule hurl
  rw [hverbs] at hverb
  refine ⟨List.mem_singleton.mp hverb, ?_⟩
  rcases url_cases hpath with hplain | ⟨kind, rfl⟩
  · exact Or.inl hplain
  · exact Or.inr ⟨attributes_groupPath kind, group_asked client kind⟩

/-- **The server reads what its role allows, and nothing is allowed in vain.**  Whatever a cluster
answers, the paths that the server asks for are allowed by the rules.  What the rules allow for a
resource is asked for by some query, and so is each path that they allow but for three. -/
theorem reads_match_rules (client : KubernetesClient) (parser : Bytes → Option Value) :
    (∀ query, (queryCancelled parser query).run.Only Granted) ∧
    (∀ query, (client.podLogsCancelled parser query).run.Only Granted) ∧
    (∀ query, (capabilitiesCancelled parser query).run.Only Granted) ∧
    (∀ verb group resource subresource ns name, '/' ∉ resource.toList →
      Allowed kubernetesReadRules (.resource verb group resource subresource ns name) →
        ∃ path ns' name', attributes "get" path =
          .resource verb group resource subresource ns' name' ∧
            Asked client (rawRun path .query)) ∧
    ∀ verb path, Allowed kubernetesReadRules (.nonResource verb path) →
      verb = "get" ∧ (path ∈ ["/api", "/apis", "/version"] ∨
        attributes "get" path = .nonResource "get" path ∧ Asked client (rawRun path .query)) :=
  ⟨queryCancelled_granted parser, podLogsCancelled_granted client parser,
    capabilitiesCancelled_granted parser,
    fun _ _ _ _ _ _ hslash => resource_asked client hslash,
    fun _ _ => path_asked client⟩

end Kubernetes
