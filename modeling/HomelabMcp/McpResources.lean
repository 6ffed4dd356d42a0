import HomelabMcp.KubernetesActions
import HomelabMcp.PercentCoding
import HomelabMcp.TextPairs
import HomelabMcp.TextSections

/-!
# Resources and their links

A resource is read by its URI: a route, and a query with an input and a filter.  Two routes end in
an identity, which is bound in the input.  The items of two collections get the URI of what they
name.

* `parseUri_link`, `dispatch_link`: a link is read as the route of its template, and the identity
  that is bound there is the one of the item.
* `links_resolve`: so it is for each link of a collection, of which nothing else is changed.
* `link_replaces_member`: a member with the name of the link is replaced by it.
-/

namespace Grafana

/-- Letters, digits, `_` and `-`, and behind the first one also dots. -/
def validDashboardUid (uid : String) : Bool :=
  1 ≤ uid.utf8ByteSize && uid.utf8ByteSize ≤ 40 &&
    match uid.toList with
    | first :: rest =>
        (first.isAlphanum || ['_', '-'].contains first) &&
          rest.all fun c => c.isAlphanum || ['_', '.', '-'].contains c
    | [] => false

end Grafana

namespace Mcp

open Interaction
open Json (Value)
open WebUrl (percentDecode encodeKeeping)

/-- The errors of the protocol. -/
inductive ServerError where
  | invalidParams (message : String)
  | resourceNotFound (uri : String)
  | internal (message : String)

/-- The crates that read a query. -/
structure Crates where
  /-- `serde_json::from_str`. -/
  readJson : String → Option Value
  /-- `form_urlencoded::parse`. -/
  formPairs : String → List (String × String)

/-- What is documented: an empty query has no parameters. -/
structure Crates.Documented (crates : Crates) : Prop where
  formPairs : crates.formPairs "" = []

/-- The characters that `PATH_SEGMENT` does not encode. -/
def pathSegment (c : Char) : Bool := c.isAlphanum || ['-', '.', '_', '~'].contains c

/-- `Value::is_object`. -/
def isObject (value : Value) : Bool := value.asObject.isSome

section Uri

variable (crates : Crates)

/-- One parameter of the query. -/
def takeParameter (state : Option Value × Option String) (pair : String × String) :
    Except ServerError (Option Value × Option String) := do
  let (input, filter) := state
  let (key, value) := pair
  if key = "input" ∧ input.isNone then
    let value ← okOr (.invalidParams "invalid resource input JSON") (crates.readJson value)
    if !isObject value then .error (.invalidParams "resource input must be an object")
    else pure (some value, filter)
  else if key = "filter" ∧ filter.isNone then pure (input, some value)
  else .error (.invalidParams "unknown or duplicate resource parameter")

/-- The route, the input and the filter. -/
def parseUri (uri : String) : Except ServerError (String × Value × Option String) :=
  if uri.utf8ByteSize > 8192 then .error (.invalidParams "resource URI exceeds 8192 bytes")
  else
    match Text.stripPrefix "homelab://".toList uri.toList with
    | none => .error (.resourceNotFound uri)
    | some rest =>
        if uri.toList.contains '#' then .error (.resourceNotFound uri)
        else do
          let (route, query) := (Text.splitOnce ['?'] rest).getD (rest, [])
          let (input, filter) ←
            (crates.formPairs (String.ofList query)).foldlM (takeParameter crates) (none, none)
          pure (String.ofList route, input.getD (.object []), filter)

end Uri

/-- The tools behind the resources. -/
inductive Method where
  | kubernetesClusters
  | cephClusters
  | listDashboards
  | alertRules
  | recordingRules
  | tektonRepositories
  | tektonWorkflows
  | machineList
  | deployList
  | kubernetesCapabilities
  | getDashboard
  deriving DecidableEq

/-- The routes without a name. -/
def collectionRoutes : List (String × Method) := [
  ("kubernetes/clusters", .kubernetesClusters),
  ("ceph/clusters", .cephClusters),
  ("grafana/dashboards", .listDashboards),
  ("grafana/alert-rules", .alertRules),
  ("grafana/recording-rules", .recordingRules),
  ("tekton/repositories", .tektonRepositories),
  ("tekton/workflows", .tektonWorkflows),
  ("machines", .machineList),
  ("deploys", .deployList)]

/-- Set the identity of the path in the input. -/
def bind (input : Value) (key : String) (encoded : List Char) : Except ServerError Value := do
  let decoded ← okOr (.invalidParams "invalid resource identity")
    (Text.decode (percentDecode encoded))
  if decoded.isEmpty || decoded.toList.contains '/' || (input.get key).isSome then
    .error (.invalidParams "invalid or conflicting resource identity")
  else pure (input.set key (.string decoded))

/-- The action for a route, and its input. -/
def dispatch (uri route : String) (input : Value) : Except ServerError (Method × Value) :=
  match collectionRoutes.lookup route with
  | some method => .ok (method, input)
  | none =>
      match Text.stripPrefix "kubernetes/capabilities/".toList route.toList with
      | some identity => (bind input "cluster" identity).map (Method.kubernetesCapabilities, ·)
      | none =>
          match Text.stripPrefix "grafana/dashboards/".toList route.toList with
          | some identity => (bind input "uid" identity).map (Method.getDashboard, ·)
          | none => .error (.resourceNotFound uri)

/-- A collection whose items get links. -/
structure Collection where
  /-- Where the items are. -/
  path : List String
  identity : String
  field : String
  start : String
  valid : String → Bool

/-- The dashboards: each is linked by its uid. -/
def dashboards : Collection where
  path := ["result"]
  identity := "uid"
  field := "resource_uri"
  start := "homelab://grafana/dashboards/"
  valid := Grafana.validDashboardUid

/-- The clusters: each is linked by its name. -/
def kubernetesClusters : Collection where
  path := ["result", "clusters"]
  identity := "name"
  field := "capabilities_uri"
  start := "homelab://kubernetes/capabilities/"
  valid := fun cluster => (Kubernetes.QueryInput.validate (.capabilityList cluster none)).isOk

/-- The collection of a route, if its items are linked. -/
def collectionOf (route : String) : Option Collection :=
  if route = "grafana/dashboards" then some dashboards
  else if route = "kubernetes/clusters" then some kubernetesClusters
  else none

namespace Collection

variable (collection : Collection)

/-- The link of an identity. -/
def link (identity : String) : String :=
  collection.start ++ String.ofList (encodeKeeping pathSegment identity.toList)

/-- An item with its link, where its identity is valid. -/
def enrichItem (item : Value) : Value :=
  match (item.get collection.identity).bind Value.asStr with
  | some identity =>
      if collection.valid identity then
        item.set collection.field (.string (collection.link identity))
      else item
  | none => item

/-- All of them. -/
def enrichItems : Value → Value
  | .array items => .array (items.map collection.enrichItem)
  | other => other

end Collection

/-- Change the first member of that name. -/
def updateMember (key : String) (change : Value → Value) :
    List (String × Value) → List (String × Value)
  | [] => []
  | (k, v) :: rest =>
      if k = key then (k, change v) :: rest else (k, v) :: updateMember key change rest

/-- Change what is at a path of members. -/
def updateAt : List String → (Value → Value) → Value → Value
  | [], change, value => change value
  | key :: path, change, .object members =>
      .object (updateMember key (updateAt path change) members)
  | _ :: _, _, other => other

/-- The collection of a route with its links. -/
def enrichCollection (route : String) (value : Value) : Value :=
  match collectionOf route with
  | some collection => updateAt collection.path collection.enrichItems value
  | none => value

/-- The action that the links of a collection are for, and the key of the identity in its input. -/
inductive NamedBy : Collection → Method → String → Prop
  | dashboards : NamedBy dashboards .getDashboard "uid"
  | kubernetesClusters : NamedBy kubernetesClusters .kubernetesCapabilities "cluster"

/-- The URI is read without an input and without a filter, its route is one of the action, and the
identity is bound in the input. -/
def Resolves (crates : Crates) (uri : String) (method : Method) (key identity : String) : Prop :=
  ∃ route, parseUri crates uri = .ok (route, .object [], none) ∧
    dispatch uri route (.object []) = .ok (method, .object [(key, .string identity)])

/-- The members of an object but one. -/
def without (key : String) (members : List (String × Value)) : List (String × Value) :=
  members.filter fun member => member.1 ≠ key

/-- An item with a valid identity gets a link that names it, and nothing else of it changes; any
other item stays as it is. -/
inductive ItemLinked (crates : Crates) (collection : Collection) (method : Method) (key : String) :
    Value → Value → Prop
  | linked {members members' : List (String × Value)} {identity uri : String}
      (hidentity : members.lookup collection.identity = some (.string identity))
      (hvalid : collection.valid identity = true)
      (hothers : without collection.field members' = without collection.field members)
      (hlink : members'.lookup collection.field = some (.string uri))
      (hresolves : Resolves crates uri method key identity) :
      ItemLinked crates collection method key (.object members) (.object members')
  | kept {item : Value}
      (h : ∀ identity, item.get collection.identity = some (.string identity) →
        collection.valid identity = false) :
      ItemLinked crates collection method key item item

/-- The items of an array; anything else stays as it is. -/
inductive ItemsLinked (crates : Crates) (collection : Collection) (method : Method)
    (key : String) : Value → Value → Prop
  | items {items items' : List Value}
      (h : List.Forall₂ (ItemLinked crates collection method key) items items') :
      ItemsLinked crates collection method key (.array items) (.array items')
  | kept {value : Value} (h : value.asArray = none) :
      ItemsLinked crates collection method key value value

/-- What is at a path of members is related, and all the rest is the same. -/
inductive At (R : Value → Value → Prop) : List String → Value → Value → Prop
  | here {value value' : Value} (h : R value value') : At R [] value value'
  | member {key : String} {path : List String} {before after : List (String × Value)}
      {value value' : Value} (hfirst : before.lookup key = none) (h : At R path value value') :
      At R (key :: path) (.object (before ++ (key, value) :: after))
        (.object (before ++ (key, value') :: after))
  | absent {key : String} {path : List String} {value : Value} (h : value.get key = none) :
      At R (key :: path) value value

/-- Changing a member that is not there changes nothing. -/
theorem updateMember_absent {key : String} (change : Value → Value)
    {members : List (String × Value)} (h : members.lookup key = none) :
    updateMember key change members = members := by
  induction members with
  | nil => rfl
  | cons member members ih =>
      obtain ⟨k, v⟩ := member
      rw [List.lookup_cons] at h
      by_cases hkey : k = key
      · rw [hkey, beq_self_eq_true] at h
        cases h
      · rw [beq_false_of_ne (Ne.symm hkey)] at h
        rw [updateMember, if_neg hkey, ih h]

/-- Changing one that is there changes it in its place. -/
theorem updateMember_present {key : String} (change : Value → Value)
    {members : List (String × Value)} {value : Value} (h : members.lookup key = some value) :
    ∃ before after, members = before ++ (key, value) :: after ∧ before.lookup key = none ∧
      updateMember key change members = before ++ (key, change value) :: after := by
  induction members with
  | nil => cases h
  | cons member members ih =>
      obtain ⟨k, v⟩ := member
      rw [List.lookup_cons] at h
      by_cases hkey : k = key
      · subst hkey
        rw [beq_self_eq_true] at h
        obtain rfl := Option.some.inj h
        exact ⟨[], members, rfl, rfl, by rw [updateMember, if_pos rfl, List.nil_append]⟩
      · rw [beq_false_of_ne (Ne.symm hkey)] at h
        obtain ⟨before, after, rfl, hbefore, hupdate⟩ := ih h
        refine ⟨(k, v) :: before, after, rfl, ?_, ?_⟩
        · rw [List.lookup_cons, beq_false_of_ne (Ne.symm hkey), hbefore]
        · rw [updateMember, if_neg hkey, hupdate, List.cons_append]

/-- Nothing is changed but what is at the path. -/
theorem updateAt_at {R : Value → Value → Prop} {change : Value → Value}
    (h : ∀ value, R value (change value)) (path : List String) (value : Value) :
    At R path value (updateAt path change value) := by
  induction path generalizing value with
  | nil => exact .here (h value)
  | cons key path ih =>
      cases value with
      | object members =>
          rw [updateAt]
          cases hlookup : members.lookup key with
          | none =>
              rw [updateMember_absent _ hlookup]
              exact .absent hlookup
          | some inner =>
              obtain ⟨before, after, rfl, hbefore, hupdate⟩ :=
                updateMember_present (updateAt path change) hlookup
              rw [hupdate]
              exact .member hbefore (ih inner)
      | _ => exact .absent rfl

/-- Setting a member leaves the others. -/
theorem without_setMember (key : String) (value : Value) (members : List (String × Value)) :
    without key (Value.setMember key value members) = without key members := by
  unfold without
  induction members with
  | nil => simp [Value.setMember]
  | cons member members ih =>
      obtain ⟨k, v⟩ := member
      unfold Value.setMember
      by_cases hless : key < k
      · rw [if_pos hless, List.filter_cons, if_neg (by simp)]
      · rw [if_neg hless]
        by_cases hsame : key = k
        · rw [if_pos hsame, List.filter_cons, List.filter_cons, if_neg (by simp),
            if_neg (by simp [hsame])]
        · rw [if_neg hsame, List.filter_cons, List.filter_cons, ih]

/-- The identities that are accepted stand in a link as they are. -/
structure PlainIdentity (identity : String) : Prop where
  nonempty : identity ≠ ""
  size : identity.utf8ByteSize ≤ 253
  plain : ∀ c ∈ identity.toList, pathSegment c = true

/-- The uid of a dashboard is plain. -/
theorem plain_dashboardUid {uid : String} (h : Grafana.validDashboardUid uid = true) :
    PlainIdentity uid := by
  unfold Grafana.validDashboardUid at h
  rw [Bool.and_eq_true, Bool.and_eq_true, decide_eq_true_eq, decide_eq_true_eq] at h
  obtain ⟨⟨hlow, hhigh⟩, hchars⟩ := h
  refine ⟨?_, by omega, ?_⟩
  · rintro rfl
    exact absurd hlow (by decide)
  · intro c hc
    split at hchars
    · next first rest htext =>
        rw [htext] at hc
        simp only [Bool.and_eq_true, Bool.or_eq_true, List.all_eq_true, List.contains_iff_mem,
          List.mem_cons, List.not_mem_nil, or_false] at hchars
        simp only [pathSegment, Bool.or_eq_true, List.contains_iff_mem, List.mem_cons,
          List.not_mem_nil, or_false]
        rcases List.mem_cons.mp hc with rfl | hrest
        · have hfirst := hchars.1
          tauto
        · have hone := hchars.2 c hrest
          tauto
    · cases hchars

/-- So is the name of a cluster. -/
theorem plain_catalogName {name : String} (h : Kubernetes.validCatalogName name = true) :
    PlainIdentity name := by
  unfold Kubernetes.validCatalogName Kubernetes.validIdentifier at h
  simp only [Bool.and_eq_true, Bool.not_eq_true', decide_eq_true_eq, List.all_eq_true,
    Bool.or_eq_true, beq_iff_eq] at h
  obtain ⟨⟨⟨⟨hnonempty, hsize⟩, -⟩, -⟩, hchars⟩ := h
  refine ⟨?_, hsize, ?_⟩
  · rintro rfl
    cases hnonempty
  · intro c hc
    have hone := hchars c hc
    simp only [pathSegment, Bool.or_eq_true, List.contains_iff_mem, List.mem_cons,
      List.not_mem_nil, or_false]
    tauto

/-- So is the name of a cluster that is queried. -/
theorem plain_cluster {cluster : String}
    (h : (Kubernetes.QueryInput.validate (.capabilityList cluster none)).isOk = true) :
    PlainIdentity cluster := by
  by_cases hname : Kubernetes.validCatalogName cluster = true
  · exact plain_catalogName hname
  · rw [Kubernetes.QueryInput.validate, if_neg hname] at h
    cases h

section Links

variable {crates : Crates}

/-- **A URI without a query** is its route. -/
theorem parseUri_plain (hcrates : crates.Documented) {route : String}
    (hsize : route.utf8ByteSize ≤ 8182)
    (hfree : ∀ c ∈ route.toList, c ≠ '?' ∧ c ≠ '#') :
    parseUri crates ("homelab://" ++ route) = .ok (route, .object [], none) := by
  have hstart : Text.stripPrefix "homelab://".toList ("homelab://" ++ route).toList =
      some route.toList := by
    rw [String.toList_append]
    exact Text.stripPrefix_iff.mpr rfl
  have hfits : ¬ ("homelab://" ++ route).utf8ByteSize > 8192 := by
    have hscheme : "homelab://".utf8ByteSize = 10 := rfl
    rw [String.utf8ByteSize_append]
    omega
  have hquery : Text.splitOnce ['?'] route.toList = none :=
    Text.splitOnce_eq_none fun hmem => (hfree _ hmem).1 rfl
  have hfragment : ("homelab://" ++ route).toList.contains '#' = false := by
    have hscheme : '#' ∉ "homelab://".toList := by decide
    rw [Bool.eq_false_iff, ne_eq, List.contains_iff_mem, String.toList_append, List.mem_append]
    rintro (hmem | hmem)
    · exact hscheme hmem
    · exact (hfree _ hmem).2 rfl
  have hempty : String.ofList [] = "" := rfl
  rw [parseUri, if_neg hfits, hstart]
  dsimp only
  rw [hfragment, hquery, Option.getD_none]
  dsimp only
  rw [hempty, hcrates.formPairs, String.ofList_toList]
  rfl

/-- A plain identity is bound as it is. -/
theorem bind_plain {identity : String} (h : PlainIdentity identity) {key : String} :
    bind (.object []) key identity.toList = .ok (.object [(key, .string identity)]) := by
  have hdecode : Text.decode (percentDecode identity.toList) = some identity := by
    have hround :
        Text.decode (percentDecode (encodeKeeping pathSegment identity.toList)) = some identity :=
      WebUrl.decode_encodeKeeping (by decide) identity
    rwa [WebUrl.encodeKeeping_eq_self h.plain] at hround
  have hslash : identity.toList.contains '/' = false := by
    rw [Bool.eq_false_iff, ne_eq, List.contains_iff_mem]
    intro hmem
    exact absurd (h.plain _ hmem) (by decide)
  have hnonempty : identity.isEmpty = false := by
    rw [Bool.eq_false_iff, ne_eq, String.isEmpty_iff]
    exact h.nonempty
  unfold bind
  rw [hdecode]
  refine bind_eq_ok.mpr ⟨identity, rfl, ?_⟩
  rw [hnonempty, hslash]
  rfl

/-- No collection is behind a slash of a template. -/
theorem lookup_template {template rest : List Char} {route : String}
    (hnone : ∀ entry ∈ collectionRoutes, template.isPrefixOf entry.1.toList = false)
    (hroute : route.toList = template ++ rest) : collectionRoutes.lookup route = none := by
  rw [List.lookup_eq_none_iff]
  intro entry hentry
  rw [bne_iff_ne]
  rintro rfl
  have hfalse := hnone entry hentry
  rw [hroute, Bool.eq_false_iff] at hfalse
  exact hfalse (List.isPrefixOf_iff_prefix.mpr (List.prefix_append template rest))

/-- A link of a cluster is dispatched to its capabilities. -/
theorem dispatch_capabilities {uri identity : String} (h : PlainIdentity identity) :
    dispatch uri ("kubernetes/capabilities/" ++ identity) (.object []) =
      .ok (.kubernetesCapabilities, .object [("cluster", .string identity)]) := by
  have hnone : ∀ entry ∈ collectionRoutes,
      "kubernetes/capabilities/".toList.isPrefixOf entry.1.toList = false := by decide +kernel
  have hroute : ("kubernetes/capabilities/" ++ identity).toList =
      "kubernetes/capabilities/".toList ++ identity.toList := String.toList_append
  rw [dispatch, lookup_template hnone hroute, Text.stripPrefix_iff.mpr hroute]
  dsimp only
  rw [bind_plain h]
  rfl

/-- A link of a dashboard, to the dashboard. -/
theorem dispatch_dashboard {uri identity : String} (h : PlainIdentity identity) :
    dispatch uri ("grafana/dashboards/" ++ identity) (.object []) =
      .ok (.getDashboard, .object [("uid", .string identity)]) := by
  have hnone : ∀ entry ∈ collectionRoutes,
      "grafana/dashboards/".toList.isPrefixOf entry.1.toList = false := by decide +kernel
  have hroute : ("grafana/dashboards/" ++ identity).toList =
      "grafana/dashboards/".toList ++ identity.toList := String.toList_append
  have hother : Text.stripPrefix "kubernetes/capabilities/".toList
      ("grafana/dashboards/" ++ identity).toList = none := by
    have hfirst : ("grafana/dashboards/" ++ identity).toList.head? = some 'g' := by
      rw [hroute, List.head?_append]
      rfl
    cases hstrip : Text.stripPrefix "kubernetes/capabilities/".toList
        ("grafana/dashboards/" ++ identity).toList with
    | none => rfl
    | some rest =>
        rw [Text.stripPrefix_iff.mp hstrip, List.head?_append] at hfirst
        cases hfirst
  rw [dispatch, lookup_template hnone hroute, hother, Text.stripPrefix_iff.mpr hroute]
  dsimp only
  rw [bind_plain h]
  rfl

/-- A segment has neither question mark nor hash. -/
theorem ne_of_pathSegment {c : Char} (h : pathSegment c = true) : c ≠ '?' ∧ c ≠ '#' := by
  constructor
  · rintro rfl
    exact absurd h (by decide)
  · rintro rfl
    exact absurd h (by decide)

/-- A route that starts so is read back from its URI. -/
theorem parseUri_identity (hcrates : crates.Documented) {template identity : String}
    (hsize : template.utf8ByteSize ≤ 100)
    (hfree : ∀ c ∈ template.toList, (pathSegment c || c == '/') = true)
    (h : PlainIdentity identity) :
    parseUri crates ("homelab://" ++ (template ++ identity)) =
      .ok (template ++ identity, .object [], none) := by
  apply parseUri_plain hcrates
  · have hidentity := h.size
    rw [String.utf8ByteSize_append]
    omega
  · intro c hc
    rw [String.toList_append] at hc
    rcases List.mem_append.mp hc with hc | hc
    · rcases Bool.or_eq_true_iff.mp (hfree c hc) with hplain | hslash
      · exact ne_of_pathSegment hplain
      · rw [beq_iff_eq.mp hslash]
        decide
    · exact ne_of_pathSegment (h.plain c hc)

/-- **A link names its identity.** -/
theorem link_resolves (hcrates : crates.Documented) {collection : Collection} {method : Method}
    {key : String} (hnamed : NamedBy collection method key) {identity : String}
    (hvalid : collection.valid identity = true) :
    Resolves crates (collection.link identity) method key identity := by
  cases hnamed with
  | dashboards =>
      have hplain := plain_dashboardUid hvalid
      have hlink : dashboards.link identity =
          "homelab://" ++ ("grafana/dashboards/" ++ identity) := by
        rw [Collection.link, WebUrl.encodeKeeping_eq_self hplain.plain, String.ofList_toList,
          ← String.append_assoc]
        rfl
      rw [hlink]
      exact ⟨_, parseUri_identity hcrates (by decide) (Text.forall_mem_ofList rfl) hplain,
        dispatch_dashboard hplain⟩
  | kubernetesClusters =>
      have hplain := plain_cluster hvalid
      have hlink : kubernetesClusters.link identity =
          "homelab://" ++ ("kubernetes/capabilities/" ++ identity) := by
        rw [Collection.link, WebUrl.encodeKeeping_eq_self hplain.plain, String.ofList_toList,
          ← String.append_assoc]
        rfl
      rw [hlink]
      exact ⟨_, parseUri_identity hcrates (by decide) (Text.forall_mem_ofList rfl) hplain,
        dispatch_capabilities hplain⟩

/-- An item is linked, or left as it was. -/
theorem enrichItem_linked (hcrates : crates.Documented) {collection : Collection}
    {method : Method} {key : String} (hnamed : NamedBy collection method key) (item : Value) :
    ItemLinked crates collection method key item (collection.enrichItem item) := by
  unfold Collection.enrichItem
  cases hread : (item.get collection.identity).bind Value.asStr with
  | none =>
      refine .kept ?_
      intro identity hidentity
      rw [hidentity] at hread
      cases hread
  | some identity =>
      obtain ⟨text, hidentity, htext⟩ := Option.bind_eq_some_iff.mp hread
      rw [Value.asStr_eq_some.mp htext] at hidentity
      dsimp only
      by_cases hvalid : collection.valid identity = true
      · rw [if_pos hvalid]
        cases item with
        | object members =>
            exact .linked hidentity hvalid (without_setMember _ _ members)
              (Value.lookup_setMember_self _ _ members) (link_resolves hcrates hnamed hvalid)
        | _ => cases hidentity
      · rw [if_neg hvalid]
        refine .kept ?_
        intro other hother
        rw [hidentity, Option.some.injEq, Value.string.injEq] at hother
        rw [← hother]
        exact Bool.eq_false_iff.mpr hvalid

/-- So are all items. -/
theorem enrichItems_linked (hcrates : crates.Documented) {collection : Collection}
    {method : Method} {key : String} (hnamed : NamedBy collection method key) (value : Value) :
    ItemsLinked crates collection method key value (collection.enrichItems value) := by
  cases value with
  | array items =>
      refine .items ?_
      rw [List.forall₂_map_right_iff, List.forall₂_same]
      exact fun item _ => enrichItem_linked hcrates hnamed item
  | _ => exact .kept rfl

/-- A name is bound where it was not bound before. -/
theorem bind_free {input out : Value} {key : String} {encoded : List Char}
    (h : bind input key encoded = .ok out) : input.get key = none := by
  obtain ⟨decoded, -, h⟩ := bind_eq_ok.mp h
  split_ifs at h with hbad
  rw [Bool.or_eq_true, not_or, Option.isSome_iff_ne_none] at hbad
  exact not_not.mp hbad.2

/-- An action that is named by a path is asked for through `bind` only. -/
theorem dispatch_bound {uri route : String} {input out : Value} {collection : Collection}
    {method : Method} {key : String} (hnamed : NamedBy collection method key)
    (h : dispatch uri route input = .ok (method, out)) :
    ∃ encoded, bind input key encoded = .ok out := by
  have hcollections : ∀ entry ∈ collectionRoutes,
      entry.2 ≠ .getDashboard ∧ entry.2 ≠ .kubernetesCapabilities := by decide
  have hbound : ∀ {made : Method} {k : String} {encoded : List Char},
      (bind input k encoded).map (made, ·) = .ok (method, out) →
        made = method ∧ bind input k encoded = .ok out := by
    intro made k encoded hmap
    cases hbind : bind input k encoded with
    | error e =>
        rw [hbind] at hmap
        cases hmap
    | ok bound =>
        rw [hbind] at hmap
        obtain ⟨rfl, rfl⟩ := Prod.mk.inj (Except.ok.inj hmap)
        exact ⟨rfl, rfl⟩
  unfold dispatch at h
  split at h
  · next found hlookup =>
      obtain ⟨rfl, rfl⟩ := Prod.mk.inj (Except.ok.inj h)
      obtain ⟨before, after, hroutes, -⟩ := List.lookup_eq_some_iff.mp hlookup
      have hmem : (route, found) ∈ collectionRoutes := by
        rw [hroutes]
        exact List.mem_append_right before List.mem_cons_self
      cases hnamed with
      | dashboards => exact absurd rfl (hcollections _ hmem).1
      | kubernetesClusters => exact absurd rfl (hcollections _ hmem).2
  · split at h
    · obtain ⟨rfl, hbind⟩ := hbound h
      cases hnamed
      exact ⟨_, hbind⟩
    · split at h
      · obtain ⟨rfl, hbind⟩ := hbound h
        cases hnamed
        exact ⟨_, hbind⟩
      · cases h

/-- **Links name what they are made for.**  A collection without links stays as it is.  Of the
others nothing changes but the member that holds the link of an item with a valid identity, and the
link is read back to that identity.  No URI and no input has a second identity beside the one of the
path. -/
theorem links_resolve (hcrates : crates.Documented) :
    (∀ route value, collectionOf route = none → enrichCollection route value = value) ∧
    (∀ route collection value, collectionOf route = some collection →
      ∃ method key, NamedBy collection method key ∧
        At (ItemsLinked crates collection method key) collection.path value
          (enrichCollection route value)) ∧
    (∀ input key encoded out, bind input key encoded = .ok out → input.get key = none) ∧
    ∀ uri route input collection method key out, NamedBy collection method key →
      dispatch uri route input = .ok (method, out) → input.get key = none := by
  refine ⟨?_, ?_, fun _ _ _ _ => bind_free, ?_⟩
  · intro route value hnone
    rw [enrichCollection, hnone]
  · intro route collection value hsome
    have hnamed : ∃ method key, NamedBy collection method key := by
      unfold collectionOf at hsome
      split_ifs at hsome
      · obtain rfl := Option.some.inj hsome
        exact ⟨_, _, .dashboards⟩
      · obtain rfl := Option.some.inj hsome
        exact ⟨_, _, .kubernetesClusters⟩
    obtain ⟨method, key, hnamed⟩ := hnamed
    refine ⟨method, key, hnamed, ?_⟩
    rw [enrichCollection, hsome]
    exact updateAt_at (enrichItems_linked hcrates hnamed) collection.path value
  · intro uri route input collection method key out hnamed hdispatch
    obtain ⟨encoded, hbind⟩ := dispatch_bound hnamed hdispatch
    exact bind_free hbind

end Links

/-- Queries without escapes, and no JSON. -/
def plainCrates : Crates where
  readJson _ := none
  formPairs query :=
    ((Text.pieces (· == '&') query.toList).filter fun piece => !piece.isEmpty).map fun piece =>
      let (key, value) := (Text.splitOnce ['='] piece).getD (piece, [])
      (String.ofList key, String.ofList value)

/-- A dashboard that has a member with the name of its link. -/
def linkedDashboard : Value :=
  .object [("resource_uri", .string "x"), ("uid", .string "a.b")]

/-- A collection of one dashboard. -/
def sampleCollection : Value := .object [("result", .array [linkedDashboard])]

/-- Its link resolves. -/
theorem links_resolve_dashboard : ∃ method key, NamedBy dashboards method key ∧
    At (ItemsLinked plainCrates dashboards method key) ["result"] sampleCollection
      (enrichCollection "grafana/dashboards" sampleCollection) :=
  (links_resolve ⟨rfl⟩).2.1 "grafana/dashboards" dashboards sampleCollection (if_pos rfl)

/-- **A member is replaced.**  The dashboard is returned with another member of that name. -/
theorem link_replaces_member :
    linkedDashboard.get "resource_uri" = some (.string "x") ∧
      ∃ item, enrichCollection "grafana/dashboards" sampleCollection =
          .object [("result", .array [item])] ∧
        item.get "resource_uri" ≠ some (.string "x") := by
  have hvalid : Grafana.validDashboardUid "a.b" = true := by decide +kernel
  have hlink : dashboards.link "a.b" = "homelab://grafana/dashboards/a.b" := by decide +kernel
  have hitem : dashboards.enrichItem linkedDashboard =
      .object [("resource_uri", .string "homelab://grafana/dashboards/a.b"),
        ("uid", .string "a.b")] := by
    have hread : (linkedDashboard.get dashboards.identity).bind Value.asStr = some "a.b" := rfl
    rw [← hlink, Collection.enrichItem, hread]
    exact if_pos hvalid
  refine ⟨rfl, dashboards.enrichItem linkedDashboard, rfl, ?_⟩
  rw [hitem]
  intro h
  simp [Value.get] at h

end Mcp
