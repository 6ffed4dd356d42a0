import HomelabMcp.TextPairs

/-!
# Role-based access control of the Kubernetes API

How the API server reads a request, and which requests the rules of a role allow.  A request is for
a resource where its path has the form of one, and for a path otherwise; a request to get a resource
without a name is one to list.

* `attributes_of_parts`: how a path that was put together of its parts is read.
-/

namespace Rbac

/-- What the rules are about, as the request info resolver of the API server finds it. -/
inductive Attributes where
  | resource (verb group resource : String) (subresource ns name : Option String)
  | nonResource (verb path : String)
  deriving DecidableEq

/-- The parts of a path, without empty ones at both ends. -/
def parts (path : List Char) : List String :=
  (((Text.pieces (· == '/') path).dropWhile List.isEmpty).rdropWhile List.isEmpty).map String.ofList

/-- The path of a URL, without the query. -/
def pathOf (url : String) : List Char := url.toList.takeWhile (· != '?')

/-- These belong to a namespace itself, and are no resources in it. -/
def isNamespaceSubresource (part : String) : Bool := part = "status" || part = "finalize"

/-- The namespace of a request, and its parts from the resource on. -/
def scopeOf : List String → Option String × List String
  | start :: ns :: part :: rest =>
      if start = "namespaces" then
        (some ns, if isNamespaceSubresource part then start :: ns :: part :: rest else part :: rest)
      else (none, start :: ns :: part :: rest)
  | [start, ns] => if start = "namespaces" then (some ns, [start, ns]) else (none, [start, ns])
  | other => (none, other)

/-- A request to get what has no name lists. -/
def verbOf (verb : String) (name : Option String) : String :=
  if verb = "get" ∧ name.getD "" = "" then "list" else verb

/-- The parts from the resource on: its name, and its subresource. -/
def resourceAttributes (verb group : String) (scope : Option String × List String) : Attributes :=
  match scope.2 with
  | [] => .resource (verbOf verb none) group "" none scope.1 none
  | [resource] => .resource (verbOf verb none) group resource none scope.1 none
  | [resource, name] => .resource (verbOf verb (some name)) group resource none scope.1 (some name)
  | resource :: name :: subresource :: _ =>
      .resource (verbOf verb (some name)) group resource (some subresource) scope.1 (some name)

/-- Old paths say what to do in a part of their own. -/
def isSpecialVerb (part : String) : Bool := part = "proxy" || part = "watch"

/-- The parts after the group and its version. -/
def inGroup (verb group part : String) (rest : List String) : Attributes :=
  if isSpecialVerb part then resourceAttributes part group (scopeOf rest)
  else resourceAttributes verb group (scopeOf (part :: rest))

/-- How a request with a verb is read: `/api/v1` and `/apis/group/version` stand in front of
resources, as the API server documents its paths. -/
def attributes (verb url : String) : Attributes :=
  match parts (pathOf url) with
  | start :: second :: third :: rest =>
      if start = "api" then inGroup verb "" third rest
      else match start, rest with
        | "apis", part :: rest => inGroup verb second part rest
        | _, _ => .nonResource verb (String.ofList (pathOf url))
  | _ => .nonResource verb (String.ofList (pathOf url))

/-- A rule, with the fields of `PolicyRule` in `rbac.authorization.k8s.io/v1` but the names of
resources. -/
structure PolicyRule where
  apiGroups : List String
  resources : List String
  nonResourceURLs : List String
  verbs : List String

/-- A list of a rule names a thing, or all things. -/
def Names (list : List String) (thing : String) : Prop := thing ∈ list ∨ "*" ∈ list

/-- The name a rule has for a resource and its subresource. -/
def combined (resource : String) : Option String → String
  | none => resource
  | some subresource => resource ++ "/" ++ subresource

/-- A pattern of a rule for paths: one path, or all that start so; a star is documented at the end
only. -/
def Matches (pattern path : String) : Prop :=
  pattern = path ∨ ∃ start, pattern.toList = start ++ ['*'] ∧ start <+: path.toList

/-- What a rule allows, by the documented matching of each of its lists. -/
def PolicyRule.Allows (rule : PolicyRule) : Attributes → Prop
  | .resource verb group resource subresource _ _ =>
      Names rule.verbs verb ∧ Names rule.apiGroups group ∧
        (Names rule.resources (combined resource subresource) ∨
          ∃ s ∈ subresource, "*/" ++ s ∈ rule.resources)
  | .nonResource verb path =>
      Names rule.verbs verb ∧ ∃ pattern ∈ rule.nonResourceURLs, Matches pattern path

/-- What a role allows; nothing takes it back. -/
def Allowed (rules : List PolicyRule) (a : Attributes) : Prop := ∃ rule ∈ rules, rule.Allows a

/-- What a rule allows, its role allows. -/
theorem Allowed.of_mem {rules : List PolicyRule} {rule : PolicyRule} {a : Attributes}
    (h : rule ∈ rules) (ha : rule.Allows a) : Allowed rules a := ⟨rule, h, ha⟩

/-- A rule allows what it lists. -/
theorem PolicyRule.allows_resource {rule : PolicyRule} {verb group resource : String}
    {subresource ns name : Option String} (hverb : verb ∈ rule.verbs)
    (hgroup : group ∈ rule.apiGroups)
    (hresource : combined resource subresource ∈ rule.resources) :
    rule.Allows (.resource verb group resource subresource ns name) :=
  ⟨Or.inl hverb, Or.inl hgroup, Or.inl (Or.inl hresource)⟩

/-- A rule without wildcards. -/
structure PolicyRule.Plain (rule : PolicyRule) : Prop where
  verbs : ∀ text ∈ rule.verbs, '*' ∉ text.toList
  apiGroups : ∀ text ∈ rule.apiGroups, '*' ∉ text.toList
  resources : ∀ text ∈ rule.resources, '*' ∉ text.toList
  urls : ∀ text ∈ rule.nonResourceURLs, '*' ∉ text.toList

/-- A list without a star names what it lists. -/
theorem names_iff {list : List String} {thing : String}
    (h : ∀ text ∈ list, '*' ∉ text.toList) : Names list thing ↔ thing ∈ list := by
  constructor
  · intro hnames
    rcases hnames with hmem | hall
    · exact hmem
    · exact absurd (List.mem_singleton_self _) (h "*" hall)
  · exact Or.inl

/-- A rule without wildcards allows the resources that it lists. -/
theorem PolicyRule.Plain.allows_iff {rule : PolicyRule} (h : rule.Plain)
    {verb group resource : String} {subresource ns name : Option String} :
    rule.Allows (.resource verb group resource subresource ns name) ↔
      verb ∈ rule.verbs ∧ group ∈ rule.apiGroups ∧
        combined resource subresource ∈ rule.resources := by
  have hpattern : ¬ ∃ s ∈ subresource, "*/" ++ s ∈ rule.resources := by
    intro hexists
    obtain ⟨s, -, hs⟩ := hexists
    apply h.resources _ hs
    rw [String.toList_append]
    exact List.mem_append_left _ List.mem_cons_self
  rw [PolicyRule.Allows, names_iff h.verbs, names_iff h.apiGroups, names_iff h.resources,
    or_iff_left hpattern]

/-- And the paths that it lists. -/
theorem PolicyRule.Plain.allows_path_iff {rule : PolicyRule} (h : rule.Plain)
    {verb path : String} :
    rule.Allows (.nonResource verb path) ↔ verb ∈ rule.verbs ∧ path ∈ rule.nonResourceURLs := by
  rw [PolicyRule.Allows, names_iff h.verbs]
  constructor
  · intro hallows
    obtain ⟨hverb, pattern, hpattern, hmatches⟩ := hallows
    rcases hmatches with rfl | ⟨start, hstart, -⟩
    · exact ⟨hverb, hpattern⟩
    · apply absurd _ (h.urls pattern hpattern)
      rw [hstart]
      exact List.mem_append_right _ List.mem_cons_self
  · intro hmem
    exact ⟨hmem.1, path, hmem.2, Or.inl rfl⟩

/-- A part of a path: it is there, and has no separator in it. -/
structure Part (part : String) : Prop where
  nonempty : part.toList ≠ []
  slash : '/' ∉ part.toList
  question : '?' ∉ part.toList
  percent : '%' ∉ part.toList

/-- A path of its parts. -/
def joined : List String → List Char
  | [] => []
  | part :: rest => '/' :: part.toList ++ joined rest

/-- A path of parts is split into them. -/
theorem pieces_joined {list : List String} (h : ∀ part ∈ list, Part part) :
    Text.pieces (· == '/') (joined list) = [] :: list.map String.toList := by
  induction list with
  | nil => rfl
  | cons part rest ih =>
      obtain ⟨hpart, hrest⟩ := List.forall_mem_cons.mp h
      have hsingle : Text.pieces (· == '/') part.toList = [part.toList] := by
        apply Text.pieces_single
        intro c hc
        rw [beq_eq_false_iff_ne]
        intro heq
        exact hpart.slash (heq ▸ hc)
      have hjoin : joined (part :: rest) = [] ++ '/' :: (part.toList ++ joined rest) := rfl
      rw [hjoin, @Text.pieces_append (· == '/') '/' (beq_self_eq_true '/')]
      cases rest with
      | nil =>
          rw [joined, List.append_nil, hsingle]
          rfl
      | cons next rest =>
          have hnext : joined (next :: rest) = '/' :: (next.toList ++ joined rest) := rfl
          have htail := ih hrest
          rw [hnext] at htail ⊢
          rw [@Text.pieces_append (· == '/') '/' (beq_self_eq_true '/'), hsingle]
          have hdrop := @Text.pieces_append (· == '/') '/' (beq_self_eq_true '/') []
            (next.toList ++ joined rest)
          rw [List.nil_append] at hdrop
          rw [hdrop] at htail
          have htail : Text.pieces (· == '/') (next.toList ++ joined rest) =
              (next :: rest).map String.toList := by simpa [Text.pieces] using htail
          rw [htail]
          rfl

/-- The parts of a path of parts are these. -/
theorem parts_joined {list : List String} (h : ∀ part ∈ list, Part part) :
    parts (joined list) = list := by
  rw [parts, pieces_joined h, List.dropWhile_cons_of_pos rfl]
  have hfirst : (list.map String.toList).dropWhile List.isEmpty = list.map String.toList := by
    cases list with
    | nil => rfl
    | cons part rest =>
        have hne := (h part List.mem_cons_self).nonempty
        rw [List.map_cons, List.dropWhile_cons_of_neg (by simpa using hne)]
  have hlast : (list.map String.toList).rdropWhile List.isEmpty = list.map String.toList := by
    rw [List.rdropWhile_eq_self_iff]
    intro hl hempty
    obtain ⟨part, hpart, heq⟩ := List.mem_map.mp (List.getLast_mem hl)
    rw [← heq] at hempty
    exact (h part hpart).nonempty (by simpa using hempty)
  rw [hfirst, hlast, List.map_map]
  conv_rhs => rw [← List.map_id list]
  exact List.map_congr_left fun part _ => String.ofList_toList

/-- It has no query. -/
theorem question_joined {list : List String} (h : ∀ part ∈ list, Part part) :
    '?' ∉ joined list := by
  induction list with
  | nil => simp [joined]
  | cons part rest ih =>
      obtain ⟨hpart, hrest⟩ := List.forall_mem_cons.mp h
      intro hmem
      rcases List.mem_append.mp hmem with hfirst | hlater
      · rcases List.mem_cons.mp hfirst with heq | hin
        · cases heq
        · exact hpart.question hin
      · exact ih hrest hlater

/-- A URL of the parts, whatever parameters it has. -/
structure Joins (url : String) (list : List String) : Prop where
  parts : ∀ part ∈ list, Part part
  path : pathOf url = joined list

/-- **How a path of its parts is read.** -/
theorem Joins.attributes_api {url verb version part : String} {rest : List String}
    (h : Joins url ("api" :: version :: part :: rest)) :
    attributes verb url = inGroup verb "" part rest := by
  rw [attributes, h.path, parts_joined h.parts]
  exact if_pos rfl

/-- How a path of a named group is read. -/
theorem Joins.attributes_apis {url verb group version part : String} {rest : List String}
    (h : Joins url ("apis" :: group :: version :: part :: rest)) :
    attributes verb url = inGroup verb group part rest := by
  rw [attributes, h.path, parts_joined h.parts]
  have hne : ¬ "apis" = "api" := by decide
  simp only [if_neg hne]

/-- A short path is for no resource. -/
theorem Joins.attributes_short {url verb : String} {list : List String} (h : Joins url list)
    (hlength : list.length < 3) :
    attributes verb url = .nonResource verb (String.ofList (joined list)) := by
  rw [attributes, h.path, parts_joined h.parts]
  match list, hlength with
  | [], _ | [_], _ | [_, _], _ => rfl

/-- A group by itself is not a resource either. -/
theorem Joins.attributes_group {url verb group version : String}
    (h : Joins url ["apis", group, version]) :
    attributes verb url = .nonResource verb (String.ofList (joined ["apis", group, version])) := by
  rw [attributes, h.path, parts_joined h.parts]
  have hne : ¬ "apis" = "api" := by decide
  simp only [if_neg hne]

end Rbac
