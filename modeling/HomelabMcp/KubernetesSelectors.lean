import HomelabMcp.KubernetesActions
import HomelabMcp.KubernetesListing
import HomelabMcp.PercentCoding
import HomelabMcp.TextDecimals
import HomelabMcp.TextPairs
import HomelabMcp.TextSections

/-!
# Selectors and pages of Kubernetes lists

A map of labels is written as one text, `key=value` with commas between, and that text and the
token of a page are percent-encoded into the query of a path.

* `readSelector_selector`: the labels of a valid query are read back from their selector.
* `queryParameters_listPath`: the parameters of a page are read back from its path.
* `selectors_round_trip`: both, for every path that a list asks for.
-/

namespace Kubernetes

open Interaction
open Json (Value)
open Text (Bytes decimal joinPair joinPairs splitPairs Separable)
open WebUrl (percentDecode encodeKeeping)

/-- The labels of a selector: between commas, each with its value behind the first `=`. -/
def readSelector (text : String) : Option (List (String × String)) :=
  (splitPairs ',' '=' text.toList).map fun pairs =>
    pairs.map fun (key, value) => (String.ofList key, String.ofList value)

/-- A component as the API server decodes it. -/
def decodeComponent (cs : List Char) : Option String := Text.decode (percentDecode cs)

/-- A parameter as it reads it. -/
def readParameter (raw : List Char × List Char) : Option (String × String) := do
  let key ← decodeComponent raw.1
  let value ← decodeComponent raw.2
  some (key, value)

/-- The parameters behind the first `?` of a path. -/
def queryParameters (path : String) : Option (List (String × String)) := do
  let (_, query) ← Text.splitOnce ['?'] path.toList
  let pairs ← splitPairs '&' '=' query
  pairs.mapM readParameter

/-- The parameters of a page. -/
def listParameters (labels : List (String × String)) (requested : Nat)
    (continuation : Option String) : List (String × String) :=
  [("limit", toString requested)] ++
    (selector labels).toList.map (fun text => ("labelSelector", text)) ++
    continuation.toList.map fun token => ("continue", token)

/-- A character of a key or a value of a label. -/
def isLabelChar (c : Char) : Bool := c.isAlphanum || c == '-' || c == '.' || c == '_' || c == '/'

/-- The characters of names are characters of labels. -/
theorem isLabelChar_of_nameChar {c : Char} (h : isNameChar c = true) : isLabelChar c = true := by
  unfold isNameChar at h
  unfold isLabelChar
  simp only [Bool.or_eq_true, beq_iff_eq] at h ⊢
  rcases h with ((h | h) | rfl) | rfl
  · have hlower : c.isAlphanum = true := by
      simp only [Char.isAlphanum, Char.isAlpha, Char.isLower, Bool.or_eq_true]
      exact .inl (.inr h)
    simp [hlower]
  · have hdigit : c.isAlphanum = true := by
      simp only [Char.isAlphanum, Bool.or_eq_true]
      exact .inr h
    simp [hdigit]
  · simp
  · simp

/-- So are those of the segments of a label. -/
theorem labelChars_of_segment {value : String} {emptyAllowed : Bool}
    (h : validLabelSegment value emptyAllowed = true) :
    ∀ c ∈ value.toList, isLabelChar c = true := by
  unfold validLabelSegment at h
  split_ifs at h with hempty
  · have hnil : value = "" := by simpa using hempty
    intro c hc
    rw [hnil] at hc
    exact absurd hc List.not_mem_nil
  · simp only [Bool.and_eq_true] at h
    intro c hc
    have hchar := List.all_eq_true.mp h.1.1.2 c hc
    rw [isLabelChar, hchar, Bool.true_or]

/-- And those of its key. -/
theorem labelChars_of_key {key : String} (h : validLabelKey key = true) :
    ∀ c ∈ key.toList, isLabelChar c = true := by
  unfold validLabelKey at h
  split at h
  · next start name hsplit =>
      obtain ⟨hkey, -⟩ := (Text.splitOnce_iff (List.cons_ne_nil _ _)).mp hsplit
      rw [Bool.and_eq_true] at h
      have hstart := nameChar_of_labels (validDnsSubdomain_iff.mp h.1).2
      have hname := labelChars_of_segment h.2
      rw [String.toList_ofList] at hstart hname
      intro c hc
      rw [hkey] at hc
      rcases List.mem_append.mp hc with hc | hc
      · exact isLabelChar_of_nameChar (hstart c hc)
      · rcases List.mem_cons.mp hc with rfl | hc
        · rfl
        · exact hname c hc
  · exact labelChars_of_segment h

/-- The labels of a valid query, as lists of characters. -/
def rawLabels (labels : List (String × String)) : List (List Char × List Char) :=
  labels.map fun label => (label.1.toList, label.2.toList)

/-- Labels can be told apart when they are joined. -/
theorem rawLabels_separable {query : ResourceQuery} (h : query.isValid = true) :
    ∀ pair ∈ rawLabels query.labels, Separable ',' '=' pair := by
  simp only [ResourceQuery.isValid, Bool.and_eq_true] at h
  have hlabels := List.all_eq_true.mp h.1.2
  have hfree : ∀ {cs : List Char}, (∀ c ∈ cs, isLabelChar c = true) → ',' ∉ cs ∧ '=' ∉ cs := by
    intro cs hcs
    exact ⟨fun hc => absurd (hcs _ hc) (by decide), fun hc => absurd (hcs _ hc) (by decide)⟩
  intro pair hpair
  obtain ⟨label, hmem, rfl⟩ := List.mem_map.mp hpair
  have hlabel := hlabels label hmem
  rw [Bool.and_eq_true] at hlabel
  obtain ⟨hcomma, hequals⟩ := hfree (labelChars_of_key hlabel.1)
  obtain ⟨hcomma', -⟩ := hfree (labelChars_of_segment hlabel.2)
  exact ⟨hequals, hcomma, hcomma'⟩

/-- The selector is the labels joined. -/
theorem toList_selector {labels : List (String × String)} {text : String}
    (h : selector labels = some text) :
    labels ≠ [] ∧ text.toList = joinPairs ',' '=' (rawLabels labels) := by
  unfold selector at h
  split_ifs at h with hempty
  obtain rfl := Option.some.inj h
  refine ⟨fun hnil => hempty (by rw [hnil]; rfl), ?_⟩
  rw [String.toList_intercalate, joinPairs, rawLabels, List.map_map, List.map_map]
  refine congrArg _ (List.map_congr_left fun label _ => ?_)
  simp only [Function.comp_apply, joinPair, String.toList_append, List.append_assoc]
  rfl

/-- **Round trip of a selector.** -/
theorem readSelector_selector {query : ResourceQuery} (h : query.isValid = true) {text : String}
    (htext : selector query.labels = some text) : readSelector text = some query.labels := by
  obtain ⟨hne, hraw⟩ := toList_selector htext
  have hsome : rawLabels query.labels ≠ [] := by rwa [rawLabels, ne_eq, List.map_eq_nil_iff]
  rw [readSelector, hraw, Text.splitPairs_joinPairs (by decide) hsome (rawLabels_separable h),
    Option.map_some, rawLabels, List.map_map]
  simp [Function.comp_def, String.ofList_toList]

/-- There is none where there are no labels. -/
theorem selector_eq_none {labels : List (String × String)} :
    selector labels = none ↔ labels = [] := by
  unfold selector
  split_ifs with hempty
  · simpa using hempty
  · simpa using hempty

/-- Different labels have different selectors. -/
theorem selector_inj {query query' : ResourceQuery} (h : query.isValid = true)
    (h' : query'.isValid = true) (heq : selector query.labels = selector query'.labels) :
    query.labels = query'.labels := by
  cases htext : selector query.labels with
  | none =>
      rw [htext] at heq
      rw [selector_eq_none.mp htext, selector_eq_none.mp heq.symm]
  | some text =>
      rw [htext] at heq
      have hread := readSelector_selector h htext
      rw [readSelector_selector h' heq.symm] at hread
      exact (Option.some.inj hread).symm

/-- Encoding keeps letters and digits. -/
theorem toList_encode (value : String) :
    (encode value).toList = encodeKeeping Char.isAlphanum value.toList := by
  unfold encode encodeKeeping
  rw [String.toList_ofList]
  refine List.flatMap_congr fun c _ => ?_
  rw [← Text.utf8EncodeChar_eq]
  rfl

/-- What was encoded is decoded. -/
theorem decodeComponent_encode (value : String) :
    decodeComponent (encode value).toList = some value := by
  rw [toList_encode]
  exact WebUrl.decode_encodeKeeping (by decide) value

/-- Letters and digits are their own encoding. -/
theorem encode_eq_self {value : String} (h : ∀ c ∈ value.toList, c.isAlphanum = true) :
    encode value = value := by
  rw [← String.toList_inj, toList_encode, WebUrl.encodeKeeping_eq_self h]

/-- A parameter as it is written. -/
def rawParameter (parameter : String × String) : List Char × List Char :=
  (parameter.1.toList, (encode parameter.2).toList)

/-- What is written of any parameters with names of letters is read back. -/
theorem readParameters {parameters : List (String × String)}
    (hnames : ∀ parameter ∈ parameters, ∀ c ∈ parameter.1.toList, c.isAlphanum = true) :
    (parameters.map rawParameter).mapM readParameter = some parameters := by
  induction parameters with
  | nil => rfl
  | cons parameter parameters ih =>
      obtain ⟨hname, hothers⟩ := List.forall_mem_cons.mp hnames
      have hkey : decodeComponent parameter.1.toList = some parameter.1 := by
        have hdecoded := decodeComponent_encode parameter.1
        rwa [encode_eq_self hname] at hdecoded
      have hread : readParameter (rawParameter parameter) = some parameter := by
        simp only [readParameter, rawParameter, hkey, decodeComponent_encode]
        rfl
      rw [List.map_cons, List.mapM_cons, hread, ih hothers]
      rfl

/-- Encoded parameters can be told apart when they are joined. -/
theorem rawParameter_separable {parameter : String × String}
    (hname : ∀ c ∈ parameter.1.toList, c.isAlphanum = true) :
    Separable '&' '=' (rawParameter parameter) := by
  constructor
  · exact fun hc => absurd (hname _ hc) (by decide)
  · exact fun hc => absurd (hname _ hc) (by decide)
  · intro hc
    rw [rawParameter, toList_encode] at hc
    rcases WebUrl.mem_encodeKeeping hc with h | h | h
    · exact absurd h (by decide)
    · exact absurd h (by decide)
    · exact absurd h (by decide)

/-- The names of the parameters are letters and digits. -/
theorem listParameters_names (labels : List (String × String)) (requested : Nat)
    (continuation : Option String) :
    ∀ parameter ∈ listParameters labels requested continuation,
      ∀ c ∈ parameter.1.toList, c.isAlphanum = true := by
  have hlimit : ∀ c ∈ "limit".toList, c.isAlphanum = true := Text.forall_mem_ofList rfl
  have hselector : ∀ c ∈ "labelSelector".toList, c.isAlphanum = true := Text.forall_mem_ofList rfl
  have hcontinue : ∀ c ∈ "continue".toList, c.isAlphanum = true := Text.forall_mem_ofList rfl
  intro parameter hparameter
  simp only [listParameters, List.mem_append, List.mem_map, List.mem_singleton] at hparameter
  rcases hparameter with (rfl | ⟨text, -, rfl⟩) | ⟨token, -, rfl⟩
  · exact hlimit
  · exact hselector
  · exact hcontinue

/-- The path of a page is its base and the parameters. -/
theorem toList_listPath (base : String) (labels : List (String × String)) (requested : Nat)
    (continuation : Option String) :
    (listPath base labels requested continuation).toList = base.toList ++ '?' ::
      joinPairs '&' '=' ((listParameters labels requested continuation).map rawParameter) := by
  have hdigits : encode (toString requested) = toString requested := by
    apply encode_eq_self
    intro c hc
    rw [Text.toList_toString] at hc
    rw [Char.isAlphanum, Text.isDigit_of_mem_decimal hc, Bool.or_true]
  unfold listPath listParameters
  generalize toString requested = digits at hdigits ⊢
  cases hselector : selector labels with
  | none =>
      cases continuation with
      | none => simp [joinPairs, joinPair, rawParameter, hdigits]
      | some token => simp [joinPairs, joinPair, rawParameter, hdigits]
  | some text =>
      cases continuation with
      | none => simp [joinPairs, joinPair, rawParameter, hdigits]
      | some token => simp [joinPairs, joinPair, rawParameter, hdigits]

/-- A text without `?`. -/
def Plain (text : String) : Prop := ∀ c ∈ text.toList, (c != '?') = true

/-- Plain texts one after another. -/
theorem Plain.append {a b : String} (ha : Plain a) (hb : Plain b) : Plain (a ++ b) := by
  intro c hc
  rw [String.toList_append, List.mem_append] at hc
  exact hc.elim (ha c) (hb c)

/-- The parts of a kind are plain. -/
theorem mapping_plain (kind : ResourceKind) :
    Plain kind.mapping.1 ∧ Plain kind.mapping.2.1 ∧ Plain kind.mapping.2.2 := by
  cases kind <;>
    exact ⟨Text.forall_mem_ofList rfl, Text.forall_mem_ofList rfl, Text.forall_mem_ofList rfl⟩

/-- So is a namespace. -/
theorem namespace_plain {ns : String} (h : validNamespace ns = true) : Plain ns := by
  rw [validNamespace, ← String.ofList_toList (s := ns), label_iff] at h
  intro c hc
  have hchar := h.chars c hc
  by_cases heq : c = '?'
  · rw [heq] at hchar
    exact absurd hchar (by decide)
  · simpa using heq

/-- And the path of a query. -/
theorem objectPath_plain {query : ResourceQuery} (h : query.isValid = true) {base : String}
    (hbase : objectPath query.kind query.ns none = .ok base) : Plain base := by
  have hslash : Plain "/" := Text.forall_mem_ofList rfl
  have hnamespaces : Plain "/namespaces/" := Text.forall_mem_ofList rfl
  have hempty : Plain "" := Text.forall_mem_ofList rfl
  obtain ⟨hstart, hversion, hresource⟩ := mapping_plain query.kind
  have hns : query.ns.all validNamespace = true := by
    simp only [ResourceQuery.isValid, Bool.and_eq_true] at h
    exact h.1.1.1.1.1.1
  unfold objectPath at hbase
  rw [if_neg (by simp)] at hbase
  obtain rfl := Except.ok.inj hbase
  refine Plain.append (.append (.append (.append (.append (.append (.append hslash hstart) hslash)
    hversion) ?_) hslash) hresource) hempty
  split
  · next ns hnamespaced hsome =>
      rw [hsome] at hns
      exact hnamespaces.append (namespace_plain hns)
  · exact hempty

/-- **The parameters of a page are read back from its path.** -/
theorem queryParameters_listPath {query : ResourceQuery} (h : query.isValid = true) {base : String}
    (hbase : objectPath query.kind query.ns none = .ok base) (requested : Nat)
    (continuation : Option String) :
    queryParameters (listPath base query.labels requested continuation) =
      some (listParameters query.labels requested continuation) := by
  have hnames := listParameters_names query.labels requested continuation
  have hsplit : Text.splitOnce ['?'] (listPath base query.labels requested continuation).toList =
      some (base.toList, joinPairs '&' '='
        ((listParameters query.labels requested continuation).map rawParameter)) := by
    rw [toList_listPath]
    refine Text.splitOnce_append (fun hc => ?_) _
    exact absurd (objectPath_plain h hbase _ hc) (by decide)
  have hpairs := @Text.splitPairs_joinPairs '&' '=' (by decide)
    ((listParameters query.labels requested continuation).map rawParameter)
    (by simp [listParameters]) (by
      intro pair hpair
      obtain ⟨parameter, hparameter, rfl⟩ := List.mem_map.mp hpair
      exact rawParameter_separable (hnames parameter hparameter))
  unfold queryParameters
  rw [hsplit, Option.bind_eq_bind, Option.bind_some]
  dsimp only
  rw [hpairs]
  exact readParameters hnames

/-- **Selectors and continuations round-trip.**  The labels of a valid query are read back from
their selector, so that different labels have different selectors.  The parameters that are read
back from the path of a page are the limit, the selector where there are labels, and the
continuation where there is one; and every kubectl that a list runs is for such a path, with what is
left of the items and the continuation of the page before. -/
theorem selectors_round_trip (parser : Bytes → Option Value) :
    (∀ query : ResourceQuery, query.isValid = true →
      (selector query.labels = none ↔ query.labels = []) ∧
      ∀ text, selector query.labels = some text → readSelector text = some query.labels) ∧
    (∀ query query' : ResourceQuery, query.isValid = true → query'.isValid = true →
      selector query.labels = selector query'.labels → query.labels = query'.labels) ∧
    (∀ query : ResourceQuery, query.isValid = true → ∀ base,
      objectPath query.kind query.ns none = .ok base → ∀ requested continuation,
        queryParameters (listPath base query.labels requested continuation) =
          some (listParameters query.labels requested continuation)) ∧
    ∀ query : ResourceQuery, query.isValid = true → ∀ t run next,
      Reaches (listCancelled parser query).run t (.call run next) →
        ∃ path, run = rawRun path .query ∧ queryParameters path =
          some (listParameters query.labels (requested (allItems parser t).length)
            (continuationAfter parser t)) := by
  refine ⟨fun query h => ⟨selector_eq_none, fun text => readSelector_selector h⟩,
    fun query query' => selector_inj, fun query h base => queryParameters_listPath h, ?_⟩
  intro query h t run next hrun
  obtain ⟨base, hbase, -, -, hasked⟩ := listCancelled_pending parser query hrun
  exact ⟨_, hasked, queryParameters_listPath h hbase _ _⟩

/-- The web pods of a namespace. -/
def webQuery : ResourceQuery :=
  ⟨.pod, some "ns", none, [("app", "web"), ("tier", "a.b")], 2⟩

/-- A page without pods, which goes on with a text that has to be escaped. -/
def webPages (bytes : Bytes) : Option Value :=
  if bytes = Text.ascii "page" then
    some (.object [("items", .array []), ("metadata", .object [("continue", .string "a&b=ü")])])
  else none

/-- What is asked for after the first page of the web pods: the same labels, and the rest. -/
theorem selectors_round_trip_web : ∃ t run next, t.length = 1 ∧
    Reaches (listCancelled webPages webQuery).run t (.call run next) ∧
    ∃ path, run = rawRun path .query ∧ queryParameters path =
      some [("limit", "100"), ("labelSelector", "app=web,tier=a.b"), ("continue", "a&b=ü")] := by
  obtain ⟨run, next, hpending⟩ := Program.answered_pending (fun _ => .ok ⟨Text.ascii "page"⟩) 1
    (listCancelled webPages webQuery).run (by decide +kernel)
  obtain ⟨path, hrun, hparameters⟩ :=
    (selectors_round_trip webPages).2.2.2 webQuery (by decide +kernel) _ run next hpending
  refine ⟨_, run, next, by decide +kernel, hpending, path, hrun, hparameters.trans ?_⟩
  decide +kernel

end Kubernetes
