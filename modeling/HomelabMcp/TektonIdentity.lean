import HomelabMcp.TektonReads

/-!
# Which object an id names

An id `<namespace>/<name>` is validated by the characters of its parts and its name is spliced into
a path.  The URL parser reads the path once more: it resolves the names `.` and `..`, which the
validation lets through.

* `object_request_iff`: the requests for a run or a task go to the object of the id exactly when
  its name is neither of them.
* `dots_name_parent`: with the name `..`, a run is looked for among the parents.
-/

namespace Tekton

open Interaction
open Http (Exchange)
open Json (Value)
open WebUrl (Url)

variable {crates : Crates} {client : TektonClient} {t : Trace Ans}

/-- `valid_dns`. -/
def validDns (value : List Char) : Bool :=
  !value.isEmpty && decide ((String.ofList value).utf8ByteSize ≤ 253) && value.all fun c =>
    c.isLower || c.isDigit || c == '-' || c == '.'

/-- `valid_namespaced_id`. -/
def validNamespacedId (value : String) : Bool :=
  match Text.pieces (· == '/') value.toList with
  | [ns, name] => validDns ns && validDns name
  | _ => false

/-- The parts of a text behind the first slash, with what stands before it. -/
theorem pieces_of_splitOnce {text ns name : List Char}
    (h : Text.splitOnce ['/'] text = some (ns, name)) :
    Text.pieces (· == '/') text = ns :: Text.pieces (· == '/') name := by
  induction text generalizing ns name with
  | nil => cases h
  | cons c text ih =>
      unfold Text.splitOnce at h
      by_cases hc : c = '/'
      · subst hc
        simp only [List.isPrefixOf, beq_self_eq_true, Bool.and_self, if_true, Option.some.injEq,
          Prod.mk.injEq] at h
        obtain ⟨rfl, rfl⟩ := h
        simp [Text.pieces]
      · have hbeq : (c == '/') = false := beq_false_of_ne hc
        have hstart : (['/'] : List Char).isPrefixOf (c :: text) = false := by
          simp [List.isPrefixOf, Ne.symm hc]
        simp only [hstart, Bool.false_eq_true, if_false, Option.map_eq_some_iff] at h
        obtain ⟨⟨before, after⟩, hsplit, hpair⟩ := h
        obtain ⟨rfl, rfl⟩ := Prod.mk.inj hpair
        simp [Text.pieces, hbeq, ih hsplit]

/-- The name of a valid id is one of lower-case letters, digits, dashes and dots. -/
theorem validDns_name {id ns name : String} (hvalid : validNamespacedId id = true)
    (hid : namespacedId id ns = .ok name) : validDns name.toList = true := by
  unfold namespacedId at hid
  cases hsplit : Text.splitOnce ['/'] id.toList with
  | none => simp [hsplit] at hid
  | some parts =>
      obtain ⟨before, after⟩ := parts
      simp only [hsplit] at hid
      split_ifs at hid with hbad
      obtain rfl := Except.ok.inj hid
      have hnoSlash : ∀ c ∈ after, (c == '/') = false := by
        intro c hc
        apply beq_false_of_ne
        rintro rfl
        exact hbad (.inr (.inr hc))
      have hpieces := pieces_of_splitOnce hsplit
      rw [Text.pieces_single hnoSlash] at hpieces
      simp only [validNamespacedId, hpieces, Bool.and_eq_true] at hvalid
      simpa using hvalid.2

/-- The characters of names. -/
def dnsChar (c : Char) : Bool := c.isLower || c.isDigit || c == '-' || c == '.'

/-- None is a control character or a space. -/
theorem not_dnsChar_of_le {c : Char} (h : c.toNat ≤ 0x20) : dnsChar c = false := by
  have hval : c.val.toNat ≤ 0x20 := h
  have hlower : c.isLower = false := by
    simp only [Char.isLower, Bool.and_eq_false_iff, decide_eq_false_iff_not, ge_iff_le,
      UInt32.le_iff_toNat_le, not_le]
    left
    have h97 : 'a'.val.toNat = 97 := rfl
    omega
  have hdigit : c.isDigit = false := by
    simp only [Char.isDigit, Bool.and_eq_false_iff, decide_eq_false_iff_not, ge_iff_le,
      UInt32.le_iff_toNat_le, not_le]
    left
    have h48 : '0'.val.toNat = 48 := rfl
    omega
  have hdash : (c == '-') = false := by
    apply beq_false_of_ne
    rintro rfl
    exact absurd h (by decide)
  have hdot : (c == '.') = false := by
    apply beq_false_of_ne
    rintro rfl
    exact absurd h (by decide)
  simp [dnsChar, hlower, hdigit, hdash, hdot]

/-- As the parser of URLs tells them. -/
theorem dnsChar_noC0 {c : Char} (h : dnsChar c = true) : WebUrl.isC0OrSpace c = false := by
  by_contra hc0
  have hle : c.toNat ≤ 0x20 := by simpa [WebUrl.isC0OrSpace] using hc0
  simp [not_dnsChar_of_le hle] at h

/-- None ends the path. -/
theorem dnsChar_staysInPath {c : Char} (h : dnsChar c = true) : WebUrl.endsPath c = false := by
  by_contra hends
  rw [Bool.not_eq_false, WebUrl.endsPath, Bool.or_eq_true, beq_iff_eq, beq_iff_eq] at hends
  rcases hends with rfl | rfl <;> exact absurd h (by decide)

/-- None is a slash. -/
theorem dnsChar_noSlash {c : Char} (h : dnsChar c = true) : WebUrl.isSlash c = false := by
  by_contra hslash
  rw [Bool.not_eq_false, WebUrl.isSlash, Bool.or_eq_true, beq_iff_eq, beq_iff_eq] at hslash
  rcases hslash with rfl | rfl <;> exact absurd h (by decide)

/-- A name has no others. -/
theorem validDns_chars {name : List Char} (h : validDns name = true) :
    ∀ c ∈ name, dnsChar c = true := by
  simp only [validDns, Bool.and_eq_true, List.all_eq_true] at h
  exact h.2

/-- Among names without percent signs, dots are written as dots. -/
theorem dots_eq_some {name : List Char} {n : Nat} (hname : ∀ c ∈ name, dnsChar c = true)
    (h : WebUrl.dots name = some n) : name = List.replicate n '.' := by
  induction name using WebUrl.dots.induct generalizing n with
  | case1 =>
      obtain rfl := Option.some.inj h
      rfl
  | case2 cs ih =>
      simp only [WebUrl.dots, Option.map_eq_some_iff] at h
      obtain ⟨m, hm, rfl⟩ := h
      rw [List.replicate_succ, ← ih (fun c hc => hname c (List.mem_cons_of_mem _ hc)) hm]
  | case3 c cs _ _ => exact absurd (hname '%' List.mem_cons_self) (by decide)
  | case4 c cs _ => exact absurd (hname '%' List.mem_cons_self) (by decide)
  | case5 cs h1 h2 h3 => simp [WebUrl.dots] at h

/-- The path of the runs or of the tasks. -/
def objectsPath (client : TektonClient) (resource : String) : List (List Char) :=
  ["apis".toList, "tekton.dev".toList, "v1".toList, "namespaces".toList,
    client.kubeNamespace.toList, resource.toList]

/-- The URL of the object with a name: its path is that of the objects and the name, which is
neither empty nor resolved. -/
def objectUrl (client : TektonClient) (resource name : String) : Url :=
  { client.kubeOrigin with
    segments := objectsPath client resource ++ [name.toList]
    query := some []
    fragment := none }

/-- The text of the path of an object. -/
def objectText (client : TektonClient) (resource name : String) : String :=
  "/apis/tekton.dev/v1/namespaces/" ++ client.kubeNamespace ++ ("/" ++ resource ++ "/") ++ name

/-- The path of objects is plain. -/
theorem objectsPath_plain {resource : String} (h : WebUrl.PlainSegment resource.toList) :
    ∀ s ∈ objectsPath client resource, WebUrl.PlainSegment s := by
  have hplain : ∀ s ∈ ["apis".toList, "tekton.dev".toList, "v1".toList, "namespaces".toList,
      "pipelines-as-code".toList], WebUrl.PlainSegment s := by decide +kernel
  intro s hs
  rw [objectsPath, client.kubeNamespace_eq] at hs
  rcases List.mem_append.mp (show s ∈ [_, _, _, _, _] ++ [resource.toList] from hs) with hs | hs
  · exact hplain s hs
  · obtain rfl := List.mem_singleton.mp hs
    exact h

/-- The path of an object, segment by segment. -/
theorem objectText_toList (client : TektonClient) (resource name : String) :
    (objectText client resource name).toList =
      '/' :: (WebUrl.directory (objectsPath client resource) ++ name.toList) := by
  have hstart : "/apis/tekton.dev/v1/namespaces/".toList ++ "pipelines-as-code".toList =
      '/' :: WebUrl.directory ["apis".toList, "tekton.dev".toList, "v1".toList,
        "namespaces".toList] ++ "pipelines-as-code".toList := by decide +kernel
  have hslash : "/".toList = ['/'] := rfl
  unfold objectText objectsPath
  simp only [client.kubeNamespace_eq, String.toList_append, hslash]
  rw [hstart]
  simp [WebUrl.directory]

/-- With a valid name, the URL is joined from the name as it is written. -/
theorem kubeUrl_object {resource name : String} (hresource : WebUrl.PlainSegment resource.toList)
    (hname : ∀ c ∈ name.toList, dnsChar c = true) :
    client.kubeUrl (objectText client resource name) [] =
      { client.kubeOrigin with
        segments := WebUrl.addSegment (objectsPath client resource) name.toList true
        query := some []
        fragment := none } := by
  have hplain : WebUrl.Plain name.toList := fun c hc =>
    ⟨dnsChar_noC0 (hname c hc), dnsChar_staysInPath (hname c hc)⟩
  have hslash : ∀ c ∈ name.toList, WebUrl.isSlash c = false := fun c hc =>
    dnsChar_noSlash (hname c hc)
  have hne : objectsPath client resource ≠ [] := List.cons_ne_nil _ _
  have hfirst : WebUrl.directory (objectsPath client resource) = 'a' :: _ := rfl
  rw [client.kubeUrl_directory hfirst (by decide) (objectText_toList client resource name),
    WebUrl.join_segment hne (objectsPath_plain hresource) _ hplain hslash,
    client.kubeOrigin_root]
  rfl

/-- **The object that is aimed at** is that of the name, unless the name is resolved. -/
theorem kubeUrl_object_iff {resource name : String}
    (hresource : WebUrl.PlainSegment resource.toList)
    (hname : ∀ c ∈ name.toList, dnsChar c = true) :
    client.kubeUrl (objectText client resource name) [] = objectUrl client resource name ↔
      name ≠ "." ∧ name ≠ ".." := by
  rw [kubeUrl_object hresource hname]
  constructor
  · intro h
    have hsegments : WebUrl.addSegment (objectsPath client resource) name.toList true =
        objectsPath client resource ++ [name.toList] := congrArg Url.segments h
    constructor
    · rintro rfl
      have hlast := List.append_cancel_left hsegments
      cases hlast
    · rintro rfl
      have hlength := congrArg List.length hsegments
      have hparent : WebUrl.addSegment (objectsPath client resource) "..".toList true =
          (objectsPath client resource).dropLast ++ [[]] := rfl
      rw [hparent] at hlength
      simp [objectsPath] at hlength
  · intro h
    have hdots : WebUrl.dots name.toList ≠ some 1 ∧ WebUrl.dots name.toList ≠ some 2 := by
      constructor
      · intro hone
        exact h.1 (String.toList_inj.mp (dots_eq_some hname hone))
      · intro htwo
        exact h.2 (String.toList_inj.mp (dots_eq_some hname htwo))
    rw [WebUrl.addSegment_of_noDots hdots]
    rfl

/-- The requests that are built from an id, with the resource they are for: the first of
`owned_run`, those of `task_object`, and the first and the PATCH of `cancel`. -/
inductive ObjectRequest (crates : WorkflowCrates) (client : PacClient) (id : String) :
    String → Request → Prop
  | ownedRun {t : Trace Ans} {k : OperationKind} {request : Request}
      {next : Ans (.send k request) → Program Op Ans (Except Error (Value × Repository))}
      (hrun : Reaches (client.ownedRun crates.toCrates id).run t (.call (.send k request) next))
      (hfirst : requests t = []) : ObjectRequest crates client id "pipelineruns" request
  | taskObject {t : Trace Ans} {k : OperationKind} {request : Request}
      {next : Ans (.send k request) → Program Op Ans (Except Error Value)}
      (hrun : Reaches (client.taskObject crates.toCrates id).run t (.call (.send k request) next)) :
      ObjectRequest crates client id "taskruns" request
  | cancel {t : Trace Ans} {k : OperationKind} {request : Request}
      {next : Ans (.send k request) → Program Op Ans (Except Error Value)}
      (hrun : Reaches (client.cancel crates id).run t (.call (.send k request) next))
      (hobject : requests t = [] ∨ request.method = .patch) :
      ObjectRequest crates client id "pipelineruns" request

/-- The first request of `owned_run` is for the run. -/
theorem ownedRun_first {id name : String} {k : OperationKind} {request : Request}
    {next : Ans (.send k request) → Program Op Ans (Except Error (Value × Repository))}
    (hid : namespacedId id client.kubeNamespace = .ok name)
    (h : Reaches (client.ownedRun crates id).run t (.call (.send k request) next))
    (hfirst : requests t = []) :
    request.url = client.kubeUrl (objectText client "pipelineruns" name) [] := by
  unfold TektonClient.ownedRun at h
  obtain ⟨name', hname, h₁⟩ := h.run_answer_call
  obtain rfl := Except.ok.inj (hid.symm.trans hname)
  rcases h₁.run_bind_call with ⟨next', hsend⟩ | ⟨run, first, rest, hdone, -, rfl⟩
  · obtain ⟨-, -, token, rfl⟩ := kubeJson_pending hsend
    rfl
  · rcases kubeJson_done hdone with ⟨-, hnone | hnone⟩ | ⟨token, exchange, hone, -⟩
    · cases hnone
    · cases hnone
    · rw [requests_append, hone] at hfirst
      cases hfirst

/-- The request for a task is at its own path. -/
theorem taskObject_request {id name : String} {k : OperationKind} {request : Request}
    {next : Ans (.send k request) → Program Op Ans (Except Error Value)}
    (hid : namespacedId id client.kubeNamespace = .ok name)
    (h : Reaches (client.taskObject crates id).run t (.call (.send k request) next)) :
    request.url = client.kubeUrl (objectText client "taskruns" name) [] := by
  unfold TektonClient.taskObject at h
  obtain ⟨name', hname, h₁⟩ := h.run_answer_call
  obtain rfl := Except.ok.inj (hid.symm.trans hname)
  obtain ⟨-, -, token, rfl⟩ := kubeJson_pending h₁
  rfl

/-- `cancel` reads the run first, and patches it. -/
theorem cancel_request {crates : WorkflowCrates} {client : PacClient} {id name : String}
    {k : OperationKind} {request : Request}
    {next : Ans (.send k request) → Program Op Ans (Except Error Value)}
    (hid : namespacedId id client.kubeNamespace = .ok name)
    (h : Reaches (client.cancel crates id).run t (.call (.send k request) next))
    (hobject : requests t = [] ∨ request.method = .patch) :
    request.url = client.kubeUrl (objectText client.toTektonClient "pipelineruns" name) [] := by
  unfold PacClient.cancel at h
  rcases h.run_bind_call with ⟨next', howned⟩ | ⟨owned, first, rest, -, h₁, rfl⟩
  · have hget := (ownedRun_readsOnly id _ _ _ _ howned).2
    rcases hobject with hfirst | hpatch
    · exact ownedRun_first hid howned hfirst
    · rw [hget] at hpatch
      cases hpatch
  · obtain ⟨-, h₂⟩ := h₁.run_ensure_call
    obtain ⟨resourceVersion, -, h₃⟩ := h₂.run_answer_call
    obtain ⟨name', hname, h₄⟩ := h₃.run_answer_call
    obtain rfl := Except.ok.inj (hid.symm.trans hname)
    rcases h₄.run_bind_call with ⟨next', hsend⟩ | ⟨_, _, _, -, hlast, -⟩
    · obtain ⟨-, -, token, rfl⟩ := kubeJson_pending hsend
      rfl
    · cases hlast

/-- **Identity.**  The requests built from a valid id go to the object with its name in the
namespace exactly when the name is neither `.` nor `..`. -/
theorem object_request_iff (crates : WorkflowCrates) (client : PacClient)
    {id name resource : String} {request : Request} (hvalid : validNamespacedId id = true)
    (hid : namespacedId id client.kubeNamespace = .ok name)
    (hrequest : ObjectRequest crates client id resource request) :
    request.url = objectUrl client.toTektonClient resource name ↔ name ≠ "." ∧ name ≠ ".." := by
  have hchars := validDns_chars (validDns_name hvalid hid)
  have hruns : WebUrl.PlainSegment "pipelineruns".toList := by decide +kernel
  have htasks : WebUrl.PlainSegment "taskruns".toList := by decide +kernel
  cases hrequest with
  | ownedRun hrun hfirst =>
      rw [ownedRun_first hid hrun hfirst]
      exact kubeUrl_object_iff hruns hchars
  | taskObject hrun =>
      rw [taskObject_request hid hrun]
      exact kubeUrl_object_iff htasks hchars
  | cancel hrun hobject =>
      rw [cancel_request hid hrun hobject]
      exact kubeUrl_object_iff hruns hchars

/-- A client with what the mutations need. -/
def samplePac : PacClient where
  toTektonClient := sampleClient
  forgejoToken := "forgejo-secret"
  pacOrigin := ⟨"https", "", none, "pac.holdenitdown.net", 443, [[]], none, none⟩
  pacSecret := "pac-secret"

/-- Parsers that know no text. -/
def noCrates : WorkflowCrates where
  parseJson _ := none
  parseUrl _ := none
  yamlDocuments _ := []
  decodeBase64 _ := none
  sha256 _ := []
  encodeUrlSafe _ := ""

/-- What is sent for the task of an id. -/
def taskRequest (name : String) : Request :=
  ⟨.get, sampleClient.kubeUrl (objectText sampleClient "taskruns" name) [], "token", none⟩

/-- The request for a task is sent. -/
theorem taskRequest_sent {id name : String} (hid : namespacedId id "pipelines-as-code" = .ok name) :
    ObjectRequest noCrates samplePac id "taskruns" (taskRequest name) := by
  have hrun : ∃ next, Reaches (samplePac.taskObject noCrates.toCrates id).run
      [⟨.readToken, some "token"⟩, ⟨.tryAcquire, true⟩]
      (.call (.send .read (taskRequest name)) next) := by
    unfold TektonClient.taskObject
    rw [show namespacedId id samplePac.kubeNamespace = .ok name from hid]
    exact ⟨_, .step (.step (.refl _))⟩
  obtain ⟨next, hrun⟩ := hrun
  exact .taskObject hrun

/-- The request for a plain name goes to its object. -/
theorem object_request_iff_plain :
    (taskRequest "task").url = objectUrl sampleClient "taskruns" "task" :=
  (object_request_iff noCrates samplePac (by decide +kernel) (by rfl)
    (taskRequest_sent (show namespacedId "pipelines-as-code/task" _ = .ok _ from rfl))).mpr
      (by decide)

/-- With the name `..` the request goes to the parent of the tasks. -/
theorem dots_name_parent : ¬ ∀ id name resource request, validNamespacedId id = true →
    namespacedId id samplePac.kubeNamespace = .ok name →
      ObjectRequest noCrates samplePac id resource request →
        request.url = objectUrl samplePac.toTektonClient resource name := by
  intro h
  have hurl := h "pipelines-as-code/.." ".." "taskruns" (taskRequest "..") (by decide +kernel)
    (by rfl) (taskRequest_sent (by rfl))
  have hsegments := congrArg Url.segments hurl
  revert hsegments
  decide +kernel

end Tekton
