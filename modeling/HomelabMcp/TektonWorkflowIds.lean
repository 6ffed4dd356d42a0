import HomelabMcp.TektonMutations
import HomelabMcp.TektonRepositories
import HomelabMcp.TextDecimals
import HomelabMcp.TextEncoding

/-!
# The ids of workflows

The id of a workflow is a digest of the repository, the revision, the path of the file, the index
of the document and the name of the definition, joined by NUL.  A path may contain NUL itself.

* `WorkflowSource.bytes_inj`: what is hashed determines all five, since the first two and the last
  two have no NUL.
* `workflow_ids_unambiguous`: a dispatch sends the definition that was listed under its id, or the
  digest has a collision.
-/

namespace Tekton

open Interaction
open Json (Value)
open Text (Bytes decimal)
open WebUrl (Url)

/-- Where the definition of a workflow stands. -/
structure WorkflowSource where
  repository : String
  revision : String
  path : String
  index : Nat
  definition : String
  deriving DecidableEq

/-- Two inputs of a digest with one output. -/
def Collision (digest : Bytes → Bytes) (x y : Bytes) : Prop := x ≠ y ∧ digest x = digest y

namespace WorkflowSource

/-- What is hashed of a source, as text. -/
def text (source : WorkflowSource) : String :=
  source.repository ++ "\x00" ++ source.revision ++ "\x00" ++ source.path ++ "\x00" ++
    toString source.index ++ "\x00" ++ source.definition

/-- What is hashed. -/
def bytes (source : WorkflowSource) : Bytes := source.text.toUTF8.toList

/-- The id of a source. -/
def id (crates : WorkflowCrates) (source : WorkflowSource) : String :=
  "workflow/" ++ crates.encodeUrlSafe (crates.sha256 source.bytes)

/-- Each part has been accepted: the repository from the catalog, the revision as a default branch,
the path from a listing, the index and the definition from a document. -/
def Accepted (crates : WorkflowCrates) (client : PacClient) (source : WorkflowSource) : Prop :=
  ∃ item repository metadata listing files document workflow,
    parseRepository crates.toCrates client.forgejoOrigin client.forgejoOriginText item =
      some repository ∧ source.repository = repository.id ∧
    defaultBranch metadata = .ok source.revision ∧
    workflowFiles listing = .ok files ∧ source.path ∈ files ∧ source.index < maxWorkflowDocuments ∧
    parseWorkflow crates repository source.revision source.path source.index document =
      .ok (some workflow) ∧ source.definition = workflow.definition

/-- Only the path may have a NUL in it. -/
structure Separated (source : WorkflowSource) : Prop where
  repository : '\x00' ∉ source.repository.toList
  revision : '\x00' ∉ source.revision.toList
  definition : '\x00' ∉ source.definition.toList

end WorkflowSource

/-- A number has no null. -/
theorem nul_not_mem_decimal (n : Nat) : '\x00' ∉ decimal n := by
  intro hmem
  exact absurd (Text.isDigit_of_mem_decimal hmem) (by decide)

namespace WorkflowSource

/-- The parts of the text, with nulls between. -/
theorem toList_text (source : WorkflowSource) :
    source.text.toList = source.repository.toList ++ '\x00' :: (source.revision.toList ++ '\x00' ::
      (source.path.toList ++ '\x00' :: decimal source.index ++ '\x00' ::
        source.definition.toList)) := by
  simp only [text, String.toList_append, Text.toList_toString, List.append_assoc]
  rfl

/-- **What is hashed determines what it was made of.**  The first two NULs end the repository and
the revision; of the rest, the last two begin the index and the definition. -/
theorem bytes_inj {a b : WorkflowSource} (ha : a.Separated) (hb : b.Separated)
    (h : a.bytes = b.bytes) : a = b := by
  have htext : a.text.toList = b.text.toList := congrArg String.toList (Text.toUTF8_inj h)
  rw [toList_text, toList_text] at htext
  obtain ⟨hrepository, hrest⟩ := Text.append_cons_inj ha.repository hb.repository htext
  obtain ⟨hrevision, hrest⟩ := Text.append_cons_inj ha.revision hb.revision hrest
  obtain ⟨hfront, hdefinition⟩ := Text.append_cons_inj_last ha.definition hb.definition hrest
  obtain ⟨hpath, hindex⟩ := Text.append_cons_inj_last (nul_not_mem_decimal a.index)
    (nul_not_mem_decimal b.index) hfront
  obtain ⟨repository, revision, path, index, definition⟩ := a
  obtain ⟨repository', revision', path', index', definition'⟩ := b
  obtain rfl := String.toList_inj.mp hrepository
  obtain rfl := String.toList_inj.mp hrevision
  obtain rfl := String.toList_inj.mp hpath
  obtain rfl := Text.decimal_inj hindex
  obtain rfl := String.toList_inj.mp hdefinition
  rfl

end WorkflowSource

section Accepted

variable {crates : WorkflowCrates} {client : PacClient} {repository : Repository}
  {revision path : String} {index : Nat} {workflow : Workflow}

/-- A bounded text has none. -/
theorem nul_not_mem_of_boundedText {text : String} {maximum : Nat}
    (h : boundedText text maximum = true) : '\x00' ∉ text.toList := by
  intro hmem
  rw [boundedText, validText, Bool.and_eq_true] at h
  have hcontrol : text.toList.any Text.isControl = true :=
    List.any_eq_true.mpr ⟨_, hmem, by decide⟩
  rw [Text.noControl, hcontrol] at h
  cases h.2

/-- Nor has a component. -/
theorem nul_not_mem_component {text : String} (h : validRepositoryComponent text = true) :
    '\x00' ∉ text.toList := by
  rw [validRepositoryComponent, Bool.and_eq_true] at h
  exact nul_not_mem_of_boundedText h.1

/-- Nor has the id of a repository. -/
theorem nul_not_mem_repository {origin : Url} {originText : String} {item : Value}
    (h : parseRepository crates.toCrates origin originText item = some repository) :
    '\x00' ∉ repository.id.toList := by
  obtain ⟨crName, raw, url, owner, name, -, -, -, -, hparts, rfl⟩ := parseRepository_eq_some.mp h
  obtain ⟨last, -, rfl, howner, hname⟩ := repositoryParts_eq_some.mp hparts
  simp only [String.toList_append, List.mem_append, not_or]
  exact ⟨⟨nul_not_mem_component howner, by decide⟩, nul_not_mem_component hname⟩

/-- Nor has a branch. -/
theorem nul_not_mem_defaultBranch {metadata : Value} (h : defaultBranch metadata = .ok revision) :
    '\x00' ∉ revision.toList := by
  unfold defaultBranch at h
  obtain ⟨branch, -, h⟩ := bind_eq_ok.mp h
  split_ifs at h with hbounded
  obtain rfl := Except.ok.inj h
  exact nul_not_mem_of_boundedText hbounded

/-- What a workflow says about where it comes from. -/
theorem parseWorkflow_spec {document : Value}
    (h : parseWorkflow crates repository revision path index document = .ok (some workflow)) :
    boundedText workflow.definition 253 = true ∧ workflow.repository = repository.id ∧
      workflow.revision = revision ∧ workflow.path = path ∧
      workflow.id =
        WorkflowSource.id crates ⟨repository.id, revision, path, index, workflow.definition⟩ := by
  unfold parseWorkflow at h
  split_ifs at h with hkind
  · cases h
  · obtain ⟨definition, -, h⟩ := bind_eq_ok.mp h
    split_ifs at h with hbounded
    obtain ⟨events, -, h⟩ := bind_eq_ok.mp h
    obtain rfl := Option.some.inj (Except.ok.inj h)
    exact ⟨by simpa using hbounded, rfl, rfl, rfl, rfl⟩

/-- What is accepted can be told apart in the text. -/
theorem WorkflowSource.Accepted.separated {source : WorkflowSource}
    (h : source.Accepted crates client) : source.Separated := by
  obtain ⟨item, repository, metadata, listing, files, document, workflow, hparse, hrepository,
    hbranch, -, -, -, hworkflow, hdefinition⟩ := h
  constructor
  · rw [hrepository]
    exact nul_not_mem_repository hparse
  · exact nul_not_mem_defaultBranch hbranch
  · rw [hdefinition]
    exact nul_not_mem_of_boundedText (parseWorkflow_spec hworkflow).1

end Accepted

section Discovery

variable {crates : WorkflowCrates} {client : PacClient} {repository : Repository} {t : Trace Ans}

/-- The call has received the default branch of the repository, a listing of that branch and a file
of the listing, and the document of the source in that file gives the workflow. -/
def FoundAt (crates : WorkflowCrates) (client : PacClient) (t : Trace Ans)
    (repository : Repository) (source : WorkflowSource) (workflow : Workflow) : Prop :=
  ∃ metadata listing files content bytes text document,
    Received crates.toCrates t (client.forgejoUrl (PacClient.repositorySegments repository) [])
      metadata ∧ defaultBranch metadata = .ok source.revision ∧
    Received crates.toCrates t (client.forgejoUrl (PacClient.repositorySegments repository ++
      ["contents".toList, ".tekton".toList]) [("ref", source.revision)]) listing ∧
    workflowFiles listing = .ok files ∧ source.path ∈ files ∧
    Received crates.toCrates t (client.forgejoUrl
      (PacClient.contentSegments repository source.path) [("ref", source.revision)]) content ∧
    fileBytes crates content = .ok bytes ∧ Text.decode bytes = some text ∧
    (crates.yamlDocuments text)[source.index]? = some (some document) ∧
    source.index < maxWorkflowDocuments ∧
    parseWorkflow crates repository source.revision source.path source.index document =
      .ok (some workflow) ∧
    source.repository = repository.id ∧ source.definition = workflow.definition

/-- Where the workflows of a file stand in it. -/
theorem parseDocuments_at {revision path : String} {index : Nat} {documents : List (Option Value)}
    {workflows : List Workflow}
    (h : parseDocuments crates repository revision path index documents = .ok workflows) :
    ∀ workflow ∈ workflows, ∃ i document, documents[i]? = some (some document) ∧
      index + i < maxWorkflowDocuments ∧
      parseWorkflow crates repository revision path (index + i) document = .ok (some workflow) := by
  induction documents generalizing index workflows with
  | nil =>
      obtain rfl := Except.ok.inj h
      exact fun workflow hmem => absurd hmem List.not_mem_nil
  | cons document documents ih =>
      unfold parseDocuments at h
      split_ifs at h with hmany
      obtain ⟨value, hvalue, h⟩ := bind_eq_ok.mp h
      obtain ⟨found, hfound, h⟩ := bind_eq_ok.mp h
      obtain ⟨others, hothers, h⟩ := bind_eq_ok.mp h
      obtain rfl := Except.ok.inj h
      intro workflow hmem
      rcases List.mem_append.mp hmem with hmem | hmem
      · obtain rfl := Option.mem_toList.mp hmem
        have hfirst : index < maxWorkflowDocuments := Nat.lt_of_not_le hmany
        exact ⟨0, value, by rw [okOr_eq_ok.mp hvalue]; rfl, hfirst, hfound⟩
      · obtain ⟨i, other, hother, hbound, hparsed⟩ := ih hothers workflow hmem
        have hindex : index + (i + 1) = index + 1 + i := by omega
        rw [← hindex] at hbound hparsed
        exact ⟨i + 1, other, hother, hbound, hparsed⟩

/-- A discovered workflow stands in some document. -/
theorem Discovered.foundAt {workflow : Workflow}
    (h : Discovered crates client t repository workflow) :
    ∃ source, FoundAt crates client t repository source workflow := by
  obtain ⟨metadata, revision, listing, files, path, hmetadata, hrevision, hlisting, hfiles, hpath,
    content, bytes, workflows, hcontent, hbytes, hparsed, hmem⟩ := h
  unfold parseWorkflows at hparsed
  obtain ⟨text, htext, hparsed⟩ := bind_eq_ok.mp hparsed
  obtain ⟨i, document, hdocument, hbound, hworkflow⟩ := parseDocuments_at hparsed workflow hmem
  rw [Nat.zero_add] at hbound hworkflow
  exact ⟨⟨repository.id, revision, path, i, workflow.definition⟩, metadata, listing, files, content,
    bytes, text, document, hmetadata, hrevision, hlisting, hfiles, hpath, hcontent, hbytes,
    okOr_eq_ok.mp htext, hdocument, hbound, hworkflow, rfl, rfl⟩

/-- The id of a workflow is that of its source. -/
theorem FoundAt.id_eq {source : WorkflowSource} {workflow : Workflow}
    (h : FoundAt crates client t repository source workflow) : workflow.id = source.id crates := by
  obtain ⟨metadata, listing, files, content, bytes, text, document, -, -, -, -, -, -, -, -, -, -,
    hworkflow, hrepository, hdefinition⟩ := h
  obtain ⟨repositoryId, revision, path, index, definition⟩ := source
  dsimp only at hrepository hdefinition hworkflow
  rw [hrepository, hdefinition]
  exact (parseWorkflow_spec hworkflow).2.2.2.2

/-- A source that is found can be told apart. -/
theorem FoundAt.separated {source : WorkflowSource} {workflow : Workflow}
    (h : FoundAt crates client t repository source workflow)
    (hrepository : '\x00' ∉ repository.id.toList) : source.Separated := by
  obtain ⟨metadata, listing, files, content, bytes, text, document, -, hbranch, -, -, -, -, -, -, -,
    -, hworkflow, hid, hdefinition⟩ := h
  constructor
  · rwa [hid]
  · exact nul_not_mem_defaultBranch hbranch
  · rw [hdefinition]
    exact nul_not_mem_of_boundedText (parseWorkflow_spec hworkflow).1

/-- A repository of the catalog has been accepted. -/
theorem Cataloged.parsed (h : Cataloged crates client t repository) :
    ∃ item, parseRepository crates.toCrates client.forgejoOrigin client.forgejoOriginText item =
      some repository := by
  obtain ⟨before, listing, after, repositories, -, hcatalog, hmem⟩ := h
  unfold TektonClient.repositoryCatalog at hcatalog
  obtain ⟨⟨items, truncated⟩, first, rest, -, hrest, -⟩ := hcatalog.run_bind_ok
  cases truncated with
  | true => cases hrest
  | false =>
      obtain ⟨hcatalog, -⟩ := hrest.run_answer_ok
      unfold catalogOf at hcatalog
      dsimp only at hcatalog
      split_ifs at hcatalog with hnodup
      obtain rfl := Except.ok.inj hcatalog
      rw [List.mem_insertionSort, List.mem_filterMap] at hmem
      obtain ⟨item, -, hitem⟩ := hmem
      exact ⟨item, hitem⟩

/-- **Equal ids.**  What is found under one id is the same, or the digest has a collision. -/
theorem source_eq_or_collision (hencode : Function.Injective crates.encodeUrlSafe)
    {a b : WorkflowSource} (ha : a.Separated) (hb : b.Separated)
    (hid : a.id crates = b.id crates) : a = b ∨ Collision crates.sha256 a.bytes b.bytes := by
  have hdigest : crates.sha256 a.bytes = crates.sha256 b.bytes := by
    have hlist := congrArg String.toList hid
    simp only [WorkflowSource.id, String.toList_append, List.append_cancel_left_eq] at hlist
    exact hencode (String.toList_inj.mp hlist)
  by_cases hbytes : a.bytes = b.bytes
  · exact .inl (WorkflowSource.bytes_inj ha hb hbytes)
  · exact .inr ⟨hbytes, hdigest⟩

end Discovery

/-- **Workflow ids are unambiguous.**  What is hashed determines the accepted source.  What a
dispatch sends for the id of a workflow that was found in another run stands at the same place, and
two documents of one discovery with one id are the same, unless the digest has a collision. -/
theorem workflow_ids_unambiguous (crates : WorkflowCrates)
    (hencode : Function.Injective crates.encodeUrlSafe) (client : PacClient) :
    (∀ a b : WorkflowSource, a.Accepted crates client → b.Accepted crates client →
      a.bytes = b.bytes → a = b) ∧
    (∀ item repository t workflows,
      parseRepository crates.toCrates client.forgejoOrigin client.forgejoOriginText item =
        some repository →
      Reaches (client.repositoryWorkflows crates repository).run t (.done (.ok workflows)) →
      (∀ workflow ∈ workflows, ∃ listed, FoundAt crates client t repository listed workflow) ∧
      (∀ workflow listed, FoundAt crates client t repository listed workflow →
        ∀ command u kind request next,
          Reaches (client.dispatch crates command).run u (.call (.send kind request) next) →
          request.method ≠ .get → command.workflow = workflow.id →
          ∃ repository' workflow' found, Cataloged crates client u repository' ∧
            repository'.id = command.repository ∧
            FoundAt crates client u repository' found workflow' ∧
            request = client.pacRequest repository' workflow'.definition command.reference
              command.params ∧
            (found = listed ∨ Collision crates.sha256 found.bytes listed.bytes)) ∧
      ∀ a b workflow workflow', FoundAt crates client t repository a workflow →
        FoundAt crates client t repository b workflow' → (a.path, a.index) ≠ (b.path, b.index) →
        workflow.id ≠ workflow'.id ∨ Collision crates.sha256 a.bytes b.bytes) := by
  refine ⟨fun a b ha hb h => WorkflowSource.bytes_inj ha.separated hb.separated h, ?_⟩
  intro item repository t workflows hparse hrun
  have hrepository := nul_not_mem_repository hparse
  refine ⟨fun workflow hmem => (repositoryWorkflows_discovered hrun workflow hmem).foundAt, ?_, ?_⟩
  · intro workflow listed hlisted command u kind request next hsend hmethod hid
    obtain ⟨-, hmay⟩ := (dispatch_safe command).sends u kind request next hsend hmethod
    obtain ⟨repository', workflow', hcataloged, hrepository', hdiscovered, hid', -, hrequest⟩ :=
      hmay
    obtain ⟨found, hfound⟩ := hdiscovered.foundAt
    obtain ⟨item', hitem'⟩ := hcataloged.parsed
    have hsame : found.id crates = listed.id crates := by
      rw [← hfound.id_eq, hid', hid, hlisted.id_eq]
    exact ⟨repository', workflow', found, hcataloged, hrepository', hfound, hrequest,
      source_eq_or_collision hencode (hfound.separated (nul_not_mem_repository hitem'))
        (hlisted.separated hrepository) hsame⟩
  · intro a b workflow workflow' ha hb hplaces
    by_cases hid : workflow.id = workflow'.id
    · have hsame : a.id crates = b.id crates := by rw [← ha.id_eq, hid, hb.id_eq]
      rcases source_eq_or_collision hencode (ha.separated hrepository) (hb.separated hrepository)
        hsame with heq | hcollision
      · exact absurd (congrArg (fun source => (source.path, source.index)) heq) hplaces
      · exact .inr hcollision
    · exact .inl hid

/-- The digits of URL-safe Base64. -/
def base64Digit (n : Nat) : Char :=
  if n < 26 then Char.ofNat (0x41 + n) else if n < 52 then Char.ofNat (0x61 + (n - 26))
  else if n < 62 then Char.ofNat (0x30 + (n - 52)) else if n = 62 then '-' else '_'

/-- URL-safe Base64 without padding. -/
def base64Digits : Bytes → List Char
  | [] => []
  | [a] => [base64Digit (a.toNat / 4), base64Digit (a.toNat % 4 * 16)]
  | [a, b] => [base64Digit (a.toNat / 4), base64Digit (a.toNat % 4 * 16 + b.toNat / 16),
      base64Digit (b.toNat % 16 * 4)]
  | a :: b :: c :: rest => base64Digit (a.toNat / 4) ::
      base64Digit (a.toNat % 4 * 16 + b.toNat / 16) ::
      base64Digit (b.toNat % 16 * 4 + c.toNat / 64) :: base64Digit (c.toNat % 64) ::
      base64Digits rest

/-- Digits are told apart. -/
theorem base64Digit_inj {m n : Nat} (hm : m < 64) (hn : n < 64)
    (h : base64Digit m = base64Digit n) : m = n := by
  have hall : ∀ m n : Fin 64, base64Digit m = base64Digit n → m = n := by decide +kernel
  exact congrArg Fin.val (hall ⟨m, hm⟩ ⟨n, hn⟩ h)

/-- So are texts of them. -/
theorem base64Digits_inj : ∀ {a b : Bytes}, base64Digits a = base64Digits b → a = b := by
  intro a
  have heq : ∀ {x y : UInt8}, x.toNat = y.toNat → x = y := UInt8.toNat_inj.mp
  have hbound : ∀ x : UInt8, x.toNat < 256 := UInt8.toNat_lt
  induction a using base64Digits.induct with
  | case1 =>
      intro b h
      rcases b with _ | ⟨x, _ | ⟨y, _ | ⟨z, rest⟩⟩⟩ <;> simp_all [base64Digits]
  | case2 p =>
      intro b h
      have hp := hbound p
      rcases b with _ | ⟨x, _ | ⟨y, _ | ⟨z, rest⟩⟩⟩ <;>
        simp only [base64Digits, List.cons.injEq, reduceCtorEq, and_false, and_true] at h
      have hx := hbound x
      have h₁ := base64Digit_inj (by omega) (by omega) h.1
      have h₂ := base64Digit_inj (by omega) (by omega) h.2
      rw [heq (show p.toNat = x.toNat by omega)]
  | case3 p q =>
      intro b h
      have hp := hbound p
      have hq := hbound q
      rcases b with _ | ⟨x, _ | ⟨y, _ | ⟨z, rest⟩⟩⟩ <;>
        simp only [base64Digits, List.cons.injEq, reduceCtorEq, and_false, and_true] at h
      have hx := hbound x
      have hy := hbound y
      have h₁ := base64Digit_inj (by omega) (by omega) h.1
      have h₂ := base64Digit_inj (by omega) (by omega) h.2.1
      have h₃ := base64Digit_inj (by omega) (by omega) h.2.2
      rw [heq (show p.toNat = x.toNat by omega), heq (show q.toNat = y.toNat by omega)]
  | case4 p q r rest ih =>
      intro b h
      have hp := hbound p
      have hq := hbound q
      have hr := hbound r
      rcases b with _ | ⟨x, _ | ⟨y, _ | ⟨z, rest'⟩⟩⟩ <;>
        simp only [base64Digits, List.cons.injEq, reduceCtorEq, and_false] at h
      have hx := hbound x
      have hy := hbound y
      have hz := hbound z
      have h₁ := base64Digit_inj (by omega) (by omega) h.1
      have h₂ := base64Digit_inj (by omega) (by omega) h.2.1
      have h₃ := base64Digit_inj (by omega) (by omega) h.2.2.1
      have h₄ := base64Digit_inj (by omega) (by omega) h.2.2.2.1
      rw [heq (show p.toNat = x.toNat by omega), heq (show q.toNat = y.toNat by omega),
        heq (show r.toNat = z.toNat by omega), ih h.2.2.2.2]

/-- A workflow of a file. -/
def runSource : WorkflowSource := ⟨"a/b", "main", ".tekton/run.yaml", 0, "deploy"⟩

/-- A workflow of a file whose name goes on after a null. -/
def nulSource : WorkflowSource := ⟨"a/b", "main", ".tekton/run.yaml\x000.yaml", 1, "deploy"⟩

/-- Parsers that know the URL of the repository, and the digests of the two sources. -/
def base64Crates : WorkflowCrates where
  parseJson _ := none
  parseUrl := (logCrates "pod-a").parseUrl
  yamlDocuments _ := []
  decodeBase64 _ := none
  sha256 bytes :=
    if bytes = runSource.bytes then [0, 117, 34, 43, 5, 98, 242, 94, 232, 198, 141, 166, 68, 29,
      242, 217, 69, 89, 21, 134, 25, 119, 52, 73, 196, 128, 20, 14, 73, 86, 137, 14]
    else if bytes = nulSource.bytes then [80, 138, 139, 34, 30, 165, 94, 111, 229, 231, 22, 141,
      249, 206, 153, 17, 247, 38, 210, 182, 86, 43, 139, 33, 9, 217, 17, 114, 41, 249, 100, 42]
    else []
  encodeUrlSafe bytes := String.ofList (base64Digits bytes)

/-- This encoding tells bytes apart. -/
theorem base64Crates_injective : Function.Injective base64Crates.encodeUrlSafe := by
  intro a b h
  exact base64Digits_inj (String.ofList_inj.mp h)

/-- A document that runs. -/
def deployDocument : Value := .object [
  ("kind", .string "PipelineRun"), ("metadata", .object [("name", .string "deploy")])]

/-- A listing with both files. -/
def runListing : Value := .array ([runSource, nulSource].map fun source => .object [
  ("path", .string source.path), ("type", .string "file")])

/-- The repository of both. -/
def deployRepository : Repository :=
  ⟨"a/b", "demo", "a", "b", "https://git.holdenitdown.net/a/b"⟩

/-- The workflow is parsed. -/
theorem parseWorkflow_deploy (crates : WorkflowCrates) (repository : Repository)
    (revision path : String) (index : Nat) :
    ∃ workflow, parseWorkflow crates repository revision path index deployDocument =
      .ok (some workflow) ∧ "deploy" = workflow.definition := by
  have hbounded : boundedText "deploy" 253 = true := by decide +kernel
  have hdefinition : definitionOf deployDocument = some "deploy" := by decide +kernel
  have hevents : eventsOf deployDocument = .ok [] := rfl
  have hkind : (deployDocument.field "kind").asStr = some "PipelineRun" := by decide
  have hguard : ¬ (!boundedText "deploy" 253) = true := by rw [hbounded]; decide
  unfold parseWorkflow
  rw [if_neg (not_not.mpr hkind), hdefinition, hevents]
  exact ⟨⟨WorkflowSource.id crates ⟨repository.id, revision, path, index, "deploy"⟩, repository.id,
    "deploy", path, revision, [], false⟩, @if_neg _ _ hguard _ (.error .invalidResponse) _, rfl⟩

/-- Such a source is accepted. -/
theorem sample_accepted {source : WorkflowSource} (hrepository : source.repository = "a/b")
    (hrevision : source.revision = "main") (hdefinition : source.definition = "deploy")
    (hindex : source.index < maxWorkflowDocuments)
    (hpath : source.path ∈ [runSource.path, nulSource.path]) :
    source.Accepted base64Crates samplePac := by
  have hparse : parseRepository base64Crates.toCrates samplePac.forgejoOrigin
      samplePac.forgejoOriginText (repositoryObject "demo" "https://git.holdenitdown.net/a/b") =
        some deployRepository := by decide +kernel
  have hbranch : defaultBranch (.object [("default_branch", .string "main")]) = .ok "main" := rfl
  have hfiles : workflowFiles runListing = .ok [runSource.path, nulSource.path] := rfl
  obtain ⟨workflow, hworkflow, hname⟩ := parseWorkflow_deploy base64Crates deployRepository
    source.revision source.path source.index
  rw [← hrevision] at hbranch
  rw [← hdefinition] at hname
  exact ⟨_, deployRepository, _, runListing, _, deployDocument, workflow, hparse, hrepository,
    hbranch, hfiles, hpath, hindex, hworkflow, hname⟩

/-- The path with a NUL in it does not make the two ids one. -/
theorem workflow_ids_unambiguous_nul :
    runSource.Accepted base64Crates samplePac ∧ nulSource.Accepted base64Crates samplePac ∧
      runSource.bytes ≠ nulSource.bytes := by
  have hrun : runSource.Accepted base64Crates samplePac :=
    sample_accepted rfl rfl rfl (by decide) (by simp)
  have hnul : nulSource.Accepted base64Crates samplePac :=
    sample_accepted rfl rfl rfl (by decide) (by simp)
  refine ⟨hrun, hnul, fun heq => ?_⟩
  have hsame := (workflow_ids_unambiguous base64Crates base64Crates_injective samplePac).1
    runSource nulSource hrun hnul heq
  exact absurd hsame (by decide)

end Tekton
