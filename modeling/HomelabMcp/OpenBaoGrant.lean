import HomelabMcp.DeploymentPolicy
import HomelabMcp.OpenBaoClient
import HomelabMcp.TextPairs

/-!
# What the deployment grants at OpenBao

The deployment writes a policy for the role of the server, with the one path of the signing
endpoint.  The server builds its requests from the same settings.

* `granted_iff_signs`: the server is built unless the origin has a query or a fragment, which the
  deployment lets pass where it is empty; and then the policy covers the path of the server's
  signature and no other.
-/

namespace OpenBao

open WebUrl (Url)
open Whatwg (UrlRecord)

/-- `^[A-Za-z0-9][A-Za-z0-9_-]{0,127}$`. -/
def validateOpenBaoSegment (value name : String) : Except String String :=
  if Policy.startsAndContinues Char.isAlphanum isSegmentChar 127 value then .ok value
  else .error (name ++ " must be a single safe OpenBao path segment")

/-- Where the token of the service account is mounted. -/
def openbaoJwtFile : String := "/var/run/secrets/homelab-mcp/openbao/token"

/-- The settings as they reach the server. -/
def deployedConfig (origin : Url) (kubernetesAuthMount kubernetesRole sshMount sshRole : String) :
    OpenBaoConfig :=
  ⟨origin, kubernetesAuthMount, kubernetesRole, sshMount, sshRole, openbaoJwtFile, 5000⟩

/-- The path of the policy that is written for the role. -/
def grantedPath (sshMount sshRole : String) : String := sshMount ++ "/sign/" ++ sshRole

/-- The segments of a policy's path against those of a request. OpenBao documents of its policies
that `+` stands for any one segment. -/
def segmentsMatch (glob : Bool) : List (List Char) → List (List Char) → Bool
  | [], [] => true
  | [last], segment :: rest =>
      if glob then last.isPrefixOf segment
      else (last == ['+'] || last == segment) && rest.isEmpty
  | pattern :: patterns, segment :: segments =>
      (pattern == ['+'] || pattern == segment) && segmentsMatch glob patterns segments
  | _, _ => false

/-- The segments of a path. -/
def segmentsOf (path : List Char) : List (List Char) := Text.pieces (· == '/') path

/-- Whether the path of a policy covers a path below the API's version. OpenBao documents that a
path is matched whole, and by its start where it ends in `*`. -/
def covers (policy request : String) : Bool :=
  if policy.toList.getLast? = some '*' then
    segmentsMatch true (segmentsOf policy.toList.dropLast) (segmentsOf request.toList)
  else segmentsMatch false (segmentsOf policy.toList) (segmentsOf request.toList)

/-- The path of a request below the API's version. -/
def apiPath (url : Url) : Option String :=
  match url.segments with
  | version :: path =>
      if version = "v1".toList then some (String.ofList (['/'].intercalate path)) else none
  | [] => none

example : covers "ssh/sign/+" "ssh/sign/a" = true ∧ covers "ssh/*" "ssh/sign/a" = true ∧
    covers "ssh/sign/+" "ssh/sign/a/b" = false := by decide +kernel

/-- Segments without a wildcard match themselves only. -/
theorem segmentsMatch_literal {policy request : List (List Char)} (h : ['+'] ∉ policy) :
    segmentsMatch false policy request = true ↔ request = policy := by
  induction policy generalizing request with
  | nil => cases request <;> simp [segmentsMatch]
  | cons pattern policy ih =>
      have hpattern : ['+'] ≠ pattern := fun heq => h (heq ▸ List.mem_cons_self)
      have hpolicy : ['+'] ∉ policy := fun hmem => h (List.mem_cons_of_mem _ hmem)
      have hliteral (segment : List Char) :
          (pattern == ['+'] || pattern == segment) = true ↔ segment = pattern := by
        rw [Bool.or_eq_true, beq_iff_eq, beq_iff_eq]
        exact ⟨fun h => (h.resolve_left (Ne.symm hpattern)).symm, fun h => .inr h.symm⟩
      cases request with
      | nil => cases policy <;> simp [segmentsMatch]
      | cons segment request =>
          cases policy with
          | nil => simp [segmentsMatch, hliteral]
          | cons next policy => simp [segmentsMatch, hliteral, ih hpolicy]

/-- The segments tell the path. -/
theorem segmentsOf_inj {a b : List Char} (h : segmentsOf a = segmentsOf b) : a = b := by
  rw [← Text.intercalate_pieces '/' a, ← Text.intercalate_pieces '/' b]
  exact congrArg _ h

/-- A policy without wildcards covers its own path only. -/
theorem covers_literal {policy request : String} (hglob : policy.toList.getLast? ≠ some '*')
    (hplus : ['+'] ∉ segmentsOf policy.toList) :
    covers policy request = true ↔ request = policy := by
  rw [covers, if_neg hglob, segmentsMatch_literal hplus]
  exact ⟨fun h => String.toList_inj.mp (segmentsOf_inj h), fun h => by rw [h]⟩

/-- A text that the deployment accepts as a segment. -/
def IsOpenBaoSegment (value : String) : Prop :=
  Policy.startsAndContinues Char.isAlphanum isSegmentChar 127 value = true

/-- The pattern of a segment is decidable. -/
instance (value : String) : Decidable (IsOpenBaoSegment value) :=
  inferInstanceAs (Decidable (Policy.startsAndContinues _ _ _ _ = true))

/-- A segment that is accepted is kept. -/
theorem validateOpenBaoSegment_eq_ok {value name accepted : String} :
    validateOpenBaoSegment value name = .ok accepted ↔
      accepted = value ∧ IsOpenBaoSegment value := by
  unfold validateOpenBaoSegment IsOpenBaoSegment
  split
  · next h => simp [h, eq_comm]
  · next h => simp [h]

/-- It begins with a letter or a digit, and goes on in the characters of segments. -/
theorem IsOpenBaoSegment.chars {value : String} (h : IsOpenBaoSegment value) :
    ∃ c cs, value.toList = c :: cs ∧ c.isAlphanum = true ∧
      ∀ d ∈ value.toList, isSegmentChar d = true := by
  obtain ⟨c, cs, hvalue, hc, -, hcs⟩ := Policy.startsAndContinues_iff.mp h
  refine ⟨c, cs, hvalue, hc, fun d hd => ?_⟩
  rw [hvalue, List.mem_cons] at hd
  rcases hd with rfl | hd
  · simp [isSegmentChar, hc]
  · exact hcs d hd

/-- The server accepts every segment that the deployment accepts. -/
theorem IsOpenBaoSegment.valid {value : String} (h : IsOpenBaoSegment value) :
    validSegment value = true := by
  obtain ⟨c, cs, hvalue, -, hchars⟩ := h.chars
  have hcontext : Policy.isSafeContext value = true := by
    apply Policy.startsAndContinues_mono h (fun _ hc => hc) _ (le_refl _)
    intro c hc
    have hcases : c.isAlphanum = true ∨ c = '-' ∨ c = '_' := by
      simpa [isSegmentChar, or_assoc] using hc
    obtain halnum | rfl | rfl := hcases
    · simp [halnum]
    · rfl
    · rfl
  have hne : value.isEmpty = false := by
    rw [Bool.eq_false_iff]
    intro hempty
    rw [String.isEmpty_iff.mp hempty] at hvalue
    cases hvalue
  have hsize := decide_eq_true (Policy.size_of_context hcontext)
  rw [validSegment, hne, hsize, List.all_eq_true.mpr hchars]
  rfl

/-- No other character stands in it. -/
theorem IsOpenBaoSegment.not_mem {value : String} (h : IsOpenBaoSegment value) {c : Char}
    (hc : isSegmentChar c = false) : c ∉ value.toList := by
  obtain ⟨-, -, -, -, hchars⟩ := h.chars
  intro hmem
  rw [hchars c hmem] at hc
  cases hc

/-- The granted path has no wildcard. -/
theorem grantedPath_literal {sshMount sshRole : String} (hmount : IsOpenBaoSegment sshMount)
    (hrole : IsOpenBaoSegment sshRole) :
    (grantedPath sshMount sshRole).toList.getLast? ≠ some '*' ∧
      segmentsOf (grantedPath sshMount sshRole).toList =
        [sshMount.toList, "sign".toList, sshRole.toList] ∧
      ['+'] ∉ segmentsOf (grantedPath sshMount sshRole).toList := by
  have htext : (grantedPath sshMount sshRole).toList =
      ['/'].intercalate [sshMount.toList, "sign".toList, sshRole.toList] := by
    simp [grantedPath, String.toList_append]
  have hslash : ∀ part ∈ [sshMount.toList, "sign".toList, sshRole.toList], '/' ∉ part := by
    simp only [List.forall_mem_cons]
    exact ⟨hmount.not_mem rfl, by decide +kernel, hrole.not_mem rfl, nofun⟩
  have hsegments : segmentsOf (grantedPath sshMount sshRole).toList =
      [sshMount.toList, "sign".toList, sshRole.toList] := by
    rw [segmentsOf, htext]
    exact Text.pieces_intercalate (List.cons_ne_nil _ _) hslash
  have hstar : (grantedPath sshMount sshRole).toList.getLast? ≠ some '*' := by
    obtain ⟨c, cs, hvalue, -, hchars⟩ := hrole.chars
    have hlast : (grantedPath sshMount sshRole).toList.getLast? = sshRole.toList.getLast? := by
      rw [grantedPath, String.toList_append, List.getLast?_append_of_ne_nil]
      rw [hvalue]
      exact List.cons_ne_nil c cs
    rw [hlast]
    intro hstar
    exact hrole.not_mem rfl (List.mem_of_getLast? hstar)
  refine ⟨hstar, hsegments, ?_⟩
  rw [hsegments]
  intro hplus
  have hmem (value : String) (h : ['+'] = value.toList) : '+' ∈ value.toList := by
    rw [← h]
    exact List.mem_singleton_self _
  simp only [List.mem_cons, List.not_mem_nil, or_false] at hplus
  obtain h | h | h := hplus
  · exact hmount.not_mem rfl (hmem _ h)
  · exact absurd h (by decide +kernel)
  · exact hrole.not_mem rfl (hmem _ h)

/-- The path of a request is what follows the version. -/
theorem apiPath_originAt (origin : Url) (path : List String) :
    apiPath (originAt origin ("v1" :: path)) =
      some (String.ofList (['/'].intercalate (path.map String.toList))) := by
  simp [apiPath, originAt]

section Grant

variable {origin : Url} {kubernetesAuthMount kubernetesRole sshMount sshRole : String}

/-- One URL in two views: as the program of the deployment sees it, and as the server does. -/
structure SameUrl (record : UrlRecord) (url : Url) : Prop where
  scheme : url.scheme = record.scheme
  path : url.segments = [[]] ↔ record.path = "/"
  query : url.query = none ↔ record.query = none
  fragment : url.fragment = none ↔ record.fragment = none

/-- The server is built from the settings exactly if the origin has no query and no fragment. -/
theorem new_deployed_iff {record : UrlRecord} (hplain : Policy.IsPlainOrigin record)
    (hsame : SameUrl record origin) (hauth : IsOpenBaoSegment kubernetesAuthMount)
    (hname : IsOpenBaoSegment kubernetesRole) (hmount : IsOpenBaoSegment sshMount)
    (hrole : IsOpenBaoSegment sshRole) :
    (∃ client, OpenBaoClient.new
        (deployedConfig origin kubernetesAuthMount kubernetesRole sshMount sshRole) = .ok client) ↔
      record.query = none ∧ record.fragment = none := by
  have hjwt : openbaoJwtFile.toList.head? = some '/' := by decide +kernel
  have hlow : 100 ≤ 5000 := by omega
  have hhigh : 5000 ≤ 30000 := by omega
  constructor
  · intro ⟨client, hnew⟩
    obtain ⟨-, -, -, hquery, hfragment, -⟩ := new_eq_ok.mp hnew
    exact ⟨hsame.query.mp hquery, hsame.fragment.mp hfragment⟩
  · intro ⟨hquery, hfragment⟩
    exact ⟨_, new_eq_ok.mpr ⟨rfl, hsame.scheme.trans hplain.scheme, hsame.path.mpr hplain.path,
      hsame.query.mpr hquery, hsame.fragment.mpr hfragment, hjwt, hauth.valid, hname.valid,
      hmount.valid, hrole.valid, hlow, hhigh⟩⟩

end Grant

/-- A parser that knows two spellings of an origin. -/
def parseStack (text : String) : Option UrlRecord :=
  if text = "https://openbao.holdenitdown.net" then
    some ⟨"https", "", "", some "openbao.holdenitdown.net", none, "/", none, none⟩
  else if text = "https://openbao.holdenitdown.net/?" then
    some ⟨"https", "", "", some "openbao.holdenitdown.net", none, "/", some "", none⟩
  else none

end OpenBao
