import HomelabMcp.TektonIdentity
import HomelabMcp.WebUrlPaths

/-!
# The canonical names of repositories

A repository of Pipelines-as-Code is named by the path of its URL: two segments, of which the last
one may end with `.git`.  Its canonical URL is written from the two.

* `repository_canonical_iff`: the canonical URL names the same repository, and the requests for it
  go to it, exactly if the URL has no dot name, only one `.git` at its end, and the requests only
  segments that are kept.
* `two_suffixes_not_canonical`: a repository whose canonical URL names another one.

The parser of URLs is a parameter; of it is assumed what it makes of a path of unreserved
characters below the origin.
-/

namespace Tekton

open Json (Value)
open WebUrl (Url Kept addSegment addSegments encodeSegment isUnreserved)

/-- The ending of a repository. -/
def dotGit : List Char := ".git".toList

/-- A name without one `.git` at its end. -/
def withoutGit (name : String) : String :=
  if dotGit.isSuffixOf name.toList then String.ofList (name.toList.take (name.length - 4)) else name

/-- The two segments of a path, decoded. -/
def decodedParts (url : Url) : Option (String × String) :=
  match url.segments.filter fun segment => !segment.isEmpty with
  | [owner, name] => do
      let owner ← Text.decode (WebUrl.percentDecode owner)
      let name ← Text.decode (WebUrl.percentDecode name)
      some (owner, name)
  | _ => none

/-- The parts of the URL of a Repository object. -/
def urlParts (parseUrl : String → Option Url) (item : Value) : Option (String × String) := do
  let raw ← ((item.field "spec").field "url").asStr
  let url ← parseUrl raw
  decodedParts url

/-- A name that the canonical URL keeps. -/
structure NameKept (name : String) : Prop where
  noDots : name ≠ "." ∧ name ≠ ".."
  noGit : ¬ dotGit <:+ name.toList

/-- The parts of a URL that a canonical one keeps: no dot name, and no `.git` before that which is
taken off. -/
def PartsKept (owner last : String) : Prop :=
  (owner ≠ "." ∧ owner ≠ "..") ∧ last ∉ [".", "..", "..git", "...git"] ∧
    ¬ (dotGit ++ dotGit) <:+ last.toList

/-- A name with the ending loses it. -/
theorem withoutGit_suffix {front : List Char} {name : String}
    (h : name.toList = front ++ dotGit) : withoutGit name = String.ofList front := by
  have hsuffix : dotGit.isSuffixOf name.toList = true :=
    List.isSuffixOf_iff_suffix.mpr ⟨front, h.symm⟩
  have hlength : name.length - 4 = front.length := by
    rw [← String.length_toList, h, List.length_append]
    exact Nat.add_sub_cancel front.length 4
  rw [withoutGit, if_pos hsuffix, hlength, h, List.take_left]

/-- A name without it stays. -/
theorem withoutGit_self {name : String} (h : ¬ dotGit <:+ name.toList) :
    withoutGit name = name := by
  rw [withoutGit, if_neg (mt List.isSuffixOf_iff_suffix.mp h)]

/-- And only such a name. -/
theorem withoutGit_eq_self {name : String} : withoutGit name = name ↔ ¬ dotGit <:+ name.toList := by
  constructor
  · intro h ⟨front, hfront⟩
    rw [withoutGit_suffix hfront.symm] at h
    have hlength := congrArg (fun text => text.toList.length) h
    simp only [String.toList_ofList, ← hfront, List.length_append] at hlength
    have hfour : dotGit.length = 4 := rfl
    omega
  · exact withoutGit_self

/-- The name is kept exactly if the parts are. -/
theorem nameKept_iff (last : String) :
    NameKept (withoutGit last) ↔
      last ∉ [".", "..", "..git", "...git"] ∧ ¬ (dotGit ++ dotGit) <:+ last.toList := by
  have htext : ∀ a b : String, a = b ↔ a.toList = b.toList := fun a b => String.toList_inj.symm
  have hmem : last ∉ [".", "..", "..git", "...git"] ↔ (last.toList ≠ ['.'] ∧
      last.toList ≠ ['.', '.']) ∧ last.toList ≠ ['.'] ++ dotGit ∧
        last.toList ≠ ['.', '.'] ++ dotGit := by
    simp only [List.mem_cons, List.not_mem_nil, or_false, not_or, htext, and_assoc]
    rfl
  have hname : NameKept (withoutGit last) ↔ ((withoutGit last).toList ≠ ['.'] ∧
      (withoutGit last).toList ≠ ['.', '.']) ∧ ¬ dotGit <:+ (withoutGit last).toList := by
    constructor
    · intro ⟨⟨hone, htwo⟩, hgit⟩
      exact ⟨⟨mt (htext _ ".").mpr hone, mt (htext _ "..").mpr htwo⟩, hgit⟩
    · intro ⟨⟨hone, htwo⟩, hgit⟩
      exact ⟨⟨mt (htext _ ".").mp hone, mt (htext _ "..").mp htwo⟩, hgit⟩
  rw [hname, hmem]
  by_cases hgit : dotGit <:+ last.toList
  · obtain ⟨front, hfront⟩ := hgit
    -- what is left of the last part is `front`
    have hshort : ∀ dots : List Char, dots.length < 4 → front ++ dotGit ≠ dots := by
      intro dots hdots heq
      have hlength := congrArg List.length heq
      rw [List.length_append] at hlength
      have hfour : dotGit.length = 4 := rfl
      omega
    have hcancel : ∀ dots : List Char, front ++ dotGit ≠ dots ++ dotGit ↔ front ≠ dots :=
      fun dots => not_congr (List.append_left_inj dotGit)
    rw [withoutGit_suffix hfront.symm, String.toList_ofList, ← hfront,
      List.suffix_append_self_iff, hcancel, hcancel]
    constructor
    · intro ⟨hname, hgit⟩
      exact ⟨⟨⟨hshort ['.'] (by decide), hshort ['.', '.'] (by decide)⟩, hname⟩, hgit⟩
    · intro ⟨⟨_, hname⟩, hgit⟩
      exact ⟨hname, hgit⟩
  · rw [withoutGit_self hgit]
    have hnone : ∀ front, last.toList ≠ front ++ dotGit := fun front heq => hgit ⟨front, heq.symm⟩
    have hdouble : ¬ (dotGit ++ dotGit) <:+ last.toList := fun h =>
      hgit ((List.suffix_append dotGit dotGit).trans h)
    constructor
    · intro ⟨hname, _⟩
      exact ⟨⟨hname, hnone ['.'], hnone ['.', '.']⟩, hdouble⟩
    · intro ⟨⟨hname, _⟩, _⟩
      exact ⟨hname, hgit⟩

/-- The parts of a URL are its two segments that are not empty. -/
theorem decodedParts_eq_some {url : Url} {owner last : String} :
    decodedParts url = some (owner, last) ↔
      ∃ a b, url.segments.filter (fun segment => !segment.isEmpty) = [a, b] ∧
        Text.decode (WebUrl.percentDecode a) = some owner ∧
        Text.decode (WebUrl.percentDecode b) = some last := by
  unfold decodedParts
  generalize url.segments.filter (fun segment => !segment.isEmpty) = segments
  rcases segments with _ | ⟨a, _ | ⟨b, _ | ⟨c, rest⟩⟩⟩
  · simp
  · simp
  · show (Text.decode (WebUrl.percentDecode a)).bind (fun owner =>
      (Text.decode (WebUrl.percentDecode b)).bind fun name => some (owner, name)) = _ ↔ _
    rw [Option.bind_eq_some_iff]
    constructor
    · intro ⟨first, ha, h⟩
      obtain ⟨second, hb, h⟩ := Option.bind_eq_some_iff.mp h
      obtain ⟨rfl, rfl⟩ := Prod.mk.inj (Option.some.inj h)
      exact ⟨a, b, rfl, ha, hb⟩
    · intro ⟨a', b', hlist, ha, hb⟩
      obtain ⟨rfl, rfl, -⟩ : a = a' ∧ b = b' ∧ True := by simpa using hlist
      exact ⟨owner, ha, Option.bind_eq_some_iff.mpr ⟨last, hb, rfl⟩⟩
  · simp

/-- The two parts, without `.git`, if both are valid. -/
theorem repositoryParts_eq (url : Url) :
    repositoryParts url = (decodedParts url).bind fun parts =>
      if validRepositoryComponent parts.1 && validRepositoryComponent (withoutGit parts.2) then
        some (parts.1, withoutGit parts.2)
      else none := by
  unfold repositoryParts decodedParts
  generalize url.segments.filter (fun segment => !segment.isEmpty) = segments
  rcases segments with _ | ⟨a, _ | ⟨b, _ | ⟨c, rest⟩⟩⟩
  · rfl
  · rfl
  · simp only [Option.bind_eq_bind, Option.bind_assoc, Option.bind_some]
    rfl
  · rfl

/-- Owner and name are those of the parts, and both are valid. -/
theorem repositoryParts_eq_some {url : Url} {owner name : String} :
    repositoryParts url = some (owner, name) ↔
      ∃ last, decodedParts url = some (owner, last) ∧ withoutGit last = name ∧
        validRepositoryComponent owner = true ∧ validRepositoryComponent name = true := by
  rw [repositoryParts_eq, Option.bind_eq_some_iff]
  constructor
  · intro ⟨parts, hparts, h⟩
    split_ifs at h with hvalid
    obtain ⟨rfl, rfl⟩ := Prod.mk.inj (Option.some.inj h)
    exact ⟨parts.2, hparts, rfl, Bool.and_eq_true_iff.mp hvalid⟩
  · intro ⟨last, hparts, hlast, hvalid⟩
    refine ⟨(owner, last), hparts, ?_⟩
    dsimp only
    rw [hlast, if_pos (Bool.and_eq_true_iff.mpr hvalid)]

/-- One segment makes a path longer by one at most. -/
theorem length_addSegment (path : List (List Char)) (segment : List Char) (last : Bool) :
    (addSegment path segment last).length ≤ path.length + 1 := by
  unfold addSegment
  split
  · split_ifs <;> simp
  · split_ifs
    · simp
    · rw [List.length_dropLast]
      omega
  · simp

/-- A dot segment among two leaves less than two. -/
theorem length_pair_dots {first second : List Char}
    (h : (WebUrl.dots first = some 1 ∨ WebUrl.dots first = some 2) ∨
      (WebUrl.dots second = some 1 ∨ WebUrl.dots second = some 2)) :
    ((addSegments [] [first, second]).filter fun segment => !segment.isEmpty).length ≤ 1 := by
  show ((addSegment (addSegment [] first false) second true).filter _).length ≤ 1
  have hfirst : (addSegment [] first false).length ≤ 1 := length_addSegment [] first false
  rcases h with h | h
  · have hnil : addSegment [] first false = [] := by
      unfold addSegment
      rcases h with h | h <;> rw [h] <;> rfl
    rw [hnil]
    exact (List.length_filter_le _ _).trans (length_addSegment [] second true)
  · have hlast : ∃ path : List (List Char), path.length ≤ 1 ∧
        addSegment (addSegment [] first false) second true = path ++ [[]] := by
      rcases h with h | h
      · exact ⟨_, hfirst, by rw [addSegment, h]; rfl⟩
      · refine ⟨(addSegment [] first false).dropLast, ?_, by rw [addSegment, h]; rfl⟩
        rw [List.length_dropLast]
        omega
    obtain ⟨path, hpath, hlast⟩ := hlast
    have hempty : ([[]] : List (List Char)).filter (fun segment => !segment.isEmpty) = [] := rfl
    rw [hlast, List.filter_append, hempty, List.append_nil]
    exact (List.length_filter_le _ _).trans hpath

/-- A component is no dot segment unless it is one or two dots. -/
theorem dots_component {text : String} (h : ∀ c ∈ text.toList, isUnreserved c = true) :
    (WebUrl.dots text.toList ≠ some 1 ∧ WebUrl.dots text.toList ≠ some 2) ↔
      text ≠ "." ∧ text ≠ ".." := by
  rw [ne_eq, ne_eq, WebUrl.dots_unreserved h, WebUrl.dots_unreserved h, ne_eq, ne_eq,
    ← String.toList_inj, ← @String.toList_inj text ".."]
  rfl

/-- A valid component is not empty, and its characters stand for themselves. -/
theorem component_chars {text : String} (h : validRepositoryComponent text = true) :
    text.toList ≠ [] ∧ ∀ c ∈ text.toList, isUnreserved c = true := by
  rw [validRepositoryComponent, Bool.and_eq_true] at h
  constructor
  · intro hnil
    obtain rfl : text = "" := String.toList_inj.mp hnil
    exact absurd h.1 (by decide)
  · exact List.all_eq_true.mp h.2

section Canonical

variable {crates : Crates} {origin : Url} {originText : String} {item : Value}
  {repository : Repository} {owner name : String}

/-- The parts are read back from the path that is written from them, exactly if they are kept. -/
theorem repositoryParts_again (howner : validRepositoryComponent owner = true)
    (hname : validRepositoryComponent name = true) :
    repositoryParts { origin with segments := addSegments [] [owner.toList, name.toList] } =
        some (owner, name) ↔
      (owner ≠ "." ∧ owner ≠ "..") ∧ NameKept name := by
  obtain ⟨hownerNe, hownerChars⟩ := component_chars howner
  obtain ⟨hnameNe, hnameChars⟩ := component_chars hname
  have hplain : (WebUrl.dots owner.toList ≠ some 1 ∧ WebUrl.dots owner.toList ≠ some 2) →
      (WebUrl.dots name.toList ≠ some 1 ∧ WebUrl.dots name.toList ≠ some 2) →
      (addSegments [] [owner.toList, name.toList]).filter (fun segment => !segment.isEmpty) =
        [owner.toList, name.toList] := by
    intro hownerDots hnameDots
    show (addSegment (addSegment [] owner.toList false) name.toList true).filter _ = _
    rw [WebUrl.addSegment_of_noDots hownerDots, WebUrl.addSegment_of_noDots hnameDots]
    simp [hownerNe, hnameNe]
  rw [repositoryParts_eq_some]
  constructor
  · intro ⟨last, hparts, hlast, _, _⟩
    obtain ⟨a, b, hfilter, -, hb⟩ := decodedParts_eq_some.mp hparts
    have hdots : (WebUrl.dots owner.toList ≠ some 1 ∧ WebUrl.dots owner.toList ≠ some 2) ∧
        (WebUrl.dots name.toList ≠ some 1 ∧ WebUrl.dots name.toList ≠ some 2) := by
      have hlong : ¬ ((addSegments [] [owner.toList, name.toList]).filter fun segment =>
          !segment.isEmpty).length ≤ 1 := by
        rw [hfilter]
        simp
      exact ⟨⟨fun hone => hlong (length_pair_dots (.inl (.inl hone))),
        fun htwo => hlong (length_pair_dots (.inl (.inr htwo)))⟩,
        fun hone => hlong (length_pair_dots (.inr (.inl hone))),
        fun htwo => hlong (length_pair_dots (.inr (.inr htwo)))⟩
    rw [hplain hdots.1 hdots.2] at hfilter
    obtain ⟨-, rfl⟩ : owner.toList = a ∧ name.toList = b := by simpa using hfilter
    rw [WebUrl.decode_unreserved hnameChars] at hb
    obtain rfl := Option.some.inj hb
    exact ⟨(dots_component hownerChars).mp hdots.1, (dots_component hnameChars).mp hdots.2,
      withoutGit_eq_self.mp hlast⟩
  · intro ⟨hownerDots, hnameDots, hgit⟩
    have hfilter := hplain ((dots_component hownerChars).mpr hownerDots)
      ((dots_component hnameChars).mpr hnameDots)
    refine ⟨name, ?_, withoutGit_self hgit, howner, hname⟩
    exact decodedParts_eq_some.mpr ⟨_, _, hfilter, WebUrl.decode_unreserved hownerChars,
      WebUrl.decode_unreserved hnameChars⟩

/-- What `parse_repository` accepts. -/
theorem parseRepository_eq_some :
    parseRepository crates origin originText item = some repository ↔
      ∃ crName raw url owner name, objectName item = some crName ∧
        ((item.field "spec").field "url").asStr = some raw ∧ crates.parseUrl raw = some url ∧
        (url.scheme = origin.scheme ∧ url.host = origin.host ∧ url.port = origin.port ∧
          url.query = none ∧ url.fragment = none ∧ url.username.isEmpty ∧ url.password = none) ∧
        repositoryParts url = some (owner, name) ∧
        repository = {
          id := owner ++ "/" ++ name
          crName := crName
          owner := owner
          name := name
          url := String.ofList (originText.toList.rdropWhile (· == '/')) ++ "/" ++ owner ++ "/" ++
            name } := by
  unfold parseRepository
  simp only [Option.bind_eq_bind, Option.bind_eq_some_iff]
  constructor
  · intro ⟨crName, hname, raw, hraw, url, hurl, h⟩
    split_ifs at h with hsite
    obtain ⟨parts, hparts, h⟩ := Option.bind_eq_some_iff.mp h
    exact ⟨crName, raw, url, parts.1, parts.2, hname, hraw, hurl, hsite, hparts,
      (Option.some.inj h).symm⟩
  · intro ⟨crName, raw, url, owner, name, hname, hraw, hurl, hsite, hparts, hrepository⟩
    refine ⟨crName, hname, raw, hraw, url, hurl, ?_⟩
    rw [if_pos hsite, hparts, hrepository]
    rfl

/-- What is assumed of the parser of URLs: below an origin, which has only a host, a path of
unreserved characters is read segment by segment. -/
structure ParsesBelow (parseUrl : String → Option Url) (origin : Url) (originText : String) :
    Prop where
  bare : origin.query = none ∧ origin.fragment = none ∧ origin.username.isEmpty ∧
    origin.password = none
  path : ∀ path : List Char, (∀ c ∈ path, isUnreserved c = true ∨ c = '/') →
    parseUrl (String.ofList (originText.toList.rdropWhile (· == '/') ++ '/' :: path)) =
      some { origin with segments := addSegments [] (Text.pieces WebUrl.isSlash path) }

/-- The canonical URL of an owner and a name. -/
def canonicalUrl (originText owner name : String) : String :=
  String.ofList (originText.toList.rdropWhile (· == '/')) ++ "/" ++ owner ++ "/" ++ name

/-- The URL of a repository is parsed to its parts. -/
theorem parse_canonical (hparse : ParsesBelow crates.parseUrl origin originText)
    (howner : validRepositoryComponent owner = true)
    (hname : validRepositoryComponent name = true) :
    crates.parseUrl (canonicalUrl originText owner name) =
      some { origin with segments := addSegments [] [owner.toList, name.toList] } := by
  obtain ⟨-, hownerChars⟩ := component_chars howner
  obtain ⟨-, hnameChars⟩ := component_chars hname
  have hpieces : Text.pieces WebUrl.isSlash (owner.toList ++ '/' :: name.toList) =
      [owner.toList, name.toList] := by
    rw [Text.pieces_append rfl,
      Text.pieces_single (fun c hc => WebUrl.not_isSlash (hownerChars c hc)),
      Text.pieces_single (fun c hc => WebUrl.not_isSlash (hnameChars c hc))]
    rfl
  have htext : canonicalUrl originText owner name =
      String.ofList (originText.toList.rdropWhile (· == '/') ++
        '/' :: (owner.toList ++ '/' :: name.toList)) := by
    apply String.toList_inj.mp
    simp [canonicalUrl]
  rw [htext, hparse.path, hpieces]
  intro c hc
  rcases List.mem_append.mp hc with hc | hc
  · exact .inl (hownerChars c hc)
  · rcases List.mem_cons.mp hc with hc | hc
    · exact .inr hc
    · exact .inl (hnameChars c hc)

/-- What makes the names of a repository canonical: every object with its canonical URL has the
same owner, name and id, its id is no other's, and the path of a request for it has its owner, its
name and the segments of the request, and no others. -/
structure CanonicalNames (crates : Crates) (client : PacClient) (repository : Repository)
    (suffix : List (List Char)) : Prop where
  again : ∀ item crName, objectName item = some crName →
    ((item.field "spec").field "url").asStr = some repository.url →
    ∃ other, parseRepository crates client.forgejoOrigin client.forgejoOriginText item =
        some other ∧
      other.owner = repository.owner ∧ other.name = repository.name ∧ other.id = repository.id
  determined : ∀ origin originText item other,
    parseRepository crates origin originText item = some other → other.id = repository.id →
    other.owner = repository.owner ∧ other.name = repository.name
  addressed : ∀ query,
    (client.forgejoUrl (PacClient.repositorySegments repository ++ suffix) query).segments =
      PacClient.repositorySegments repository ++ suffix.map encodeSegment

/-- A component has no slash. -/
theorem slash_not_mem {text : String} (h : validRepositoryComponent text = true) :
    '/' ∉ text.toList := by
  intro hslash
  exact WebUrl.ne_of_isUnreserved ((component_chars h).2 '/' hslash) (by decide) rfl

/-- The id of a repository is its owner's and its own name. -/
theorem id_determines {owner name owner' name' : String}
    (howner : validRepositoryComponent owner = true)
    (howner' : validRepositoryComponent owner' = true)
    (h : owner ++ "/" ++ name = owner' ++ "/" ++ name') : owner = owner' ∧ name = name' := by
  have hlist := congrArg String.toList h
  simp only [String.toList_append, List.append_assoc] at hlist
  obtain ⟨hleft, hright⟩ := Text.append_cons_inj (slash_not_mem howner) (slash_not_mem howner')
    (show owner.toList ++ '/' :: name.toList = owner'.toList ++ '/' :: name'.toList from hlist)
  exact ⟨String.toList_inj.mp hleft, String.toList_inj.mp hright⟩

/-- Unreserved characters are not encoded. -/
theorem encodeSegment_unreserved {segment : List Char}
    (h : ∀ c ∈ segment, isUnreserved c = true) : encodeSegment segment = segment := by
  induction segment with
  | nil => rfl
  | cons c cs ih =>
      have hc := h c List.mem_cons_self
      have hcs := ih fun d hd => h d (List.mem_cons_of_mem c hd)
      unfold encodeSegment at hcs ⊢
      rw [List.flatMap_cons, hcs, if_neg (WebUrl.ne_of_isUnreserved hc (by decide)),
        if_neg (WebUrl.ne_of_isUnreserved hc (by decide)),
        if_neg (WebUrl.ne_of_isUnreserved hc (by decide))]
      rfl

/-- A component stays as it is. -/
theorem kept_component {text : String} (h : validRepositoryComponent text = true)
    (hdots : text ≠ "." ∧ text ≠ "..") : Kept text.toList := by
  refine ⟨fun hone => hdots.1 (String.toList_inj.mp hone),
    fun htwo => hdots.2 (String.toList_inj.mp htwo), fun c hc => ?_⟩
  exact WebUrl.not_isTabOrNewline ((component_chars h).2 c hc)

/-- The path of a request for a repository whose names are no dot names. -/
theorem request_segments (client : PacClient) (howner : validRepositoryComponent repository.owner)
    (hname : validRepositoryComponent repository.name)
    (hownerDots : repository.owner ≠ "." ∧ repository.owner ≠ "..")
    (hnameDots : repository.name ≠ "." ∧ repository.name ≠ "..") (suffix : List (List Char))
    (query : List (String × String)) :
    (client.forgejoUrl (PacClient.repositorySegments repository ++ suffix) query).segments =
        PacClient.repositorySegments repository ++ suffix.map encodeSegment ↔
      ∀ segment ∈ suffix, Kept segment := by
  have hstart : [repository.owner.toList, repository.name.toList].foldl Url.pushSegment
      ["api".toList, "v1".toList, "repos".toList] = PacClient.repositorySegments repository := by
    have hkept : ∀ segment ∈ [repository.owner.toList, repository.name.toList], Kept segment := by
      intro segment hsegment
      rcases List.mem_cons.mp hsegment with rfl | hsegment
      · exact kept_component howner hownerDots
      · rw [List.mem_singleton.mp hsegment]
        exact kept_component hname hnameDots
    rw [WebUrl.pushes_kept (by decide) hkept, List.map_cons, List.map_singleton,
      encodeSegment_unreserved (component_chars howner).2,
      encodeSegment_unreserved (component_chars hname).2]
    rfl
  have hsegments :
      (client.forgejoUrl (PacClient.repositorySegments repository ++ suffix) query).segments =
        suffix.foldl Url.pushSegment (PacClient.repositorySegments repository) := by
    show (PacClient.repositorySegments repository ++ suffix).foldl Url.pushSegment [[]] = _
    rw [List.foldl_append]
    exact congrArg (suffix.foldl Url.pushSegment) hstart
  rw [hsegments]
  exact WebUrl.pushes_iff (show 2 ≤ 5 by omega)

/-- The parts of the URL of an object that is accepted. -/
theorem accepted_parts (h : parseRepository crates origin originText item = some repository) :
    ∃ last, urlParts crates.parseUrl item = some (repository.owner, last) ∧
      withoutGit last = repository.name ∧ validRepositoryComponent repository.owner = true ∧
      validRepositoryComponent repository.name = true ∧
      repository.id = repository.owner ++ "/" ++ repository.name ∧
      repository.url = canonicalUrl originText repository.owner repository.name := by
  obtain ⟨crName, raw, url, owner, name, -, hraw, hurl, -, hparts, rfl⟩ :=
    parseRepository_eq_some.mp h
  obtain ⟨last, hdecoded, hlast, howner, hname⟩ := repositoryParts_eq_some.mp hparts
  refine ⟨last, ?_, hlast, howner, hname, rfl, rfl⟩
  unfold urlParts
  rw [hraw, Option.bind_eq_bind, Option.bind_some, hurl]
  exact hdecoded

/-- An object with the canonical URL is read as the same repository exactly if its names are
kept. -/
theorem parse_again_iff (hparse : ParsesBelow crates.parseUrl origin originText)
    (howner : validRepositoryComponent owner = true)
    (hname : validRepositoryComponent name = true) :
    (∀ item crName, objectName item = some crName →
      ((item.field "spec").field "url").asStr = some (canonicalUrl originText owner name) →
      ∃ other, parseRepository crates origin originText item = some other ∧
        other.owner = owner ∧ other.name = name ∧ other.id = owner ++ "/" ++ name) ↔
      (owner ≠ "." ∧ owner ≠ "..") ∧ NameKept name := by
  have hurl := parse_canonical hparse howner hname
  obtain ⟨hquery, hfragment, husername, hpassword⟩ := hparse.bare
  rw [← @repositoryParts_again origin owner name howner hname]
  constructor
  · intro h
    obtain ⟨other, hother, rfl, rfl, -⟩ :=
      h (repositoryObject "repository" (canonicalUrl originText owner name)) "repository" rfl rfl
    obtain ⟨crName, raw, url, owner, name, -, hraw, hread, -, hparts, rfl⟩ :=
      parseRepository_eq_some.mp hother
    obtain rfl := Option.some.inj (hraw.symm.trans rfl)
    obtain rfl := Option.some.inj (hread.symm.trans hurl)
    exact hparts
  · intro hparts item crName hitem hraw
    exact ⟨_, parseRepository_eq_some.mpr ⟨crName, _, _, owner, name, hitem, hraw, hurl,
      ⟨rfl, rfl, rfl, hquery, hfragment, husername, hpassword⟩, hparts, rfl⟩, rfl, rfl, rfl⟩

/-- **Repositories are canonical** exactly if the parts of their URL are kept and the requests ask
for segments that are kept. -/
theorem repository_canonical_iff (crates : Crates) (client : PacClient)
    (hparse : ParsesBelow crates.parseUrl client.forgejoOrigin client.forgejoOriginText)
    (item : Value) (repository : Repository) (suffix : List (List Char))
    (h : parseRepository crates client.forgejoOrigin client.forgejoOriginText item =
      some repository) :
    CanonicalNames crates client repository suffix ↔
      (∃ owner last, urlParts crates.parseUrl item = some (owner, last) ∧ PartsKept owner last) ∧
        ∀ segment ∈ suffix, Kept segment := by
  obtain ⟨last, hparts, hlast, howner, hname, hid, hurl⟩ := accepted_parts h
  have hagain := @parse_again_iff crates _ _ _ _ hparse howner hname
  have hkept : (∃ owner last, urlParts crates.parseUrl item = some (owner, last) ∧
      PartsKept owner last) ↔
      (repository.owner ≠ "." ∧ repository.owner ≠ "..") ∧ NameKept repository.name := by
    rw [← hlast, nameKept_iff]
    constructor
    · intro ⟨owner, last', hparts', hpartsKept⟩
      obtain ⟨rfl, rfl⟩ := Prod.mk.inj (Option.some.inj (hparts.symm.trans hparts'))
      exact hpartsKept
    · intro hpartsKept
      exact ⟨_, last, hparts, hpartsKept⟩
  rw [hkept]
  constructor
  · intro hcanonical
    have hnames := hagain.mp (hurl ▸ hid ▸ hcanonical.again)
    refine ⟨hnames, ?_⟩
    exact (request_segments client howner hname hnames.1 hnames.2.noDots suffix []).mp
      (hcanonical.addressed [])
  · intro ⟨hnames, hsuffix⟩
    refine ⟨?_, ?_, ?_⟩
    · rw [hurl, hid]
      exact hagain.mpr hnames
    · intro origin originText other repository' hother hsame
      obtain ⟨-, -, -, howner', -, hid', -⟩ := accepted_parts hother
      rw [hid, hid'] at hsame
      exact id_determines howner' howner hsame
    · intro query
      exact (request_segments client howner hname hnames.1 hnames.2.noDots suffix query).mpr
        hsuffix

end Canonical

/-- Crates whose parser reads what is below the origin of the sample. -/
def siteCrates : Crates where
  parseJson _ := none
  parseUrl text :=
    (Text.stripPrefix "https://git.holdenitdown.net/".toList text.toList).map
      sampleClient.forgejoOrigin.join

/-- This parser behaves as documented below the origin. -/
theorem site_parses : ParsesBelow siteCrates.parseUrl samplePac.forgejoOrigin
    samplePac.forgejoOriginText where
  bare := ⟨rfl, rfl, rfl, rfl⟩
  path path hpath := by
    have hplain : WebUrl.Plain path := by
      intro c hc
      rcases hpath c hc with hchar | rfl
      · exact ⟨WebUrl.not_isC0OrSpace hchar, WebUrl.not_endsPath hchar⟩
      · exact ⟨rfl, rfl⟩
    have htext : (String.ofList (samplePac.forgejoOriginText.toList.rdropWhile (· == '/') ++
        '/' :: path)).toList = "https://git.holdenitdown.net/".toList ++ path :=
      String.toList_ofList
    have hstrip : Text.stripPrefix "https://git.holdenitdown.net/".toList
        ("https://git.holdenitdown.net/".toList ++ path) = some path := Text.stripPrefix_iff.mpr rfl
    show (Text.stripPrefix _ _).map _ = _
    rw [htext, hstrip, Option.map_some, WebUrl.join_plain hplain]
    rfl

/-- A repository whose URL ends with `.git`. -/
theorem repository_canonical_site :
    CanonicalNames siteCrates samplePac
      ⟨"a/site", "repository", "a", "site", "https://git.holdenitdown.net/a/site"⟩
      ["contents".toList, ".tekton".toList] :=
  (repository_canonical_iff siteCrates samplePac site_parses
    (repositoryObject "repository" "https://git.holdenitdown.net/a/site.git") _ _
    (by decide +kernel)).mpr
    ⟨⟨"a", "site.git", by decide +kernel, by decide, by decide, by decide⟩, by decide⟩

/-- **A canonical URL of another repository.**  The URL of `site.git.git` names `site.git`, whose
canonical URL names `site`. -/
theorem two_suffixes_not_canonical : ¬ ∀ (crates : Crates) (client : PacClient) (item : Value)
    (repository : Repository) (suffix : List (List Char)),
    ParsesBelow crates.parseUrl client.forgejoOrigin client.forgejoOriginText →
    parseRepository crates client.forgejoOrigin client.forgejoOriginText item = some repository →
    (∀ segment ∈ suffix, Kept segment) → CanonicalNames crates client repository suffix := by
  intro h
  have hcanonical := h siteCrates samplePac
    (repositoryObject "repository" "https://git.holdenitdown.net/a/site.git.git")
    ⟨"a/site.git", "repository", "a", "site.git", "https://git.holdenitdown.net/a/site.git"⟩ []
    site_parses (by decide +kernel) (List.forall_mem_nil _)
  obtain ⟨other, hother, -, hname, -⟩ := hcanonical.again
    (repositoryObject "repository" "https://git.holdenitdown.net/a/site.git") "repository" rfl rfl
  have hread : parseRepository siteCrates samplePac.forgejoOrigin samplePac.forgejoOriginText
      (repositoryObject "repository" "https://git.holdenitdown.net/a/site.git") =
      some ⟨"a/site", "repository", "a", "site", "https://git.holdenitdown.net/a/site"⟩ := by
    decide +kernel
  obtain rfl := Option.some.inj (hother.symm.trans hread)
  exact absurd hname (by decide)

end Tekton
