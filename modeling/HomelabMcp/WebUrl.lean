import HomelabMcp.Text

/-!
# URLs

Hierarchical URLs of the web's schemes, joining a relative path to one, and appending query pairs,
as the URL standard parses them: tabs and line ends are removed, a slash or a backslash ends a
segment, `?` starts the query and `#` the fragment, and dot segments are resolved.

Segments are kept as they are written and query pairs as they are read; the percent-encoding of a
URL acts on each of them alone.
-/

namespace WebUrl

open Text (Bytes)

/-- A URL with a path of segments. -/
structure Url where
  scheme : String
  username : String
  password : Option String
  host : String
  /-- The port, or the known one of the scheme. -/
  port : Nat
  segments : List (List Char)
  query : Option (List (String × String))
  fragment : Option (List Char)
  deriving DecidableEq

/-- A C0 control or a space, which the URL standard strips at both ends. -/
def isC0OrSpace (c : Char) : Bool := c.toNat ≤ 0x20

/-- A tab or a newline, which it removes everywhere. -/
def isTabOrNewline (c : Char) : Bool := c == '\t' || c == '\n' || c == '\r'

/-- What the parser reads of an input. -/
def clean (input : List Char) : List Char :=
  ((input.dropWhile isC0OrSpace).rdropWhile isC0OrSpace).filter fun c => !isTabOrNewline c

/-- What ends a segment: a backslash, too, in the special schemes. -/
def isSlash (c : Char) : Bool := c == '/' || c == '\\'

/-- What ends the path. -/
def endsPath (c : Char) : Bool := c == '?' || c == '#'

/-- A dot of a dot segment, written plainly or percent-encoded. -/
def dots : List Char → Option Nat
  | [] => some 0
  | '.' :: cs => (dots cs).map (· + 1)
  | '%' :: '2' :: c :: cs => if c = 'e' ∨ c = 'E' then (dots cs).map (· + 1) else none
  | _ => none

/-- Append one segment to a path, as the path state of the standard's parser does: a dot segment
stays as an empty one only at the end. -/
def addSegment (path : List (List Char)) (segment : List Char) (last : Bool) :
    List (List Char) :=
  match dots segment with
  | some 1 => if last then path ++ [[]] else path
  | some 2 => if last then path.dropLast ++ [[]] else path.dropLast
  | _ => path ++ [segment]

/-- Append the segments of a path. -/
def addSegments (path : List (List Char)) : List (List Char) → List (List Char)
  | [] => path
  | [segment] => addSegment path segment true
  | segment :: rest => addSegments (addSegment path segment false) rest

/-- The value of a hexadecimal digit. -/
def hexDigit (c : Char) : Option Nat :=
  if '0' ≤ c ∧ c ≤ '9' then some (c.toNat - 48)
  else if 'a' ≤ c ∧ c ≤ 'f' then some (c.toNat - 87)
  else if 'A' ≤ c ∧ c ≤ 'F' then some (c.toNat - 55)
  else none

/-- Percent-decoding, as the URL standard has it: `%` and two digits stand for a byte, and every
other character for its own bytes. -/
def percentDecode : List Char → Bytes
  | '%' :: a :: b :: cs =>
      match hexDigit a, hexDigit b with
      | some high, some low => (16 * high + low).toUInt8 :: percentDecode cs
      | _, _ => '%'.toNat.toUInt8 :: percentDecode (a :: b :: cs)
  | c :: cs => String.utf8EncodeChar c ++ percentDecode cs
  | [] => []

/-- A name or a value as the standard's `application/x-www-form-urlencoded` parser reads it. -/
def formDecode (cs : List Char) : String :=
  Text.decodeLossy (percentDecode (cs.map fun c => if c = '+' then ' ' else c))

/-- One pair of a query. -/
def formPair (piece : List Char) : String × String :=
  (formDecode (piece.takeWhile (· != '=')), formDecode ((piece.dropWhile (· != '=')).drop 1))

/-- The pairs of a query as that parser reads them. -/
def formPairs (query : List Char) : List (String × String) :=
  ((Text.pieces (· == '&') query).filter fun piece => !piece.isEmpty).map formPair

namespace Url

/-- `Url::join` for a relative path: an input that starts with a segment, not with a scheme. -/
def join (base : Url) (input : List Char) : Url :=
  let text := clean input
  let path := text.takeWhile fun c => !endsPath c
  let rest := text.dropWhile fun c => !endsPath c
  { base with
    segments := addSegments base.segments.dropLast (Text.pieces isSlash path)
    query := match rest with
      | '?' :: rest => some (formPairs (rest.takeWhile (· != '#')))
      | _ => none
    fragment := if rest.contains '#' then some ((rest.dropWhile (· != '#')).drop 1) else none }

/-- `query_pairs_mut` and `extend_pairs`: there is a query afterwards. -/
def extendPairs (url : Url) (pairs : List (String × String)) : Url :=
  { url with query := some (url.query.getD [] ++ pairs) }

/-- Pairs leave the path. -/
@[simp] theorem extendPairs_segments (url : Url) (pairs : List (String × String)) :
    (url.extendPairs pairs).segments = url.segments := rfl

/-- A segment as `path_segments_mut` of the `url` crate documents it: what would end it is
percent-encoded. -/
def writeSegment (segment : List Char) : List Char :=
  (segment.filter fun c => !isTabOrNewline c).flatMap fun c =>
    if c = '%' then ['%', '2', '5'] else if c = '/' then ['%', '2', 'F']
    else if c = '\\' then ['%', '5', 'C'] else [c]

/-- One segment more; `.` and `..` are documented to be passed over. -/
def pushSegment (path : List (List Char)) (segment : List Char) : List (List Char) :=
  let base := if path = [[]] then [] else path
  if segment = ['.'] ∨ segment = ['.', '.'] then path
  -- Tabs and line ends are removed after the segment was looked at.
  else if writeSegment segment = ['.'] then base ++ [[]]
  else if writeSegment segment = ['.', '.'] then base.dropLast ++ [[]]
  else base ++ [writeSegment segment]

/-- `path_segments_mut` with `clear` and `extend`. -/
def setSegments (url : Url) (segments : List (List Char)) : Url :=
  { url with segments := segments.foldl pushSegment [[]] }

/-- The values of a parameter. -/
def parameter (url : Url) (name : String) : List String :=
  ((url.query.getD []).filter fun pair => pair.1 == name).map Prod.snd

end Url

example : ((⟨"https", "", none, "h", 443, [[]], none, none⟩ : Url).join
    "api/v1/pods/../a\tb/%2e/log?x=1&y#z".toList) =
    ⟨"https", "", none, "h", 443, ["api".toList, "v1".toList, "ab".toList, "log".toList],
      some [("x", "1"), ("y", "")], some ['z']⟩ := by decide +kernel

/-- Characters that stand for themselves in a path: no control character, no space, and no end of
the path. -/
def Plain (cs : List Char) : Prop := ∀ c ∈ cs, isC0OrSpace c = false ∧ endsPath c = false

/-- A segment that stands for itself. -/
structure PlainSegment (segment : List Char) : Prop where
  plain : Plain segment
  noSlash : ∀ c ∈ segment, isSlash c = false
  noDots : dots segment ≠ some 1 ∧ dots segment ≠ some 2

/-- That a text is plain is decidable. -/
instance (cs : List Char) : Decidable (Plain cs) := List.decidableBAll _ cs

/-- So is that a segment is. -/
instance (segment : List Char) : Decidable (PlainSegment segment) :=
  letI : Decidable (∀ c ∈ segment, isSlash c = false) := List.decidableBAll _ segment
  decidable_of_iff
    (Plain segment ∧ (∀ c ∈ segment, isSlash c = false) ∧
      dots segment ≠ some 1 ∧ dots segment ≠ some 2)
    ⟨fun h => ⟨h.1, h.2.1, h.2.2⟩, fun h => ⟨h.plain, h.noSlash, h.noDots⟩⟩

/-- The path of segments, each with a slash behind it. -/
def directory (segments : List (List Char)) : List Char := segments.flatMap fun s => s ++ ['/']

/-- A path after the segments, none of which is the last. -/
def resolve (path : List (List Char)) (segments : List (List Char)) : List (List Char) :=
  segments.foldl (fun path segment => addSegment path segment false) path

/-- Segments one after another. -/
theorem addSegments_append (path a b : List (List Char)) (hb : b ≠ []) :
    addSegments path (a ++ b) = addSegments (resolve path a) b := by
  induction a generalizing path with
  | nil => rfl
  | cons segment a ih =>
      have hne : a ++ b ≠ [] := by simp [hb]
      cases h : a ++ b with
      | nil => exact absurd h hne
      | cons next rest =>
          simp only [List.cons_append, h, addSegments]
          rw [← h, ih]
          rfl

/-- The last segment alone is at the end. -/
theorem addSegments_concat (path init : List (List Char)) (last : List Char) :
    addSegments path (init ++ [last]) = addSegment (resolve path init) last true :=
  addSegments_append path init [last] (List.cons_ne_nil _ _)

/-- One segment more that is not the last. -/
theorem resolve_concat (path init : List (List Char)) (last : List Char) :
    resolve path (init ++ [last]) = addSegment (resolve path init) last false := by
  simp [resolve]

/-- A segment that is no dot segment is appended. -/
theorem addSegment_of_noDots {segment : List Char}
    (h : dots segment ≠ some 1 ∧ dots segment ≠ some 2) (path : List (List Char)) (last : Bool) :
    addSegment path segment last = path ++ [segment] := by
  unfold addSegment
  split
  · next hone => exact absurd hone h.1
  · next htwo => exact absurd htwo h.2
  · rfl

/-- Plain segments are appended. -/
theorem resolve_plain {segments : List (List Char)} (h : ∀ s ∈ segments, PlainSegment s)
    (path : List (List Char)) : resolve path segments = path ++ segments := by
  induction segments generalizing path with
  | nil => simp [resolve]
  | cons segment segments ih =>
      have hsegment := h segment List.mem_cons_self
      have hrest := ih (fun s hs => h s (List.mem_cons_of_mem segment hs)) (path ++ [segment])
      simp only [resolve, List.foldl_cons, addSegment_of_noDots hsegment.noDots] at hrest ⊢
      rw [hrest, List.append_assoc]
      rfl

/-- A directory is split into its segments. -/
theorem pieces_directory {segments : List (List Char)} (h : ∀ s ∈ segments, PlainSegment s)
    (rest : List Char) : Text.pieces isSlash (directory segments ++ rest) =
      segments ++ Text.pieces isSlash rest := by
  induction segments with
  | nil => rfl
  | cons segment segments ih =>
      have hsegment := h segment List.mem_cons_self
      have hsplit : directory (segment :: segments) ++ rest =
          segment ++ '/' :: (directory segments ++ rest) := by simp [directory]
      rw [hsplit, Text.pieces_append rfl, Text.pieces_single hsegment.noSlash,
        ih fun s hs => h s (List.mem_cons_of_mem segment hs)]
      rfl

/-- A directory of plain segments is plain. -/
theorem plain_directory {segments : List (List Char)} (h : ∀ s ∈ segments, PlainSegment s) :
    Plain (directory segments) := by
  intro c hc
  obtain ⟨segment, hsegment, hc⟩ := List.mem_flatMap.mp hc
  rcases List.mem_append.mp hc with hc | hc
  · exact (h segment hsegment).plain c hc
  · obtain rfl := List.mem_singleton.mp hc
    exact ⟨rfl, rfl⟩

/-- The characters of a text that the parser keeps. -/
def kept (text : List Char) : List Char := text.filter fun c => !isTabOrNewline c

/-- A kept text without control characters and spaces at its end. -/
def trimmed (text : List Char) : List Char := (kept text).rdropWhile isC0OrSpace

/-- Tabs and newlines are controls. -/
theorem c0_of_tabOrNewline {c : Char} (h : isTabOrNewline c = true) : isC0OrSpace c = true := by
  simp only [isTabOrNewline, Bool.or_eq_true, beq_iff_eq] at h
  rcases h with (rfl | rfl) | rfl <;> rfl

/-- A plain text is kept. -/
theorem Plain.kept {cs : List Char} (h : Plain cs) : kept cs = cs := by
  refine List.filter_eq_self.mpr fun c hc => ?_
  cases htab : isTabOrNewline c with
  | false => rfl
  | true => exact absurd (c0_of_tabOrNewline htab) (by simp [(h c hc).1])

/-- Nothing is dropped from the end beyond a character that stays. -/
theorem rdropWhile_append {α : Type} {drop : α → Bool} {c : α} (hc : drop c = false)
    (a b : List α) : (a ++ c :: b).rdropWhile drop = a ++ c :: b.rdropWhile drop := by
  induction b using List.reverseRecOn with
  | nil => simp [hc]
  | append_singleton b d ih =>
      have hassoc : a ++ c :: (b ++ [d]) = (a ++ c :: b) ++ [d] := by simp
      rw [hassoc, List.rdropWhile_concat, List.rdropWhile_concat]
      split
      · exact ih
      · rw [hassoc]

/-- A last character that stays keeps what is before it. -/
theorem rdropWhile_concat_eq {α : Type} {drop : α → Bool} {c : α} (hc : drop c = false)
    (a : List α) : (a ++ [c]).rdropWhile drop = a ++ [c] := by
  simp [hc]

/-- Tabs and line ends are control characters: they may go before the end is cut. -/
theorem kept_rdropWhile (text : List Char) :
    kept (text.rdropWhile isC0OrSpace) = trimmed text := by
  induction text using List.reverseRecOn with
  | nil => rfl
  | append_singleton text c ih =>
      have hkept : kept (text ++ [c]) =
          kept text ++ if isTabOrNewline c then [] else [c] := by
        cases htab : isTabOrNewline c <;> simp [kept, htab]
      simp only [trimmed, hkept, List.rdropWhile_concat] at ih ⊢
      cases hc : isC0OrSpace c with
      | true =>
          cases htab : isTabOrNewline c <;> simp [hc, ih]
      | false =>
          have htab : isTabOrNewline c = false := by
            cases htab : isTabOrNewline c with
            | false => rfl
            | true => exact absurd (c0_of_tabOrNewline htab) (by simp [hc])
          simp [hc, htab, hkept]

/-- A plain start is kept, the rest trimmed. -/
theorem clean_plain {pre : List Char} (hne : pre ≠ []) (hpre : Plain pre) (text : List Char) :
    clean (pre ++ text) = pre ++ trimmed text := by
  obtain ⟨first, more, rfl⟩ := List.exists_cons_of_ne_nil hne
  have hfirst := (hpre first List.mem_cons_self).1
  have hhead : (first :: more ++ text).dropWhile isC0OrSpace = first :: more ++ text := by
    simp [hfirst]
  obtain ⟨init, last, hlast⟩ : ∃ init last, first :: more = init ++ [last] :=
    ⟨_, _, (List.dropLast_append_getLast hne).symm⟩
  have hplain := (hpre last (by simp [hlast])).1
  have htail : (first :: more ++ text).rdropWhile isC0OrSpace =
      first :: more ++ text.rdropWhile isC0OrSpace := by
    simp only [hlast, List.append_assoc, List.singleton_append]
    exact rdropWhile_append hplain init text
  have hkeep := hpre.kept
  have htext := kept_rdropWhile text
  unfold kept at hkeep htext
  rw [clean, hhead, htail, List.filter_append, hkeep, htext]

/-- The part of a text that belongs to the path. -/
def pathOf (text : List Char) : List Char := text.takeWhile fun c => !endsPath c

/-- A text that does not end the path is all path. -/
theorem pathOf_self {text : List Char} (h : ∀ c ∈ text, endsPath c = false) :
    pathOf text = text := by
  refine List.takeWhile_eq_self_iff.mpr fun c hc => ?_
  simp [h c hc]

/-- A start that does not end it goes on. -/
theorem pathOf_append {pre : List Char} (h : ∀ c ∈ pre, endsPath c = false) (text : List Char) :
    pathOf (pre ++ text) = pre ++ pathOf text :=
  List.takeWhile_append_of_pos fun c hc => by simp [h c hc]

/-- Joining below a directory. -/
theorem join_directory {segments : List (List Char)} (hne : segments ≠ [])
    (h : ∀ s ∈ segments, PlainSegment s) (base : Url) (text : List Char) :
    (base.join (directory segments ++ text)).segments =
      addSegments (base.segments.dropLast ++ segments)
        (Text.pieces isSlash (pathOf (trimmed text))) := by
  have hplain := plain_directory h
  have hdirectory : directory segments ≠ [] := by
    obtain ⟨segment, rest, rfl⟩ := List.exists_cons_of_ne_nil hne
    simp [directory]
  have hpath : (clean (directory segments ++ text)).takeWhile (fun c => !endsPath c) =
      directory segments ++ pathOf (trimmed text) := by
    rw [clean_plain hdirectory hplain]
    exact pathOf_append (fun c hc => (hplain c hc).2) _
  change addSegments base.segments.dropLast (Text.pieces isSlash (List.takeWhile _ _)) = _
  rw [hpath, pieces_directory h, addSegments_append _ _ _ (Text.pieces_ne_nil _ _),
    resolve_plain h]

/-- A plain text without slashes, behind a directory, is added as the last segment. -/
theorem join_segment {segments : List (List Char)} (hne : segments ≠ [])
    (h : ∀ s ∈ segments, PlainSegment s) (base : Url) {text : List Char} (htext : Plain text)
    (hslash : ∀ c ∈ text, isSlash c = false) :
    base.join (directory segments ++ text) =
      { base with
        segments := addSegment (base.segments.dropLast ++ segments) text true
        query := none
        fragment := none } := by
  have hdirectory : directory segments ≠ [] := by
    obtain ⟨segment, rest, rfl⟩ := List.exists_cons_of_ne_nil hne
    simp [directory]
  have hplain : Plain (directory segments ++ text) := by
    intro c hc
    rcases List.mem_append.mp hc with hc | hc
    · exact plain_directory h c hc
    · exact htext c hc
  have htrimmed : trimmed text = text := by
    rw [trimmed, htext.kept, List.rdropWhile_eq_self_iff]
    intro hne'
    simp [(htext _ (List.getLast_mem hne')).1]
  have hclean : clean (directory segments ++ text) = directory segments ++ text := by
    rw [clean_plain hdirectory (plain_directory h), htrimmed]
  have hpath : (directory segments ++ text).takeWhile (fun c => !endsPath c) =
      directory segments ++ text := pathOf_self fun c hc => (hplain c hc).2
  have hrest : (directory segments ++ text).dropWhile (fun c => !endsPath c) = [] :=
    List.dropWhile_eq_nil_iff.mpr fun c hc => by simp [(hplain c hc).2]
  have hpieces : addSegments base.segments.dropLast
      (Text.pieces isSlash (directory segments ++ text)) =
        addSegment (base.segments.dropLast ++ segments) text true := by
    rw [pieces_directory h, Text.pieces_single hslash, addSegments_concat, resolve_plain h]
  simp only [Url.join, hclean, hpath, hrest, hpieces, List.contains_nil, Bool.false_eq_true,
    if_false]

/-- A plain name behind a slash keeps the whole text before it. -/
theorem trimmed_name {name : List Char} (hne : name ≠ []) (hname : Plain name)
    (text : List Char) : trimmed (text ++ '/' :: name) = kept text ++ '/' :: name := by
  have hkept : kept (text ++ '/' :: name) = kept text ++ '/' :: name := by
    have hname := hname.kept
    unfold kept at hname ⊢
    rw [List.filter_append, List.filter_cons_of_pos (by rfl), hname]
  obtain ⟨init, last, hlast⟩ : ∃ init last, name = init ++ [last] :=
    ⟨_, _, (List.dropLast_append_getLast hne).symm⟩
  have hconcat : kept text ++ '/' :: name = (kept text ++ '/' :: init) ++ [last] := by
    simp [hlast]
  rw [trimmed, hkept, hconcat]
  exact rdropWhile_concat_eq (hname last (by simp [hlast])).1 _

/-- The text, behind `path`, names the one segment `p` of it: it does not end the path, and what
stands before `p` leads back to `path`. -/
structure Names (path : List (List Char)) (text p : List Char) : Prop where
  staysInPath : ∀ c ∈ kept text, endsPath c = false
  endStays : ∀ c, (kept text).getLast? = some c → isC0OrSpace c = false
  leadsBack : ∃ init, Text.pieces isSlash (kept text) = init ++ [p] ∧ resolve path init = path
  noDots : dots p ≠ some 1 ∧ dots p ≠ some 2
  nonempty : p ≠ []

/-- A segment that stands for itself names itself. -/
theorem PlainSegment.names {segment : List Char} (h : PlainSegment segment) (hne : segment ≠ [])
    (path : List (List Char)) : Names path segment segment where
  staysInPath c hc := (h.plain c (h.plain.kept ▸ hc)).2
  endStays c hc := (h.plain c (List.mem_of_getLast? (h.plain.kept ▸ hc))).1
  leadsBack := ⟨[], by rw [h.plain.kept, Text.pieces_single h.noSlash]; rfl, rfl⟩
  noDots := h.noDots
  nonempty := hne

/-- A dot segment has no controls. -/
theorem dots_noC0 {cs : List Char} {n : Nat} (h : dots cs = some n) :
    ∀ c ∈ cs, isC0OrSpace c = false := by
  induction cs using dots.induct generalizing n with
  | case1 => exact fun c hc => absurd hc List.not_mem_nil
  | case2 cs ih =>
      simp only [dots, Option.map_eq_some_iff] at h
      obtain ⟨m, hm, -⟩ := h
      simpa [isC0OrSpace] using ih hm
  | case3 c cs hc ih =>
      simp only [dots, if_pos hc, Option.map_eq_some_iff] at h
      obtain ⟨m, hm, -⟩ := h
      have hcs := ih hm
      rcases hc with rfl | rfl <;> simpa [isC0OrSpace] using hcs
  | case4 c cs hc => simp [dots, hc] at h
  | case5 cs h1 h2 h3 => simp [dots] at h

/-- A segment that is appended as the last one is the last one, or leaves an empty one. -/
theorem addSegment_last (path : List (List Char)) (segment : List Char) :
    addSegment path segment true = path ++ [segment] ∧
        (dots segment ≠ some 1 ∧ dots segment ≠ some 2) ∨
      ∃ path', addSegment path segment true = path' ++ [[]] := by
  by_cases hone : dots segment = some 1
  · exact .inr ⟨path, by simp [addSegment, hone]⟩
  · by_cases htwo : dots segment = some 2
    · exact .inr ⟨path.dropLast, by simp [addSegment, htwo]⟩
    · exact .inl ⟨addSegment_of_noDots ⟨hone, htwo⟩ path true, hone, htwo⟩

/-- What stands behind the end of a path does not belong to it. -/
theorem pathOf_cut {c : Char} (hends : endsPath c = true) (a rest : List Char) :
    pathOf (a ++ c :: rest) = pathOf a := by
  induction a with
  | nil => simp [pathOf, hends]
  | cons d a ih =>
      simp only [pathOf, List.cons_append, List.takeWhile_cons] at ih ⊢
      rw [ih]

/-- A text that ends the path hides the name behind it. -/
theorem pathOf_hidden {name : List Char} (hne : name ≠ []) (hname : PlainSegment name)
    {text : List Char} {c : Char} (hc : c ∈ kept text) (hends : endsPath c = true) :
    pathOf (trimmed (text ++ '/' :: name)) = pathOf (trimmed text) := by
  obtain ⟨a, b, hab⟩ := List.append_of_mem hc
  have hplain : isC0OrSpace c = false := by
    simp only [endsPath, Bool.or_eq_true, beq_iff_eq] at hends
    rcases hends with rfl | rfl <;> rfl
  rw [trimmed_name hne hname.plain, trimmed, hab, rdropWhile_append hplain, List.append_assoc,
    List.cons_append, pathOf_cut hends, pathOf_cut hends]

/-- A kept text that does not end the path is its path, with the name behind it. -/
theorem pathOf_name {name : List Char} (hne : name ≠ []) (hname : PlainSegment name)
    {text : List Char} (htext : ∀ c ∈ kept text, endsPath c = false) :
    pathOf (trimmed (text ++ '/' :: name)) = kept text ++ '/' :: name := by
  rw [trimmed_name hne hname.plain]
  refine pathOf_self fun c hc => ?_
  rcases List.mem_append.mp hc with hc | hc
  · exact htext c hc
  · rcases List.mem_cons.mp hc with rfl | hc
    · rfl
    · exact (hname.plain c hc).2

/-- The last segment of a joined path, unless it is empty, ends the text. -/
theorem suffix_of_addSegments {path result : List (List Char)} {text p : List Char} (hp : p ≠ [])
    (hsegments : addSegments path (Text.pieces isSlash text) = result ++ [p]) : p <:+ text := by
  obtain ⟨init, last, hpieces⟩ := Text.exists_last_piece isSlash text
  rw [hpieces, addSegments_concat] at hsegments
  rcases addSegment_last (resolve path init) last with ⟨hlast, -⟩ | ⟨path', hlast⟩
  · obtain ⟨-, heq⟩ := List.append_inj' (hlast.symm.trans hsegments) rfl
    obtain rfl := List.singleton_injective heq
    exact Text.suffix_of_pieces hpieces
  · obtain ⟨-, heq⟩ := List.append_inj' (hlast.symm.trans hsegments) rfl
    exact absurd (List.singleton_injective heq).symm hp

/-- A trimmed text does not end with a control character or a space. -/
theorem not_suffix_trimmed {text p : List Char} {c : Char} (hc : isC0OrSpace c = true) :
    ¬ p ++ [c] <:+ trimmed text := by
  rintro ⟨x, hx⟩
  have hne : (kept text).rdropWhile isC0OrSpace ≠ [] := by
    intro hnil
    rw [trimmed, hnil] at hx
    simp at hx
  have hlast := List.rdropWhile_last_not isC0OrSpace (kept text) hne
  have hget : ((kept text).rdropWhile isC0OrSpace).getLast hne = c := by
    apply Option.some.inj
    rw [← List.getLast?_eq_some_getLast, ← trimmed, ← hx, ← List.append_assoc]
    exact List.getLast?_concat
  exact hlast (by rw [hget, hc])

/-- Nothing is trimmed that does not end so. -/
theorem trimmed_eq_kept {text : List Char}
    (hend : ∀ c, (kept text).getLast? = some c → isC0OrSpace c = false) :
    trimmed text = kept text := by
  refine List.rdropWhile_eq_self_iff.mpr fun hne => ?_
  simp [hend _ (List.getLast?_eq_some_getLast hne)]

/-- A control is no slash. -/
theorem not_isSlash_of_c0 {c : Char} (hc : isC0OrSpace c = true) : isSlash c = false := by
  cases hslash : isSlash c with
  | false => rfl
  | true =>
      simp only [isSlash, Bool.or_eq_true, beq_iff_eq] at hslash
      rcases hslash with rfl | rfl <;> exact absurd hc (by decide)

/-- A segment that ends with a control character or a space stands for itself. -/
theorem noDots_of_c0 {segment : List Char} {c : Char} (hc : isC0OrSpace c = true) :
    dots (segment ++ [c]) ≠ some 1 ∧ dots (segment ++ [c]) ≠ some 2 := by
  have hnone : ∀ n, dots (segment ++ [c]) ≠ some n := by
    intro n hdots
    have hplain := dots_noC0 hdots c (by simp)
    simp [hc] at hplain
  exact ⟨hnone 1, hnone 2⟩

section Joins

variable {name : List Char} (hne : name ≠ []) (hname : PlainSegment name)
    {path : List (List Char)} {text p : List Char}

include hne hname

/-- With a name behind it, a text that does not end the path adds all its pieces to it. -/
theorem addSegments_name (hstays : ∀ c ∈ kept text, endsPath c = false) :
    addSegments path (Text.pieces isSlash (pathOf (trimmed (text ++ '/' :: name)))) =
      resolve path (Text.pieces isSlash (kept text)) ++ [name] := by
  rw [pathOf_name hne hname hstays, Text.pieces_append (by rfl),
    Text.pieces_single hname.noSlash, addSegments_concat, addSegment_of_noDots hname.noDots]

/-- If both joins of a text go to one segment and to the name behind it, the text names the
segment. -/
theorem Names.of_joins (hp : p ≠ [])
    (hshort : addSegments path (Text.pieces isSlash (pathOf (trimmed text))) = path ++ [p])
    (hlong : addSegments path (Text.pieces isSlash (pathOf (trimmed (text ++ '/' :: name)))) =
      path ++ [p, name]) : Names path text p := by
  -- What ends the path hides the name, and both joins are one.
  have hstays : ∀ c ∈ kept text, endsPath c = false := by
    intro c hc
    cases hends : endsPath c with
    | false => rfl
    | true =>
        rw [pathOf_hidden hne hname hc hends, hshort] at hlong
        exact absurd (List.append_cancel_left hlong) (by simp)
  obtain ⟨init, last, hpieces⟩ := Text.exists_last_piece isSlash (kept text)
  have hpath : addSegment (resolve path init) last false = path ++ [p] := by
    rw [addSegments_name hne hname hstays, hpieces, resolve_concat] at hlong
    have hlong : addSegment (resolve path init) last false ++ [name] =
        (path ++ [p]) ++ [name] := by
      rw [hlong, List.append_assoc]
      rfl
    exact List.append_cancel_right hlong
  have hkeptStart : trimmed text <+: kept text := List.rdropWhile_prefix isC0OrSpace (kept text)
  rw [pathOf_self fun c hc => hstays c (hkeptStart.subset hc)] at hshort
  -- What is cut from the end of the text alone stays before the name.
  have hend : ∀ c, (kept text).getLast? = some c → isC0OrSpace c = false := by
    intro c hc
    cases hdrop : isC0OrSpace c with
    | false => rfl
    | true =>
        obtain ⟨before, hbefore⟩ := List.getLast?_eq_some_iff.mp hc
        obtain ⟨init', last', hbefore'⟩ := Text.exists_last_piece isSlash before
        have hconcat := Text.pieces_concat (not_isSlash_of_c0 hdrop) hbefore'
        rw [← hbefore, hpieces] at hconcat
        obtain ⟨-, heq⟩ := List.append_inj' hconcat rfl
        obtain rfl := List.singleton_injective heq
        rw [addSegment_of_noDots (noDots_of_c0 hdrop)] at hpath
        obtain ⟨-, heq⟩ := List.append_inj' hpath rfl
        obtain rfl := List.singleton_injective heq
        exact absurd (suffix_of_addSegments hp hshort) (not_suffix_trimmed hdrop)
  rw [trimmed_eq_kept hend, hpieces, addSegments_concat] at hshort
  rcases addSegment_last (resolve path init) last with ⟨hlast, hdots⟩ | ⟨path', hlast⟩
  · obtain ⟨hinit, heq⟩ := List.append_inj' (hlast.symm.trans hshort) rfl
    obtain rfl := List.singleton_injective heq
    exact ⟨hstays, hend, ⟨init, hpieces, hinit⟩, hdots, hp⟩
  · obtain ⟨-, heq⟩ := List.append_inj' (hlast.symm.trans hshort) rfl
    exact absurd (List.singleton_injective heq).symm hp

omit hne hname in
/-- The text alone names a segment. -/
theorem Names.short (h : Names path text p) :
    addSegments path (Text.pieces isSlash (pathOf (trimmed text))) = path ++ [p] := by
  obtain ⟨init, hpieces, hinit⟩ := h.leadsBack
  rw [trimmed_eq_kept h.endStays, pathOf_self h.staysInPath, hpieces, addSegments_concat, hinit,
    addSegment_of_noDots h.noDots]

/-- And with a name below it, two. -/
theorem Names.long (h : Names path text p) :
    addSegments path (Text.pieces isSlash (pathOf (trimmed (text ++ '/' :: name)))) =
      path ++ [p, name] := by
  obtain ⟨init, hpieces, hinit⟩ := h.leadsBack
  rw [addSegments_name hne hname h.staysInPath, hpieces, resolve_concat, hinit,
    addSegment_of_noDots h.noDots, List.append_assoc]
  rfl

end Joins

/-- **Two joins of one text**, alone and with a name behind it, below the same segments: they go to
one segment and to the name in it exactly when the text names the segment. -/
theorem joins_agree_iff {segments : List (List Char)} (hne : segments ≠ [])
    (h : ∀ s ∈ segments, PlainSegment s) {name : List Char} (hname0 : name ≠ [])
    (hname : PlainSegment name) (base : Url) (text p : List Char) :
    p ≠ [] ∧
        (base.join (directory segments ++ text)).segments =
          base.segments.dropLast ++ segments ++ [p] ∧
        (base.join (directory segments ++ (text ++ '/' :: name))).segments =
          base.segments.dropLast ++ segments ++ [p, name] ↔
      Names (base.segments.dropLast ++ segments) text p := by
  rw [join_directory hne h, join_directory hne h]
  constructor
  · rintro ⟨hp, hshort, hlong⟩
    exact Names.of_joins hname0 hname hp hshort hlong
  · intro hnames
    exact ⟨hnames.nonempty, hnames.short, hnames.long hname0 hname⟩

/-- Such a join has no query. -/
theorem Names.query {segments : List (List Char)} (hne : segments ≠ [])
    (h : ∀ s ∈ segments, PlainSegment s) {name : List Char} (hname0 : name ≠ [])
    (hname : PlainSegment name) {base : Url} {path : List (List Char)} {text p : List Char}
    (hnames : Names path text p) :
    (base.join (directory segments ++ (text ++ '/' :: name))).query = none := by
  have hplain := plain_directory h
  have hdirectory : directory segments ≠ [] := by
    obtain ⟨segment, rest, rfl⟩ := List.exists_cons_of_ne_nil hne
    simp [directory]
  have hrest : (clean (directory segments ++ (text ++ '/' :: name))).dropWhile
      (fun c => !endsPath c) = [] := by
    rw [clean_plain hdirectory hplain, trimmed_name hname0 hname.plain]
    refine List.dropWhile_eq_nil_iff.mpr fun c hc => ?_
    rcases List.mem_append.mp hc with hc | hc
    · simp [(hplain c hc).2]
    · rcases List.mem_append.mp hc with hc | hc
      · simp [hnames.staysInPath c hc]
      · rcases List.mem_cons.mp hc with rfl | hc
        · rfl
        · simp [(hname.plain c hc).2]
  simp only [Url.join, hrest]

end WebUrl
