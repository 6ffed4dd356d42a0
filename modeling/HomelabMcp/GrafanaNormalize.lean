import HomelabMcp.Interaction
import HomelabMcp.JsonValue
import HomelabMcp.TextPairs
import HomelabMcp.TextSections

/-!
# What is kept of Grafana's answers

The members of an object are read with bounds on their bytes.  Of labels and annotations, entries
that look like URLs are left out.

* `urlLikeValue_iff`: the recognizers of values accept the texts of the policy.
* `safeStringMap_policy_iff`: the policy is kept exactly if no key ends in `url` and whitespace, as
  the key is not trimmed.
* `trailing_space_kept`: such a key.
-/

namespace Grafana

open Interaction
open Json (Value)

/-- The errors of a call to Grafana. -/
inductive Error where
  | invalidArguments
  | capacityExhausted
  | timeout
  | unauthorized
  | queryRejected
  | mutationRejected
  | mutationOutcomeUnknown
  | upstreamUnavailable
  | invalidResponse
  | renderTimeout
  | renderRejected
  | renderInvalidResponse
  deriving DecidableEq

/-- The members of a JSON object. -/
abbrev Members : Type := List (String × Value)

/-- The bounds of a map. -/
def maxSafeMapEntries : Nat := 64
def maxSafeKeyBytes : Nat := 128
def maxSafeValueBytes : Nat := 4096
def maxSummaryBytes : Nat := 512

/-- A member that is a text within its bound, and not empty. -/
def boundedString (object : Members) (key : String) (maximumBytes : Nat) : Except Error String :=
  okOr .invalidResponse (((object.lookup key).bind Value.asStr).filter fun value =>
    !value.isEmpty && value.utf8ByteSize ≤ maximumBytes)

/-- The same, where it may be empty. -/
def allowEmptyBoundedString (object : Members) (key : String) (maximumBytes : Nat) :
    Except Error String :=
  okOr .invalidResponse (((object.lookup key).bind Value.asStr).filter fun value =>
    value.utf8ByteSize ≤ maximumBytes)

/-- Such a member is there where it is read. -/
theorem boundedString_eq_ok {object : Members} {key value : String} {maximumBytes : Nat} :
    boundedString object key maximumBytes = .ok value ↔ object.lookup key = some (.string value) ∧
      value ≠ "" ∧ value.utf8ByteSize ≤ maximumBytes := by
  rw [boundedString, okOr_eq_ok, Option.filter_eq_some_iff, Option.bind_eq_some_iff]
  simp only [Value.asStr_eq_some, exists_eq_right, Bool.and_eq_true, Bool.not_eq_true',
    decide_eq_true_eq, and_congr_right_iff]
  intro _
  rw [Bool.eq_false_iff, ne_eq, String.isEmpty_iff]

/-- So is one that may be empty. -/
theorem allowEmptyBoundedString_eq_ok {object : Members} {key value : String}
    {maximumBytes : Nat} :
    allowEmptyBoundedString object key maximumBytes = .ok value ↔
      object.lookup key = some (.string value) ∧ value.utf8ByteSize ≤ maximumBytes := by
  rw [allowEmptyBoundedString, okOr_eq_ok, Option.filter_eq_some_iff, Option.bind_eq_some_iff]
  simp only [Value.asStr_eq_some, exists_eq_right, decide_eq_true_eq]

/-- `url_designated_key`: the case of the letters does not count. -/
def urlDesignatedKey (key : String) : Bool :=
  ['u', 'r', 'l'].isSuffixOf (Text.toAsciiLowercase key).toList

/-- `has_absolute_scheme`. -/
def hasAbsoluteScheme (value : List Char) : Bool :=
  match Text.splitOnce [':'] value with
  | some (first :: rest, _) =>
      first.isAlpha && rest.all fun c => c.isAlphanum || ['+', '-', '.'].contains c
  | _ => false

/-- A closing parenthesis that does not come at once. -/
def closesLater (rest : List Char) : Bool := (rest.findIdx? (· == ')')).any (0 < ·)

/-- The search goes on behind each occurrence of the opening. -/
def hasMarkdownLink : List Char → Bool
  | ']' :: '(' :: rest => closesLater rest || hasMarkdownLink rest
  | _ :: rest => hasMarkdownLink rest
  | [] => false

/-- `url_like_value`: what stands around the value does not count. -/
def urlLikeValue (value : String) : Bool :=
  let value := (Text.trim value).toList
  ['/'].isPrefixOf value || hasAbsoluteScheme value || hasMarkdownLink value

/-- One entry: an error unless it is within its bounds, and then kept or not. -/
def safeEntry (output : Members) : String × Value → Except Error Members
  | (key, .string value) =>
      if key.isEmpty || key.utf8ByteSize > maxSafeKeyBytes ||
          value.utf8ByteSize > maxSafeValueBytes then .error .invalidResponse
      else if !urlDesignatedKey key && !urlLikeValue value then
        -- the keys of an object come in order, so each one is inserted last
        .ok (output ++ [(key, .string value)])
      else .ok output
  | _ => .error .invalidResponse

/-- The entries that are kept. -/
def safeStringMap (value : Value) : Except Error Members := do
  let object ← okOr .invalidResponse value.asObject
  if object.length > maxSafeMapEntries then .error .invalidResponse
  else object.foldlM safeEntry []

/-- The text ends in `url`, whatever the case. -/
def EndsInUrl (key : List Char) : Prop :=
  ∃ start last, key = start ++ last ∧ last.map Text.asciiLower = ['u', 'r', 'l']

/-- The text starts with the scheme of an absolute URI. -/
def StartsWithScheme (value : List Char) : Prop :=
  ∃ first rest after, value = first :: rest ++ ':' :: after ∧ first.isAlpha = true ∧
    ∀ c ∈ rest, c.isAlphanum = true ∨ c ∈ ['+', '-', '.']

/-- The text contains the target of a Markdown link that is not empty. -/
def HasLinkTarget (value : List Char) : Prop :=
  ∃ before target after, value = before ++ (']' :: '(' :: target) ++ ')' :: after ∧ target ≠ [] ∧
    ')' ∉ target

/-- The entries that the policy leaves out. -/
inductive Omitted (key value : String) : Prop
  | key (h : EndsInUrl (Text.trim key).toList)
  | path (h : ∃ rest, (Text.trim value).toList = '/' :: rest)
  | scheme (h : StartsWithScheme (Text.trim value).toList)
  | link (h : HasLinkTarget (Text.trim value).toList)

/-- What is accepted as labels or annotations. -/
structure SafeMap (members : Members) : Prop where
  entries : members.length ≤ maxSafeMapEntries
  within : ∀ member ∈ members, ∃ text, member.2 = .string text ∧ member.1 ≠ "" ∧
    member.1.utf8ByteSize ≤ maxSafeKeyBytes ∧ text.utf8ByteSize ≤ maxSafeValueBytes

/-- The check of a key finds those that end in these letters. -/
theorem urlDesignatedKey_iff (key : String) :
    urlDesignatedKey key = true ↔ EndsInUrl key.toList := by
  rw [urlDesignatedKey, Text.toAsciiLowercase, String.toList_ofList, List.isSuffixOf_iff_suffix]
  constructor
  · intro ⟨lowered, hlowered⟩
    obtain ⟨start, last, hkey, -, hlast⟩ := List.map_eq_append_iff.mp hlowered.symm
    exact ⟨start, last, hkey, hlast⟩
  · intro ⟨start, last, hkey, hlast⟩
    exact ⟨start.map Text.asciiLower, by rw [hkey, List.map_append, hlast]⟩

/-- The check of a scheme finds the values that start with one. -/
theorem hasAbsoluteScheme_iff (value : List Char) :
    hasAbsoluteScheme value = true ↔ StartsWithScheme value := by
  have hgrammar : ∀ {rest : List Char},
      rest.all (fun c => c.isAlphanum || ['+', '-', '.'].contains c) = true ↔
        ∀ c ∈ rest, c.isAlphanum = true ∨ c ∈ ['+', '-', '.'] := by
    intro rest
    simp only [List.all_eq_true, Bool.or_eq_true, List.contains_iff_mem]
  unfold hasAbsoluteScheme
  constructor
  · intro h
    split at h
    · next first rest after hsplit =>
        rw [Bool.and_eq_true, hgrammar] at h
        obtain ⟨hvalue, -⟩ := (Text.splitOnce_iff (List.cons_ne_nil _ _)).mp hsplit
        exact ⟨first, rest, after, hvalue, h.1, h.2⟩
    · cases h
  · intro ⟨first, rest, after, hvalue, hfirst, hrest⟩
    have hcolon : ':' ∉ first :: rest := by
      intro hmem
      rcases List.mem_cons.mp hmem with rfl | hmem
      · exact absurd hfirst (by decide)
      · exact absurd (hrest _ hmem) (by decide)
    rw [hvalue, Text.splitOnce_append hcolon]
    dsimp only
    rw [hfirst, hgrammar.mpr hrest]
    rfl

/-- The search behind a link finds a target that is not empty. -/
theorem closesLater_iff (rest : List Char) : closesLater rest = true ↔
    ∃ target after, rest = target ++ ')' :: after ∧ target ≠ [] ∧ ')' ∉ target := by
  cases rest with
  | nil => simp [closesLater]
  | cons c rest =>
      by_cases hc : c = ')'
      · subst hc
        refine iff_of_false (by simp [closesLater, List.findIdx?_cons]) ?_
        intro ⟨target, after, heq, hne, hfree⟩
        obtain ⟨d, target, rfl⟩ := List.exists_cons_of_ne_nil hne
        exact hfree (List.mem_cons.mpr (.inl (List.cons.inj heq).1))
      · have hlater : closesLater (c :: rest) = true ↔ ')' ∈ rest := by
          unfold closesLater
          rw [List.findIdx?_cons, if_neg (by simpa using hc)]
          have hisSome : (rest.findIdx? (· == ')')).isSome = true ↔ ')' ∈ rest := by
            rw [List.findIdx?_isSome, List.any_eq_true]
            simp
          rw [← hisSome]
          cases rest.findIdx? (· == ')') <;> simp
        rw [hlater]
        constructor
        · intro hmem
          obtain ⟨target, after, hrest, hfree⟩ := List.eq_append_cons_of_mem hmem
          refine ⟨c :: target, after, by rw [hrest, List.cons_append], List.cons_ne_nil _ _, ?_⟩
          rw [List.mem_cons, not_or]
          exact ⟨fun heq => hc heq.symm, hfree⟩
        · intro ⟨target, after, heq, hne, _⟩
          obtain ⟨d, target, rfl⟩ := List.exists_cons_of_ne_nil hne
          obtain ⟨-, hrest⟩ := List.cons.inj heq
          rw [hrest]
          exact List.mem_append_right target List.mem_cons_self

/-- A target starts here or later. -/
theorem hasLinkTarget_cons {c : Char} {rest : List Char} :
    HasLinkTarget (c :: rest) ↔
      (∃ inner, c = ']' ∧ rest = '(' :: inner ∧ closesLater inner = true) ∨ HasLinkTarget rest := by
  constructor
  · intro ⟨before, target, after, heq, hne, hfree⟩
    cases before with
    | nil =>
        obtain ⟨hc, hrest⟩ := List.cons.inj heq
        exact .inl ⟨target ++ ')' :: after, hc, hrest,
          (closesLater_iff _).mpr ⟨target, after, rfl, hne, hfree⟩⟩
    | cons d before =>
        obtain ⟨-, hrest⟩ := List.cons.inj heq
        exact .inr ⟨before, target, after, hrest, hne, hfree⟩
  · rintro (⟨inner, rfl, rfl, hcloses⟩ | ⟨before, target, after, rfl, hne, hfree⟩)
    · obtain ⟨target, after, rfl, hne, hfree⟩ := (closesLater_iff inner).mp hcloses
      exact ⟨[], target, after, rfl, hne, hfree⟩
    · exact ⟨c :: before, target, after, rfl, hne, hfree⟩

/-- The check of a link finds the values that hold one. -/
theorem hasMarkdownLink_iff (value : List Char) :
    hasMarkdownLink value = true ↔ HasLinkTarget value := by
  induction value using hasMarkdownLink.induct with
  | case1 rest ih =>
      rw [hasMarkdownLink, Bool.or_eq_true, ih, hasLinkTarget_cons, hasLinkTarget_cons]
      simp
  | case2 c rest hopen ih =>
      have hskip : hasMarkdownLink (c :: rest) = hasMarkdownLink rest := by
        rw [hasMarkdownLink]
        exact hopen
      rw [hskip, ih, hasLinkTarget_cons]
      constructor
      · exact .inr
      · rintro (⟨inner, rfl, rfl, -⟩ | h)
        · exact absurd rfl (hopen inner rfl)
        · exact h
  | case3 =>
      simp [hasMarkdownLink, HasLinkTarget]

/-- The three kinds of values that look like a URL. -/
theorem urlLikeValue_iff (value : String) :
    urlLikeValue value = true ↔ (∃ rest, (Text.trim value).toList = '/' :: rest) ∨
      StartsWithScheme (Text.trim value).toList ∨ HasLinkTarget (Text.trim value).toList := by
  have hpath : ['/'].isPrefixOf (Text.trim value).toList = true ↔
      ∃ rest, (Text.trim value).toList = '/' :: rest := by
    rw [List.isPrefixOf_iff_prefix]
    exact ⟨fun ⟨rest, h⟩ => ⟨rest, h.symm⟩, fun ⟨rest, h⟩ => ⟨rest, h.symm⟩⟩
  simp only [urlLikeValue, Bool.or_eq_true, hpath, hasAbsoluteScheme_iff, hasMarkdownLink_iff,
    or_assoc]

/-- What the policy omits, by the recognizers. -/
theorem omitted_iff (key value : String) :
    Omitted key value ↔ urlDesignatedKey (Text.trim key) = true ∨ urlLikeValue value = true := by
  rw [urlDesignatedKey_iff, urlLikeValue_iff]
  constructor
  · rintro (h | h | h | h)
    · exact .inl h
    · exact .inr (.inl h)
    · exact .inr (.inr (.inl h))
    · exact .inr (.inr (.inr h))
  · rintro (h | h | h | h)
    · exact .key h
    · exact .path h
    · exact .scheme h
    · exact .link h

/-- An entry that the program keeps. -/
def keptEntry (member : String × Value) : Bool :=
  member.2.asStr.any fun value => !urlDesignatedKey member.1 && !urlLikeValue value

/-- An entry is kept by its key and its text. -/
theorem keptEntry_string (key text : String) :
    keptEntry (key, .string text) = (!urlDesignatedKey key && !urlLikeValue text) := by
  simp only [keptEntry, Value.asStr, Option.any_some]

/-- An entry within the bounds. -/
def WithinBounds (member : String × Value) : Prop :=
  ∃ text, member.2 = .string text ∧ member.1 ≠ "" ∧ member.1.utf8ByteSize ≤ maxSafeKeyBytes ∧
    text.utf8ByteSize ≤ maxSafeValueBytes

/-- One entry is within its bounds, and added where it is kept. -/
theorem safeEntry_eq_ok {output out : Members} {member : String × Value} :
    safeEntry output member = .ok out ↔
      WithinBounds member ∧ out = output ++ [member].filter keptEntry := by
  obtain ⟨key, value⟩ := member
  cases value with
  | string text =>
      have hbounds : WithinBounds (key, .string text) ↔ key ≠ "" ∧
          key.utf8ByteSize ≤ maxSafeKeyBytes ∧ text.utf8ByteSize ≤ maxSafeValueBytes := by
        simp [WithinBounds]
      have hguard : (key.isEmpty || decide (key.utf8ByteSize > maxSafeKeyBytes) ||
          decide (text.utf8ByteSize > maxSafeValueBytes)) = true ↔
            ¬ WithinBounds (key, .string text) := by
        rw [hbounds]
        simp only [Bool.or_eq_true, String.isEmpty_iff, decide_eq_true_eq]
        grind
      have hentry : safeEntry output (key, .string text) =
          if (key.isEmpty || decide (key.utf8ByteSize > maxSafeKeyBytes) ||
            decide (text.utf8ByteSize > maxSafeValueBytes)) = true then .error .invalidResponse
          else if (!urlDesignatedKey key && !urlLikeValue text) = true then
            .ok (output ++ [(key, .string text)])
          else .ok output := by rw [safeEntry]
      have hkept : [(key, Value.string text)].filter keptEntry =
          if (!urlDesignatedKey key && !urlLikeValue text) = true then [(key, .string text)]
          else [] := by
        rw [List.filter_cons, keptEntry_string, List.filter_nil]
      rw [hentry, hkept]
      by_cases hwithin : WithinBounds (key, .string text)
      · rw [if_neg (mt hguard.mp (not_not.mpr hwithin)), and_iff_right hwithin]
        by_cases hkeep : (!urlDesignatedKey key && !urlLikeValue text) = true
        · rw [if_pos hkeep, if_pos hkeep, Except.ok.injEq, eq_comm]
        · rw [if_neg hkeep, if_neg hkeep, List.append_nil, Except.ok.injEq, eq_comm]
      · rw [if_pos (hguard.mpr hwithin)]
        exact iff_of_false nofun fun h => hwithin h.1
  | _ => simp [safeEntry, WithinBounds]

/-- So are all of them. -/
theorem foldlM_safeEntry {members output out : Members} :
    members.foldlM safeEntry output = .ok out ↔
      (∀ member ∈ members, WithinBounds member) ∧ out = output ++ members.filter keptEntry := by
  induction members generalizing output with
  | nil => simp [List.foldlM_nil, pure, Except.pure, eq_comm]
  | cons member members ih =>
      rw [List.foldlM_cons, bind_eq_ok, List.forall_mem_cons]
      constructor
      · intro ⟨next, hnext, hrest⟩
        obtain ⟨hmember, rfl⟩ := safeEntry_eq_ok.mp hnext
        obtain ⟨hmembers, rfl⟩ := ih.mp hrest
        refine ⟨⟨hmember, hmembers⟩, ?_⟩
        rw [List.append_assoc, ← List.filter_append, List.singleton_append]
      · intro ⟨⟨hmember, hmembers⟩, hout⟩
        refine ⟨_, safeEntry_eq_ok.mpr ⟨hmember, rfl⟩, ih.mpr ⟨hmembers, ?_⟩⟩
        rw [hout, List.append_assoc, ← List.filter_append, List.singleton_append]

/-- A map that is safe is bounded, and so are its entries. -/
theorem safeMap_iff {members : Members} : SafeMap members ↔
    members.length ≤ maxSafeMapEntries ∧ ∀ member ∈ members, WithinBounds member :=
  ⟨fun h => ⟨h.entries, h.within⟩, fun h => ⟨h.1, h.2⟩⟩

/-- What is read of a map are its kept entries. -/
theorem safeStringMap_eq_ok {value : Value} {out : Members} :
    safeStringMap value = .ok out ↔
      ∃ members, value = .object members ∧ SafeMap members ∧ out = members.filter keptEntry := by
  cases value with
  | object members =>
      have hmembers : safeStringMap (.object members) =
          if members.length > maxSafeMapEntries then .error .invalidResponse
          else members.foldlM safeEntry [] := rfl
      rw [hmembers]
      constructor
      · intro h
        split_ifs at h with hmany
        obtain ⟨hwithin, rfl⟩ := foldlM_safeEntry.mp h
        exact ⟨members, rfl, safeMap_iff.mpr ⟨Nat.le_of_not_lt hmany, hwithin⟩, rfl⟩
      · intro ⟨members', hobject, hsafe, hout⟩
        obtain rfl := Value.object.inj hobject
        rw [if_neg (Nat.not_lt.mpr hsafe.entries)]
        exact foldlM_safeEntry.mpr ⟨hsafe.within, hout⟩
  | _ => exact iff_of_false nofun nofun

/-- What is kept by the policy. -/
def PolicyKeeps (member : String × Value) : Prop :=
  ∀ text, member.2 = .string text → ¬ Omitted member.1 text

/-- The value is accepted exactly if it is a map within the bounds, and then what the policy keeps
of it is returned. -/
def FollowsPolicy (value : Value) : Prop :=
  ((∃ out, safeStringMap value = .ok out) ↔ ∃ members, value = .object members ∧ SafeMap members) ∧
  ∀ members out, value = .object members → safeStringMap value = .ok out →
    ∃ keep : String × Value → Bool,
      (∀ member ∈ members, keep member = true ↔ PolicyKeeps member) ∧ out = members.filter keep

/-- In a map that is accepted, each key that ends in `url` does so without whitespace behind it,
unless its value is left out anyway. -/
def KeysEndPlainly (value : Value) : Prop :=
  ∀ members, value = .object members → SafeMap members → ∀ key text,
    (key, Value.string text) ∈ members → urlDesignatedKey (Text.trim key) = true →
      urlDesignatedKey key = true ∨ urlLikeValue text = true

/-- None of the three letters is blank. -/
theorem not_whitespace_of_letter {c : Char} (h : Text.asciiLower c ∈ ['u', 'r', 'l']) :
    Text.isWhitespace c = false := by
  by_cases hupper : 'A' ≤ c ∧ c ≤ 'Z'
  · have hlow : 65 ≤ c.toNat := hupper.1
    have hhigh : c.toNat ≤ 90 := hupper.2
    have hall : ∀ n < 91, 65 ≤ n → Text.isWhitespace (Char.ofNat n) = false := by decide +kernel
    have hletter := hall c.toNat (by omega) hlow
    rwa [Char.ofNat_toNat] at hletter
  · rw [Text.asciiLower, if_neg hupper] at h
    simp only [List.mem_cons, List.not_mem_nil, or_false] at h
    rcases h with rfl | rfl | rfl <;> rfl

/-- A key that ends in `url` does so when it is trimmed. -/
theorem designated_trim {key : String} (h : urlDesignatedKey key = true) :
    urlDesignatedKey (Text.trim key) = true := by
  rw [urlDesignatedKey_iff] at h ⊢
  obtain ⟨start, last, hkey, hlast⟩ := h
  have hblank : ∀ c ∈ last, Text.isWhitespace c = false := by
    intro c hc
    apply not_whitespace_of_letter
    rw [← hlast]
    exact List.mem_map_of_mem hc
  obtain ⟨a, b, c, rfl⟩ : ∃ a b c, last = [a, b, c] :=
    List.length_eq_three.mp (by simpa using congrArg List.length hlast)
  simp only [List.mem_cons, List.not_mem_nil, or_false, forall_eq_or_imp, forall_eq] at hblank
  have hfront : ∃ front, (start ++ [a, b, c]).dropWhile Text.isWhitespace = front ++ [a, b, c] := by
    rw [List.dropWhile_append]
    by_cases hempty : (start.dropWhile Text.isWhitespace).isEmpty = true
    · rw [if_pos hempty, List.dropWhile_cons_of_neg (by simp [hblank.1])]
      exact ⟨[], rfl⟩
    · rw [if_neg hempty]
      exact ⟨_, rfl⟩
  obtain ⟨front, hfront⟩ := hfront
  have hback : (front ++ [a, b, c]).rdropWhile Text.isWhitespace = front ++ [a, b, c] := by
    have hconcat : front ++ [a, b, c] = (front ++ [a, b]) ++ [c] := by simp
    rw [hconcat, List.rdropWhile_concat_neg _ _ _ (by simp [hblank.2.2])]
  refine ⟨front, [a, b, c], ?_, hlast⟩
  rw [Text.trim, String.toList_ofList, hkey, hfront, hback]

/-- The code keeps what neither recognizer finds, the key untrimmed. -/
theorem kept_iff {key text : String} : keptEntry (key, .string text) = true ↔
    urlDesignatedKey key = false ∧ urlLikeValue text = false := by
  rw [keptEntry_string, Bool.and_eq_true, Bool.not_eq_true', Bool.not_eq_true']

/-- The policy keeps what neither finds, the key trimmed. -/
theorem policyKeeps_iff {key text : String} : PolicyKeeps (key, .string text) ↔
    urlDesignatedKey (Text.trim key) = false ∧ urlLikeValue text = false := by
  simp only [PolicyKeeps, Value.string.injEq, forall_eq', omitted_iff, not_or,
    Bool.not_eq_true]

/-- **The policy is kept exactly where keys end plainly.** -/
theorem safeStringMap_policy_iff (value : Value) : FollowsPolicy value ↔ KeysEndPlainly value := by
  have haccepts : (∃ out, safeStringMap value = .ok out) ↔
      ∃ members, value = .object members ∧ SafeMap members := by
    simp only [safeStringMap_eq_ok]
    exact ⟨fun ⟨_, members, hvalue, hsafe, _⟩ => ⟨members, hvalue, hsafe⟩,
      fun ⟨members, hvalue, hsafe⟩ => ⟨_, members, hvalue, hsafe, rfl⟩⟩
  unfold FollowsPolicy KeysEndPlainly
  rw [and_iff_right haccepts]
  constructor
  · intro h members hvalue hsafe key text hmem hdesignated
    obtain ⟨keep, hkeep, hout⟩ :=
      h members _ hvalue (safeStringMap_eq_ok.mpr ⟨members, hvalue, hsafe, rfl⟩)
    by_contra hneither
    simp only [not_or, Bool.not_eq_true] at hneither
    have hkept : (key, Value.string text) ∈ members.filter keptEntry :=
      List.mem_filter.mpr ⟨hmem, kept_iff.mpr hneither⟩
    rw [hout, List.mem_filter, hkeep _ hmem, policyKeeps_iff] at hkept
    rw [hkept.2.1] at hdesignated
    cases hdesignated
  · intro h members out hvalue hout
    obtain ⟨members', hvalue', hsafe, rfl⟩ := safeStringMap_eq_ok.mp hout
    obtain rfl := Value.object.inj (hvalue.symm.trans hvalue')
    refine ⟨keptEntry, fun member hmem => ?_, rfl⟩
    obtain ⟨key, entry⟩ := member
    obtain ⟨text, hentry, -⟩ := hsafe.within _ hmem
    dsimp only at hentry
    subst hentry
    rw [kept_iff, policyKeeps_iff]
    constructor
    · intro ⟨hkey, htext⟩
      refine ⟨Bool.eq_false_iff.mpr fun hdesignated => ?_, htext⟩
      rcases h members hvalue hsafe key text hmem hdesignated with hplain | hlike
      · rw [hkey] at hplain
        cases hplain
      · rw [htext] at hlike
        cases hlike
    · intro ⟨hkey, htext⟩
      refine ⟨Bool.eq_false_iff.mpr fun hplain => ?_, htext⟩
      rw [designated_trim hplain] at hkey
      cases hkey

/-- A key that ends in `url` and a space. -/
def spacedLabels : Value := .object [("dashboard_url ", .string "grafana.example")]

/-- The entry is kept, though its trimmed key ends in `url`. -/
theorem trailing_space_kept : ¬ FollowsPolicy spacedLabels := by
  intro h
  have hsafe : safeStringMap spacedLabels =
      .ok [("dashboard_url ", .string "grafana.example")] := by
    rfl
  obtain ⟨keep, hkeep, hout⟩ := h.2 _ _ rfl hsafe
  have hkept : keep ("dashboard_url ", .string "grafana.example") = true := by
    have hmem : ("dashboard_url ", Value.string "grafana.example") ∈
        [("dashboard_url ", Value.string "grafana.example")].filter keep :=
      hout ▸ List.mem_singleton_self _
    exact (List.mem_filter.mp hmem).2
  have hkeeps := (hkeep _ (List.mem_singleton_self _)).mp hkept "grafana.example" rfl
  have hdesignated : urlDesignatedKey (Text.trim "dashboard_url ") = true := by decide +kernel
  exact hkeeps ((omitted_iff _ _).mpr (.inl hdesignated))

end Grafana
