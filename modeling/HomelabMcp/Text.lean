import Mathlib

/-!
# Text: UTF-8 decoding, character classes, searching and splitting

Strings are `String`; the functions work on their list of characters, so that they evaluate.
Lengths in bytes are `String.utf8ByteSize`.

The decoder is a machine that reads one byte at a time.  `scan` lists what it finds: a character,
or `none` for a longest run of bytes that starts no character.  `decodeLossy` puts the replacement
character in those places, `decode` refuses the text.
-/

namespace Text

/-- What a file, a body or a stream holds. -/
abbrev Bytes := List UInt8

/-- The bytes of an ASCII text. -/
def ascii (text : String) : Bytes := text.toList.map fun c => c.toNat.toUInt8

/-- Where the decoder stands: how many continuation bytes are owed, the bounds of the next one,
and the bits read so far. -/
structure Pending where
  owed : Nat
  low : Nat
  high : Nat
  bits : Nat

/-- What a first byte starts: a character of one byte, a longer one, or nothing. -/
def first (b : Nat) : Option Char × Option Pending :=
  if b < 0x80 then (some (Char.ofNat b), none)
  else if 0xC2 ≤ b ∧ b ≤ 0xDF then (none, some ⟨1, 0x80, 0xBF, b - 0xC0⟩)
  else if b = 0xE0 then (none, some ⟨2, 0xA0, 0xBF, 0⟩)
  else if b = 0xED then (none, some ⟨2, 0x80, 0x9F, 0xD⟩)
  else if 0xE1 ≤ b ∧ b ≤ 0xEF then (none, some ⟨2, 0x80, 0xBF, b - 0xE0⟩)
  else if b = 0xF0 then (none, some ⟨3, 0x90, 0xBF, 0⟩)
  else if b = 0xF4 then (none, some ⟨3, 0x80, 0x8F, 4⟩)
  else if 0xF1 ≤ b ∧ b ≤ 0xF3 then (none, some ⟨3, 0x80, 0xBF, b - 0xF0⟩)
  else (none, none)

/-- The findings of a first byte, and the state after it. -/
def restart (b : Nat) : List (Option Char) × Option Pending :=
  match first b with
  | (some c, _) => ([some c], none)
  | (none, some p) => ([], some p)
  | (none, none) => ([none], none)

/-- One byte.  A byte that does not continue the pending character ends it and is read again as a
first byte. -/
def feed : Option Pending → Nat → List (Option Char) × Option Pending
  | none, b => restart b
  | some p, b =>
      if p.low ≤ b ∧ b ≤ p.high then
        let bits := p.bits * 64 + (b - 0x80)
        if p.owed = 1 then ([some (Char.ofNat bits)], none)
        else ([], some ⟨p.owed - 1, 0x80, 0xBF, bits⟩)
      else (none :: (restart b).1, (restart b).2)

/-- The findings of the whole input; a character cut off by the end is one malformed run. -/
def scan : Option Pending → Bytes → List (Option Char)
  | none, [] => []
  | some _, [] => [none]
  | p, b :: rest => (feed p b.toNat).1 ++ scan (feed p b.toNat).2 rest

/-- Decode, with U+FFFD for every malformed run. -/
def decodeLossy (bytes : Bytes) : String :=
  String.ofList ((scan none bytes).map fun c => c.getD (Char.ofNat 0xFFFD))

/-- Decode, refusing malformed input. -/
def decode (bytes : Bytes) : Option String :=
  ((scan none bytes).mapM id).map String.ofList

example : decodeLossy [0x61, 0xE2, 0x82, 0xAC, 0xE2, 0x82, 0x62, 0xFF] =
    String.ofList ['a', '€', Char.ofNat 0xFFFD, 'b', Char.ofNat 0xFFFD] := by decide

/-- The control characters (general category Cc). -/
def isControl (c : Char) : Bool :=
  c.toNat < 0x20 || (0x7F ≤ c.toNat && c.toNat ≤ 0x9F)

/-- The characters with the property White_Space. -/
def isWhitespace (c : Char) : Bool :=
  (9 ≤ c.toNat && c.toNat ≤ 13) ||
    [0x20, 0x85, 0xA0, 0x1680, 0x2028, 0x2029, 0x202F, 0x205F, 0x3000].contains c.toNat ||
    (0x2000 ≤ c.toNat && c.toNat ≤ 0x200A)

/-- A string without control characters. -/
def noControl (s : String) : Bool := !s.toList.any isControl

/-- The lower-case form of an ASCII letter; every other character stays. -/
def asciiLower (c : Char) : Char :=
  if 'A' ≤ c ∧ c ≤ 'Z' then Char.ofNat (c.toNat + 32) else c

/-- `str::to_ascii_lowercase`. -/
def toAsciiLowercase (s : String) : String := String.ofList (s.toList.map asciiLower)

/-- Some place of the list starts with the pattern. -/
def hasInfix (pattern : List Char) : List Char → Bool
  | [] => pattern.isEmpty
  | c :: cs => pattern.isPrefixOf (c :: cs) || hasInfix pattern cs

/-- `str::contains`. -/
def contains (s pattern : String) : Bool := hasInfix pattern.toList s.toList

/-- What stands before and after the first occurrence of the pattern. -/
def splitOnce (pattern : List Char) : List Char → Option (List Char × List Char)
  | [] => if pattern.isEmpty then some ([], []) else none
  | c :: cs =>
      if pattern.isPrefixOf (c :: cs) then some ([], (c :: cs).drop pattern.length)
      else (splitOnce pattern cs).map fun (before, after) => (c :: before, after)

/-- A test of the characters of a text that is written out. -/
theorem forall_mem_ofList {p : Char → Bool} {cs : List Char} (h : cs.all p = true) :
    ∀ c ∈ (String.ofList cs).toList, p c = true := by
  rw [String.toList_ofList]
  exact List.all_eq_true.mp h

/-- The list without the pattern it starts with. -/
def stripPrefix (pattern cs : List Char) : Option (List Char) :=
  if pattern.isPrefixOf cs then some (cs.drop pattern.length) else none

/-- A text without its first word is what stands after that word. -/
theorem stripPrefix_iff {word text rest : List Char} :
    stripPrefix word text = some rest ↔ text = word ++ rest := by
  unfold stripPrefix
  by_cases hstart : word.isPrefixOf text = true
  · rw [if_pos hstart]
    obtain ⟨after, rfl⟩ := List.isPrefixOf_iff_prefix.mp hstart
    rw [List.drop_left, Option.some.injEq, List.append_cancel_left_eq]
  · rw [if_neg hstart]
    constructor
    · exact nofun
    · rintro rfl
      exact absurd (List.isPrefixOf_iff_prefix.mpr (List.prefix_append word rest)) hstart

/-- The pieces between the characters that satisfy `sep`; one piece more than separators. -/
def pieces (sep : Char → Bool) : List Char → List (List Char)
  | [] => [[]]
  | c :: cs =>
      if sep c then [] :: pieces sep cs
      else match pieces sep cs with
        | piece :: rest => (c :: piece) :: rest
        | [] => [[c]]

/-- There is always a first piece, if only an empty one. -/
theorem pieces_ne_nil (sep : Char → Bool) (cs : List Char) : pieces sep cs ≠ [] := by
  cases cs with
  | nil => simp [pieces]
  | cons c cs =>
      unfold pieces
      split
      · simp
      · split <;> simp

/-- A separator ends a piece and starts the next. -/
theorem pieces_append {sep : Char → Bool} {c : Char} (hc : sep c) (a b : List Char) :
    pieces sep (a ++ c :: b) = pieces sep a ++ pieces sep b := by
  induction a with
  | nil => simp [pieces, hc]
  | cons d a ih =>
      simp only [List.cons_append, pieces, ih]
      split
      · rfl
      · cases h : pieces sep a with
        | nil => exact absurd h (pieces_ne_nil sep a)
        | cons piece rest => rfl

/-- A text without a separator is its own only piece. -/
theorem pieces_single {sep : Char → Bool} {a : List Char} (h : ∀ c ∈ a, sep c = false) :
    pieces sep a = [a] := by
  induction a with
  | nil => rfl
  | cons c a ih =>
      simp [pieces, h c, ih fun d hd => h d (List.mem_cons_of_mem c hd)]

/-- A character of the text separates, or stands in a piece. -/
theorem mem_pieces (sep : Char → Bool) {cs : List Char} {c : Char} (hc : c ∈ cs) :
    sep c = true ∨ ∃ piece ∈ pieces sep cs, c ∈ piece := by
  induction cs with
  | nil => exact absurd hc List.not_mem_nil
  | cons d cs ih =>
      unfold pieces
      by_cases hd : sep d = true
      · rw [if_pos hd]
        rcases List.mem_cons.mp hc with rfl | hrest
        · exact Or.inl hd
        · rcases ih hrest with hsep | ⟨piece, hpiece, hmem⟩
          · exact Or.inl hsep
          · exact Or.inr ⟨piece, List.mem_cons_of_mem _ hpiece, hmem⟩
      · rw [if_neg hd]
        cases hpieces : pieces sep cs with
        | nil => exact absurd hpieces (pieces_ne_nil sep cs)
        | cons first rest =>
            rcases List.mem_cons.mp hc with rfl | hrest
            · exact Or.inr ⟨c :: first, by simp, by simp⟩
            · rw [hpieces] at ih
              rcases ih hrest with hsep | ⟨piece, hpiece, hmem⟩
              · exact Or.inl hsep
              · right
                rcases List.mem_cons.mp hpiece with rfl | hlater
                · exact ⟨d :: piece, by simp, List.mem_cons_of_mem _ hmem⟩
                · exact ⟨piece, List.mem_cons_of_mem _ hlater, hmem⟩

/-- A piece that ends the text after a separator is empty. -/
theorem getLast?_ne_of_pieces {sep : Char → Bool} {cs : List Char}
    (h : [] ∉ pieces sep cs) {c : Char} (hc : sep c = true) : cs.getLast? ≠ some c := by
  intro hlast
  obtain ⟨init, rfl⟩ := List.getLast?_eq_some_iff.mp hlast
  apply h
  rw [pieces_append hc]
  simp [pieces]

/-- The pieces with their separators between them are the text. -/
theorem intercalate_pieces (sep : Char) (cs : List Char) :
    [sep].intercalate (pieces (· == sep) cs) = cs := by
  induction cs with
  | nil => rfl
  | cons c cs ih =>
      unfold pieces
      cases hpieces : pieces (· == sep) cs with
      | nil => exact absurd hpieces (pieces_ne_nil _ cs)
      | cons piece rest =>
          rw [hpieces] at ih
          by_cases hc : c = sep
          · subst hc
            rw [if_pos (beq_self_eq_true c), List.intercalate_cons_cons, ih]
            rfl
          · rw [if_neg (by simpa using hc)]
            cases rest with
            | nil => simpa using ih
            | cons next rest =>
                rw [List.intercalate_cons_cons] at ih ⊢
                rw [← ih]
                rfl

/-- The first of a character splits a text in one way. -/
theorem append_cons_inj {c : Char} {a a' b b' : List Char} (h : c ∉ a) (h' : c ∉ a')
    (heq : a ++ c :: b = a' ++ c :: b') : a = a' ∧ b = b' := by
  induction a generalizing a' with
  | nil =>
      cases a' with
      | nil => exact ⟨rfl, (List.cons.inj heq).2⟩
      | cons d a' => exact absurd ((List.cons.inj heq).1 ▸ List.mem_cons_self) h'
  | cons d a ih =>
      cases a' with
      | nil => exact absurd ((List.cons.inj heq).1 ▸ List.mem_cons_self) h
      | cons d' a' =>
          obtain ⟨rfl, hrest⟩ := List.cons.inj heq
          obtain ⟨rfl, rfl⟩ := ih (fun hmem => h (List.mem_cons_of_mem d hmem))
            (fun hmem => h' (List.mem_cons_of_mem d hmem)) hrest
          exact ⟨rfl, rfl⟩

/-- The last of a character splits a text in one way. -/
theorem append_cons_inj_last {c : Char} {a a' b b' : List Char} (h : c ∉ b) (h' : c ∉ b')
    (heq : a ++ c :: b = a' ++ c :: b') : a = a' ∧ b = b' := by
  have hreverse := congrArg List.reverse heq
  simp only [List.reverse_append, List.reverse_cons, List.append_assoc, List.singleton_append]
    at hreverse
  obtain ⟨hb, ha⟩ := append_cons_inj (mt List.mem_reverse.mp h) (mt List.mem_reverse.mp h')
    hreverse
  exact ⟨List.reverse_inj.mp ha, List.reverse_inj.mp hb⟩

/-- A character that does not separate goes to the last piece. -/
theorem pieces_concat {sep : Char → Bool} {c : Char} (hc : sep c = false) {a last : List Char}
    {init : List (List Char)} (h : pieces sep a = init ++ [last]) :
    pieces sep (a ++ [c]) = init ++ [last ++ [c]] := by
  induction a generalizing init last with
  | nil =>
      obtain ⟨rfl, rfl⟩ : init = [] ∧ last = [] := by
        cases init <;> simp_all [pieces]
      simp [pieces, hc]
  | cons d a ih =>
      simp only [List.cons_append, pieces] at h ⊢
      split at h
      · next hd =>
          cases init with
          | nil => exact absurd (List.cons.inj h).2 (pieces_ne_nil sep a)
          | cons first init =>
              obtain ⟨rfl, hrest⟩ := List.cons.inj h
              simp [hd, ih hrest]
      · next hd =>
          split at h
          · next piece rest hpieces =>
              cases init with
              | nil =>
                  obtain ⟨rfl, rfl⟩ := List.cons.inj h
                  simp [hd, ih (show pieces sep a = [] ++ [piece] from hpieces)]
              | cons first init =>
                  obtain ⟨rfl, rfl⟩ := List.cons.inj h
                  simp [hd, ih (show pieces sep a = (piece :: init) ++ [last] from hpieces)]
          · next hnil => exact absurd hnil (pieces_ne_nil sep a)

/-- There is always a last piece. -/
theorem exists_last_piece (sep : Char → Bool) (a : List Char) :
    ∃ init last, pieces sep a = init ++ [last] :=
  ⟨_, _, (List.dropLast_append_getLast (pieces_ne_nil sep a)).symm⟩

/-- The last piece ends the text. -/
theorem suffix_of_pieces {sep : Char → Bool} {a last : List Char} {init : List (List Char)}
    (h : pieces sep a = init ++ [last]) : last <:+ a := by
  induction a using List.reverseRecOn generalizing init last with
  | nil =>
      obtain ⟨rfl, rfl⟩ : init = [] ∧ last = [] := by
        cases init <;> simp_all [pieces]
      exact List.suffix_refl []
  | append_singleton a c ih =>
      cases hc : sep c with
      | true =>
          rw [pieces_append hc] at h
          obtain ⟨-, hlast⟩ := List.append_inj' h rfl
          obtain rfl : [] = last := List.singleton_injective hlast
          exact List.nil_suffix
      | false =>
          obtain ⟨init', last', h'⟩ := exists_last_piece sep a
          rw [pieces_concat hc h'] at h
          obtain ⟨-, hlast⟩ := List.append_inj' h rfl
          obtain rfl := List.singleton_injective hlast
          obtain ⟨x, hx⟩ := ih h'
          exact ⟨x, by rw [← hx, List.append_assoc]⟩

/-- A start of a text has its pieces, the last of them being a start too. -/
theorem pieces_start (sep : Char → Bool) (a b : List Char) :
    ∃ init last more rest, pieces sep a = init ++ [last] ∧
      pieces sep (a ++ b) = init ++ (last ++ more) :: rest := by
  induction a with
  | nil =>
      cases hb : pieces sep b with
      | nil => exact absurd hb (pieces_ne_nil sep b)
      | cons more rest => exact ⟨[], [], more, rest, rfl, hb⟩
  | cons c a ih =>
      obtain ⟨init, last, more, rest, hstart, hall⟩ := ih
      by_cases hc : sep c = true
      · refine ⟨[] :: init, last, more, rest, ?_, ?_⟩
        · simp [pieces, hc, hstart]
        · simp [pieces, hc, hall]
      · cases init with
        | nil =>
            refine ⟨[], c :: last, more, rest, ?_, ?_⟩
            · simp [pieces, hc, hstart]
            · simp [pieces, hc, hall]
        | cons first init =>
            refine ⟨(c :: first) :: init, last, more, rest, ?_, ?_⟩
            · simp [pieces, hc, hstart]
            · simp [pieces, hc, hall]

/-- What has no separator goes to the last piece. -/
theorem pieces_end {sep : Char → Bool} {a b last : List Char} {init : List (List Char)}
    (h : pieces sep a = init ++ [last]) (hb : ∀ c ∈ b, sep c = false) :
    pieces sep (a ++ b) = init ++ [last ++ b] := by
  induction b generalizing a last with
  | nil => simpa using h
  | cons c b ih =>
      have hc := pieces_concat (hb c List.mem_cons_self) h
      have hrest := ih hc fun d hd => hb d (List.mem_cons_of_mem c hd)
      simpa using hrest

/-- A text that does not end with a separator ends with a piece that has a character. -/
theorem last_piece_ne_nil {sep : Char → Bool} {a last : List Char} {init : List (List Char)}
    (h : pieces sep a = init ++ [last]) (hne : a ≠ [])
    (hend : ∀ c, a.getLast? = some c → sep c = false) : last ≠ [] := by
  obtain ⟨front, c, rfl⟩ := List.eq_nil_or_concat a |>.resolve_left hne
  obtain ⟨init', last', hfront⟩ := exists_last_piece sep front
  have hc : sep c = false := hend c (by simp)
  rw [List.concat_eq_append, pieces_concat hc hfront] at h
  obtain ⟨-, hlast⟩ := List.append_inj' h rfl
  obtain rfl := List.singleton_injective hlast
  simp

/-- The pieces of a string between the occurrences of a character. -/
def split (s : String) (sep : Char) : List String :=
  (pieces (· == sep) s.toList).map String.ofList

/-- The characters without the white space at both ends. -/
def trim (s : String) : String :=
  String.ofList ((s.toList.dropWhile isWhitespace).rdropWhile isWhitespace)

/-- `str::trim_end`. -/
def trimEnd (s : String) : String :=
  String.ofList (s.toList.rdropWhile isWhitespace)

/-- Replace the occurrences of a pattern, left to right; `fuel` bounds the length of the text. -/
def replaceFrom (pattern replacement : List Char) : Nat → List Char → List Char
  | 0, cs => cs
  | _ + 1, [] => []
  | fuel + 1, c :: cs =>
      match stripPrefix pattern (c :: cs) with
      | some rest => replacement ++ replaceFrom pattern replacement fuel rest
      | none => c :: replaceFrom pattern replacement fuel cs

/-- `str::replace`; the empty pattern occurs around every character. -/
def replace (s pattern replacement : String) : String :=
  String.ofList (if pattern.isEmpty then
      replacement.toList ++ s.toList.flatMap fun c => c :: replacement.toList
    else replaceFrom pattern.toList replacement.toList s.toList.length s.toList)

/-- The longest start of a text that fits a number of bytes of UTF-8. -/
def fit : Nat → List Char → List Char
  | _, [] => []
  | bytes, c :: cs => if c.utf8Size ≤ bytes then c :: fit (bytes - c.utf8Size) cs else []

/-- A string is as long as its characters are together. -/
theorem utf8ByteSize_ofList (cs : List Char) :
    (String.ofList cs).utf8ByteSize = (cs.map Char.utf8Size).sum := by
  induction cs with
  | nil => rfl
  | cons c cs ih =>
      rw [String.ofList_cons, String.utf8ByteSize_append, String.utf8ByteSize_singleton, ih,
        List.map_cons, List.sum_cons]

/-- Characters of one byte each are counted by the length. -/
theorem utf8ByteSize_of_ascii {cs : List Char} (h : ∀ c ∈ cs, c.utf8Size = 1) :
    (String.ofList cs).utf8ByteSize = cs.length := by
  rw [utf8ByteSize_ofList]
  induction cs with
  | nil => rfl
  | cons c cs ih =>
      have hrest := ih fun d hd => h d (List.mem_cons_of_mem c hd)
      have hc := h c List.mem_cons_self
      rw [List.map_cons, List.sum_cons, hc, hrest, List.length_cons, Nat.add_comm]

/-- The first character adds its own length. -/
theorem utf8ByteSize_cons (c : Char) (cs : List Char) :
    (String.ofList (c :: cs)).utf8ByteSize = c.utf8Size + (String.ofList cs).utf8ByteSize := by
  rw [String.ofList_cons, String.utf8ByteSize_append, String.utf8ByteSize_singleton]

/-- A text has no more characters than bytes. -/
theorem length_le_utf8ByteSize (s : String) : s.toList.length ≤ s.utf8ByteSize := by
  have hsum : ∀ cs : List Char, cs.length ≤ (cs.map Char.utf8Size).sum := by
    intro cs
    induction cs with
    | nil => exact Nat.le_refl 0
    | cons c cs ih =>
        have hpos := Char.utf8Size_pos c
        rw [List.length_cons, List.map_cons, List.sum_cons]
        omega
  have hsize := hsum s.toList
  rwa [← utf8ByteSize_ofList, String.ofList_toList] at hsize

/-- What fits is a start of the text. -/
theorem fit_isPrefix (bytes : Nat) (cs : List Char) : fit bytes cs <+: cs := by
  induction cs generalizing bytes with
  | nil => exact List.prefix_rfl
  | cons c cs ih =>
      unfold fit
      split_ifs with hfits
      · exact List.cons_prefix_cons.mpr ⟨rfl, ih _⟩
      · exact List.nil_prefix

/-- What fits has no more bytes than it may have. -/
theorem fit_size (bytes : Nat) (cs : List Char) :
    (String.ofList (fit bytes cs)).utf8ByteSize ≤ bytes := by
  induction cs generalizing bytes with
  | nil => exact Nat.zero_le bytes
  | cons c cs ih =>
      unfold fit
      split_ifs with hfits
      · have hrest := ih (bytes - c.utf8Size)
        rw [String.ofList_cons, String.utf8ByteSize_append, String.utf8ByteSize_singleton]
        omega
      · exact Nat.zero_le bytes

/-- A text that fits is not cut. -/
theorem fit_eq_self {bytes : Nat} {s : String} (h : s.utf8ByteSize ≤ bytes) :
    fit bytes s.toList = s.toList := by
  have hall : ∀ (cs : List Char) (bytes : Nat), (cs.map Char.utf8Size).sum ≤ bytes →
      fit bytes cs = cs := by
    intro cs
    induction cs with
    | nil => exact fun _ _ => rfl
    | cons c cs ih =>
        intro bytes hsize
        rw [List.map_cons, List.sum_cons] at hsize
        rw [fit, if_pos (by omega), ih (bytes - c.utf8Size) (by omega)]
  refine hall s.toList bytes ?_
  rwa [← utf8ByteSize_ofList, String.ofList_toList]

/-- `split_at_checked`: the text before and after so many bytes, if no character is cut. -/
def splitAtChecked : Nat → List Char → Option (List Char × List Char)
  | 0, cs => some ([], cs)
  | _ + 1, [] => none
  | bytes + 1, c :: cs =>
      if c.utf8Size ≤ bytes + 1 then
        (splitAtChecked (bytes + 1 - c.utf8Size) cs).map fun (before, after) => (c :: before, after)
      else none

/-- A split after so many bytes is a split where that many bytes stand before. -/
theorem splitAtChecked_eq_some {bytes : Nat} {cs before after : List Char} :
    splitAtChecked bytes cs = some (before, after) ↔
      cs = before ++ after ∧ (String.ofList before).utf8ByteSize = bytes := by
  induction cs generalizing bytes before with
  | nil =>
      cases bytes with
      | zero =>
          constructor
          · intro h
            obtain ⟨rfl, rfl⟩ := Prod.mk.inj (Option.some.inj h)
            exact ⟨rfl, rfl⟩
          · intro h
            obtain ⟨rfl, rfl⟩ := List.append_eq_nil_iff.mp h.1.symm
            rfl
      | succ bytes =>
          constructor
          · intro h
            cases h
          · intro h
            obtain ⟨rfl, rfl⟩ := List.append_eq_nil_iff.mp h.1.symm
            exact absurd h.2 (by simp)
  | cons c cs ih =>
      have hpos := Char.utf8Size_pos c
      cases bytes with
      | zero =>
          constructor
          · intro h
            obtain ⟨rfl, rfl⟩ := Prod.mk.inj (Option.some.inj h)
            exact ⟨rfl, rfl⟩
          · intro ⟨hcs, hsize⟩
            cases before with
            | nil => rw [splitAtChecked, hcs, List.nil_append]
            | cons d before =>
                have hd := Char.utf8Size_pos d
                rw [utf8ByteSize_cons] at hsize
                omega
      | succ bytes =>
          unfold splitAtChecked
          constructor
          · intro h
            split_ifs at h with hfits
            obtain ⟨⟨before', after'⟩, hrest, heq⟩ := Option.map_eq_some_iff.mp h
            obtain ⟨rfl, rfl⟩ := Prod.mk.inj heq
            obtain ⟨rfl, hsize⟩ := ih.mp hrest
            refine ⟨rfl, ?_⟩
            rw [utf8ByteSize_cons]
            omega
          · intro ⟨hcs, hsize⟩
            cases before with
            | nil => exact absurd hsize (by simp)
            | cons d before =>
                obtain ⟨rfl, hrestEq⟩ := List.cons.inj hcs
                rw [utf8ByteSize_cons] at hsize
                have hrest : splitAtChecked (bytes + 1 - c.utf8Size) cs = some (before, after) :=
                  ih.mpr ⟨hrestEq, by omega⟩
                rw [if_pos (by omega), hrest]
                rfl

/-- `str::lines().count()`: the last line needs no line end. -/
def lineCount (s : String) : Nat :=
  let lines := pieces (· == '\n') s.toList
  if lines.getLast? = some [] then lines.length - 1 else lines.length

example : replace "aXXaX" "X" "--" = "a----a--" := by decide

end Text
