import HomelabMcp.RedactedPlaces

/-!
# Which places a redaction strikes

A character of a text is struck when, at the turn of some value, the scan for that value meets an
occurrence with the character in it.  Such an occurrence may begin or end in a marker.

A character that was not struck stands between what has become of the text before it and what has
become of the text behind it, and neither of the two depends on the other
(`Redacts.splits`).  Whether it is struck next can therefore be told from the redactions of these
two parts of the text (`StruckAt`), whatever the values are.

* `Redacts.kept_iff`: a character is left exactly when no value strikes it.
* `Met.struck`: all characters of an occurrence that is met are struck.
* `sheltered_of_met`: a condition on the occurrences alone under which all secrets are sheltered.
* `exists_shown_iff`: what is shown of a cut text discloses nothing of the secrets of the whole text
  exactly when each of their characters in it is struck or pushed out by the markers before it.
-/

namespace Redaction

variable {marker value : List Char} {n : Nat} {pieces out a b : List Piece} {p : Piece} {i : Nat}

/-- Which characters of a text are in an occurrence that a scan from the left meets, when so many
are still in the one that was met last. -/
def taken (value : List Char) : Nat → List Char → List Bool
  | _, [] => []
  | skip + 1, _ :: cs => true :: taken value skip cs
  | 0, c :: cs =>
      if value.isPrefixOf (c :: cs) then true :: taken value (value.length - 1) cs
      else false :: taken value 0 cs

/-- What is passed over in a match is taken. -/
theorem taken_skip (value word rest : List Char) :
    taken value word.length (word ++ rest) =
      List.replicate word.length true ++ taken value 0 rest := by
  induction word with
  | nil => rfl
  | cons c word ih =>
      rw [List.length_cons, List.cons_append, taken, ih, List.replicate_succ, List.cons_append]

/-- An occurrence that is met is taken as a whole. -/
theorem taken_hit (hvalue : value ≠ []) (rest : List Char) :
    taken value 0 (value ++ rest) = List.replicate value.length true ++ taken value 0 rest := by
  obtain ⟨c, cs, hcons⟩ := List.exists_cons_of_ne_nil hvalue
  have hstart : value.isPrefixOf (value ++ rest) = true :=
    List.isPrefixOf_iff_prefix.mpr (List.prefix_append _ _)
  have hskip := taken_skip value cs rest
  rw [hcons, List.cons_append] at hstart ⊢
  rw [taken, if_pos hstart, List.length_cons, Nat.add_sub_cancel, ← hcons, hskip,
    List.replicate_succ, List.cons_append]

/-- Where the value does not begin, the place is not taken. -/
theorem taken_miss {c : Char} {cs : List Char} (h : ¬ value <+: c :: cs) :
    taken value 0 (c :: cs) = false :: taken value 0 cs := by
  rw [taken, if_neg fun hstart => h (List.isPrefixOf_iff_prefix.mp hstart)]

/-- The place of a piece is not among those of the pieces behind it. -/
theorem not_mem_origins_of_nodup (hplaces : (origins (p :: pieces)).Nodup)
    (hi : p.origin = some i) : i ∉ origins pieces := by
  rw [origins, List.filterMap_cons_some hi, List.nodup_cons] at hplaces
  exact hplaces.1

/-- A place in the middle is among the places. -/
theorem mem_origins_middle (hi : p.origin = some i) : i ∈ origins (a ++ p :: b) :=
  mem_origins.mpr ⟨p, List.mem_append_right a List.mem_cons_self, hi⟩

namespace Replaces

/-- A replacement takes a piece exactly when the scan meets an occurrence with the piece in it. -/
theorem gone_iff (h : Replaces marker value n pieces out) (hvalue : value ≠ [])
    (hplaces : (origins pieces).Nodup) (hsplit : pieces = a ++ p :: b) (hi : p.origin = some i) :
    i ∉ origins out ↔ (taken value 0 (text pieces))[a.length]? = some true := by
  induction h generalizing a with
  | nil => exact absurd hsplit.symm (List.append_ne_nil_of_right_ne_nil a (List.cons_ne_nil p b))
  | @keep n q pieces out hmiss h ih =>
      have hrest : (origins pieces).Nodup :=
        hplaces.sublist ((List.sublist_cons_self q pieces).filterMap _)
      rw [text_cons, taken_miss (by rwa [text_cons] at hmiss)]
      cases a with
      | nil =>
          obtain ⟨rfl, rfl⟩ := List.cons.inj hsplit
          refine iff_of_false (fun hgone => hgone (mem_origins_cons.mpr (.inl hi))) ?_
          simp
      | cons r a =>
          obtain ⟨rfl, hpieces⟩ := List.cons.inj hsplit
          have hne : q.origin ≠ some i := by
            intro horigin
            exact not_mem_origins_of_nodup hplaces horigin (hpieces ▸ mem_origins_middle hi)
          rw [mem_origins_cons, or_iff_right hne, ih hrest hpieces, List.length_cons,
            List.getElem?_cons_succ]
  | @hit n found pieces out hfound h ih =>
      have hlength : found.length = value.length := by rw [← hfound, text, List.length_map]
      have hdisjoint := hplaces
      rw [origins_append, List.nodup_append] at hdisjoint
      rw [text_append, hfound, taken_hit hvalue, origins_append, origins_inserted, List.nil_append]
      rcases List.append_eq_append_iff.mp hsplit with ⟨c, rfl, hpieces⟩ | ⟨c, hc, hrest⟩
      · -- The occurrence lies before the piece.
        rw [ih hdisjoint.2.1 hpieces, List.length_append,
          List.getElem?_append_right (by rw [List.length_replicate]; omega), List.length_replicate,
          show found.length + c.length - value.length = c.length by omega]
      · cases c with
        | nil =>
            rw [List.append_nil] at hc
            subst hc
            have hpieces : pieces = [] ++ p :: b := hrest.symm
            rw [ih hdisjoint.2.1 hpieces,
              List.getElem?_append_right (by rw [List.length_replicate]; omega),
              List.length_replicate, hlength, Nat.sub_self, List.length_nil]
        | cons q c =>
            -- The piece is in the occurrence.
            obtain ⟨rfl, -⟩ := List.cons.inj hrest
            have hfoundPlace : i ∈ origins found := hc ▸ mem_origins_middle hi
            have hlt : a.length < value.length := by
              rw [← hlength, hc, List.length_append, List.length_cons]
              omega
            refine iff_of_true (fun hout => ?_) ?_
            · exact hdisjoint.2.2 i hfoundPlace i (h.origins_sublist.subset hout) rfl
            · rw [List.getElem?_append_left (by rwa [List.length_replicate])]
              exact List.getElem?_replicate_of_lt hlt

/-- A piece that stays divides the replacement: what becomes of the pieces before it and of those
behind it does not depend on each other. -/
theorem splits (h : Replaces marker value n pieces out) (hplaces : (origins pieces).Nodup)
    (hsplit : pieces = a ++ p :: b) (hi : p.origin = some i) (hkept : i ∈ origins out) :
    ∃ k m first last, Replaces marker value k a first ∧ Replaces marker value m b last ∧
      out = first ++ p :: last := by
  induction h generalizing a with
  | nil => exact absurd hsplit.symm (List.append_ne_nil_of_right_ne_nil a (List.cons_ne_nil p b))
  | @keep n q pieces out hmiss h ih =>
      have hrest : (origins pieces).Nodup :=
        hplaces.sublist ((List.sublist_cons_self q pieces).filterMap _)
      cases a with
      | nil =>
          obtain ⟨rfl, rfl⟩ := List.cons.inj hsplit
          exact ⟨0, n, [], out, .nil, h, rfl⟩
      | cons r a =>
          obtain ⟨rfl, hpieces⟩ := List.cons.inj hsplit
          have hne : q.origin ≠ some i := by
            intro horigin
            exact not_mem_origins_of_nodup hplaces horigin (hpieces ▸ mem_origins_middle hi)
          obtain ⟨k, m, first, last, hfirst, hlast, rfl⟩ :=
            ih hrest hpieces ((mem_origins_cons.mp hkept).resolve_left hne)
          refine ⟨k, m, q :: first, last, .keep (fun hstart => hmiss ?_) hfirst, hlast, rfl⟩
          have hpart : text (q :: a) <+: text (q :: pieces) := by
            rw [hpieces]
            exact (List.prefix_append (q :: a) (p :: b)).map Piece.char
          exact hstart.trans hpart
  | @hit n found pieces out hfound h ih =>
      have hdisjoint := hplaces
      rw [origins_append, List.nodup_append] at hdisjoint
      rw [origins_append, origins_inserted, List.nil_append] at hkept
      rcases List.append_eq_append_iff.mp hsplit with ⟨c, rfl, hpieces⟩ | ⟨c, hc, hrest⟩
      · obtain ⟨k, m, first, last, hfirst, hlast, rfl⟩ := ih hdisjoint.2.1 hpieces hkept
        exact ⟨k + 1, m, inserted marker ++ first, last, .hit hfound hfirst, hlast,
          (List.append_assoc _ _ _).symm⟩
      · cases c with
        | nil =>
            rw [List.append_nil] at hc
            subst hc
            obtain ⟨k, m, first, last, hfirst, hlast, rfl⟩ :=
              ih (a := []) hdisjoint.2.1 hrest.symm hkept
            refine ⟨k + 1, m, inserted marker ++ first, last, ?_, hlast,
              (List.append_assoc _ _ _).symm⟩
            have hhit := Replaces.hit hfound hfirst
            rwa [List.append_nil] at hhit
        | cons q c =>
            obtain ⟨rfl, -⟩ := List.cons.inj hrest
            have hfoundPlace : i ∈ origins found := hc ▸ mem_origins_middle hi
            exact absurd rfl
              (hdisjoint.2.2 i hfoundPlace i (h.origins_sublist.subset hkept))

end Replaces

/-- Spreading the marker splits where the pieces do. -/
theorem spread_splits (marker : List Char) (a b : List Piece) (p : Piece) :
    spread marker (a ++ p :: b) = spread marker a ++ p :: spread marker b := by
  simp only [spread, List.flatMap_append, List.flatMap_cons, List.append_assoc, List.cons_append]

namespace Redacts

variable {values : List String}

/-- Redacting keeps the order of the places. -/
theorem origins_sublist (h : Redacts marker values n pieces out) :
    (origins out).Sublist (origins pieces) := by
  induction h with
  | nil => exact List.Sublist.refl _
  | value hvalue h hrest ih => exact ih.trans h.origins_sublist
  | empty hrest ih => rwa [origins_spread] at ih

/-- The values of two lists, one list after the other. -/
theorem append {before : List String} {mid : List Piece} {m : Nat}
    (h : Redacts marker before m pieces mid) (hrest : Redacts marker values n mid out) :
    Redacts marker (before ++ values) (m + n) pieces out := by
  induction h with
  | nil => rwa [Nat.zero_add]
  | value hvalue h hmore ih =>
      rw [Nat.add_assoc]
      exact .value hvalue h (ih hrest)
  | empty hmore ih =>
      rw [Nat.add_assoc]
      exact .empty (ih hrest)

/-- A piece that stays divides the redaction. -/
theorem splits (h : Redacts marker values n pieces out) (hplaces : (origins pieces).Nodup)
    (hsplit : pieces = a ++ p :: b) (hi : p.origin = some i) (hkept : i ∈ origins out) :
    ∃ k m first last, Redacts marker values k a first ∧ Redacts marker values m b last ∧
      out = first ++ p :: last := by
  induction h generalizing a b with
  | nil => exact ⟨0, 0, a, b, .nil, .nil, hsplit⟩
  | value hvalue h hrest ih =>
      obtain ⟨k, m, first, last, hfirst, hlast, hmid⟩ :=
        h.splits hplaces hsplit hi (hrest.origins_sublist.subset hkept)
      obtain ⟨k', m', first', last', hfirst', hlast', rfl⟩ :=
        ih (hplaces.sublist h.origins_sublist) hmid hkept
      exact ⟨k + k', m + m', first', last', .value hvalue hfirst hfirst',
        .value hvalue hlast hlast', rfl⟩
  | empty hrest ih =>
      obtain ⟨k, m, first, last, hfirst, hlast, rfl⟩ :=
        ih (by rwa [origins_spread]) (hsplit ▸ spread_splits marker a b p) hkept
      exact ⟨_, _, first, last, .empty hfirst, .empty hlast, rfl⟩

end Redacts

/-- A text in which the values have been replaced. -/
def redactWith (marker : String) (values : List String) (cs : List Char) : List Char :=
  (values.foldl (fun s value => Text.replace s value marker) (String.ofList cs)).toList

/-- Once the values before it have been replaced before and behind the character, the scan for the
value meets an occurrence with the character in it. -/
def StruckAt (marker : String) (before : List String) (value : String) (cs : List Char) (i : Nat) :
    Prop :=
  value ≠ "" ∧
    (taken value.toList 0 (redactWith marker before (cs.take i) ++ (cs.drop i).take 1 ++
      redactWith marker before (cs.drop (i + 1))))[(redactWith marker before (cs.take i)).length]? =
        some true

/-- One of the values strikes the character when its turn comes. -/
def Struck (marker : String) (values : List String) (cs : List Char) (i : Nat) : Prop :=
  ∃ k : Fin values.length, StruckAt marker (values.take k) (values.get k) cs i

/-- That a value strikes a place is decidable. -/
instance (marker : String) (before : List String) (value : String) (cs : List Char) (i : Nat) :
    Decidable (StruckAt marker before value cs i) :=
  inferInstanceAs (Decidable (_ ∧ _))

/-- So is that some value does. -/
instance (marker : String) (values : List String) (cs : List Char) (i : Nat) :
    Decidable (Struck marker values cs i) :=
  inferInstanceAs (Decidable (∃ k : Fin values.length,
    StruckAt marker (values.take k) (values.get k) cs i))

example : Struck "*" ["pass]wo", "word"] "my word".toList 4 := by decide

example : ¬ Struck "*" ["token"] "a tok".toList 4 := by decide

/-- The text of a redaction is the redacted text. -/
theorem text_redacts {marker : String} {values : List String} {cs : List Char} {place : Nat}
    (h : Redacts marker.toList values n (copyFrom place cs) out) :
    text out = redactWith marker values cs := by
  have heq := congrArg String.toList h.text_eq
  rwa [String.toList_ofList, text_copyFrom] at heq

/-- A text around a place. -/
theorem copyFrom_split {cs : List Char} (hi : i < cs.length) :
    copyFrom 0 cs = copyFrom 0 (cs.take i) ++
      ⟨cs.get ⟨i, hi⟩, some i⟩ :: copyFrom (i + 1) (cs.drop (i + 1)) := by
  have hlength : (cs.take i).length = i := by
    rw [List.length_take]
    omega
  conv_lhs => rw [← List.take_append_drop i cs, List.drop_eq_getElem_cons hi]
  rw [copyFrom_append, hlength, Nat.zero_add]
  rfl

section Places

variable {marker : String} {before values : List String} {value : String} {cs : List Char}

/-- A character that is left so far stands between the redactions of the text before it and of the
text behind it. -/
theorem Redacts.around (h : Redacts marker.toList values n (copyFrom 0 cs) out)
    (hi : i < cs.length) (hkept : i ∈ origins out) : ∃ first last,
      out = first ++ ⟨cs.get ⟨i, hi⟩, some i⟩ :: last ∧
        text first = redactWith marker values (cs.take i) ∧
        text last = redactWith marker values (cs.drop (i + 1)) := by
  obtain ⟨k, m, first, last, hfirst, hlast, rfl⟩ :=
    h.splits (nodup_origins_copyFrom 0 cs) (copyFrom_split hi) rfl hkept
  exact ⟨first, last, rfl, text_redacts hfirst, text_redacts hlast⟩

/-- The turn of a value takes a character that is left so far exactly when it strikes it. -/
theorem Redacts.turn_iff (h : Redacts marker.toList before n (copyFrom 0 cs) pieces)
    (hi : i < cs.length) (hkept : i ∈ origins pieces) (hvalue : value ≠ "") {m : Nat}
    (hturn : Replaces marker.toList value.toList m pieces out) :
    i ∉ origins out ↔ StruckAt marker before value cs i := by
  obtain ⟨first, last, rfl, hfirst, hlast⟩ := h.around hi hkept
  have hplaces := (nodup_origins_copyFrom 0 cs).sublist h.origins_sublist
  have hone : (cs.drop i).take 1 = [cs.get ⟨i, hi⟩] := by
    rw [List.drop_eq_getElem_cons hi]
    rfl
  rw [hturn.gone_iff (by simpa using hvalue) hplaces rfl rfl, StruckAt, ← hfirst, ← hlast, hone,
    text_append, text_cons, List.append_assoc, List.singleton_append, text, List.length_map]
  exact (and_iff_right hvalue).symm

/-- The turns of the values from some turn on: a character that is left before is left behind them
exactly when none of them strikes it. -/
theorem Redacts.turns_iff (h : Redacts marker.toList values n pieces out)
    (hbefore : ∃ m, Redacts marker.toList before m (copyFrom 0 cs) pieces) (hi : i < cs.length)
    (hkept : i ∈ origins pieces) : i ∈ origins out ↔ ¬ ∃ k : Fin values.length,
      StruckAt marker (before ++ values.take k) (values.get k) cs i := by
  induction values generalizing before n pieces with
  | nil =>
      cases h
      refine iff_of_true hkept ?_
      rintro ⟨k, -⟩
      exact k.elim0
  | cons value values ih =>
      obtain ⟨m, hredacts⟩ := hbefore
      have hlater : (∃ k : Fin (value :: values).length,
          StruckAt marker (before ++ (value :: values).take k) ((value :: values).get k) cs i) ↔
          StruckAt marker before value cs i ∨ ∃ k : Fin values.length,
            StruckAt marker (before ++ [value] ++ values.take k) (values.get k) cs i := by
        refine Fin.exists_fin_succ.trans ?_
        simp
      rw [hlater, not_or]
      cases h with
      | @value _ _ n k _ mid _ hvalue hturn hrest =>
          have hstruck := hredacts.turn_iff hi hkept hvalue hturn
          by_cases hmid : i ∈ origins mid
          · rw [ih hrest ⟨_, hredacts.append (.value hvalue hturn .nil)⟩ hmid]
            exact (and_iff_right fun hat => hstruck.mpr hat hmid).symm
          · refine iff_of_false (fun hout => hmid (hrest.origins_sublist.subset hout)) ?_
            exact fun hnone => hnone.1 (hstruck.mp hmid)
      | empty hrest =>
          rw [ih hrest ⟨_, hredacts.append (.empty .nil)⟩ (by rwa [origins_spread])]
          exact (and_iff_right fun hat => hat.1 rfl).symm

/-- **What a redaction leaves.**  A character is left exactly when no value strikes it at its
turn. -/
theorem Redacts.kept_iff (h : Redacts marker.toList values n (copyFrom 0 cs) out)
    (hi : i < cs.length) : i ∈ origins out ↔ ¬ Struck marker values cs i := by
  have hkept : i ∈ origins (copyFrom 0 cs) := by
    rw [origins_copyFrom, List.mem_range'_1]
    omega
  have hstart : ∃ m, Redacts marker.toList [] m (copyFrom 0 cs) (copyFrom 0 cs) := ⟨0, .nil⟩
  rw [h.turns_iff hstart hi hkept]
  simp only [List.nil_append, Struck]

/-- All characters of an occurrence that is met are struck. -/
theorem Met.struck (after : List String) {start : Nat} (h : Met marker.toList before value cs start)
    (hmarker : marker ≠ "") (hle : start ≤ i) (hlt : i < start + value.toList.length) :
    Struck marker (before ++ value :: after) cs i := by
  obtain ⟨n, out, hredacts, -⟩ := exists_redacts marker (before ++ value :: after) (copyFrom 0 cs)
  have hself := h.2 value (List.mem_append_right before List.mem_cons_self)
  have hnonempty : value.toList ≠ [] := by simpa using hself.1
  have hi : i < cs.length := by
    have hlength := ((mem_places hnonempty).mp h.1).length_le
    rw [List.length_drop] at hlength
    omega
  by_contra hnot
  exact h.hidden (by simpa using hmarker) hredacts i ((hredacts.kept_iff hi).mpr hnot) ⟨hle, hlt⟩

end Places

/-- With the markers that stand before it, the character does not fit so many bytes. -/
def PushedOut (marker : String) (values : List String) (cs : List Char) (bytes i : Nat) : Prop :=
  bytes < (String.ofList (redactWith marker values (cs.take i) ++ (cs.drop i).take 1)).utf8ByteSize

/-- Each character of a secret of the whole text that is left by the cut is struck, or pushed out of
the bytes that are shown. -/
def Sheltered (marker : String) (values : List String) (whole cut : List Char) (bytes : Nat) :
    Prop :=
  ∀ i < cut.length, cut[i]? = whole[i]? → Secret values whole i →
    Struck marker values cut i ∨ PushedOut marker values cut bytes i

/-- So is that a cut is sheltered. -/
instance (marker : String) (values : List String) (whole cut : List Char) (bytes : Nat) :
    Decidable (Sheltered marker values whole cut bytes) :=
  inferInstanceAs (Decidable (∀ i < cut.length, cut[i]? = whole[i]? → Secret values whole i →
    Struck marker values cut i ∨ bytes < (String.ofList
      (redactWith marker values (cut.take i) ++ (cut.drop i).take 1)).utf8ByteSize))

/-- A character fits exactly when all up to it fit. -/
theorem lt_length_fit_iff {c : Char} {rest : List Char} (bytes : Nat) (start : List Char) :
    start.length < (Text.fit bytes (start ++ c :: rest)).length ↔
      (String.ofList (start ++ [c])).utf8ByteSize ≤ bytes := by
  rw [Text.utf8ByteSize_ofList]
  induction start generalizing bytes with
  | nil =>
      rw [List.nil_append, List.nil_append, Text.fit]
      split_ifs with hfits
      · simpa using hfits
      · simpa using hfits
  | cons d start ih =>
      rw [List.cons_append, List.cons_append, Text.fit, List.map_cons, List.sum_cons]
      split_ifs with hfits
      · have hrest := ih (bytes - d.utf8Size)
        rw [List.length_cons, List.length_cons, Nat.add_lt_add_iff_right, hrest]
        omega
      · simp only [List.length_nil, Nat.not_lt_zero, false_iff]
        omega

/-- The pieces up to a length have a place exactly when its piece is among them. -/
theorem mem_origins_take_iff {k : Nat} (hplaces : (origins (a ++ p :: b)).Nodup)
    (hi : p.origin = some i) : i ∈ origins ((a ++ p :: b).take k) ↔ a.length < k := by
  constructor
  · intro hmem
    by_contra hle
    rw [List.take_append_of_le_length (Nat.le_of_not_lt hle)] at hmem
    have hbefore : i ∈ origins a := ((List.take_sublist k a).filterMap _).subset hmem
    rw [origins_append, List.nodup_append] at hplaces
    exact hplaces.2.2 i hbefore i (mem_origins.mpr ⟨p, List.mem_cons_self, hi⟩) rfl
  · intro hlt
    obtain ⟨m, rfl⟩ : ∃ m, k = a.length + (m + 1) := ⟨k - a.length - 1, by omega⟩
    rw [List.take_length_add_append, List.take_succ_cons]
    exact mem_origins_middle hi

/-- Secrets are sheltered if each of their characters that is left lies in an occurrence that is
met. -/
theorem sheltered_of_met {marker : String} (hmarker : marker ≠ "") {values : List String}
    {whole cut : List Char} {bytes : Nat}
    (h : ∀ i < cut.length, cut[i]? = whole[i]? → Secret values whole i →
      ∃ k : Fin values.length, ∃ start,
        Met marker.toList (values.take k) (values.get k) cut start ∧
          start ≤ i ∧ i < start + (values.get k).toList.length) :
    Sheltered marker values whole cut bytes := by
  intro i hi hsame hsecret
  obtain ⟨k, start, hmet, hle, hlt⟩ := h i hi hsame hsecret
  have hvalues : values = values.take k ++ values.get k :: values.drop (k + 1) := by
    conv_lhs => rw [← List.take_append_drop k values]
    rw [List.drop_eq_getElem_cons k.isLt]
    rfl
  have hstruck := hmet.struck (values.drop (k + 1)) hmarker hle hlt
  rw [← hvalues] at hstruck
  exact .inl hstruck

section Shown

variable {marker : String} {values : List String} {source : String}

/-- What is shown of a redacted text: the characters that no value strikes and that fit. -/
theorem Redacts.mem_fit_iff (h : Redacts marker.toList values n (original source) out)
    (bytes : Nat) (hi : i < source.toList.length) :
    i ∈ origins (out.take (Text.fit bytes (text out)).length) ↔
      ¬ Struck marker values source.toList i ∧
        ¬ PushedOut marker values source.toList bytes i := by
  rw [← h.kept_iff hi]
  by_cases hkept : i ∈ origins out
  · have hplaces := (nodup_origins_copyFrom 0 source.toList).sublist h.origins_sublist
    obtain ⟨first, last, rfl, hfirst, -⟩ := h.around hi hkept
    have hlength : first.length = (text first).length := (List.length_map _).symm
    have hone : (source.toList.drop i).take 1 = [source.toList.get ⟨i, hi⟩] := by
      rw [List.drop_eq_getElem_cons hi]
      rfl
    rw [mem_origins_take_iff hplaces rfl, text_append, text_cons, hlength, lt_length_fit_iff,
      PushedOut, ← hfirst, hone, Nat.not_lt]
    exact (and_iff_right hkept).symm
  · have hshown : i ∉ origins (out.take (Text.fit bytes (text out)).length) := fun hmem =>
      hkept (((List.take_sublist _ out).filterMap _).subset hmem)
    exact iff_of_false hshown fun hboth => hkept hboth.1

/-- Pieces of a text disclose a secret when they have a place of it with its character. -/
theorem discloses_iff_place {whole : List Char}
    (hpieces : ∀ p ∈ pieces, ∀ i, p.origin = some i → p ∈ original source) :
    Discloses values whole pieces ↔ ∃ i < source.toList.length,
      source.toList[i]? = whole[i]? ∧ Secret values whole i ∧ i ∈ origins pieces := by
  have hchar : ∀ p ∈ pieces, ∀ i, p.origin = some i → source.toList[i]? = some p.char := by
    intro p hp i hi
    have hplace := (mem_copyFrom (hpieces p hp i hi) hi).2
    rwa [Nat.sub_zero] at hplace
  constructor
  · rintro ⟨p, hp, i, hi, hwhole, hsecret⟩
    have hsource := hchar p hp i hi
    obtain ⟨hlt, -⟩ := List.getElem?_eq_some_iff.mp hsource
    exact ⟨i, hlt, hsource.trans hwhole.symm, hsecret, mem_origins.mpr ⟨p, hp, hi⟩⟩
  · rintro ⟨i, -, hsame, hsecret, hmem⟩
    obtain ⟨p, hp, hi⟩ := mem_origins.mp hmem
    exact ⟨p, hp, i, hi, hsame.symm.trans (hchar p hp i hi), hsecret⟩

/-- **What a cut shows.**  What is shown of a text that was cut before it was redacted discloses
nothing of the secrets of the whole text exactly when these are sheltered. -/
theorem Redacts.not_discloses_iff (h : Redacts marker.toList values n (original source) out)
    (bytes : Nat) (whole : List Char) :
    ¬ Discloses values whole (out.take (Text.fit bytes (text out)).length) ↔
      Sheltered marker values whole source.toList bytes := by
  have hpieces : ∀ p ∈ out.take (Text.fit bytes (text out)).length, ∀ i, p.origin = some i →
      p ∈ original source := by
    intro p hp i hi
    rcases h.mem (List.mem_of_mem_take hp) with hsource | hinserted
    · exact hsource
    · obtain ⟨c, -, rfl⟩ := List.mem_map.mp hinserted
      cases hi
  rw [discloses_iff_place hpieces, Sheltered]
  constructor
  · intro hnone i hi hsame hsecret
    by_contra hnot
    exact hnone ⟨i, hi, hsame, hsecret, (h.mem_fit_iff bytes hi).mpr (not_or.mp hnot)⟩
  · rintro hsheltered ⟨i, hi, hsame, hsecret, hmem⟩
    obtain ⟨hstruck, hpushed⟩ := (h.mem_fit_iff bytes hi).mp hmem
    exact (hsheltered i hi hsame hsecret).elim hstruck hpushed

/-- The cut of a redacted text shows a start of its pieces. -/
theorem Redacts.shown (h : Redacts marker.toList values n (original source) out) (bytes : Nat) :
    Shown marker values source (String.ofList (Text.fit bytes (text out)))
      (out.take (Text.fit bytes (text out)).length) := by
  have hstart := Text.fit_isPrefix bytes (text out)
  refine ⟨⟨n, out, h, List.take_prefix _ _⟩, ?_⟩
  rw [String.toList_ofList, text, List.map_take]
  exact (List.prefix_iff_eq_take.mp hstart).symm

/-- Of a text that was redacted and cut, pieces are shown that disclose nothing exactly when the
secrets are sheltered. -/
theorem exists_shown_iff (marker : String) (values : List String) (source : String) (bytes : Nat) :
    ∃ pieces, Shown marker values source (String.ofList (Text.fit bytes
        (values.foldl (fun s value => Text.replace s value marker) source).toList)) pieces ∧
      ∀ whole, ¬ Discloses values whole pieces ↔
        Sheltered marker values whole source.toList bytes := by
  obtain ⟨n, out, hout, htext⟩ := exists_redacts marker values (original source)
  rw [text_original, String.ofList_toList] at htext
  rw [← htext, String.toList_ofList]
  exact ⟨_, hout.shown bytes, hout.not_discloses_iff bytes⟩

end Shown

end Redaction
