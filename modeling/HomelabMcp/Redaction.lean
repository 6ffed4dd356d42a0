import HomelabMcp.StableSort
import HomelabMcp.TextLines

/-!
# Redaction

Values are replaced in a text by a marker, one value after the other.  What becomes of the text is
followed in pieces: a character, with the place of the text that it was copied from, or with none
if a replacement put it there.  `Replaces` says what the replacement of one value does to the
pieces and how often it replaces, `Redacts` what a list of values does.

* `exists_redacts`: the replacements of `Text.replace` do to a text what `Redacts` says.
* `Redacts.hidden`: every occurrence of a value in what is left has a character of a marker in it.
* `Redacts.copied_run`: what was copied in one run stands so in the text.
* `shown_hides_iff`: a list of values hides a secret in every text exactly when one of them is a
  part of it.

`longestFirst` is the order in which values are replaced, `Shown` what a cut leaves of the text.
-/

namespace Redaction

/-- A character of a text, and the place it was copied from. -/
structure Piece where
  char : Char
  origin : Option Nat
  deriving DecidableEq

/-- The text of pieces. -/
def text (pieces : List Piece) : List Char := pieces.map Piece.char

/-- No replacement put any of these pieces there. -/
def Copied (pieces : List Piece) : Prop := ∀ p ∈ pieces, p.origin ≠ none

/-- Every occurrence of the value has a piece that a replacement put there. -/
def Hides (pieces : List Piece) (value : String) : Prop :=
  ∀ found, found <:+: pieces → text found = value.toList → ∃ p ∈ found, p.origin = none

/-- A marker that is put in. -/
def inserted (marker : List Char) : List Piece := marker.map fun c => ⟨c, none⟩

/-- The text from a place on. -/
def copyFrom (place : Nat) : List Char → List Piece
  | [] => []
  | c :: cs => ⟨c, some place⟩ :: copyFrom (place + 1) cs

/-- The text before any replacement. -/
def original (s : String) : List Piece := copyFrom 0 s.toList

variable {marker value : List Char} {n : Nat} {pieces out w : List Piece}

/-- The first character, then the others. -/
theorem text_cons (p : Piece) (pieces : List Piece) :
    text (p :: pieces) = p.char :: text pieces := rfl

/-- The text of both stretches. -/
theorem text_append (a b : List Piece) : text (a ++ b) = text a ++ text b := List.map_append

/-- The text of a marker is the marker. -/
theorem text_inserted (marker : List Char) : text (inserted marker) = marker := by
  rw [text, inserted, List.map_map]
  exact List.map_id' marker

/-- The text of a copy is what was copied. -/
theorem text_copyFrom (place : Nat) (cs : List Char) : text (copyFrom place cs) = cs := by
  induction cs generalizing place with
  | nil => rfl
  | cons c cs ih => exact congrArg (c :: ·) (ih (place + 1))

/-- The text of a string is the string. -/
theorem text_original (s : String) : text (original s) = s.toList := text_copyFrom 0 s.toList

/-- Nothing is copied. -/
theorem Copied.nil : Copied [] := fun _ hp => absurd hp List.not_mem_nil

/-- What follows a copied piece is copied. -/
theorem Copied.tail {p : Piece} (h : Copied (p :: w)) : Copied w :=
  fun q hq => h q (List.mem_cons_of_mem p hq)

/-- A copied run does not start in a marker. -/
theorem Copied.prefix_inserted {c : Char} (h : Copied w) (hw : w <+: ⟨c, none⟩ :: out) : w = [] := by
  cases w with
  | nil => rfl
  | cons p w =>
      obtain ⟨rfl, -⟩ := List.cons_prefix_cons.mp hw
      exact absurd rfl (h _ List.mem_cons_self)

/-- A copied run has nothing of a marker in it. -/
theorem Copied.infix_inserted (h : Copied w) (hw : w <:+: inserted marker ++ out) : w <:+: out := by
  induction marker with
  | nil => exact hw
  | cons c marker ih =>
      rcases List.infix_cons_iff.mp hw with hstart | hrest
      · rw [h.prefix_inserted hstart]
        exact List.nil_infix
      · exact ih hrest

/-- The occurrences of a value are replaced from left to right, so many times. -/
inductive Replaces (marker value : List Char) : Nat → List Piece → List Piece → Prop
  | nil : Replaces marker value 0 [] []
  | keep {n : Nat} {p : Piece} {pieces out : List Piece} (hmiss : ¬ value <+: text (p :: pieces))
      (h : Replaces marker value n pieces out) : Replaces marker value n (p :: pieces) (p :: out)
  | hit {n : Nat} {found pieces out : List Piece} (hfound : text found = value)
      (h : Replaces marker value n pieces out) :
      Replaces marker value (n + 1) (found ++ pieces) (inserted marker ++ out)

namespace Replaces

/-- A copied start of the result is a start of what was there. -/
theorem copied_start (h : Replaces marker value n pieces out) (hmarker : marker ≠ [])
    (hcopied : Copied w) (hw : w <+: out) : w <+: pieces := by
  induction h generalizing w with
  | nil => exact hw
  | @keep n p pieces out hmiss h ih =>
      cases w with
      | nil => exact List.nil_prefix
      | cons q w =>
          obtain ⟨rfl, hrest⟩ := List.cons_prefix_cons.mp hw
          exact List.cons_prefix_cons.mpr ⟨rfl, ih hcopied.tail hrest⟩
  | hit hfound h ih =>
      obtain ⟨c, cs, rfl⟩ := List.exists_cons_of_ne_nil hmarker
      rw [hcopied.prefix_inserted hw]
      exact List.nil_prefix

/-- What was copied in one run stood so before. -/
theorem copied_run (h : Replaces marker value n pieces out) (hmarker : marker ≠ [])
    (hcopied : Copied w) (hw : w <:+: out) : w <:+: pieces := by
  induction h with
  | nil => exact hw
  | keep hmiss h ih =>
      rcases List.infix_cons_iff.mp hw with hstart | hrest
      · exact ((keep hmiss h).copied_start hmarker hcopied hstart).isInfix
      · exact List.infix_cons (ih hrest)
  | hit hfound h ih => exact (ih (hcopied.infix_inserted hw)).trans (List.suffix_append _ _).isInfix

/-- No occurrence of the value is left that was copied: the scan would have met its start. -/
theorem not_copied (h : Replaces marker value n pieces out) (hmarker : marker ≠ [])
    (hvalue : value ≠ []) (hcopied : Copied w) (hw : w <:+: out) : text w ≠ value := by
  induction h with
  | nil =>
      rw [List.infix_nil.mp hw]
      exact hvalue.symm
  | keep hmiss h ih =>
      rcases List.infix_cons_iff.mp hw with hstart | hrest
      · rintro rfl
        have hbefore := (keep hmiss h).copied_start hmarker hcopied hstart
        exact hmiss (hbefore.map Piece.char)
      · exact ih hrest
  | hit hfound h ih => exact ih (hcopied.infix_inserted hw)

/-- Without a replacement nothing changes. -/
theorem eq_of_zero (h : Replaces marker value 0 pieces out) : out = pieces := by
  generalize hn : 0 = n at h
  induction h with
  | nil => rfl
  | keep hmiss h ih => rw [ih hn]
  | hit hfound h ih => cases hn

/-- Something is replaced exactly where the value occurs. -/
theorem count_ne_zero_iff (h : Replaces marker value n pieces out) (hvalue : value ≠ []) :
    n ≠ 0 ↔ Text.hasInfix value (text pieces) = true := by
  induction h with
  | nil => simp [text, Text.hasInfix, hvalue]
  | @keep n p pieces out hmiss h ih =>
      have hnot : value.isPrefixOf (p.char :: text pieces) = false := by
        rwa [← Bool.not_eq_true, List.isPrefixOf_iff_prefix, ← text_cons]
      rw [ih, text_cons, Text.hasInfix, hnot, Bool.false_or]
  | @hit n found pieces out hfound h ih =>
      obtain ⟨p, found, rfl⟩ := List.exists_cons_of_ne_nil (show found ≠ [] by
        rintro rfl
        exact hvalue hfound.symm)
      have hstart : value <+: text (p :: found ++ pieces) := by
        rw [text_append, hfound]
        exact List.prefix_append _ _
      have hfirst : Text.hasInfix value (text (p :: found ++ pieces)) = true := by
        rw [List.cons_append, text_cons, Text.hasInfix, Bool.or_eq_true]
        exact .inl (List.isPrefixOf_iff_prefix.mpr hstart)
      exact iff_of_true (Nat.succ_ne_zero n) hfirst

end Replaces

/-- Such a replacement is the scan of `Text.replaceFrom`. -/
theorem Replaces.text_eq (h : Replaces marker value n pieces out) (hvalue : value ≠ [])
    {fuel : Nat} (hfuel : pieces.length ≤ fuel) :
    text out = Text.replaceFrom value marker fuel (text pieces) := by
  induction h generalizing fuel with
  | nil =>
      cases fuel with
      | zero => rfl
      | succ fuel => rfl
  | @keep n p pieces out hmiss h ih =>
      rw [List.length_cons] at hfuel
      obtain ⟨fuel, rfl⟩ : ∃ rest, fuel = rest + 1 := ⟨fuel - 1, by omega⟩
      rw [text_cons] at hmiss
      have hstrip : Text.stripPrefix value (p.char :: text pieces) = none := by
        rw [Text.stripPrefix, if_neg fun h => hmiss (List.isPrefixOf_iff_prefix.mp h)]
      rw [text_cons, text_cons, Text.replaceFrom, hstrip, ih (Nat.le_of_succ_le_succ hfuel)]
  | @hit n found pieces out hfound h ih =>
      obtain ⟨c, cs, hcons⟩ := List.exists_cons_of_ne_nil hvalue
      have hlength : found.length = cs.length + 1 := by
        rw [← List.length_cons (a := c), ← hcons, ← hfound, text, List.length_map]
      rw [List.length_append] at hfuel
      obtain ⟨fuel, rfl⟩ : ∃ rest, fuel = rest + 1 := ⟨fuel - 1, by omega⟩
      have hstrip : Text.stripPrefix value (value ++ text pieces) = some (text pieces) := by
        rw [Text.stripPrefix, if_pos (List.isPrefixOf_iff_prefix.mpr (List.prefix_append _ _)),
          List.drop_left]
      rw [text_append, text_append, text_inserted, hfound,
        ih (show pieces.length ≤ fuel by omega)]
      rw [hcons, List.cons_append] at hstrip ⊢
      rw [Text.replaceFrom, hstrip]

/-- Every value can be replaced. -/
theorem exists_replaces (marker : List Char) (hvalue : value ≠ []) (pieces : List Piece) :
    ∃ n out, Replaces marker value n pieces out := by
  induction hlength : pieces.length using Nat.strong_induction_on generalizing pieces with
  | _ length ih =>
      subst hlength
      cases pieces with
      | nil => exact ⟨0, [], .nil⟩
      | cons p pieces =>
          by_cases hstart : value <+: text (p :: pieces)
          · have hpos := List.length_pos_of_ne_nil hvalue
            have hfound : text ((p :: pieces).take value.length) = value := by
              rw [text, List.map_take]
              exact (List.prefix_iff_eq_take.mp hstart).symm
            have hless : ((p :: pieces).drop value.length).length < (p :: pieces).length := by
              rw [List.length_drop, List.length_cons]
              omega
            obtain ⟨n, out, hout⟩ := ih _ hless _ rfl
            refine ⟨n + 1, inserted marker ++ out, ?_⟩
            have hhit := Replaces.hit hfound hout
            rwa [List.take_append_drop] at hhit
          · obtain ⟨n, out, hout⟩ := ih pieces.length (Nat.lt_succ_self _) pieces rfl
            exact ⟨n, p :: out, .keep hstart hout⟩

/-- One replacement in pieces is one of `Text.replace`. -/
theorem Replaces.replace_eq {marker value : String} (hvalue : value ≠ "")
    (h : Replaces marker.toList value.toList n pieces out) :
    String.ofList (text out) = Text.replace (String.ofList (text pieces)) value marker := by
  have hlength : (text pieces).length = pieces.length := List.length_map _
  rw [h.text_eq (by simpa using hvalue) (Nat.le_of_eq hlength.symm), Text.replace,
    if_neg (by simpa using hvalue), String.toList_ofList]

/-- One replacement of `Text.replace`, in pieces. -/
theorem exists_replace (marker : String) {value : String} (hvalue : value ≠ "")
    (pieces : List Piece) : ∃ n out, Replaces marker.toList value.toList n pieces out ∧
      String.ofList (text out) = Text.replace (String.ofList (text pieces)) value marker ∧
      (Text.contains (String.ofList (text pieces)) value = true ↔ n ≠ 0) := by
  have hnonempty : value.toList ≠ [] := by simpa using hvalue
  obtain ⟨n, out, hout⟩ := exists_replaces marker.toList hnonempty pieces
  refine ⟨n, out, hout, hout.replace_eq hvalue, ?_⟩
  rw [hout.count_ne_zero_iff hnonempty, Text.contains, String.toList_ofList]

/-- What the empty value does: a marker goes around every character. -/
def spread (marker : List Char) (pieces : List Piece) : List Piece :=
  inserted marker ++ pieces.flatMap fun p => p :: inserted marker

/-- The values are replaced in the order of the list, so many times together. -/
inductive Redacts (marker : List Char) : List String → Nat → List Piece → List Piece → Prop
  | nil {pieces : List Piece} : Redacts marker [] 0 pieces pieces
  | value {value : String} {values : List String} {n m : Nat} {pieces mid out : List Piece}
      (hvalue : value ≠ "") (h : Replaces marker value.toList n pieces mid)
      (hrest : Redacts marker values m mid out) :
      Redacts marker (value :: values) (n + m) pieces out
  | empty {values : List String} {m : Nat} {pieces out : List Piece}
      (hrest : Redacts marker values m (spread marker pieces) out) :
      Redacts marker ("" :: values) (pieces.length + 1 + m) pieces out

/-- A copied run between spread markers is a run of what was there. -/
theorem copied_run_spread (hmarker : marker ≠ []) (hcopied : Copied w)
    (hw : w <:+: spread marker pieces) : w <:+: pieces := by
  have hrest := hcopied.infix_inserted hw
  clear hw
  induction pieces with
  | nil => exact hrest
  | cons p pieces ih =>
      rw [List.flatMap_cons, List.cons_append] at hrest
      rcases List.infix_cons_iff.mp hrest with hstart | hinner
      · obtain ⟨c, cs, rfl⟩ := List.exists_cons_of_ne_nil hmarker
        cases w with
        | nil => exact List.nil_infix
        | cons q w =>
            obtain ⟨rfl, hmore⟩ := List.cons_prefix_cons.mp hstart
            rw [hcopied.tail.prefix_inserted hmore]
            exact (List.prefix_append [q] pieces).isInfix
      · exact List.infix_cons (ih (hcopied.infix_inserted hinner))

namespace Redacts

variable {values : List String}

/-- So is one in the result of a list of values. -/
theorem copied_run (h : Redacts marker values n pieces out) (hmarker : marker ≠ [])
    (hcopied : Copied w) (hw : w <:+: out) : w <:+: pieces := by
  induction h with
  | nil => exact hw
  | value hvalue h hrest ih => exact h.copied_run hmarker hcopied (ih hw)
  | empty hrest ih => exact copied_run_spread hmarker hcopied (ih hw)

/-- **Redaction is complete.**  Whatever the values are and in whatever order they are replaced,
none of them is left that was copied. -/
theorem hidden (h : Redacts marker values n pieces out) (hmarker : marker ≠ []) {value : String}
    (hmem : value ∈ values) (hvalue : value ≠ "") : Hides out value := by
  intro found hfound htext
  by_contra hnone
  have hcopied : Copied found := fun p hp horigin => hnone ⟨p, hp, horigin⟩
  have hnonempty : value.toList ≠ [] := by simpa using hvalue
  induction h with
  | nil => exact absurd hmem List.not_mem_nil
  | value hfirst h hrest ih =>
      rcases List.mem_cons.mp hmem with rfl | hmem
      · have hbefore := hrest.copied_run hmarker hcopied hfound
        exact h.not_copied hmarker hnonempty hcopied hbefore htext
      · exact ih hmem hfound
  | empty hrest ih =>
      rcases List.mem_cons.mp hmem with rfl | hmem
      · exact hvalue rfl
      · exact ih hmem hfound

end Redacts

/-- What hides a value hides it in every part. -/
theorem Hides.inPart {value : String} {part : List Piece} (h : Hides pieces value)
    (hpart : part <:+: pieces) : Hides part value :=
  fun found hfound htext => h found (hfound.trans hpart) htext

/-- A marker before every character, and at the end. -/
theorem text_spread (marker : List Char) (pieces : List Piece) :
    text (spread marker pieces) = marker ++ (text pieces).flatMap fun c => c :: marker := by
  rw [spread, text_append, text_inserted, text, text, List.map_flatMap, List.flatMap_map]
  congr 2
  funext p
  exact congrArg (p.char :: ·) (text_inserted marker)

/-- **Redaction in pieces.**  What `Redacts` does to the pieces of a text is what replacing the
values one after the other does to the text. -/
theorem Redacts.text_eq {marker : String} {values : List String}
    (h : Redacts marker.toList values n pieces out) :
    String.ofList (text out) = values.foldl (fun s value => Text.replace s value marker)
      (String.ofList (text pieces)) := by
  induction h with
  | nil => rfl
  | value hvalue h hrest ih => rw [ih, List.foldl_cons, h.replace_eq hvalue]
  | empty hrest ih =>
      rw [ih, List.foldl_cons, text_spread, Text.replace, if_pos (by rfl), String.toList_ofList]

/-- The values of a list can be replaced in all pieces. -/
theorem exists_redacts (marker : String) (values : List String) (pieces : List Piece) :
    ∃ n out, Redacts marker.toList values n pieces out ∧
      String.ofList (text out) = values.foldl (fun s value => Text.replace s value marker)
        (String.ofList (text pieces)) := by
  suffices hexists : ∃ n out, Redacts marker.toList values n pieces out by
    obtain ⟨n, out, hout⟩ := hexists
    exact ⟨n, out, hout, hout.text_eq⟩
  induction values generalizing pieces with
  | nil => exact ⟨0, pieces, .nil⟩
  | cons value values ih =>
      by_cases hvalue : value = ""
      · subst hvalue
        obtain ⟨m, out, hout⟩ := ih (spread marker.toList pieces)
        exact ⟨pieces.length + 1 + m, out, .empty hout⟩
      · obtain ⟨n, mid, hmid, -⟩ := exists_replace marker hvalue pieces
        obtain ⟨m, out, hout⟩ := ih mid
        exact ⟨n + m, out, .value hvalue hmid hout⟩

/-- A piece that is there was there before or is of a marker. -/
theorem Replaces.mem (h : Replaces marker value n pieces out) {p : Piece} (hp : p ∈ out) :
    p ∈ pieces ∨ p ∈ inserted marker := by
  induction h with
  | nil => exact absurd hp List.not_mem_nil
  | keep hmiss h ih =>
      rcases List.mem_cons.mp hp with rfl | hp
      · exact .inl List.mem_cons_self
      · exact (ih hp).imp_left (List.mem_cons_of_mem _)
  | hit hfound h ih =>
      rcases List.mem_append.mp hp with hp | hp
      · exact .inr hp
      · exact (ih hp).imp_left (List.mem_append_right _)

/-- What stands there was there, or is of the marker. -/
theorem mem_spread {p : Piece} (hp : p ∈ spread marker pieces) :
    p ∈ pieces ∨ p ∈ inserted marker := by
  rcases List.mem_append.mp hp with hp | hp
  · exact .inr hp
  · obtain ⟨q, hq, hp⟩ := List.mem_flatMap.mp hp
    rcases List.mem_cons.mp hp with rfl | hp
    · exact .inl hq
    · exact .inr hp

/-- The same of the result of a list of values. -/
theorem Redacts.mem {values : List String} (h : Redacts marker values n pieces out) {p : Piece}
    (hp : p ∈ out) : p ∈ pieces ∨ p ∈ inserted marker := by
  induction h with
  | nil => exact .inl hp
  | value hvalue h hrest ih =>
      rcases ih hp with hp | hp
      · exact h.mem hp
      · exact .inr hp
  | empty hrest ih =>
      rcases ih hp with hp | hp
      · exact mem_spread hp
      · exact .inr hp

/-- A copy is copied. -/
theorem copied_copyFrom (place : Nat) (cs : List Char) : Copied (copyFrom place cs) := by
  induction cs generalizing place with
  | nil => exact Copied.nil
  | cons c cs ih =>
      intro p hp
      rcases List.mem_cons.mp hp with rfl | hp
      · exact Option.some_ne_none place
      · exact ih (place + 1) p hp

/-- So is the original. -/
theorem copied_original (s : String) : Copied (original s) := copied_copyFrom 0 s.toList

/-- Of the source, once the values were replaced in it, the start is shown, in these pieces. -/
structure Shown (marker : String) (values : List String) (source shown : String)
    (pieces : List Piece) : Prop where
  redacted : ∃ n out, Redacts marker.toList values n (original source) out ∧ pieces <+: out
  text_eq : text pieces = shown.toList

/-- A value of the list is a part of the secret. -/
def Covers (values : List String) (secret : String) : Prop :=
  ∃ value ∈ values, value ≠ "" ∧ value.toList <:+: secret.toList

/-- What hides a part of a secret hides the secret. -/
theorem Hides.whole {value secret : String} (h : Hides pieces value)
    (hpart : value.toList <:+: secret.toList) : Hides pieces secret := by
  intro found hfound htext
  obtain ⟨before, after, hsplit⟩ := hpart
  rw [← hsplit, text] at htext
  obtain ⟨start, last, rfl, hstart, -⟩ := List.map_eq_append_iff.mp htext
  obtain ⟨first, inner, rfl, -, hinner⟩ := List.map_eq_append_iff.mp hstart
  have hrun : inner <:+: first ++ inner ++ last := List.infix_append first inner last
  obtain ⟨p, hp, hnone⟩ := h inner (hrun.trans hfound) hinner
  exact ⟨p, hrun.subset hp, hnone⟩

/-- The values that a list covers are hidden in what is shown. -/
theorem Shown.hides {marker : String} {values : List String} {source shown secret : String}
    (h : Shown marker values source shown pieces) (hmarker : marker ≠ "")
    (hcovers : Covers values secret) : Hides pieces secret := by
  obtain ⟨n, out, hredacts, hstart⟩ := h.redacted
  obtain ⟨value, hmem, hvalue, hpart⟩ := hcovers
  have hnonempty : marker.toList ≠ [] := by simpa using hmarker
  exact ((hredacts.hidden hnonempty hmem hvalue).inPart hstart.isInfix).whole hpart

/-- What has no character of the marker was copied. -/
theorem Shown.copied {marker : String} {values : List String} {source shown : String}
    (h : Shown marker values source shown pieces)
    (hdisjoint : ∀ c ∈ shown.toList, c ∉ marker.toList) : Copied pieces := by
  obtain ⟨n, out, hredacts, hstart⟩ := h.redacted
  intro p hp
  have hchar : p.char ∈ shown.toList := h.text_eq ▸ List.mem_map_of_mem hp
  rcases hredacts.mem (hstart.subset hp) with hsource | hmarker
  · exact copied_original source p hsource
  · obtain ⟨c, hc, rfl⟩ := List.mem_map.mp hmarker
    exact absurd hc (hdisjoint c hchar)

/-- What fits a number of bytes is a start of the pieces. -/
theorem exists_fit (pieces : List Piece) (bytes : Nat) :
    ∃ shown, shown <+: pieces ∧ text shown = Text.fit bytes (text pieces) := by
  have hstart := Text.fit_isPrefix bytes (text pieces)
  refine ⟨pieces.take (Text.fit bytes (text pieces)).length, List.take_prefix _ _, ?_⟩
  rw [text, List.map_take]
  exact (List.prefix_iff_eq_take.mp hstart).symm

/-- The cut of a redacted text shows a start of its pieces. -/
theorem exists_shown (marker : String) (values : List String) (source : String) (bytes : Nat) :
    ∃ pieces, Shown marker values source (String.ofList (Text.fit bytes
      (values.foldl (fun s value => Text.replace s value marker) source).toList)) pieces := by
  obtain ⟨n, out, hout, htext⟩ := exists_redacts marker values (original source)
  rw [text_original, String.ofList_toList] at htext
  obtain ⟨shown, hstart, hshown⟩ := exists_fit out bytes
  refine ⟨shown, ⟨n, out, hout, hstart⟩, ?_⟩
  rw [← htext, String.toList_ofList, String.toList_ofList, hshown]

/-- Where a value does not occur, nothing is replaced. -/
theorem Redacts.exists_same {values : List String} (hvalues : ∀ value ∈ values, value ≠ "")
    (hnone : ∀ value ∈ values, ¬ value.toList <:+: text pieces) :
    Redacts marker values 0 pieces pieces := by
  induction values with
  | nil => exact .nil
  | cons value values ih =>
      obtain ⟨hvalue, hothers⟩ := List.forall_mem_cons.mp hvalues
      obtain ⟨hmiss, hmore⟩ := List.forall_mem_cons.mp hnone
      refine .value hvalue ?_ (ih hothers hmore)
      clear ih hothers hmore hvalues hnone
      induction pieces with
      | nil => exact .nil
      | cons p pieces ih =>
          refine .keep (fun hstart => hmiss hstart.isInfix) (ih fun hrest => hmiss ?_)
          exact List.infix_cons hrest

/-- **Coverage.**  A list of values hides a secret in everything that may be shown exactly when one
of the values is a part of the secret. -/
theorem shown_hides_iff {marker : String} (hmarker : marker ≠ "") {values : List String}
    (hvalues : ∀ value ∈ values, value ≠ "") (secret : String) :
    (∀ source shown pieces, Shown marker values source shown pieces → Hides pieces secret) ↔
      Covers values secret := by
  constructor
  · intro h
    by_contra hnot
    have hnone : ∀ value ∈ values, ¬ value.toList <:+: text (original secret) := by
      intro value hmem hpart
      rw [text_original] at hpart
      exact hnot ⟨value, hmem, hvalues value hmem, hpart⟩
    have hshown : Shown marker values secret secret (original secret) :=
      ⟨⟨0, _, Redacts.exists_same hvalues hnone, List.prefix_rfl⟩, text_original secret⟩
    obtain ⟨p, hp, horigin⟩ := h _ _ _ hshown _ List.infix_rfl (text_original secret)
    exact copied_original secret p hp horigin
  · intro hcovers source shown pieces hshown
    exact hshown.hides hmarker hcovers

/-- A replacement of a word by a word keeps the lines. -/
theorem Replaces.lines (h : Replaces marker value n pieces out) (hmarker : '\n' ∉ marker)
    (hnonempty : marker ≠ []) (hvalue : '\n' ∉ value) (hne : value ≠ []) (opened : Bool) :
    Text.lines '\n' opened (text out) = Text.lines '\n' opened (text pieces) := by
  induction h generalizing opened with
  | nil => rfl
  | keep hmiss h ih => rw [text_cons, text_cons, Text.lines, Text.lines, ih, ih]
  | hit hfound h ih =>
      rw [text_append, text_append, text_inserted, hfound, Text.lines_append hmarker hnonempty,
        Text.lines_append hvalue hne, ih]

/-- Values of one line join no lines. -/
theorem Redacts.lines {values : List String} (h : Redacts marker values n pieces out)
    (hmarker : '\n' ∉ marker) (hnonempty : marker ≠ []) (hvalues : ∀ value ∈ values, value ≠ "")
    (hone : ∀ value ∈ values, '\n' ∉ value.toList) :
    Text.lines '\n' false (text out) = Text.lines '\n' false (text pieces) := by
  induction h with
  | nil => rfl
  | value hvalue h hrest ih =>
      obtain ⟨hfirst, hothers⟩ := List.forall_mem_cons.mp hone
      rw [ih (List.forall_mem_cons.mp hvalues).2 hothers,
        h.lines hmarker hnonempty hfirst (by simpa using hvalue)]
  | empty hrest ih => exact absurd rfl (hvalues "" List.mem_cons_self)

/-- The values that are not empty, the longest first, and of equal neighbours one. -/
def longestFirst (values : List String) : List String :=
  (StableSort.sortByKey (fun value => OrderDual.toDual value.utf8ByteSize)
    (values.filter fun value => !value.isEmpty)).destutter (· ≠ ·)

/-- Dropping neighbours that are equal drops no element. -/
theorem mem_destutter {α : Type} [DecidableEq α] {a : α} {l : List α} :
    a ∈ l.destutter (· ≠ ·) ↔ a ∈ l := by
  have hrest : ∀ (l : List α) (b : α), a ∈ b :: l → a ∈ l.destutter' (· ≠ ·) b := by
    intro l
    induction l with
    | nil =>
        intro b h
        exact h
    | cons c l ih =>
        intro b h
        rw [List.destutter'_cons]
        split_ifs with hne
        · rcases List.mem_cons.mp h with rfl | h
          · exact List.mem_cons_self
          · exact List.mem_cons_of_mem b (ih c h)
        · obtain rfl := not_not.mp hne
          refine ih b ?_
          rcases List.mem_cons.mp h with rfl | h
          · exact List.mem_cons_self
          · exact h
  constructor
  · exact fun h => (List.destutter_sublist _ l).subset h
  · intro h
    cases l with
    | nil => exact h
    | cons b l => exact hrest l b h

/-- The order keeps the values that are not empty. -/
theorem mem_longestFirst {value : String} {values : List String} :
    value ∈ longestFirst values ↔ value ∈ values ∧ value ≠ "" := by
  have hsort := StableSort.sortByKey_isStableSort
    (fun value : String => OrderDual.toDual value.utf8ByteSize)
    (values.filter fun value => !value.isEmpty)
  rw [longestFirst, mem_destutter, hsort.perm.mem_iff, List.mem_filter]
  simp

example : longestFirst ["b", "", "aa", "aa", "c"] = ["aa", "b", "c"] := by decide

end Redaction
