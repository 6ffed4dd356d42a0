import HomelabMcp.Text

/-!
# Delimited sections

A text of sections, each with a body between an opening and a closing word.  Nothing is escaped, so
a body may hold the words itself, and the reader that takes the first closing word may go wrong.

* `splitOnce_iff`: what the first occurrence of a word splits a text into.
* `closedBy_of_head`: a word whose first character does not recur is found where it was put.
* `reading_unique_iff`: the sections are the only reading of their text unless one of them is
  `Misread`: it closes early, and what follows reads as the sections that are left.
-/

namespace Text

variable {word body : List Char}

/-- The word behind the body is its first occurrence. -/
def ClosedBy (word body : List Char) : Prop := ∀ x y, body ++ word = x ++ (word ++ y) → y = []

/-- Nothing stands before the closing word. -/
theorem ClosedBy.nil : ClosedBy word [] := by
  intro x y h
  have hlength := congrArg List.length h
  simp only [List.nil_append, List.length_append] at hlength
  exact List.eq_nil_of_length_eq_zero (by omega)

/-- What is left of a body is closed where the body is. -/
theorem ClosedBy.tail {c : Char} (h : ClosedBy word (c :: body)) : ClosedBy word body := by
  intro x y hsplit
  refine h (c :: x) y ?_
  rw [List.cons_append, hsplit, List.cons_append]

/-- The first occurrence of the word ends the body. -/
theorem splitOnce_iff (hword : word ≠ []) {text rest : List Char} :
    splitOnce word text = some (body, rest) ↔ text = body ++ (word ++ rest) ∧ ClosedBy word body := by
  induction text generalizing body with
  | nil =>
      constructor
      · intro h
        simp [splitOnce, hword] at h
      · rintro ⟨h, -⟩
        simp [hword] at h
  | cons c text ih =>
      by_cases hstart : word <+: c :: text
      · obtain ⟨after, hafter⟩ := hstart
        have hfound : splitOnce word (c :: text) = some ([], after) := by
          rw [splitOnce, if_pos (List.isPrefixOf_iff_prefix.mpr ⟨after, hafter⟩), ← hafter,
            List.drop_left]
        rw [hfound]
        constructor
        · intro h
          obtain ⟨rfl, rfl⟩ := Prod.mk.inj (Option.some.inj h)
          exact ⟨hafter.symm, .nil⟩
        · rintro ⟨hsplit, hclosed⟩
          have hboth : word ++ after = (body ++ word) ++ rest := by
            rw [hafter, hsplit, List.append_assoc]
          have hinside : word <+: body ++ word :=
            List.prefix_of_prefix_length_le (List.prefix_append word after)
              (hboth ▸ List.prefix_append (body ++ word) rest) (by simp)
          obtain ⟨y, hy⟩ := hinside
          obtain rfl := hclosed [] y hy.symm
          have hempty : body = [] := by
            have hlength := congrArg List.length hy
            simp only [List.append_nil, List.length_append] at hlength
            exact List.eq_nil_of_length_eq_zero (by omega)
          subst hempty
          rw [List.nil_append] at hboth
          rw [List.append_cancel_left hboth]
      · have hskip : splitOnce word (c :: text) =
            (splitOnce word text).map fun r => (c :: r.1, r.2) := by
          rw [splitOnce, if_neg fun h => hstart (List.isPrefixOf_iff_prefix.mp h)]
        rw [hskip, Option.map_eq_some_iff]
        constructor
        · rintro ⟨⟨before, after⟩, hfound, hpair⟩
          obtain ⟨rfl, rfl⟩ := Prod.mk.inj hpair
          obtain ⟨rfl, hclosed⟩ := ih.mp hfound
          refine ⟨rfl, ?_⟩
          intro x y hsplit
          cases x with
          | nil =>
              refine absurd ⟨y ++ after, ?_⟩ hstart
              have hwhole := congrArg (· ++ after) hsplit
              simpa using hwhole.symm
          | cons d x =>
              obtain ⟨-, hrest⟩ := List.cons.inj hsplit
              exact hclosed x y hrest
        · rintro ⟨hsplit, hclosed⟩
          cases body with
          | nil => exact absurd ⟨rest, hsplit.symm⟩ hstart
          | cons d body =>
              obtain ⟨rfl, hrest⟩ := List.cons.inj hsplit
              exact ⟨(body, rest), ih.mpr ⟨hrest, hclosed.tail⟩, rfl⟩

/-- A body is closed by a word where the first such word behind it is the one that was put
there. -/
theorem closedBy_iff (hword : word ≠ []) :
    ClosedBy word body ↔ splitOnce word (body ++ word) = some (body, []) := by
  rw [splitOnce_iff hword, List.append_nil]
  exact (and_iff_right rfl).symm

/-- The search finds a pattern that stands somewhere in the text. -/
theorem hasInfix_iff {pattern text : List Char} :
    hasInfix pattern text = true ↔ pattern <:+: text := by
  induction text with
  | nil => simp [hasInfix]
  | cons c text ih =>
      rw [hasInfix, Bool.or_eq_true, ih, List.infix_cons_iff, List.isPrefixOf_iff_prefix]

section Heads

variable {c : Char} {w a b r z : List Char}

/-- Of two occurrences of the word the first has ended where the second starts. -/
theorem exists_gap (hhead : c ∉ w) (h : a ++ ((c :: w) ++ r) = b ++ ((c :: w) ++ z))
    (hbefore : a.length < b.length) :
    ∃ gap, b = a ++ ((c :: w) ++ gap) ∧ r = gap ++ ((c :: w) ++ z) := by
  obtain ⟨d, rfl, hrest⟩ | ⟨d, rfl, -⟩ := List.append_eq_append_iff.mp h
  · obtain ⟨e, hword, hbehind⟩ | ⟨gap, rfl, hgap⟩ := List.append_eq_append_iff.mp hrest.symm
    · cases d with
      | nil => simp at hbefore
      | cons f d =>
          obtain ⟨rfl, rfl⟩ := List.cons.inj hword
          cases e with
          | nil =>
              have hwhole : r = (c :: d) ++ z := by simpa using hbehind.symm
              exact ⟨[], by simp, by simpa using hwhole⟩
          | cons f e =>
              obtain ⟨rfl, -⟩ := List.cons.inj hbehind
              exact absurd (List.mem_append_right d List.mem_cons_self) hhead
    · exact ⟨gap, rfl, hgap⟩
  · rw [List.length_append] at hbefore
    omega

/-- A word whose first letter comes once in it closes every body that does not hold it. -/
theorem closedBy_of_head (hhead : c ∉ w) (hnone : ¬ (c :: w) <:+: b) : ClosedBy (c :: w) b := by
  intro x y hsplit
  by_contra hy
  have hshort : x.length < b.length := by
    have hlength := congrArg List.length hsplit
    have hpos := List.length_pos_of_ne_nil hy
    simp only [List.length_append] at hlength
    omega
  have hsame : x ++ ((c :: w) ++ y) = b ++ ((c :: w) ++ []) := by
    rw [List.append_nil]
    exact hsplit.symm
  obtain ⟨gap, rfl, -⟩ := exists_gap hhead hsame hshort
  exact hnone ⟨x, gap, by rw [List.append_assoc]⟩

/-- A word is not in a text that lacks its first character. -/
theorem infix_of_head (hhead : c ∉ a) (h : (c :: w) <:+: a ++ b) : (c :: w) <:+: b := by
  induction a with
  | nil => exact h
  | cons d a ih =>
      obtain ⟨hd, hrest⟩ := not_or.mp fun hmem => hhead (List.mem_cons.mpr hmem)
      rcases List.infix_cons_iff.mp h with hstart | hinside
      · exact absurd (List.cons_prefix_cons.mp hstart).1 hd
      · exact ih hrest hinside

/-- A word without the character that stands between two texts is in one of them. -/
theorem infix_split (hword : c ∉ w) (h : w <:+: a ++ c :: b) : w <:+: a ∨ w <:+: b := by
  induction a with
  | nil =>
      rcases List.infix_cons_iff.mp h with hstart | hinside
      · cases w with
        | nil => exact .inl List.nil_infix
        | cons d w =>
            obtain ⟨rfl, -⟩ := List.cons_prefix_cons.mp hstart
            exact absurd List.mem_cons_self hword
      · exact .inr hinside
  | cons d a ih =>
      rcases List.infix_cons_iff.mp h with hstart | hinside
      · have hshort : w <+: d :: a := by
          by_cases hlength : w.length ≤ (d :: a).length
          · exact List.prefix_of_prefix_length_le hstart (List.prefix_append (d :: a) (c :: b))
              hlength
          · obtain ⟨y, hy⟩ := List.prefix_of_prefix_length_le
              (List.prefix_append (d :: a) (c :: b)) hstart (by omega)
            cases y with
            | nil =>
                rw [← hy, List.append_nil] at hlength
                exact absurd (le_refl _) hlength
            | cons e y =>
                rw [← hy] at hstart
                have hnext := (List.prefix_append_right_inj _).mp hstart
                obtain ⟨rfl, -⟩ := List.cons_prefix_cons.mp hnext
                exact absurd (hy ▸ List.mem_append_right _ List.mem_cons_self) hword
        exact .inl hshort.isInfix
      · exact (ih hinside).imp_left List.infix_cons

end Heads

section Sections

variable {κ : Type} (opening closing : κ → List Char) (Fits : List Char → Prop)

/-- The text of the sections. -/
def joined (sections : List (κ × List Char)) : List Char :=
  sections.flatMap fun s => opening s.1 ++ (s.2 ++ closing s.1)

/-- Sections that a reader finds: every body fits and is closed where it ends. -/
def Legible (sections : List (κ × List Char)) : Prop :=
  ∀ s ∈ sections, Fits s.2 ∧ ClosedBy (closing s.1) s.2

/-- Up to some section all is legible.  That one holds its closing word too early, behind `body`,
and what follows there reads as the sections that are left. -/
def Misread (sections : List (κ × List Char)) : Prop :=
  ∃ before key whole later body rest others, sections = before ++ (key, whole) :: later ∧
    Legible closing Fits before ∧
    whole ++ closing key = body ++ (closing key ++ rest) ∧ rest ≠ [] ∧
    Fits body ∧ ClosedBy (closing key) body ∧
    Legible closing Fits others ∧ others.map Prod.fst = later.map Prod.fst ∧
    rest ++ joined opening closing later = joined opening closing others

variable {opening closing Fits}

/-- The first section, then the others. -/
theorem joined_cons (s : κ × List Char) (sections : List (κ × List Char)) :
    joined opening closing (s :: sections) =
      opening s.1 ++ (s.2 ++ (closing s.1 ++ joined opening closing sections)) := by
  simp [joined]

/-- Sections written one after another are written together. -/
theorem joined_append (a b : List (κ × List Char)) :
    joined opening closing (a ++ b) = joined opening closing a ++ joined opening closing b :=
  List.flatMap_append

/-- Two bodies before one closing word: the same, or one closes early. -/
theorem closed_cases {word a b r z : List Char} (h : a ++ (word ++ r) = b ++ (word ++ z)) :
    (∃ y, y ≠ [] ∧ b ++ word = a ++ (word ++ y) ∧ r = y ++ z) ∨ (a = b ∧ r = z) ∨
      ∃ y, y ≠ [] ∧ a ++ word = b ++ (word ++ y) := by
  have hlength := congrArg List.length h
  simp only [List.length_append] at hlength
  rw [← List.append_assoc, ← List.append_assoc] at h
  rcases List.append_eq_append_iff.mp h with ⟨y, hlong, hrest⟩ | ⟨y, hlong, hrest⟩
  · by_cases hy : y = []
    · subst hy
      rw [List.append_nil] at hlong
      exact .inr (.inl ⟨(List.append_cancel_right hlong).symm, hrest⟩)
    · exact .inl ⟨y, hy, by rw [hlong, List.append_assoc], hrest⟩
  · by_cases hy : y = []
    · subst hy
      rw [List.append_nil] at hlong
      exact .inr (.inl ⟨List.append_cancel_right hlong, hrest.symm⟩)
    · exact .inr (.inr ⟨y, hy, by rw [hlong, List.append_assoc]⟩)

/-- A second reading of the sections is a misreading. -/
theorem misread_of_reading {sections others : List (κ × List Char)}
    (hlegible : Legible closing Fits others)
    (hkeys : others.map Prod.fst = sections.map Prod.fst)
    (htext : joined opening closing others = joined opening closing sections)
    (hother : others ≠ sections) : Misread opening closing Fits sections := by
  induction sections generalizing others with
  | nil => exact absurd (List.map_eq_nil_iff.mp hkeys) hother
  | cons s sections ih =>
      obtain ⟨key, whole⟩ := s
      cases others with
      | nil => cases hkeys
      | cons o others =>
          obtain ⟨k, body⟩ := o
          obtain ⟨rfl, hnames⟩ := List.cons.inj hkeys
          obtain ⟨⟨hfits, hclosed⟩, hlater⟩ := List.forall_mem_cons.mp hlegible
          rw [joined_cons, joined_cons] at htext
          obtain ⟨y, hy, hwhole, hrest⟩ | ⟨rfl, hrest⟩ | ⟨y, hy, hbody⟩ :=
            closed_cases (List.append_cancel_left htext)
          · exact ⟨[], k, whole, sections, body, y, others, rfl, nofun, hwhole, hy, hfits, hclosed,
              hlater, hnames, hrest.symm⟩
          · have hothers : others ≠ sections := by
              rintro rfl
              exact hother rfl
            obtain ⟨before, key, whole, later, inner, rest, more, rfl, hbefore, hmisread⟩ :=
              ih hlater hnames hrest hothers
            refine ⟨(k, body) :: before, key, whole, later, inner, rest, more, rfl, ?_, hmisread⟩
            exact List.forall_mem_cons.mpr ⟨⟨hfits, hclosed⟩, hbefore⟩
          · exact absurd (hclosed whole y hbody) hy

/-- **Unique reading.**  The sections are the only legible reading of their text exactly if they
cannot be misread. -/
theorem reading_unique_iff {sections : List (κ × List Char)} :
    (∀ others, Legible closing Fits others → others.map Prod.fst = sections.map Prod.fst →
      joined opening closing others = joined opening closing sections → others = sections) ↔
      ¬ Misread opening closing Fits sections := by
  constructor
  · intro hunique hmisread
    obtain ⟨before, key, whole, later, body, rest, others, rfl, hbefore, hwhole, hrest, hfits,
      hclosed, hothers, hkeys, htext⟩ := hmisread
    have hsame := hunique (before ++ (key, body) :: others)
      (List.forall_mem_append.mpr ⟨hbefore, List.forall_mem_cons.mpr ⟨⟨hfits, hclosed⟩, hothers⟩⟩)
      (by simp [hkeys]) (by
        rw [joined_append, joined_append, joined_cons, joined_cons, ← htext]
        have hline := congrArg (· ++ joined opening closing later) hwhole
        simp only [List.append_assoc] at hline
        rw [hline])
    obtain ⟨hpair, -⟩ := List.cons.inj (List.append_cancel_left hsame)
    obtain rfl : body = whole := (Prod.mk.inj hpair).2
    have hlength := congrArg List.length hwhole
    have hpos := List.length_pos_of_ne_nil hrest
    simp only [List.length_append] at hlength
    omega
  · intro hnot others hlegible hkeys htext
    by_contra hother
    exact hnot (misread_of_reading hlegible hkeys htext hother)

/-- Legible sections cannot be misread. -/
theorem Legible.not_misread {sections : List (κ × List Char)}
    (h : Legible closing Fits sections) : ¬ Misread opening closing Fits sections := by
  rintro ⟨before, key, whole, later, body, rest, others, rfl, -, hwhole, hrest, -⟩
  have hclosed := (h (key, whole) (List.mem_append_right before List.mem_cons_self)).2
  exact hrest (hclosed body rest hwhole)

end Sections

end Text
