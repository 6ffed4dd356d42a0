import HomelabMcp.Redaction

/-!
# Which places a redaction hides

A value that occurs in a text is replaced there when its turn comes, unless something took a part
of it before: the replacement of an earlier value, or of the value itself a few places to the left.
Such a replacement may also start or end in a marker, so that it is no occurrence in the text.

`Met` says of an occurrence, in terms of the text and of the values, that nothing can take a part
of it.

* `Met.hidden`: of an occurrence that is met nothing is left.

A replacement moves no piece and duplicates none (`Replaces.origins_sublist`), leaves every block
whole that it takes nothing of (`Replaces.block_kept`), and a copied piece stands next to an
inserted one only at an end of a marker (`Edges`).
-/

namespace Redaction

variable {marker value : List Char} {n : Nat} {pieces out block found : List Piece}

/-- The places that pieces were copied from. -/
def origins (pieces : List Piece) : List Nat := pieces.filterMap Piece.origin

/-- The places of both stretches. -/
theorem origins_append (a b : List Piece) : origins (a ++ b) = origins a ++ origins b :=
  List.filterMap_append

/-- What is inserted has no place. -/
theorem origins_inserted (marker : List Char) : origins (inserted marker) = [] := by
  induction marker with
  | nil => rfl
  | cons c marker ih => exact ih

/-- A place that is there is that of a character. -/
theorem mem_origins {i : Nat} : i ∈ origins pieces ↔ ∃ p ∈ pieces, p.origin = some i :=
  List.mem_filterMap

/-- A copy goes on where it stopped. -/
theorem copyFrom_append (place : Nat) (a b : List Char) :
    copyFrom place (a ++ b) = copyFrom place a ++ copyFrom (place + a.length) b := by
  induction a generalizing place with
  | nil => rfl
  | cons c a ih =>
      have hplace : place + (a.length + 1) = place + 1 + a.length := by omega
      simp only [List.cons_append, copyFrom, ih, List.length_cons, hplace]

/-- A copy is as long as what is copied. -/
theorem length_copyFrom (place : Nat) (cs : List Char) : (copyFrom place cs).length = cs.length := by
  have htext := congrArg List.length (text_copyFrom place cs)
  rwa [text, List.length_map] at htext

/-- Its places follow each other. -/
theorem origins_copyFrom (place : Nat) (cs : List Char) :
    origins (copyFrom place cs) = List.range' place cs.length := by
  induction cs generalizing place with
  | nil => rfl
  | cons c cs ih =>
      rw [List.length_cons, List.range'_succ, ← ih]
      rfl

/-- No place comes twice. -/
theorem nodup_origins_copyFrom (place : Nat) (cs : List Char) :
    (origins (copyFrom place cs)).Nodup := by
  rw [origins_copyFrom]
  exact List.nodup_range'

/-- A run of a text is copied from one place on. -/
theorem infix_copyFrom {w : List Piece} {cs : List Char} (h : w <:+: copyFrom 0 cs) :
    ∃ start, w = copyFrom start (text w) ∧ text w <+: cs.drop start := by
  obtain ⟨before, after, hsplit⟩ := h
  have hcs : cs = text before ++ text w ++ text after := by
    rw [← text_append, ← text_append, hsplit, text_copyFrom]
  have hparts := hsplit
  rw [hcs, copyFrom_append, copyFrom_append, Nat.zero_add, List.append_assoc,
    List.append_assoc] at hparts
  have hbefore : before.length = (copyFrom 0 (text before)).length := by
    rw [length_copyFrom, text, List.length_map]
  have hw : w.length = (copyFrom (text before).length (text w)).length := by
    rw [length_copyFrom, text, List.length_map]
  obtain ⟨-, hrest⟩ := List.append_inj hparts hbefore
  obtain ⟨hrun, -⟩ := List.append_inj hrest hw
  refine ⟨(text before).length, hrun, ?_⟩
  rw [hcs, List.append_assoc, List.drop_left]
  exact List.prefix_append _ _

namespace Replaces

/-- The copied pieces stay in their order. -/
theorem origins_sublist (h : Replaces marker value n pieces out) :
    (origins out).Sublist (origins pieces) := by
  induction h with
  | nil => exact List.Sublist.refl _
  | @keep n p pieces out hmiss h ih =>
      unfold origins at ih ⊢
      cases horigin : p.origin with
      | none => rwa [List.filterMap_cons_none horigin, List.filterMap_cons_none horigin]
      | some i =>
          rw [List.filterMap_cons_some horigin, List.filterMap_cons_some horigin]
          exact ih.cons_cons i
  | hit hfound h ih =>
      rw [origins_append, origins_append, origins_inserted, List.nil_append]
      exact ih.trans (List.sublist_append_right _ _)

end Replaces

/-- Where a copied piece and one of a marker meet, there is an end of a marker. -/
def Edges (marker : List Char) (pieces : List Piece) : Prop :=
  ∀ p q, [p, q] <:+: pieces →
    (p.origin = none → q.origin ≠ none → p.char ∈ marker.getLast?) ∧
      (p.origin ≠ none → q.origin = none → q.char ∈ marker.head?)

/-- A part has the edges of the whole. -/
theorem Edges.part (h : Edges marker pieces) (hpart : block <:+: pieces) : Edges marker block :=
  fun p q hpair => h p q (hpair.trans hpart)

/-- What is copied has no edges. -/
theorem Edges.of_copied (h : Copied pieces) : Edges marker pieces := by
  intro p q hpair
  have hp : p.origin ≠ none := h p (hpair.subset List.mem_cons_self)
  have hq : q.origin ≠ none := h q (hpair.subset (List.mem_cons_of_mem p List.mem_cons_self))
  exact ⟨fun hnone => absurd hnone hp, fun _ hnone => absurd hnone hq⟩

/-- After a marker, the pieces may go on as they would. -/
theorem Edges.inserted_append (h : Edges marker out) {last : List Char} (hlast : last <:+ marker) :
    Edges marker (inserted last ++ out) := by
  induction last with
  | nil => exact h
  | cons c last ih =>
      have hrest := ih ((List.suffix_cons c last).trans hlast)
      intro p q hpair
      rcases List.infix_cons_iff.mp hpair with hstart | hinner
      · obtain ⟨rfl, hnext⟩ := List.cons_prefix_cons.mp hstart
        refine ⟨fun _ hq => ?_, fun hp => absurd rfl hp⟩
        cases last with
        | nil =>
            obtain ⟨start, rfl⟩ := hlast
            simp
        | cons d last =>
            obtain ⟨rfl, -⟩ := List.cons_prefix_cons.mp hnext
            exact absurd rfl hq
      · exact hrest p q hinner

/-- What stands first was first before, or starts a marker. -/
theorem Replaces.head (h : Replaces marker value n pieces out) (hmarker : marker ≠ []) {q : Piece}
    (hq : [q] <+: out) : [q] <+: pieces ∨ q.origin = none ∧ q.char ∈ marker.head? := by
  cases h with
  | nil => exact .inl hq
  | keep hmiss h =>
      obtain ⟨rfl, -⟩ := List.cons_prefix_cons.mp hq
      exact .inl (List.prefix_append [q] _)
  | hit hfound h =>
      obtain ⟨c, marker, rfl⟩ := List.exists_cons_of_ne_nil hmarker
      obtain ⟨rfl, -⟩ := List.cons_prefix_cons.mp hq
      exact .inr ⟨rfl, rfl⟩

/-- Replacing keeps the edges whole. -/
theorem Replaces.edges (h : Replaces marker value n pieces out) (hmarker : marker ≠ [])
    (hedges : Edges marker pieces) : Edges marker out := by
  induction h with
  | nil => exact hedges
  | @keep n p pieces out hmiss h ih =>
      have hrest := ih (hedges.part (List.suffix_cons p pieces).isInfix)
      intro q r hpair
      rcases List.infix_cons_iff.mp hpair with hstart | hinner
      · obtain ⟨rfl, hnext⟩ := List.cons_prefix_cons.mp hstart
        rcases h.head hmarker hnext with hbefore | ⟨hnone, hchar⟩
        · exact hedges q r (List.cons_prefix_cons.mpr ⟨rfl, hbefore⟩).isInfix
        · exact ⟨fun _ hsome => absurd hnone hsome, fun _ _ => hchar⟩
      · exact hrest q r hinner
  | @hit n found pieces out hfound h ih =>
      have hrest := ih (hedges.part (List.suffix_append found pieces).isInfix)
      exact hrest.inserted_append List.suffix_rfl

/-- A match that was replaced and that has a place in common with the block behind `start`: it has
gone, with every place it was copied from. -/
structure Taken (value : List Char) (pieces out start block found : List Piece) : Prop where
  text_eq : text found = value
  overlap : ∃ before after, pieces = before ++ found ++ after ∧
    before.length < start.length + block.length ∧ start.length < before.length + found.length
  gone : ∀ i ∈ origins found, i ∉ origins out

/-- What is taken stood there. -/
theorem Taken.found_infix {start : List Piece} (h : Taken value pieces out start block found) :
    found <:+: pieces := by
  obtain ⟨before, after, hsplit, -, -⟩ := h.overlap
  exact ⟨before, after, hsplit.symm⟩

/-- The block lies in the match, over its end, over its start, or around it. -/
theorem Taken.cases {start last : List Piece} (h : Taken value pieces out start block found)
    (hblock : pieces = start ++ block ++ last) :
    (∃ u w, found = u ++ block ++ w) ∨
      (∃ u v w, found = u ++ v ∧ block = v ++ w ∧ v ≠ [] ∧ w ≠ []) ∨
      (∃ u v w, block = u ++ v ∧ found = v ++ w ∧ u ≠ [] ∧ v ≠ []) ∨
      ∃ u w, block = u ++ found ++ w := by
  obtain ⟨before, after, hfound, hleft, hright⟩ := h.overlap
  have hsplit : before ++ (found ++ after) = start ++ (block ++ last) := by
    rw [← List.append_assoc, ← List.append_assoc, ← hfound, hblock]
  rcases List.append_eq_append_iff.mp hsplit with ⟨a, rfl, hrest⟩ | ⟨a, rfl, hrest⟩
  · rcases List.append_eq_append_iff.mp hrest with ⟨d, rfl, -⟩ | ⟨d, rfl, hmore⟩
    · simp only [List.length_append] at hright
      omega
    · have hd : d ≠ [] := by
        rintro rfl
        simp at hright
      rcases List.append_eq_append_iff.mp hmore with ⟨e, rfl, -⟩ | ⟨e, rfl, -⟩
      · exact .inl ⟨a, e, by simp⟩
      · by_cases he : e = []
        · subst he
          exact .inl ⟨a, [], by simp⟩
        · exact .inr (.inl ⟨a, d, e, rfl, rfl, hd, he⟩)
  · rcases List.append_eq_append_iff.mp hrest with ⟨d, rfl, -⟩ | ⟨d, rfl, hmore⟩
    · simp only [List.length_append] at hleft
      omega
    · have hd : d ≠ [] := by
        rintro rfl
        simp at hleft
      rcases List.append_eq_append_iff.mp hmore with ⟨e, rfl, -⟩ | ⟨e, rfl, -⟩
      · exact .inr (.inr (.inr ⟨a, e, by simp⟩))
      · by_cases ha : a = []
        · subst ha
          exact .inl ⟨[], e, by simp⟩
        · exact .inr (.inr (.inl ⟨a, d, e, rfl, rfl, ha, hd⟩))

/-- The match and the block have a piece in common. -/
theorem Taken.common {start last : List Piece} (h : Taken value pieces out start block found)
    (hblock : pieces = start ++ block ++ last) (hvalue : value ≠ []) (hne : block ≠ []) :
    ∃ p ∈ found, p ∈ block := by
  rcases h.cases hblock with ⟨u, w, rfl⟩ | ⟨u, v, w, rfl, rfl, hv, -⟩ | ⟨u, v, w, rfl, rfl, -, hv⟩ |
    ⟨u, w, rfl⟩
  · obtain ⟨p, hp⟩ := List.exists_mem_of_ne_nil block hne
    exact ⟨p, List.mem_append_left w (List.mem_append_right u hp), hp⟩
  · obtain ⟨p, hp⟩ := List.exists_mem_of_ne_nil v hv
    exact ⟨p, List.mem_append_right u hp, List.mem_append_left w hp⟩
  · obtain ⟨p, hp⟩ := List.exists_mem_of_ne_nil v hv
    exact ⟨p, List.mem_append_left w hp, List.mem_append_right u hp⟩
  · have hfound : found ≠ [] := by
      rintro rfl
      exact hvalue h.text_eq.symm
    obtain ⟨p, hp⟩ := List.exists_mem_of_ne_nil found hfound
    exact ⟨p, hp, List.mem_append_left w (List.mem_append_right u hp)⟩

/-- A place of a part behind a piece is not the place of that piece. -/
theorem origin_ne {p : Piece} (hplaces : (origins (p :: pieces)).Nodup) (hpart : found <:+: pieces) :
    ∀ i ∈ origins found, p.origin ≠ some i := by
  intro i hi horigin
  rw [origins, List.filterMap_cons_some horigin, List.nodup_cons] at hplaces
  obtain ⟨q, hq, hqi⟩ := mem_origins.mp hi
  exact hplaces.1 (mem_origins.mpr ⟨q, hpart.subset hq, hqi⟩)

/-- A place is the first one's, or one of the others'. -/
theorem mem_origins_cons {p : Piece} {i : Nat} :
    i ∈ origins (p :: pieces) ↔ p.origin = some i ∨ i ∈ origins pieces := by
  simp only [mem_origins, List.mem_cons, exists_eq_or_imp]

/-- A block stays whole, unless a match took a part of it. -/
theorem Replaces.block_kept (h : Replaces marker value n pieces out) (hvalue : value ≠ [])
    (hplaces : (origins pieces).Nodup) {start last : List Piece}
    (hblock : pieces = start ++ block ++ last) :
    (block <:+: out ∧ (start = [] → block <+: out)) ∨
      ∃ found, Taken value pieces out start block found := by
  induction h generalizing start block with
  | nil =>
      have hnil : block = [] :=
        (List.append_eq_nil_iff.mp (List.append_eq_nil_iff.mp hblock.symm).1).2
      subst hnil
      exact .inl ⟨List.nil_infix, fun _ => List.nil_prefix⟩
  | @keep n p pieces out hmiss h ih =>
      have hrest : (origins pieces).Nodup :=
        hplaces.sublist ((List.sublist_cons_self p pieces).filterMap _)
      have hcons : ∀ {start block found}, Taken value pieces out start block found →
          ∀ i ∈ origins found, i ∉ origins (p :: out) := by
        intro start block found htaken i hi hout
        rcases mem_origins_cons.mp hout with hp | hout
        · exact origin_ne hplaces htaken.found_infix i hi hp
        · exact htaken.gone i hi hout
      cases start with
      | cons q start =>
          obtain ⟨rfl, hpieces⟩ := List.cons.inj hblock
          rcases ih hrest hpieces with ⟨hkept, -⟩ | ⟨found, htaken⟩
          · exact .inl ⟨List.infix_cons hkept, fun hnil => absurd hnil (List.cons_ne_nil _ _)⟩
          · obtain ⟨before, after, hsplit, hleft, hright⟩ := htaken.overlap
            refine .inr ⟨found, htaken.text_eq, ⟨p :: before, after, by rw [hsplit]; rfl, ?_, ?_⟩,
              hcons htaken⟩
            · simp only [List.length_cons]
              omega
            · simp only [List.length_cons]
              omega
      | nil =>
          cases block with
          | nil => exact .inl ⟨List.nil_infix, fun _ => List.nil_prefix⟩
          | cons q block =>
              obtain ⟨rfl, hpieces⟩ := List.cons.inj hblock
              have hpieces : pieces = [] ++ block ++ last := hpieces
              rcases ih hrest hpieces with ⟨-, hkept⟩ | ⟨found, htaken⟩
              · have hstart : p :: block <+: p :: out :=
                  List.cons_prefix_cons.mpr ⟨rfl, hkept rfl⟩
                exact .inl ⟨hstart.isInfix, fun _ => hstart⟩
              · obtain ⟨before, after, hsplit, hleft, hright⟩ := htaken.overlap
                refine .inr ⟨found, htaken.text_eq, ⟨p :: before, after, by rw [hsplit]; rfl, ?_, ?_⟩,
                  hcons htaken⟩
                · simp only [List.length_cons] at hleft ⊢
                  omega
                · simp only [List.length_cons, List.length_nil] at hright ⊢
                  omega
  | @hit n found pieces out hfound h ih =>
      have hsplit := hplaces
      rw [origins_append, List.nodup_append] at hsplit
      have hpos : found ≠ [] := by
        rintro rfl
        exact hvalue hfound.symm
      by_cases hnil : block = []
      · subst hnil
        exact .inl ⟨List.nil_infix, fun _ => List.nil_prefix⟩
      by_cases hover : start.length < found.length
      · refine .inr ⟨found, hfound, ⟨[], pieces, rfl, ?_, ?_⟩, ?_⟩
        · have hblockpos := List.length_pos_of_ne_nil hnil
          simp only [List.length_nil]
          omega
        · simpa using hover
        · intro i hi hout
          rw [origins_append, origins_inserted, List.nil_append] at hout
          exact hsplit.2.2 i hi i (h.origins_sublist.subset hout) rfl
      · obtain ⟨start, rfl⟩ : ∃ rest, start = found ++ rest := by
          rw [List.append_assoc] at hblock
          rcases List.append_eq_append_iff.mp hblock with ⟨a, ha, -⟩ | ⟨a, ha, -⟩
          · exact ⟨a, ha⟩
          · have hlength := congrArg List.length ha
            simp only [List.length_append] at hlength
            have hzero : a = [] := List.eq_nil_of_length_eq_zero (by omega)
            subst hzero
            exact ⟨[], by rw [List.append_nil, ha, List.append_nil]⟩
        have hpieces : pieces = start ++ block ++ last := by
          rw [List.append_assoc, List.append_assoc, List.append_cancel_left_eq] at hblock
          rw [hblock, List.append_assoc]
        rcases ih hsplit.2.1 hpieces with ⟨hkept, -⟩ | ⟨match_, htaken⟩
        · refine .inl ⟨hkept.trans (List.suffix_append _ _).isInfix, fun hempty => ?_⟩
          exact absurd (List.append_eq_nil_iff.mp hempty).1 hpos
        · obtain ⟨before, after, hparts, hleft, hright⟩ := htaken.overlap
          refine .inr ⟨match_, htaken.text_eq, ⟨found ++ before, after, by simp [hparts], ?_, ?_⟩, ?_⟩
          · simp only [List.length_append]
            omega
          · simp only [List.length_append]
            omega
          · intro i hi hout
            rw [origins_append, origins_inserted, List.nil_append] at hout
            exact htaken.gone i hi hout

/-- Before a copied run, the last piece of a marker ends it. -/
theorem Edges.getLast_mem {u v : List Piece} (h : Edges marker (u ++ v)) (hv : Copied v)
    (hne : v ≠ []) (hu : ∃ p ∈ u, p.origin = none) : ∃ p ∈ u, p.char ∈ marker.getLast? := by
  induction u with
  | nil =>
      obtain ⟨p, hp, -⟩ := hu
      exact absurd hp List.not_mem_nil
  | cons p u ih =>
      by_cases hmore : ∃ q ∈ u, q.origin = none
      · obtain ⟨q, hq, hchar⟩ := ih (h.part (List.suffix_cons p (u ++ v)).isInfix) hmore
        exact ⟨q, List.mem_cons_of_mem p hq, hchar⟩
      · have hp : p.origin = none := by
          obtain ⟨q, hq, hnone⟩ := hu
          rcases List.mem_cons.mp hq with rfl | hq
          · exact hnone
          · exact absurd ⟨q, hq, hnone⟩ hmore
        obtain ⟨q, rest, hrest⟩ : ∃ q rest, u ++ v = q :: rest :=
          List.exists_cons_of_ne_nil (List.append_ne_nil_of_right_ne_nil u hne)
        have hq : q.origin ≠ none := by
          have hmem : q ∈ u ++ v := hrest ▸ List.mem_cons_self
          rcases List.mem_append.mp hmem with hmem | hmem
          · exact fun hnone => hmore ⟨q, hmem, hnone⟩
          · exact hv q hmem
        have hpair : [p, q] <:+: p :: u ++ v := by
          rw [List.cons_append, hrest]
          exact (List.prefix_append [p, q] rest).isInfix
        exact ⟨p, List.mem_cons_self, (h p q hpair).1 hp hq⟩

/-- Behind a copied run, the first piece of a marker starts it. -/
theorem Edges.head_mem {v w : List Piece} (h : Edges marker (v ++ w)) (hv : Copied v) (hne : v ≠ [])
    (hw : ∃ p ∈ w, p.origin = none) : ∃ p ∈ w, p.char ∈ marker.head? := by
  induction w generalizing v with
  | nil =>
      obtain ⟨p, hp, -⟩ := hw
      exact absurd hp List.not_mem_nil
  | cons p w ih =>
      by_cases hp : p.origin = none
      · have hlast : v.getLast hne ∈ v := List.getLast_mem hne
        have hpair : [v.getLast hne, p] <:+: v ++ p :: w := by
          refine ⟨v.dropLast, w, ?_⟩
          conv_rhs => rw [← List.dropLast_append_getLast hne]
          simp
        exact ⟨p, List.mem_cons_self, (h _ p hpair).2 (hv _ hlast) hp⟩
      · have hcopied : Copied (v ++ [p]) := by
          intro q hq
          rcases List.mem_append.mp hq with hq | hq
          · exact hv q hq
          · rwa [List.mem_singleton.mp hq]
        have hmore : ∃ q ∈ w, q.origin = none := by
          obtain ⟨q, hq, hnone⟩ := hw
          rcases List.mem_cons.mp hq with rfl | hq
          · exact absurd hnone hp
          · exact ⟨q, hq, hnone⟩
        obtain ⟨q, hq, hchar⟩ := ih (v := v ++ [p]) (by simpa using h) hcopied (by simp) hmore
        exact ⟨q, List.mem_cons_of_mem p hq, hchar⟩

/-- No match of the one value that starts in a marker covers only a start of the other. -/
def ClearBefore (marker other value : List Char) : Prop :=
  ∀ k < value.length, 0 < k ∧ value.take k <:+ other →
    ∀ c ∈ marker.getLast?, c ∉ other.take (other.length - k)

/-- No match of the one value that ends in a marker covers only an end of the other. -/
def ClearAfter (marker other value : List Char) : Prop :=
  ∀ k < value.length, 0 < k ∧ value.drop k <+: other →
    ∀ c ∈ marker.head?, c ∉ other.drop (value.length - k)

/-- No match of the one value that starts or ends in a marker covers only a part of the other. -/
def Clear (marker other value : List Char) : Prop :=
  ClearBefore marker other value ∧ ClearAfter marker other value

/-- That nothing before runs into a value is decidable. -/
instance (marker other value : List Char) : Decidable (ClearBefore marker other value) :=
  inferInstanceAs (Decidable (∀ k < value.length, 0 < k ∧ value.take k <:+ other →
    ∀ c ∈ marker.getLast?, c ∉ other.take (other.length - k)))

/-- So is that nothing after does. -/
instance (marker other value : List Char) : Decidable (ClearAfter marker other value) :=
  inferInstanceAs (Decidable (∀ k < value.length, 0 < k ∧ value.drop k <+: other →
    ∀ c ∈ marker.head?, c ∉ other.drop (value.length - k)))

/-- And both. -/
instance (marker other value : List Char) : Decidable (Clear marker other value) :=
  inferInstanceAs (Decidable (ClearBefore marker other value ∧ ClearAfter marker other value))

/-- A match with a marker in it that has a place of a copied block contains the block. -/
theorem Taken.contains {start last : List Piece} {other : List Char}
    (h : Taken other pieces out start block found) (hblock : pieces = start ++ block ++ last)
    (hedges : Edges marker pieces) (hcopied : Copied block)
    (hclear : Clear marker other (text block)) (hjoined : ∃ p ∈ found, p.origin = none) :
    ∃ u w, found = u ++ block ++ w := by
  have hfound := hedges.part h.found_infix
  have hother := h.text_eq
  rcases h.cases hblock with hinside | ⟨u, v, w, rfl, rfl, hv, hw⟩ | ⟨u, v, w, rfl, rfl, hu, hv⟩ |
    ⟨u, w, rfl⟩
  · exact hinside
  · -- The match covers a start of the block.
    exfalso
    have hcopiedv : Copied v := fun p hp => hcopied p (List.mem_append_left w hp)
    have hinserted : ∃ p ∈ u, p.origin = none := by
      obtain ⟨p, hp, hnone⟩ := hjoined
      rcases List.mem_append.mp hp with hp | hp
      · exact ⟨p, hp, hnone⟩
      · exact absurd hnone (hcopiedv p hp)
    obtain ⟨p, hp, hchar⟩ := hfound.getLast_mem hcopiedv hv hinserted
    have hpos := List.length_pos_of_ne_nil hv
    have hmore := List.length_pos_of_ne_nil hw
    have hk : (text v).length < (text (v ++ w)).length := by
      simp only [text, List.length_map, List.length_append]
      omega
    have hstart : (text (v ++ w)).take (text v).length <:+ other := by
      rw [← hother, text_append, text_append, List.take_left]
      exact List.suffix_append _ _
    have hnot := hclear.1 _ hk ⟨by simpa [text] using hpos, hstart⟩ p.char hchar
    rw [← hother, text_append, List.length_append, Nat.add_sub_cancel, List.take_left] at hnot
    exact hnot (List.mem_map_of_mem hp)
  · -- The match covers an end of the block.
    exfalso
    have hcopiedv : Copied v := fun p hp => hcopied p (List.mem_append_right u hp)
    have hinserted : ∃ p ∈ w, p.origin = none := by
      obtain ⟨p, hp, hnone⟩ := hjoined
      rcases List.mem_append.mp hp with hp | hp
      · exact absurd hnone (hcopiedv p hp)
      · exact ⟨p, hp, hnone⟩
    obtain ⟨p, hp, hchar⟩ := hfound.head_mem hcopiedv hv hinserted
    have hpos := List.length_pos_of_ne_nil hu
    have hmore := List.length_pos_of_ne_nil hv
    have hk : (text u).length < (text (u ++ v)).length := by
      simp only [text, List.length_map, List.length_append]
      omega
    have hend : (text (u ++ v)).drop (text u).length <+: other := by
      rw [← hother, text_append, text_append, List.drop_left]
      exact List.prefix_append _ _
    have hnot := hclear.2 _ hk ⟨by simpa [text] using hpos, hend⟩ p.char hchar
    rw [← hother, text_append, text_append, List.length_append, Nat.add_sub_cancel_left,
      List.drop_left] at hnot
    exact hnot (List.mem_map_of_mem hp)
  · -- A copied block has no marker in it.
    obtain ⟨p, hp, hnone⟩ := hjoined
    have hmem : p ∈ u ++ found ++ w :=
      List.mem_append_left w (List.mem_append_right u hp)
    exact absurd hnone (hcopied p hmem)

/-- The places where a value occurs in a text. -/
def places (value cs : List Char) : List Nat :=
  (List.range cs.length).filter fun start => value.isPrefixOf (cs.drop start)

/-- A place of a value is where the value begins. -/
theorem mem_places {cs : List Char} {start : Nat} (hvalue : value ≠ []) :
    start ∈ places value cs ↔ value <+: cs.drop start := by
  rw [places, List.mem_filter, List.mem_range, List.isPrefixOf_iff_prefix, and_iff_right_iff_imp]
  intro hstart
  have hlength := hstart.length_le
  have hpos := List.length_pos_of_ne_nil hvalue
  rw [List.length_drop] at hlength
  omega

/-- The place is in an occurrence of a value of the list. -/
def Secret (values : List String) (cs : List Char) (i : Nat) : Prop :=
  ∃ value ∈ values, ∃ start ∈ places value.toList cs, start ≤ i ∧ i < start + value.toList.length

/-- That a place is secret is decidable. -/
instance (values : List String) (cs : List Char) (i : Nat) : Decidable (Secret values cs i) :=
  inferInstanceAs (Decidable (∃ value ∈ values, ∃ start ∈ places value.toList cs,
    start ≤ i ∧ i < start + value.toList.length))

/-- The replacement of a value takes all of an occurrence or nothing: where the value has a place in
common with the occurrence, it contains it, and so does a match that starts or ends in a marker. -/
def TakesWhole (marker : List Char) (cs value : List Char) (start : Nat) (other : String) : Prop :=
  other ≠ "" ∧
    (∀ place ∈ places other.toList cs, place < start + value.length →
      start < place + other.toList.length →
      place ≤ start ∧ start + value.length ≤ place + other.toList.length) ∧
    Clear marker other.toList value

/-- So is that a value takes a place whole. -/
instance (marker cs value : List Char) (start : Nat) (other : String) :
    Decidable (TakesWhole marker cs value start other) :=
  inferInstanceAs (Decidable (other ≠ "" ∧
    (∀ place ∈ places other.toList cs, place < start + value.length →
      start < place + other.toList.length →
      place ≤ start ∧ start + value.length ≤ place + other.toList.length) ∧
    Clear marker other.toList value))

/-- An occurrence of a value that comes after others is met when its turn comes: none of them, and
no other occurrence of the value, takes only a part of it. -/
def Met (marker : List Char) (before : List String) (value : String) (cs : List Char)
    (start : Nat) : Prop :=
  start ∈ places value.toList cs ∧
    ∀ other ∈ before ++ [value], TakesWhole marker cs value.toList start other

/-- So is that a value is met. -/
instance (marker : List Char) (before : List String) (value : String) (cs : List Char)
    (start : Nat) : Decidable (Met marker before value cs start) :=
  inferInstanceAs (Decidable (start ∈ places value.toList cs ∧
    ∀ other ∈ before ++ [value], TakesWhole marker cs value.toList start other))

/-- The pieces of a text after some replacements. -/
structure Stage (marker cs : List Char) (pieces : List Piece) : Prop where
  copied : ∀ w, Copied w → w <:+: pieces → w <:+: copyFrom 0 cs
  edges : Edges marker pieces
  places : (origins pieces).Nodup

/-- The text as it was is a stage of itself. -/
theorem Stage.original (marker cs : List Char) : Stage marker cs (copyFrom 0 cs) where
  copied := fun _ _ hw => hw
  edges := .of_copied (copied_copyFrom 0 cs)
  places := nodup_origins_copyFrom 0 cs

variable {cs : List Char}

/-- Replacing one value gives another stage. -/
theorem Stage.replaces (h : Stage marker cs pieces) (hmarker : marker ≠ [])
    (hreplaces : Replaces marker value n pieces out) : Stage marker cs out where
  copied := fun w hw hpart => h.copied w hw (hreplaces.copied_run hmarker hw hpart)
  edges := hreplaces.edges hmarker h.edges
  places := h.places.sublist hreplaces.origins_sublist

/-- Nothing is left of these places. -/
def Gone (start length : Nat) (pieces : List Piece) : Prop :=
  ∀ i ∈ origins pieces, ¬ (start ≤ i ∧ i < start + length)

/-- A replacement takes all of the block or nothing. -/
theorem Stage.whole_or_gone {other : String} {start : Nat} (h : Stage marker cs pieces)
    (hreplaces : Replaces marker other.toList n pieces out)
    (htakes : TakesWhole marker cs value start other)
    (hblock : copyFrom start value <:+: pieces) :
    copyFrom start value <:+: out ∨ Gone start value.length out := by
  obtain ⟨hother, happart, hclear⟩ := htakes
  obtain ⟨first, last, hsplit⟩ := hblock
  have hnonempty : other.toList ≠ [] := by simpa using hother
  rcases hreplaces.block_kept hnonempty h.places hsplit.symm with ⟨hkept, -⟩ | ⟨found, htaken⟩
  · exact .inl hkept
  -- It is enough that the match has every place of the block.
  suffices hall : ∀ i, start ≤ i → i < start + value.length → i ∈ origins found from
    .inr fun i hi hrange => htaken.gone i (hall i hrange.1 hrange.2) hi
  have hblockPlaces : ∀ i, i ∈ origins (copyFrom start value) ↔
      start ≤ i ∧ i < start + value.length := by
    intro i
    rw [origins_copyFrom, List.mem_range'_1]
  by_cases hjoined : ∃ p ∈ found, p.origin = none
  · obtain ⟨u, w, rfl⟩ := htaken.contains hsplit.symm h.edges (copied_copyFrom start value)
      (by rwa [text_copyFrom]) hjoined
    intro i hle hlt
    rw [origins_append, origins_append]
    exact List.mem_append_left _ (List.mem_append_right _ ((hblockPlaces i).mpr ⟨hle, hlt⟩))
  · have hcopied : Copied found := fun p hp hnone => hjoined ⟨p, hp, hnone⟩
    obtain ⟨place, hrun, hoccurs⟩ := infix_copyFrom (h.copied found hcopied htaken.found_infix)
    rw [htaken.text_eq] at hrun hoccurs
    have hfoundPlaces : ∀ i, i ∈ origins found ↔ place ≤ i ∧ i < place + other.toList.length := by
      intro i
      rw [hrun, origins_copyFrom, List.mem_range'_1]
    intro i hle hlt
    have hblock : copyFrom start value ≠ [] := by
      have hpos : 0 < (copyFrom start value).length := by
        rw [length_copyFrom]
        omega
      exact List.ne_nil_of_length_pos hpos
    obtain ⟨p, hp, hpblock⟩ := htaken.common hsplit.symm hnonempty hblock
    obtain ⟨j, hj⟩ := Option.ne_none_iff_exists'.mp (hcopied p hp)
    have hinFound := (hfoundPlaces j).mp (mem_origins.mpr ⟨p, hp, hj⟩)
    have hinBlock := (hblockPlaces j).mp (mem_origins.mpr ⟨p, hpblock, hj⟩)
    have hcontains := happart place ((mem_places hnonempty).mpr hoccurs) (by omega) (by omega)
    exact (hfoundPlaces i).mpr ⟨by omega, by omega⟩

/-- What is gone stays gone. -/
theorem Gone.replaces {start length : Nat} (h : Gone start length pieces)
    (hreplaces : Replaces marker value n pieces out) : Gone start length out :=
  fun i hi => h i (hreplaces.origins_sublist.subset hi)

/-- Spreading the marker keeps the places. -/
theorem origins_spread (marker : List Char) (pieces : List Piece) :
    origins (spread marker pieces) = origins pieces := by
  rw [spread, origins_append, origins_inserted, List.nil_append]
  induction pieces with
  | nil => rfl
  | cons p pieces ih =>
      rw [List.flatMap_cons, List.cons_append]
      unfold origins at ih ⊢
      cases horigin : p.origin with
      | none =>
          rw [List.filterMap_cons_none horigin, List.filterMap_cons_none horigin,
            List.filterMap_append, ← ih]
          exact congrArg (· ++ _) (origins_inserted marker)
      | some i =>
          rw [List.filterMap_cons_some horigin, List.filterMap_cons_some horigin,
            List.filterMap_append, ← ih]
          exact congrArg (fun l => i :: (l ++ _)) (origins_inserted marker)

/-- What is gone stays gone through a list of values. -/
theorem Gone.redacts {values : List String} {start length : Nat} (h : Gone start length pieces)
    (hredacts : Redacts marker values n pieces out) : Gone start length out := by
  induction hredacts with
  | nil => exact h
  | value hvalue hreplaces hrest ih => exact ih (h.replaces hreplaces)
  | empty hrest ih =>
      refine ih fun i hi => h i ?_
      rwa [origins_spread] at hi

/-- The turns of the values before, and then that of the value. -/
theorem Stage.gone {before after : List String} {value : String} {start : Nat}
    (h : Stage marker cs pieces) (hmarker : marker ≠ [])
    (htakes : ∀ other ∈ before ++ [value], TakesWhole marker cs value.toList start other)
    (hblock : copyFrom start value.toList <:+: pieces)
    (hredacts : Redacts marker (before ++ value :: after) n pieces out) :
    Gone start value.toList.length out := by
  induction before generalizing pieces n with
  | nil =>
      have hself := htakes value List.mem_cons_self
      cases hredacts with
      | empty hrest => exact absurd rfl hself.1
      | value hvalue hreplaces hrest =>
          rcases h.whole_or_gone hreplaces hself hblock with hkept | hgone
          · have hnonempty : value.toList ≠ [] := by simpa using hvalue
            exact absurd (text_copyFrom start value.toList)
              (hreplaces.not_copied hmarker hnonempty (copied_copyFrom start _) hkept)
          · exact hgone.redacts hrest
  | cons other before ih =>
      have hother := htakes other List.mem_cons_self
      cases hredacts with
      | empty hrest => exact absurd rfl hother.1
      | value hvalue hreplaces hrest =>
          rcases h.whole_or_gone hreplaces hother hblock with hkept | hgone
          · exact ih (h.replaces hmarker hreplaces)
              (fun more hmore => htakes more (List.mem_cons_of_mem other hmore)) hkept hrest
          · exact hgone.redacts hrest

/-- **Of an occurrence that is met nothing is left.** -/
theorem Met.hidden {before after : List String} {value : String} {start : Nat}
    (h : Met marker before value cs start) (hmarker : marker ≠ [])
    (hredacts : Redacts marker (before ++ value :: after) n (copyFrom 0 cs) out) :
    Gone start value.toList.length out := by
  obtain ⟨hmem, htakes⟩ := h
  have hself := htakes value (List.mem_append_right before List.mem_cons_self)
  obtain ⟨last, hlast⟩ := (mem_places (by simpa using hself.1)).mp hmem
  refine (Stage.original marker cs).gone hmarker htakes ?_ hredacts
  have hstart : start < cs.length := List.mem_range.mp (List.mem_of_mem_filter hmem)
  have hlength : (cs.take start).length = start := by
    rw [List.length_take]
    omega
  have hcs : cs = cs.take start ++ value.toList ++ last := by
    rw [List.append_assoc, hlast, List.take_append_drop]
  rw [hcs, copyFrom_append, copyFrom_append, hlength, Nat.zero_add]
  exact List.infix_append _ _ _

/-- A character of a secret of the whole text is among the pieces. -/
def Discloses (values : List String) (whole : List Char) (pieces : List Piece) : Prop :=
  ∃ p ∈ pieces, ∃ i, p.origin = some i ∧ whole[i]? = some p.char ∧ Secret values whole i

/-- A place of a copy holds its own character. -/
theorem mem_copyFrom {p : Piece} {place i : Nat} (h : p ∈ copyFrom place cs)
    (hi : p.origin = some i) : place ≤ i ∧ cs[i - place]? = some p.char := by
  induction cs generalizing place with
  | nil => exact absurd h List.not_mem_nil
  | cons c cs ih =>
      rcases List.mem_cons.mp h with rfl | h
      · obtain rfl := Option.some.inj hi
        exact ⟨le_rfl, by rw [Nat.sub_self, List.getElem?_cons_zero]⟩
      · obtain ⟨hle, hchar⟩ := ih h
        refine ⟨by omega, ?_⟩
        rw [show i - place = i - (place + 1) + 1 by omega, List.getElem?_cons_succ]
        exact hchar

end Redaction
