import HomelabMcp.PercentCoding

/-!
# Written and read segments

Segments of unreserved characters are read back as they are written.  `extend` passes over dot
segments and loses tabs and line ends, and writes all others one by one.

* `pushes_iff`: what `extend` appends is each segment percent-encoded exactly if there is none of
  these.
-/

namespace WebUrl

/-- A character that no part of a URL encodes. -/
def isUnreserved (c : Char) : Bool := c.isAlphanum || ['-', '.', '_', '~'].contains c

/-- The codes of unreserved characters. -/
theorem isUnreserved_range {c : Char} (h : isUnreserved c = true) :
    45 ≤ c.toNat ∧ c.toNat ≤ 126 ∧ c.toNat ≠ 47 ∧ c.toNat ≠ 63 ∧ c.toNat ≠ 92 := by
  rw [isUnreserved, Bool.or_eq_true] at h
  rcases h with h | h
  · rw [Char.isAlphanum, Char.isAlpha, Bool.or_eq_true, Bool.or_eq_true] at h
    simp only [Char.isUpper, Char.isLower, Char.isDigit, Bool.and_eq_true, decide_eq_true_eq] at h
    rcases h with (⟨hlow, hhigh⟩ | ⟨hlow, hhigh⟩) | ⟨hlow, hhigh⟩
    · have hlow : 65 ≤ c.toNat := hlow
      have hhigh : c.toNat ≤ 90 := hhigh
      omega
    · have hlow : 97 ≤ c.toNat := hlow
      have hhigh : c.toNat ≤ 122 := hhigh
      omega
    · have hlow : 48 ≤ c.toNat := hlow
      have hhigh : c.toNat ≤ 57 := hhigh
      omega
  · simp only [List.contains_cons, List.contains_nil, Bool.or_false, Bool.or_eq_true,
      beq_iff_eq] at h
    rcases h with rfl | rfl | rfl | rfl <;> decide

/-- None is one of these. -/
theorem ne_of_isUnreserved {c d : Char} (h : isUnreserved c = true)
    (hd : d.toNat < 45 ∨ d.toNat = 47 ∨ d.toNat = 63 ∨ d.toNat = 92) : c ≠ d := by
  rintro rfl
  have hrange := isUnreserved_range h
  omega

/-- None is a control. -/
theorem not_isC0OrSpace {c : Char} (h : isUnreserved c = true) : isC0OrSpace c = false := by
  have hrange := isUnreserved_range h
  rw [isC0OrSpace, decide_eq_false_iff_not]
  omega

/-- None is a slash. -/
theorem not_isSlash {c : Char} (h : isUnreserved c = true) : isSlash c = false := by
  rw [isSlash, Bool.or_eq_false_iff, beq_eq_false_iff_ne, beq_eq_false_iff_ne]
  exact ⟨ne_of_isUnreserved h (by decide), ne_of_isUnreserved h (by decide)⟩

/-- None ends the path. -/
theorem not_endsPath {c : Char} (h : isUnreserved c = true) : endsPath c = false := by
  rw [endsPath, Bool.or_eq_false_iff, beq_eq_false_iff_ne, beq_eq_false_iff_ne]
  exact ⟨ne_of_isUnreserved h (by decide), ne_of_isUnreserved h (by decide)⟩

/-- None is removed. -/
theorem not_isTabOrNewline {c : Char} (h : isUnreserved c = true) : isTabOrNewline c = false := by
  cases htab : isTabOrNewline c with
  | false => rfl
  | true => exact absurd (c0_of_tabOrNewline htab) (by simp [not_isC0OrSpace h])

/-- Without a percent sign, only dots are a dot segment. -/
theorem dots_unescaped {cs : List Char} (h : ∀ c ∈ cs, c ≠ '%') {n : Nat} :
    dots cs = some n ↔ cs = List.replicate n '.' := by
  induction cs using dots.induct generalizing n with
  | case1 => cases n <;> simp [dots, List.replicate_succ]
  | case2 cs ih =>
      have hcs : ∀ c ∈ cs, c ≠ '%' := fun c hc => h c (List.mem_cons_of_mem _ hc)
      rw [dots, Option.map_eq_some_iff]
      cases n with
      | zero => simp
      | succ n =>
          rw [List.replicate_succ, List.cons.injEq]
          constructor
          · intro h
            obtain ⟨m, hm, hn⟩ := h
            obtain rfl : m = n := by omega
            exact ⟨rfl, (ih hcs).mp hm⟩
          · intro h
            exact ⟨n, (ih hcs).mpr h.2, rfl⟩
  | case3 c cs hc ih => exact absurd rfl (h '%' List.mem_cons_self)
  | case4 c cs hc => exact absurd rfl (h '%' List.mem_cons_self)
  | case5 cs hnil hdot hpercent =>
      have hnone : dots cs = none := by
        unfold dots
        split
        · exact absurd rfl hnil
        · exact absurd rfl (hdot _)
        · exact absurd rfl (hpercent _ _)
        · rfl
      rw [hnone]
      constructor
      · intro hsome
        cases hsome
      · rintro rfl
        cases n with
        | zero => exact absurd rfl hnil
        | succ n => exact absurd List.replicate_succ (hdot _)

/-- A segment of unreserved characters is a dot segment only if it is written so. -/
theorem dots_unreserved {cs : List Char} (h : ∀ c ∈ cs, isUnreserved c = true) {n : Nat} :
    dots cs = some n ↔ cs = List.replicate n '.' :=
  dots_unescaped fun c hc => ne_of_isUnreserved (h c hc) (by decide)

/-- A text without percent signs is decoded to its own bytes. -/
theorem percentDecode_unescaped {cs : List Char} (h : ∀ c ∈ cs, c ≠ '%') :
    percentDecode cs = cs.flatMap Text.encodeChar := by
  induction cs with
  | nil => rfl
  | cons c cs ih =>
      have hc := h c List.mem_cons_self
      have hcs := ih fun d hd => h d (List.mem_cons_of_mem c hd)
      rw [percentDecode_cons hc, hcs, List.flatMap_cons]

/-- **Unreserved characters are read back.** -/
theorem decode_unreserved {s : String} (h : ∀ c ∈ s.toList, isUnreserved c = true) :
    Text.decode (percentDecode s.toList) = some s := by
  have hbytes : percentDecode s.toList = Text.encode s := by
    rw [percentDecode_unescaped fun c hc => ne_of_isUnreserved (h c hc) (by decide), Text.encode]
  rw [hbytes, Text.decode_encode]

/-- A segment with what would end it percent-encoded. -/
def encodeSegment (segment : List Char) : List Char :=
  segment.flatMap fun c =>
    if c = '%' then ['%', '2', '5'] else if c = '/' then ['%', '2', 'F']
    else if c = '\\' then ['%', '5', 'C'] else [c]

/-- A segment that is appended as it is: it is no dot segment, and it has no tab or line end. -/
def Kept (segment : List Char) : Prop :=
  segment ≠ ['.'] ∧ segment ≠ ['.', '.'] ∧ ∀ c ∈ segment, isTabOrNewline c = false

/-- That a segment is kept is decidable. -/
instance (segment : List Char) : Decidable (Kept segment) :=
  letI : Decidable (∀ c ∈ segment, isTabOrNewline c = false) := List.decidableBAll _ segment
  inferInstanceAs (Decidable (_ ∧ _ ∧ _))

/-- A segment is written without what is removed. -/
theorem writeSegment_eq (segment : List Char) :
    Url.writeSegment segment = encodeSegment (kept segment) := rfl

/-- How a segment begins when it is encoded. -/
theorem encodeSegment_cons (c : Char) :
    ∃ d ds, (∀ cs, encodeSegment (c :: cs) = d :: (ds ++ encodeSegment cs)) ∧
      (isTabOrNewline c = true → ds = []) := by
  simp only [encodeSegment, List.flatMap_cons]
  split_ifs with hpercent hslash hback
  · subst hpercent
    exact ⟨'%', ['2', '5'], fun _ => rfl, by decide⟩
  · subst hslash
    exact ⟨'%', ['2', 'F'], fun _ => rfl, by decide⟩
  · subst hback
    exact ⟨'%', ['5', 'C'], fun _ => rfl, by decide⟩
  · exact ⟨c, [], fun _ => rfl, fun _ => rfl⟩

/-- Only the empty one is encoded to nothing. -/
theorem encodeSegment_eq_nil {segment : List Char} : encodeSegment segment = [] ↔ segment = [] := by
  cases segment with
  | nil => exact ⟨fun _ => rfl, fun _ => rfl⟩
  | cons c cs =>
      obtain ⟨d, ds, hencode, -⟩ := encodeSegment_cons c
      rw [hencode]
      simp

/-- Each tab and line end is a character that is lost. -/
theorem length_writeSegment (segment : List Char) :
    (Url.writeSegment segment).length + (segment.filter isTabOrNewline).length =
      (encodeSegment segment).length := by
  rw [writeSegment_eq]
  induction segment with
  | nil => rfl
  | cons c cs ih =>
      obtain ⟨d, ds, hencode, htabs⟩ := encodeSegment_cons c
      by_cases htab : isTabOrNewline c = true
      · have hkept : kept (c :: cs) = kept cs := List.filter_cons_of_neg (by simp [htab])
        rw [hkept, List.filter_cons_of_pos htab, hencode, htabs htab]
        simp only [List.length_cons, List.nil_append]
        omega
      · have hkept : kept (c :: cs) = c :: kept cs := List.filter_cons_of_pos (by simp [htab])
        rw [hkept, List.filter_cons_of_neg htab, hencode, hencode]
        simp only [List.length_cons, List.length_append]
        omega

/-- A segment without tabs and newlines is only encoded. -/
theorem writeSegment_eq_encode {segment : List Char} :
    Url.writeSegment segment = encodeSegment segment ↔
      ∀ c ∈ segment, isTabOrNewline c = false := by
  constructor
  · intro h c hc
    have hlength := length_writeSegment segment
    rw [h] at hlength
    have hnone : segment.filter isTabOrNewline = [] := List.length_eq_zero_iff.mp (by omega)
    exact Bool.eq_false_of_not_eq_true (List.filter_eq_nil_iff.mp hnone c hc)
  · intro h
    have hkept : kept segment = segment := List.filter_eq_self.mpr fun c hc => by simp [h c hc]
    rw [writeSegment_eq, hkept]

/-- An encoded dot is a dot. -/
theorem encodeSegment_dot {c : Char} {cs rest : List Char}
    (h : encodeSegment (c :: cs) = '.' :: rest) : c = '.' ∧ encodeSegment cs = rest := by
  unfold encodeSegment at h ⊢
  rw [List.flatMap_cons] at h
  split_ifs at h with hpercent hslash hback
  · exact absurd (List.cons.inj h).1 (by decide)
  · exact absurd (List.cons.inj h).1 (by decide)
  · exact absurd (List.cons.inj h).1 (by decide)
  · exact List.cons.inj h

/-- Only dots are encoded as dots. -/
theorem encodeSegment_dots {segment : List Char} {n : Nat}
    (h : encodeSegment segment = List.replicate n '.') : segment = List.replicate n '.' := by
  induction segment generalizing n with
  | nil => exact h
  | cons c cs ih =>
      cases n with
      | zero => exact absurd (encodeSegment_eq_nil.mp h) (List.cons_ne_nil c cs)
      | succ n =>
          rw [List.replicate_succ] at h ⊢
          obtain ⟨rfl, hcs⟩ := encodeSegment_dot h
          rw [ih hcs]

/-- A segment that is kept goes behind a path. -/
theorem pushSegment_kept {path : List (List Char)} {segment : List Char} (hpath : path ≠ [[]])
    (h : Kept segment) : Url.pushSegment path segment = path ++ [encodeSegment segment] := by
  obtain ⟨hone, htwo, htabs⟩ := h
  have hwrite := writeSegment_eq_encode.mpr htabs
  have hone' : encodeSegment segment ≠ ['.'] :=
    fun heq => hone (encodeSegment_dots (show _ = List.replicate 1 '.' from heq))
  have htwo' : encodeSegment segment ≠ ['.', '.'] :=
    fun heq => htwo (encodeSegment_dots (show _ = List.replicate 2 '.' from heq))
  unfold Url.pushSegment
  rw [if_neg (not_or.mpr ⟨hone, htwo⟩), hwrite, if_neg hone', if_neg htwo', if_neg hpath]

/-- A segment that was appended as it is is kept. -/
theorem kept_of_pushSegment {path front : List (List Char)} {segment : List Char}
    (hlength : path.length ≤ front.length)
    (h : Url.pushSegment path segment = front ++ [encodeSegment segment]) : Kept segment := by
  have hwritten : ∀ base : List (List Char), base ++ [[]] = front ++ [encodeSegment segment] →
      segment = [] := by
    intro base heq
    obtain ⟨-, hlast⟩ := List.append_inj' heq rfl
    exact encodeSegment_eq_nil.mp (List.singleton_injective hlast).symm
  simp only [Url.pushSegment] at h
  generalize (if path = [[]] then [] else path) = base at h
  split_ifs at h with hdots hone htwo
  · -- passed over, so the path is too short
    have hshort := congrArg List.length h
    rw [List.length_append, List.length_singleton] at hshort
    omega
  · rw [hwritten _ h] at hone
    exact absurd hone (by decide)
  · rw [hwritten _ h] at htwo
    exact absurd htwo (by decide)
  · obtain ⟨-, hlast⟩ := List.append_inj' h rfl
    obtain ⟨hone', htwo'⟩ := not_or.mp hdots
    exact ⟨hone', htwo', writeSegment_eq_encode.mp (List.singleton_injective hlast)⟩

/-- At most one segment more. -/
theorem length_pushSegment (path : List (List Char)) (segment : List Char) :
    (Url.pushSegment path segment).length ≤ path.length + 1 := by
  unfold Url.pushSegment
  by_cases hpath : path = [[]]
  · simp only [if_pos hpath]
    split_ifs <;> simp
  · simp only [if_neg hpath]
    split_ifs <;> simp

/-- Each segment makes a path longer by one at most. -/
theorem length_pushes (path : List (List Char)) (segments : List (List Char)) :
    (segments.foldl Url.pushSegment path).length ≤ path.length + segments.length := by
  induction segments generalizing path with
  | nil => simp
  | cons segment segments ih =>
      have hstep := length_pushSegment path segment
      have hrest := ih (Url.pushSegment path segment)
      rw [List.foldl_cons, List.length_cons]
      omega

/-- Segments that are kept are appended. -/
theorem pushes_kept {base segments : List (List Char)} (hbase : 2 ≤ base.length)
    (h : ∀ segment ∈ segments, Kept segment) :
    segments.foldl Url.pushSegment base = base ++ segments.map encodeSegment := by
  induction segments generalizing base with
  | nil => simp
  | cons segment segments ih =>
      have hne : base ≠ [[]] := by
        rintro rfl
        simp at hbase
      have hrest := @ih (base ++ [encodeSegment segment]) (by simp; omega)
        fun s hs => h s (List.mem_cons_of_mem segment hs)
      rw [List.foldl_cons, pushSegment_kept hne (h segment List.mem_cons_self), hrest,
        List.append_assoc]
      rfl

/-- **What `extend` appends** is each segment exactly if all are kept. -/
theorem pushes_iff {base segments : List (List Char)} (hbase : 2 ≤ base.length) :
    segments.foldl Url.pushSegment base = base ++ segments.map encodeSegment ↔
      ∀ segment ∈ segments, Kept segment := by
  constructor
  · intro h
    induction segments using List.reverseRecOn with
    | nil => exact List.forall_mem_nil _
    | append_singleton init segment ih =>
        rw [List.foldl_append, List.foldl_cons, List.foldl_nil, List.map_append, List.map_singleton,
          ← List.append_assoc] at h
        have hlength := length_pushes base init
        have hsegment : Kept segment := kept_of_pushSegment (by simpa using hlength) h
        -- what was appended before is long enough to go on from
        have hlong := length_pushSegment (init.foldl Url.pushSegment base) segment
        rw [h] at hlong
        have hne : init.foldl Url.pushSegment base ≠ [[]] := by
          intro heq
          rw [heq] at hlong
          simp at hlong
          omega
        rw [pushSegment_kept hne hsegment] at h
        have hinit := ih (List.append_cancel_right h)
        intro s hs
        rcases List.mem_append.mp hs with hs | hs
        · exact hinit s hs
        · rw [List.mem_singleton.mp hs]
          exact hsegment
  · exact pushes_kept hbase

/-- A plain path is joined as it is. -/
theorem join_plain {text : List Char} (h : Plain text) (base : Url) :
    base.join text = { base with
      segments := addSegments base.segments.dropLast (Text.pieces isSlash text)
      query := none
      fragment := none } := by
  have hclean : clean text = text := by
    by_cases hne : text = []
    · rw [hne]
      rfl
    · have hwhole := clean_plain hne h []
      rwa [List.append_nil, show trimmed [] = [] from rfl, List.append_nil] at hwhole
  have hpath : text.takeWhile (fun c => !endsPath c) = text := pathOf_self fun c hc => (h c hc).2
  have hrest : text.dropWhile (fun c => !endsPath c) = [] :=
    List.dropWhile_eq_nil_iff.mpr fun c hc => by simp [(h c hc).2]
  simp only [Url.join, hclean, hpath, hrest, List.contains_nil, Bool.false_eq_true, if_false]

end WebUrl
