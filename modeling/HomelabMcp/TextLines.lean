import HomelabMcp.Text

/-!
# Counting lines

A line needs no line end if it is the last.  `lines eol opened` counts the lines of what is left of
a text or of its bytes, where `opened` says whether a line was begun before.

* `lineCount_eq_lines`: the lines that `str::lines` yields.
* `lines_decodeLossy`: decoding changes no number of lines, whatever is malformed.
* `lines_append`: a word without a line end counts as the line it opens.
-/

namespace Text

/-- The lines of what is left, and the one that was begun before. -/
def lines {α : Type} [DecidableEq α] (eol : α) : Bool → List α → Nat
  | opened, [] => if opened then 1 else 0
  | _, c :: cs => if c = eol then lines eol false cs + 1 else lines eol true cs

section Words

variable {α : Type} [DecidableEq α] {eol : α}

/-- Within a line the next character opens or continues it. -/
theorem lines_cons_ne {c : α} (hc : c ≠ eol) (opened : Bool) (cs : List α) :
    lines eol opened (c :: cs) = lines eol true cs := if_neg hc

/-- A word without an end of line opens or continues a line as its first character does. -/
theorem lines_append {word : List α} (hword : eol ∉ word) (hne : word ≠ []) (opened : Bool)
    (cs : List α) : lines eol opened (word ++ cs) = lines eol true cs := by
  induction word generalizing opened with
  | nil => exact absurd rfl hne
  | cons c word ih =>
      obtain ⟨hc, hrest⟩ := not_or.mp fun h => hword (List.mem_cons.mpr h)
      rw [List.cons_append, lines_cons_ne (Ne.symm hc)]
      cases word with
      | nil => rfl
      | cons d word => exact ih hrest (List.cons_ne_nil d word) true

end Words

/-- The pieces of a text are its lines; one piece more if a line end is last. -/
theorem lines_pieces (cs : List Char) : ∃ init last, pieces (· == '\n') cs = init ++ [last] ∧
    lines '\n' false cs = init.length + (if last = [] then 0 else 1) ∧
      lines '\n' true cs = init.length + (if init ≠ [] ∧ last = [] then 0 else 1) := by
  induction cs with
  | nil => exact ⟨[], [], rfl, rfl, rfl⟩
  | cons c cs ih =>
      obtain ⟨init, last, hpieces, hclosed, hopened⟩ := ih
      by_cases hc : c = '\n'
      · subst hc
        refine ⟨[] :: init, last, by simp [pieces, hpieces], ?_, ?_⟩
        · rw [lines, if_pos rfl, hclosed, List.length_cons]
          omega
        · rw [lines, if_pos rfl, hclosed, List.length_cons]
          simp only [ne_eq, reduceCtorEq, not_false_eq_true, true_and]
          omega
      · have hbeq : (c == '\n') = false := beq_false_of_ne hc
        rw [lines_cons_ne hc, lines_cons_ne hc]
        cases init with
        | nil =>
            refine ⟨[], c :: last, ?_, ?_, ?_⟩
            · simp [pieces, hbeq, hpieces]
            · simpa using hopened
            · simpa using hopened
        | cons first init =>
            refine ⟨(c :: first) :: init, last, ?_, ?_, ?_⟩
            · simp [pieces, hbeq, hpieces]
            · simpa using hopened
            · simpa using hopened

/-- `str::lines` counts the lines that newlines end. -/
theorem lineCount_eq_lines (s : String) : lineCount s = lines '\n' false s.toList := by
  obtain ⟨init, last, hpieces, hlines, -⟩ := lines_pieces s.toList
  have hlast : (pieces (· == '\n') s.toList).getLast? = some last := by
    rw [hpieces, List.getLast?_append]
    rfl
  have hlength : (pieces (· == '\n') s.toList).length = init.length + 1 := by
    rw [hpieces, List.length_append, List.length_singleton]
  simp only [lineCount, hlast, hlength, hlines, Option.some.injEq]
  split_ifs <;> omega

/-- The newline is the one character with the code ten. -/
theorem ofNat_ne_newline {n : Nat} (h : n ≠ 10) : Char.ofNat n ≠ '\n' := by
  intro heq
  have hcode := congrArg Char.toNat heq
  by_cases hvalid : n.isValidChar
  · rw [Char.ofNat, dif_pos hvalid] at hcode
    exact h hcode
  · rw [Char.ofNat, dif_neg hvalid] at hcode
    exact absurd hcode (by decide)

/-- What is pending can only become a character above the line end. -/
def Pending.High (p : Pending) : Prop := 0x80 ≤ p.low ∧ 0x80 + 10 < p.bits * 64 + p.low

/-- A byte that opens a longer character is not the newline's. -/
theorem first_high {b : Nat} {p : Pending} (h : (first b).2 = some p) : p.High := by
  unfold first at h
  split_ifs at h <;> obtain rfl := Option.some.inj h <;> simp only [Pending.High] <;> omega

/-- A byte that is a character by itself is the character of its own value. -/
theorem first_char {b : Nat} {c : Char} (h : (first b).1 = some c) : c = Char.ofNat b := by
  unfold first at h
  split_ifs at h
  exact (Option.some.inj h).symm

/-- A first byte begins a line as the character or the malformed run that it starts. -/
theorem restart_lines (b : UInt8) :
    (b = 10 ∧ restart b.toNat = ([some '\n'], none)) ∨
    (b ≠ 10 ∧ ∃ c ≠ some '\n', restart b.toNat = ([c], none)) ∨
    (b ≠ 10 ∧ ∃ p : Pending, p.High ∧ restart b.toNat = ([], some p)) := by
  by_cases hb : b = 10
  · subst hb
    exact .inl ⟨rfl, rfl⟩
  · have hne : b.toNat ≠ 10 := fun h => hb (UInt8.toNat_inj.mp h)
    right
    cases hfirst : first b.toNat with
    | mk c p =>
        cases c with
        | some c =>
            refine .inl ⟨hb, some c, ?_, by simp [restart, hfirst]⟩
            have hchar : c = Char.ofNat b.toNat := first_char (by rw [hfirst])
            rw [hchar]
            exact fun heq => ofNat_ne_newline hne (Option.some.inj heq)
        | none =>
            cases p with
            | none => exact .inl ⟨hb, none, nofun, by simp [restart, hfirst]⟩
            | some p =>
                exact .inr ⟨hb, p, first_high (by rw [hfirst]), by simp [restart, hfirst]⟩

/-- The character that stands for what was found. -/
def shownAs (c : Option Char) : Char := c.getD (Char.ofNat 0xFFFD)

/-- What a byte is shown as is a newline only where a newline was read. -/
theorem shownAs_ne {c : Option Char} (h : c ≠ some '\n') : shownAs c ≠ '\n' := by
  cases c with
  | none => decide
  | some c => exact fun heq => h (congrArg some heq)

/-- The step of the decoder: of a pending character a line has been begun. -/
theorem lines_scan (bytes : Bytes) (pending : Option Pending) (opened : Bool)
    (hhigh : ∀ p, pending = some p → p.High) :
    lines '\n' opened ((scan pending bytes).map shownAs) =
      lines 10 (opened || pending.isSome) bytes := by
  induction bytes generalizing pending opened with
  | nil =>
      cases pending with
      | none => simp [scan, lines]
      | some p => simp [scan, lines, shownAs_ne]
  | cons b rest ih =>
      have hstart : ∀ opened, lines '\n' opened
          (((restart b.toNat).1 ++ scan (restart b.toNat).2 rest).map shownAs) =
            lines 10 opened (b :: rest) := by
        intro opened
        obtain ⟨rfl, hrestart⟩ | ⟨hb, c, hc, hrestart⟩ | ⟨hb, p, hp, hrestart⟩ := restart_lines b
        · have hrest := ih none false nofun
          rw [hrestart]
          simpa [lines, shownAs] using hrest
        · have hrest := ih none true nofun
          rw [hrestart, List.singleton_append, List.map_cons, lines_cons_ne (shownAs_ne hc),
            lines_cons_ne hb]
          simpa using hrest
        · have hrest := ih (some p) opened (by rintro _ ⟨⟩; exact hp)
          rw [hrestart, List.nil_append, lines_cons_ne hb]
          simpa using hrest
      cases pending with
      | none => simpa [scan, feed] using hstart opened
      | some p =>
          obtain ⟨hlow, hbits⟩ := hhigh p rfl
          by_cases hnext : p.low ≤ b.toNat ∧ b.toNat ≤ p.high
          · have hb : b ≠ 10 := by
              rintro rfl
              have hten : (10 : UInt8).toNat = 10 := rfl
              omega
            have hlarge : p.bits * 64 + (b.toNat - 0x80) ≠ 10 := by omega
            rw [lines_cons_ne hb]
            by_cases howed : p.owed = 1
            · have hrest := ih none true nofun
              rw [scan, feed, if_pos hnext]
              simp only [if_pos howed, List.singleton_append, List.map_cons]
              rw [shownAs, Option.getD_some, lines_cons_ne (ofNat_ne_newline hlarge)]
              simpa using hrest
            · have hhigher : Pending.High
                  ⟨p.owed - 1, 0x80, 0xBF, p.bits * 64 + (b.toNat - 0x80)⟩ :=
                ⟨le_refl _, by simp only; omega⟩
              have hrest := ih (some _) opened (by rintro _ ⟨⟩; exact hhigher)
              rw [scan, feed, if_pos hnext]
              simp only [if_neg howed, List.nil_append]
              simpa using hrest
          · have hrest := hstart true
            rw [scan, feed, if_neg hnext, List.cons_append, List.map_cons,
              lines_cons_ne (shownAs_ne (Option.some_ne_none _).symm)]
            simpa using hrest

/-- **Lines of bytes.**  A text has the lines of the bytes that it was decoded from, however much of
them was malformed. -/
theorem lines_decodeLossy (bytes : Bytes) :
    lines '\n' false (decodeLossy bytes).toList = lines 10 false bytes := by
  have hscan := lines_scan bytes none false nofun
  rw [decodeLossy, String.toList_ofList]
  exact hscan

example : lines (10 : UInt8) false [0xE2, 0x82, 10, 97, 10, 98] = 3 := by decide

end Text
