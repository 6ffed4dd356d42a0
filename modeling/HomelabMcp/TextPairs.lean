import HomelabMcp.Text

/-!
# Lists of pairs as texts

Pairs of texts with one character between the parts of a pair and another between the pairs, as in
a query string or a list of labels.

* `splitPairs_joinPairs`: the pairs are read back where the parts do not have the separators.
-/

namespace Text

/-- The pieces of a text that was put together of pieces without the separator. -/
theorem pieces_intercalate {sep : Char} {parts : List (List Char)} (hne : parts ≠ [])
    (h : ∀ part ∈ parts, sep ∉ part) : pieces (· == sep) ([sep].intercalate parts) = parts := by
  have hsingle : ∀ {part : List Char}, sep ∉ part → pieces (· == sep) part = [part] := by
    intro part hpart
    refine pieces_single fun c hc => ?_
    rw [beq_eq_false_iff_ne]
    intro heq
    exact hpart (heq ▸ hc)
  induction parts with
  | nil => exact absurd rfl hne
  | cons part parts ih =>
      obtain ⟨hpart, hparts⟩ := List.forall_mem_cons.mp h
      cases parts with
      | nil =>
          rw [List.intercalate_singleton]
          exact hsingle hpart
      | cons next rest =>
          have hfirst : [sep].intercalate (part :: next :: rest) =
              part ++ sep :: [sep].intercalate (next :: rest) := by
            rw [List.intercalate_cons_cons, List.append_assoc, List.singleton_append]
          rw [hfirst, @pieces_append (· == sep) sep (beq_self_eq_true sep), hsingle hpart,
            ih (List.cons_ne_nil _ _) hparts, List.singleton_append]

/-- The first of a character is found. -/
theorem splitOnce_append {c : Char} {a : List Char} (h : c ∉ a) (b : List Char) :
    splitOnce [c] (a ++ c :: b) = some (a, b) := by
  induction a with
  | nil => simp [splitOnce]
  | cons d a ih =>
      have hne : c ≠ d := fun heq => h (heq ▸ List.mem_cons_self)
      have hrest : c ∉ a := fun hmem => h (List.mem_cons_of_mem d hmem)
      simp [splitOnce, hne, ih hrest]

/-- No character of that kind, nothing to split. -/
theorem splitOnce_eq_none {c : Char} {cs : List Char} (h : c ∉ cs) :
    splitOnce [c] cs = none := by
  induction cs with
  | nil => rfl
  | cons d cs ih =>
      have hne : c ≠ d := fun heq => h (heq ▸ List.mem_cons_self)
      have hrest : c ∉ cs := fun hmem => h (List.mem_cons_of_mem d hmem)
      simp [splitOnce, hne, ih hrest]

section Pairs

variable (outer inner : Char)

/-- A pair written with the inner separator between its two texts. -/
def joinPair (pair : List Char × List Char) : List Char := pair.1 ++ inner :: pair.2

/-- Pairs, the outer separator between them. -/
def joinPairs (pairs : List (List Char × List Char)) : List Char :=
  [outer].intercalate (pairs.map (joinPair inner))

/-- The parts of each piece; none if some piece has one part only. -/
def splitPairs (text : List Char) : Option (List (List Char × List Char)) :=
  (pieces (· == outer) text).mapM (splitOnce [inner])

/-- The pairs that are read back. -/
structure Separable (pair : List Char × List Char) : Prop where
  inner_key : inner ∉ pair.1
  outer_key : outer ∉ pair.1
  outer_value : outer ∉ pair.2

variable {outer inner}

/-- A written pair is read back where its first text does not hold the inner separator. -/
theorem mapM_splitOnce {pairs : List (List Char × List Char)}
    (h : ∀ pair ∈ pairs, inner ∉ pair.1) :
    (pairs.map (joinPair inner)).mapM (splitOnce [inner]) = some pairs := by
  induction pairs with
  | nil => rfl
  | cons pair pairs ih =>
      obtain ⟨hpair, hpairs⟩ := List.forall_mem_cons.mp h
      rw [List.map_cons, List.mapM_cons, joinPair, splitOnce_append hpair, ih hpairs]
      rfl

/-- **Round trip.** -/
theorem splitPairs_joinPairs (hne : inner ≠ outer) {pairs : List (List Char × List Char)}
    (hsome : pairs ≠ []) (h : ∀ pair ∈ pairs, Separable outer inner pair) :
    splitPairs outer inner (joinPairs outer inner pairs) = some pairs := by
  unfold splitPairs joinPairs
  rw [pieces_intercalate, mapM_splitOnce fun pair hpair => (h pair hpair).inner_key]
  · rwa [ne_eq, List.map_eq_nil_iff]
  · intro part hpart
    obtain ⟨pair, hpair, rfl⟩ := List.mem_map.mp hpart
    obtain ⟨-, hkey, hvalue⟩ := h pair hpair
    simp only [joinPair, List.mem_append, List.mem_cons, not_or]
    exact ⟨hkey, hne.symm, hvalue⟩

end Pairs

end Text
