import Mathlib

/-!
# Stable sorts

A stable sort by a key keeps the order of elements with one key.  `IsStableSort` says so without an
algorithm, `isStableSort_iff` that there is one such list, which `sortByKey` computes.
-/

namespace StableSort

variable {α κ : Type} [LinearOrder κ] (key : α → κ)

/-- Sort by a key. -/
def sortByKey (l : List α) : List α := l.insertionSort fun a b => key a ≤ key b

/-- The elements in the order of their keys, those with one key in their own order. -/
structure IsStableSort (l sorted : List α) : Prop where
  perm : sorted.Perm l
  ordered : sorted.Pairwise fun a b => key a ≤ key b
  stable : ∀ k, sorted.filter (fun a => key a = k) = l.filter fun a => key a = k

/-- Merge sort on the keys is a stable sort. -/
theorem sortByKey_isStableSort (l : List α) : IsStableSort key l (sortByKey key l) := by
  have htotal : Std.Total fun a b => key a ≤ key b := ⟨fun a b => le_total (key a) (key b)⟩
  have htrans : IsTrans α fun a b => key a ≤ key b := ⟨fun a b c => le_trans⟩
  have hperm := List.perm_insertionSort (fun a b => key a ≤ key b) l
  refine ⟨hperm, List.pairwise_insertionSort _ l, fun k => ?_⟩
  -- Elements with one key are in order, so that they stay a sublist, and none is missing.
  have hclass : (l.filter fun a => key a = k).Pairwise fun a b => key a ≤ key b := by
    refine List.pairwise_of_forall_mem_list fun a ha b hb => ?_
    simp only [List.mem_filter, decide_eq_true_eq] at ha hb
    rw [ha.2, hb.2]
  have hsub := (List.sublist_insertionSort hclass List.filter_sublist).filter fun a => key a = k
  simp only [List.filter_filter, Bool.and_self] at hsub
  exact (hsub.eq_of_length (hperm.filter _).length_eq.symm).symm

/-- Ordered lists are equal when they are so key by key. -/
theorem eq_of_classes {s s' : List α} (hperm : s'.Perm s)
    (hs : s.Pairwise fun a b => key a ≤ key b) (hs' : s'.Pairwise fun a b => key a ≤ key b)
    (hclass : ∀ k, s'.filter (fun a => key a = k) = s.filter fun a => key a = k) : s' = s := by
  induction s generalizing s' with
  | nil => exact hperm.eq_nil
  | cons a s ih =>
      cases s' with
      | nil => exact hperm.symm.eq_nil.symm
      | cons b s' =>
          rw [List.pairwise_cons] at hs hs'
          have hle : key a ≤ key b := by
            rcases List.mem_cons.mp (hperm.mem_iff.mp List.mem_cons_self) with rfl | hb
            · exact le_rfl
            · exact hs.1 b hb
          have hge : key b ≤ key a := by
            rcases List.mem_cons.mp (hperm.mem_iff.mpr List.mem_cons_self) with rfl | ha
            · exact le_rfl
            · exact hs'.1 a ha
          -- Both heads have the least key, and each is the first of its class.
          have hkey : key b = key a := le_antisymm hge hle
          obtain ⟨rfl, -⟩ : b = a ∧ s'.filter (fun c => key c = key a) =
              s.filter fun c => key c = key a := by
            simpa [hkey] using hclass (key a)
          rw [ih hperm.cons_inv hs.2 hs'.2 fun k => ?_]
          have hk := hclass k
          by_cases hbk : key b = k
          · simpa [hbk] using hk
          · simpa [hbk] using hk

/-- **There is one stable sort.** -/
theorem isStableSort_iff {l sorted : List α} :
    IsStableSort key l sorted ↔ sorted = sortByKey key l := by
  have hsort := sortByKey_isStableSort key l
  constructor
  · intro h
    exact eq_of_classes key (h.perm.trans hsort.perm.symm) hsort.ordered h.ordered fun k =>
      (h.stable k).trans (hsort.stable k).symm
  · rintro rfl
    exact hsort

end StableSort
