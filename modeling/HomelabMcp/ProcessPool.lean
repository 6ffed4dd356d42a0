import Mathlib

/-!
# Pools of processes over a shared state

A pool is a shared state and a list of processes, each with a local state.  A process may join at
any time, any process may act, and the environment may move the shared state on its own: the
reachable pools are those of every interleaving.  A process is known by its place in the list.

Two rules carry facts over all interleavings:

* `local_invariant` — a relation between the shared state and each local state that the process
  itself keeps when it acts, and that every other action leaves standing;
* `conserved` — what the processes hold and what is free add up to the capacity.
-/

namespace ProcessPool

variable {γ σ : Type}

/-- How a pool moves: the local states a process may join with, the actions of a process, and the
moves of the environment. -/
structure Behaviour (γ σ : Type) where
  start : σ → Prop
  act : Nat → γ → σ → γ → σ → Prop
  env : γ → γ → Prop

/-- A shared state with the processes over it, in the order in which they joined. -/
structure Pool (γ σ : Type) where
  shared : γ
  procs : List σ

namespace Behaviour

variable (b : Behaviour γ σ)

/-- One move of a pool. -/
inductive Move (p : Pool γ σ) : Pool γ σ → Prop
  | join {s : σ} (h : b.start s) : Move p ⟨p.shared, p.procs ++ [s]⟩
  | act {i : Nat} {s s' : σ} {g : γ} (hi : p.procs[i]? = some s)
      (h : b.act i p.shared s g s') : Move p ⟨g, p.procs.set i s'⟩
  | env {g : γ} (h : b.env p.shared g) : Move p ⟨g, p.procs⟩

/-- The pools some interleaving reaches from the shared state `g` with no process. -/
inductive Reachable (g : γ) : Pool γ σ → Prop
  | init : Reachable g ⟨g, []⟩
  | move {p q : Pool γ σ} (h : Reachable g p) (hm : b.Move p q) : Reachable g q

/-- The same behaviour with only the actions that satisfy `ok`. -/
def restrict (ok : γ → σ → γ → σ → Prop) : Behaviour γ σ :=
  { b with act := fun i g s g' s' => b.act i g s g' s' ∧ ok g s g' s' }

variable {b}

/-- A run whose actions all satisfy `ok` is a run. -/
theorem Reachable.of_restrict {ok : γ → σ → γ → σ → Prop} {g : γ} {p : Pool γ σ}
    (h : (b.restrict ok).Reachable g p) : b.Reachable g p := by
  induction h with
  | init => exact .init
  | move _ hm ih =>
      cases hm with
      | join hs => exact .move ih (.join hs)
      | act hi ha => exact .move ih (.act hi ha.1)
      | env he => exact .move ih (.env he)

/-- **Local invariants.**  `J` is an invariant of the shared state and the number of processes, `I`
relates the shared state to the process at a place.  An action must keep both for the process that
acts and must not break `I` for any other. -/
theorem local_invariant {J : Nat → γ → Prop} {I : Nat → γ → σ → Prop} {g : γ}
    (hinit : J 0 g)
    (hjoin : ∀ n g s, J n g → b.start s → J (n + 1) g ∧ I n g s)
    (hact : ∀ n i g s g' s', i < n → J n g → I i g s → b.act i g s g' s' →
      J n g' ∧ I i g' s' ∧ ∀ j r, j ≠ i → I j g r → I j g' r)
    (henv : ∀ n g g', J n g → b.env g g' → J n g' ∧ ∀ j r, I j g r → I j g' r)
    {p : Pool γ σ} (h : b.Reachable g p) :
    J p.procs.length p.shared ∧ ∀ i s, p.procs[i]? = some s → I i p.shared s := by
  induction h with
  | init => exact ⟨hinit, by simp⟩
  | @move p q _ hm ih =>
      obtain ⟨hJ, hI⟩ := ih
      cases hm with
      | @join s hs =>
          obtain ⟨hJ', hnew⟩ := hjoin _ _ _ hJ hs
          refine ⟨by simpa using hJ', fun j r hr => ?_⟩
          rcases Nat.lt_or_ge j p.procs.length with hlt | hge
          · rw [List.getElem?_append_left hlt] at hr
            exact hI j r hr
          · rw [List.getElem?_append_right hge, List.getElem?_singleton] at hr
            split at hr
            · next hlast =>
                obtain rfl : j = p.procs.length := by omega
                cases hr
                exact hnew
            · simp at hr
      | @act i s s' g' hi ha =>
          have hlt : i < p.procs.length := (List.getElem?_eq_some_iff.mp hi).1
          obtain ⟨hJ', hs', hother⟩ := hact _ i _ _ _ _ hlt hJ (hI i s hi) ha
          refine ⟨by simpa using hJ', fun j r hr => ?_⟩
          rcases eq_or_ne i j with rfl | hne
          · rw [List.getElem?_set_self' , hi] at hr
            cases hr
            exact hs'
          · rw [List.getElem?_set_ne hne] at hr
            exact hother j r hne.symm (hI j r hr)
      | env he =>
          obtain ⟨hJ', hother⟩ := henv _ _ _ hJ he
          exact ⟨hJ', fun j r hr => hother j r (hI j r hr)⟩

/-- An invariant of each process on its own. -/
theorem process_invariant {I : σ → Prop} {g : γ}
    (hstart : ∀ s, b.start s → I s)
    (hact : ∀ i g s g' s', I s → b.act i g s g' s' → I s')
    {p : Pool γ σ} (h : b.Reachable g p) : ∀ s ∈ p.procs, I s := by
  have hlocal := (local_invariant (J := fun _ _ => True) (I := fun _ _ s => I s) trivial
    (fun _ _ s _ hs => ⟨trivial, hstart s hs⟩)
    (fun _ i g s g' s' _ _ hI ha => ⟨trivial, hact i g s g' s' hI ha, fun _ _ _ h => h⟩)
    (fun _ _ _ _ _ => ⟨trivial, fun _ _ h => h⟩) h).2
  intro s hs
  obtain ⟨i, hi⟩ := List.getElem?_of_mem hs
  exact hlocal i s hi

section Conservation

variable {M : Type} [AddCancelCommMonoid M]

/-- Replacing one process exchanges what it holds for what the new one holds. -/
private theorem sum_map_set (held : σ → M) {l : List σ} {i : Nat} {s : σ}
    (hi : l[i]? = some s) (s' : σ) :
    ((l.set i s').map held).sum + held s = (l.map held).sum + held s' := by
  induction l generalizing i with
  | nil => simp at hi
  | cons a l ih =>
      cases i with
      | zero =>
          have ha : a = s := by simpa using hi
          subst ha
          simp only [List.set_cons_zero, List.map_cons, List.sum_cons]
          abel
      | succ i =>
          have h := ih (i := i) (by simpa using hi)
          simp only [List.set_cons_succ, List.map_cons, List.sum_cons]
          rw [add_assoc, h, add_assoc]

/-- **Conservation.**  If joining processes hold nothing and no move changes the sum of what is
free and what is held, then that sum is the capacity in every reachable pool. -/
theorem conserved (free : γ → M) (held : σ → M) {g : γ}
    (hstart : ∀ s, b.start s → held s = 0)
    (hact : ∀ i g s g' s', b.act i g s g' s' → free g + held s = free g' + held s')
    (henv : ∀ g g', b.env g g' → free g = free g')
    {p : Pool γ σ} (h : b.Reachable g p) :
    free p.shared + (p.procs.map held).sum = free g := by
  induction h with
  | init => simp
  | move _ hm ih =>
      cases hm with
      | join hs => simpa [hstart _ hs] using ih
      | @act i s s' g' hi ha =>
          have hbal := hact _ _ _ _ _ ha
          have hset := sum_map_set held hi s'
          simp only at ih ⊢
          apply add_right_cancel (b := held s)
          rw [add_assoc, hset, ← add_assoc, add_right_comm, ← hbal, add_right_comm, ih]
      | env he => rw [← henv _ _ he, ih]

end Conservation

end Behaviour

/-- The processes with a property are counted by a sum. -/
theorem sum_indicator {M : Type} [AddCommMonoidWithOne M] (has : σ → Bool) (l : List σ) :
    (l.map fun s => if has s = true then (1 : M) else 0).sum = l.countP has := by
  induction l with
  | nil => simp
  | cons s l ih =>
      rw [List.map_cons, List.sum_cons, ih, List.countP_cons, Nat.cast_add, add_comm]
      by_cases h : has s = true
      · rw [if_pos h, if_pos h, Nat.cast_one]
      · rw [if_neg h, if_neg h, Nat.cast_zero]

end ProcessPool
