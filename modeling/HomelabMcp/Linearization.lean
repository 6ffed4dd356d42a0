import HomelabMcp.ProcessPool

/-!
# Processes with one effect each

Every process of a pool has a request, and takes effect at most once: at one action of its own the
shared state moves as the request allows with the outcome the process settles for.  Then whatever
the interleaving, the shared state is what a sequence of the requests makes of it, one after
another, in an order that only grows: a process that settled before another one joined comes before
it.

* `Fits.move`: a history that fits a pool is continued by one that fits the pool after a move;
* `linearizable`: every reachable pool has a history that fits it;
* `linearizable_later`: and a later pool has one that continues it.
-/

namespace Linearization

open ProcessPool

variable {C R O γ σ : Type}

/-- The request of a process, by the place of the process, with its outcome. -/
structure Entry (R O : Type) where
  place : Nat
  request : R
  outcome : O

/-- The requests were allowed their outcomes one after another. -/
inductive Legal (allowed : C → R → O → C → Prop) (c : C) : List (Entry R O) → C → Prop
  | nil : Legal allowed c [] c
  | snoc {entries : List (Entry R O)} {entry : Entry R O} {c' c'' : C}
      (h : Legal allowed c entries c') (ha : allowed c' entry.request entry.outcome c'') :
      Legal allowed c (entries ++ [entry]) c''

/-- Legal histories one after another. -/
theorem Legal.append {allowed : C → R → O → C → Prop} {c c' c'' : C}
    {first rest : List (Entry R O)} (h : Legal allowed c first c')
    (hrest : Legal allowed c' rest c'') : Legal allowed c (first ++ rest) c'' := by
  induction hrest with
  | nil => simpa using h
  | snoc _ ha ih => simpa using ih.snoc ha

/-- What is invariant under every allowed request is so along a legal history. -/
theorem Legal.invariant {allowed : C → R → O → C → Prop} {I : C → Prop} {c c' : C}
    {entries : List (Entry R O)} (hstep : ∀ c r o c', allowed c r o c' → I c → I c')
    (h : Legal allowed c entries c') (hc : I c) : I c' := by
  induction h with
  | nil => exact hc
  | snoc _ ha ih => exact hstep _ _ _ _ ha ih

/-- How the processes of a pool are seen: the request of each, the outcome it has settled for, and
what the shared state stands for. -/
structure View (C R O γ σ : Type) where
  abs : γ → C
  request : σ → R
  settled : σ → Option O

namespace View

variable (view : View C R O γ σ)

/-- The entries of a process: at most one. -/
def entries (i : Nat) (s : σ) : List (Entry R O) :=
  ((view.settled s).map fun outcome => ⟨i, view.request s, outcome⟩).toList

/-- A history that fits a pool: it is legal, and has the entries of each process that is there. -/
structure Fits (allowed : C → R → O → C → Prop) (c : C) (p : Pool γ σ)
    (history : List (Entry R O)) : Prop where
  legal : Legal allowed c history (view.abs p.shared)
  places : ∀ i s, p.procs[i]? = some s →
    history.filter (fun entry => entry.place == i) = view.entries i s
  bound : ∀ entry ∈ history, entry.place < p.procs.length

/-- An action leaves everything as it was, or is the effect of its process. -/
inductive Step (allowed : C → R → O → C → Prop) (g : γ) (s : σ) (g' : γ) (s' : σ) : Prop
  | silent (hshared : view.abs g' = view.abs g) (hrequest : view.request s' = view.request s)
      (hsettled : view.settled s' = view.settled s)
  | effect {outcome : O} (hallowed : allowed (view.abs g) (view.request s) outcome (view.abs g'))
      (hrequest : view.request s' = view.request s) (hbefore : view.settled s = none)
      (hafter : view.settled s' = some outcome)

/-- What is shown of a behaviour: processes keep an invariant of their own, join without an
outcome, and act as said; the environment does nothing that is seen. -/
structure Lawful (allowed : C → R → O → C → Prop) (b : Behaviour γ σ) (I : σ → Prop) : Prop where
  start : ∀ s, b.start s → I s ∧ view.settled s = none
  act : ∀ i g s g' s', I s → b.act i g s g' s' → I s' ∧ view.Step allowed g s g' s'
  env : ∀ g g', b.env g g' → view.abs g' = view.abs g

variable {view} {allowed : C → R → O → C → Prop} {c : C} {b : Behaviour γ σ} {I : σ → Prop}

/-- **A history is only ever continued.** -/
theorem Fits.move (hlaw : view.Lawful allowed b I) {p q : Pool γ σ}
    {history : List (Entry R O)} (hI : ∀ s ∈ p.procs, I s) (h : view.Fits allowed c p history)
    (hm : b.Move p q) : ∃ more, view.Fits allowed c q (history ++ more) := by
  cases hm with
  | @join s hs =>
      refine ⟨[], ?_⟩
      rw [List.append_nil]
      refine ⟨h.legal, fun i r hr => ?_, fun entry hentry => ?_⟩
      · by_cases hi : i < p.procs.length
        · rw [List.getElem?_append_left hi] at hr
          exact h.places i r hr
        · -- The process that has joined is last, and no entry is that far.
          have hge : p.procs.length ≤ i := Nat.le_of_not_lt hi
          rw [List.getElem?_append_right hge, List.getElem?_singleton] at hr
          split at hr
          · cases hr
            rw [entries, (hlaw.start s hs).2]
            apply List.filter_eq_nil_iff.mpr
            intro entry hentry heq
            have hlt := h.bound entry hentry
            have hplace : entry.place = i := by simpa using heq
            omega
          · cases hr
      · have hlt := h.bound entry hentry
        simp only [List.length_append, List.length_singleton]
        omega
  | @act i s s' g' hi ha =>
      have hlt : i < p.procs.length := (List.getElem?_eq_some_iff.mp hi).1
      cases (hlaw.act i _ _ _ _ (hI s (List.mem_of_getElem? hi)) ha).2 with
      | silent hshared hrequest hsettled =>
          refine ⟨[], ?_⟩
          rw [List.append_nil]
          refine ⟨hshared ▸ h.legal, fun j r hr => ?_, fun entry hentry => ?_⟩
          · by_cases hj : j = i
            · subst hj
              rw [List.getElem?_set_self hlt] at hr
              cases hr
              rw [h.places j s hi, entries, entries, hrequest, hsettled]
            · rw [List.getElem?_set_ne (Ne.symm hj)] at hr
              exact h.places j r hr
          · simpa using h.bound entry hentry
      | @effect outcome hallowed hrequest hbefore hafter =>
          refine ⟨[⟨i, view.request s, outcome⟩], h.legal.snoc hallowed, fun j r hr => ?_,
            fun entry hentry => ?_⟩
          · rw [List.filter_append]
            by_cases hj : j = i
            · subst hj
              rw [List.getElem?_set_self hlt] at hr
              cases hr
              simp [h.places j s hi, entries, hbefore, hafter, hrequest]
            · rw [List.getElem?_set_ne (Ne.symm hj)] at hr
              have hother : ¬ i = j := fun heq => hj heq.symm
              simp [h.places j r hr, hother]
          · rw [List.length_set]
            rcases List.mem_append.mp hentry with hold | hnew
            · exact h.bound entry hold
            · obtain rfl := List.mem_singleton.mp hnew
              exact hlt
  | env he =>
      refine ⟨[], ?_⟩
      rw [List.append_nil]
      exact ⟨hlaw.env _ _ he ▸ h.legal, h.places, h.bound⟩

/-- Every process of a reachable pool keeps its invariant. -/
theorem Lawful.invariant (hlaw : view.Lawful allowed b I) {g : γ} {p : Pool γ σ}
    (h : b.Reachable g p) : ∀ s ∈ p.procs, I s :=
  Behaviour.process_invariant (fun s hs => (hlaw.start s hs).1)
    (fun i g s g' s' hs ha => (hlaw.act i g s g' s' hs ha).1) h

/-- **Every interleaving is a sequence of effects.** -/
theorem linearizable (hlaw : view.Lawful allowed b I) {g : γ} {p : Pool γ σ}
    (h : b.Reachable g p) : ∃ history, view.Fits allowed (view.abs g) p history := by
  induction h with
  | init => exact ⟨[], .nil, by simp, by simp⟩
  | move hp hm ih =>
      obtain ⟨history, hfits⟩ := ih
      obtain ⟨more, hfits'⟩ := hfits.move hlaw (hlaw.invariant hp) hm
      exact ⟨history ++ more, hfits'⟩

/-- What has settled in a pool comes before what settles later. -/
theorem linearizable_later (hlaw : view.Lawful allowed b I) {g : γ} {p q : Pool γ σ}
    (h : b.Reachable g p) (hlater : Relation.ReflTransGen b.Move p q) :
    ∃ history more, view.Fits allowed (view.abs g) p history ∧
      view.Fits allowed (view.abs g) q (history ++ more) := by
  obtain ⟨history, hfits⟩ := linearizable hlaw h
  refine ⟨history, ?_⟩
  suffices hboth : b.Reachable g q ∧ ∃ more, view.Fits allowed (view.abs g) q (history ++ more) by
    obtain ⟨-, more, hmore⟩ := hboth
    exact ⟨more, hfits, hmore⟩
  induction hlater with
  | refl => exact ⟨h, [], by simpa using hfits⟩
  | tail _ hm ih =>
      obtain ⟨hq, more, hmore⟩ := ih
      obtain ⟨rest, hrest⟩ := hmore.move hlaw (hlaw.invariant hq) hm
      exact ⟨.move hq hm, more ++ rest, by simpa using hrest⟩

end View

end Linearization
