import HomelabMcp.Interaction

/-!
# Programs that change a world

Where the answers of operations are about a world, and change it, an `Effect` says what each answer
may do; it need not be a function.  `Moves` is a trace that moves the world, and `ensures` the
weakest precondition of a program over all that the world may do; `succeeds` asks only about
successful ends.

* `ensures_finished`, `succeeds_finished`: the postcondition holds wherever a finished run has moved
  the world.
* `Moves.invariant`: what every effect preserves holds wherever a run stands.
-/

namespace Interaction

variable {Op : Type} {Ans : Op → Type} {α β ε W : Type}

/-- What the answer to an operation may make of a world. -/
abbrev Effect (Ans : Op → Type) (W : Type) := (op : Op) → Ans op → W → W → Prop

/-- The effects of a trace, one after the other. -/
inductive Moves (eff : Effect Ans W) : W → Trace Ans → W → Prop where
  | nil (w : W) : Moves eff w [] w
  | cons {w w' w'' : W} {e : Event Ans} {t : Trace Ans} :
      eff e.1 e.2 w w' → Moves eff w' t w'' → Moves eff w (e :: t) w''

/-- Effects of answers that satisfy `P`. -/
def Effect.only (eff : Effect Ans W) (P : Event Ans → Prop) : Effect Ans W :=
  fun op answer w w' => eff op answer w w' ∧ P ⟨op, answer⟩

/-- A run whose events are allowed is a run of those only. -/
theorem Moves.only {eff : Effect Ans W} {P : Event Ans → Prop} {w w' : W} {t : Trace Ans}
    (h : Moves eff w t w') (hP : ∀ e ∈ t, P e) : Moves (eff.only P) w t w' := by
  induction h with
  | nil w => exact .nil w
  | cons hfirst _ ih =>
      have hrest := ih fun e he => hP e (List.mem_cons_of_mem _ he)
      exact .cons ⟨hfirst, hP _ List.mem_cons_self⟩ hrest

/-- **Run rule.**  What every effect preserves holds after any trace. -/
theorem Moves.invariant {eff : Effect Ans W} {I : W → Prop}
    (hstep : ∀ op answer w w', eff op answer w w' → I w → I w') {w w' : W} {t : Trace Ans}
    (h : Moves eff w t w') (hw : I w) : I w' := by
  induction h with
  | nil w => exact hw
  | cons hfirst _ ih => exact ih (hstep _ _ _ _ hfirst hw)

/-- Whatever the world does, `Q` holds at the end. -/
def ensures (eff : Effect Ans W) : Program Op Ans α → W → (W → α → Prop) → Prop
  | .done a, w, Q => Q w a
  | .call op next, w, Q => ∀ answer w', eff op answer w w' → ensures eff (next answer) w' Q

variable {eff : Effect Ans W}

/-- **Sequencing.** -/
theorem ensures_bind (p : Program Op Ans α) (f : α → Program Op Ans β) (w : W)
    (Q : W → β → Prop) :
    ensures eff (p >>= f) w Q ↔ ensures eff p w fun w a => ensures eff (f a) w Q := by
  induction p generalizing w with
  | done a => rfl
  | call op next ih =>
      show (∀ answer w', eff op answer w w' → ensures eff (next answer >>= f) w' Q) ↔ _
      simp only [ih]
      rfl

/-- **Consequence.** -/
theorem ensures_mono {p : Program Op Ans α} {w : W} {Q Q' : W → α → Prop}
    (h : ensures eff p w Q) (hQ : ∀ w a, Q w a → Q' w a) : ensures eff p w Q' := by
  induction p generalizing w with
  | done a => exact hQ _ _ h
  | call op next ih => exact fun answer w' heff => ih answer (h answer w' heff)

/-- Nothing is ensured of every run. -/
theorem ensures_true (p : Program Op Ans α) (w : W) : ensures eff p w fun _ _ => True := by
  induction p generalizing w with
  | done a => trivial
  | call op next ih => exact fun answer w' _ => ih answer w'

/-- **Soundness.** -/
theorem ensures_finished {p : Program Op Ans α} {a : α} {t : Trace Ans} {w w' : W}
    {Q : W → α → Prop} (hr : Reaches p t (.done a)) (hm : Moves eff w t w')
    (h : ensures eff p w Q) : Q w' a := by
  generalize hend : (Program.done a : Program Op Ans α) = q at hr
  induction hr generalizing w with
  | refl p =>
      subst hend
      cases hm
      exact h
  | step _ ih =>
      cases hm with
      | cons hfirst hrest => exact ih hrest (h _ _ hfirst) hend

/-- **Sequencing with early return**, for both ends. -/
theorem ensures_run_bind (x : Fallible Ans ε α) (f : α → Fallible Ans ε β) (w : W)
    (Q : W → Except ε β → Prop) :
    ensures eff (x >>= f).run w Q ↔ ensures eff x.run w fun w r => match r with
      | .ok a => ensures eff (f a).run w Q
      | .error e => Q w (.error e) := by
  show ensures eff (x.run >>= ExceptT.bindCont f) w Q ↔ _
  rw [ensures_bind]
  constructor
  · intro h
    refine ensures_mono h fun w r hr => ?_
    cases r <;> exact hr
  · intro h
    refine ensures_mono h fun w r hr => ?_
    cases r <;> exact hr

/-- What is ensured of an attempt, its outcome handed over. -/
theorem ensures_run_attempt (x : Fallible Ans ε α) (w : W)
    (Q : W → Except ε (Except ε α) → Prop) :
    ensures eff (attempt x).run w Q ↔ ensures eff x.run w fun w r => Q w (.ok r) := by
  show ensures eff (x.run >>= fun r => Program.done (.ok r)) w Q ↔ _
  rw [ensures_bind]
  rfl

/-- A condition ends in its error or lets the rest go on. -/
theorem ensures_run_ensure {ok : Bool} {e : ε} {w : W} {Q : W → Except ε Unit → Prop}
    (hok : ok = true → Q w (.ok ())) (herror : ok = false → Q w (.error e)) :
    ensures eff (ensure ok e : Fallible Ans ε Unit).run w Q := by
  cases ok with
  | true => exact hok rfl
  | false => exact herror rfl

/-- Whatever the world does, `P` holds at a successful end. -/
def succeeds (eff : Effect Ans W) (x : Fallible Ans ε α) (w : W) (P : W → α → Prop) : Prop :=
  ensures eff x.run w fun w r => ∀ a, r = .ok a → P w a

section Succeeds

variable {x : Fallible Ans ε α} {f : α → Fallible Ans ε β} {w : W} {R : W → α → Prop}
  {P : W → β → Prop}

/-- A value succeeds. -/
theorem succeeds_pure {a : α} (h : R w a) : succeeds eff (pure a : Fallible Ans ε α) w R := by
  intro b hb
  rwa [← Except.ok.inj hb]

/-- An operation succeeds with what it does. -/
theorem succeeds_ask {op : Op} {R : W → Ans op → Prop}
    (h : ∀ answer w', eff op answer w w' → R w' answer) :
    succeeds eff (ask op : Fallible Ans ε (Ans op)) w R := by
  intro answer w' heff a ha
  rw [← Except.ok.inj ha]
  exact h answer w' heff

/-- A condition succeeds where it is met. -/
theorem succeeds_ensure {ok : Bool} {e : ε} {R : W → Unit → Prop} (h : ok = true → R w ()) :
    succeeds eff (ensure ok e : Fallible Ans ε Unit) w R := by
  cases ok with
  | true => exact fun _ _ => h rfl
  | false => exact fun _ ha => nomatch ha

/-- What succeeds succeeds with less. -/
theorem succeeds_mono {R' : W → α → Prop} (h : succeeds eff x w R)
    (hR : ∀ w a, R w a → R' w a) : succeeds eff x w R' :=
  ensures_mono h fun w _ hr a ha => hR w a (hr a ha)

/-- **Sequencing with early return.** -/
theorem succeeds_bind (hx : succeeds eff x w R) (hf : ∀ w a, R w a → succeeds eff (f a) w P) :
    succeeds eff (x >>= f) w P := by
  show ensures eff (x.run >>= ExceptT.bindCont f) w _
  rw [ensures_bind]
  refine ensures_mono hx fun w r hr => ?_
  cases r with
  | error e => exact fun _ hb => nomatch hb
  | ok a => exact hf w a (hr a rfl)

/-- What is done whatever the outcome. -/
theorem succeeds_finally {last : Fallible Ans ε Unit} {R' : W → α → Prop}
    (hx : succeeds eff x w R)
    (hlast : ∀ w a, R w a → succeeds eff last w fun w' _ => R' w' a) :
    succeeds eff (attempt x >>= fun r => last >>= fun _ => answer r) w R' := by
  show ensures eff ((x.run >>= fun r => Program.done (.ok r)) >>= ExceptT.bindCont fun r =>
    last >>= fun _ => answer r) w _
  rw [ensures_bind, ensures_bind]
  refine ensures_mono hx fun w r hr => ?_
  show ensures eff (last.run >>= ExceptT.bindCont fun _ => answer r) w _
  rw [ensures_bind]
  cases r with
  | error e =>
      refine ensures_mono (ensures_true last.run w) fun w' r' _ => ?_
      cases r' with
      | error e' => exact fun _ ha => nomatch ha
      | ok _ => exact fun _ ha => nomatch ha
  | ok a =>
      refine ensures_mono (hlast w a (hr a rfl)) fun w' r' hr' => ?_
      cases r' with
      | error e' => exact fun _ ha => nomatch ha
      | ok _ =>
          intro b hb
          rw [← Except.ok.inj hb]
          exact hr' () rfl

/-- **Soundness.** -/
theorem succeeds_finished {a : α} {t : Trace Ans} {w' : W} (hr : Reaches x.run t (.done (.ok a)))
    (hm : Moves eff w t w') (h : succeeds eff x w R) : R w' a :=
  ensures_finished hr hm h a rfl

end Succeeds

end Interaction
