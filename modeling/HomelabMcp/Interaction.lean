import Mathlib

/-!
# Programs that wait for answers

A program either ends with a value or issues an operation and continues with the answer the
environment gives.  Nothing is said about the environment: any answer may come, and a program may
be abandoned while an operation is pending.  `Reaches p t q` says that `p` becomes `q` once the
operations of the trace `t` were issued and answered in order.

A `Monitor` watches a trace.  It keeps a state of its own and says which operations may be issued
in that state; its `wp` is the weakest precondition of a program: every operation it issues is
allowed, and the value it ends with satisfies the postcondition.
`wp_reaches` carries a `wp` along every trace, `wp_bind` takes a program apart, and
`after_invariant` is the run rule for facts about the monitor's state.
-/

namespace Interaction

/-- A program over operations `Op`, where `Ans op` is the type of the answers to `op`. -/
inductive Program (Op : Type) (Ans : Op → Type) (α : Type) where
  | done (a : α)
  | call (op : Op) (next : Ans op → Program Op Ans α)

/-- An operation together with the answer it got. -/
abbrev Event {Op : Type} (Ans : Op → Type) := Σ op : Op, Ans op

/-- The events of a run, oldest first. -/
abbrev Trace {Op : Type} (Ans : Op → Type) := List (Event Ans)

variable {Op : Type} {Ans : Op → Type} {α β ε : Type}

namespace Program

/-- Run `p`, then `f` on its value. -/
def bind : Program Op Ans α → (α → Program Op Ans β) → Program Op Ans β
  | done a, f => f a
  | call op next, f => call op fun answer => (next answer).bind f

/-- Programs compose by `bind`. -/
instance : Monad (Program Op Ans) where
  pure := done
  bind := bind

/-- Issue one operation and return its answer. -/
def perform (op : Op) : Program Op Ans (Ans op) := call op done

/-- The same program as a part of one with more operations. -/
def lift {Op' : Type} {Ans' : Op' → Type} (f : Op → Op') :
    Program Op (fun op => Ans' (f op)) α → Program Op' Ans' α
  | done a => done a
  | call op next => call (f op) fun answer => (next answer).lift f

/-- The value a program has ended with, if it has. -/
def ended : Program Op Ans α → Option α
  | done a => some a
  | call _ _ => none

/-- A program that only returns has nothing left to do. -/
@[simp] theorem pure_eq (a : α) : (pure a : Program Op Ans α) = done a := rfl

/-- A finished program hands its value on. -/
@[simp] theorem done_bind (a : α) (f : α → Program Op Ans β) : (done a >>= f) = f a := rfl

/-- What follows a program waits for the program's own operations. -/
@[simp] theorem call_bind (op : Op) (next : Ans op → Program Op Ans α)
    (f : α → Program Op Ans β) :
    (call op next >>= f) = call op fun answer => next answer >>= f := rfl

/-- A single operation, and then what is done with its answer. -/
@[simp] theorem perform_bind (op : Op) (f : Ans op → Program Op Ans β) :
    (perform op >>= f) = call op f := rfl

end Program

open Program

/-- `Reaches p t q`: after the events of `t` the program `p` has become `q`. -/
inductive Reaches : Program Op Ans α → Trace Ans → Program Op Ans α → Prop
  | refl (p : Program Op Ans α) : Reaches p [] p
  | step {op : Op} {next : Ans op → Program Op Ans α} {answer : Ans op} {t : Trace Ans}
      {q : Program Op Ans α} (h : Reaches (next answer) t q) :
      Reaches (.call op next) (⟨op, answer⟩ :: t) q

/-- One more event at the end of a run. -/
theorem Reaches.snoc {p : Program Op Ans α} {t : Trace Ans} {op : Op}
    {next : Ans op → Program Op Ans α} (h : Reaches p t (.call op next)) (answer : Ans op) :
    Reaches p (t ++ [⟨op, answer⟩]) (next answer) := by
  generalize hq : Program.call op next = q at h
  induction h with
  | refl p => subst hq; exact .step (.refl _)
  | step _ ih => exact .step (ih hq)

/-- The events of a run determine what becomes of the program. -/
theorem Reaches.unique {p q q' : Program Op Ans α} {t : Trace Ans} (h : Reaches p t q)
    (h' : Reaches p t q') : q = q' := by
  induction h with
  | refl p =>
      cases h'
      rfl
  | step _ ih =>
      cases h' with
      | step h' => exact ih h'

/-- Every operation of a run was waited on after what came before it. -/
theorem Reaches.before {p q : Program Op Ans α} {t u : Trace Ans} {e : Event Ans}
    (h : Reaches p (t ++ e :: u) q) : ∃ next, Reaches p t (.call e.1 next) := by
  induction t generalizing p with
  | nil =>
      cases h with
      | step _ => exact ⟨_, .refl _⟩
  | cons d t ih =>
      cases h with
      | step h =>
          obtain ⟨next, hnext⟩ := ih h
          exact ⟨next, .step hnext⟩

/-- A run to the end, then a run of what follows. -/
theorem Reaches.bind {p : Program Op Ans α} {f : α → Program Op Ans β} {a : α} {t u : Trace Ans}
    {q : Program Op Ans β} (h : Reaches p t (.done a)) (hf : Reaches (f a) u q) :
    Reaches (p >>= f) (t ++ u) q := by
  generalize hd : Program.done a = d at h
  induction h with
  | refl p => subst hd; exact hf
  | step _ ih => exact .step (ih hd)

/-- A run to the end, when what follows ends at once. -/
theorem Reaches.bind_done {p : Program Op Ans α} {f : α → Program Op Ans β} {a : α} {b : β}
    {t : Trace Ans} (h : Reaches p t (.done a)) (hf : f a = .done b) :
    Reaches (p >>= f) t (.done b) := by
  have hend : Reaches (f a) [] (.done b) := by
    rw [hf]
    exact .refl _
  simpa using h.bind hend

/-- The run of what follows, once the first part has ended. -/
theorem Reaches.of_bind {p : Program Op Ans α} {f : α → Program Op Ans β} {a : α}
    {t u : Trace Ans} {q : Program Op Ans β} (h : Reaches p t (.done a))
    (hr : Reaches (p >>= f) (t ++ u) q) : Reaches (f a) u q := by
  generalize hd : Program.done a = d at h
  induction h with
  | refl p => subst hd; exact hr
  | step _ ih =>
      cases hr with
      | step hr => exact ih hr hd

/-- A run of the whole to its end is a run of the first part to its end and a run of the rest. -/
theorem Reaches.bind_inv {p : Program Op Ans α} {f : α → Program Op Ans β} {b : β}
    {t : Trace Ans} (h : Reaches (p >>= f) t (.done b)) :
    ∃ a first rest, Reaches p first (.done a) ∧ Reaches (f a) rest (.done b) ∧
      t = first ++ rest := by
  induction p generalizing t with
  | done a => exact ⟨a, [], t, .refl _, h, rfl⟩
  | call op next ih =>
      cases h with
      | @step _ _ answer t' _ h =>
          obtain ⟨a, first, rest, hfirst, hrest, rfl⟩ := ih answer h
          exact ⟨a, ⟨op, answer⟩ :: first, rest, .step hfirst, hrest, rfl⟩

/-- A program that waits for an answer waits in its first part, or that has ended. -/
theorem Reaches.bind_call {p : Program Op Ans α} {f : α → Program Op Ans β} {op : Op}
    {next : Ans op → Program Op Ans β} {t : Trace Ans}
    (h : Reaches (p >>= f) t (.call op next)) :
    (∃ next', Reaches p t (.call op next')) ∨
      ∃ a first rest, Reaches p first (.done a) ∧ Reaches (f a) rest (.call op next) ∧
        t = first ++ rest := by
  induction p generalizing t with
  | done a => exact .inr ⟨a, [], t, .refl _, h, rfl⟩
  | call op' next' ih =>
      cases h with
      | refl => exact .inl ⟨next', .refl _⟩
      | @step _ _ answer t' _ h =>
          rcases ih answer h with ⟨more, hmore⟩ | ⟨a, first, rest, hfirst, hrest, rfl⟩
          · exact .inl ⟨more, .step hmore⟩
          · exact .inr ⟨a, ⟨op', answer⟩ :: first, rest, .step hfirst, hrest, rfl⟩

/-- A run of a part is a run of the whole. -/
theorem Reaches.lift {Op' : Type} (Ans' : Op' → Type) (f : Op → Op')
    {p q : Program Op (fun op => Ans' (f op)) α} {t : Trace fun op => Ans' (f op)}
    (h : Reaches p t q) :
    Reaches (p.lift f : Program Op' Ans' α) (t.map fun e => ⟨f e.1, e.2⟩) (q.lift f) := by
  induction h with
  | refl p => exact .refl _
  | step _ ih => exact .step ih

namespace Program

/-- A run against an environment that answers by the operation alone: the events of at most that
many steps, and what the program has become. -/
def answered (respond : (op : Op) → Ans op) : Nat → Program Op Ans α →
    Trace Ans × Program Op Ans α
  | 0, p => ([], p)
  | _ + 1, done a => ([], done a)
  | steps + 1, call op next =>
      let run := answered respond steps (next (respond op))
      (⟨op, respond op⟩ :: run.1, run.2)

/-- What such an environment answers is a run of the program. -/
theorem answered_reaches (respond : (op : Op) → Ans op) (steps : Nat) (p : Program Op Ans α) :
    Reaches p (p.answered respond steps).1 (p.answered respond steps).2 := by
  induction steps generalizing p with
  | zero => exact .refl p
  | succ steps ih =>
      cases p with
      | done a => exact .refl _
      | call op next => exact .step (ih _)

/-- A run of an environment to the end. -/
theorem answered_ended (respond : (op : Op) → Ans op) (steps : Nat) (p : Program Op Ans α) {a : α}
    (h : (p.answered respond steps).2.ended = some a) :
    Reaches p (p.answered respond steps).1 (.done a) := by
  have hrun := answered_reaches respond steps p
  generalize (p.answered respond steps).2 = q at h hrun
  cases q with
  | done b =>
      obtain rfl := Option.some.inj h
      exact hrun
  | call op next => cases h

/-- A run of an environment to a success. -/
theorem answered_ok (respond : (op : Op) → Ans op) (steps : Nat) (p : Program Op Ans (Except ε α))
    (h : (p.answered respond steps).2.ended.any Except.toBool = true) :
    ∃ a, Reaches p (p.answered respond steps).1 (.done (.ok a)) := by
  cases hended : (p.answered respond steps).2.ended with
  | none => simp [hended] at h
  | some r =>
      cases r with
      | ok a => exact ⟨a, answered_ended respond steps p hended⟩
      | error e => simp [hended, Except.toBool] at h

/-- A run of an environment that has not ended waits for an answer. -/
theorem answered_pending (respond : (op : Op) → Ans op) (steps : Nat) (p : Program Op Ans α)
    (h : (p.answered respond steps).2.ended.isSome = false) :
    ∃ op next, Reaches p (p.answered respond steps).1 (.call op next) := by
  have hrun := answered_reaches respond steps p
  generalize (p.answered respond steps).2 = q at h hrun
  cases q with
  | done a => cases h
  | call op next => exact ⟨op, next, hrun⟩

/-- With such an environment, a first part that has ended has one run. -/
theorem answered_first (respond : (op : Op) → Ans op) {f : α → Program Op Ans β} {steps : Nat}
    {p : Program Op Ans α} {a : α} {first rest : Trace Ans}
    (ht : ((p >>= f).answered respond steps).1 = first ++ rest) (h : Reaches p first (.done a)) :
    p.answered respond steps = (first, .done a) := by
  generalize hq : Program.done a = q at h
  induction h generalizing steps with
  | refl p =>
      subst hq
      cases steps <;> rfl
  | @step op next answer t q _ ih =>
      cases steps with
      | zero => cases ht
      | succ steps =>
          have ht : (⟨op, respond op⟩ : Event Ans) ::
              ((next (respond op) >>= f).answered respond steps).1 =
                ⟨op, answer⟩ :: (t ++ rest) := ht
          obtain ⟨hevent, hrest⟩ := List.cons.inj ht
          obtain rfl : respond op = answer := eq_of_heq (Sigma.mk.inj hevent).2
          have hnext := ih hrest hq
          rw [answered, hnext]

/-- The run of a first part starts the run of the whole. -/
theorem answered_bind_start (respond : (op : Op) → Ans op) (f : α → Program Op Ans β)
    {steps more : Nat} (h : steps ≤ more) (p : Program Op Ans α) :
    (p.answered respond steps).1 <+: ((p >>= f).answered respond more).1 := by
  induction steps generalizing more p with
  | zero => exact List.nil_prefix
  | succ steps ih =>
      cases p with
      | done a => exact List.nil_prefix
      | call op next =>
          cases more with
          | zero => exact absurd h (Nat.not_succ_le_zero steps)
          | succ more => exact List.cons_prefix_cons.mpr ⟨rfl, ih (Nat.le_of_succ_le_succ h) _⟩

end Program

/-- A monitor of traces: which operations may be issued, and how the monitor's own state moves
when one is answered. -/
structure Monitor (Ans : Op → Type) (S : Type) where
  may : S → Op → Prop
  next : S → (op : Op) → Ans op → S

namespace Monitor

variable {S : Type} (m : Monitor Ans S)

/-- The monitor's state after a trace. -/
def after (s : S) : Trace Ans → S
  | [] => s
  | e :: t => after (m.next s e.1 e.2) t

/-- Every operation of the trace was allowed when it was issued. -/
def Allowed (s : S) : Trace Ans → Prop
  | [] => True
  | e :: t => m.may s e.1 ∧ Allowed (m.next s e.1 e.2) t

/-- Weakest precondition of a program for the postcondition `Q`. -/
def wp : Program Op Ans α → S → (S → α → Prop) → Prop
  | .done a, s, Q => Q s a
  | .call op next, s, Q => m.may s op ∧ ∀ answer, wp (next answer) (m.next s op answer) Q

/-- Nothing done leaves the state. -/
@[simp] theorem after_nil (s : S) : m.after s [] = s := rfl

/-- The state after the first operation, and after the rest. -/
@[simp] theorem after_cons (s : S) (e : Event Ans) (t : Trace Ans) :
    m.after s (e :: t) = m.after (m.next s e.1 e.2) t := rfl

/-- The state after two stretches is that of the second from where the first ends. -/
theorem after_append (s : S) (t u : Trace Ans) :
    m.after s (t ++ u) = m.after (m.after s t) u := by
  induction t generalizing s with
  | nil => rfl
  | cons e t ih => exact ih _

/-- Nothing done breaks no rule. -/
@[simp] theorem allowed_nil (s : S) : m.Allowed s [] := trivial

/-- The first operation is one that may be done, and the rest are from there. -/
@[simp] theorem allowed_cons (s : S) (e : Event Ans) (t : Trace Ans) :
    m.Allowed s (e :: t) ↔ m.may s e.1 ∧ m.Allowed (m.next s e.1 e.2) t := Iff.rfl

/-- Two stretches keep the rule where the first does and the second does from where it ends. -/
theorem allowed_append (s : S) (t u : Trace Ans) :
    m.Allowed s (t ++ u) ↔ m.Allowed s t ∧ m.Allowed (m.after s t) u := by
  induction t generalizing s with
  | nil => simp
  | cons e t ih => simp [ih, and_assoc]

/-- An operation of an allowed trace was allowed in some state. -/
theorem Allowed.mem {m : Monitor Ans S} {s : S} {t : Trace Ans} (h : m.Allowed s t)
    {e : Event Ans} (he : e ∈ t) : ∃ s', m.may s' e.1 := by
  induction t generalizing s with
  | nil => simp at he
  | cons d t ih =>
      rcases List.mem_cons.mp he with rfl | he
      · exact ⟨s, h.1⟩
      · exact ih h.2 he

/-- A finished program has only its postcondition to meet. -/
@[simp] theorem wp_done (a : α) (s : S) (Q : S → α → Prop) :
    m.wp (.done a : Program Op Ans α) s Q ↔ Q s a := Iff.rfl

/-- An operation must be allowed, and every answer to it lead to the postcondition. -/
@[simp] theorem wp_call (op : Op) (next : Ans op → Program Op Ans α) (s : S)
    (Q : S → α → Prop) :
    m.wp (.call op next) s Q ↔ m.may s op ∧ ∀ answer, m.wp (next answer) (m.next s op answer) Q :=
  Iff.rfl

/-- The same for a program that is a single operation. -/
@[simp] theorem wp_perform (op : Op) (s : S) (Q : S → Ans op → Prop) :
    m.wp (perform op) s Q ↔ m.may s op ∧ ∀ answer, Q (m.next s op answer) answer := Iff.rfl

/-- **Sequencing.** -/
theorem wp_bind (p : Program Op Ans α) (f : α → Program Op Ans β) (s : S) (Q : S → β → Prop) :
    m.wp (p >>= f) s Q ↔ m.wp p s fun s a => m.wp (f a) s Q := by
  induction p generalizing s with
  | done a => rfl
  | call op next ih => simp [ih]

/-- **Consequence.** -/
theorem wp_mono {p : Program Op Ans α} {s : S} {Q Q' : S → α → Prop} (h : m.wp p s Q)
    (hQ : ∀ s a, Q s a → Q' s a) : m.wp p s Q' := by
  induction p generalizing s with
  | done a => exact hQ _ _ h
  | call op next ih => exact ⟨h.1, fun answer => ih answer (h.2 answer)⟩

/-- Where every operation is allowed, a program ends somehow. -/
theorem wp_true (h : ∀ s op, m.may s op) (p : Program Op Ans α) (s : S) :
    m.wp p s fun _ _ => True := by
  induction p generalizing s with
  | done a => trivial
  | call op next ih => exact ⟨h s op, fun answer => ih answer _⟩

/-- A part of a program keeps the weakest precondition it has on its own, where the monitor of the
whole moves as the monitor of the part does. -/
theorem wp_lift {Op' : Type} {Ans' : Op' → Type} {S' : Type} (m' : Monitor Ans' S')
    (f : Op → Op') {m : Monitor (fun op => Ans' (f op)) S} (put : S → S')
    (hmay : ∀ s op, m.may s op → m'.may (put s) (f op))
    (hnext : ∀ s op answer, m'.next (put s) (f op) answer = put (m.next s op answer))
    {p : Program Op (fun op => Ans' (f op)) α} {s : S} {Q : S → α → Prop} (h : m.wp p s Q) :
    m'.wp (p.lift f) (put s) fun s' a => ∃ l, s' = put l ∧ Q l a := by
  induction p generalizing s with
  | done a => exact ⟨s, rfl, h⟩
  | call op next ih =>
      refine ⟨hmay s op h.1, fun answer => ?_⟩
      rw [hnext]
      exact ih answer (h.2 answer)

/-- **Soundness.**  A weakest precondition holds of whatever a program has become, and every
operation issued on the way was allowed. -/
theorem wp_reaches {p q : Program Op Ans α} {t : Trace Ans} {s : S} {Q : S → α → Prop}
    (hr : Reaches p t q) (h : m.wp p s Q) : m.wp q (m.after s t) Q ∧ m.Allowed s t := by
  induction hr generalizing s with
  | refl p => exact ⟨h, trivial⟩
  | step _ ih =>
      obtain ⟨hq, ha⟩ := ih (h.2 _)
      exact ⟨hq, h.1, ha⟩

/-- The postcondition holds of the value a finished run ends with. -/
theorem wp_finished {p : Program Op Ans α} {a : α} {t : Trace Ans} {s : S} {Q : S → α → Prop}
    (hr : Reaches p t (.done a)) (h : m.wp p s Q) : Q (m.after s t) a := (m.wp_reaches hr h).1

/-- **Run rule.**  What every allowed event preserves holds after the run. -/
theorem after_invariant {I : S → Prop}
    (hstep : ∀ s op answer, I s → m.may s op → I (m.next s op answer))
    {t : Trace Ans} {s : S} (hs : I s) (ha : m.Allowed s t) : I (m.after s t) := by
  induction t generalizing s with
  | nil => exact hs
  | cons e t ih => exact ih (hstep _ _ _ hs ha.1) ha.2

end Monitor

/-- A result computed in steps is `ok` when every step is. -/
theorem bind_eq_ok {x : Except ε α} {f : α → Except ε β} {b : β} :
    (x >>= f) = .ok b ↔ ∃ a, x = .ok a ∧ f a = .ok b := by
  cases x with
  | ok a => exact ⟨fun h => ⟨a, rfl, h⟩, fun ⟨_, ha, h⟩ => Except.ok.inj ha ▸ h⟩
  | error e => exact ⟨nofun, fun ⟨_, ha, _⟩ => by cases ha⟩

/-- A result computed in steps is the error of the first step that is none. -/
theorem bind_eq_error {x : Except ε α} {f : α → Except ε β} {e : ε} :
    (x >>= f) = .error e ↔ x = .error e ∨ ∃ a, x = .ok a ∧ f a = .error e := by
  cases x with
  | ok a =>
      refine ⟨fun h => .inr ⟨a, rfl, h⟩, fun h => ?_⟩
      obtain h | ⟨b, hb, h⟩ := h
      · cases h
      · obtain rfl := Except.ok.inj hb
        exact h
  | error e' =>
      refine ⟨fun h => .inl (show .error e' = (.error e : Except ε α) from ?_), fun h => ?_⟩
      · rw [show e' = e from Except.error.inj h]
      · obtain h | ⟨b, hb, -⟩ := h
        · obtain rfl := Except.error.inj h
          rfl
        · cases hb

/-- Where all succeed, the results stand beside what they are results of. -/
theorem forall₂_of_mapM {f : α → Except ε β} {l : List α} {l' : List β} (h : l.mapM f = .ok l') :
    List.Forall₂ (fun a b => f a = .ok b) l l' := by
  induction l generalizing l' with
  | nil =>
      obtain rfl := Except.ok.inj (show .ok [] = (.ok l' : Except ε (List β)) from h)
      exact .nil
  | cons a l ih =>
      rw [List.mapM_cons] at h
      obtain ⟨b, hb, h⟩ := bind_eq_ok.mp h
      obtain ⟨bs, hbs, h⟩ := bind_eq_ok.mp h
      obtain rfl := Except.ok.inj h
      exact .cons hb (ih hbs)

/-- And a list of results beside its list of arguments is where all succeed. -/
theorem mapM_of_forall₂ {f : α → Except ε β} {l : List α} {l' : List β}
    (h : List.Forall₂ (fun a b => f a = .ok b) l l') : l.mapM f = .ok l' := by
  induction h with
  | nil => rfl
  | cons hhead _ ih =>
      rw [List.mapM_cons, hhead, ih]
      rfl

/-- A relation that says of related elements what a predicate says of the first. -/
theorem forall₂_iff_forall_mem {Q P : α → β → Prop} {p : α → Prop} {as : List α}
    {bs : List β} (hiff : ∀ a b, Q a b → (P a b ↔ p a)) (h : List.Forall₂ Q as bs) :
    List.Forall₂ P as bs ↔ ∀ a ∈ as, p a := by
  induction h with
  | nil => simp
  | cons hab _ ih => rw [List.forall₂_cons, List.forall_mem_cons, ih, hiff _ _ hab]

/-- What stands in the second list has its partner in the first. -/
theorem exists_left_of_mem {R : α → β → Prop} {as : List α} {bs : List β} {b : β}
    (h : List.Forall₂ R as bs) (hb : b ∈ bs) : ∃ a ∈ as, R a b := by
  induction h with
  | nil => cases hb
  | cons hab _ ih =>
      rcases List.mem_cons.mp hb with rfl | hb
      · exact ⟨_, List.mem_cons_self, hab⟩
      · obtain ⟨a, ha, h⟩ := ih hb
        exact ⟨a, List.mem_cons_of_mem _ ha, h⟩

/-- The value there is, or an error. -/
def okOr (e : ε) : Option α → Except ε α
  | some a => .ok a
  | none => .error e

/-- A missing value is the only failure. -/
theorem okOr_eq_ok {e : ε} {o : Option α} {a : α} : okOr e o = .ok a ↔ o = some a := by
  cases o <;> simp [okOr]

/-- And then the failure is the given one. -/
theorem okOr_eq_error {e e' : ε} {o : Option α} : okOr e o = .error e' ↔ o = none ∧ e = e' := by
  cases o <;> simp [okOr]

/-- Fail with `e` unless `ok`. -/
def demand (ok : Bool) (e : ε) : Except ε Unit := if ok then .ok () else .error e

/-- A demand is met where its condition is. -/
theorem demand_eq_ok {ok : Bool} {e : ε} {u : Unit} : demand ok e = .ok u ↔ ok = true := by
  cases ok <;> simp [demand]

/-- And otherwise fails with its own error. -/
theorem demand_eq_error {ok : Bool} {e e' : ε} :
    demand ok e = .error e' ↔ ok = false ∧ e = e' := by
  cases ok <;> simp [demand]

/-- A program whose value is a result that may be an error. -/
abbrev Fallible (Ans : Op → Type) (ε α : Type) := ExceptT ε (Program Op Ans) α

/-- Issue one operation inside a fallible program. -/
def ask (op : Op) : Fallible Ans ε (Ans op) := ExceptT.lift (perform op)

/-- The outcome of a fallible program as a value, without the early return of the `?` operator. -/
def attempt (x : Fallible Ans ε α) : Fallible Ans ε (Except ε α) := ExceptT.lift x.run

/-- Go on if `ok`, else fail with `e`. -/
def ensure (ok : Bool) (e : ε) : Fallible Ans ε Unit := if ok then pure () else throw e

/-- A result computed without any operation. -/
def answer : Except ε α → Fallible Ans ε α := fun r => ExceptT.mk (.done r)

/-- A program that has ended has failed in its first part, or that has succeeded. -/
theorem Reaches.run_bind_done {x : Fallible Ans ε α} {f : α → Fallible Ans ε β}
    {r : Except ε β} {t : Trace Ans} (h : Reaches (x >>= f).run t (.done r)) :
    (∃ e, r = .error e ∧ Reaches x.run t (.done (.error e))) ∨
      ∃ a first rest, Reaches x.run first (.done (.ok a)) ∧ Reaches (f a).run rest (.done r) ∧
        t = first ++ rest := by
  have h : Reaches (x.run >>= ExceptT.bindCont f) t (.done r) := h
  obtain ⟨outcome, first, rest, hfirst, hrest, rfl⟩ := h.bind_inv
  cases outcome with
  | ok a => exact .inr ⟨a, first, rest, hfirst, hrest, rfl⟩
  | error e =>
      have hrest : Reaches (.done (.error e) : Program Op Ans (Except ε β)) rest (.done r) := hrest
      cases hrest
      exact .inl ⟨e, rfl, by simpa using hfirst⟩

/-- A program that has succeeded has had a first part that succeeded. -/
theorem Reaches.run_bind_ok {x : Fallible Ans ε α} {f : α → Fallible Ans ε β} {b : β}
    {t : Trace Ans} (h : Reaches (x >>= f).run t (.done (.ok b))) :
    ∃ a first rest, Reaches x.run first (.done (.ok a)) ∧ Reaches (f a).run rest (.done (.ok b)) ∧
      t = first ++ rest := by
  rcases h.run_bind_done with ⟨e, he, -⟩ | hfound
  · cases he
  · exact hfound

/-- A program that waits for an answer waits in its first part, or that has succeeded. -/
theorem Reaches.run_bind_call {x : Fallible Ans ε α} {f : α → Fallible Ans ε β} {op : Op}
    {next : Ans op → Program Op Ans (Except ε β)} {t : Trace Ans}
    (h : Reaches (x >>= f).run t (.call op next)) :
    (∃ next', Reaches x.run t (.call op next')) ∨
      ∃ a first rest, Reaches x.run first (.done (.ok a)) ∧
        Reaches (f a).run rest (.call op next) ∧ t = first ++ rest := by
  have h : Reaches (x.run >>= ExceptT.bindCont f) t (.call op next) := h
  rcases h.bind_call with hfirst | ⟨r, first, rest, hfirst, hrest, rfl⟩
  · exact .inl hfirst
  · cases r with
    | ok a => exact .inr ⟨a, first, rest, hfirst, hrest, rfl⟩
    | error e =>
        have hrest : Reaches (.done (.error e) : Program Op Ans (Except ε β)) rest
            (.call op next) := hrest
        cases hrest

/-- A program that has come to a later operation has passed the answer before it. -/
theorem Reaches.run_answer_call {r : Except ε α} {f : α → Fallible Ans ε β} {op : Op}
    {next : Ans op → Program Op Ans (Except ε β)} {t : Trace Ans}
    (h : Reaches (answer r >>= f).run t (.call op next)) :
    ∃ a, r = .ok a ∧ Reaches (f a).run t (.call op next) := by
  rcases h.run_bind_call with ⟨next', hfirst⟩ | ⟨a, first, rest, hfirst, hrest, rfl⟩
  · have hfirst : Reaches (.done r : Program Op Ans (Except ε α)) t (.call op next') := hfirst
    cases hfirst
  · have hfirst : Reaches (.done r : Program Op Ans (Except ε α)) first (.done (.ok a)) := hfirst
    cases hfirst
    exact ⟨a, rfl, hrest⟩

/-- It has met the condition before it. -/
theorem Reaches.run_ensure_call {ok : Bool} {e : ε} {f : Unit → Fallible Ans ε β} {op : Op}
    {next : Ans op → Program Op Ans (Except ε β)} {t : Trace Ans}
    (h : Reaches (ensure ok e >>= f).run t (.call op next)) :
    ok = true ∧ Reaches (f ()).run t (.call op next) := by
  cases ok with
  | true => exact ⟨rfl, h⟩
  | false =>
      have h : Reaches (.done (.error e) : Program Op Ans (Except ε β)) t (.call op next) := h
      cases h

/-- An answer alone returns its value and does nothing. -/
theorem Reaches.run_answer_ok {r : Except ε α} {a : α} {t : Trace Ans}
    (h : Reaches (answer r : Fallible Ans ε α).run t (.done (.ok a))) : r = .ok a ∧ t = [] := by
  have h : Reaches (.done r : Program Op Ans (Except ε α)) t (.done (.ok a)) := h
  cases h
  exact ⟨rfl, rfl⟩

/-- A program that asks first and has succeeded has had an answer. -/
theorem Reaches.run_ask_ok {op : Op} {f : Ans op → Fallible Ans ε β} {b : β} {t : Trace Ans}
    (h : Reaches (ask op >>= f).run t (.done (.ok b))) :
    ∃ answer rest, Reaches (f answer).run rest (.done (.ok b)) ∧ t = ⟨op, answer⟩ :: rest := by
  cases h with
  | step h => exact ⟨_, _, h, rfl⟩

/-- A result that was computed took no operation. -/
theorem Reaches.run_answer_bind_ok {r : Except ε α} {f : α → Fallible Ans ε β} {b : β}
    {t : Trace Ans} (h : Reaches (answer r >>= f).run t (.done (.ok b))) :
    ∃ a, r = .ok a ∧ Reaches (f a).run t (.done (.ok b)) := by
  obtain ⟨a, first, rest, hfirst, hrest, rfl⟩ := h.run_bind_ok
  obtain ⟨hok, rfl⟩ := hfirst.run_answer_ok
  exact ⟨a, hok, hrest⟩

/-- A value that was there was taken without an operation. -/
theorem Reaches.run_okOr_ok {e : ε} {o : Option α} {f : α → Fallible Ans ε β} {b : β}
    {t : Trace Ans} (h : Reaches (answer (okOr e o) >>= f).run t (.done (.ok b))) :
    ∃ a, o = some a ∧ Reaches (f a).run t (.done (.ok b)) := by
  obtain ⟨a, hok, hrest⟩ := h.run_answer_bind_ok
  exact ⟨a, okOr_eq_ok.mp hok, hrest⟩

/-- A check that was passed took no operation. -/
theorem Reaches.run_ensure_done {ok : Bool} {e : ε} {u : Unit} {t : Trace Ans}
    (h : Reaches (ensure ok e : Fallible Ans ε Unit).run t (.done (.ok u))) :
    ok = true ∧ t = [] := by
  cases ok with
  | true =>
      have h : Reaches (.done (.ok ()) : Program Op Ans (Except ε Unit)) t (.done (.ok u)) := h
      cases h
      exact ⟨rfl, rfl⟩
  | false =>
      have h : Reaches (.done (.error e) : Program Op Ans (Except ε Unit)) t (.done (.ok u)) := h
      cases h

/-- A program that returned has met the condition that stood first. -/
theorem Reaches.run_ensure_ok {ok : Bool} {e : ε} {f : Unit → Fallible Ans ε β} {b : β}
    {t : Trace Ans} (h : Reaches (ensure ok e >>= f).run t (.done (.ok b))) :
    ok = true ∧ Reaches (f ()).run t (.done (.ok b)) := by
  obtain ⟨u, first, rest, hfirst, hrest, rfl⟩ := h.run_bind_ok
  obtain ⟨hok, rfl⟩ := hfirst.run_ensure_done
  exact ⟨hok, hrest⟩

section Forward

variable {x : Program Op Ans (Except ε β)} {t : Trace Ans}

/-- From the rest of a run to the whole, for an operation that stands first. -/
theorem Reaches.ask_bind {op : Op} {f : Ans op → Fallible Ans ε β} {a : Ans op}
    (h : Reaches (f a).run t x) : Reaches (ask op >>= f).run (⟨op, a⟩ :: t) x := .step h

/-- The same for a value that stands first. -/
theorem Reaches.answer_bind {r : Except ε α} {f : α → Fallible Ans ε β} {a : α} (hr : r = .ok a)
    (h : Reaches (f a).run t x) : Reaches (answer r >>= f).run t x := by
  subst hr
  exact h

/-- The same for a condition that stands first. -/
theorem Reaches.ensure_bind {ok : Bool} {e : ε} {f : Unit → Fallible Ans ε β} (hok : ok = true)
    (h : Reaches (f ()).run t x) : Reaches (ensure ok e >>= f).run t x := by
  subst hok
  exact h

end Forward

namespace Monitor

variable {S : Type} (m : Monitor Ans S)

/-- A value that is returned has only the postcondition to meet. -/
@[simp] theorem wp_run_pure (a : α) (s : S) (Q : S → Except ε α → Prop) :
    m.wp (pure a : Fallible Ans ε α).run s Q ↔ Q s (.ok a) := Iff.rfl

/-- An error that is returned has, too. -/
@[simp] theorem wp_run_throw (e : ε) (s : S) (Q : S → Except ε α → Prop) :
    m.wp (throw e : Fallible Ans ε α).run s Q ↔ Q s (.error e) := Iff.rfl

/-- A value or an error is returned as it is. -/
@[simp] theorem wp_run_answer (r : Except ε α) (s : S) (Q : S → Except ε α → Prop) :
    m.wp (answer r : Fallible Ans ε α).run s Q ↔ Q s r := Iff.rfl

/-- An operation within a program that may fail. -/
@[simp] theorem wp_run_ask (op : Op) (s : S) (Q : S → Except ε (Ans op) → Prop) :
    m.wp (ask op : Fallible Ans ε (Ans op)).run s Q ↔
      m.may s op ∧ ∀ a, Q (m.next s op a) (.ok a) := Iff.rfl

/-- A condition ends in its error or lets the rest go on. -/
theorem wp_run_ensure {ok : Bool} {e : ε} {s : S} {Q : S → Except ε Unit → Prop}
    (hok : ok = true → Q s (.ok ())) (herror : ok = false → Q s (.error e)) :
    m.wp (ensure ok e : Fallible Ans ε Unit).run s Q := by
  cases ok with
  | true => exact hok rfl
  | false => exact herror rfl

/-- Sequencing with early return: an error skips the continuation. -/
theorem wp_run_bind (x : Fallible Ans ε α) (f : α → Fallible Ans ε β) (s : S)
    (Q : S → Except ε β → Prop) :
    m.wp (x >>= f).run s Q ↔
      m.wp x.run s fun s r => match r with
        | .ok a => m.wp (f a).run s Q
        | .error e => Q s (.error e) := by
  show m.wp (x.run >>= ExceptT.bindCont f) s Q ↔ _
  rw [wp_bind]
  constructor <;> intro h <;> refine m.wp_mono h fun s r hr => ?_
  · cases r <;> exact hr
  · cases r <;> exact hr

section First

variable (f : α → Fallible Ans ε β) (s : S) (Q : S → Except ε β → Prop)

/-- A value goes on to what follows, an error past it. -/
theorem wp_run_answer_bind (r : Except ε α) :
    m.wp (answer r >>= f).run s Q ↔
      match r with
      | .ok a => m.wp (f a).run s Q
      | .error e => Q s (.error e) := by
  rw [wp_run_bind, wp_run_answer]

/-- An operation goes on to what follows with its answer. -/
theorem wp_run_ask_bind (op : Op) (f : Ans op → Fallible Ans ε β) :
    m.wp (ask op >>= f).run s Q ↔ m.may s op ∧ ∀ a, m.wp (f a).run (m.next s op a) Q := by
  rw [wp_run_bind, wp_run_ask]

/-- What follows a condition starts only where it is met. -/
theorem wp_run_ensure_bind {ok : Bool} {e : ε} {f : Unit → Fallible Ans ε β} {s : S}
    {Q : S → Except ε β → Prop} (hok : ok = true → m.wp (f ()).run s Q)
    (herror : ok = false → Q s (.error e)) : m.wp (ensure ok e >>= f).run s Q := by
  rw [wp_run_bind]
  exact m.wp_run_ensure hok herror

end First

/-- What was attempted hands over its outcome, and an error is one. -/
theorem wp_run_attempt (x : Fallible Ans ε α) (s : S) (Q : S → Except ε (Except ε α) → Prop) :
    m.wp (attempt x).run s Q ↔ m.wp x.run s fun s r => Q s (.ok r) := by
  show m.wp (x.run >>= fun r => Program.done (.ok r)) s Q ↔ _
  rw [wp_bind]
  rfl

end Monitor

namespace Monitor

/-- The monitor whose state is the trace so far. -/
def history (may : Trace Ans → Op → Prop) : Monitor Ans (Trace Ans) where
  may := may
  next t op answer := t ++ [⟨op, answer⟩]

variable {may : Trace Ans → Op → Prop}

/-- What the history allows is what its rule allows. -/
@[simp] theorem history_may (t : Trace Ans) (op : Op) : (history may).may t op = may t op := rfl

/-- Every operation is written at the end. -/
@[simp] theorem history_next (t : Trace Ans) (op : Op) (answer : Ans op) :
    (history may).next t op answer = t ++ [⟨op, answer⟩] := rfl

/-- The history after a run is all of it. -/
theorem after_history (t u : Trace Ans) : (history may).after t u = t ++ u := by
  induction u generalizing t with
  | nil => simp
  | cons e u ih => simp [ih]

/-- The postcondition of a finished run speaks of its trace. -/
theorem history_finished {p : Program Op Ans α} {a : α} {t : Trace Ans}
    {Q : Trace Ans → α → Prop} (hr : Reaches p t (.done a)) (h : (history may).wp p [] Q) :
    Q t a := by
  simpa [after_history] using (history may).wp_finished hr h

/-- Whatever operation a run comes to was allowed after its trace. -/
theorem history_pending {p : Program Op Ans α} {op : Op} {next : Ans op → Program Op Ans α}
    {t : Trace Ans} {Q : Trace Ans → α → Prop} (hr : Reaches p t (.call op next))
    (h : (history may).wp p [] Q) : may t op := by
  simpa [after_history] using ((history may).wp_reaches hr h).1.1

end Monitor

/-- Whatever is answered, only operations that satisfy `P` are issued. -/
def Program.Only (P : Op → Prop) : Program Op Ans α → Prop
  | .done _ => True
  | .call op next => P op ∧ ∀ answer, Only P (next answer)

variable {P : Op → Prop}

/-- Two programs that keep to some operations keep to them one after the other. -/
theorem Program.Only.bind {p : Program Op Ans α} {f : α → Program Op Ans β} (hp : p.Only P)
    (hf : ∀ a, (f a).Only P) : (p >>= f).Only P := by
  induction p with
  | done a => exact hf a
  | call op next ih => exact ⟨hp.1, fun answer => ih answer (hp.2 answer)⟩

/-- A wider choice of operations is kept, too. -/
theorem Program.Only.mono {Q : Op → Prop} {p : Program Op Ans α} (h : p.Only P)
    (hweaker : ∀ op, P op → Q op) : p.Only Q := by
  induction p with
  | done a => trivial
  | call op next ih => exact ⟨hweaker op h.1, fun a => ih a (h.2 a)⟩

/-- A program of one alphabet keeps within its image in another. -/
theorem Program.only_lift {Op' : Type} {Ans' : Op' → Type} {P : Op' → Prop} (f : Op → Op')
    (h : ∀ op, P (f op)) (p : Program Op (fun op => Ans' (f op)) α) :
    (p.lift f : Program Op' Ans' α).Only P := by
  induction p with
  | done a => trivial
  | call op next ih => exact ⟨h op, ih⟩

/-- The same for programs that may fail. -/
theorem only_run_bind {x : Fallible Ans ε α} {f : α → Fallible Ans ε β}
    (hx : x.run.Only P) (hf : ∀ a, (f a).run.Only P) : (x >>= f).run.Only P := by
  refine Program.Only.bind hx fun r => ?_
  cases r with
  | error e => trivial
  | ok a => exact hf a

/-- An operation that is one of them. -/
theorem only_ask {op : Op} (h : P op) : (ask op : Fallible Ans ε (Ans op)).run.Only P :=
  ⟨h, fun _ => trivial⟩

/-- A condition is no operation. -/
theorem only_ensure (ok : Bool) (e : ε) : (ensure ok e : Fallible Ans ε Unit).run.Only P := by
  cases ok <;> trivial

/-- Nor is a value. -/
theorem only_answer (r : Except ε α) : (answer r : Fallible Ans ε α).run.Only P := trivial

/-- What follows a value needs only the value that was there. -/
theorem only_answer_bind {r : Except ε α} {f : α → Fallible Ans ε β}
    (hf : ∀ a, r = .ok a → (f a).run.Only P) : (answer r >>= f).run.Only P := by
  cases r with
  | error e => trivial
  | ok a => exact hf a rfl

/-- With some answers, an operation that satisfies `P` is issued. -/
def Program.Asks (P : Op → Prop) : Program Op Ans α → Prop
  | .done _ => False
  | .call op next => P op ∨ ∃ answer, Asks P (next answer)

/-- A program that comes to an operation still does when more follows. -/
theorem Program.Asks.bind {p : Program Op Ans α} {f : α → Program Op Ans β} (h : p.Asks P) :
    (p >>= f).Asks P := by
  induction p with
  | done a => exact h.elim
  | call op next ih =>
      rcases h with hop | ⟨answer, hlater⟩
      · exact Or.inl hop
      · exact Or.inr ⟨answer, ih answer hlater⟩

/-- The same for programs that may fail. -/
theorem asks_run_bind {x : Fallible Ans ε α} {f : α → Fallible Ans ε β} (h : x.run.Asks P) :
    (x >>= f).run.Asks P := Program.Asks.bind h

/-- The operation that stands first is come to. -/
theorem asks_ask {op : Op} (h : P op) : (ask op : Fallible Ans ε (Ans op)).run.Asks P := Or.inl h

/-- A value before it is passed. -/
theorem asks_answer_bind {r : Except ε α} {f : α → Fallible Ans ε β} {a : α} (hr : r = .ok a)
    (h : (f a).run.Asks P) : (answer r >>= f).run.Asks P := by
  subst hr
  exact h

/-- A condition that is met is passed. -/
theorem asks_ensure_bind {ok : Bool} {e : ε} {f : Unit → Fallible Ans ε β} (hok : ok = true)
    (h : (f ()).run.Asks P) : (ensure ok e >>= f).run.Asks P := by
  subst hok
  exact h

/-- An attempt does what is attempted. -/
theorem only_attempt {x : Fallible Ans ε α} (h : x.run.Only P) : (attempt x).run.Only P :=
  h.bind fun _ => trivial

/-- What follows a condition needs it only where it is met. -/
theorem only_ensure_bind {ok : Bool} {e : ε} {f : Unit → Fallible Ans ε β}
    (h : ok = true → (f ()).run.Only P) : (ensure ok e >>= f).run.Only P := by
  cases ok with
  | false => trivial
  | true => exact h rfl

/-- A monitor that lets such operations pass is left where it was. -/
theorem Monitor.wp_of_only {S : Type} (m : Monitor Ans S) {s : S}
    (hmay : ∀ op, P op → m.may s op) (hnext : ∀ op answer, P op → m.next s op answer = s)
    {p : Program Op Ans α} (h : p.Only P) : m.wp p s fun s' _ => s' = s := by
  induction p with
  | done a => rfl
  | call op next ih =>
      refine ⟨hmay op h.1, fun answer => ?_⟩
      rw [hnext op answer h.1]
      exact ih answer (h.2 answer)

end Interaction
