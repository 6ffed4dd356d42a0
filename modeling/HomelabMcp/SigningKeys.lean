import HomelabMcp.Interaction
import HomelabMcp.ProcessPool

/-!
# The first signing key

Every replica of the server makes sure at its start that there is an active signing key.  The
replicas share the key store, and each holds an advisory lock of the database for the length of a
transaction.  The lock is the session's: it goes with the end of the transaction, also when the
replica has failed, and it goes as well when the session is lost while the replica runs on.

The key store and the server that writes to it are third-party; what is relied on of them is
`KeyStore`.

* `bootstrap_exclusive`: in every interleaving in which no holder of the lock has lost its session,
  one replica at a time is between the lock and its end, and a key is generated or activated only
  while there is none.
* `initialized_active`: whatever is lost, a replica that has started has an active key.
* `lost_session_generates_twice`: the condition cannot be left out.
-/

namespace SigningKeys

open Interaction ProcessPool

variable {σ Key : Type}

/-- A key as it was generated, and whether it is active at once. -/
structure Generated (Key : Type) where
  keyId : Key
  isActive : Bool

/-- The calls of the third-party store and server. -/
inductive StoreOp (Key : Type) where
  | activeSigningKey
  | generateSigningKeyCandidate
  | activateSigningKey (keyId : Key)
  | validateSigningKeyReadiness

/-- A call that fails answers nothing. -/
abbrev StoreAns : StoreOp Key → Type
  | .activeSigningKey => Option (Option Key)
  | .generateSigningKeyCandidate => Option (Generated Key)
  | .activateSigningKey _ => Option Bool
  | .validateSigningKeyReadiness => Option Unit

/-- The operations of a replica that starts. -/
inductive Op (Key : Type) where
  | begin
  | lock
  | store (op : StoreOp Key)
  | commit

/-- What each operation answers. -/
abbrev Ans : Op Key → Type
  | .begin | .lock | .commit => Bool
  | .store op => StoreAns op

/-- A part of the start. -/
abbrev Startup (Key : Type) := Fallible (@Ans Key) String

/-- Generate a key, and activate it if it is not active. -/
def bootstrapKey : Startup Key Unit := do
  let generated ← answer (okOr "failed to bootstrap OAuth signing key"
    (← ask (.store .generateSigningKeyCandidate)))
  if !generated.isActive then
    let activated ← answer (okOr "failed to activate OAuth signing key"
      (← ask (.store (.activateSigningKey generated.keyId))))
    ensure activated "failed to activate OAuth signing key"

/-- `initialize_signing_key`. -/
def initializeSigningKey : Startup Key Unit := do
  ensure (← ask .begin) "failed to lock OAuth signing-key initialization"
  ensure (← ask .lock) "failed to lock OAuth signing-key initialization"
  let active ← answer (okOr "failed to inspect OAuth signing-key state"
    (← ask (.store .activeSigningKey)))
  if active.isNone then bootstrapKey
  let _ ← answer (okOr "OAuth signing key is not ready"
    (← ask (.store .validateSigningKeyReadiness)))
  ensure (← ask .commit) "failed to complete OAuth signing-key initialization"

/-- How far a replica is: `vacant` and `candidate` have seen that no key is active. -/
inductive Phase where
  | outside
  | begun
  | held
  | vacant
  | candidate
  | filled
  | ready
  | finished
  | failed
  deriving DecidableEq

namespace Phase

/-- Between the lock and the end of the transaction. -/
def inSection : Phase → Bool
  | held | vacant | candidate | filled | ready => true
  | outside | begun | finished | failed => false

/-- No key was active when it was looked. -/
def expectsNone : Phase → Bool
  | vacant | candidate => true
  | _ => false

/-- A key was found ready. -/
def foundReady : Phase → Bool
  | ready | finished => true
  | _ => false

/-- The operation a phase goes on with. -/
def goesOn : Phase → Op Key → Prop
  | outside, .begin | begun, .lock | held, .store .activeSigningKey
  | vacant, .store .generateSigningKeyCandidate | candidate, .store (.activateSigningKey _)
  | filled, .store .validateSigningKeyReadiness | ready, .commit => True
  | _, _ => False

/-- The phase after an answer. -/
def next : (op : Op Key) → Ans op → Phase
  | .begin, ok => if ok then begun else failed
  | .lock, ok => if ok then held else failed
  | .store .activeSigningKey, some active => if active.isNone then vacant else filled
  | .store .generateSigningKeyCandidate, some generated =>
      if generated.isActive then filled else candidate
  | .store (.activateSigningKey _), some activated => if activated then filled else failed
  | .store .validateSigningKeyReadiness, some () => ready
  | .store .activeSigningKey, none | .store .generateSigningKeyCandidate, none
  | .store (.activateSigningKey _), none | .store .validateSigningKeyReadiness, none => failed
  | .commit, ok => if ok then finished else failed

end Phase

/-- The monitor of the phases. -/
def phases : Monitor (@Ans Key) Phase where
  may := Phase.goesOn
  next _ := Phase.next

/-- The phase a replica ends in. -/
def EndsIn (phase : Phase) : Except String Unit → Prop
  | .ok _ => phase = .finished
  | .error _ => phase = .failed

open Monitor (wp_run_answer_bind wp_run_ask_bind wp_run_ensure_bind wp_run_bind)

/-- Making the first key fills the store, or fails. -/
theorem bootstrapKey_spec :
    phases.wp (bootstrapKey : Startup Key Unit).run .vacant fun phase outcome =>
      match outcome with
      | .ok _ => phase = .filled
      | .error _ => phase = .failed := by
  rw [bootstrapKey, wp_run_ask_bind]
  refine ⟨trivial, fun generated => ?_⟩
  rw [wp_run_answer_bind]
  cases generated with
  | none => rfl
  | some generated =>
      by_cases hactive : generated.isActive = true
      · simp [okOr, phases, Phase.next, hactive]
      · have hactive : generated.isActive = false := by simpa using hactive
        simp only [okOr, phases, Phase.next, hactive]
        apply (wp_run_ask_bind phases _ _ _ _).mpr
        refine ⟨trivial, fun activated => ?_⟩
        rw [wp_run_answer_bind]
        cases activated with
        | none => rfl
        | some activated =>
            apply Monitor.wp_run_ensure
            · rintro rfl
              rfl
            · rintro rfl
              rfl

/-- What follows once a key is there, or should be. -/
theorem validated_spec :
    phases.wp (do
      let _ ← answer (okOr "OAuth signing key is not ready"
        (← ask (.store .validateSigningKeyReadiness)))
      ensure (← ask .commit) "failed to complete OAuth signing-key initialization" :
        Startup Key Unit).run .filled EndsIn := by
  rw [wp_run_ask_bind]
  refine ⟨trivial, fun ready => ?_⟩
  rw [wp_run_answer_bind]
  cases ready with
  | none => rfl
  | some u =>
      apply (wp_run_ask_bind phases _ _ _ _).mpr
      refine ⟨trivial, fun committed => ?_⟩
      apply Monitor.wp_run_ensure
      · rintro rfl
        rfl
      · rintro rfl
        rfl

/-- A replica goes through the phases in their order, and finishes where it has not failed. -/
theorem initialize_spec :
    phases.wp (initializeSigningKey : Startup Key Unit).run .outside EndsIn := by
  rw [initializeSigningKey, wp_run_ask_bind]
  refine ⟨trivial, fun begun => ?_⟩
  apply wp_run_ensure_bind
  · rintro rfl
    rw [wp_run_ask_bind]
    refine ⟨trivial, fun locked => ?_⟩
    apply wp_run_ensure_bind
    · rintro rfl
      rw [wp_run_ask_bind]
      refine ⟨trivial, fun active => ?_⟩
      rw [wp_run_answer_bind]
      rcases active with - | - | key
      · rfl
      · -- No key is active: this replica makes the first one.
        apply (wp_run_bind phases bootstrapKey _ _ _).mpr
        apply phases.wp_mono bootstrapKey_spec
        intro phase outcome h
        cases outcome with
        | ok u =>
            obtain rfl : phase = .filled := h
            exact validated_spec
        | error e => exact h
      · exact validated_spec
    · rintro rfl
      rfl
  · rintro rfl
    rfl

/-- What is relied on of the key store and of the server that writes to it. -/
structure KeyStore (σ Key : Type) where
  hasActive : σ → Prop
  /-- The call may be answered so, and leaves the store so. -/
  serve : σ → (op : StoreOp Key) → StoreAns op → σ → Prop
  keeps : ∀ {s op answer s'}, serve s op answer s' → hasActive s → hasActive s'
  inspected : ∀ {s active s'}, serve s .activeSigningKey (some active) s' →
    (active.isSome = true ↔ hasActive s')
  generated : ∀ {s} {key : Generated Key} {s'},
    serve s .generateSigningKeyCandidate (some key) s' →
      if key.isActive then hasActive s' else (hasActive s' → hasActive s)
  activated : ∀ {s keyId s'}, serve s (.activateSigningKey keyId) (some true) s' → hasActive s'
  validated : ∀ {s s'}, serve s .validateSigningKeyReadiness (some ()) s' → hasActive s'

/-- The database the replicas share: who holds the lock, and whether a holder has lost its session
while calls of it were still to be served. -/
structure Shared (σ : Type) where
  store : σ
  holder : Option Nat
  lost : Bool

namespace Shared

variable (g : Shared σ) (i : Nat)

/-- The lock given back. -/
def release : Shared σ :=
  { g with holder := if g.holder = some i then none else g.holder }

/-- The session goes while the replica runs on. -/
def lose : Shared σ :=
  { g.release i with lost := g.lost || decide (g.holder = some i) }

/-- Giving the lock back leaves the store. -/
@[simp] theorem release_store : (g.release i).store = g.store := rfl

/-- And what was lost. -/
@[simp] theorem release_lost : (g.release i).lost = g.lost := rfl

/-- Losing the session leaves the store. -/
@[simp] theorem lose_store : (g.lose i).store = g.store := rfl

/-- Another holder keeps the lock. -/
theorem release_holder_of_ne {j : Nat} (hne : j ≠ i) (h : g.holder = some j) :
    (g.release i).holder = some j := by
  have hother : ¬ g.holder = some i := by
    rw [h]
    exact fun heq => hne (Option.some.inj heq)
  rw [release, if_neg hother, h]

/-- One that does not hold the lock loses nothing. -/
theorem lose_of_not_holder (h : g.holder ≠ some i) : g.lose i = g := by
  simp [lose, release, h]

/-- One that does is marked. -/
theorem lose_lost_of_holder (h : g.holder = some i) : (g.lose i).lost = true := by
  simp [lose, h]

end Shared

/-- A replica. -/
structure Replica (Key : Type) where
  program : Program (Op Key) Ans (Except String Unit)
  phase : Phase
  stopped : Bool

/-- It has not stopped, and is between the lock and the end of the transaction. -/
def Replica.inSection (r : Replica Key) : Prop := r.stopped = false ∧ r.phase.inSection = true

/-- A replica that starts. -/
def starting : Replica Key := ⟨initializeSigningKey.run, .outside, false⟩

variable (store : KeyStore σ Key)

/-- How the database answers replica `i`.  A statement that fails may have been carried out. -/
inductive Serve (i : Nat) (g : Shared σ) : (op : Op Key) → Ans op → Shared σ → Prop
  | begin (ok : Bool) : Serve i g .begin ok g
  | locked (ok : Bool) (h : g.holder = none) : Serve i g .lock ok { g with holder := some i }
  | notLocked : Serve i g .lock false g
  | store {op : StoreOp Key} {answer : StoreAns op} {s' : σ}
      (h : store.serve g.store op answer s') :
      Serve i g (.store op) answer { g with store := s' }
  | committed (ok : Bool) : Serve i g .commit ok (g.release i)
  | notCommitted : Serve i g .commit false g

/-- What can happen to replica `i`: a call is answered, it stops for good, its session is closed
after it has stopped or ended, or its session is lost. -/
inductive Act (i : Nat) (g : Shared σ) : Replica Key → Shared σ → Replica Key → Prop
  | answered {op : Op Key} {next : Ans op → Program (Op Key) Ans (Except String Unit)}
      {answer : Ans op} {phase : Phase} {g' : Shared σ} (h : Serve store i g op answer g') :
      Act i g ⟨.call op next, phase, false⟩ g' ⟨next answer, Phase.next op answer, false⟩
  | stop (r : Replica Key) : Act i g r g { r with stopped := true }
  | close {r : Replica Key} (h : r.stopped = true ∨ r.program.ended.isSome = true) :
      Act i g r (g.release i) r
  | lose (r : Replica Key) : Act i g r (g.lose i) r

/-- Replicas start at any time, and where a key is active it is rotated at any time. -/
def replicas : Behaviour (Shared σ) (Replica Key) where
  start r := r = starting
  act := Act store
  env g g' := store.hasActive g.store ∧ ∃ s', store.hasActive s' ∧ g' = { g with store := s' }

/-- What is kept: the replica follows its program, and unless a session was lost, the replica that
is in the section holds the lock and what it saw there still stands. -/
structure Sound (i : Nat) (g : Shared σ) (r : Replica Key) : Prop where
  follows : phases.wp r.program r.phase EndsIn
  holds : g.lost = false → r.inSection → g.holder = some i
  vacant : g.lost = false → r.stopped = false → r.phase.expectsNone = true →
    ¬ store.hasActive g.store
  ready : r.phase.foundReady = true → store.hasActive g.store

variable {store : KeyStore σ Key}

/-- The store is used within the section. -/
theorem Phase.inSection_of_store {phase : Phase} {op : StoreOp Key}
    (h : phase.goesOn (.store op)) : phase.inSection = true := by
  cases phase <;> first | rfl | exact h.elim

/-- And only there a missing key is relied on. -/
theorem Phase.inSection_of_expectsNone {phase : Phase} (h : phase.expectsNone = true) :
    phase.inSection = true := by
  cases phase <;> first | rfl | exact absurd h (by simp [Phase.expectsNone])

/-- An active key stays active. -/
theorem Serve.keeps {i : Nat} {g g' : Shared σ} {op : Op Key} {answer : Ans op}
    (h : Serve store i g op answer g') (hactive : store.hasActive g.store) :
    store.hasActive g'.store := by
  cases h with
  | store hserve => exact store.keeps hserve hactive
  | _ => exact hactive

/-- An answer loses no session. -/
theorem Serve.lost_eq {i : Nat} {g g' : Shared σ} {op : Op Key} {answer : Ans op}
    (h : Serve store i g op answer g') : g'.lost = g.lost := by
  cases h <;> rfl

/-- An answer does not take the lock from another replica. -/
theorem Serve.holder_of_other {i j : Nat} {g g' : Shared σ} {op : Op Key} {answer : Ans op}
    (h : Serve store i g op answer g') (hne : j ≠ i) (hholder : g.holder = some j) :
    g'.holder = some j := by
  cases h with
  | locked _ hfree => exact absurd (hfree.symm.trans hholder) (by simp)
  | committed _ => exact g.release_holder_of_ne i hne hholder
  | _ => exact hholder

/-- The store changes only for the replica that holds the lock. -/
theorem Serve.store_of_outside {i : Nat} {g g' : Shared σ} {op : Op Key} {answer : Ans op}
    {phase : Phase} (h : Serve store i g op answer g') (hmay : phase.goesOn op)
    (houtside : phase.inSection = false) : g'.store = g.store := by
  cases h with
  | store _ =>
      have hinside := Phase.inSection_of_store hmay
      rw [houtside] at hinside
      cases hinside
  | _ => rfl

/-- Where the lock and the store of a replica stand as they did, so does what it relies on. -/
theorem Sound.stands {i : Nat} {g g' : Shared σ} {r : Replica Key} (h : Sound store i g r)
    (hlost : g'.lost = false → g.lost = false)
    (hholder : g.holder = some i → g'.holder = some i)
    (hkeeps : store.hasActive g.store → store.hasActive g'.store)
    (hvacant : g.lost = false → r.stopped = false → r.phase.expectsNone = true →
      store.hasActive g'.store → store.hasActive g.store) : Sound store i g' r where
  follows := h.follows
  holds hnot hin := hholder (h.holds (hlost hnot) hin)
  vacant hnot hlive hnone hactive :=
    h.vacant (hlost hnot) hlive hnone (hvacant (hlost hnot) hlive hnone hactive)
  ready hready := hkeeps (h.ready hready)

/-- What an answer leaves true of the other replicas. -/
theorem Serve.others {i j : Nat} {g g' : Shared σ} {op : Op Key} {answer : Ans op}
    {phase : Phase} {r : Replica Key} (h : Serve store i g op answer g')
    (hmay : phase.goesOn op) (hholds : g.lost = false → phase.inSection = true →
      g.holder = some i) (hne : j ≠ i) (hr : Sound store j g r) : Sound store j g' r := by
  apply hr.stands
  · intro hnot
    rwa [h.lost_eq] at hnot
  · exact h.holder_of_other hne
  · exact h.keeps
  · -- Only the replica with the lock changes the store, and it is this one.
    intro hnot hlive hnone hactive
    have hmine : g.holder = some j := hr.holds hnot ⟨hlive, Phase.inSection_of_expectsNone hnone⟩
    by_cases hin : phase.inSection = true
    · have htheirs := hholds hnot hin
      rw [hmine] at htheirs
      exact absurd (Option.some.inj htheirs) hne
    · have hout : phase.inSection = false := by simpa using hin
      rwa [h.store_of_outside hmay hout] at hactive

/-- What an answer leaves true of the replica that got it: it is in the section with the lock. -/
theorem Serve.holds_next {i : Nat} {g g' : Shared σ} {op : Op Key} {answer : Ans op}
    {phase : Phase} (h : Serve store i g op answer g') (hmay : phase.goesOn op)
    (hholds : phase.inSection = true → g.holder = some i)
    (hin : (Phase.next op answer).inSection = true) : g'.holder = some i := by
  cases h with
  | begin ok => cases ok <;> cases hin
  | locked ok _ => rfl
  | notLocked => cases hin
  | store _ => exact hholds (Phase.inSection_of_store hmay)
  | committed ok => cases ok <;> cases hin
  | notCommitted => cases hin

/-- A key that was found missing is still missing. -/
theorem Serve.vacant_next {i : Nat} {g g' : Shared σ} {op : Op Key} {answer : Ans op}
    {phase : Phase} (h : Serve store i g op answer g') (hmay : phase.goesOn op)
    (hvacant : phase.expectsNone = true → ¬ store.hasActive g.store)
    (hnone : (Phase.next op answer).expectsNone = true) : ¬ store.hasActive g'.store := by
  cases h with
  | begin ok => cases ok <;> cases hnone
  | locked ok _ => cases ok <;> cases hnone
  | notLocked => cases hnone
  | @store op answer s' hserve =>
      cases op with
      | activeSigningKey =>
          cases answer with
          | none => cases hnone
          | some active =>
              cases active with
              | none => simpa using store.inspected hserve
              | some key => cases hnone
      | generateSigningKeyCandidate =>
          have hvacant : ¬ store.hasActive g.store := by
            cases phase <;> first | exact hmay.elim | exact hvacant rfl
          cases answer with
          | none => cases hnone
          | some key =>
              have hgenerated := store.generated hserve
              by_cases hactive : key.isActive = true
              · simp [Phase.next, hactive, Phase.expectsNone] at hnone
              · rw [if_neg hactive] at hgenerated
                exact fun h => hvacant (hgenerated h)
      | activateSigningKey keyId =>
          rcases answer with _ | _ | _ <;> cases hnone
      | validateSigningKeyReadiness => cases answer <;> cases hnone
  | committed ok => cases ok <;> cases hnone
  | notCommitted => cases hnone

/-- One that was found is still there. -/
theorem Serve.ready_next {i : Nat} {g g' : Shared σ} {op : Op Key} {answer : Ans op}
    {phase : Phase} (h : Serve store i g op answer g') (hmay : phase.goesOn op)
    (hready : phase.foundReady = true → store.hasActive g.store)
    (hfound : (Phase.next op answer).foundReady = true) : store.hasActive g'.store := by
  cases h with
  | begin ok => cases ok <;> cases hfound
  | locked ok _ => cases ok <;> cases hfound
  | notLocked => cases hfound
  | @store op answer s' hserve =>
      cases op with
      | activeSigningKey => rcases answer with _ | _ | _ <;> cases hfound
      | generateSigningKeyCandidate =>
          rcases answer with _ | ⟨key, _ | _⟩ <;> cases hfound
      | activateSigningKey keyId => rcases answer with _ | _ | _ <;> cases hfound
      | validateSigningKeyReadiness =>
          cases answer with
          | none => cases hfound
          | some u => exact store.validated hserve
  | committed ok =>
      have hfound : phase.foundReady = true := by
        cases phase <;> first | rfl | exact hmay.elim
      exact hready hfound
  | notCommitted => cases hfound

/-- **One step of a replica.** -/
theorem sound_act {i : Nat} {g g' : Shared σ} {r r' : Replica Key} (h : Act store i g r g' r')
    (hr : Sound store i g r) :
    Sound store i g' r' ∧ ∀ j q, j ≠ i → Sound store j g q → Sound store j g' q := by
  cases h with
  | @answered op next answer phase g' hserve =>
      obtain ⟨hmay, hnext⟩ := (Monitor.wp_call phases op next phase EndsIn).mp hr.follows
      refine ⟨⟨hnext answer, ?_, ?_, ?_⟩, fun j q hne hq => ?_⟩
      · intro hnot hin
        rw [hserve.lost_eq] at hnot
        exact hserve.holds_next hmay (fun h => hr.holds hnot ⟨rfl, h⟩) hin.2
      · intro hnot _ hnone
        rw [hserve.lost_eq] at hnot
        exact hserve.vacant_next hmay (hr.vacant hnot rfl) hnone
      · exact hserve.ready_next hmay hr.ready
      · exact hserve.others hmay (fun hnot h => hr.holds hnot ⟨rfl, h⟩) hne hq
  | stop =>
      refine ⟨⟨hr.follows, ?_, ?_, hr.ready⟩, fun j q _ hq => hq⟩
      · intro _ hin
        exact absurd hin.1 (by simp)
      · intro _ hlive
        cases hlive
  | close hover =>
      have hout : ¬ r.inSection := by
        rintro ⟨hlive, hin⟩
        rcases hover with hstopped | hended
        · rw [hlive] at hstopped
          cases hstopped
        · obtain ⟨outcome, hdone⟩ : ∃ outcome, r.program = .done outcome := by
            cases hprogram : r.program with
            | done outcome => exact ⟨outcome, rfl⟩
            | call op next => simp [hprogram, Program.ended] at hended
          have hends := hr.follows
          rw [hdone, Monitor.wp_done] at hends
          cases outcome with
          | ok u =>
              have hphase : r.phase = .finished := hends
              simp [hphase, Phase.inSection] at hin
          | error e =>
              have hphase : r.phase = .failed := hends
              simp [hphase, Phase.inSection] at hin
      refine ⟨⟨hr.follows, fun _ hin => absurd hin hout, hr.vacant, hr.ready⟩, ?_⟩
      intro j q hne hq
      exact hq.stands id (g.release_holder_of_ne i hne) id (fun _ _ _ h => h)
  | lose =>
      by_cases hholder : g.holder = some i
      · have hlost := g.lose_lost_of_holder i hholder
        refine ⟨⟨hr.follows, ?_, ?_, hr.ready⟩, fun j q _ hq => ⟨hq.follows, ?_, ?_, hq.ready⟩⟩
        all_goals
          intro hnot
          rw [hlost] at hnot
          cases hnot
      · rw [g.lose_of_not_holder i hholder]
        exact ⟨hr, fun j q _ hq => hq⟩

/-- Every replica of a reachable pool is where it should be. -/
theorem sound_of_reachable {g : Shared σ} {p : Pool (Shared σ) (Replica Key)}
    (h : (replicas store).Reachable g p) :
    ∀ i r, p.procs[i]? = some r → Sound store i p.shared r := by
  have hlocal := Behaviour.local_invariant (J := fun _ _ => True) (I := Sound store) trivial
    (fun n g s _ hs => by
      obtain rfl : s = starting := hs
      exact ⟨trivial, initialize_spec, fun _ hin => absurd hin.2 (by simp [starting,
        Phase.inSection]), fun _ _ hnone => absurd hnone (by simp [starting, Phase.expectsNone]),
        fun hready => absurd hready (by simp [starting, Phase.foundReady])⟩)
    (fun _ i g s g' s' _ _ hI ha => ⟨trivial, sound_act ha hI⟩)
    (fun _ g g' _ henv => by
      obtain ⟨hactive, s', hactive', rfl⟩ := henv
      exact ⟨trivial, fun j r hr => hr.stands id id (fun _ => hactive') (fun _ _ _ _ => hactive)⟩)
    h
  exact hlocal.2

/-- The pending operation of a replica that goes on. -/
def Replica.waitsFor (r : Replica Key) (op : Op Key) : Prop :=
  r.stopped = false ∧ ∃ next, r.program = .call op next

/-- An answer is a move of the pool. -/
theorem reachable_answered {g g' : Shared σ} {p : Pool (Shared σ) (Replica Key)}
    (h : (replicas store).Reachable g p) (i : Nat) {op : Op Key}
    {next : Ans op → Program (Op Key) Ans (Except String Unit)} {phase : Phase} {answer : Ans op}
    (hi : p.procs[i]? = some ⟨.call op next, phase, false⟩)
    (hserve : Serve store i p.shared op answer g') :
    (replicas store).Reachable g
      ⟨g', p.procs.set i ⟨next answer, Phase.next op answer, false⟩⟩ :=
  .move h (.act hi (.answered hserve))

/-- A replica that stops leaves the pool reachable. -/
theorem reachable_lost {g : Shared σ} {p : Pool (Shared σ) (Replica Key)}
    (h : (replicas store).Reachable g p) (i : Nat) {r : Replica Key} (hi : p.procs[i]? = some r) :
    (replicas store).Reachable g ⟨p.shared.lose i, p.procs.set i r⟩ :=
  .move h (.act hi (Act.lose r))

/-- A store that knows only whether a key is active. -/
def oneKey : KeyStore Bool Unit where
  hasActive s := s = true
  serve s op answer s' :=
    match op, answer with
    | .activeSigningKey, some active => s' = s ∧ (active.isSome = true ↔ s = true)
    | .generateSigningKeyCandidate, some key => s' = true ∧ key.isActive = true
    | .activateSigningKey _, some activated => s' = true ∧ activated = true
    | .validateSigningKeyReadiness, some _ => s' = s ∧ s = true
    | .activeSigningKey, none | .generateSigningKeyCandidate, none
    | .activateSigningKey _, none | .validateSigningKeyReadiness, none => s' = s
  keeps {s op answer s'} h hactive := by
    cases op <;> cases answer <;> grind
  inspected h := by
    obtain ⟨rfl, h⟩ := h
    exact h
  generated h := by
    rw [if_pos h.2]
    exact h.1
  activated h := h.1
  validated h := by
    obtain ⟨rfl, h⟩ := h
    exact h

/-- Two replicas have started, and none of them has issued anything. -/
def twoStarting : Pool (Shared Bool) (Replica Unit) := ⟨⟨false, none, false⟩, [starting, starting]⟩

/-- Two replicas that start. -/
theorem twoStarting_reachable :
    (replicas oneKey).Reachable ⟨false, none, false⟩ twoStarting :=
  .move (.move .init (.join rfl)) (.join rfl)

/-- The condition is needed: with a lost session, a replica goes on to generate a key while one is
active. -/
theorem lost_session_generates_twice :
    ∃ p, (replicas oneKey).Reachable ⟨false, none, false⟩ p ∧
      (∃ r ∈ p.procs, r.waitsFor (.store .generateSigningKeyCandidate)) ∧
        oneKey.hasActive p.shared.store := by
  have begun := reachable_answered twoStarting_reachable 1 rfl (.begin true)
  have locked := reachable_answered begun 1 rfl (.locked true rfl)
  have vacant := reachable_answered locked 1 rfl (.store ⟨rfl, by decide⟩ :
    Serve oneKey 1 _ (.store .activeSigningKey) (some none) _)
  have lost := reachable_lost vacant 1 rfl
  have begun' := reachable_answered lost 0 rfl (.begin true)
  have locked' := reachable_answered begun' 0 rfl (.locked true rfl)
  have vacant' := reachable_answered locked' 0 rfl (.store ⟨rfl, by decide⟩ :
    Serve oneKey 0 _ (.store .activeSigningKey) (some none) _)
  have generated := reachable_answered vacant' 0 rfl (.store ⟨rfl, rfl⟩ :
    Serve oneKey 0 _ (.store .generateSigningKeyCandidate) (some ⟨(), true⟩) _)
  exact ⟨_, generated, ⟨_, .tail _ (.head _), rfl, _, rfl⟩, rfl⟩

/-- **A replica that has started has an active key**, whatever was lost. -/
theorem initialized_active {g : Shared σ} {p : Pool (Shared σ) (Replica Key)}
    (h : (replicas store).Reachable g p) :
    ∀ r ∈ p.procs, ∀ u, r.program = .done (.ok u) → store.hasActive p.shared.store := by
  intro r hr u hdone
  obtain ⟨i, hi⟩ := List.getElem?_of_mem hr
  have hr := sound_of_reachable h i r hi
  have hends := hr.follows
  rw [hdone, Monitor.wp_done] at hends
  have hphase : r.phase = .finished := hends
  apply hr.ready
  rw [hphase]
  rfl

/-- And then there is one. -/
theorem initialized_active_twoStarting :
    ∃ p, (replicas oneKey).Reachable ⟨false, none, false⟩ p ∧
      (∃ r ∈ p.procs, r.program = .done (.ok ())) ∧ oneKey.hasActive p.shared.store := by
  have begun := reachable_answered twoStarting_reachable 0 rfl (.begin true)
  have locked := reachable_answered begun 0 rfl (.locked true rfl)
  have vacant := reachable_answered locked 0 rfl (.store ⟨rfl, by decide⟩ :
    Serve oneKey 0 _ (.store .activeSigningKey) (some none) _)
  have generated := reachable_answered vacant 0 rfl (.store ⟨rfl, rfl⟩ :
    Serve oneKey 0 _ (.store .generateSigningKeyCandidate) (some ⟨(), true⟩) _)
  have validated := reachable_answered generated 0 rfl (.store ⟨rfl, rfl⟩ :
    Serve oneKey 0 _ (.store .validateSigningKeyReadiness) (some ()) _)
  have committed := reachable_answered validated 0 rfl (.committed true)
  exact ⟨_, committed, ⟨_, .head _, rfl⟩, initialized_active committed _ (.head _) () rfl⟩

end SigningKeys
