import HomelabMcp.SshTrust

/-!
# What a successful SSH trust transaction leaves

* `trust_converges_iff`: after any sequence of runs, each of which may have failed or been cut short
  anywhere, a run that succeeds has both files in their place and none of its own left; the service
  has loaded their content exactly if it had before the run or the run found another content.
* `activation_lost`: a run stopped between the installation of a key and the reload, and a run after
  it that succeeds and does not reload.
-/

namespace SshTrust

open Interaction
open Text (Bytes)

variable {caPublicKey : Bytes} {P : Event Ans → Prop} {w w' w'' : World} {α β : Type}

/-- Whatever is staged is what was meant, and the run knows where. -/
structure Good (caPublicKey : Bytes) (w : World) : Prop where
  staged : ∀ t content, w.staged t = some content → content = desired caPublicKey t
  known : w.staging ≠ .unnamed

/-- Nothing but the run's own files has changed. -/
structure Quiet (caPublicKey : Bytes) (w w' : World) : Prop where
  files : w'.files = w.files
  active : w'.active = w.active
  loaded : w'.loaded = w.loaded
  good : Good caPublicKey w → Good caPublicKey w'

/-- Nothing done is quiet. -/
theorem Quiet.refl (w : World) : Quiet caPublicKey w w := ⟨rfl, rfl, rfl, id⟩

/-- Quiet steps follow each other. -/
theorem Quiet.trans (h : Quiet caPublicKey w w') (h' : Quiet caPublicKey w' w'') :
    Quiet caPublicKey w w'' :=
  ⟨h'.files.trans h.files, h'.active.trans h.active, h'.loaded.trans h.loaded,
    fun hgood => h'.good (h.good hgood)⟩

/-- Nothing is staged after the traps. -/
theorem staged_cleaned (w : World) (t : Target) : w.cleaned.staged t = none := by
  unfold World.staged World.cleaned
  cases w.staging <;> rfl

/-- The traps are quiet. -/
theorem Quiet.cleaned (w : World) : Quiet caPublicKey w w.cleaned := by
  refine ⟨rfl, rfl, rfl, fun hgood => ⟨fun t content h => ?_, ?_⟩⟩
  · rw [staged_cleaned] at h
    exact nomatch h
  · have hknown := hgood.known
    unfold World.cleaned
    cases hstaging : w.staging with
    | unnamed => exact absurd hstaging hknown
    | none => nofun
    | named files => nofun

/-- The machine as it was, or with the run's files removed by the trap. -/
def Heeded (w w' : World) : Prop := w' = w ∨ w' = w.cleaned

/-- Heeding a signal is quiet. -/
theorem Heeded.quiet (h : Heeded w w') : Quiet caPublicKey w w' := by
  rcases h with rfl | rfl
  · exact Quiet.refl _
  · exact Quiet.cleaned _

/-- The trap stages nothing. -/
theorem Heeded.staged (h : Heeded w w') {t : Target} {content : Bytes}
    (hstaged : w'.staged t = some content) : w.staged t = some content := by
  rcases h with rfl | rfl
  · exact hstaged
  · rw [staged_cleaned] at hstaged
    exact nomatch hstaged

/-- A signal is heeded at once or remembered. -/
theorem heed_spec (signalled : Bool) :
    succeeds ((effect caPublicKey).only P) (heed signalled) w fun w' _ => Heeded w w' := by
  cases signalled with
  | true => exact succeeds_ask fun _ w' heff => Or.inr heff.1
  | false => exact succeeds_pure (Or.inl rfl)

/-- A command has its effect before a signal is heeded. -/
theorem run_spec (command : Command) :
    succeeds ((effect caPublicKey).only P) (run command) w fun w' _ =>
      ∃ w₁, commandEffect caPublicKey command true w w₁ ∧ Heeded w₁ w' := by
  have hask : succeeds ((effect caPublicKey).only P)
      (ask (Op.run command) : Script (Ans (Op.run command))) w fun w₁ answer =>
        commandEffect caPublicKey command answer.value w w₁ :=
    succeeds_ask fun _ _ heff => heff.1
  refine succeeds_bind hask fun w₁ answer hcommand => ?_
  refine succeeds_bind (heed_spec answer.signalled) fun w₂ _ hheeded => ?_
  exact succeeds_ensure fun hok => ⟨w₁, hok ▸ hcommand, hheeded⟩

/-- A condition says what holds, unless it was cut. -/
theorem query_spec (q : Query) (hq : q ≠ .producer) :
    succeeds ((effect caPublicKey).only P) (query q) w fun w' yes => Heeded w w' ∧
      (yes = true → q.holds w) ∧
      ((∀ e, P e → Uncut e) → yes = false → ¬ q.holds w) := by
  have hask : succeeds ((effect caPublicKey).only P)
      (ask (Op.query q) : Script (Ans (Op.query q))) w fun w₁ answer => w₁ = w ∧
        (answer.value = .yes → q.holds w) ∧ (answer.value = .no → ¬ q.holds w) ∧
        ((∀ e, P e → Uncut e) → answer.value ≠ .cut) := by
    refine succeeds_ask fun answer w₁ heff => ?_
    obtain ⟨heffect, hP⟩ := heff
    have hcut : (∀ e, P e → Uncut e) → answer.value ≠ .cut := fun huncut => huncut _ hP
    change queryEffect q answer.value w w₁ at heffect
    cases hverdict : answer.value with
    | yes =>
        rw [hverdict] at heffect
        have hyes : w₁ = w ∧ q.holds w := by cases q <;> first | exact heffect | exact absurd rfl hq
        exact ⟨hyes.1, fun _ => hyes.2, nofun, fun _ => nofun⟩
    | no =>
        rw [hverdict] at heffect
        have hno : w₁ = w ∧ ¬ q.holds w := by cases q <;> first | exact heffect | exact absurd rfl hq
        exact ⟨hno.1, nofun, fun _ => hno.2, fun _ => nofun⟩
    | cut =>
        rw [hverdict] at heffect hcut
        have hsame : w₁ = w := by cases q <;> exact heffect
        exact ⟨hsame, nofun, nofun, hcut⟩
  refine succeeds_bind hask fun w₁ answer h => ?_
  obtain ⟨rfl, hyes, hno, hcut⟩ := h
  refine succeeds_bind (heed_spec answer.signalled) fun w₂ _ hheeded => ?_
  refine succeeds_pure ⟨hheeded, fun h => hyes (by simpa using h), fun huncut h => ?_⟩
  apply hno
  have hnot := hcut huncut
  cases hverdict : answer.value with
  | yes => simp [hverdict] at h
  | no => rfl
  | cut => exact absurd hverdict hnot

/-- What `stat` says is true, or it says nothing. -/
theorem stat_spec (t : Target) :
    succeeds ((effect caPublicKey).only P) (stat t) w fun w' metadata => Heeded w w' ∧
      (metadata = none ∨ metadata = (w.files t).metadata) := by
  have hask : succeeds ((effect caPublicKey).only P)
      (ask (Op.stat t) : Script (Ans (Op.stat t))) w fun w₁ answer => w₁ = w ∧
        (answer.value = none ∨ answer.value = (w.files t).metadata) :=
    succeeds_ask fun _ _ heff => heff.1
  refine succeeds_bind hask fun w₁ answer h => ?_
  obtain ⟨rfl, hmetadata⟩ := h
  refine succeeds_bind (heed_spec answer.signalled) fun w₂ _ hheeded => ?_
  exact succeeds_pure ⟨hheeded, hmetadata⟩

/-- Wherever such a part succeeds, nothing but the run's own files has changed. -/
def Calm (caPublicKey : Bytes) (P : Event Ans → Prop) (x : Script α) : Prop :=
  ∀ w, succeeds ((effect caPublicKey).only P) x w fun w' _ => Quiet caPublicKey w w'

/-- A calm part before the rest. -/
theorem Calm.before {x : Script α} {f : α → Script β} {R : World → β → Prop}
    (hx : Calm caPublicKey P x) (hquiet : Quiet caPublicKey w w')
    (hf : ∀ w'' a, Quiet caPublicKey w w'' →
      succeeds ((effect caPublicKey).only P) (f a) w'' R) :
    succeeds ((effect caPublicKey).only P) (x >>= f) w' R :=
  succeeds_bind (hx w') fun w'' a h => hf w'' a (hquiet.trans h)

/-- A condition is calm. -/
theorem calm_ensure (ok : Bool) : Calm caPublicKey P (ensure ok ()) :=
  fun w => succeeds_ensure fun _ => Quiet.refl w

/-- Calm parts follow each other. -/
theorem Calm.bind {x : Script α} {f : α → Script β} (hx : Calm caPublicKey P x)
    (hf : ∀ a, Calm caPublicKey P (f a)) : Calm caPublicKey P (x >>= f) :=
  fun w => succeeds_bind (hx w) fun w' a h =>
    succeeds_mono (hf a w') fun _ _ h' => h.trans h'

/-- A command is calm whose effect is quiet. -/
theorem calm_run {command : Command}
    (h : ∀ w w', commandEffect caPublicKey command true w w' → Quiet caPublicKey w w') :
    Calm caPublicKey P (run command) := by
  intro w
  refine succeeds_mono (run_spec command) fun w' _ hrun => ?_
  obtain ⟨w₁, hcommand, hheeded⟩ := hrun
  exact (h w w₁ hcommand).trans hheeded.quiet

/-- A command that only reads, or writes what nothing else reads. -/
def Command.plain : Command → Bool
  | .mktemp | .stage _ | .install _ | .move _ | .reload => false
  | _ => true

/-- A plain command is. -/
theorem calm_plain {command : Command} (h : command.plain = true) :
    Calm caPublicKey P (run command) := by
  refine calm_run fun w w' hcommand => ?_
  have hsame : w' = w := by
    cases command <;> first | exact hcommand | exact absurd h Bool.false_ne_true
  rw [hsame]
  exact Quiet.refl w

/-- So is a condition. -/
theorem calm_query (q : Query) : Calm caPublicKey P (query q) := by
  intro w
  by_cases hq : q = .producer
  · subst hq
    have hask : succeeds ((effect caPublicKey).only P)
        (ask (Op.query .producer) : Script (Ans (Op.query .producer))) w fun w₁ _ => w₁ = w :=
      succeeds_ask fun _ _ heff => heff.1
    refine succeeds_bind hask fun w₁ answer h => ?_
    subst h
    refine succeeds_bind (heed_spec answer.signalled) fun w₂ _ hheeded => ?_
    exact succeeds_pure hheeded.quiet
  · exact succeeds_mono (query_spec q hq) fun w' _ h => h.1.quiet

/-- So is making the directory. -/
theorem calm_mktemp : Calm caPublicKey P (run .mktemp) := by
  refine calm_run fun w w' hcommand => ?_
  obtain rfl : w' = { w with staging := .named fun _ => none } := hcommand
  exact ⟨rfl, rfl, rfl, fun _ => ⟨fun t content h => (nomatch h), nofun⟩⟩

/-- So is staging. -/
theorem calm_stage (t : Target) : Calm caPublicKey P (run (.stage t)) := by
  refine calm_run fun w w' hcommand => ?_
  obtain ⟨⟨files, hfiles⟩, rfl⟩ := hcommand
  refine ⟨rfl, rfl, rfl, fun hgood => ⟨fun t' content h => ?_, by simp [World.stage, hfiles]⟩⟩
  have hstaged : (w.stage t (some (desired caPublicKey t))).staged t' =
      Function.update files t (some (desired caPublicKey t)) t' := by
    simp [World.staged, World.stage, hfiles]
  rw [hstaged] at h
  by_cases heq : t' = t
  · subst heq
    rw [Function.update_self] at h
    exact (Option.some.inj h).symm
  · rw [Function.update_of_ne heq] at h
    exact hgood.staged t' content (by simpa [World.staged, hfiles] using h)

/-- So is refusing a directory. -/
theorem calm_refuseDirectory (t : Target) : Calm caPublicKey P (refuseDirectory t) :=
  Calm.bind (calm_query _) fun _ => calm_ensure _

/-- So is the check of what is effective. -/
theorem calm_checkEffective : Calm caPublicKey P checkEffective := by
  refine Calm.bind (calm_plain rfl) fun _ => Calm.bind (calm_plain rfl) fun _ => ?_
  refine Calm.bind (calm_query _) fun _ => Calm.bind (calm_plain rfl) fun _ => ?_
  refine Calm.bind (calm_ensure _) fun _ => Calm.bind (calm_plain rfl) fun _ => ?_
  exact Calm.bind (calm_plain rfl) fun _ => calm_plain rfl

/-- A file with its content, its owner and its mode. -/
def Installed (caPublicKey : Bytes) (w : World) (t : Target) : Prop :=
  w.files t = .regular (desired caPublicKey t) 0 0 0o644

/-- What a file has been through. -/
structure Reconciled (caPublicKey : Bytes) (P : Event Ans → Prop) (t : Target) (w w' : World)
    (changed : Bool) : Prop where
  good : Good caPublicKey w'
  installed : Installed caPublicKey w' t
  others : ∀ t', t' ≠ t → w'.files t' = w.files t'
  active : w'.active = w.active
  loaded : w'.loaded = w.loaded
  changed : (∀ e, P e → Uncut e) → (changed = true ↔ w.content t ≠ some (desired caPublicKey t))

/-- A file whose metadata are right is a regular file. -/
theorem regular_of_metadata {node : Node} {uid gid mode : Nat}
    (h : node.metadata = some (.regularFile uid gid mode)) :
    ∃ content, node = .regular content uid gid mode := by
  cases node with
  | regular content uid' gid' mode' =>
      dsimp only [Node.metadata] at h
      split_ifs at h with hempty
      · simp at h
      · simp only [Option.some.injEq, Metadata.regularFile.injEq] at h
        obtain ⟨rfl, rfl, rfl⟩ := h
        exact ⟨content, rfl⟩
  | absent => simp [Node.metadata] at h
  | directory => simp [Node.metadata] at h
  | symlink leadsTo => simp [Node.metadata] at h
  | special => simp [Node.metadata] at h

/-- Making a parent leaves the files. -/
theorem makeParent_spec (t : Target) :
    succeeds ((effect caPublicKey).only P) (makeParent t) w fun w' _ => Heeded w w' := by
  cases t with
  | ca => exact succeeds_pure (Or.inl rfl)
  | dropIn =>
      refine succeeds_mono (run_spec .installDirectory) fun w' _ hrun => ?_
      obtain ⟨w₁, rfl, hheeded⟩ := hrun
      exact hheeded

/-- What was staged has replaced whatever was there. -/
structure Placed (caPublicKey : Bytes) (t : Target) (w w' : World) : Prop where
  staged : w.staged t = some (desired caPublicKey t)
  good : Good caPublicKey w'
  installed : Installed caPublicKey w' t
  others : ∀ t', t' ≠ t → w'.files t' = w.files t'
  active : w'.active = w.active
  loaded : w'.loaded = w.loaded

/-- What follows an installed file starts from it. -/
theorem placed_then (hgood : Good caPublicKey w) (t : Target) {f : Unit → Script β}
    {R : World → β → Prop} (hf : ∀ w', Placed caPublicKey t w w' →
      succeeds ((effect caPublicKey).only P) (f ()) w' R) :
    succeeds ((effect caPublicKey).only P) (run (.install t) >>= fun _ => run (.move t) >>= f) w
      R := by
  refine succeeds_bind (run_spec (.install t)) fun w₁ _ hinstall => ?_
  obtain ⟨w₂, ⟨content, hstaged, rfl⟩, hheeded⟩ := hinstall
  obtain rfl := hgood.staged t content hstaged
  refine succeeds_bind (run_spec (.move t)) fun w₃ _ hmove => ?_
  obtain ⟨w₄, ⟨node, htemp, -, rfl⟩, hheeded'⟩ := hmove
  -- a trap between the two commands would have removed the temporary file
  have hkept : w₁ = w.setTemp t (some (.regular (desired caPublicKey t) 0 0 0o644)) := by
    rcases hheeded with heq | rfl
    · exact heq
    · exact nomatch htemp
  subst hkept
  have hnode : node = .regular (desired caPublicKey t) 0 0 0o644 := by
    have hself : (w.setTemp t (some (.regular (desired caPublicKey t) 0 0 0o644))).temps t =
        some (.regular (desired caPublicKey t) 0 0 0o644) := Function.update_self ..
    exact Option.some.inj (htemp.symm.trans hself)
  subst hnode
  have hquiet : Quiet caPublicKey _ w₃ := hheeded'.quiet
  apply hf w₃
  refine ⟨hstaged, hquiet.good ⟨hgood.staged, hgood.known⟩, ?_, ?_, hquiet.active, hquiet.loaded⟩
  · rw [Installed, hquiet.files]
    exact Function.update_self ..
  · intro t' hne
    rw [hquiet.files]
    exact Function.update_of_ne hne ..

/-- **One file**: afterwards it is in its place, and the script knows whether it had another
content. -/
theorem reconcile_spec (hgood : Good caPublicKey w) (t : Target) :
    succeeds ((effect caPublicKey).only P) (reconcile t) w (Reconciled caPublicKey P t w) := by
  refine succeeds_bind (stat_spec t) fun w₁ metadata hstat => ?_
  obtain ⟨hheeded, hmetadata⟩ := hstat
  refine succeeds_bind (query_spec (.contentMatches t) nofun) fun w₂ contentMatches hquery => ?_
  obtain ⟨hheeded', hyes, hno⟩ := hquery
  have hquiet : Quiet caPublicKey w w₁ := hheeded.quiet
  have hquiet' : Quiet caPublicKey w₁ w₂ := hheeded'.quiet
  have hcontent : w₁.content t = w.content t := by rw [World.content, World.content, hquiet.files]
  have hsame : contentMatches = true → w.content t = some (desired caPublicKey t) := by
    intro hmatch
    obtain ⟨content, hstaged, htarget⟩ := hyes hmatch
    obtain rfl := (hquiet.good hgood).staged t content hstaged
    rwa [hcontent] at htarget
  split_ifs with hrepair
  · refine succeeds_bind (makeParent_spec t) fun w₃ _ hparent => ?_
    have hquiet₃ : Quiet caPublicKey w₁ w₃ := hquiet'.trans hparent.quiet
    refine placed_then (hquiet₃.good (hquiet.good hgood)) t fun w₄ hplaced => succeeds_pure ?_
    refine ⟨hplaced.good, hplaced.installed, ?_, ?_, ?_, fun huncut => ?_⟩
    · intro t' hne
      rw [hplaced.others t' hne, hquiet₃.files, hquiet.files]
    · rw [hplaced.active, hquiet₃.active, hquiet.active]
    · rw [hplaced.loaded, hquiet₃.loaded, hquiet.loaded]
    · constructor
      · intro hchanged htarget
        have hmismatch : contentMatches = false := by simpa using hchanged
        apply hno huncut hmismatch
        have hstaged := hheeded'.staged (hparent.staged hplaced.staged)
        exact ⟨_, hstaged, hcontent.trans htarget⟩
      · intro hne
        have hmismatch : contentMatches = false := by
          by_contra hmatch
          exact hne (hsame (by simpa using hmatch))
        rw [hmismatch]
        rfl
  · simp only [Bool.or_eq_true, not_or, Bool.not_eq_true', bne_iff_ne, ne_eq, not_not,
      Bool.not_eq_false] at hrepair
    obtain ⟨hmatch, hright⟩ := hrepair
    refine succeeds_pure ⟨hquiet'.good (hquiet.good hgood), ?_, ?_, ?_, ?_, fun _ => ?_⟩
    · have hfile : (w.files t).metadata = some (.regularFile 0 0 0o644) := by
        rcases hmetadata with hnone | hsome
        · rw [hnone] at hright
          exact nomatch hright
        · rw [← hsome, hright]
      obtain ⟨content, hregular⟩ := regular_of_metadata hfile
      have htarget := hsame hmatch
      rw [World.content, hregular] at htarget
      obtain rfl := Option.some.inj htarget
      rw [Installed, hquiet'.files, hquiet.files, hregular]
    · intro t' _
      rw [hquiet'.files, hquiet.files]
    · rw [hquiet'.active, hquiet.active]
    · rw [hquiet'.loaded, hquiet.loaded]
    · simp [hsame hmatch]

/-- The service has loaded what is meant. -/
def Loaded (caPublicKey : Bytes) (w : World) : Prop :=
  ∀ t, w.loaded t = some (desired caPublicKey t)

/-- A reload leaves the files. -/
theorem reload_spec (contentChanged : Bool) :
    succeeds ((effect caPublicKey).only P) (reload contentChanged) w fun w' _ =>
      w'.files = w.files ∧ (Good caPublicKey w → Good caPublicKey w') ∧
      (contentChanged = false → w'.loaded = w.loaded) ∧
      (contentChanged = true → (∀ e, P e → Uncut e) → w.active = true → w'.loaded = w.content) := by
  cases contentChanged with
  | false => exact succeeds_pure ⟨rfl, id, fun _ => rfl, nofun⟩
  | true =>
      refine succeeds_bind (query_spec .isActive nofun) fun w₁ active hquery => ?_
      obtain ⟨hheeded, -, hno⟩ := hquery
      have hquiet : Quiet caPublicKey w w₁ := hheeded.quiet
      cases active with
      | false =>
          refine succeeds_pure ⟨hquiet.files, hquiet.good, nofun, fun _ huncut hactive => ?_⟩
          exact absurd hactive (hno huncut rfl)
      | true =>
          refine succeeds_mono (run_spec .reload) fun w₂ _ hrun => ?_
          obtain ⟨w₃, rfl, hheeded'⟩ := hrun
          have hquiet' : Quiet caPublicKey w₁.reloaded w₂ := hheeded'.quiet
          have hgood : Good caPublicKey w → Good caPublicKey w₂ := fun h =>
            hquiet'.good ⟨(hquiet.good h).staged, (hquiet.good h).known⟩
          refine ⟨hquiet'.files.trans hquiet.files, hgood, nofun, fun _ _ _ => ?_⟩
          rw [hquiet'.loaded]
          funext t
          show w₁.content t = w.content t
          rw [World.content, World.content, hquiet.files]

/-- Whether the service will have loaded what is meant: it has, or a file has another content. -/
def Ready (caPublicKey : Bytes) (w : World) : Prop :=
  (∃ t, w.content t ≠ some (desired caPublicKey t)) ∨ Loaded caPublicKey w

/-- **The body of the script.** -/
theorem body_spec (w : World) :
    succeeds ((effect caPublicKey).only P) body w.fresh fun w' _ =>
      (∀ t, Installed caPublicKey w' t) ∧ w'.staging ≠ .unnamed ∧
      ((∀ e, P e → Uncut e) → w.active = true → (Loaded caPublicKey w' ↔ Ready caPublicKey w)) := by
  have hgood : Good caPublicKey w.fresh := ⟨fun _ _ h => (nomatch h), nofun⟩
  unfold body
  refine Calm.before calm_mktemp (Quiet.refl _) fun _ _ h => ?_
  refine Calm.before (calm_refuseDirectory .ca) h fun _ _ h => ?_
  refine Calm.before (calm_refuseDirectory .dropIn) h fun _ _ h => ?_
  refine Calm.before (calm_stage .ca) h fun _ _ h => ?_
  refine Calm.before (calm_stage .dropIn) h fun _ _ h => ?_
  refine Calm.before (calm_plain rfl) h fun _ _ h => ?_
  refine Calm.before (calm_plain rfl) h fun _ _ h => ?_
  refine Calm.before (calm_plain rfl) h fun _ _ h => ?_
  refine Calm.before (calm_plain rfl) h fun _ _ h => ?_
  refine Calm.before (calm_plain rfl) h fun w₁ _ h => ?_
  refine succeeds_bind (reconcile_spec (h.good hgood) .ca) fun w₂ caChanged hca => ?_
  refine succeeds_bind (reconcile_spec hca.good .dropIn) fun w₃ dropInChanged hdropIn => ?_
  refine Calm.before (calm_plain rfl) (Quiet.refl w₃) fun _ _ h₃ => ?_
  refine Calm.before calm_checkEffective h₃ fun w₄ _ h₄ => ?_
  refine succeeds_mono (reload_spec _) fun w₅ _ hreload => ?_
  obtain ⟨hfiles, hstillGood, hkept, hreloaded⟩ := hreload
  have hinstalled : ∀ t, Installed caPublicKey w₃ t := by
    intro t
    cases t with
    | ca => exact (hdropIn.others .ca nofun).trans hca.installed
    | dropIn => exact hdropIn.installed
  have hcontent : w₄.content = fun t => some (desired caPublicKey t) := by
    funext t
    rw [World.content, h₄.files, hinstalled t]
    rfl
  refine ⟨fun t => ?_, (hstillGood (h₄.good hdropIn.good)).known, fun huncut hactive => ?_⟩
  · rw [Installed, hfiles, h₄.files]
    exact hinstalled t
  · have hbefore : ∀ t, w₁.content t = w.content t := fun t => by
      rw [World.content, World.content, h.files]
      rfl
    have hsecond : w₂.content .dropIn = w.content .dropIn := by
      rw [World.content, hca.others .dropIn nofun]
      exact hbefore .dropIn
    have hsame : w₄.loaded = w.loaded :=
      h₄.loaded.trans (hdropIn.loaded.trans (hca.loaded.trans h.loaded))
    have hrunning : w₄.active = true := by
      rw [h₄.active, hdropIn.active, hca.active, h.active]
      exact hactive
    have hchanged : (caChanged || dropInChanged) = true ↔
        ∃ t, w.content t ≠ some (desired caPublicKey t) := by
      rw [Bool.or_eq_true, hca.changed huncut, hdropIn.changed huncut, hbefore, hsecond]
      constructor
      · rintro (hne | hne)
        · exact ⟨.ca, hne⟩
        · exact ⟨.dropIn, hne⟩
      · rintro ⟨t, hne⟩
        cases t with
        | ca => exact Or.inl hne
        | dropIn => exact Or.inr hne
    by_cases hflag : (caChanged || dropInChanged) = true
    · have hloaded : Loaded caPublicKey w₅ := by
        intro t
        rw [hreloaded hflag huncut hrunning, hcontent]
      exact iff_of_true hloaded (Or.inl (hchanged.mp hflag))
    · have hnone : ¬ ∃ t, w.content t ≠ some (desired caPublicKey t) := fun h => hflag (hchanged.mpr h)
      unfold Loaded Ready
      rw [hkept (Bool.eq_false_of_not_eq_true hflag), hsame]
      exact ⟨Or.inr, fun hready => hready.resolve_left hnone⟩

/-- No file of the run is left. -/
def Clean (w : World) : Prop := w.staging = .none ∧ ∀ t, w.temps t = none

/-- What a run leaves when it has succeeded. -/
structure Converged (caPublicKey : Bytes) (P : Event Ans → Prop) (w w' : World) : Prop where
  installed : ∀ t, Installed caPublicKey w' t
  clean : Clean w'
  loaded : (∀ e, P e → Uncut e) → w.active = true → (Loaded caPublicKey w' ↔ Ready caPublicKey w)

/-- A run that succeeds has converged. -/
theorem sshTrust_spec (w : World) :
    succeeds ((effect caPublicKey).only P) sshTrust w.fresh fun w' _ =>
      Converged caPublicKey P w w' := by
  refine succeeds_finally (body_spec w) fun w₁ _ h => succeeds_ask fun _ w₂ heff => ?_
  obtain rfl : w₂ = w₁.cleaned := heff.1
  obtain ⟨hinstalled, hknown, hloaded⟩ := h
  refine ⟨hinstalled, ⟨?_, fun _ => rfl⟩, hloaded⟩
  unfold World.cleaned
  cases hstaging : w₁.staging with
  | none => rfl
  | unnamed => exact absurd hstaging hknown
  | named files => rfl

/-- No command stops the service. -/
theorem active_step (op : Op) (answer : Ans op) (w w' : World)
    (h : effect caPublicKey op answer w w') (hactive : w.active = true) : w'.active = true := by
  cases op with
  | query q =>
      have hsame : w' = w := by
        cases q <;> cases hverdict : answer.value <;>
          simp only [effect, queryEffect, hverdict] at h <;> first | exact h | exact h.1
      rwa [hsame]
  | stat t => rwa [h.1]
  | cleanup =>
      obtain rfl : w' = w.cleaned := h
      exact hactive
  | run command =>
      change commandEffect caPublicKey command answer.value w w' at h
      cases command <;> cases hvalue : answer.value <;> rw [hvalue] at h <;>
        simp only [commandEffect] at h <;> grind [World.stage, World.setTemp, World.reloaded,
          World.Moved]

/-- The service stays active. -/
theorem Ran.active {r : Run} (h : Ran caPublicKey r) (hactive : r.before.active = true) :
    r.after.active = true :=
  h.moves.invariant (fun op answer _ _ heff => active_step op answer _ _ heff) hactive

/-- A run that the script has ended with success. -/
theorem Ran.converged {r : Run} (h : Ran caPublicKey r) (hended : r.ended = some (.ok ()))
    (hP : ∀ e ∈ r.trace, P e) : Converged caPublicKey P r.before r.after := by
  obtain ⟨q, hreaches, hq⟩ := h.reaches
  rw [hended] at hq
  cases q with
  | done outcome =>
      obtain rfl := Option.some.inj hq
      have hspec : succeeds ((effect caPublicKey).only P) sshTrust r.before.fresh fun w' _ =>
          Converged caPublicKey P r.before w' := sshTrust_spec r.before
      have hfinal := succeeds_finished hreaches (h.moves.only hP) hspec
      exact hfinal
  | call op next => exact nomatch hq

/-- Through all runs. -/
theorem History.active {runs : List Run} (h : History caPublicKey w runs)
    (hactive : w.active = true) : ∀ r ∈ runs, Ran caPublicKey r ∧ r.before.active = true := by
  induction h with
  | nil w => exact fun _ hmem => absurd hmem List.not_mem_nil
  | cons hran _ ih =>
      refine List.forall_mem_cons.mpr ⟨⟨hran, hactive⟩, ih (hran.active hactive)⟩

/-- The service has loaded what it would read now. -/
def Settled (w : World) : Prop := w.loaded = w.content

/-- A settled machine is ready. -/
theorem Settled.ready (h : Settled w) : Ready caPublicKey w := by
  by_cases hall : ∃ t, w.content t ≠ some (desired caPublicKey t)
  · exact Or.inl hall
  · refine Or.inr fun t => ?_
    rw [h]
    by_contra hne
    exact hall ⟨t, hne⟩

/-- **From a settled machine**, if every run that has not succeeded has left the machine settled,
every run that has succeeded has the service load what is meant. -/
theorem settled_history {runs : List Run} (h : History caPublicKey w runs)
    (hactive : w.active = true) (hsettled : Settled w)
    (hstopped : ∀ r ∈ runs, r.ended ≠ some (.ok ()) → Settled r.after)
    (huncut : ∀ r ∈ runs, ∀ e ∈ r.trace, Uncut e) :
    ∀ r ∈ runs, r.ended = some (.ok ()) → Loaded caPublicKey r.after := by
  induction h with
  | nil w => exact fun _ hmem => absurd hmem List.not_mem_nil
  | @cons r runs hran _ ih =>
      have hloaded : r.ended = some (.ok ()) → Converged caPublicKey Uncut r.before r.after ∧
          Loaded caPublicKey r.after := by
        intro hended
        have hconverged : Converged caPublicKey Uncut r.before r.after :=
          hran.converged hended (huncut r List.mem_cons_self)
        exact ⟨hconverged, (hconverged.loaded (fun _ he => he) hactive).mpr hsettled.ready⟩
      have hafter : Settled r.after := by
        by_cases hended : r.ended = some (.ok ())
        · obtain ⟨hconverged, hload⟩ := hloaded hended
          funext t
          rw [hload t, World.content, hconverged.installed t]
          rfl
        · exact hstopped r List.mem_cons_self hended
      refine List.forall_mem_cons.mpr ⟨fun hended => (hloaded hended).2, ?_⟩
      exact ih (hran.active hactive) hafter
        (fun r hr => hstopped r (List.mem_cons_of_mem _ hr))
        (fun r hr => huncut r (List.mem_cons_of_mem _ hr))

/-- **After any sequence of runs**, each of which may have failed or been cut short anywhere, a run
that has succeeded has both files in their place, as regular files of root with mode 0644, and has
left none of its own; and if none of its conditions was cut off, the service has loaded their
content exactly if it had before, or a file had another content before. -/
theorem trust_converges_iff (caPublicKey : Bytes) (w : World) (runs : List Run)
    (hactive : w.active = true) (h : History caPublicKey w runs) :
    ∀ r ∈ runs, r.ended = some (.ok ()) →
      (∀ t, r.after.files t = .regular (desired caPublicKey t) 0 0 0o644) ∧ Clean r.after ∧
      ((∀ e ∈ r.trace, Uncut e) →
        (Loaded caPublicKey r.after ↔ Ready caPublicKey r.before)) := by
  intro r hr hended
  obtain ⟨hran, hrunning⟩ := h.active hactive r hr
  have hany : Converged caPublicKey (fun _ => True) r.before r.after :=
    hran.converged hended fun _ _ => trivial
  refine ⟨hany.installed, hany.clean, fun huncut => ?_⟩
  have hconverged : Converged caPublicKey Uncut r.before r.after := hran.converged hended huncut
  exact hconverged.loaded (fun _ he => he) hrunning

/-- A public key. -/
def sampleKey : Bytes :=
  Text.ascii "ssh-ed25519 AAAAC3NzaC1lZDI1NTE5AAAAIAAAAAAAAAAAAAAAAAAAAAAAAAAAAAAAAAAAAAAAAAAA"

/-- The drop-in is in place and loaded; there is no key. -/
def sampleWorld : World where
  files
    | .ca => .absent
    | .dropIn => .regular sshdDropIn 0 0 0o644
  active := true
  loaded
    | .ca => none
    | .dropIn => some sshdDropIn
  staging := .none
  temps := fun _ => none

/-- A command that succeeds. -/
def ok (command : Command) : Event Ans := ⟨.run command, ⟨true, false⟩⟩
def told (q : Query) (verdict : Verdict) : Event Ans := ⟨.query q, ⟨verdict, false⟩⟩

/-- The staging and the checks, when all is well. -/
def staged : Trace Ans :=
  [ok .mktemp, told (.isDirectory .ca) .no, told (.isDirectory .dropIn) .no, ok (.stage .ca),
    ok (.stage .dropIn), ok .validateConf, ok .keygen, ok .copyConfig, ok .includeConf,
    ok .testCandidate]

/-- The machine with both files staged. -/
def stagedWorld (w : World) : World :=
  ({ w.fresh with staging := .named fun _ => none }.stage .ca (some sampleKey)).stage .dropIn
    (some sshdDropIn)

/-- Staging both files comes first. -/
theorem moves_staged {t : Trace Ans} (hfiles : ∀ t, w.files t ≠ .directory)
    (h : Moves (effect sampleKey) (stagedWorld w) t w') :
    Moves (effect sampleKey) w.fresh (staged ++ t) w' := by
  refine .cons rfl (.cons ⟨rfl, hfiles .ca⟩ (.cons ⟨rfl, hfiles .dropIn⟩ ?_))
  refine .cons ⟨⟨_, rfl⟩, rfl⟩ (.cons ⟨⟨_, rfl⟩, rfl⟩ ?_)
  exact .cons rfl (.cons rfl (.cons rfl (.cons rfl (.cons rfl h))))

/-- The first run installs the key and is cut short. -/
def stopped : Run where
  before := sampleWorld
  trace := staged ++ [⟨.stat .ca, ⟨none, false⟩⟩, told (.contentMatches .ca) .no,
    ok (.install .ca), ok (.move .ca)]
  ended := none
  after :=
    { stagedWorld sampleWorld with
      files := Function.update sampleWorld.files .ca (.regular sampleKey 0 0 0o644)
      temps := Function.update (Function.update (fun _ => none) .ca
        (some (.regular sampleKey 0 0 0o644))) .ca none }

/-- The second run finds both files in place. -/
def repeated : Run where
  before := stopped.after
  trace := staged ++ [⟨.stat .ca, ⟨some (.regularFile 0 0 0o644), false⟩⟩,
    told (.contentMatches .ca) .yes, ⟨.stat .dropIn, ⟨some (.regularFile 0 0 0o644), false⟩⟩,
    told (.contentMatches .dropIn) .yes, ok .testFinal, ok .mkfifo, ok .capture,
    told .producer .yes, ok .removeFifo, ok .countBytes, ok .testSize, ok .grepEffective,
    ⟨.cleanup, ()⟩]
  ended := some (.ok ())
  after := (stagedWorld stopped.after).cleaned

/-- A run that is stopped before the reload. -/
theorem ran_stopped : Ran sampleKey stopped := by
  constructor
  · exact ⟨_, .step (.step (.step (.step (.step (.step (.step (.step (.step (.step (.step (.step
      (.step (.step (.refl _)))))))))))))), rfl⟩
  · refine moves_staged (fun t => by cases t <;> nofun) ?_
    refine .cons ⟨rfl, Or.inl rfl⟩ (.cons ⟨rfl, nofun⟩ ?_)
    refine .cons ⟨sampleKey, rfl, rfl⟩ (.cons ⟨_, rfl, nofun, rfl⟩ (.nil _))

/-- And the next one. -/
theorem ran_repeated : Ran sampleKey repeated := by
  constructor
  · exact ⟨_, .step (.step (.step (.step (.step (.step (.step (.step (.step (.step (.step (.step
      (.step (.step (.step (.step (.step (.step (.step (.step (.step (.step (.step
        (.refl _))))))))))))))))))))))), rfl⟩
  · refine moves_staged (fun t => by cases t <;> nofun) ?_
    refine .cons ⟨rfl, Or.inr rfl⟩ (.cons ⟨rfl, sampleKey, rfl, rfl⟩ ?_)
    refine .cons ⟨rfl, Or.inr rfl⟩ (.cons ⟨rfl, sshdDropIn, rfl, rfl⟩ ?_)
    refine .cons rfl (.cons rfl (.cons rfl (.cons rfl ?_)))
    exact .cons rfl (.cons rfl (.cons rfl (.cons rfl (.cons rfl (.nil _)))))

/-- Both, one after the other. -/
theorem history_sample : History sampleKey sampleWorld [stopped, repeated] :=
  .cons ran_stopped (.cons ran_repeated (.nil _))

/-- `trust_converges_iff` at the second run, which leaves both files in place. -/
theorem trust_converges_iff_repeated :
    (∀ t, repeated.after.files t = .regular (desired sampleKey t) 0 0 0o644) ∧
      Clean repeated.after ∧ (Loaded sampleKey repeated.after ↔ Ready sampleKey repeated.before) := by
  obtain ⟨hfiles, hclean, hloaded⟩ :=
    trust_converges_iff sampleKey sampleWorld [stopped, repeated] rfl history_sample repeated
      (List.mem_cons_of_mem _ List.mem_cons_self) rfl
  refine ⟨hfiles, hclean, hloaded ?_⟩
  simp [repeated, staged, ok, told, Uncut]

/-- **The key is in its place, the run has succeeded, and the running service has not loaded it.** -/
theorem activation_lost :
    History sampleKey sampleWorld [stopped, repeated] ∧ sampleWorld.active = true ∧
      repeated.ended = some (.ok ()) ∧ repeated.after.active = true ∧
      repeated.after.files .ca = .regular sampleKey 0 0 0o644 ∧
      repeated.after.loaded .ca = none := by
  exact ⟨history_sample, rfl, rfl, rfl, rfl, rfl⟩

end SshTrust
