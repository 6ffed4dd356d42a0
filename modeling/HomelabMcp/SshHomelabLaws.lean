import HomelabMcp.SshHomelabWatch

/-!
# The tokens of the SSH client

Two laws of `run`, over every answer of OpenBao, of the file system and of the processes.

* `signs_only_valid`: a token signs only if its last lookup was valid; there is one login and there
  are two signatures at most; no token that did not hold is left in the cache; and where the lookup
  of the cached token decides nothing, the cache file is left alone.
* `minted_kept_iff`: when the run ends, the token of a login is in the cache or its revocation was
  tried, exactly if its lookup was made and did not raise and, where it is valid, it could be saved.

What a login does is followed once (`loginValidateAndSave_spec`), and so is the signature with the
token that it gives (`signNew_spec`).
-/

namespace SshHomelab

open Interaction

variable {o : Outside} {w : Watch} {cache : TokenCache} {origin token : String}

/-- What is assumed of OpenBao: a login gives out a new token, not the one that was in the cache. -/
def FreshLogin (w : Watch) : Prop :=
  ∀ token, w.minted = some token → w.loaded ≠ some token

/-- No token that did not hold is in the cache. -/
def Clean (w : Watch) : Prop :=
  w.works = true → FreshLogin w → ∀ token ∈ w.condemned, w.held ≠ some token

/-- The token of the login is in the cache, or its revocation was tried. -/
def Safe (w : Watch) : Prop :=
  ∀ token, w.minted = some token → w.held = some token ∨ w.attempted = true

/-- The token of the login can be put in the environment of a process; what its lookup prints does
not make `json.loads` raise what is not caught; and if it is valid, the cache accepts it and no
operation of the save fails before the file is in place. -/
def Keeps (origin : String) (w : Watch) : Prop :=
  ∀ token, w.minted = some token → '\x00' ∉ token.toList ∧
    (∀ e, w.verdicts.lookup token ≠ some (.error e)) ∧
    (w.verdicts.lookup token = some (.ok .valid) → Accepted origin token ∧ w.spoiled = false)

/-- What holds whenever a run ends. -/
structure Ended (origin : String) (w : Watch) : Prop where
  clean : Clean w
  kept : Safe w ↔ Keeps origin w

/-- A run without a new token ends as it should, where what is kept is clean. -/
theorem Ended.unminted (hminted : w.minted = none) (hclean : Clean w) : Ended origin w := by
  refine ⟨hclean, ?_⟩
  constructor
  · intro _ token htoken
    rw [hminted] at htoken
    cases htoken
  · intro _ token htoken
    rw [hminted] at htoken
    cases htoken

/-- Nothing was minted, and no token failed. -/
theorem Ended.untried (hminted : w.minted = none) (hcondemned : w.condemned = []) :
    Ended origin w := by
  apply Ended.unminted hminted
  intro _ _ token htoken
  rw [hcondemned] at htoken
  cases htoken

/-- Before the login; what did not hold was the cached token. -/
structure Early (w : Watch) : Prop where
  logins : w.logins = 0
  minted : w.minted = none
  attempted : w.attempted = false
  spoiled : w.spoiled = false
  unknown : w.unknown = false
  condemned : ∀ token ∈ w.condemned, w.loaded = some token

/-- A new token, valid and saved. -/
structure Minted (origin : String) (w : Watch) (token : String) : Prop where
  minted : w.minted = some token
  held : w.held = some token
  verdict : w.verdicts.lookup token = some (.ok .valid)
  noNull : '\x00' ∉ token.toList
  accepted : Accepted origin token
  spoiled : w.spoiled = false
  unknown : w.unknown = false
  condemned : ∀ token ∈ w.condemned, w.loaded = some token

/-- A token that was minted is kept or given up. -/
theorem Minted.keeps (h : Minted origin w token) : Keeps origin w := by
  intro other hother
  rw [h.minted] at hother
  obtain rfl := Option.some.inj hother
  refine ⟨h.noNull, ?_, fun _ => ⟨h.accepted, h.spoiled⟩⟩
  intro e hraised
  rw [h.verdict] at hraised
  cases hraised

/-- So a run with it may end. -/
theorem Minted.ended (h : Minted origin w token) : Ended origin w := by
  refine ⟨?_, iff_of_true ?_ h.keeps⟩
  · intro _ hfresh other hother hheld
    rw [h.held] at hheld
    obtain rfl := Option.some.inj hheld
    exact hfresh token h.minted (h.condemned token hother)
  · intro other hother
    rw [h.minted] at hother
    exact .inl (h.held.trans hother)

/-- The check of a token finds a null. -/
theorem contains_null {token : String} :
    (!token.toList.contains '\x00') = true ↔ '\x00' ∉ token.toList := by simp

/-- A lookup ends before its command, or with what the command said. -/
theorem lookupToken_spec (hmay : w.logins = 0 → w.touched = false)
    {Q : Watch → Except Exn TokenLookup → Prop}
    (hnull : '\x00' ∈ token.toList → ∀ e, Q w (.error e))
    (hfound : '\x00' ∉ token.toList → ∀ found, Q (w.look token found) found) :
    (monitor o).wp (lookupToken o token).run w Q := by
  unfold lookupToken tokenEnvironment
  rw [Monitor.wp_run_bind]
  refine Monitor.wp_run_ensure _ ?_ ?_
  · intro hok
    refine ⟨hmay, ?_⟩
    intro (result : Ran)
    show (monitor o).wp (answer (classify o.loads result)).run
      (w.look token (classify o.loads result)) Q
    rw [Monitor.wp_run_answer]
    exact hfound (contains_null.mp hok) (classify o.loads result)
  · intro hbad
    refine hnull ?_ _
    by_contra hnone
    rw [contains_null.mpr hnone] at hbad
    cases hbad

/-- A revocation ends before its command, or was tried. -/
theorem revokeToken_spec {Q : Watch → Except Exn Bool → Prop}
    (hnull : '\x00' ∈ token.toList → ∀ e, Q w (.error e))
    (htried : '\x00' ∉ token.toList → ∀ ok, Q (w.revoke token) (.ok ok)) :
    (monitor o).wp (revokeToken token).run w Q := by
  unfold revokeToken tokenEnvironment
  rw [Monitor.wp_run_bind]
  refine Monitor.wp_run_ensure _ ?_ ?_
  · intro hok
    refine ⟨trivial, ?_⟩
    intro (result : Ran)
    exact htried (contains_null.mp hok) (revoked result)
  · intro hbad
    refine hnull ?_ _
    by_contra hnone
    rw [contains_null.mpr hnone] at hbad
    cases hbad

/-- A signature is for a token that was found valid. -/
theorem sign_spec (hverdict : w.verdicts.lookup token = some (.ok .valid)) (hsigns : w.signs < 2)
    (hnull : '\x00' ∉ token.toList) {Q : Watch → Except Exn Unit → Prop}
    (hrejected : Q (w.sign token true) (.error .authenticationRejected))
    (hother : ∀ r, r ≠ .error .authenticationRejected → Q (w.sign token false) r) :
    (monitor o).wp (sign token).run w Q := by
  unfold sign tokenEnvironment
  rw [Monitor.wp_run_bind]
  refine Monitor.wp_run_ensure _ ?_ ?_
  · intro _
    refine ⟨⟨hverdict, hsigns⟩, ?_⟩
    intro (result : Ran)
    show (monitor o).wp (answer (signed result) >>= fun _ => act (ask Op.storeCertificate)).run
      (w.sign token (signRejected result)) Q
    rw [Monitor.wp_run_bind, Monitor.wp_run_answer]
    rcases hsigned : signed result with e | u
    · by_cases he : e = .authenticationRejected
      · subst he
        have hflag : signRejected result = true := by rw [signRejected, hsigned]
        rw [hflag]
        exact hrejected
      · have hflag : signRejected result = false := by
          cases e <;> simp_all [signRejected]
        rw [hflag]
        exact hother _ fun h => he (Except.error.inj h)
    · have hflag : signRejected result = false := by rw [signRejected, hsigned]
      rw [hflag]
      refine ⟨trivial, ?_⟩
      intro (stored : Did Unit)
      cases stored with
      | error e => exact hother (.error .osError) nofun
      | ok u => exact hother (.ok u) nofun
  · intro hbad
    rw [contains_null.mpr hnull] at hbad
    cases hbad

/-- A warning changes nothing. -/
theorem warnUnless_spec {ok : Bool} {message : String} {Q : Watch → Except Exn Unit → Prop}
    (h : Q w (.ok ())) : (monitor o).wp (warnUnless ok message).run w Q := by
  cases ok with
  | true => exact h
  | false => exact ⟨trivial, fun (u : Unit) => h⟩

/-- Looking for a program changes nothing. -/
theorem executable_spec {name : String} {Q : Watch → Except Exn Unit → Prop}
    (hfound : Q w (.ok ())) (hmissing : ∀ e, Q w (.error e)) :
    (monitor o).wp (executable name).run w Q := by
  refine ⟨trivial, ?_⟩
  intro (found : Bool)
  cases found with
  | true => exact hfound
  | false => exact hmissing _

/-- A login gave out the token, and nothing came of it yet. -/
structure LoggedIn (w : Watch) (token : String) : Prop where
  held : w.held = none
  minted : w.minted = some token
  attempted : w.attempted = false
  logins : w.logins ≠ 0
  spoiled : w.spoiled = false
  unknown : w.unknown = false
  condemned : ∀ token ∈ w.condemned, w.loaded = some token

/-- Nothing held is clean. -/
theorem clean_of_empty (hheld : w.held = none) : Clean w := by
  intro _ _ other _ hother
  rw [hheld] at hother
  cases hother

/-- The token of the login is neither in the cache nor revoked, and it could not be kept. -/
theorem Ended.lost (hheld : w.held = none) (hminted : w.minted = some token)
    (hattempted : w.attempted = false) (hkeeps : ¬ Keeps origin w) : Ended origin w := by
  refine ⟨clean_of_empty hheld, iff_of_false ?_ hkeeps⟩
  intro hsafe
  rcases hsafe token hminted with hstored | htried
  · rw [hheld] at hstored
    cases hstored
  · rw [hattempted] at htried
    cases htried

/-- The token of the login was tried to be revoked. -/
theorem Ended.revoked (hclean : Clean w) (hattempted : w.attempted = true)
    (hkeeps : Keeps origin w) : Ended origin w :=
  ⟨hclean, iff_of_true (fun _ _ => .inr hattempted) hkeeps⟩

/-- A lookup's verdict is remembered. -/
theorem look_verdict (token : String) (found : Except Exn TokenLookup) :
    (w.look token found).verdicts.lookup token = some found := by
  simp [Watch.look]

/-- A token of this run is not unknown. -/
theorem LoggedIn.look_unknown (h : LoggedIn w token) (found : Except Exn TokenLookup) :
    (w.look token found).unknown = false := by
  have hlogins : (w.logins == 0) = false := by simpa using h.logins
  rw [Watch.look, h.unknown, hlogins]
  rfl

/-- A new token is looked up, and saved or given up. -/
theorem validateAndSave_spec (hcache : cache.uid = o.uid) (h : LoggedIn w token) :
    (monitor o).wp (validateAndSave o origin cache token).run w fun w' r =>
      match r with
      | .ok token => Minted origin w' token ∧ w'.signs = w.signs
      | .error _ => Ended origin w' := by
  unfold validateAndSave
  rw [Monitor.wp_run_bind]
  apply lookupToken_spec (fun hzero => absurd hzero h.logins)
  · -- The token cannot be looked up, so it is neither saved nor revoked.
    intro hnull e
    apply Ended.lost h.held h.minted h.attempted
    intro hkeeps
    exact (hkeeps token h.minted).1 hnull
  · intro hnull outcome
    have hunknown := h.look_unknown outcome
    have hverdict := @look_verdict w token outcome
    rcases outcome with e | found
    · -- The lookup raises, and the token goes with it.
      apply Ended.lost (by exact h.held) (by exact h.minted) (by exact h.attempted)
      intro hkeeps
      exact (hkeeps token h.minted).2.1 e hverdict
    dsimp only
    by_cases hvalid : found = .valid
    · subst hvalid
      simp only [if_true, Monitor.wp_run_bind]
      apply save_spec hcache hunknown (by exact h.held)
      · intro hrefused e
        apply Ended.lost (by exact h.held) (by exact h.minted) (by exact h.attempted)
        intro hkeeps
        exact hrefused ((hkeeps token h.minted).2.2 hverdict).1
      · intro touched e
        apply Ended.lost (by exact h.held) (by exact h.minted) (by exact h.attempted)
        intro hkeeps
        have hspoiled := ((hkeeps token h.minted).2.2 hverdict).2
        cases hspoiled
      · intro haccepted works r
        have hminted : Minted origin { (w.look token (.ok .valid)) with
            held := some token, touched := true, works := works } token := {
          minted := h.minted
          held := rfl
          verdict := hverdict
          noNull := hnull
          accepted := haccepted
          spoiled := h.spoiled
          unknown := hunknown
          condemned := h.condemned }
        cases r with
        | ok u => exact ⟨hminted, rfl⟩
        | error e => exact hminted.ended
    · simp only [if_neg hvalid, Monitor.wp_run_bind]
      apply revokeToken_spec
      · intro hbad
        exact absurd hbad hnull
      · intro ok revoked
        apply warnUnless_spec
        have hended : Ended origin ((w.look token (.ok found)).revoke token) := by
          apply Ended.revoked (clean_of_empty (by exact h.held))
          · simp [Watch.revoke, Watch.look, h.minted]
          · intro other hother
            have hsame : w.minted = some other := hother
            rw [h.minted] at hsame
            obtain rfl := Option.some.inj hsame
            refine ⟨hnull, ?_, ?_⟩
            · intro e hraised
              cases hverdict.symm.trans hraised
            · intro hlooked
              have hfound := Option.some.inj (hverdict.symm.trans hlooked)
              exact absurd (Except.ok.inj hfound) hvalid
        by_cases hunclear : found = .indeterminate
        · simp only [if_pos hunclear]
          exact hended
        · simp only [if_neg hunclear]
          exact hended

/-- A login gives a token that is valid and saved, or the run ends. -/
theorem loginValidateAndSave_spec (hcache : cache.uid = o.uid) (h : Early w)
    (hheld : w.held = none) :
    (monitor o).wp (loginValidateAndSave o origin cache).run w fun w' r =>
      match r with
      | .ok token => Minted origin w' token ∧ w'.signs = w.signs
      | .error _ => Ended origin w' := by
  refine ⟨?_, ?_⟩
  · have hlogins : w.logins < 1 := by
      rw [h.logins]
      exact Nat.one_pos
    exact hlogins
  intro (result : Ran)
  show (monitor o).wp (answer (loginToken result) >>= _).run (w.login (loginToken result).toOption) _
  rw [Monitor.wp_run_bind, Monitor.wp_run_answer]
  rcases loginToken result with e | token
  · exact Ended.unminted rfl (clean_of_empty hheld)
  · apply validateAndSave_spec hcache
    exact {
      held := hheld
      minted := rfl
      attempted := rfl
      logins := Nat.succ_ne_zero _
      spoiled := h.spoiled
      unknown := h.unknown
      condemned := h.condemned }

/-- A new token that was rejected while signing is revoked, and the cache is cleared. -/
theorem dropRejected_spec (hcache : cache.uid = o.uid) (h : Minted origin w token) :
    (monitor o).wp (dropRejected cache token).run (w.sign token true) fun w' _ =>
      Ended origin w' := by
  have hkeeps : Keeps origin (w.sign token true) := h.keeps
  have htried : ((w.sign token true).revoke token).attempted = true := by
    simp [Watch.revoke, Watch.sign, h.minted]
  unfold dropRejected
  rw [Monitor.wp_run_bind]
  apply revokeToken_spec
  · intro hnull
    exact absurd hnull h.noNull
  · intro _ revoked
    simp only [Monitor.wp_run_bind]
    apply clear_spec hcache (by exact h.unknown)
    · intro touched
      apply warnUnless_spec
      exact Ended.revoked (clean_of_empty rfl) htried hkeeps
    · intro touched e
      exact Ended.revoked nofun htried hkeeps

/-- However the signature with a new token comes out, the run may end. -/
theorem signNew_spec (hcache : cache.uid = o.uid) (h : Minted origin w token)
    (hsigns : w.signs < 2) {f : Except Exn Unit → Call Unit}
    (hrejected : f (.error .authenticationRejected) = dropRejected cache token)
    (hother : ∀ r, r ≠ .error .authenticationRejected → f r = answer r) :
    (monitor o).wp (attempt (sign token) >>= f).run w fun w' _ => Ended origin w' := by
  rw [Monitor.wp_run_bind, Monitor.wp_run_attempt]
  apply sign_spec h.verdict hsigns h.noNull
  · simp only [hrejected]
    exact dropRejected_spec hcache h
  · intro r hr
    simp only [hother r hr, Monitor.wp_run_answer]
    have hsigned : Minted origin (w.sign token false) token := {
      minted := h.minted
      held := h.held
      verdict := h.verdict
      noNull := h.noNull
      accepted := h.accepted
      spoiled := h.spoiled
      unknown := h.unknown
      condemned := h.condemned }
    exact hsigned.ended

/-- The cached token is valid, and nothing else was done. -/
structure FromCache (w : Watch) (token : String) : Prop extends Early w where
  held : w.held = some token
  loaded : w.loaded = some token
  verdict : w.verdicts.lookup token = some (.ok .valid)
  noNull : '\x00' ∉ token.toList
  signs : w.signs = 0
  nothing : w.condemned = []

/-- The token that signs first. -/
def Ready (origin : String) (w : Watch) (token : String) : Bool → Prop
  | true => FromCache w token
  | false => Minted origin w token ∧ w.signs = 0

/-- A run that is ready may end. -/
theorem Ready.ended {cached : Bool} (h : Ready origin w token cached) : Ended origin w := by
  cases cached with
  | true => exact Ended.untried h.minted h.nothing
  | false => exact h.1.ended

/-- Signing with a token ends the run as it should. -/
theorem certify_spec (hcache : cache.uid = o.uid) {cached : Bool}
    (h : Ready origin w token cached) :
    (monitor o).wp (certify o origin cache token cached).run w fun w' _ => Ended origin w' := by
  unfold certify
  cases cached with
  | false =>
      obtain ⟨hminted, hsigns⟩ := h
      apply signNew_spec hcache hminted (by omega)
      · simp
      · intro r hr
        rcases r with e | u
        · cases e <;> first | rfl | exact absurd rfl hr
        · rfl
  | true =>
      have h : FromCache w token := h
      rw [Monitor.wp_run_bind, Monitor.wp_run_attempt]
      apply sign_spec h.verdict (by rw [h.signs]; decide) h.noNull
      · -- The cached token goes, and a new one signs.
        have hcondemned : ∀ other ∈ (w.sign token true).condemned, w.loaded = some other := by
          intro other hother
          have hother : other ∈ token :: w.condemned := hother
          rw [h.nothing, List.mem_singleton] at hother
          rw [hother]
          exact h.loaded
        have hattempted : ((w.sign token true).revoke token).attempted = false := by
          simp [Watch.revoke, Watch.sign, h.attempted, h.minted]
        simp only [Bool.not_true, Bool.false_eq_true, if_false, Monitor.wp_run_bind]
        apply revokeToken_spec
        · intro hnull
          exact absurd hnull h.noNull
        · intro _ revoked
          apply warnUnless_spec
          apply clear_spec hcache (by exact h.unknown)
          · intro touched
            apply Monitor.wp_mono _ (loginValidateAndSave_spec hcache ?_ rfl)
            · intro w' r hr
              rcases r with e | fresh
              · exact hr
              · obtain ⟨hminted, hsigns⟩ := hr
                have hone : w'.signs = w.signs + 1 := hsigns
                have hfirst := h.signs
                refine (Monitor.wp_run_bind _ _ _ _ _).mp
                  (signNew_spec hcache hminted (by omega) rfl ?_)
                intro r hr
                rcases r with e | u
                · cases e <;> first | rfl | exact absurd rfl hr
                · rfl
            · exact {
                logins := h.logins
                minted := h.minted
                attempted := hattempted
                spoiled := h.spoiled
                unknown := h.unknown
                condemned := hcondemned }
          · intro touched e
            exact Ended.unminted (by exact h.minted) nofun
      · intro r hr
        have hended : Ended origin (w.sign token false) :=
          Ended.untried h.minted h.nothing
        rcases r with e | u
        · cases e <;> first | exact hended | exact absurd rfl hr
        · exact hended

/-- So does connecting with one. -/
theorem connect_spec (hcache : cache.uid = o.uid) {cached : Bool}
    (h : Ready origin w token cached) :
    (monitor o).wp (connect o origin cache token cached).run w fun w' _ => Ended origin w' := by
  unfold connect
  refine ⟨trivial, ?_⟩
  intro (generated : Ran)
  show (monitor o).wp (answer (succeed _ generated) >>= _).run w _
  rw [Monitor.wp_run_bind, Monitor.wp_run_answer]
  rcases succeed "temporary SSH key generation failed" generated with e | key
  · exact h.ended
  rw [Monitor.wp_run_bind]
  refine Monitor.wp_mono _ (certify_spec hcache h) ?_
  intro w' r hended
  rcases r with e | u
  · exact hended
  refine ⟨trivial, ?_⟩
  intro (inspected : Ran)
  show (monitor o).wp (answer (succeed _ inspected) >>= _).run w' _
  rw [Monitor.wp_run_bind, Monitor.wp_run_answer]
  rcases succeed "OpenBao returned an invalid SSH certificate" inspected with e | certificate
  · exact hended
  simp only [Monitor.wp_run_bind]
  refine Monitor.wp_run_ensure _ (fun _ => ?_) fun _ => hended
  simp only [Monitor.wp_run_answer]
  rcases o.validateUserCertificate certificate with e | u
  · exact hended
  · refine ⟨trivial, ?_⟩
    intro (session : Ran)
    rcases session with e | completed
    · exact hended
    · exact hended

/-- What is known once the cache was loaded. -/
def Loaded (w : Watch) : Option CachedToken → Prop
  | none => Early w ∧ w.held = none ∧ w.condemned = [] ∧ w.signs = 0
  | some entry => Early w ∧ w.held = some entry.token ∧ w.loaded = some entry.token ∧
      w.condemned = [] ∧ w.signs = 0 ∧ w.touched = false

/-- A cached token that does not hold is cleared away. -/
theorem clearCached_spec (hcache : cache.uid = o.uid) (h : Early w) (hsigns : w.signs = 0) :
    (monitor o).wp (cache.clear >>= fun _ => return none : Call (Option String)).run w
      fun w' r => match r with
      | .ok none => Early w' ∧ w'.held = none ∧ w'.signs = 0
      | .ok (some token) => FromCache w' token
      | .error _ => Ended origin w' := by
  rw [Monitor.wp_run_bind]
  apply clear_spec hcache h.unknown
  · intro touched
    refine ⟨?_, rfl, hsigns⟩
    exact {
      logins := h.logins
      minted := h.minted
      attempted := h.attempted
      spoiled := h.spoiled
      unknown := h.unknown
      condemned := h.condemned }
  · intro touched e
    exact Ended.unminted h.minted nofun

/-- Looking up the cached token is early. -/
theorem Early.look (h : Early w) {found : Except Exn TokenLookup} (hnothing : w.condemned = [])
    (hloaded : w.loaded = some token) (hfound : decides found = true) :
    Early (w.look token found) := by
  refine ⟨h.logins, h.minted, h.attempted, h.spoiled, ?_, ?_⟩
  · simp [Watch.look, h.unknown, hfound]
  · intro other hother
    simp only [Watch.look, hnothing] at hother
    split at hother
    · rw [List.mem_singleton.mp hother]
      exact hloaded
    · cases hother

/-- So is revoking one. -/
theorem Early.revoke (h : Early w) (token : String) : Early (w.revoke token) := by
  refine ⟨h.logins, h.minted, ?_, h.spoiled, h.unknown, h.condemned⟩
  simp [Watch.revoke, h.attempted, h.minted]

/-- The cached token is valid, or it is gone, or the run ends. -/
theorem validCached_spec (origin : String) (hcache : cache.uid = o.uid) {cached : Option CachedToken}
    (h : Loaded w cached) :
    (monitor o).wp (validCached o cache cached).run w fun w' r =>
      match r with
      | .ok none => Early w' ∧ w'.held = none ∧ w'.signs = 0
      | .ok (some token) => FromCache w' token
      | .error _ => Ended origin w' := by
  cases cached with
  | none =>
      obtain ⟨hearly, hheld, -, hsigns⟩ := h
      exact ⟨hearly, hheld, hsigns⟩
  | some entry =>
      obtain ⟨hearly, hheld, hloaded, hnothing, hsigns, htouched⟩ := h
      unfold validCached
      rw [Monitor.wp_run_bind]
      apply lookupToken_spec (fun _ => htouched)
      · intro hnull e
        exact Ended.untried hearly.minted hnothing
      · intro hnull outcome
        rcases outcome with e | found
        · exact Ended.untried hearly.minted hnothing
        cases found with
        | indeterminate => exact Ended.untried hearly.minted hnothing
        | valid =>
            have hlooked := @Early.look w entry.token hearly (.ok .valid) hnothing hloaded rfl
            exact {
              toEarly := hlooked
              held := hheld
              loaded := hloaded
              verdict := look_verdict entry.token (.ok .valid)
              noNull := hnull
              signs := hsigns
              nothing := hnothing }
        | contractInvalid =>
            have hlooked := @Early.look w entry.token hearly (.ok .contractInvalid) hnothing hloaded rfl
            show (monitor o).wp (revokeToken entry.token >>= _).run _ _
            rw [Monitor.wp_run_bind]
            apply revokeToken_spec
            · intro hbad
              exact absurd hbad hnull
            · intro _ revoked
              show (monitor o).wp (warnUnless revoked _ >>= _).run _ _
              rw [Monitor.wp_run_bind]
              apply warnUnless_spec
              exact clearCached_spec hcache (hlooked.revoke entry.token) hsigns
        | rejected =>
            have hlooked := @Early.look w entry.token hearly (.ok .rejected) hnothing hloaded rfl
            exact clearCached_spec hcache hlooked hsigns

/-- The cached token is revoked and cleared away, even if it cannot be revoked. -/
theorem revokeAndClear_spec (origin : String) (hcache : cache.uid = o.uid) (h : Early w)
    (hnothing : w.condemned = []) (hsigns : w.signs = 0) :
    (monitor o).wp (finallyDo (revokeToken token) cache.clear).run w fun w' r =>
      match r with
      | .ok _ => Loaded w' none
      | .error _ => Ended origin w' := by
  apply finallyDo_spec
  apply revokeToken_spec
  · intro _ e
    apply clear_spec hcache h.unknown
    · intro touched
      exact Ended.untried h.minted hnothing
    · intro touched e'
      exact Ended.untried h.minted hnothing
  · intro _ revoked
    have hrevoked := h.revoke token
    apply clear_spec hcache hrevoked.unknown
    · intro touched
      refine ⟨?_, rfl, hnothing, hsigns⟩
      exact {
        logins := h.logins
        minted := h.minted
        attempted := hrevoked.attempted
        spoiled := h.spoiled
        unknown := h.unknown
        condemned := h.condemned }
    · intro touched e
      exact Ended.untried h.minted hnothing

/-- A run that only loaded may end. -/
theorem Loaded.ended {cached : Option CachedToken} (h : Loaded w cached) : Ended origin w := by
  cases cached with
  | none => exact Ended.untried h.1.minted h.2.2.1
  | some entry => exact Ended.untried h.1.minted h.2.2.2.1

/-- `--reauth` leaves no cached token. -/
theorem dropCached_spec (origin : String) (hcache : cache.uid = o.uid) {cached : Option CachedToken}
    (h : Loaded w cached) :
    (monitor o).wp (dropCached cache cached).run w fun w' r =>
      match r with
      | .ok _ => Loaded w' none
      | .error _ => Ended origin w' := by
  cases cached with
  | none => exact h
  | some entry =>
      obtain ⟨hearly, -, -, hnothing, hsigns, -⟩ := h
      unfold dropCached
      rw [Monitor.wp_run_bind]
      refine Monitor.wp_mono _
        (revokeAndClear_spec origin hcache hearly hnothing hsigns) ?_
      intro w' r hr
      rcases r with e | revoked
      · exact hr
      · exact warnUnless_spec hr

/-- A logout ends as it should. -/
theorem runLogout_spec (hcache : cache.uid = o.uid) {cached : Option CachedToken}
    (h : Loaded w cached) :
    (monitor o).wp (runLogout cache cached).run w fun w' _ => Ended origin w' := by
  cases cached with
  | none => exact h.ended
  | some entry =>
      have hended : Ended origin w := h.ended
      obtain ⟨hearly, -, -, hnothing, hsigns, -⟩ := h
      unfold runLogout
      rw [Monitor.wp_run_bind]
      apply executable_spec _ fun _ => hended
      rw [Monitor.wp_run_bind]
      refine Monitor.wp_mono _
        (revokeAndClear_spec origin hcache hearly hnothing hsigns) ?_
      intro w' r hr
      rcases r with e | revoked
      · exact hr
      · show (monitor o).wp (warnUnless revoked _ >>= _).run w' _
        rw [Monitor.wp_run_bind]
        apply warnUnless_spec
        exact Loaded.ended hr

/-- The cache of the environment is that of the user. -/
theorem fromEnvironment_spec {Q : Watch → Except Exn TokenCache → Prop}
    (hcache : Q w (.ok ⟨o.uid, o.loads⟩)) (hfailed : ∀ e, Q w (.error e)) :
    (monitor o).wp (TokenCache.fromEnvironment o.uid o.loads).run w Q := by
  refine ⟨trivial, ?_⟩
  intro (value : Option String)
  cases value with
  | none => exact hfailed _
  | some root =>
      show (monitor o).wp (ensure _ _ >>= _).run w Q
      rw [Monitor.wp_run_bind]
      refine Monitor.wp_run_ensure _ (fun _ => ?_) fun _ => hfailed _
      simp only [Monitor.wp_run_bind]
      refine Monitor.wp_run_ensure _ (fun _ => ?_) fun _ => hfailed _
      refine ⟨trivial, ?_⟩
      intro (metadata : Did (Option Metadata))
      cases metadata with
      | error e => exact hfailed _
      | ok metadata =>
          cases metadata with
          | none => exact hfailed _
          | some metadata =>
              show (monitor o).wp (ensure _ _ >>= _).run w Q
              simp only [Monitor.wp_run_bind]
              refine Monitor.wp_run_ensure _ (fun _ => ?_) fun _ => hfailed _
              refine Monitor.wp_run_ensure _ (fun _ => ?_) fun _ => hfailed _
              exact Monitor.wp_run_ensure _ (fun _ => hcache) fun _ => hfailed _

/-- A session ends as it should. -/
theorem openSession_spec (hcache : cache.uid = o.uid) {cached : Bool}
    (h : Ready origin w token cached) :
    (monitor o).wp (openSession o origin cache token cached).run w fun w' _ =>
      Ended origin w' := by
  have hended := h.ended
  unfold openSession
  rw [Monitor.wp_run_bind]
  apply executable_spec _ fun _ => hended
  rw [Monitor.wp_run_bind]
  apply executable_spec _ fun _ => hended
  refine ⟨trivial, ?_⟩
  intro (entered : Did Unit)
  cases entered with
  | error e => exact hended
  | ok u =>
      show (monitor o).wp (finallyDo _ _).run w _
      apply finallyDo_spec
      refine Monitor.wp_mono _ (connect_spec hcache h) ?_
      intro w' r hend
      refine ⟨trivial, ?_⟩
      intro (left : Did Unit)
      cases left with
      | error e => exact hend
      | ok u => exact hend

/-- So does one that may have to log in first. -/
theorem runSession_spec (hcache : cache.uid = o.uid) {cached : Option CachedToken}
    (h : Loaded w cached) :
    (monitor o).wp (runSession o origin cache cached).run w fun w' _ => Ended origin w' := by
  unfold runSession
  rw [Monitor.wp_run_bind]
  refine Monitor.wp_mono _ (validCached_spec origin hcache h) ?_
  intro w' r hr
  rcases r with e | valid
  · exact hr
  · cases valid with
    | some token =>
        have hready : Ready origin w' token true := hr
        exact openSession_spec hcache hready
    | none =>
        obtain ⟨hearly, hheld, hsigns⟩ := hr
        show (monitor o).wp (loginValidateAndSave o origin cache >>= _).run w' _
        rw [Monitor.wp_run_bind]
        refine Monitor.wp_mono _ (loginValidateAndSave_spec hcache hearly hheld) ?_
        intro w'' r' hr'
        rcases r' with e | token
        · exact hr'
        · have hready : Ready origin w'' token false := ⟨hr'.1, hr'.2.trans hsigns⟩
          exact openSession_spec hcache hready

/-- So does the run for a target. -/
theorem runTarget_spec (hcache : cache.uid = o.uid) {args : Args} {cached : Option CachedToken}
    (h : Loaded w cached) :
    (monitor o).wp (runTarget o args origin cache cached).run w fun w' _ => Ended origin w' := by
  have hended : Ended origin w := h.ended
  unfold runTarget
  rw [Monitor.wp_run_bind]
  refine Monitor.wp_run_ensure _ (fun _ => ?_) fun _ => hended
  refine ⟨trivial, ?_⟩
  intro (isFile : Bool)
  show (monitor o).wp (ensure isFile _ >>= _).run w _
  rw [Monitor.wp_run_bind]
  refine Monitor.wp_run_ensure _ (fun _ => ?_) fun _ => hended
  simp only [Monitor.wp_run_bind]
  apply executable_spec _ fun _ => hended
  by_cases hreauth : args.reauth = true
  · simp only [if_pos hreauth, Monitor.wp_run_bind]
    refine Monitor.wp_mono _ (dropCached_spec origin hcache h) ?_
    intro w' r hr
    rcases r with e | u
    · exact hr
    · exact runSession_spec hcache hr
  · simp only [if_neg hreauth]
    exact runSession_spec hcache h

/-- However a run ends, its end is one of those that the laws allow. -/
theorem run_spec {args : Args} : (monitor o).wp (run o args).run {} fun w' _ => Clean w' ∧
    ∀ origin, o.validateOpenbaoUrl args.openbaoUrl = .ok origin →
      (Safe w' ↔ Keeps origin w') := by
  unfold run
  rw [Monitor.wp_run_bind, Monitor.wp_run_answer]
  cases horigin : o.validateOpenbaoUrl args.openbaoUrl with
  | error e => exact ⟨clean_of_empty rfl, nofun⟩
  | ok origin =>
      have hend : ∀ {w : Watch}, Ended origin w → Clean w ∧ ∀ other,
          (Except.ok origin : Except Exn String) = .ok other → (Safe w ↔ Keeps other w) := by
        intro w h
        refine ⟨h.clean, ?_⟩
        intro other hother
        obtain rfl := Except.ok.inj hother
        exact h.kept
      have hstart : Ended origin ({} : Watch) := Ended.untried rfl rfl
      have hrest : ∀ {w : Watch} {cached : Option CachedToken}, Loaded w cached →
          (monitor o).wp (if args.logout then runLogout ⟨o.uid, o.loads⟩ cached
            else runTarget o args origin ⟨o.uid, o.loads⟩ cached : Call Int).run w
              fun w' _ => Ended origin w' := by
        intro w cached h
        split
        · exact runLogout_spec rfl h
        · exact runTarget_spec rfl h
      refine Monitor.wp_mono _ ?_ fun w' _ h => hend h
      simp only [Monitor.wp_run_bind]
      apply fromEnvironment_spec _ fun _ => hstart
      apply load_spec rfl rfl rfl
      · intro loaded touched
        have hloaded : Loaded { ({} : Watch) with
            held := none, loaded := loaded, touched := touched } none := by
          refine ⟨?_, rfl, rfl, rfl⟩
          constructor <;> first | rfl | nofun
        exact hrest hloaded
      · intro entry
        have hloaded : Loaded { ({} : Watch) with
            held := some entry.token, loaded := some entry.token } (some entry) := by
          refine ⟨?_, rfl, rfl, rfl, rfl, rfl⟩
          constructor <;> first | rfl | nofun
        exact hrest hloaded
      · intro held loaded touched works e
        exact Ended.untried rfl rfl

variable {args : Args} {t : Trace Ans}

/-- Whatever is allowed keeps the counts, and leaves the cache file alone once the lookup of the
cached token decided nothing. -/
structure Bounded (w : Watch) : Prop where
  logins : w.logins ≤ 1
  signs : w.signs ≤ 2
  alone : w.unknown = true → w.touched = false

/-- One operation more keeps to the bounds. -/
theorem Bounded.next (h : Bounded w) {op : Op} (hmay : w.may op) (result : Ans op) :
    Bounded (w.next o op result) := by
  cases op with
  | login =>
      have hlogins : w.logins < 1 := hmay
      exact ⟨hlogins, h.signs, h.alone⟩
  | sign token =>
      have hsigns : w.signs < 2 := hmay.2
      exact ⟨h.logins, hsigns, h.alone⟩
  | lookup token =>
      have huntouched : w.logins = 0 → w.touched = false := hmay
      refine ⟨h.logins, h.signs, ?_⟩
      intro hunknown
      simp only [Watch.next, Watch.look, Bool.or_eq_true, Bool.and_eq_true, beq_iff_eq] at hunknown
      rcases hunknown with hbefore | ⟨hlogins, -⟩
      · exact h.alone hbefore
      · exact huntouched hlogins
  | replaceCache entry =>
      have hknown : w.unknown = false := hmay
      refine ⟨h.logins, h.signs, ?_⟩
      intro hunknown
      have hunknown : w.unknown = true := hunknown
      rw [hknown] at hunknown
      cases hunknown
  | unlinkCache =>
      have hknown : w.unknown = false := hmay
      refine ⟨h.logins, h.signs, ?_⟩
      intro hunknown
      have hunknown : w.unknown = true := hunknown
      rw [hknown] at hunknown
      cases hunknown
  | readCache =>
      have hread : ∀ content : Did Text.Bytes, Bounded (w.next o .readCache content) := by
        intro content
        cases content with
        | error e => exact ⟨h.logins, h.signs, h.alone⟩
        | ok content => exact ⟨h.logins, h.signs, h.alone⟩
      exact hread result
  | _ => exact ⟨h.logins, h.signs, h.alone⟩

/-- So does every run. -/
theorem bounded_run {p : Program Op Ans (Except Exn Int)} (h : Reaches (run o args).run t p) :
    Bounded (watch o t) := by
  obtain ⟨-, hallowed⟩ := (monitor o).wp_reaches h run_spec
  have hstart : Bounded ({} : Watch) := ⟨Nat.zero_le 1, Nat.zero_le 2, nofun⟩
  exact (monitor o).after_invariant (fun _ _ result hw hmay => hw.next hmay result) hstart hallowed

/-- **Tokens that sign.**  In every run, with every answer of OpenBao: a token signs only if its
last lookup was valid; there is at most one login and at most two signatures; the cache file is
neither replaced nor removed if the lookup of the cached token decides nothing; and when the run
ends, the cache, if its operations succeed and OpenBao gives out a new token with every login, holds
no token that a lookup or a signature has shown not to hold. -/
theorem signs_only_valid {p : Program Op Ans (Except Exn Int)}
    (h : Reaches (run o args).run t p) :
    (∀ token next, p = .call (.sign token) next →
      (watch o t).verdicts.lookup token = some (.ok .valid)) ∧
    (watch o t).logins ≤ 1 ∧ (watch o t).signs ≤ 2 ∧
    ((watch o t).unknown = true → (watch o t).touched = false) ∧
    (∀ r, p = .done r → (watch o t).works = true → FreshLogin (watch o t) →
      ∀ token ∈ (watch o t).condemned, (watch o t).held ≠ some token) := by
  obtain ⟨hpost, -⟩ := (monitor o).wp_reaches h run_spec
  have hbounded := bounded_run h
  refine ⟨?_, hbounded.logins, hbounded.signs, hbounded.alone, ?_⟩
  · intro token next hp
    subst hp
    exact hpost.1.1
  · intro r hp
    subst hp
    exact hpost.1

/-- What a valid lookup prints, as the sample parser reads it. -/
def sampleLookup : Json.Value := .object [("data", .object [
  ("ttl", .nat 3600), ("policies", .array [.string "homelab-ssh-client-sign"]),
  ("meta", .object [("role", .string "ssh")]), ("type", .string "service")])]

/-- What is outside, where everything is valid. -/
def sampleOutside : Outside where
  uid := 1000
  loads := fun _ => .ok sampleLookup
  validateOpenbaoUrl := fun url => .ok url
  validateUserCertificate := fun _ => .ok ()

/-- A session with a host. -/
def sampleArgs : Args := ⟨some "host", "https://bao", false, false⟩

/-- What a command prints that succeeds. -/
def printed (text : String) : Ran := .ok ⟨0, Text.ascii text, []⟩

/-- An empty cache, and an OpenBao that gives out a valid token; `full` if no file can be made. -/
def respond (full : Bool) : (op : Op) → Ans op
  | .environment _ => some "/run"
  | .lstatRoot | .lstatDirectory _ => (.ok (some ⟨.directory, 1000, 0o700⟩) : Did (Option Metadata))
  | .mkdir => (.ok true : Did Bool)
  | .openCache _ => Opened.missing
  | .readCache => (.ok [] : Did Text.Bytes)
  | .makeTemporary => (if full then .error () else .ok () : Did Unit)
  | .writeTemporary _ | .replaceCache _ | .syncDirectory | .removeTemporary | .unlinkCache
  | .storeCertificate | .enterDirectory | .leaveDirectory => (.ok () : Did Unit)
  | .knownHostsIsFile | .which _ => true
  | .login | .lookup _ | .revoke _ | .sign _ | .keygen | .inspect | .session => printed "t"
  | .warn _ => ()

/-- The run of the sample, and what it ends with. -/
def sampleRun (full : Bool) : Trace Ans × Program Op Ans (Except Exn Int) :=
  (run sampleOutside sampleArgs).run.answered (respond full) 40

/-- A run that logs in and signs. -/
theorem signs_only_valid_login : ∃ (t : Trace Ans) (code : Int),
    (watch sampleOutside t).signs = 1 ∧
    (∀ token next, (.done (.ok code) : Program Op Ans (Except Exn Int)) = .call (.sign token) next →
      (watch sampleOutside t).verdicts.lookup token = some (.ok .valid)) ∧
    (watch sampleOutside t).logins ≤ 1 ∧ (watch sampleOutside t).signs ≤ 2 ∧
    ((watch sampleOutside t).unknown = true → (watch sampleOutside t).touched = false) ∧
    (∀ r, (.done (.ok code) : Program Op Ans (Except Exn Int)) = .done r →
      (watch sampleOutside t).works = true → FreshLogin (watch sampleOutside t) →
      ∀ token ∈ (watch sampleOutside t).condemned, (watch sampleOutside t).held ≠ some token) := by
  obtain ⟨code, hrun⟩ := Program.answered_ok (respond false) 40
    (run sampleOutside sampleArgs).run (by decide +kernel)
  exact ⟨_, code, by decide +kernel, signs_only_valid hrun⟩

end SshHomelab
