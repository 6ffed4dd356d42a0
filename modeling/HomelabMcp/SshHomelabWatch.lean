import HomelabMcp.SshHomelab

/-!
# Watching the SSH client

A watch follows a run of `run` and keeps what is said of tokens: the one that the cache holds, the
last lookup of each, those that did not hold, and what became of the one that a login gave out.

* `clear_spec`, `load_spec`, `save_spec`: what the operations of the cache leave behind, whichever
  of them fails.
-/

namespace SshHomelab

open Interaction

/-- What a run has done so far.  A verdict is what a lookup came to, also where it raised.  `works`
says that no operation of the cache has failed, `spoiled` that one has that a save needs before the
file is in place; `unknown` that the lookup of the cached token decided nothing, and `touched` that
the cache file was replaced or removed. -/
structure Watch where
  held : Option String := none
  loaded : Option String := none
  verdicts : List (String × Except Exn TokenLookup) := []
  condemned : List String := []
  logins : Nat := 0
  signs : Nat := 0
  minted : Option String := none
  attempted : Bool := false
  unknown : Bool := false
  touched : Bool := false
  works : Bool := true
  spoiled : Bool := false

/-- A save looks at the cache before its file is in place. -/
def Use.saves : Use → Bool
  | .save | .created => true
  | .load | .clear => false

/-- A look that finds what the cache cannot use; a directory that was made has to be there. -/
def Use.fails : Use → Except Exn Bool → Bool
  | _, .error _ => true
  | use, .ok there => decide (use = .created) && !there

/-- Whether no file was found. -/
def noFile : Except Exn Bool → Bool
  | .ok there => !there
  | .error _ => false

/-- The lookup says that the token does not hold. -/
def refutes : Except Exn TokenLookup → Bool
  | .ok .rejected | .ok .contractInvalid => true
  | _ => false

/-- The lookup says whether the token holds. -/
def decides : Except Exn TokenLookup → Bool
  | .ok .indeterminate | .error _ => false
  | _ => true

namespace Watch

/-- An operation of the cache, which a save may need. -/
def faults (w : Watch) (needed failed : Bool) : Watch :=
  { w with works := w.works && !failed, spoiled := w.spoiled || (needed && failed) }

/-- The cache was looked at; with `ok false` there is no file. -/
def looked (w : Watch) (use : Use) (r : Except Exn Bool) : Watch :=
  { w with held := if noFile r then none else w.held }.faults use.saves (use.fails r)

/-- A lookup of the token. -/
def look (w : Watch) (token : String) (found : Except Exn TokenLookup) : Watch :=
  { w with
    verdicts := (token, found) :: w.verdicts
    condemned := if refutes found then token :: w.condemned else w.condemned
    unknown := w.unknown || (w.logins == 0 && !decides found) }

/-- The watch after a revocation. -/
def revoke (w : Watch) (token : String) : Watch :=
  { w with attempted := w.attempted || w.minted == some token }

/-- A token that signs; `rejected` if OpenBao refused it. -/
def sign (w : Watch) (token : String) (rejected : Bool) : Watch :=
  { w with
    signs := w.signs + 1
    condemned := if rejected then token :: w.condemned else w.condemned }

/-- The watch after a login. -/
def login (w : Watch) (token : Option String) : Watch :=
  { w with
    logins := w.logins + 1
    minted := token
    attempted := false }

end Watch

/-- Whether something failed. -/
def isError {ε α : Type} : Except ε α → Bool
  | .error _ => true
  | .ok _ => false

/-- What the directory comes to. -/
def directoryOutcome (uid : Nat) (result : Did (Option Metadata)) : Except Exn Bool :=
  match result with
  | .error _ => .error .osError
  | .ok metadata => TokenCache.checkDirectory uid metadata

/-- Whether a signature was refused. -/
def signRejected (result : Ran) : Bool :=
  match signed result with
  | .error .authenticationRejected => true
  | _ => false

variable (o : Outside)

/-- How the watch moves. -/
def Watch.next (w : Watch) : (op : Op) → Ans op → Watch
  | .lstatDirectory use, (result : Did (Option Metadata)) =>
      w.looked use (directoryOutcome o.uid result)
  | .mkdir, (result : Did Bool) => w.faults true (isError result)
  | .openCache use, (opened : Opened) => w.looked use (TokenCache.checkFile o.uid opened)
  | .readCache, (result : Did Text.Bytes) =>
      match result with
      | .error _ => w.faults false true
      | .ok content =>
          let token := (readEntry o.loads content).map CachedToken.token
          { w with held := token, loaded := token }
  | .makeTemporary, (result : Did Unit) => w.faults true (isError result)
  | .writeTemporary _, (result : Did Unit) => w.faults true (isError result)
  | .replaceCache entry, (result : Did Unit) =>
      { w with touched := true, held := if isError result then w.held else some entry.token }.faults
        true (isError result)
  | .syncDirectory, (result : Did Unit) => w.faults false (isError result)
  | .removeTemporary, (result : Did Unit) => w.faults false (isError result)
  | .unlinkCache, (result : Did Unit) =>
      { w with touched := true, held := if isError result then w.held else none }.faults false
        (isError result)
  | .login, (result : Ran) => w.login (loginToken result).toOption
  | .lookup token, (result : Ran) => w.look token (classify o.loads result)
  | .revoke token, _ => w.revoke token
  | .sign token, (result : Ran) => w.sign token (signRejected result)
  | _, _ => w

/-- What may be done after what has been done. -/
def Watch.may (w : Watch) : Op → Prop
  | .sign token => w.verdicts.lookup token = some (.ok .valid) ∧ w.signs < 2
  | .login => w.logins < 1
  | .lookup _ => w.logins = 0 → w.touched = false
  | .replaceCache _ | .unlinkCache => w.unknown = false
  | _ => True

/-- The watch of a run. -/
def monitor : Monitor Ans Watch where
  may := Watch.may
  next := Watch.next o

/-- What has been done in a run. -/
def watch (t : Trace Ans) : Watch := (monitor o).after {} t

variable {o} {w : Watch} {cache : TokenCache}

/-- A cache that is as it should be changes nothing. -/
@[simp] theorem looked_true (use : Use) : w.looked use (.ok true) = w := by
  simp [Watch.looked, Watch.faults, noFile, Use.fails]

/-- Where nothing is held, no file changes nothing. -/
theorem held_same (hheld : w.held = none) (r : Except Exn Bool) :
    (if noFile r then none else w.held) = w.held := by
  rw [hheld]
  split <;> rfl

/-- Where no file was there, a look that finds nothing wrong changes nothing. -/
theorem looked_same (hheld : w.held = none) {use : Use} {r : Except Exn Bool}
    (hfine : use.fails r = false) : w.looked use r = w := by
  simp [Watch.looked, Watch.faults, hfine, held_same hheld]

/-- A look that fails spoils what is to be saved. -/
theorem looked_spoiled (hheld : w.held = none) {use : Use} {r : Except Exn Bool}
    (hsaves : use.saves = true) (hfails : use.fails r = true) :
    w.looked use r = { w with works := false, spoiled := true } := by
  simp [Watch.looked, Watch.faults, hsaves, hfails, held_same hheld]

/-- Looking at the directory is a look. -/
theorem validateDirectory_spec (hcache : cache.uid = o.uid) {use : Use}
    {Q : Watch → Except Exn Bool → Prop} (h : ∀ r, Q (w.looked use r) r) :
    (monitor o).wp (cache.validateDirectory use).run w Q := by
  refine ⟨trivial, ?_⟩
  intro (result : Did (Option Metadata))
  have hend := h (directoryOutcome o.uid result)
  cases result with
  | error e => exact hend
  | ok metadata =>
      rw [← hcache] at hend
      show Q (w.looked use (directoryOutcome o.uid (.ok metadata)))
        (TokenCache.checkDirectory cache.uid metadata)
      rw [← hcache]
      exact hend

/-- So is opening the cache. -/
theorem openCache_spec (hcache : cache.uid = o.uid) {use : Use}
    {Q : Watch → Except Exn Bool → Prop} (h : ∀ r, Q (w.looked use r) r) :
    (monitor o).wp (cache.openCache use).run w Q := by
  unfold TokenCache.openCache
  rw [Monitor.wp_run_bind]
  apply validateDirectory_spec hcache
  intro r
  rcases r with e | there
  · exact h (.error e)
  · cases there with
    | false => exact h (.ok false)
    | true =>
        refine ⟨trivial, ?_⟩
        intro (opened : Opened)
        have hend := h (TokenCache.checkFile o.uid opened)
        rw [looked_true]
        show Q (w.looked use (TokenCache.checkFile o.uid opened))
          (TokenCache.checkFile cache.uid opened)
        rw [hcache]
        exact hend

/-- What `clear` leaves: no file, or an exception. -/
theorem clear_spec (hcache : cache.uid = o.uid) (hunknown : w.unknown = false)
    {Q : Watch → Except Exn Unit → Prop}
    (hcleared : ∀ touched, Q { w with held := none, touched := touched } (.ok ()))
    (hfailed : ∀ touched e, Q { w with works := false, touched := touched } (.error e)) :
    (monitor o).wp cache.clear.run w Q := by
  unfold TokenCache.clear
  rw [Monitor.wp_run_bind]
  apply openCache_spec hcache
  intro r
  rcases r with e | there
  · simpa [Watch.looked, Watch.faults, noFile, Use.fails, Use.saves] using hfailed w.touched e
  · cases there with
    | false =>
        have hnone := hcleared w.touched
        simpa [Watch.looked, Watch.faults, noFile, Use.fails, Use.saves] using hnone
    | true =>
        rw [looked_true]
        refine ⟨hunknown, ?_⟩
        intro (result : Did Unit)
        cases result with
        | error e =>
            show Q (w.next o .unlinkCache (.error e)) (.error .osError)
            have hend := hfailed true .osError
            simpa [Watch.next, Watch.faults, isError] using hend
        | ok u =>
            show Q (w.next o .unlinkCache (.ok u)) (.ok u)
            have hend := hcleared true
            simpa [Watch.next, Watch.faults, isError] using hend

/-- The directory is made if it is not there; if that fails, there is no save. -/
theorem ensureDirectory_spec (hcache : cache.uid = o.uid) (hheld : w.held = none)
    {Q : Watch → Except Exn Unit → Prop} (hthere : Q w (.ok ()))
    (hfailed : ∀ e, Q { w with works := false, spoiled := true } (.error e)) :
    (monitor o).wp cache.ensureDirectory.run w Q := by
  unfold TokenCache.ensureDirectory
  rw [Monitor.wp_run_bind]
  apply validateDirectory_spec hcache
  intro r
  rcases r with e | there
  · have hend := hfailed e
    rwa [← looked_spoiled hheld rfl (rfl : Use.save.fails (.error e) = true)] at hend
  · cases there with
    | true =>
        rw [looked_true]
        exact hthere
    | false =>
        rw [looked_same hheld rfl]
        refine ⟨trivial, ?_⟩
        intro (made : Did Bool)
        cases made with
        | error e =>
            show Q (w.next o .mkdir (.error e)) (.error .osError)
            have hend := hfailed .osError
            simpa [Watch.next, Watch.faults, isError] using hend
        | ok made =>
            have hmade : w.next o .mkdir (.ok made) = w := by
              simp [Watch.next, Watch.faults, isError]
            show (monitor o).wp (cache.validateDirectory .created >>= _).run
              (w.next o .mkdir (.ok made)) Q
            rw [hmade, Monitor.wp_run_bind]
            apply validateDirectory_spec hcache
            intro r
            rcases r with e | there
            · have hend := hfailed e
              rwa [← looked_spoiled hheld rfl (rfl : Use.created.fails (.error e) = true)] at hend
            · cases there with
              | true =>
                  rw [looked_true]
                  exact hthere
              | false =>
                  rw [looked_spoiled hheld rfl (rfl : Use.created.fails (.ok false) = true)]
                  exact hfailed _

/-- What the cache accepts. -/
def Accepted (origin token : String) : Prop :=
  validToken token = true ∧ (dumps ⟨origin, token⟩).length ≤ maxCacheBytes

/-- What is done finally comes after either end. -/
theorem finallyDo_spec {α : Type} {x : Call α} {y : Call Unit} {Q : Watch → Except Exn α → Prop}
    (h : (monitor o).wp x.run w fun w' r => (monitor o).wp y.run w' fun w'' last =>
      match last with
      | .ok _ => Q w'' r
      | .error e => Q w'' (.error e)) :
    (monitor o).wp (finallyDo x y).run w Q := by
  unfold finallyDo
  rw [Monitor.wp_run_bind, Monitor.wp_run_attempt]
  refine Monitor.wp_mono _ h ?_
  intro w' r hlast
  show (monitor o).wp (y >>= fun _ => answer r).run w' Q
  rw [Monitor.wp_run_bind]
  refine Monitor.wp_mono _ hlast ?_
  intro w'' last hend
  rcases last with e | u
  · exact hend
  · exact hend

/-- Removing the temporary file changes no more than whether the cache works. -/
theorem removeTemporary_spec {r : Except Exn Unit} {Q : Watch → Except Exn Unit → Prop}
    (hkept : Q w r) (hfailed : ∀ e, Q { w with works := false } (.error e)) :
    (monitor o).wp (act (ask Op.removeTemporary)).run w fun w' last =>
      match last with
      | .ok _ => Q w' r
      | .error e => Q w' (.error e) := by
  refine ⟨trivial, ?_⟩
  intro (removed : Did Unit)
  cases removed with
  | error e =>
      show Q (w.next o .removeTemporary (.error e)) (.error .osError)
      have hend := hfailed .osError
      simpa [Watch.next, Watch.faults, isError] using hend
  | ok u =>
      show Q (w.next o .removeTemporary (.ok u)) r
      simpa [Watch.next, Watch.faults, isError] using hkept

/-- The temporary file is written and put in place, and removed if it is still there. -/
theorem write_spec (hunknown : w.unknown = false) {entry : CachedToken}
    {Q : Watch → Except Exn Unit → Prop}
    (hspoiled : ∀ touched e,
      Q { w with touched := touched, works := false, spoiled := true } (.error e))
    (hstored : ∀ works r,
      Q { w with held := some entry.token, touched := true, works := works } r) :
    (monitor o).wp (finallyDo (do
      act (ask (Op.writeTemporary entry))
      act (ask (Op.replaceCache entry))
      act (ask Op.syncDirectory)) (act (ask Op.removeTemporary))).run w Q := by
  apply finallyDo_spec
  refine ⟨trivial, ?_⟩
  intro (written : Did Unit)
  cases written with
  | error e =>
      have hnext : w.next o (.writeTemporary entry) (.error e) =
          { w with works := false, spoiled := true } := by
        simp [Watch.next, Watch.faults, isError]
      show (monitor o).wp (act (ask Op.removeTemporary)).run
        (w.next o (.writeTemporary entry) (.error e)) _
      rw [hnext]
      exact removeTemporary_spec (hspoiled w.touched _) (hspoiled w.touched)
  | ok u =>
      have hnext : w.next o (.writeTemporary entry) (.ok u) = w := by
        simp [Watch.next, Watch.faults, isError]
      refine ⟨hunknown, ?_⟩
      intro (replaced : Did Unit)
      cases replaced with
      | error e =>
          have hreplaced : w.next o (.replaceCache entry) (.error e) =
              { w with touched := true, works := false, spoiled := true } := by
            simp [Watch.next, Watch.faults, isError]
          show (monitor o).wp (act (ask Op.removeTemporary)).run
            ((w.next o (.writeTemporary entry) (.ok u)).next o (.replaceCache entry) (.error e)) _
          rw [hnext, hreplaced]
          exact removeTemporary_spec (hspoiled true _) (hspoiled true)
      | ok u' =>
          have hreplaced : w.next o (.replaceCache entry) (.ok u') =
              { w with held := some entry.token, touched := true } := by
            simp [Watch.next, Watch.faults, isError]
          refine ⟨trivial, ?_⟩
          intro (synced : Did Unit)
          have hsynced : ∀ failed, ({ w with held := some entry.token, touched := true } :
              Watch).faults false failed = { w with
                held := some entry.token, touched := true, works := w.works && !failed } := by
            intro failed
            simp [Watch.faults]
          show (monitor o).wp (act (ask Op.removeTemporary)).run
            (((w.next o (.writeTemporary entry) (.ok u)).next o (.replaceCache entry)
              (.ok u')).faults false (isError synced)) _
          rw [hnext, hreplaced, hsynced]
          exact removeTemporary_spec (hstored _ _) fun e => hstored false _

/-- A save refuses the token, fails before the file is in place, or has put it in place, whatever
comes then. -/
theorem save_spec (hcache : cache.uid = o.uid) (hunknown : w.unknown = false)
    (hheld : w.held = none) {origin token : String} {Q : Watch → Except Exn Unit → Prop}
    (hrefused : ¬ Accepted origin token → ∀ e, Q w (.error e))
    (hspoiled : ∀ touched e,
      Q { w with touched := touched, works := false, spoiled := true } (.error e))
    (hstored : Accepted origin token → ∀ works r,
      Q { w with held := some token, touched := true, works := works } r) :
    (monitor o).wp (cache.save origin token).run w Q := by
  unfold TokenCache.save
  rw [Monitor.wp_run_bind]
  refine Monitor.wp_run_ensure _ ?_ ?_
  case refine_2 =>
    intro hinvalid
    exact hrefused (fun h => by simp [h.1] at hinvalid) _
  intro hvalid
  simp only [Monitor.wp_run_bind]
  refine Monitor.wp_run_ensure _ ?_ ?_
  case refine_2 =>
    intro hlarge
    exact hrefused (fun h => of_decide_eq_false hlarge h.2) _
  intro hfits
  have haccepted : Accepted origin token := ⟨hvalid, of_decide_eq_true hfits⟩
  apply ensureDirectory_spec hcache hheld
  · apply openCache_spec hcache
    intro r
    rcases r with e | there
    · rw [looked_spoiled hheld rfl rfl]
      exact hspoiled w.touched e
    · rw [looked_same hheld (by simp [Use.fails])]
      refine ⟨trivial, ?_⟩
      intro (made : Did Unit)
      cases made with
      | error e =>
          show Q (w.next o .makeTemporary (.error e)) (.error .osError)
          have hend := hspoiled w.touched .osError
          simpa [Watch.next, Watch.faults, isError] using hend
      | ok u =>
          have hmade : w.next o .makeTemporary (.ok u) = w := by
            simp [Watch.next, Watch.faults, isError]
          show (monitor o).wp (finallyDo _ _).run (w.next o .makeTemporary (.ok u)) Q
          rw [hmade]
          exact write_spec hunknown hspoiled (hstored haccepted)
  · intro e
    exact hspoiled w.touched e

/-- A load gives the token of the file; whatever else comes of it, a file that gives no token of the
origin is gone, or the load has failed. -/
theorem load_spec (hcache : cache.uid = o.uid) (hloads : cache.loads = o.loads)
    (hunknown : w.unknown = false) {origin : String}
    {Q : Watch → Except Exn (Option CachedToken) → Prop}
    (hnone : ∀ loaded touched, Q { w with held := none, loaded := loaded, touched := touched }
      (.ok none))
    (hsome : ∀ entry : CachedToken, Q { w with held := some entry.token, loaded := some entry.token }
      (.ok (some entry)))
    (hfailed : ∀ held loaded touched works e,
      Q { w with held := held, loaded := loaded, touched := touched, works := works } (.error e)) :
    (monitor o).wp (cache.load origin).run w Q := by
  unfold TokenCache.load
  rw [Monitor.wp_run_bind]
  apply openCache_spec hcache
  intro r
  rcases r with e | there
  · have hend := hfailed w.held w.loaded w.touched false e
    simpa [Watch.looked, Watch.faults, noFile, Use.fails, Use.saves] using hend
  · cases there with
    | false =>
        have hend := hnone w.loaded w.touched
        simpa [Watch.looked, Watch.faults, noFile, Use.fails, Use.saves] using hend
    | true =>
        rw [looked_true]
        refine ⟨trivial, ?_⟩
        intro (content : Did Text.Bytes)
        cases content with
        | error e =>
            show Q (w.next o .readCache (.error e)) (.error _)
            have hend := hfailed w.held w.loaded w.touched false
              (.valueError "OpenBao token cache could not be read safely")
            simpa [Watch.next, Watch.faults] using hend
        | ok content =>
            have hread : w.next o .readCache (.ok content) = { w with
                held := (readEntry o.loads content).map CachedToken.token
                loaded := (readEntry o.loads content).map CachedToken.token } := rfl
            have hcleared : ∀ token, (monitor o).wp
                (cache.clear >>= fun _ => return none : Call (Option CachedToken)).run
                  { w with held := token, loaded := token } Q := by
              intro token
              have hknown : ({ w with held := token, loaded := token } : Watch).unknown = false :=
                hunknown
              rw [Monitor.wp_run_bind]
              apply clear_spec hcache hknown
              · intro touched
                exact hnone token touched
              · intro touched e
                exact hfailed token token touched false e
            show (monitor o).wp (ensure (!overflows cache.loads content) .recursionError >>=
              fun _ => cache.loadEntry origin (readEntry cache.loads content)).run
                (w.next o .readCache (.ok content)) Q
            rw [hloads, hread, Monitor.wp_run_bind]
            refine Monitor.wp_run_ensure _ (fun _ => ?_) fun _ => hfailed _ _ w.touched w.works _
            cases hentry : readEntry o.loads content with
            | none => exact hcleared none
            | some entry =>
                have hend := hcleared (some entry.token)
                unfold TokenCache.loadEntry
                dsimp only
                by_cases horigin : entry.origin = origin
                · simp only [if_pos horigin]
                  exact hsome entry
                · simp only [if_neg horigin]
                  exact hend

end SshHomelab
