import HomelabMcp.SshHomelabWatch
import HomelabMcp.TokenCacheText
import HomelabMcp.WorldEffects

/-!
# The token cache as a register

The calls of one process, one after the other, on a disk with the directory and the file of the
cache.  Inside a save every operation of the system may fail; outside it none does.

* `register_law`: the cache is a register that a save writes and `clear` and a `load` for another
  origin empty; a save that raises leaves the file as it was or as it should be, and no temporary
  file unless its removal failed.
* `temporary_remains`: a save whose temporary file remains.
-/

namespace SshHomelab.Register

open Interaction
open Json (Value)
open Text (Bytes)

/-- A file, with what opening it gives. -/
structure CacheFile where
  opens : Opened
  content : Bytes

/-- The file of a save. -/
def savedFile (uid : Nat) (content : Bytes) : CacheFile :=
  ⟨.descriptor ⟨.regular, uid, 0o600⟩, content⟩

/-- A file that was saved has its content. -/
@[simp] theorem savedFile_content (uid : Nat) (content : Bytes) :
    (savedFile uid content).content = content := rfl

/-- The directory and the file of the cache.  The temporary file, the entry that was put in place
and the failure to remove the temporary file are those of the call that runs. -/
structure Disk where
  directory : Option Metadata
  file : Option CacheFile
  temporary : Option Bytes
  placed : Option CachedToken
  removalFailed : Bool

namespace Disk

/-- The disk when a call begins. -/
def begun (d : Disk) : Disk :=
  { d with temporary := none, placed := none, removalFailed := false }

/-- What opening the file gives. -/
def opened (d : Disk) : Opened :=
  match d.file with
  | none => .missing
  | some file => file.opens

/-- The content that is read as an entry, if there is one. -/
def entry (d : Disk) (loads : Bytes → Except LoadsError Value) : Option CachedToken :=
  d.file.bind fun file => readEntry loads file.content

/-- The temporary file in place. -/
def place (d : Disk) (uid : Nat) (entry : CachedToken) : Disk :=
  { d with
    file := d.temporary.map (savedFile uid), temporary := none, placed := some entry }

end Disk

/-- What the operations of the cache do.  `os.replace` is atomic: it is done or not, also where it
raises. -/
def diskEffect (uid : Nat) : Effect Ans Disk
  | .lstatDirectory use, (answer : Did (Option Metadata)), d, d' =>
      d' = d ∧ (answer = .ok d.directory ∨ use.saves = true ∧ answer = .error ())
  | .mkdir, (answer : Did Bool), d, d' =>
      (answer = .ok true ∧ d.directory = none ∧
        ∃ metadata, d' = { d with directory := some metadata }) ∨
      (answer = .ok false ∧ d.directory ≠ none ∧ d' = d) ∨ (answer = .error () ∧ d' = d)
  | .openCache use, (answer : Opened), d, d' =>
      d' = d ∧ (answer = d.opened ∨ use.saves = true ∧ answer = .refused)
  | .readCache, (answer : Did Bytes), d, d' =>
      d' = d ∧ ∃ file, d.file = some file ∧
        answer = .ok (file.content.take (maxCacheBytes + 1))
  | .makeTemporary, (answer : Did Unit), d, d' =>
      (answer = .ok () ∧ d' = { d with temporary := some [] }) ∨ (answer = .error () ∧ d' = d)
  | .writeTemporary entry, (answer : Did Unit), d, d' =>
      (answer = .ok () ∧ d' = { d with temporary := some (fileContent entry) }) ∨
      (answer = .error () ∧ ∃ part, d' = { d with temporary := some part })
  | .replaceCache entry, (answer : Did Unit), d, d' =>
      d' = d.place uid entry ∨ (answer = .error () ∧ d' = d)
  | .removeTemporary, (answer : Did Unit), d, d' =>
      (answer = .ok () ∧ d' = { d with temporary := none }) ∨
      (answer = .error () ∧ d' = { d with removalFailed := true })
  | .unlinkCache, (answer : Did Unit), d, d' => answer = .ok () ∧ d' = { d with file := none }
  | _, _, d, d' => d' = d

/-- The calls of the cache. -/
inductive CacheCall where
  | save (origin token : String)
  | load (origin : String)
  | clear

namespace CacheCall

/-- What each call does. -/
def run (cache : TokenCache) : CacheCall → Call (Option CachedToken)
  | save origin token => do
      cache.save origin token
      return none
  | load origin => cache.load origin
  | clear => do
      cache.clear
      return none

end CacheCall

/-- A call that ran to its end and left the disk so. -/
def Finishes (cache : TokenCache) (d : Disk) (call : CacheCall)
    (result : Except Exn (Option CachedToken)) (d' : Disk) : Prop :=
  ∃ t, Reaches (call.run cache).run t (.done result) ∧ Moves (diskEffect cache.uid) d.begun t d'

/-- A call with its result; a save took effect if it put its file in place. -/
structure Step where
  call : CacheCall
  result : Except Exn (Option CachedToken)
  tookEffect : Bool

/-- The calls of a process, one after the other. -/
inductive Runs (cache : TokenCache) : Disk → List Step → Disk → Prop where
  | nil (d : Disk) : Runs cache d [] d
  | cons {d d' d'' : Disk} {call : CacheCall} {result : Except Exn (Option CachedToken)}
      {steps : List Step} (h : Finishes cache d call result d') (hrest : Runs cache d' steps d'') :
      Runs cache d (⟨call, result, d'.placed.isSome⟩ :: steps) d''

namespace Step

/-- The register after a call. -/
def register (held : Option CachedToken) (step : Step) : Option CachedToken :=
  match step.call with
  | .save origin token => if step.tookEffect then some ⟨origin, token⟩ else held
  | .load origin => held.filter fun entry => entry.origin == origin
  | .clear => none

/-- A call after which a token that was saved for the origin is not there any more. -/
def Ends (step : Step) (origin : String) : Prop :=
  match step.call with
  | .save _ _ => step.tookEffect = true
  | .load other => other ≠ origin
  | .clear => True

end Step

/-- The last save that took effect was of the entry, and no call since then ended it. -/
def LastSaved (steps : List Step) (entry : CachedToken) : Prop :=
  ∃ before result after, steps = before ++ ⟨.save entry.origin entry.token, result, true⟩ :: after ∧
    ∀ step ∈ after, ¬ step.Ends entry.origin

/-- **One call more.** -/
theorem lastSaved_concat {steps : List Step} {step : Step} {entry : CachedToken} :
    LastSaved (steps ++ [step]) entry ↔
      (∃ result, step = ⟨.save entry.origin entry.token, result, true⟩) ∨
        (LastSaved steps entry ∧ ¬ step.Ends entry.origin) := by
  constructor
  · intro ⟨before, result, after, heq, hafter⟩
    induction after using List.reverseRecOn with
    | nil =>
        obtain ⟨-, hlast⟩ := List.append_inj' heq rfl
        exact .inl ⟨result, List.singleton_injective hlast⟩
    | append_singleton after last _ =>
        rw [← List.cons_append, ← List.append_assoc] at heq
        obtain ⟨hsteps, hlast⟩ := List.append_inj' heq rfl
        obtain rfl := List.singleton_injective hlast
        exact .inr ⟨⟨before, result, after, hsteps,
          fun s hs => hafter s (List.mem_append_left _ hs)⟩, hafter step (by simp)⟩
  · intro h
    rcases h with ⟨result, rfl⟩ | ⟨⟨before, result, after, rfl, hafter⟩, hstep⟩
    · exact ⟨steps, result, [], rfl, List.forall_mem_nil _⟩
    · refine ⟨before, result, after ++ [step], by simp, ?_⟩
      exact List.forall_mem_append.mpr ⟨hafter, List.forall_mem_singleton.mpr hstep⟩

/-- **The register holds what was saved last.** -/
theorem register_eq_some (steps : List Step) (entry : CachedToken) :
    steps.foldl Step.register none = some entry ↔ LastSaved steps entry := by
  induction steps using List.reverseRecOn with
  | nil =>
      constructor
      · intro h
        cases h
      · intro ⟨before, result, after, heq, _⟩
        simp at heq
  | append_singleton steps step ih =>
      rw [List.foldl_append, List.foldl_cons, List.foldl_nil, lastSaved_concat, ← ih]
      obtain ⟨call, result, tookEffect⟩ := step
      cases call with
      | save origin token =>
          cases tookEffect with
          | true =>
              simp only [Step.register, Step.Ends, if_true, not_true, and_false, or_false]
              constructor
              · intro h
                obtain rfl := Option.some.inj h
                exact ⟨result, rfl⟩
              · intro ⟨result', h⟩
                obtain ⟨rfl, rfl⟩ := CacheCall.save.inj (Step.mk.inj h).1
                rfl
          | false =>
              simp [Step.register, Step.Ends]
      | load origin =>
          have hsome : (steps.foldl Step.register none).filter
              (fun held => held.origin == origin) = some entry ↔
              steps.foldl Step.register none = some entry ∧ entry.origin = origin := by
            rw [Option.filter_eq_some_iff, beq_iff_eq]
          simp only [Step.register, Step.Ends, ne_eq, not_not, hsome]
          constructor
          · intro ⟨hheld, horigin⟩
            exact .inr ⟨hheld, horigin.symm⟩
          · intro h
            rcases h with ⟨result', h⟩ | ⟨hheld, horigin⟩
            · cases (Step.mk.inj h).1
            · exact ⟨hheld, horigin.symm⟩
      | clear => simp [Step.register, Step.Ends]

section Parts

variable {cache : TokenCache} {d : Disk}

/-- What a look at the directory finds. -/
def looks (cache : TokenCache) (d : Disk) : Except Exn Bool :=
  TokenCache.checkDirectory cache.uid d.directory

/-- The directory is the cache's. -/
def Fine (cache : TokenCache) (d : Disk) : Prop := looks cache d = .ok true

/-- Looking at the directory says how it is. -/
theorem validateDirectory_ensures (use : Use) {Q : Disk → Except Exn Bool → Prop}
    (h : Q d (looks cache d)) (hfail : use.saves = true → Q d (.error .osError)) :
    ensures (diskEffect cache.uid) (cache.validateDirectory use).run d Q := by
  unfold TokenCache.validateDirectory
  rw [ensures_run_bind]
  intro answer d' ⟨hd, hanswer⟩
  subst hd
  rcases hanswer with rfl | ⟨hsaves, rfl⟩
  · exact h
  · exact hfail hsaves

/-- Whether there is a file that can be read. -/
def finds (cache : TokenCache) (d : Disk) : Except Exn Bool :=
  match looks cache d with
  | .ok true => TokenCache.checkFile cache.uid d.opened
  | outcome => outcome

/-- Opening the cache says what is there. -/
theorem openCache_ensures (use : Use) {Q : Disk → Except Exn Bool → Prop}
    (h : Q d (finds cache d)) (hfail : use.saves = true → ∀ e, Q d (.error e)) :
    ensures (diskEffect cache.uid) (cache.openCache use).run d Q := by
  unfold TokenCache.openCache
  rw [ensures_run_bind]
  apply validateDirectory_ensures
  · unfold finds at h
    cases hlooks : looks cache d with
    | error e =>
        rw [hlooks] at h
        exact h
    | ok there =>
        rw [hlooks] at h
        cases there with
        | false => exact h
        | true =>
            dsimp only
            intro answer d' ⟨hd, hanswer⟩
            subst hd
            rcases hanswer with rfl | ⟨hsaves, rfl⟩
            · exact h
            · exact hfail hsaves _
  · intro hsaves
    exact hfail hsaves _

/-- What a load reads of a content is enough. -/
theorem readEntry_take (loads : Bytes → Except LoadsError Value) (content : Bytes) :
    readEntry loads (content.take (maxCacheBytes + 1)) = readEntry loads content := by
  by_cases hlong : content.length ≤ maxCacheBytes
  · rw [List.take_of_length_le (by omega)]
  · have hnone : ∀ bytes : Bytes, ¬ bytes.length ≤ maxCacheBytes →
        readEntry loads bytes = none := by
      intro bytes hbytes
      have hguard : (guard (bytes.length ≤ maxCacheBytes) : Option Unit) = none := if_neg hbytes
      unfold readEntry
      rw [hguard]
      rfl
    rw [hnone content hlong, hnone]
    rw [List.length_take]
    omega

/-- A content that is nested too deep holds no entry. -/
theorem readEntry_overflows {loads : Bytes → Except LoadsError Value} {content : Bytes}
    (h : overflows loads content = true) : readEntry loads content = none := by
  unfold overflows at h
  obtain ⟨hsize, hdeep⟩ := (Bool.and_eq_true _ _).mp h
  have hguard : (guard (content.length ≤ maxCacheBytes) : Option Unit) = some () :=
    if_pos (of_decide_eq_true hsize)
  unfold readEntry
  rw [hguard]
  rcases hloads : loads content with e | value
  · rfl
  · rw [hloads] at hdeep
    cases hdeep

/-- The disk holds what the register does. -/
structure Holds (cache : TokenCache) (d : Disk) (held : Option CachedToken) : Prop where
  reads : d.entry cache.loads = held
  found : held ≠ none → finds cache d = .ok true

/-- Without a file that can be read, the register is empty. -/
theorem Holds.empty {held : Option CachedToken} (h : Holds cache d held)
    (hfinds : finds cache d ≠ .ok true) : held = none := by
  by_contra hheld
  exact hfinds (h.found hheld)

/-- Clearing leaves nothing. -/
theorem clear_ensures {held : Option CachedToken} (h : Holds cache d held) :
    ensures (diskEffect cache.uid) cache.clear.run d fun d' _ => Holds cache d' none := by
  unfold TokenCache.clear
  rw [ensures_run_bind]
  apply openCache_ensures
  · cases hfinds : finds cache d with
    | error e =>
        have hheld := h.empty (by rw [hfinds]; exact fun heq => nomatch heq)
        rwa [hheld] at h
    | ok there =>
        cases there with
        | false =>
            have hheld := h.empty (by rw [hfinds]; exact fun heq => nomatch heq)
            rwa [hheld] at h
        | true =>
            intro answer d' ⟨_, hd⟩
            subst hd
            exact ⟨rfl, fun hne => absurd rfl hne⟩
  · intro hsaves
    cases hsaves

/-- What a load of an origin does to the register, and what it returns. -/
def Loaded (cache : TokenCache) (held : Option CachedToken) (origin : String) (d' : Disk)
    (result : Except Exn (Option CachedToken)) : Prop :=
  Holds cache d' (held.filter fun entry => entry.origin == origin) ∧
    ∀ entry, result = .ok (some entry) ↔ held = some entry ∧ entry.origin = origin

/-- Nothing held, nothing loaded. -/
theorem loaded_empty (h : Holds cache d none) (origin : String)
    {result : Except Exn (Option CachedToken)} (hresult : ∀ entry, result ≠ .ok (some entry)) :
    Loaded cache none origin d result := by
  refine ⟨h, fun entry => ⟨fun heq => absurd heq (hresult entry), ?_⟩⟩
  intro ⟨heq, _⟩
  cases heq

/-- A load that clears the cache. -/
theorem loaded_cleared {held : Option CachedToken} (h : Holds cache d held) {origin : String}
    (hother : ∀ entry, held = some entry → entry.origin ≠ origin) :
    ensures (diskEffect cache.uid) (do
      cache.clear
      return none : Call (Option CachedToken)).run d (Loaded cache held origin) := by
  rw [ensures_run_bind]
  refine ensures_mono (clear_ensures h) fun d' r hd' => ?_
  have hfilter : held.filter (fun entry => entry.origin == origin) = none := by
    apply Option.filter_eq_none_iff.mpr
    intro entry hentry
    simpa using hother entry hentry
  have hnever : ∀ result : Except Exn (Option CachedToken),
      (∀ entry, result ≠ .ok (some entry)) → Loaded cache held origin d' result := by
    intro result hresult
    refine ⟨by rwa [hfilter], fun entry => ⟨fun heq => absurd heq (hresult entry), ?_⟩⟩
    intro ⟨heq, horigin⟩
    exact absurd horigin (hother entry heq)
  cases r with
  | error e => exact hnever _ fun entry heq => nomatch heq
  | ok u => exact hnever _ fun entry heq => nomatch heq

/-- A load gives what is held. -/
theorem load_ensures {held : Option CachedToken} (h : Holds cache d held) (origin : String) :
    ensures (diskEffect cache.uid) (cache.load origin).run d (Loaded cache held origin) := by
  unfold TokenCache.load
  rw [ensures_run_bind]
  apply openCache_ensures
  · cases hfinds : finds cache d with
    | error e =>
        obtain rfl := h.empty (by rw [hfinds]; exact fun heq => nomatch heq)
        exact loaded_empty h origin fun entry heq => nomatch heq
    | ok there =>
        cases there with
        | false =>
            obtain rfl := h.empty (by rw [hfinds]; exact fun heq => nomatch heq)
            exact loaded_empty h origin fun entry heq => nomatch heq
        | true =>
            dsimp only
            show ensures _ (attempt (act (ask Op.readCache : Call (Did Bytes))) >>= _).run _ _
            rw [ensures_run_bind, ensures_run_attempt]
            intro answer d' ⟨hd, file, hfile, hanswer⟩
            subst hd hanswer
            have hread : readEntry cache.loads (file.content.take (maxCacheBytes + 1)) = held := by
              rw [readEntry_take, ← h.reads, Disk.entry, hfile]
              rfl
            show ensures _ (ensure (!overflows cache.loads (file.content.take (maxCacheBytes + 1)))
              .recursionError >>= fun _ => cache.loadEntry origin
                (readEntry cache.loads (file.content.take (maxCacheBytes + 1)))).run _ _
            rw [hread, ensures_run_bind]
            apply ensures_run_ensure
            case herror =>
              -- What is nested too deep is no entry, so that the register is empty.
              intro hdeep
              have hnone := readEntry_overflows (by simpa using hdeep)
              obtain rfl := hread.symm.trans hnone
              exact loaded_empty h origin fun entry heq => nomatch heq
            intro _
            dsimp only
            cases held with
            | none => exact loaded_cleared h fun entry heq => nomatch heq
            | some entry =>
                unfold TokenCache.loadEntry
                dsimp only
                by_cases horigin : entry.origin = origin
                · rw [if_pos horigin]
                  have hfilter : (some entry).filter (fun entry => entry.origin == origin) =
                      some entry := by simp [horigin]
                  refine ⟨by rwa [hfilter], fun found => ⟨fun heq => ?_, fun hfound => ?_⟩⟩
                  · obtain rfl := Option.some.inj (Except.ok.inj heq)
                    exact ⟨rfl, horigin⟩
                  · rw [← hfound.1]
                · rw [if_neg horigin]
                  apply loaded_cleared h
                  intro found heq
                  obtain rfl := Option.some.inj heq
                  exact horigin
  · intro hsaves
    cases hsaves

/-- The directory may have been made; nothing else was done. -/
structure Prepared (cache : TokenCache) (d d' : Disk) : Prop where
  same : ∃ directory, d' = { d with directory := directory }
  stays : Fine cache d → Fine cache d'

/-- A disk is prepared from itself. -/
theorem Prepared.refl (cache : TokenCache) (d : Disk) : Prepared cache d d where
  same := ⟨d.directory, rfl⟩
  stays h := h

/-- The directory was made, where there was none. -/
theorem prepared_made (hnone : d.directory = none) (metadata : Metadata) :
    Prepared cache d { d with directory := some metadata } where
  same := ⟨_, rfl⟩
  stays h := by
    unfold Fine looks at h
    rw [hnone] at h
    cases h

/-- The directory is there afterwards, or the call fails. -/
theorem ensureDirectory_ensures : ensures (diskEffect cache.uid) cache.ensureDirectory.run d
    fun d' r => Prepared cache d d' ∧ (r = .ok () → Fine cache d') := by
  have herror : ∀ d', Prepared cache d d' → ∀ e : Exn,
      Prepared cache d d' ∧ ((.error e : Except Exn Unit) = .ok () → Fine cache d') :=
    fun d' hprepared e => ⟨hprepared, fun heq => nomatch heq⟩
  have hself := Prepared.refl cache d
  unfold TokenCache.ensureDirectory
  rw [ensures_run_bind]
  apply validateDirectory_ensures
  · cases hlooks : looks cache d with
    | error e => exact herror d hself e
    | ok there =>
        cases there with
        | true => exact ⟨hself, fun _ => hlooks⟩
        | false =>
            intro answer d' hmkdir
            have hchecked : ∀ d', Prepared cache d d' → ensures (diskEffect cache.uid) (do
                let there ← cache.validateDirectory .created
                ensure there (.valueError
                  "OpenBao token cache directory could not be created securely")).run d'
                fun d' r => Prepared cache d d' ∧ (r = .ok () → Fine cache d') := by
              intro d' hprepared
              rw [ensures_run_bind]
              apply validateDirectory_ensures
              · cases hlooks' : looks cache d' with
                | error e => exact ⟨hprepared, fun heq => nomatch heq⟩
                | ok there =>
                    apply ensures_run_ensure
                    · intro hthere
                      exact ⟨hprepared, fun _ => hlooks'.trans (congrArg Except.ok hthere)⟩
                    · intro _
                      exact ⟨hprepared, fun heq => nomatch heq⟩
              · intro _
                exact ⟨hprepared, fun heq => nomatch heq⟩
            rcases hmkdir with ⟨rfl, hnone, metadata, rfl⟩ | ⟨rfl, -, rfl⟩ | ⟨rfl, rfl⟩
            · exact hchecked _ (prepared_made hnone metadata)
            · exact hchecked _ (Prepared.refl cache _)
            · exact ⟨Prepared.refl cache _, fun heq => nomatch heq⟩
  · intro _
    exact herror d hself _

/-- What a save accepts. -/
def Cacheable (entry : CachedToken) : Prop :=
  validToken entry.token = true ∧ (dumps entry).length ≤ maxCacheBytes

/-- How a save of an entry ends: its file is in place, or the file is what it was; a temporary file
remains only if its removal failed. -/
structure SaveEnds (cache : TokenCache) (entry : CachedToken) (d d' : Disk)
    (result : Except Exn Unit) : Prop where
  file : (d'.placed = none ∧ d'.file = d.file) ∨
    (d'.placed = some entry ∧ d'.file = some (savedFile cache.uid (fileContent entry)) ∧
      Cacheable entry ∧ Fine cache d')
  stays : Fine cache d → Fine cache d'
  done : result = .ok () → d'.placed = some entry
  removed : d'.removalFailed = false → d'.temporary = none

/-- A save that has not made its file. -/
theorem saveEnds_prepared {entry : CachedToken} {d' : Disk} (hplaced : d.placed = none)
    (htemporary : d.temporary = none) (h : Prepared cache d d') (e : Exn) :
    SaveEnds cache entry d d' (.error e) := by
  obtain ⟨⟨directory, rfl⟩, hstays⟩ := h
  exact ⟨.inl ⟨hplaced, rfl⟩, hstays, nofun, fun _ => htemporary⟩

/-- The disk once the file was written, or was not. -/
structure Written (cache : TokenCache) (entry : CachedToken) (d d' : Disk)
    (result : Except Exn Unit) : Prop where
  file : (d'.placed = none ∧ d'.file = d.file) ∨
    (d'.placed = some entry ∧ d'.file = some (savedFile cache.uid (fileContent entry)))
  fine : Fine cache d'
  done : result = .ok () → d'.placed = some entry
  removal : d'.removalFailed = false

/-- **The file** is put in place or not. -/
theorem write_ensures (entry : CachedToken) {d' : Disk} (hfine : Fine cache d')
    (hfile : d'.file = d.file) (hplaced : d'.placed = none) (hremoval : d'.removalFailed = false) :
    ensures (diskEffect cache.uid) (do
      act (ask (Op.writeTemporary entry))
      act (ask (Op.replaceCache entry))
      act (ask Op.syncDirectory) : Call Unit).run d' (Written cache entry d) := by
  rw [ensures_run_bind]
  intro answer d1 hwrite
  rcases hwrite with ⟨rfl, rfl⟩ | ⟨rfl, part, rfl⟩
  · show ensures _ (act (ask (Op.replaceCache entry) : Call (Did Unit)) >>= _).run _ _
    rw [ensures_run_bind]
    intro answer d2 hreplace
    have hput : ∀ result : Except Exn Unit, Written cache entry d
        ({ d' with temporary := some (fileContent entry) }.place cache.uid entry) result :=
      fun result => ⟨.inr ⟨rfl, rfl⟩, hfine, fun _ => rfl, hremoval⟩
    rcases hreplace with rfl | ⟨rfl, rfl⟩
    · cases answer with
      | error u => exact hput _
      | ok u =>
          intro answer d3 hsync
          obtain rfl : d3 = _ := hsync
          exact hput _
    · exact ⟨.inl ⟨hplaced, hfile⟩, hfine, nofun, hremoval⟩
  · exact ⟨.inl ⟨hplaced, hfile⟩, hfine, nofun, hremoval⟩

/-- The temporary file is removed, or its removal fails. -/
theorem remove_ensures {entry : CachedToken} (hcacheable : Cacheable entry) {d' : Disk}
    {result : Except Exn Unit} (h : Written cache entry d d' result) :
    ensures (diskEffect cache.uid) (do
      act (ask Op.removeTemporary)
      answer result : Call Unit).run d' (SaveEnds cache entry d) := by
  obtain ⟨hfile, hfine, hdone, hremoval⟩ := h
  have hends : (d'.placed = none ∧ d'.file = d.file) ∨ (d'.placed = some entry ∧
      d'.file = some (savedFile cache.uid (fileContent entry)) ∧
      Cacheable entry ∧ Fine cache d') := by
    rcases hfile with hold | ⟨hplaced, hnew⟩
    · exact .inl hold
    · exact .inr ⟨hplaced, hnew, hcacheable, hfine⟩
  rw [ensures_run_bind]
  intro answer d1 hremove
  rcases hremove with ⟨rfl, rfl⟩ | ⟨rfl, rfl⟩
  · exact ⟨hends, fun _ => hfine, hdone, fun _ => rfl⟩
  · exact ⟨hends, fun _ => hfine, nofun, nofun⟩

/-- **A save**, whatever fails in it. -/
theorem save_ensures (origin token : String) (hplaced : d.placed = none)
    (htemporary : d.temporary = none) (hremoval : d.removalFailed = false) :
    ensures (diskEffect cache.uid) (cache.save origin token).run d
      (SaveEnds cache ⟨origin, token⟩ d) := by
  have hself := Prepared.refl cache d
  unfold TokenCache.save
  rw [ensures_run_bind]
  apply ensures_run_ensure
  · intro htoken
    dsimp only
    rw [ensures_run_bind]
    apply ensures_run_ensure
    · intro hsize
      have hcacheable : Cacheable ⟨origin, token⟩ := ⟨htoken, of_decide_eq_true hsize⟩
      dsimp only
      rw [ensures_run_bind]
      refine ensures_mono ensureDirectory_ensures fun d1 r hd1 => ?_
      obtain ⟨hprepared, hready⟩ := hd1
      cases r with
      | error e => exact saveEnds_prepared hplaced htemporary hprepared e
      | ok u =>
          have hfine := hready rfl
          dsimp only
          rw [ensures_run_bind]
          apply openCache_ensures
          · cases finds cache d1 with
            | error e => exact saveEnds_prepared hplaced htemporary hprepared e
            | ok there =>
                show ensures _ (act (ask Op.makeTemporary : Call (Did Unit)) >>= _).run _ _
                rw [ensures_run_bind]
                intro answer d2 hmake
                rcases hmake with ⟨rfl, rfl⟩ | ⟨rfl, rfl⟩
                · obtain ⟨⟨directory, rfl⟩, -⟩ := hprepared
                  show ensures _ (attempt _ >>= _).run _ _
                  rw [ensures_run_bind, ensures_run_attempt]
                  have hwrite := @write_ensures cache d ⟨origin, token⟩
                    { d with directory := directory, temporary := some [] } hfine rfl hplaced
                    hremoval
                  exact ensures_mono hwrite fun d3 result h => remove_ensures hcacheable h
                · exact saveEnds_prepared hplaced htemporary hprepared _
          · intro _ e
            exact saveEnds_prepared hplaced htemporary hprepared e
    · intro _
      exact saveEnds_prepared hplaced htemporary hself _
  · intro _
    exact saveEnds_prepared hplaced htemporary hself _

/-- What a call does to the register, and what a load returns. -/
def Agrees (cache : TokenCache) (held : Option CachedToken) (call : CacheCall) (d' : Disk)
    (result : Except Exn (Option CachedToken)) : Prop :=
  Holds cache d' (Step.register held ⟨call, result, d'.placed.isSome⟩) ∧
    ∀ origin, call = .load origin →
      ∀ entry, result = .ok (some entry) ↔ held = some entry ∧ entry.origin = origin

/-- A cache that is found is fine. -/
theorem finds_ok_true : finds cache d = .ok true ↔
    Fine cache d ∧ TokenCache.checkFile cache.uid d.opened = .ok true := by
  unfold finds Fine
  cases looks cache d with
  | error e => exact ⟨nofun, fun h => nomatch h.1⟩
  | ok there =>
      cases there with
      | false => exact ⟨nofun, fun h => nomatch h.1⟩
      | true => exact ⟨fun h => ⟨rfl, h⟩, fun h => h.2⟩

/-- The file of a save is the cache's. -/
theorem checkFile_savedFile (uid : Nat) (content : Bytes) :
    TokenCache.checkFile uid (savedFile uid content).opens = .ok true := by
  simp [TokenCache.checkFile, savedFile]

/-- The entry that a save put in place is held. -/
theorem SaveEnds.holds_placed (hloads : ReadsBack cache.loads) {entry : CachedToken} {d' : Disk}
    {result : Except Exn Unit} (hends : SaveEnds cache entry d d' result)
    (hplaced : d'.placed.isSome) : Holds cache d' (some entry) := by
  rcases hends.file with ⟨hnone, -⟩ | ⟨-, hfile, hcacheable, hfine⟩
  · rw [hnone] at hplaced
    cases hplaced
  · constructor
    · unfold Disk.entry
      rw [hfile, Option.bind_some, savedFile_content]
      exact readEntry_fileContent hloads hcacheable.1 hcacheable.2
    · intro _
      have hopened : d'.opened = (savedFile cache.uid (fileContent entry)).opens := by
        unfold Disk.opened
        rw [hfile]
      apply finds_ok_true.mpr
      rw [hopened]
      exact ⟨hfine, checkFile_savedFile _ _⟩

/-- A save that put nothing in place changes nothing. -/
theorem SaveEnds.holds_kept {entry : CachedToken} {d' : Disk} {result : Except Exn Unit}
    (hends : SaveEnds cache entry d d' result) (hplaced : ¬ d'.placed.isSome)
    {held : Option CachedToken} (h : Holds cache d held) : Holds cache d' held := by
  rcases hends.file with ⟨-, hfile⟩ | ⟨hsome, -⟩
  · constructor
    · unfold Disk.entry
      rw [hfile]
      exact h.reads
    · intro hheld
      have hfound := finds_ok_true.mp (h.found hheld)
      have hopened : d'.opened = d.opened := by
        unfold Disk.opened
        rw [hfile]
      apply finds_ok_true.mpr
      rw [hopened]
      exact ⟨hends.stays hfound.1, hfound.2⟩
  · rw [hsome] at hplaced
    exact absurd rfl hplaced

/-- **Step lemma.** -/
theorem call_ensures (hloads : ReadsBack cache.loads) {held : Option CachedToken}
    (h : Holds cache d held) (call : CacheCall) :
    ensures (diskEffect cache.uid) (call.run cache).run d.begun (Agrees cache held call) := by
  have hbegun : Holds cache d.begun held := ⟨h.reads, h.found⟩
  cases call with
  | save origin token =>
      unfold CacheCall.run
      rw [ensures_run_bind]
      refine ensures_mono (save_ensures origin token rfl rfl rfl) fun d' result hends => ?_
      have hholds : Holds cache d'
          (if d'.placed.isSome then some ⟨origin, token⟩ else held) := by
        by_cases hplaced : d'.placed.isSome
        · rw [if_pos hplaced]
          exact hends.holds_placed hloads hplaced
        · rw [if_neg hplaced]
          exact hends.holds_kept hplaced hbegun
      cases result with
      | error e => exact ⟨hholds, fun _ hload => nomatch hload⟩
      | ok u => exact ⟨hholds, fun _ hload => nomatch hload⟩
  | load origin =>
      refine ensures_mono (load_ensures hbegun origin) fun d' result hloaded => ?_
      refine ⟨hloaded.1, fun other hother => ?_⟩
      obtain rfl := CacheCall.load.inj hother
      exact hloaded.2
  | clear =>
      unfold CacheCall.run
      rw [ensures_run_bind]
      refine ensures_mono (clear_ensures hbegun) fun d' result hcleared => ?_
      cases result with
      | error e => exact ⟨hcleared, fun _ hload => nomatch hload⟩
      | ok u => exact ⟨hcleared, fun _ hload => nomatch hload⟩

/-- A call that finishes agrees with the register. -/
theorem Finishes.agrees (hloads : ReadsBack cache.loads) {held : Option CachedToken}
    (h : Holds cache d held) {call : CacheCall} {result : Except Exn (Option CachedToken)}
    {d' : Disk} (hcall : Finishes cache d call result d') : Agrees cache held call d' result := by
  obtain ⟨t, hreaches, hmoves⟩ := hcall
  exact ensures_finished hreaches hmoves (call_ensures hloads h call)

/-- How a save ended, seen from the disk before it. -/
theorem Finishes.save_ends {origin token : String} {result : Except Exn (Option CachedToken)}
    {d' : Disk} (h : Finishes cache d (.save origin token) result d') :
    ∃ outcome : Except Exn Unit, SaveEnds cache ⟨origin, token⟩ d.begun d' outcome ∧
      (∀ entry, result = .ok entry → outcome = .ok ()) := by
  obtain ⟨t, hreaches, hmoves⟩ := h
  refine ensures_finished (Q := fun d' result => ∃ outcome : Except Exn Unit,
    SaveEnds cache ⟨origin, token⟩ d.begun d' outcome ∧
      (∀ entry, result = .ok entry → outcome = .ok ())) hreaches hmoves ?_
  unfold CacheCall.run
  rw [ensures_run_bind]
  refine ensures_mono (save_ensures origin token rfl rfl rfl) fun d' outcome hends => ?_
  cases outcome with
  | error e => exact ⟨_, hends, fun _ hok => nomatch hok⟩
  | ok u => exact ⟨_, hends, fun _ _ => rfl⟩

/-- **Run lemma.** -/
theorem Runs.holds (hloads : ReadsBack cache.loads) {held : Option CachedToken} {steps : List Step}
    {d' : Disk} (hruns : Runs cache d steps d') (h : Holds cache d held) :
    Holds cache d' (steps.foldl Step.register held) := by
  induction hruns generalizing held with
  | nil d => exact h
  | cons hcall hrest ih => exact ih (hcall.agrees hloads h).1

/-- A run up to one of its calls, and this call. -/
theorem Runs.split {before after : List Step} {step : Step} {d' : Disk}
    (h : Runs cache d (before ++ step :: after) d') :
    ∃ d1 d2, Runs cache d before d1 ∧ Finishes cache d1 step.call step.result d2 := by
  induction before generalizing d with
  | nil =>
      cases h with
      | cons hcall hrest => exact ⟨_, _, .nil d, hcall⟩
  | cons first before ih =>
      cases h with
      | cons hcall hrest =>
          obtain ⟨d1, d2, hbefore, hstep⟩ := ih hrest
          exact ⟨d1, d2, .cons hcall hbefore, hstep⟩

end Parts

/-- **The register law.**  In a run of one process, from a disk whose file holds no entry, a load
returns a token exactly if the last save that took effect was of this token for its origin, and
nothing since then ended it.  What a save accepts is what the next load of its origin returns.  A
save that raises leaves the file as it was, or complete; a temporary file remains only if its
removal failed. -/
theorem register_law (cache : TokenCache) (hloads : ReadsBack cache.loads) :
    (∀ d d' before origin result tookEffect after, d.entry cache.loads = none →
      Runs cache d (before ++ ⟨.load origin, result, tookEffect⟩ :: after) d' →
      ∀ entry, result = .ok (some entry) ↔ entry.origin = origin ∧ LastSaved before entry) ∧
    (∀ d d' d'' origin token saved result, Finishes cache d (.save origin token) (.ok saved) d' →
      Finishes cache d' (.load origin) result d'' → result = .ok (some ⟨origin, token⟩)) ∧
    (∀ d d' origin token e, Finishes cache d (.save origin token) (.error e) d' →
      (d'.file = d.file ∨
        d'.file = some (savedFile cache.uid (fileContent ⟨origin, token⟩))) ∧
      (d'.removalFailed = false → d'.temporary = none)) := by
  refine ⟨?_, ?_, ?_⟩
  · intro d d' before origin result tookEffect after hempty hruns entry
    obtain ⟨d1, d2, hbefore, hload⟩ := hruns.split
    have hholds := hbefore.holds hloads ⟨hempty, fun hne => absurd rfl hne⟩
    rw [(hload.agrees hloads hholds).2 origin rfl entry, register_eq_some, and_comm]
  · intro d d' d'' origin token saved result hsave hload
    obtain ⟨outcome, hends, hok⟩ := hsave.save_ends
    obtain rfl := hok saved rfl
    have hplaced : d'.placed.isSome := by rw [hends.done rfl]; rfl
    have hagrees := hload.agrees hloads (hends.holds_placed hloads hplaced)
    exact (hagrees.2 origin rfl _).mpr ⟨rfl, rfl⟩
  · intro d d' origin token e hsave
    obtain ⟨outcome, hends, -⟩ := hsave.save_ends
    refine ⟨?_, hends.removed⟩
    rcases hends.file with ⟨-, hfile⟩ | ⟨-, hfile, -⟩
    · exact .inl hfile
    · exact .inr hfile

/-- A cache. -/
def sampleCache : TokenCache := ⟨1000, loads⟩

/-- A directory of the cache, without a file. -/
def emptyDisk : Disk := ⟨some ⟨.directory, 1000, 0o700⟩, none, none, none, false⟩

/-- An entry. -/
def sampleEntry : CachedToken := ⟨"https://bao", "t"⟩

/-- What every save of the sample does first: nothing is in its way. -/
def saveStart : Trace Ans :=
  [⟨.lstatDirectory .save, .ok emptyDisk.directory⟩,
    ⟨.lstatDirectory .save, .ok emptyDisk.directory⟩, ⟨.openCache .save, Opened.missing⟩,
    ⟨.makeTemporary, .ok ()⟩]

/-- Its token is valid. -/
theorem sampleEntry_valid : validToken "t" = true := by decide

/-- It is short enough. -/
theorem sampleEntry_size : (dumps ⟨"https://bao", "t"⟩).length ≤ maxCacheBytes := by decide

/-- What a save of it does. -/
def saveTrace : Trace Ans :=
  saveStart ++ [⟨.writeTemporary sampleEntry, .ok ()⟩, ⟨.replaceCache sampleEntry, .ok ()⟩,
    ⟨.syncDirectory, .ok ()⟩, ⟨.removeTemporary, .ok ()⟩]

/-- The disk afterwards. -/
def savedDisk : Disk :=
  { emptyDisk with
    file := some (savedFile 1000 (fileContent sampleEntry)), placed := some sampleEntry }

/-- The save finishes so. -/
theorem sample_saves :
    Finishes sampleCache emptyDisk (.save "https://bao" "t") (.ok none) savedDisk := by
  refine ⟨saveTrace, ?_, ?_⟩
  · dsimp only [CacheCall.run, TokenCache.save]
    rw [sampleEntry_valid, decide_eq_true sampleEntry_size]
    exact .step (.step (.step (.step (.step (.step (.step (.step (.refl _))))))))
  · refine .cons ⟨rfl, .inl rfl⟩ (.cons ⟨rfl, .inl rfl⟩ (.cons ⟨rfl, .inl rfl⟩ ?_))
    refine .cons (.inl ⟨rfl, rfl⟩) (.cons (.inl ⟨rfl, rfl⟩) (.cons (.inl rfl) (.cons rfl ?_)))
    exact .cons (.inl ⟨rfl, rfl⟩) (.nil _)

/-- What a load does then. -/
def loadTrace : Trace Ans :=
  [⟨.lstatDirectory .load, .ok emptyDisk.directory⟩,
    ⟨.openCache .load, (savedFile 1000 []).opens⟩,
    ⟨.readCache, .ok ((fileContent sampleEntry).take (maxCacheBytes + 1))⟩]

/-- The load finishes with the entry. -/
theorem sample_loads :
    Finishes sampleCache savedDisk (.load "https://bao") (.ok (some sampleEntry))
      savedDisk.begun := by
  have hread : readEntry loads ((fileContent sampleEntry).take (maxCacheBytes + 1)) =
      some sampleEntry :=
    (readEntry_take loads _).trans
      (readEntry_fileContent loads_reads_back sampleEntry_valid sampleEntry_size)
  refine ⟨loadTrace, ?_, ?_⟩
  · refine .step (.step (.step ?_))
    show Reaches (sampleCache.loadEntry "https://bao"
      (readEntry loads ((fileContent sampleEntry).take (maxCacheBytes + 1)))).run [] _
    rw [hread]
    exact .refl _
  · exact .cons ⟨rfl, .inl rfl⟩ (.cons ⟨rfl, .inl rfl⟩ (.cons ⟨rfl, _, rfl, rfl⟩ (.nil _)))

/-- The write fails, and so does the removal of what was written. -/
def failedTrace : Trace Ans :=
  saveStart ++ [⟨.writeTemporary sampleEntry, .error ()⟩, ⟨.removeTemporary, .error ()⟩]

/-- The disk after a save that failed. -/
def failedDisk : Disk := { emptyDisk with temporary := some [], removalFailed := true }

/-- The save finishes so. -/
theorem sample_fails :
    Finishes sampleCache emptyDisk (.save "https://bao" "t") (.error .osError) failedDisk := by
  refine ⟨failedTrace, ?_, ?_⟩
  · dsimp only [CacheCall.run, TokenCache.save]
    rw [sampleEntry_valid, decide_eq_true sampleEntry_size]
    exact .step (.step (.step (.step (.step (.step (.refl _))))))
  · refine .cons ⟨rfl, .inl rfl⟩ (.cons ⟨rfl, .inl rfl⟩ (.cons ⟨rfl, .inl rfl⟩ ?_))
    exact .cons (.inl ⟨rfl, rfl⟩) (.cons (.inr ⟨rfl, [], rfl⟩) (.cons (.inr ⟨rfl, rfl⟩) (.nil _)))

/-- The token of the save is loaded. -/
theorem register_law_save_load :
    Runs sampleCache emptyDisk [⟨.save "https://bao" "t", .ok none, true⟩,
      ⟨.load "https://bao", .ok (some sampleEntry), false⟩] savedDisk.begun ∧
    LastSaved [⟨.save "https://bao" "t", .ok none, true⟩] sampleEntry ∧
    (∀ result d', Finishes sampleCache savedDisk (.load "https://bao") result d' →
      result = .ok (some sampleEntry)) ∧
    (failedDisk.file = emptyDisk.file ∨
      failedDisk.file = some (savedFile 1000 (fileContent sampleEntry))) := by
  have hruns : Runs sampleCache emptyDisk [⟨.save "https://bao" "t", .ok none, true⟩,
      ⟨.load "https://bao", .ok (some sampleEntry), false⟩] savedDisk.begun :=
    .cons sample_saves (.cons sample_loads (.nil _))
  obtain ⟨hloads, hsaves, hraises⟩ := register_law sampleCache loads_reads_back
  have hlast := hloads emptyDisk _ [⟨.save "https://bao" "t", .ok none, true⟩] "https://bao" _ _ []
    rfl hruns sampleEntry
  exact ⟨hruns, (hlast.mp rfl).2,
    fun result d' hload => hsaves _ _ _ _ _ none result sample_saves hload,
    (hraises emptyDisk failedDisk "https://bao" "t" .osError sample_fails).1⟩

/-- Its temporary file remains. -/
theorem temporary_remains : ¬ ∀ (cache : TokenCache) (d d' : Disk) (origin token : String)
    (e : Exn), ReadsBack cache.loads → Finishes cache d (.save origin token) (.error e) d' →
      d'.temporary = none := by
  intro h
  have hnone := h sampleCache emptyDisk failedDisk "https://bao" "t" .osError loads_reads_back
    sample_fails
  cases hnone

end SshHomelab.Register
