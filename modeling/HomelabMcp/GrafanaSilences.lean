import HomelabMcp.ChronoText
import HomelabMcp.GrafanaNormalize
import HomelabMcp.GrafanaRender

/-!
# Silences

A silence is posted with matchers, a start, an end and a comment; Grafana lists it with an identity
and a state.  The listing reads it back, and one silence that cannot be read makes it fail.

* `silence_round_trip`: a silence of years with four digits is read as it was posted, and no listing
  fails for it.
* `year_without_four_digits`: a silence that ends in the year 10000 is posted, and then cannot be
  listed.
-/

namespace Grafana

open Chrono (DateTime)
open Interaction
open Json (Value)

/-- The operators of a matcher. -/
inductive MatcherOperator where
  | equal
  | notEqual
  | regexEqual
  | regexNotEqual
  deriving DecidableEq

namespace MatcherOperator

/-- How each is written. -/
def asStr : MatcherOperator → String
  | equal => "="
  | notEqual => "!="
  | regexEqual => "=~"
  | regexNotEqual => "!~"

/-- Whether it asks for a match. -/
def isEqual : MatcherOperator → Bool
  | equal | regexEqual => true
  | _ => false

/-- Whether it matches a pattern. -/
def isRegex : MatcherOperator → Bool
  | regexEqual | regexNotEqual => true
  | _ => false

end MatcherOperator

/-- A matcher. -/
structure LabelMatcher where
  name : String
  operator : MatcherOperator
  value : String
  deriving DecidableEq

/-- The bounds of matchers. -/
def maxMatchers : Nat := 20
def maxMatcherNameBytes : Nat := 128
def maxMatcherValueBytes : Nat := 1024

/-- `valid_matcher_name`. -/
def validMatcherName (name : String) : Bool :=
  name.utf8ByteSize ≤ maxMatcherNameBytes &&
    match name.toList with
    | first :: rest =>
        (first.isAlpha || first == '_') && rest.all fun c => c.isAlphanum || c == '_'
    | [] => false

/-- `valid_matcher`. -/
def validMatcher (matcher : LabelMatcher) : Bool :=
  validMatcherName matcher.name && matcher.value.utf8ByteSize ≤ maxMatcherValueBytes

/-- `validate_matchers`. -/
def validateMatchers (matchers : List LabelMatcher) (allowEmpty : Bool) :
    Except InvalidArguments Unit := do
  demand (!(matchers.length > maxMatchers || (!allowEmpty && matchers.isEmpty))) .invalidArguments
  demand (matchers.all validMatcher) .invalidArguments

/-- The bounds of a silence. -/
def maxSilenceDurationSeconds : Nat := 7 * 24 * 60 * 60
def maxCommentBytes : Nat := 512

/-- The input of a silence. -/
structure CreateSilenceInput where
  matchers : List LabelMatcher
  durationSeconds : Nat
  comment : String

/-- The duration is in seconds. -/
structure CreateSilenceCommand where
  matchers : List LabelMatcher
  duration : Nat
  comment : String
  deriving DecidableEq

/-- `CreateSilenceInput::validate`. -/
def CreateSilenceInput.validate (input : CreateSilenceInput) :
    Except InvalidArguments CreateSilenceCommand := do
  validateMatchers input.matchers false
  demand (1 ≤ input.durationSeconds && input.durationSeconds ≤ maxSilenceDurationSeconds &&
    !(Text.trim input.comment).isEmpty && input.comment.utf8ByteSize ≤ maxCommentBytes) .invalidArguments
  pure ⟨input.matchers, input.durationSeconds, input.comment⟩

/-- The states of a silence. -/
inductive SilenceState where
  | active
  | pending
  | expired
  deriving DecidableEq

/-- How each is written. -/
def SilenceState.asStr : SilenceState → String
  | active => "active"
  | pending => "pending"
  | expired => "expired"

/-- A matcher as it is posted. -/
def postedMatcher (matcher : LabelMatcher) : Value :=
  .object [("isEqual", .bool matcher.operator.isEqual), ("isRegex", .bool matcher.operator.isRegex),
    ("name", .string matcher.name), ("value", .string matcher.value)]

/-- The state of a silence that is listed. -/
def silenceState (status : Members) : Except Error SilenceState := do
  let state ← boundedString status "state" maxSafeKeyBytes
  if state = "active" then pure .active
  else if state = "pending" then pure .pending
  else if state = "expired" then pure .expired
  else .error .invalidResponse

/-- `normalize_silence_matcher`. -/
def normalizeSilenceMatcher (matcher : Value) : Except Error Value := do
  let object ← okOr .invalidResponse matcher.asObject
  let name ← boundedString object "name" 128
  if !validMatcherName name then .error .invalidResponse
  else
    let value ← okOr .invalidResponse
      (((object.lookup "value").bind Value.asStr).filter fun value => value.utf8ByteSize ≤ 1024)
    let isRegex ← okOr .invalidResponse ((object.lookup "isRegex").bind Value.asBool)
    let isEqual ← okOr .invalidResponse ((object.lookup "isEqual").bind Value.asBool)
    let operator := match isRegex, isEqual with
      | false, true => "="
      | false, false => "!="
      | true, true => "=~"
      | true, false => "!~"
    pure (.object [("name", .string name), ("operator", .string operator),
      ("value", .string value)])

/-- `normalize_silence_matchers`. -/
def normalizeSilenceMatchers (matchers : List Value) : Except Error (List Value) :=
  if matchers.isEmpty || matchers.length > 20 then .error .invalidResponse
  else matchers.mapM normalizeSilenceMatcher

section Client

variable (chrono : Chrono.Api)

/-- The body of the request. -/
def createSilence (command : CreateSilenceCommand) (now : DateTime) : Except Error Members := do
  let endsAt ← okOr .invalidArguments (chrono.checkedAdd now command.duration)
  pure [("comment", .string command.comment), ("createdBy", .string "homelab-mcp"),
    ("endsAt", .string (chrono.toText endsAt)),
    ("matchers", .array (command.matchers.map postedMatcher)),
    ("startsAt", .string (chrono.toText now))]

/-- `normalized_timestamp`. -/
def normalizedTimestamp (object : Members) (key : String) : Except Error String := do
  let value ← boundedString object key maxSafeKeyBytes
  let timestamp ← okOr .invalidResponse (chrono.parse value)
  pure (chrono.toText timestamp)

/-- What is returned for a silence. -/
def silenceValue (id startsAt endsAt createdBy comment : String) (state : SilenceState)
    (matchers : List Value) : Value :=
  .object [("comment", .string comment), ("created_by", .string createdBy),
    ("ends_at", .string endsAt), ("matchers", .array matchers), ("silence_id", .string id),
    ("starts_at", .string startsAt), ("state", .string state.asStr)]

/-- `normalize_silence`. -/
def normalizeSilence (silence : Value) : Except Error (SilenceState × Value) := do
  let object ← okOr .invalidResponse silence.asObject
  let status ← okOr .invalidResponse ((object.lookup "status").bind Value.asObject)
  let state ← silenceState status
  let matchers ← normalizeSilenceMatchers
    (← okOr .invalidResponse ((object.lookup "matchers").bind Value.asArray))
  let id ← boundedString object "id" maxSafeKeyBytes
  let startsAt ← normalizedTimestamp chrono object "startsAt"
  let endsAt ← normalizedTimestamp chrono object "endsAt"
  let createdBy ← boundedString object "createdBy" maxSummaryBytes
  let comment ← boundedString object "comment" maxSafeValueBytes
  pure (state, silenceValue id startsAt endsAt createdBy comment state matchers)

/-- One silence of the list: read, and kept if it is asked for and within the limit. -/
def listSilence (stateFilter : Option SilenceState) (limit : Nat) (result : List Value)
    (silence : Value) : Except Error (List Value) := do
  let (state, normalized) ← normalizeSilence chrono silence
  if stateFilter.all (· = state) && result.length < limit then pure (result ++ [normalized])
  else pure result

/-- What a listing returns. -/
def silencesResult (result : List Value) : Value :=
  .object [("mode", .string "list"), ("result", .array result),
    ("result_type", .string "silences")]

/-- `normalize_silences`. -/
def normalizeSilences (stateFilter : Option SilenceState) (limit : Nat) (wrapper : Value) :
    Except Error Value := do
  let silences ← okOr .invalidResponse wrapper.asArray
  let result ← silences.foldlM (listSilence chrono stateFilter limit) []
  pure (silencesResult result)

end Client

/-- What is returned for a matcher. -/
def listedMatcher (matcher : LabelMatcher) : Value :=
  .object [("name", .string matcher.name), ("operator", .string matcher.operator.asStr),
    ("value", .string matcher.value)]

/-- The silence that Grafana lists has the members that were posted, an identity and a state. -/
structure ListedAs (body silence : Members) (id : String) (state : SilenceState) : Prop where
  posted : ∀ key ∈ ["matchers", "startsAt", "endsAt", "createdBy", "comment"],
    silence.lookup key = body.lookup key
  id : silence.lookup "id" = some (.string id)
  status : ∃ status, silence.lookup "status" = some (.object status) ∧
    status.lookup "state" = some (.string state.asStr)

/-- The commands that are accepted. -/
structure ValidCommand (command : CreateSilenceCommand) : Prop where
  some : command.matchers ≠ []
  few : command.matchers.length ≤ maxMatchers
  matchers : ∀ matcher ∈ command.matchers, validMatcher matcher = true
  duration : 1 ≤ command.duration ∧ command.duration ≤ maxSilenceDurationSeconds
  comment : command.comment ≠ "" ∧ command.comment.utf8ByteSize ≤ maxCommentBytes

/-- What is validated is kept. -/
theorem validate_eq_ok {input : CreateSilenceInput} {command : CreateSilenceCommand}
    (h : input.validate = .ok command) :
    command = ⟨input.matchers, input.durationSeconds, input.comment⟩ ∧ ValidCommand command := by
  obtain ⟨_, hmatchers, h⟩ := bind_eq_ok.mp h
  obtain ⟨_, hrest, h⟩ := bind_eq_ok.mp h
  obtain rfl := Except.ok.inj h
  obtain ⟨_, hcount, hall⟩ := bind_eq_ok.mp hmatchers
  have hcount := demand_eq_ok.mp hcount
  have hall := demand_eq_ok.mp hall
  have hrest := demand_eq_ok.mp hrest
  simp only [Bool.not_eq_true', Bool.or_eq_false_iff, decide_eq_false_iff_not, Bool.not_false,
    Bool.true_and, List.isEmpty_eq_false_iff, gt_iff_lt, not_lt] at hcount
  simp only [Bool.and_eq_true, decide_eq_true_eq, Bool.not_eq_true'] at hrest
  obtain ⟨⟨hduration, htrim⟩, hcomment⟩ := hrest
  refine ⟨rfl, hcount.2, hcount.1, List.all_eq_true.mp hall, hduration, ?_, hcomment⟩
  intro (hempty : input.comment = "")
  have htrimmed : (Text.trim "").isEmpty = true := by decide
  rw [hempty, htrimmed] at htrim
  cases htrim

/-- A state is read as it is written. -/
theorem silenceState_asStr {status : Members} {state : SilenceState}
    (h : status.lookup "state" = some (.string state.asStr)) : silenceState status = .ok state := by
  have hbounded : boundedString status "state" maxSafeKeyBytes = .ok state.asStr := by
    refine boundedString_eq_ok.mpr ⟨h, ?_⟩
    cases state <;> decide
  unfold silenceState
  refine bind_eq_ok.mpr ⟨_, hbounded, ?_⟩
  cases state <;> rfl

/-- **A matcher is read as it was posted.** -/
theorem normalizeSilenceMatcher_posted {matcher : LabelMatcher} (h : validMatcher matcher = true) :
    normalizeSilenceMatcher (postedMatcher matcher) = .ok (listedMatcher matcher) := by
  obtain ⟨name, operator, value⟩ := matcher
  obtain ⟨hname, hvalue⟩ := Bool.and_eq_true_iff.mp h
  have hsize := of_decide_eq_true (Bool.and_eq_true_iff.mp hname).1
  have hnonempty : name ≠ "" := by
    rintro rfl
    cases (Bool.and_eq_true_iff.mp hname).2
  dsimp only at hvalue
  unfold normalizeSilenceMatcher postedMatcher
  refine bind_eq_ok.mpr ⟨_, rfl, bind_eq_ok.mpr ⟨name, ?_, ?_⟩⟩
  · exact boundedString_eq_ok.mpr ⟨rfl, hnonempty, hsize⟩
  · rw [if_neg (by rw [hname]; decide)]
    refine bind_eq_ok.mpr ⟨value, okOr_eq_ok.mpr ?_, ?_⟩
    · exact Option.filter_eq_some_iff.mpr ⟨rfl, hvalue⟩
    · cases operator <;> rfl

/-- The matchers that were posted are read back. -/
theorem normalizeSilenceMatchers_posted {command : CreateSilenceCommand}
    (h : ValidCommand command) :
    normalizeSilenceMatchers (command.matchers.map postedMatcher) =
      .ok (command.matchers.map listedMatcher) := by
  have hcount : ¬ ((command.matchers.map postedMatcher).isEmpty ||
      decide ((command.matchers.map postedMatcher).length > 20)) = true := by
    have hfew : command.matchers.length ≤ 20 := h.few
    simp only [Bool.or_eq_true, List.isEmpty_iff, List.map_eq_nil_iff, decide_eq_true_eq,
      List.length_map, not_or]
    exact ⟨h.some, Nat.not_lt.mpr hfew⟩
  rw [normalizeSilenceMatchers, if_neg hcount]
  apply mapM_of_forall₂
  rw [List.forall₂_map_left_iff, List.forall₂_map_right_iff, List.forall₂_same]
  exact fun matcher hmem => normalizeSilenceMatcher_posted (h.matchers matcher hmem)

section Listings

variable {chrono : Chrono.Api}

/-- A time that was posted is read back, its year of four digits. -/
theorem normalizedTimestamp_posted (hchrono : chrono.Documented) {object : Members} {key : String}
    {time : DateTime} (h : object.lookup key = some (.string (chrono.toText time)))
    (hyear : time.FourDigits) :
    normalizedTimestamp chrono object key = .ok (chrono.toText time) := by
  have hsize := hchrono.toText time hyear
  have hnonempty : chrono.toText time ≠ "" := by
    intro hempty
    rw [hempty] at hsize
    cases hsize
  refine bind_eq_ok.mpr ⟨chrono.toText time, boundedString_eq_ok.mpr ⟨h, hnonempty, ?_⟩, ?_⟩
  · rw [hsize]
    decide
  · exact bind_eq_ok.mpr ⟨time, okOr_eq_ok.mpr (hchrono.parse time hyear), rfl⟩

/-- A silence that was posted is read back. -/
theorem normalizeSilence_posted (hchrono : chrono.Documented) {command : CreateSilenceCommand}
    (hvalid : ValidCommand command) {now stop : DateTime}
    (hstop : chrono.checkedAdd now command.duration = some stop)
    (hnow : now.FourDigits) (hend : stop.FourDigits) {body : Members}
    (hbody : createSilence chrono command now = .ok body) {id : String}
    (hid : id ≠ "" ∧ id.utf8ByteSize ≤ maxSafeKeyBytes) {state : SilenceState} {silence : Members}
    (hlisted : ListedAs body silence id state) :
    normalizeSilence chrono (.object silence) =
      .ok (state, silenceValue id (chrono.toText now) (chrono.toText stop) "homelab-mcp"
        command.comment state (command.matchers.map listedMatcher)) := by
  unfold createSilence at hbody
  rw [hstop] at hbody
  obtain rfl := Except.ok.inj hbody
  have hposted := hlisted.posted
  obtain ⟨status, hstatus, hstate⟩ := hlisted.status
  have hmatchers := hposted "matchers" (by simp)
  have hstarts := hposted "startsAt" (by simp)
  have hends := hposted "endsAt" (by simp)
  have hcreated := hposted "createdBy" (by simp)
  have hcomment := hposted "comment" (by simp)
  unfold normalizeSilence
  refine bind_eq_ok.mpr ⟨silence, rfl, bind_eq_ok.mpr ⟨status, by rw [hstatus]; rfl, ?_⟩⟩
  refine bind_eq_ok.mpr ⟨state, silenceState_asStr hstate, ?_⟩
  refine bind_eq_ok.mpr ⟨_, by rw [hmatchers]; rfl, ?_⟩
  refine bind_eq_ok.mpr ⟨_, normalizeSilenceMatchers_posted hvalid, ?_⟩
  refine bind_eq_ok.mpr ⟨id, boundedString_eq_ok.mpr ⟨hlisted.id, hid⟩, ?_⟩
  refine bind_eq_ok.mpr ⟨_, normalizedTimestamp_posted hchrono hstarts hnow, ?_⟩
  refine bind_eq_ok.mpr ⟨_, normalizedTimestamp_posted hchrono hends hend, ?_⟩
  refine bind_eq_ok.mpr ⟨_, boundedString_eq_ok.mpr ⟨hcreated, by decide, by decide⟩, ?_⟩
  have hsize : command.comment.utf8ByteSize ≤ maxSafeValueBytes :=
    hvalid.comment.2.trans (by decide)
  exact bind_eq_ok.mpr ⟨_, boundedString_eq_ok.mpr ⟨hcomment, hvalid.comment.1, hsize⟩, rfl⟩

/-- A listing fails exactly if one of its silences cannot be read. -/
theorem normalizeSilences_fails (stateFilter : Option SilenceState) (limit : Nat)
    (silences : List Value) :
    (∃ e, normalizeSilences chrono stateFilter limit (.array silences) = .error e) ↔
      ∃ silence ∈ silences, ∃ e, normalizeSilence chrono silence = .error e := by
  have hloop : ∀ result : List Value,
      (∃ e, silences.foldlM (listSilence chrono stateFilter limit) result = .error e) ↔
        ∃ silence ∈ silences, ∃ e, normalizeSilence chrono silence = .error e := by
    induction silences with
    | nil =>
        intro result
        simp [pure, Except.pure]
    | cons silence silences ih =>
        intro result
        rw [List.foldlM_cons]
        cases hread : normalizeSilence chrono silence with
        | error e =>
            have hfails : listSilence chrono stateFilter limit result silence = .error e := by
              rw [listSilence, hread]
              rfl
            rw [hfails]
            exact iff_of_true ⟨e, rfl⟩ ⟨silence, List.mem_cons_self, e, hread⟩
        | ok pair =>
            obtain ⟨state, normalized⟩ := pair
            have hkeeps :
                ∃ next, listSilence chrono stateFilter limit result silence = .ok next := by
              rw [listSilence, hread]
              dsimp only [bind, Except.bind]
              split_ifs
              · exact ⟨_, rfl⟩
              · exact ⟨_, rfl⟩
            obtain ⟨next, hnext⟩ := hkeeps
            rw [hnext]
            refine (ih next).trans ?_
            simp only [List.mem_cons, exists_eq_or_imp, hread, reduceCtorEq, exists_false,
              false_or]
  unfold normalizeSilences
  rw [← hloop []]
  cases hfold : silences.foldlM (listSilence chrono stateFilter limit) [] with
  | error e =>
      refine iff_of_true ⟨e, ?_⟩ ⟨e, rfl⟩
      simp [Value.asArray, okOr, hfold, bind, Except.bind]
  | ok result =>
      refine iff_of_false ?_ ?_
      · simp [Value.asArray, okOr, hfold, bind, Except.bind, pure, Except.pure]
      · rintro ⟨e, h⟩
        cases h

/-- **A silence is listed as it was posted.**  The input was accepted, and the silence starts and
ends in years with four digits.  Whatever its identity and state, it is read with the same matchers
in their order, the same comment and the same two times, and no listing fails for it. -/
theorem silence_round_trip (hchrono : chrono.Documented) {input : CreateSilenceInput}
    {command : CreateSilenceCommand} (hinput : input.validate = .ok command) {now stop : DateTime}
    (hstop : chrono.checkedAdd now command.duration = some stop)
    (hyears : now.FourDigits ∧ stop.FourDigits) {body : Members}
    (hbody : createSilence chrono command now = .ok body) {id : String}
    (hid : id ≠ "" ∧ id.utf8ByteSize ≤ maxSafeKeyBytes) {state : SilenceState} {silence : Members}
    (hlisted : ListedAs body silence id state) :
    ∃ startsAt endsAt, chrono.parse startsAt = some now ∧ chrono.parse endsAt = some stop ∧
      normalizeSilence chrono (.object silence) =
        .ok (state, silenceValue id startsAt endsAt "homelab-mcp" input.comment state
          (input.matchers.map listedMatcher)) ∧
      (∀ limit > 0, normalizeSilences chrono none limit (.array [.object silence]) =
        .ok (silencesResult [silenceValue id startsAt endsAt "homelab-mcp" input.comment state
          (input.matchers.map listedMatcher)])) ∧
      ∀ stateFilter limit before after,
        (∃ e, normalizeSilences chrono stateFilter limit
          (.array (before ++ .object silence :: after)) = .error e) ↔
        ∃ e, normalizeSilences chrono stateFilter limit (.array (before ++ after)) = .error e := by
  obtain ⟨hcommand, hvalid⟩ := validate_eq_ok hinput
  have hread := normalizeSilence_posted hchrono hvalid hstop hyears.1 hyears.2 hbody hid hlisted
  rw [hcommand] at hread
  refine ⟨chrono.toText now, chrono.toText stop, hchrono.parse now hyears.1,
    hchrono.parse stop hyears.2, hread, ?_, ?_⟩
  · intro limit hlimit
    refine bind_eq_ok.mpr ⟨_, rfl, bind_eq_ok.mpr ⟨_, ?_, rfl⟩⟩
    rw [List.foldlM_cons, listSilence, hread]
    have hspace : (decide (([] : List Value).length < limit)) = true := decide_eq_true hlimit
    simp [bind, Except.bind, pure, Except.pure, hlimit]
  · intro stateFilter limit before after
    rw [normalizeSilences_fails, normalizeSilences_fails]
    have hfine : ¬ ∃ e, normalizeSilence chrono (.object silence) = .error e := by
      rw [hread]
      exact nofun
    constructor
    · intro ⟨other, hmem, hfails⟩
      refine ⟨other, ?_, hfails⟩
      rcases List.mem_append.mp hmem with hbefore | hafter
      · exact List.mem_append_left _ hbefore
      · rcases List.mem_cons.mp hafter with rfl | hafter
        · exact absurd hfails hfine
        · exact List.mem_append_right _ hafter
    · intro ⟨other, hmem, hfails⟩
      refine ⟨other, ?_, hfails⟩
      rcases List.mem_append.mp hmem with hbefore | hafter
      · exact List.mem_append_left _ hbefore
      · exact List.mem_append_right _ (List.mem_cons_of_mem _ hafter)

/-- An end that is no RFC 3339 text cannot be read. -/
theorem normalizeSilence_fails {silence : Members} {text : String}
    (hends : silence.lookup "endsAt" = some (.string text)) (hparse : chrono.parse text = none) :
    ∃ e, normalizeSilence chrono (.object silence) = .error e := by
  cases hread : normalizeSilence chrono (.object silence) with
  | error e => exact ⟨e, rfl⟩
  | ok pair =>
      obtain ⟨object, hobject, h⟩ := bind_eq_ok.mp hread
      obtain ⟨_, _, h⟩ := bind_eq_ok.mp h
      obtain ⟨_, _, h⟩ := bind_eq_ok.mp h
      obtain ⟨_, _, h⟩ := bind_eq_ok.mp h
      obtain ⟨_, _, h⟩ := bind_eq_ok.mp h
      obtain ⟨_, _, h⟩ := bind_eq_ok.mp h
      obtain ⟨_, _, h⟩ := bind_eq_ok.mp h
      obtain ⟨endsAt, htimestamp, _⟩ := bind_eq_ok.mp h
      obtain ⟨value, hvalue, htimestamp⟩ := bind_eq_ok.mp htimestamp
      obtain ⟨time, htime, _⟩ := bind_eq_ok.mp htimestamp
      obtain rfl := Except.ok.inj hobject
      have hsame := (boundedString_eq_ok.mp hvalue).1
      rw [hends, Option.some.injEq, Value.string.injEq] at hsame
      rw [← hsame, hparse] at htime
      cases htime

end Listings

/-- A silence. -/
def sampleSilence : CreateSilenceInput := ⟨[⟨"job", .regexNotEqual, "a.*"⟩], 1, "upgrade"⟩

/-- The command of it. -/
def sampleCommand : CreateSilenceCommand := ⟨[⟨"job", .regexNotEqual, "a.*"⟩], 1, "upgrade"⟩

/-- The silence as it is listed with an identity. -/
def listedSample (now stop : DateTime) : Members :=
  [("id", .string "7"), ("comment", .string "upgrade"), ("createdBy", .string "homelab-mcp"),
    ("endsAt", .string stop.toText),
    ("matchers", .array (sampleCommand.matchers.map postedMatcher)),
    ("startsAt", .string now.toText), ("status", .object [("state", .string "active")])]

/-- It is accepted. -/
theorem sampleSilence_valid : sampleSilence.validate = .ok sampleCommand := by
  decide +kernel

/-- It is posted, and may be listed so. -/
theorem sampleSilence_listed {now stop : DateTime}
    (hstop : Chrono.utc.checkedAdd now sampleCommand.duration = some stop) :
    ∃ body, createSilence Chrono.utc sampleCommand now = .ok body ∧
      ListedAs body (listedSample now stop) "7" .active := by
  unfold createSilence
  rw [hstop]
  refine ⟨_, rfl, ⟨?_, rfl, _, rfl, rfl⟩⟩
  simp only [List.forall_mem_cons, List.not_mem_nil, false_imp_iff, implies_true, and_true]
  exact ⟨rfl, rfl, rfl, rfl, rfl⟩

/-- A full second has no fraction. -/
theorem full_frac : 0 < 2000000000 := by decide

/-- A full second of a day. -/
def fullSecond (day : Int) (secs : Nat) (h : secs < 86400) : DateTime :=
  ⟨day, secs, 0, h, full_frac, nofun⟩

theorem silence_round_trip_utc : ∃ startsAt endsAt,
    Chrono.readText startsAt = some (fullSecond 0 0 (by decide)) ∧
      Chrono.readText endsAt = some (fullSecond 0 1 (by decide)) ∧
      normalizeSilence Chrono.utc
          (.object (listedSample (fullSecond 0 0 (by decide)) (fullSecond 0 1 (by decide)))) =
        .ok (.active, silenceValue "7" startsAt endsAt "homelab-mcp" "upgrade" .active
          (sampleSilence.matchers.map listedMatcher)) := by
  have hstop : Chrono.utc.checkedAdd (fullSecond 0 0 (by decide)) sampleCommand.duration =
      some (fullSecond 0 1 (by decide)) := rfl
  obtain ⟨body, hbody, hlisted⟩ := sampleSilence_listed hstop
  have hstart : (fullSecond 0 0 (by decide)).FourDigits :=
    (Chrono.fourDigits_iff _).mpr (by decide)
  have hend : (fullSecond 0 1 (by decide)).FourDigits :=
    (Chrono.fourDigits_iff _).mpr (by decide)
  obtain ⟨startsAt, endsAt, hstarts, hends, hread, -, -⟩ :=
    silence_round_trip Chrono.utc_documented sampleSilence_valid hstop ⟨hstart, hend⟩ hbody
      ⟨by decide, by decide⟩ hlisted
  exact ⟨startsAt, endsAt, hstarts, hends, hread⟩

/-- **A silence that ends in the year 10000.**  It is posted in the last second of the year before,
and then no listing that has it succeeds. -/
theorem year_without_four_digits :
    sampleSilence.validate = .ok sampleCommand ∧
      ∃ body, createSilence Chrono.utc sampleCommand (fullSecond 2932896 86399 (by decide)) =
          .ok body ∧
        ∃ silence, ListedAs body silence "7" .active ∧
          ∃ e, normalizeSilences Chrono.utc none 50 (.array [.object silence]) = .error e := by
  have hstop : Chrono.utc.checkedAdd (fullSecond 2932896 86399 (by decide))
      sampleCommand.duration = some (fullSecond 2932897 0 (by decide)) := rfl
  obtain ⟨body, hbody, hlisted⟩ := sampleSilence_listed hstop
  have hyear : ¬ (fullSecond 2932897 0 (by decide)).FourDigits := by
    rw [Chrono.fourDigits_iff]
    decide
  refine ⟨sampleSilence_valid, body, hbody, _, hlisted, ?_⟩
  apply (normalizeSilences_fails none 50 _).mpr
  exact ⟨_, List.mem_singleton_self _,
    normalizeSilence_fails rfl (Chrono.readText_toText_eq_none hyear)⟩

end Grafana
