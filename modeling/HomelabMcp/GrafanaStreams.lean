import HomelabMcp.ChronoText
import HomelabMcp.GrafanaNormalize

/-!
# Log lines of Loki

A result is a list of streams, each with its labels and its entries; all streams together share one
limit.  An entry past the limit is read as the others are, and then left out.

* `takeWithin_elements`: a limit shared by several lists takes the first elements of all of them.
* `streams_within_limit`: a result is accepted exactly if every stream and every entry is well
  formed, and what is returned are the first entries of it.
-/

namespace Grafana

open Interaction
open Json (Value)

/-- The value of digits. -/
def magnitude (digits : List Char) : Option Nat :=
  if digits.isEmpty || !digits.all Char.isDigit then none else some (Nat.ofDigitChars 10 digits 0)

/-- Whether the text starts with a minus, and what follows its sign. -/
def splitSign : List Char → Bool × List Char
  | '-' :: digits => (true, digits)
  | '+' :: digits => (false, digits)
  | digits => (false, digits)

/-- A number with its sign. -/
def signed (negative : Bool) (n : Nat) : Int := if negative then -n else n

/-- `parse::<i64>`: a sign may stand before the digits. -/
def parseI64 (text : String) : Option Int :=
  let (negative, digits) := splitSign text.toList
  (magnitude digits).bind fun n =>
    let value := signed negative n
    if -2 ^ 63 ≤ value ∧ value < 2 ^ 63 then some value else none

/-- A text of digits, maybe behind a sign, for a number of 64 bits with a sign. -/
def Decimal (text : String) (n : Int) : Prop :=
  ∃ digits : List Char, digits ≠ [] ∧ (∀ c ∈ digits, c.isDigit = true) ∧
    (text.toList = '-' :: digits ∧ n = -Nat.ofDigitChars 10 digits 0 ∨
      (text.toList = digits ∨ text.toList = '+' :: digits) ∧ n = Nat.ofDigitChars 10 digits 0) ∧
    -2 ^ 63 ≤ n ∧ n < 2 ^ 63

/-- A magnitude is read from digits only, at least one. -/
theorem magnitude_eq_some {digits : List Char} {n : Nat} :
    magnitude digits = some n ↔ digits ≠ [] ∧ (∀ c ∈ digits, c.isDigit = true) ∧
      n = Nat.ofDigitChars 10 digits 0 := by
  unfold magnitude
  split_ifs with hbad
  · rw [Bool.or_eq_true, List.isEmpty_iff, Bool.not_eq_true', Bool.eq_false_iff, ne_eq,
      List.all_eq_true] at hbad
    refine iff_of_false nofun ?_
    intro ⟨hne, hdigits, _⟩
    rcases hbad with hempty | hnot
    · exact hne hempty
    · exact hnot hdigits
  · rw [Bool.or_eq_true, not_or, List.isEmpty_iff, Bool.not_eq_true', Bool.not_eq_false,
      List.all_eq_true] at hbad
    rw [Option.some.injEq, and_iff_right hbad.1, and_iff_right hbad.2, eq_comm]

/-- What a sign was split off from. -/
theorem splitSign_cases (cs : List Char) :
    (∃ digits, cs = '-' :: digits ∧ splitSign cs = (true, digits)) ∨
      ∃ digits, (cs = digits ∨ cs = '+' :: digits) ∧ splitSign cs = (false, digits) := by
  unfold splitSign
  split
  · exact .inl ⟨_, rfl, rfl⟩
  · exact .inr ⟨_, .inr rfl, rfl⟩
  · exact .inr ⟨_, .inl rfl, rfl⟩

/-- Digits have no sign in front. -/
theorem splitSign_of_digits {digits : List Char} (h : ∀ c ∈ digits, c.isDigit = true) :
    splitSign digits = (false, digits) := by
  unfold splitSign
  split
  · exact absurd (h '-' List.mem_cons_self) (by decide)
  · exact absurd (h '+' List.mem_cons_self) (by decide)
  · rfl

/-- An integer is read where the text is one that fits. -/
theorem parseI64_eq_some {text : String} {n : Int} :
    parseI64 text = some n ↔ Decimal text n := by
  have hvalue : ∀ {negative : Bool} {digits : List Char},
      splitSign text.toList = (negative, digits) → (parseI64 text = some n ↔
        digits ≠ [] ∧ (∀ c ∈ digits, c.isDigit = true) ∧
          n = signed negative (Nat.ofDigitChars 10 digits 0) ∧ -2 ^ 63 ≤ n ∧ n < 2 ^ 63) := by
    intro negative digits hsplit
    rw [parseI64, hsplit]
    dsimp only
    rw [Option.bind_eq_some_iff]
    constructor
    · intro ⟨m, hm, hn⟩
      obtain ⟨hne, hall, rfl⟩ := magnitude_eq_some.mp hm
      split_ifs at hn with hfits
      obtain rfl := Option.some.inj hn
      exact ⟨hne, hall, rfl, hfits⟩
    · intro ⟨hne, hall, hn, hfits⟩
      refine ⟨_, magnitude_eq_some.mpr ⟨hne, hall, rfl⟩, ?_⟩
      rw [← hn, if_pos hfits]
  constructor
  · intro h
    rcases splitSign_cases text.toList with ⟨digits, htext, hsplit⟩ | ⟨digits, htext, hsplit⟩
    · obtain ⟨hne, hall, hn, hfits⟩ := (hvalue hsplit).mp h
      exact ⟨digits, hne, hall, .inl ⟨htext, hn⟩, hfits⟩
    · obtain ⟨hne, hall, hn, hfits⟩ := (hvalue hsplit).mp h
      exact ⟨digits, hne, hall, .inr ⟨htext, hn⟩, hfits⟩
  · intro ⟨digits, hne, hall, htext, hfits⟩
    rcases htext with ⟨htext, hn⟩ | ⟨htext | htext, hn⟩
    · have hsplit : splitSign text.toList = (true, digits) := by rw [htext, splitSign]
      exact (hvalue hsplit).mpr ⟨hne, hall, hn, hfits⟩
    · have hsplit : splitSign text.toList = (false, digits) := by
        rw [htext, splitSign_of_digits hall]
      exact (hvalue hsplit).mpr ⟨hne, hall, hn, hfits⟩
    · have hsplit : splitSign text.toList = (false, digits) := by rw [htext, splitSign]
      exact (hvalue hsplit).mpr ⟨hne, hall, hn, hfits⟩

section Limit

variable {α β : Type}

/-- The first elements of all lists together; a list of which none is taken is left out. -/
def takeWithin : Nat → List (α × List β) → List (α × List β)
  | _, [] => []
  | limit, (a, bs) :: rest =>
      let taken := bs.take limit
      if taken.isEmpty then takeWithin (limit - bs.length) rest
      else (a, taken) :: takeWithin (limit - bs.length) rest

/-- Together the lists keep the first elements, up to the limit. -/
theorem takeWithin_elements (limit : Nat) (groups : List (α × List β)) :
    (takeWithin limit groups).flatMap Prod.snd = (groups.flatMap Prod.snd).take limit := by
  induction groups generalizing limit with
  | nil => rw [takeWithin, List.flatMap_nil, List.take_nil]
  | cons group groups ih =>
      obtain ⟨a, bs⟩ := group
      rw [takeWithin, List.flatMap_cons, List.take_append, ← ih]
      by_cases hnone : (bs.take limit).isEmpty = true
      · rw [if_pos hnone, List.isEmpty_iff.mp hnone, List.nil_append]
      · rw [if_neg hnone, List.flatMap_cons]

/-- No list is kept empty. -/
theorem takeWithin_nonempty (limit : Nat) (groups : List (α × List β)) :
    ∀ group ∈ takeWithin limit groups, group.2 ≠ [] := by
  induction groups generalizing limit with
  | nil => exact List.forall_mem_nil _
  | cons group groups ih =>
      obtain ⟨a, bs⟩ := group
      rw [takeWithin]
      by_cases hnone : (bs.take limit).isEmpty = true
      · rw [if_pos hnone]
        exact ih _
      · rw [if_neg hnone]
        refine List.forall_mem_cons.mpr ⟨?_, ih _⟩
        exact mt List.isEmpty_iff.mpr hnone

/-- Each list that is returned is the beginning of one of those given, in their order. -/
theorem takeWithin_prefixes (limit : Nat) (groups : List (α × List β)) :
    ∃ kept, kept.Sublist groups ∧
      List.Forall₂ (fun taken group => taken.1 = group.1 ∧ taken.2 <+: group.2)
        (takeWithin limit groups) kept := by
  induction groups generalizing limit with
  | nil => exact ⟨[], List.Sublist.slnil, .nil⟩
  | cons group groups ih =>
      obtain ⟨a, bs⟩ := group
      obtain ⟨kept, hkept, htaken⟩ := ih (limit - bs.length)
      rw [takeWithin]
      by_cases hnone : (bs.take limit).isEmpty = true
      · rw [if_pos hnone]
        exact ⟨kept, hkept.cons _, htaken⟩
      · rw [if_neg hnone]
        exact ⟨(a, bs) :: kept, hkept.cons_cons _, .cons ⟨rfl, List.take_prefix limit bs⟩ htaken⟩

/-- Lists that are related in turn are so through a third one. -/
theorem forall₂_through {γ : Type} {R : α → β → Prop} {S : α → γ → Prop} {T : β → γ → Prop}
    {as : List α} {bs : List β} (hall : List.Forall₂ R as bs)
    (h : ∀ a b, R a b → ∃ c, S a c ∧ T b c) :
    ∃ cs, List.Forall₂ S as cs ∧ List.Forall₂ T bs cs := by
  induction hall with
  | nil => exact ⟨[], .nil, .nil⟩
  | cons hhead _ ih =>
      obtain ⟨c, hs, ht⟩ := h _ _ hhead
      obtain ⟨cs, hss, hts⟩ := ih
      exact ⟨c :: cs, .cons hs hss, .cons ht hts⟩

/-- Related lists are cut alike. -/
theorem takeWithin_related {γ : Type} {R : β → γ → Prop} {groups : List (α × List β)}
    {groups' : List (α × List γ)}
    (h : List.Forall₂ (fun g g' => g.1 = g'.1 ∧ List.Forall₂ R g.2 g'.2) groups groups')
    (limit : Nat) :
    List.Forall₂ (fun g g' => g.1 = g'.1 ∧ List.Forall₂ R g.2 g'.2) (takeWithin limit groups)
      (takeWithin limit groups') := by
  induction h generalizing limit with
  | nil => exact .nil
  | @cons group group' groups groups' hhead _ ih =>
      obtain ⟨a, bs⟩ := group
      obtain ⟨a', cs⟩ := group'
      obtain ⟨hsame, helements⟩ := hhead
      have htaken : List.Forall₂ R (bs.take limit) (cs.take limit) :=
        List.forall₂_take limit helements
      have hempty : (bs.take limit).isEmpty = (cs.take limit).isEmpty := by
        rw [Bool.eq_iff_iff, List.isEmpty_iff_length_eq_zero, List.isEmpty_iff_length_eq_zero,
          htaken.length_eq]
      have hrest := ih (limit - bs.length)
      rw [takeWithin, takeWithin, ← hempty]
      rw [helements.length_eq] at hrest ⊢
      by_cases hnone : (bs.take limit).isEmpty = true
      · rw [if_pos hnone, if_pos hnone]
        exact hrest
      · rw [if_neg hnone, if_neg hnone]
        exact .cons ⟨hsame, htaken⟩ hrest

end Limit

/-- The members of an object whose values are texts. -/
def stringMap (value : Value) : Except Error Members := do
  let object ← okOr .invalidResponse value.asObject
  object.mapM fun (key, value) => do
    let value ← okOr .invalidResponse value.asStr
    pure (key, .string value)

section Streams

variable (chrono : Chrono.Api)

/-- `normalize_stream_entry`. -/
def normalizeStreamEntry (value : Value) : Except Error Value := do
  let pair ← okOr .invalidResponse (value.asArray.filter fun pair => pair.length = 2)
  let timestamp ← okOr .invalidResponse (pair[0]?.bind Value.asStr)
  let nanoseconds ← okOr .invalidResponse (parseI64 timestamp)
  let timestamp ← okOr .invalidResponse
    (chrono.fromTimestamp (nanoseconds / 1000000000) (nanoseconds % 1000000000).toNat)
  let line ← okOr .invalidResponse (pair[1]?.bind Value.asStr)
  pure (.object [("line", .string line), ("timestamp", .string (chrono.toText timestamp))])

/-- One sample: normalized, and taken if the limit allows it. -/
def takeSample (state : List Value × Nat) (sample : Value) :
    Except Error (List Value × Nat) := do
  let (selected, remaining) := state
  let sample ← normalizeStreamEntry chrono sample
  if remaining > 0 then pure (selected ++ [sample], remaining - 1) else pure (selected, remaining)

/-- A stream as it is returned. -/
def streamValue (labels : Members) (values : List Value) : Value :=
  .object [("stream", .object labels), ("values", .array values)]

/-- One series of the outer loop, with what is left of the limit. -/
def takeSeries (state : List Value × Nat) (entry : Value) : Except Error (List Value × Nat) := do
  let (normalized, remaining) := state
  let object ← okOr .invalidResponse entry.asObject
  let labels ← stringMap (← okOr .invalidResponse (object.lookup "stream"))
  let values ← okOr .invalidResponse ((object.lookup "values").bind Value.asArray)
  let (selected, remaining) ← values.foldlM (takeSample chrono) ([], remaining)
  if selected.isEmpty then pure (normalized, remaining)
  else pure (normalized ++ [streamValue labels selected], remaining)

/-- `normalize_streams`. -/
def normalizeStreams (result : Value) (limit : Nat) : Except Error Value := do
  let series ← okOr .invalidResponse result.asArray
  let (normalized, _) ← series.foldlM (takeSeries chrono) ([], limit)
  pure (.array normalized)

end Streams

/-- A line and the time it was logged at, in nanoseconds since 1970. -/
structure Entry where
  nanos : Int
  line : String

/-- Labels and entries. -/
abbrev Stream : Type := Members × List Entry

/-- The value is a time in decimal and a line. -/
def Entry.IsRead (value : Value) (entry : Entry) : Prop :=
  ∃ timestamp, value = .array [.string timestamp, .string entry.line] ∧
    Decimal timestamp entry.nanos

/-- All values are texts. -/
def Labels (object : Members) : Prop := ∀ label ∈ object, ∃ text, label.2 = .string text

/-- The value has labels and entries. -/
def StreamIsRead (value : Value) (stream : Stream) : Prop :=
  ∃ object values, value = .object object ∧
    object.lookup "stream" = some (.object stream.1) ∧ Labels stream.1 ∧
    object.lookup "values" = some (.array values) ∧ List.Forall₂ Entry.IsRead values stream.2

/-- The value is a list of streams. -/
def AreRead (result : Value) (streams : List Stream) : Prop :=
  ∃ series, result = .array series ∧ List.Forall₂ StreamIsRead series streams

/-- What is returned for an entry: its line, and a text of its time. -/
def Entry.IsWritten (chrono : Chrono.Api) (value : Value) (entry : Entry) : Prop :=
  ∃ text time, value = .object [("line", .string entry.line), ("timestamp", .string text)] ∧
    chrono.parse text = some time ∧ time.timestampNanos = entry.nanos

/-- What is returned for a stream: its labels, and what is returned for its entries. -/
def StreamIsWritten (chrono : Chrono.Api) (value : Value) (stream : Stream) : Prop :=
  ∃ values, value = streamValue stream.1 values ∧
    List.Forall₂ (Entry.IsWritten chrono) values stream.2

/-- A map is read where all its values are texts. -/
theorem stringMap_eq_ok {value : Value} {labels : Members} :
    stringMap value = .ok labels ↔ value = .object labels ∧ Labels labels := by
  have hmember : ∀ {member kept : String × Value},
      (do let value ← okOr Error.invalidResponse member.2.asStr
          pure (member.1, Value.string value)) = .ok kept ↔
        member = kept ∧ ∃ text, kept.2 = .string text := by
    intro member kept
    obtain ⟨key, value⟩ := member
    rw [bind_eq_ok]
    simp only [okOr_eq_ok, Value.asStr_eq_some]
    constructor
    · intro ⟨text, hvalue, hkept⟩
      obtain rfl := Except.ok.inj hkept
      exact ⟨by rw [hvalue], text, rfl⟩
    · rintro ⟨rfl, text, rfl⟩
      exact ⟨text, rfl, rfl⟩
  unfold stringMap
  constructor
  · intro h
    obtain ⟨object, hvalue, h⟩ := bind_eq_ok.mp h
    have hall := forall₂_of_mapM h
    have hsame : object = labels :=
      List.forall₂_eq_eq_eq ▸ hall.imp fun _ _ hm => (hmember.mp hm).1
    subst hsame
    refine ⟨Value.asObject_eq_some.mp (okOr_eq_ok.mp hvalue), ?_⟩
    intro label hlabel
    have hread := List.forall₂_same.mp hall label hlabel
    exact (hmember.mp hread).2
  · intro ⟨hvalue, hlabels⟩
    refine bind_eq_ok.mpr ⟨labels, okOr_eq_ok.mpr (Value.asObject_eq_some.mpr hvalue), ?_⟩
    apply mapM_of_forall₂
    exact List.forall₂_same.mpr fun label hlabel => hmember.mpr ⟨rfl, hlabels label hlabel⟩

section Entries

variable {chrono : Chrono.Api}

/-- An entry is read where its pair is, and its time is one of `chrono`'s. -/
theorem normalizeStreamEntry_eq_ok {value out : Value} :
    normalizeStreamEntry chrono value = .ok out ↔
      ∃ (entry : Entry) (time : Chrono.DateTime), entry.IsRead value ∧
        chrono.fromTimestamp (entry.nanos / 1000000000) (entry.nanos % 1000000000).toNat =
          some time ∧
        out = .object
          [("line", .string entry.line), ("timestamp", .string (chrono.toText time))] := by
  unfold normalizeStreamEntry
  constructor
  · intro h
    obtain ⟨pair, hpair, h⟩ := bind_eq_ok.mp h
    obtain ⟨timestamp, htimestamp, h⟩ := bind_eq_ok.mp h
    obtain ⟨nanos, hnanos, h⟩ := bind_eq_ok.mp h
    obtain ⟨time, htime, h⟩ := bind_eq_ok.mp h
    obtain ⟨line, hline, h⟩ := bind_eq_ok.mp h
    obtain rfl := Except.ok.inj h
    obtain ⟨harray, hlength⟩ := Option.filter_eq_some_iff.mp (okOr_eq_ok.mp hpair)
    obtain ⟨first, second, rfl⟩ := List.length_eq_two.mp (of_decide_eq_true hlength)
    obtain rfl := Value.asStr_eq_some.mp (okOr_eq_ok.mp htimestamp)
    obtain rfl := Value.asStr_eq_some.mp (okOr_eq_ok.mp hline)
    have hvalue := Value.asArray_eq_some.mp harray
    exact ⟨⟨nanos, line⟩, time, ⟨timestamp, hvalue, parseI64_eq_some.mp (okOr_eq_ok.mp hnanos)⟩,
      okOr_eq_ok.mp htime, rfl⟩
  · intro ⟨entry, time, ⟨timestamp, hvalue, hnanos⟩, htime, hout⟩
    rw [hvalue, hout]
    refine bind_eq_ok.mpr ⟨_, rfl, bind_eq_ok.mpr ⟨timestamp, rfl, ?_⟩⟩
    refine bind_eq_ok.mpr ⟨_, okOr_eq_ok.mpr (parseI64_eq_some.mpr hnanos), ?_⟩
    exact bind_eq_ok.mpr ⟨time, okOr_eq_ok.mpr htime, rfl⟩

/-- A time of 64 bits of nanoseconds is in a year of four digits. -/
theorem entry_time (hchrono : chrono.Documented) {text : String} {nanos : Int}
    (h : Decimal text nanos) :
    ∃ time, chrono.fromTimestamp (nanos / 1000000000) (nanos % 1000000000).toNat = some time ∧
      time.timestampNanos = nanos ∧ time.FourDigits := by
  obtain ⟨-, -, -, -, hlow, hhigh⟩ := h
  have hmin : Chrono.minDay * 86400 ≤ nanos / 1000000000 := by
    unfold Chrono.minDay
    omega
  have hmax : nanos / 1000000000 < (Chrono.maxDay + 1) * 86400 := by
    unfold Chrono.maxDay
    omega
  obtain ⟨time, htime, hseconds, hfrac⟩ := hchrono.fromTimestamp _ (nanos % 1000000000).toNat hmin
    hmax (by omega)
  refine ⟨time, htime, ?_, ?_⟩
  · unfold Chrono.DateTime.timestampNanos
    omega
  · have hclock := time.secs_lt
    unfold Chrono.DateTime.timestamp at hseconds
    apply (Chrono.fourDigits_iff time).mpr
    omega

/-- What is written is an entry that was read. -/
theorem entry_written (hchrono : chrono.Documented) {value out : Value}
    (h : normalizeStreamEntry chrono value = .ok out) :
    ∃ entry : Entry, entry.IsRead value ∧ entry.IsWritten chrono out := by
  obtain ⟨entry, time, ⟨timestamp, hvalue, hdecimal⟩, htime, hout⟩ :=
    normalizeStreamEntry_eq_ok.mp h
  obtain ⟨time', htime', hnanos, hyear⟩ := entry_time hchrono hdecimal
  obtain rfl := Option.some.inj (htime.symm.trans htime')
  exact ⟨entry, ⟨timestamp, hvalue, hdecimal⟩, _, time, hout, hchrono.parse time hyear, hnanos⟩

/-- Every entry that is one is written. -/
theorem entry_accepted (hchrono : chrono.Documented) {value : Value} {entry : Entry}
    (h : entry.IsRead value) :
    ∃ out, normalizeStreamEntry chrono value = .ok out ∧ entry.IsWritten chrono out := by
  obtain ⟨timestamp, hvalue, hdecimal⟩ := h
  obtain ⟨time, htime, hnanos, hyear⟩ := entry_time hchrono hdecimal
  have hread : entry.IsRead value := ⟨timestamp, hvalue, hdecimal⟩
  exact ⟨_, normalizeStreamEntry_eq_ok.mpr ⟨entry, time, hread, htime, rfl⟩, _, time, rfl,
    hchrono.parse time hyear, hnanos⟩

end Entries

section Loops

variable (chrono : Chrono.Api)

/-- What a series says, all of its samples normalized. -/
def readSeries (entry : Value) : Except Error (Members × List Value) := do
  let object ← okOr .invalidResponse entry.asObject
  let labels ← stringMap (← okOr .invalidResponse (object.lookup "stream"))
  let values ← okOr .invalidResponse ((object.lookup "values").bind Value.asArray)
  let samples ← values.mapM (normalizeStreamEntry chrono)
  pure (labels, samples)

/-- The inner loop reads every sample and takes as many as remain. -/
theorem foldlM_takeSample (values selected : List Value) (remaining : Nat) :
    values.foldlM (takeSample chrono) (selected, remaining) =
      (values.mapM (normalizeStreamEntry chrono)).map fun samples =>
        (selected ++ samples.take remaining, remaining - samples.length) := by
  induction values generalizing selected remaining with
  | nil =>
      rw [List.foldlM_nil, List.mapM_nil]
      simp [pure, Except.pure, Except.map]
  | cons value values ih =>
      rw [List.foldlM_cons, List.mapM_cons, takeSample]
      cases normalizeStreamEntry chrono value with
      | error e => rfl
      | ok sample =>
          dsimp only [bind, Except.bind]
          cases remaining with
          | zero =>
              rw [if_neg (Nat.lt_irrefl 0)]
              refine (ih selected 0).trans ?_
              cases values.mapM (normalizeStreamEntry chrono) <;>
                simp [pure, Except.pure, Except.map]
          | succ remaining =>
              rw [if_pos (Nat.succ_pos remaining)]
              refine (ih (selected ++ [sample]) remaining).trans ?_
              cases values.mapM (normalizeStreamEntry chrono) <;>
                simp [pure, Except.pure, Except.map]

/-- One series is read, then cut to what is left. -/
theorem takeSeries_eq (normalized : List Value) (remaining : Nat) (entry : Value) :
    takeSeries chrono (normalized, remaining) entry =
      (readSeries chrono entry).map fun series =>
        (normalized ++ (takeWithin remaining [series]).map fun s => streamValue s.1 s.2,
          remaining - series.2.length) := by
  unfold takeSeries readSeries
  cases okOr Error.invalidResponse entry.asObject with
  | error e => rfl
  | ok object =>
  dsimp only [bind, Except.bind]
  cases okOr Error.invalidResponse (object.lookup "stream") with
  | error e => rfl
  | ok labels =>
  dsimp only
  cases stringMap labels with
  | error e => rfl
  | ok labels =>
  dsimp only
  cases okOr Error.invalidResponse ((object.lookup "values").bind Value.asArray) with
  | error e => rfl
  | ok values =>
  dsimp only
  rw [foldlM_takeSample]
  cases values.mapM (normalizeStreamEntry chrono) with
  | error e => rfl
  | ok samples =>
      simp only [Except.map, pure, Except.pure, List.nil_append, takeWithin]
      by_cases hnone : (samples.take remaining).isEmpty = true
      · rw [if_pos hnone, if_pos hnone, List.map_nil, List.append_nil]
      · rw [if_neg hnone, if_neg hnone, List.map_singleton]

/-- The first list takes its share, and the others what is left. -/
theorem takeWithin_cons {α β : Type} (limit : Nat) (group : α × List β)
    (rest : List (α × List β)) :
    takeWithin limit (group :: rest) =
      takeWithin limit [group] ++ takeWithin (limit - group.2.length) rest := by
  obtain ⟨a, bs⟩ := group
  rw [takeWithin, takeWithin]
  by_cases hnone : (bs.take limit).isEmpty = true
  · rw [if_pos hnone, if_pos hnone, takeWithin, List.nil_append]
  · rw [if_neg hnone, if_neg hnone, takeWithin]
    rfl

/-- The outer loop reads every series and takes what the limit allows of all of them. -/
theorem foldlM_takeSeries (series normalized : List Value) (remaining : Nat) :
    (series.foldlM (takeSeries chrono) (normalized, remaining)).map Prod.fst =
      (series.mapM (readSeries chrono)).map fun groups =>
        normalized ++ (takeWithin remaining groups).map fun s => streamValue s.1 s.2 := by
  induction series generalizing normalized remaining with
  | nil =>
      rw [List.foldlM_nil, List.mapM_nil]
      simp [pure, Except.pure, Except.map, takeWithin]
  | cons entry series ih =>
      rw [List.foldlM_cons, List.mapM_cons, takeSeries_eq]
      cases readSeries chrono entry with
      | error e => rfl
      | ok group =>
          dsimp only [bind, Except.bind, Except.map]
          refine (ih _ _).trans ?_
          cases series.mapM (readSeries chrono) with
          | error e => rfl
          | ok groups =>
              dsimp only [pure, Except.pure, Except.map]
              rw [takeWithin_cons remaining group groups, List.map_append, List.append_assoc]

end Loops

section Results

variable {chrono : Chrono.Api}

/-- A series is read where its labels and its entries are. -/
theorem readSeries_eq_ok {entry : Value} {series : Members × List Value} :
    readSeries chrono entry = .ok series ↔
      ∃ object values, entry = .object object ∧
        object.lookup "stream" = some (.object series.1) ∧ Labels series.1 ∧
        object.lookup "values" = some (.array values) ∧
        values.mapM (normalizeStreamEntry chrono) = .ok series.2 := by
  unfold readSeries
  constructor
  · intro h
    obtain ⟨object, hentry, h⟩ := bind_eq_ok.mp h
    obtain ⟨stream, hstream, h⟩ := bind_eq_ok.mp h
    obtain ⟨labels, hlabels, h⟩ := bind_eq_ok.mp h
    obtain ⟨values, hvalues, h⟩ := bind_eq_ok.mp h
    obtain ⟨samples, hsamples, h⟩ := bind_eq_ok.mp h
    obtain rfl := Except.ok.inj h
    obtain ⟨rfl, htexts⟩ := stringMap_eq_ok.mp hlabels
    obtain ⟨value, hlookup, hvalue⟩ := Option.bind_eq_some_iff.mp (okOr_eq_ok.mp hvalues)
    rw [Value.asArray_eq_some.mp hvalue] at hlookup
    have hobject := Value.asObject_eq_some.mp (okOr_eq_ok.mp hentry)
    exact ⟨object, values, hobject, okOr_eq_ok.mp hstream, htexts, hlookup, hsamples⟩
  · intro ⟨object, values, hentry, hstream, htexts, hvalues, hsamples⟩
    refine bind_eq_ok.mpr ⟨object, okOr_eq_ok.mpr (Value.asObject_eq_some.mpr hentry), ?_⟩
    refine bind_eq_ok.mpr ⟨_, okOr_eq_ok.mpr hstream, ?_⟩
    refine bind_eq_ok.mpr ⟨series.1, stringMap_eq_ok.mpr ⟨rfl, htexts⟩, ?_⟩
    refine bind_eq_ok.mpr ⟨values, okOr_eq_ok.mpr ?_, ?_⟩
    · exact Option.bind_eq_some_iff.mpr ⟨_, hvalues, rfl⟩
    · exact bind_eq_ok.mpr ⟨series.2, hsamples, rfl⟩

/-- The same labels, and the samples of the entries. -/
def Samples (chrono : Chrono.Api) (series : Members × List Value) (stream : Stream) : Prop :=
  series.1 = stream.1 ∧ List.Forall₂ (Entry.IsWritten chrono) series.2 stream.2

/-- What is written of a series is a stream that was read. -/
theorem series_written (hchrono : chrono.Documented) {entry : Value}
    {series : Members × List Value} (h : readSeries chrono entry = .ok series) :
    ∃ stream, StreamIsRead entry stream ∧ Samples chrono series stream := by
  obtain ⟨object, values, hentry, hstream, htexts, hvalues, hsamples⟩ := readSeries_eq_ok.mp h
  obtain ⟨entries, hreads, hwrittens⟩ :=
    forall₂_through (forall₂_of_mapM hsamples) fun _ _ => entry_written hchrono
  exact ⟨(series.1, entries), ⟨object, values, hentry, hstream, htexts, hvalues, hreads⟩, rfl,
    hwrittens⟩

/-- Every stream that is one is written. -/
theorem series_accepted (hchrono : chrono.Documented) {entry : Value} {stream : Stream}
    (h : StreamIsRead entry stream) :
    ∃ series, readSeries chrono entry = .ok series ∧ Samples chrono series stream := by
  obtain ⟨object, values, hentry, hstream, htexts, hvalues, hreads⟩ := h
  obtain ⟨samples, hsamples, hwrittens⟩ :=
    forall₂_through hreads fun _ _ => entry_accepted hchrono
  exact ⟨(stream.1, samples),
    readSeries_eq_ok.mpr ⟨object, values, hentry, hstream, htexts, hvalues,
      mapM_of_forall₂ hsamples⟩, rfl, hwrittens.flip⟩

/-- A result is read series by series, and cut once. -/
theorem normalizeStreams_eq_ok {result out : Value} {limit : Nat} :
    normalizeStreams chrono result limit = .ok out ↔ ∃ series groups, result = .array series ∧
      series.mapM (readSeries chrono) = .ok groups ∧
      out = .array ((takeWithin limit groups).map fun s => streamValue s.1 s.2) := by
  have hfold := fun series => foldlM_takeSeries chrono series [] limit
  unfold normalizeStreams
  constructor
  · intro h
    obtain ⟨series, hseries, h⟩ := bind_eq_ok.mp h
    obtain ⟨state, hstate, h⟩ := bind_eq_ok.mp h
    have hread := hfold series
    rw [hstate] at hread
    cases hgroups : series.mapM (readSeries chrono) with
    | error e =>
        rw [hgroups] at hread
        cases hread
    | ok groups =>
        rw [hgroups] at hread
        have hresult := Value.asArray_eq_some.mp (okOr_eq_ok.mp hseries)
        refine ⟨series, groups, hresult, hgroups, ?_⟩
        obtain rfl := Except.ok.inj h
        exact congrArg Value.array (Except.ok.inj hread)
  · intro ⟨series, groups, hresult, hgroups, hout⟩
    have hread := hfold series
    rw [hgroups] at hread
    cases hstate : series.foldlM (takeSeries chrono) ([], limit) with
    | error e =>
        rw [hstate] at hread
        cases hread
    | ok state =>
        rw [hstate] at hread
        refine bind_eq_ok.mpr ⟨series, by rw [hresult]; rfl, bind_eq_ok.mpr ⟨state, hstate, ?_⟩⟩
        rw [hout]
        exact congrArg _ (congrArg Value.array (Except.ok.inj hread))

/-- **The entries within the limit.**  A result is refused exactly if a stream or an entry of it is
malformed, also one past the limit.  Otherwise the streams that are returned keep their labels, none
is empty, and their entries are the first ones of the result, each at its time to the nanosecond. -/
theorem streams_within_limit (hchrono : chrono.Documented) (result : Value) (limit : Nat) :
    ((∃ e, normalizeStreams chrono result limit = .error e) ↔
      ¬ ∃ streams, AreRead result streams) ∧
    ∀ streams, AreRead result streams → ∃ values taken,
      normalizeStreams chrono result limit = .ok (.array values) ∧
      List.Forall₂ (StreamIsWritten chrono) values taken ∧
      taken.flatMap Prod.snd = (streams.flatMap Prod.snd).take limit ∧
      (∀ stream ∈ taken, stream.2 ≠ []) ∧
      ∃ kept, kept.Sublist streams ∧
        List.Forall₂ (fun part stream => part.1 = stream.1 ∧ part.2 <+: stream.2) taken kept := by
  have haccepted : ∀ streams, AreRead result streams → ∃ groups,
      normalizeStreams chrono result limit =
        .ok (.array ((takeWithin limit groups).map fun s => streamValue s.1 s.2)) ∧
      List.Forall₂ (Samples chrono) groups streams := by
    intro streams ⟨series, hresult, hstreams⟩
    obtain ⟨groups, hgroups, hsamples⟩ :=
      forall₂_through hstreams fun _ _ => series_accepted hchrono
    exact ⟨groups, normalizeStreams_eq_ok.mpr
      ⟨series, groups, hresult, mapM_of_forall₂ hgroups, rfl⟩, hsamples.flip⟩
  constructor
  · constructor
    · intro ⟨e, herror⟩ ⟨streams, hstreams⟩
      obtain ⟨groups, hok, -⟩ := haccepted streams hstreams
      cases herror.symm.trans hok
    · intro hnone
      cases hout : normalizeStreams chrono result limit with
      | error e => exact ⟨e, rfl⟩
      | ok out =>
          obtain ⟨series, groups, hresult, hgroups, -⟩ := normalizeStreams_eq_ok.mp hout
          obtain ⟨streams, hstreams, -⟩ :=
            forall₂_through (forall₂_of_mapM hgroups) fun _ _ => series_written hchrono
          exact absurd ⟨streams, series, hresult, hstreams⟩ hnone
  · intro streams hstreams
    obtain ⟨groups, hok, hsamples⟩ := haccepted streams hstreams
    have hwritten := takeWithin_related hsamples limit
    refine ⟨_, takeWithin limit streams, hok, ?_, takeWithin_elements limit streams,
      takeWithin_nonempty limit streams, takeWithin_prefixes limit streams⟩
    apply List.forall₂_map_left_iff.mpr
    exact hwritten.imp fun group stream ⟨hlabels, hentries⟩ =>
      ⟨group.2, by rw [hlabels], hentries⟩

/-- Two entries before 1970 and after it, of which the limit allows one. -/
def sampleResult : Value :=
  .array [.object [("stream", .object [("app", .string "api")]),
    ("values", .array
      [.array [.string "-1", .string "down"], .array [.string "+0", .string "up"]])]]

/-- Two series under a limit of one. -/
theorem streams_within_limit_utc : ∃ values taken,
    normalizeStreams Chrono.utc sampleResult 1 = .ok (.array values) ∧
      List.Forall₂ (StreamIsWritten Chrono.utc) values taken ∧
      taken.flatMap Prod.snd = [⟨-1, "down"⟩] := by
  have hread : AreRead sampleResult [([("app", .string "api")], [⟨-1, "down"⟩, ⟨0, "up"⟩])] := by
    have hdown : Decimal "-1" (-1) :=
      ⟨['1'], List.cons_ne_nil _ _, List.forall_mem_singleton.mpr rfl, .inl ⟨rfl, rfl⟩, by omega⟩
    have hup : Decimal "+0" 0 :=
      ⟨['0'], List.cons_ne_nil _ _, List.forall_mem_singleton.mpr rfl, .inr ⟨.inr rfl, rfl⟩,
        by omega⟩
    refine ⟨_, rfl, .cons ⟨_, _, rfl, rfl, ?_, rfl, ?_⟩ .nil⟩
    · exact List.forall_mem_singleton.mpr ⟨"api", rfl⟩
    · exact .cons ⟨"-1", rfl, hdown⟩ (.cons ⟨"+0", rfl, hup⟩ .nil)
  obtain ⟨values, taken, hok, hwritten, hentries, -, -⟩ :=
    (streams_within_limit Chrono.utc_documented sampleResult 1).2 _ hread
  exact ⟨values, taken, hok, hwritten, hentries⟩

end Results

end Grafana
