import HomelabMcp.ChronoTime
import HomelabMcp.Interaction
import HomelabMcp.Text

/-!
# The range of a rendered panel

`validate_range` accepts no range, a range that ends now, or two times.  The parser of RFC 3339
texts is an argument.

* `range_within_iff`: what is sent means a range of a day at most, and a relative one is sent as
  it is validated again, exactly if the two times do not slip around a leap second.
* `leap_second_reversed`: two times for which the range that is sent ends before it starts.
-/

namespace Grafana

open Chrono (DateTime)
open Interaction

/-- The error of an action whose arguments are invalid. -/
inductive InvalidArguments where
  | invalidArguments
  deriving DecidableEq

/-- `parse::<u64>` of digits. -/
def parseU64 (digits : List Char) : Option Nat :=
  let n := Nat.ofDigitChars 10 digits 0
  if n < 2 ^ 64 then some n else none

/-- Digits are read where their number fits. -/
theorem parseU64_eq_some {digits : List Char} {n : Nat} :
    parseU64 digits = some n ↔ Nat.ofDigitChars 10 digits 0 = n ∧ n < 2 ^ 64 := by
  simp only [parseU64]
  split_ifs with hfits
  · constructor
    · intro h
      obtain rfl := Option.some.inj h
      exact ⟨rfl, hfits⟩
    · intro ⟨h, _⟩
      rw [h]
  · constructor
    · intro h
      cases h
    · intro ⟨h, hn⟩
      exact absurd (h ▸ hn) hfits

/-- The longest end of a range, and the ends where none are given. -/
def maxRenderRangeBytes : Nat := 64
def defaultRenderFrom : String := "now-6h"
def defaultRenderTo : String := "now"

/-- The seconds of a unit. -/
def secondsPerUnit (unit : String) : Option Nat :=
  if unit = "s" then some 1
  else if unit = "m" then some 60
  else if unit = "h" then some (60 * 60)
  else if unit = "d" then some (24 * 60 * 60)
  else none

/-- A range that ends now. -/
def relativeRange (start : String) : Except InvalidArguments (String × String) := do
  let relative ← okOr .invalidArguments (Text.stripPrefix "now-".toList start.toList)
  let (amount, unit) ← okOr .invalidArguments
    (Text.splitAtChecked ((String.ofList relative).utf8ByteSize - 1) relative)
  demand (!amount.isEmpty && amount.all Char.isDigit) .invalidArguments
  let amount ← okOr .invalidArguments (parseU64 amount)
  let perUnit ← okOr .invalidArguments (secondsPerUnit (String.ofList unit))
  let seconds := amount * perUnit
  demand (decide (seconds < 2 ^ 64 ∧ 1 ≤ seconds ∧ seconds ≤ 24 * 60 * 60)) .invalidArguments
  return ("now-" ++ toString amount ++ String.ofList unit, "now")

/-- A range between two times. -/
def absoluteRange (parse : String → Option DateTime) (start stop : String) :
    Except InvalidArguments (String × String) :=
  match parse start, parse stop with
  | some start, some stop =>
      let duration := stop.signedDurationSince start
      if duration < 0 ∨ duration > DateTime.nanosOfHours 24 then .error .invalidArguments
      else .ok (toString start.timestampMillis, toString stop.timestampMillis)
  | _, _ => .error .invalidArguments

/-- `validate_range`. -/
def validateRange (parse : String → Option DateTime) (start stop : Option String) :
    Except InvalidArguments (String × String) :=
  if start.any (fun value => value.utf8ByteSize > maxRenderRangeBytes) ||
      stop.any (fun value => value.utf8ByteSize > maxRenderRangeBytes) then .error .invalidArguments
  else match start, stop with
    | none, none => .ok (defaultRenderFrom, defaultRenderTo)
    | some start, some stop =>
        if stop = "now" then relativeRange start else absoluteRange parse start stop
    | _, _ => .error .invalidArguments

/-- A text for a time so many seconds ago. -/
def Ago (text : String) (seconds : Nat) : Prop :=
  ∃ digits unit perUnit, text.toList = "now-".toList ++ (digits ++ [unit]) ∧ digits ≠ [] ∧
    (∀ c ∈ digits, c.isDigit = true) ∧ secondsPerUnit (String.ofList [unit]) = some perUnit ∧
    seconds = Nat.ofDigitChars 10 digits 0 * perUnit

/-- What is sent for a relative range. -/
def sentStart (amount : Nat) (unit : Char) : String :=
  "now-" ++ toString amount ++ String.ofList [unit]

/-- The letters of a start. -/
theorem toList_sentStart (amount : Nat) (unit : Char) :
    (sentStart amount unit).toList = "now-".toList ++ (Nat.toDigits 10 amount ++ [unit]) := by
  simp [sentStart]

/-- A unit is one letter, and not empty. -/
theorem secondsPerUnit_cases {unit : List Char} {perUnit : Nat}
    (h : secondsPerUnit (String.ofList unit) = some perUnit) :
    ∃ c, unit = [c] ∧ c.utf8Size = 1 ∧ 1 ≤ perUnit := by
  have hunit : ∀ text : String, String.ofList unit = text → unit = text.toList := by
    rintro text rfl
    rw [String.toList_ofList]
  unfold secondsPerUnit at h
  split_ifs at h with hs hm hh hd
  · exact ⟨'s', hunit _ hs, rfl, by rw [← Option.some.inj h]⟩
  · exact ⟨'m', hunit _ hm, rfl, by rw [← Option.some.inj h]; omega⟩
  · exact ⟨'h', hunit _ hh, rfl, by rw [← Option.some.inj h]; omega⟩
  · exact ⟨'d', hunit _ hd, rfl, by rw [← Option.some.inj h]; omega⟩

/-- A text that ends with a character of one byte is split before it. -/
theorem split_last {digits : List Char} {unit : Char} (hunit : unit.utf8Size = 1) :
    Text.splitAtChecked ((String.ofList (digits ++ [unit])).utf8ByteSize - 1) (digits ++ [unit]) =
      some (digits, [unit]) := by
  refine Text.splitAtChecked_eq_some.mpr ⟨rfl, ?_⟩
  rw [String.ofList_append, String.utf8ByteSize_append, Text.utf8ByteSize_cons, hunit]
  simp

/-- Digits are single bytes. -/
theorem size_of_digits {digits : List Char} (h : ∀ c ∈ digits, c.isDigit = true) :
    (String.ofList digits).utf8ByteSize = digits.length := by
  apply Text.utf8ByteSize_of_ascii
  intro c hc
  have hdigit := h c hc
  rw [Char.isDigit, Bool.and_eq_true, decide_eq_true_eq, decide_eq_true_eq] at hdigit
  have hnine : c.val.toNat ≤ 57 := hdigit.2
  rw [Char.utf8Size_eq_one_iff]
  show c.val.toNat ≤ 127
  omega

/-- **The relative ranges.** -/
theorem relativeRange_eq_ok {start : String} {r : String × String} :
    relativeRange start = .ok r ↔
      ∃ digits unit perUnit, start.toList = "now-".toList ++ (digits ++ [unit]) ∧ digits ≠ [] ∧
        (∀ c ∈ digits, c.isDigit = true) ∧ secondsPerUnit (String.ofList [unit]) = some perUnit ∧
        1 ≤ Nat.ofDigitChars 10 digits 0 * perUnit ∧
        Nat.ofDigitChars 10 digits 0 * perUnit ≤ 86400 ∧
        r = (sentStart (Nat.ofDigitChars 10 digits 0) unit, "now") := by
  constructor
  · intro h
    obtain ⟨relative, hrelative, h⟩ := bind_eq_ok.mp h
    obtain ⟨⟨digits, unit⟩, hsplit, h⟩ := bind_eq_ok.mp h
    obtain ⟨⟨⟩, hdigits, h⟩ := bind_eq_ok.mp h
    obtain ⟨amount, hamount, h⟩ := bind_eq_ok.mp h
    obtain ⟨perUnit, hunit, h⟩ := bind_eq_ok.mp h
    obtain ⟨⟨⟩, hseconds, h⟩ := bind_eq_ok.mp h
    obtain rfl := Except.ok.inj h
    have hstart := Text.stripPrefix_iff.mp (okOr_eq_ok.mp hrelative)
    obtain ⟨rfl, -⟩ := Text.splitAtChecked_eq_some.mp (okOr_eq_ok.mp hsplit)
    obtain ⟨c, rfl, -, -⟩ := secondsPerUnit_cases (okOr_eq_ok.mp hunit)
    obtain ⟨hne, hall⟩ : digits ≠ [] ∧ ∀ c ∈ digits, c.isDigit = true := by
      simpa using demand_eq_ok.mp hdigits
    obtain ⟨rfl, -⟩ := parseU64_eq_some.mp (okOr_eq_ok.mp hamount)
    obtain ⟨-, hlow, hhigh⟩ := of_decide_eq_true (demand_eq_ok.mp hseconds)
    exact ⟨digits, c, perUnit, hstart, hne, hall, okOr_eq_ok.mp hunit, hlow, hhigh, rfl⟩
  · intro ⟨digits, unit, perUnit, hstart, hne, hall, hunit, hlow, hhigh, hr⟩
    obtain ⟨c, hc, hsize, hper⟩ := secondsPerUnit_cases hunit
    obtain rfl := List.singleton_injective hc
    have hamount : Nat.ofDigitChars 10 digits 0 < 2 ^ 64 := by
      have hle := Nat.le_mul_of_pos_right (Nat.ofDigitChars 10 digits 0) hper
      omega
    have hdigits : (!digits.isEmpty && digits.all Char.isDigit) = true := by
      simpa using And.intro hne hall
    refine bind_eq_ok.mpr ⟨_, okOr_eq_ok.mpr (Text.stripPrefix_iff.mpr hstart), ?_⟩
    refine bind_eq_ok.mpr ⟨_, okOr_eq_ok.mpr (split_last hsize), ?_⟩
    refine bind_eq_ok.mpr ⟨(), demand_eq_ok.mpr hdigits, ?_⟩
    refine bind_eq_ok.mpr ⟨_, okOr_eq_ok.mpr (parseU64_eq_some.mpr ⟨rfl, hamount⟩), ?_⟩
    refine bind_eq_ok.mpr ⟨_, okOr_eq_ok.mpr hunit, ?_⟩
    refine bind_eq_ok.mpr ⟨(), demand_eq_ok.mpr (decide_eq_true ⟨?_, hlow, hhigh⟩), ?_⟩
    · omega
    · rw [hr]
      rfl

/-- What is sent is read as the same range. -/
theorem relativeRange_sent {start : String} {r : String × String}
    (h : relativeRange start = .ok r) :
    ∃ seconds, Ago start seconds ∧ Ago r.1 seconds ∧ 1 ≤ seconds ∧ seconds ≤ 86400 ∧
      r.2 = "now" ∧ r.1.utf8ByteSize ≤ 64 ∧ relativeRange r.1 = .ok r := by
  obtain ⟨digits, unit, perUnit, hstart, hne, hall, hunit, hlow, hhigh, rfl⟩ :=
    relativeRange_eq_ok.mp h
  obtain ⟨c, hc, hsize, hper⟩ := secondsPerUnit_cases hunit
  obtain rfl := List.singleton_injective hc
  have hsent := toList_sentStart (Nat.ofDigitChars 10 digits 0) unit
  generalize hamount : Nat.ofDigitChars 10 digits 0 = amount at hlow hhigh hsent ⊢
  have hsentNe : Nat.toDigits 10 amount ≠ [] :=
    List.length_pos_iff.mp Nat.length_toDigits_pos
  have hsentAll : ∀ c ∈ Nat.toDigits 10 amount, c.isDigit = true :=
    fun c hc => Nat.isDigit_of_mem_toDigits (by decide) (by decide) hc
  have hsame : Nat.ofDigitChars 10 (Nat.toDigits 10 amount) 0 = amount :=
    Nat.ofDigitChars_ten_toDigits
  refine ⟨amount * perUnit, ⟨digits, unit, perUnit, hstart, hne, hall, hunit, by rw [hamount]⟩,
    ⟨_, unit, perUnit, hsent, hsentNe, hsentAll, hunit, by rw [hsame]⟩, hlow, hhigh, rfl, ?_, ?_⟩
  · have hle := Nat.le_mul_of_pos_right amount hper
    have hlength : (Nat.toDigits 10 amount).length ≤ 5 :=
      (Nat.length_toDigits_le_iff (by decide) (by decide)).mpr (by omega)
    have hdigits : (String.ofList (Nat.toDigits 10 amount)).utf8ByteSize =
        (Nat.toDigits 10 amount).length := size_of_digits hsentAll
    show (sentStart amount unit).utf8ByteSize ≤ 64
    have htext : toString amount = String.ofList (Nat.toDigits 10 amount) := rfl
    have hlast : (String.ofList [unit]).utf8ByteSize = 1 := by
      rw [Text.utf8ByteSize_cons, hsize]
      rfl
    have hnow : "now-".utf8ByteSize = 4 := rfl
    rw [sentStart, String.utf8ByteSize_append, String.utf8ByteSize_append, htext, hdigits, hlast]
    omega
  · refine relativeRange_eq_ok.mpr ⟨_, unit, perUnit, hsent, hsentNe, hsentAll, hunit, ?_⟩
    rw [hsame]
    exact ⟨hlow, hhigh, rfl⟩

section Law

variable {parse : String → Option DateTime} {start stop : Option String}

/-- What is said of an accepted range and of what is sent for it: it is the default one, or it ends
now and is sent as a text for the same time that is validated to itself, or it is sent as two
milliseconds that are a day apart at most. -/
inductive Within (parse : String → Option DateTime) :
    Option String → Option String → String × String → Prop
  | unset (hmeans : Ago defaultRenderFrom 21600)
      (hagain : validateRange parse (some defaultRenderFrom) (some defaultRenderTo) =
        .ok (defaultRenderFrom, defaultRenderTo)) :
      Within parse none none (defaultRenderFrom, defaultRenderTo)
  | relative {start sent : String} {seconds : Nat} (hstart : Ago start seconds)
      (hsent : Ago sent seconds) (hlow : 1 ≤ seconds) (hhigh : seconds ≤ 24 * 60 * 60)
      (hagain : validateRange parse (some sent) (some "now") = .ok (sent, "now")) :
      Within parse (some start) (some "now") (sent, "now")
  | absolute {start stop : String} {a b : DateTime} (hstop : stop ≠ "now")
      (ha : parse start = some a) (hb : parse stop = some b)
      (hlow : 0 ≤ b.timestampMillis - a.timestampMillis)
      (hhigh : b.timestampMillis - a.timestampMillis ≤ 24 * 60 * 60 * 1000) :
      Within parse (some start) (some stop)
        (toString a.timestampMillis, toString b.timestampMillis)

/-- The two texts are times that slip around a leap second. -/
def SlipsAt (parse : String → Option DateTime) (start stop : Option String) : Prop :=
  ∃ s t a b, start = some s ∧ stop = some t ∧ t ≠ "now" ∧ s.utf8ByteSize ≤ maxRenderRangeBytes ∧
    t.utf8ByteSize ≤ maxRenderRangeBytes ∧ parse s = some a ∧ parse t = some b ∧
    DateTime.Slips a b

/-- Ends that are short enough are relative, or absolute. -/
theorem validateRange_short {s t : String} (hs : s.utf8ByteSize ≤ maxRenderRangeBytes)
    (ht : t.utf8ByteSize ≤ maxRenderRangeBytes) :
    validateRange parse (some s) (some t) =
      if t = "now" then relativeRange s else absoluteRange parse s t := by
  unfold validateRange
  rw [if_neg]
  simp [hs, ht]

/-- The ranges that are accepted. -/
theorem validateRange_ok {r : String × String} (h : validateRange parse start stop = .ok r) :
    start = none ∧ stop = none ∧ r = (defaultRenderFrom, defaultRenderTo) ∨
    ∃ s t, start = some s ∧ stop = some t ∧ s.utf8ByteSize ≤ maxRenderRangeBytes ∧
      t.utf8ByteSize ≤ maxRenderRangeBytes ∧
      (t = "now" ∧ relativeRange s = .ok r ∨ t ≠ "now" ∧ absoluteRange parse s t = .ok r) := by
  unfold validateRange at h
  split_ifs at h with hlong
  simp only [Bool.or_eq_true, not_or] at hlong
  cases start with
  | none =>
      cases stop with
      | none => exact .inl ⟨rfl, rfl, (Except.ok.inj h).symm⟩
      | some t => cases h
  | some s =>
      cases stop with
      | none => cases h
      | some t =>
          have hs : s.utf8ByteSize ≤ maxRenderRangeBytes := by simpa using hlong.1
          have ht : t.utf8ByteSize ≤ maxRenderRangeBytes := by simpa using hlong.2
          refine .inr ⟨s, t, rfl, rfl, hs, ht, ?_⟩
          change (if t = "now" then relativeRange s else absoluteRange parse s t) = .ok r at h
          by_cases hnow : t = "now"
          · rw [if_pos hnow] at h
            exact .inl ⟨hnow, h⟩
          · rw [if_neg hnow] at h
            exact .inr ⟨hnow, h⟩

/-- The seconds of an hour. -/
theorem hour_seconds : secondsPerUnit (String.ofList ['h']) = some 3600 := by decide +kernel

/-- The range where none is given. -/
theorem default_ago : Ago defaultRenderFrom 21600 :=
  ⟨['6'], 'h', 3600, rfl, by simp, List.forall_mem_singleton.mpr rfl, hour_seconds, rfl⟩

/-- The default range is accepted as it is. -/
theorem default_again : validateRange parse (some defaultRenderFrom) (some defaultRenderTo) =
    .ok (defaultRenderFrom, defaultRenderTo) := by
  have hrelative : relativeRange defaultRenderFrom = .ok (sentStart 6 'h', "now") :=
    relativeRange_eq_ok.mpr ⟨['6'], 'h', 3600, rfl, by simp, List.forall_mem_singleton.mpr rfl,
      hour_seconds, by decide, by decide, rfl⟩
  rw [validateRange_short (by decide) (by decide), if_pos (by rfl), hrelative]
  rfl

/-- An absolute range is accepted in its order, up to the bound. -/
theorem absoluteRange_eq_ok {s t : String} {r : String × String} :
    absoluteRange parse s t = .ok r ↔ ∃ a b, parse s = some a ∧ parse t = some b ∧
      0 ≤ b.signedDurationSince a ∧ b.signedDurationSince a ≤ DateTime.nanosOfHours 24 ∧
      r = (toString a.timestampMillis, toString b.timestampMillis) := by
  unfold absoluteRange
  cases parse s with
  | none => simp
  | some a =>
      cases parse t with
      | none => simp
      | some b =>
          by_cases hbound : b.signedDurationSince a < 0 ∨
              b.signedDurationSince a > DateTime.nanosOfHours 24
          · simp only [if_pos hbound]
            constructor
            · intro h
              cases h
            · intro ⟨a', b', ha, hb, hlow, hhigh, _⟩
              obtain rfl := Option.some.inj ha
              obtain rfl := Option.some.inj hb
              omega
          · simp only [if_neg hbound]
            constructor
            · intro h
              exact ⟨a, b, rfl, rfl, by omega, by omega, (Except.ok.inj h).symm⟩
            · intro ⟨a', b', ha, hb, _, _, hr⟩
              obtain rfl := Option.some.inj ha
              obtain rfl := Option.some.inj hb
              rw [hr]

/-- Times that slip are sent as milliseconds that are out of their bounds. -/
theorem SlipsAt.sent (h : SlipsAt parse start stop) :
    ∃ r, validateRange parse start stop = .ok r ∧ ¬ Within parse start stop r := by
  obtain ⟨s, t, a, b, rfl, rfl, hnow, hs, ht, ha, hb, hslips⟩ := h
  obtain ⟨hlow, hhigh⟩ := hslips.within
  refine ⟨(toString a.timestampMillis, toString b.timestampMillis), ?_, ?_⟩
  · rw [validateRange_short hs ht, if_neg hnow]
    exact absoluteRange_eq_ok.mpr ⟨a, b, ha, hb, hlow, hhigh, rfl⟩
  · intro hwithin
    generalize (toString a.timestampMillis, toString b.timestampMillis) = r at hwithin
    cases hwithin with
    | relative => exact hnow rfl
    | absolute _ ha' hb' hlow' hhigh' =>
        obtain rfl := Option.some.inj (ha.symm.trans ha')
        obtain rfl := Option.some.inj (hb.symm.trans hb')
        exact (DateTime.millis_within_iff a b hlow hhigh).mp ⟨hlow', hhigh'⟩ hslips

/-- **A range stays within its bounds** exactly if it is not of two times that slip around a leap
second. -/
theorem range_within_iff (parse : String → Option DateTime) (start stop : Option String) :
    (∀ r, validateRange parse start stop = .ok r → Within parse start stop r) ↔
      ¬ SlipsAt parse start stop := by
  constructor
  · intro hwithin hslips
    obtain ⟨r, hok, hout⟩ := hslips.sent
    exact hout (hwithin r hok)
  · intro hslips r h
    rcases validateRange_ok h with ⟨rfl, rfl, rfl⟩ | ⟨s, t, rfl, rfl, hs, ht, hrange⟩
    · exact .unset default_ago default_again
    · rcases hrange with ⟨rfl, hrelative⟩ | ⟨hnow, habsolute⟩
      · obtain ⟨seconds, hmeans, hsent, hlow, hhigh, hnow, hshort, hagain⟩ :=
          relativeRange_sent hrelative
        obtain ⟨sent, last⟩ := r
        obtain rfl : last = "now" := hnow
        refine .relative hmeans hsent hlow hhigh ?_
        rw [validateRange_short hshort ht, if_pos rfl, hagain]
      · obtain ⟨a, b, ha, hb, hlow, hhigh, rfl⟩ := absoluteRange_eq_ok.mp habsolute
        have hkept : ¬ DateTime.Slips a b := fun hab =>
          hslips ⟨s, t, a, b, rfl, rfl, hnow, hs, ht, ha, hb, hab⟩
        obtain ⟨hlow', hhigh'⟩ := (DateTime.millis_within_iff a b hlow hhigh).mpr hkept
        exact .absolute hnow ha hb hlow' hhigh'

end Law

/-- The last tenth of a leap second at the end of a minute. -/
def leapSecond : DateTime where
  day := 20454
  secs := 36059
  frac := 1900000000
  secs_lt := by decide
  frac_lt := by decide
  leap := by decide

/-- The second after it. -/
def minuteAfter : DateTime where
  day := 20454
  secs := 36060
  frac := 0
  secs_lt := by decide
  frac_lt := by decide
  leap := by decide

/-- A parser that knows the two texts. -/
def sampleParse (text : String) : Option DateTime :=
  if text = "2026-01-01T10:00:60.9Z" then some leapSecond
  else if text = "2026-01-01T10:01:00Z" then some minuteAfter
  else none

/-- **The range that is sent ends before it starts.** -/
theorem leap_second_reversed : ¬ ∀ parse start stop r,
    validateRange parse start stop = .ok r → Within parse start stop r := by
  intro h
  have hslips : SlipsAt sampleParse (some "2026-01-01T10:00:60.9Z") (some "2026-01-01T10:01:00Z") :=
    ⟨_, _, leapSecond, minuteAfter, rfl, rfl, by decide, by decide, by decide, if_pos rfl,
      (if_neg (by decide)).trans (if_pos rfl), by decide⟩
  obtain ⟨r, hok, hout⟩ := hslips.sent
  exact hout (h _ _ _ r hok)

end Grafana
