import Mathlib.Tactic.SplitIfs
import Mathlib.Tactic.Tauto

/-!
# Times with leap seconds

A time of chrono in UTC.  A leap second is the second before it with a longer fraction, so a time
has no number of its own for it: the difference of two times counts a leap second that lies between
them, their timestamps do not.

* `millis_within_iff`: a difference that is not negative and at most a day is so in milliseconds
  too, unless the two times are around a leap second in one of two ways (`Slips`).
-/

namespace Chrono

/-- A day, a second of it, and nanoseconds, with a second more of them in a leap second, which can
only end a minute. -/
structure DateTime where
  day : Int
  secs : Nat
  frac : Nat
  secs_lt : secs < 86400
  frac_lt : frac < 2000000000
  leap : 1000000000 ≤ frac → secs % 60 = 59

namespace DateTime

/-- The milliseconds of the fraction. -/
def subsecMillis (time : DateTime) : Nat := time.frac / 1000000

/-- `DateTime::timestamp`. -/
def timestamp (time : DateTime) : Int := time.day * 86400 + time.secs

/-- `DateTime::timestamp_millis`. -/
def timestampMillis (time : DateTime) : Int := time.timestamp * 1000 + time.subsecMillis

/-- The nanoseconds from another time to this one. -/
def signedDurationSince (time rhs : DateTime) : Int :=
  -- a leap second of the earlier one of two seconds of the day is still to be counted
  let counted : Int :=
    if rhs.secs < time.secs ∧ 1000000000 ≤ rhs.frac then 1
    else if time.secs < rhs.secs ∧ 1000000000 ≤ time.frac then -1
    else 0
  ((time.day - rhs.day) * 86400 + (time.secs - rhs.secs) + counted) * 1000000000 +
    (time.frac - rhs.frac)

/-- Hours in nanoseconds. -/
def nanosOfHours (hours : Int) : Int := hours * 3600 * 1000000000

/-- Two times around a leap second whose milliseconds do not show it: the second one is in the
second after a leap second that the first one is in, or it is in a leap second of the next day and
the first one in the second after. -/
def Slips (start stop : DateTime) : Prop :=
  stop.day = start.day ∧ stop.secs = start.secs + 1 ∧
      stop.subsecMillis + 1000 < start.subsecMillis ∨
    stop.day = start.day + 1 ∧ start.secs = stop.secs + 1 ∧
      start.subsecMillis + 1000 < stop.subsecMillis

/-- Whether the difference slips is decided by the two seconds. -/
instance (start stop : DateTime) : Decidable (Slips start stop) :=
  inferInstanceAs (Decidable (_ ∨ _))

section Differences

variable (start stop : DateTime)

/-- Without a leap second to count, milliseconds keep both bounds. -/
theorem millis_within_of_uncounted
    (hlow : 0 ≤ ((stop.day - start.day) * 86400 + (stop.secs - start.secs)) * 1000000000 +
      ((stop.frac : Int) - start.frac))
    (hhigh : ((stop.day - start.day) * 86400 + (stop.secs - start.secs)) * 1000000000 +
      ((stop.frac : Int) - start.frac) ≤ nanosOfHours 24) :
    0 ≤ stop.timestampMillis - start.timestampMillis ∧
      stop.timestampMillis - start.timestampMillis ≤ 86400000 := by
  unfold timestampMillis timestamp subsecMillis
  unfold nanosOfHours at hhigh
  omega

/-- After a leap second that is counted, they are kept unless the next second is too early. -/
theorem millis_within_of_leap_start (hsecs : start.secs < stop.secs)
    (hleap : 1000000000 ≤ start.frac)
    (hlow : 0 ≤ ((stop.day - start.day) * 86400 + (stop.secs - start.secs) + 1) * 1000000000 +
      ((stop.frac : Int) - start.frac))
    (hhigh : ((stop.day - start.day) * 86400 + (stop.secs - start.secs) + 1) * 1000000000 +
      ((stop.frac : Int) - start.frac) ≤ nanosOfHours 24) :
    (0 ≤ stop.timestampMillis - start.timestampMillis ∧
      stop.timestampMillis - start.timestampMillis ≤ 86400000) ↔ ¬ Slips start stop := by
  have hminute := start.leap hleap
  have hstart := start.frac_lt
  have hstop := stop.frac_lt
  have hsecond := stop.secs_lt
  have hday : stop.day = start.day := by
    unfold nanosOfHours at hhigh
    omega
  unfold Slips timestampMillis timestamp subsecMillis
  omega

/-- A leap second at the stop leaves the whole milliseconds within one of the difference. -/
theorem millis_within_of_leap_stop (hsecs : stop.secs < start.secs)
    (hleap : 1000000000 ≤ stop.frac)
    (hlow : 0 ≤ ((stop.day - start.day) * 86400 + (stop.secs - start.secs) - 1) * 1000000000 +
      ((stop.frac : Int) - start.frac))
    (hhigh : ((stop.day - start.day) * 86400 + (stop.secs - start.secs) - 1) * 1000000000 +
      ((stop.frac : Int) - start.frac) ≤ nanosOfHours 24) :
    (0 ≤ stop.timestampMillis - start.timestampMillis ∧
      stop.timestampMillis - start.timestampMillis ≤ 86400000) ↔ ¬ Slips start stop := by
  have hminute := stop.leap hleap
  have hstart := start.frac_lt
  have hstop := stop.frac_lt
  have hsecond := start.secs_lt
  have hday : stop.day = start.day + 1 := by
    unfold nanosOfHours at hhigh
    omega
  unfold Slips timestampMillis timestamp subsecMillis
  omega

/-- Times that slip are around a leap second that is counted. -/
theorem Slips.counted {start stop : DateTime} (h : Slips start stop) :
    start.secs < stop.secs ∧ 1000000000 ≤ start.frac ∨
      stop.secs < start.secs ∧ 1000000000 ≤ stop.frac := by
  unfold Slips subsecMillis at h
  omega

/-- **Milliseconds keep the bounds of a day** unless the times slip. -/
theorem millis_within_iff (hlow : 0 ≤ stop.signedDurationSince start)
    (hhigh : stop.signedDurationSince start ≤ nanosOfHours 24) :
    (0 ≤ stop.timestampMillis - start.timestampMillis ∧
      stop.timestampMillis - start.timestampMillis ≤ 86400000) ↔ ¬ Slips start stop := by
  unfold signedDurationSince at hlow hhigh
  by_cases hstart : start.secs < stop.secs ∧ 1000000000 ≤ start.frac
  · rw [if_pos hstart] at hlow hhigh
    exact millis_within_of_leap_start start stop hstart.1 hstart.2 hlow hhigh
  · rw [if_neg hstart] at hlow hhigh
    by_cases hstop : stop.secs < start.secs ∧ 1000000000 ≤ stop.frac
    · rw [if_pos hstop] at hlow hhigh
      exact millis_within_of_leap_stop start stop hstop.1 hstop.2 hlow hhigh
    · rw [if_neg hstop] at hlow hhigh
      dsimp only at hlow hhigh
      rw [Int.add_zero] at hlow hhigh
      have hslips : ¬ Slips start stop := fun h => h.counted.elim hstart hstop
      have hwithin := millis_within_of_uncounted start stop hlow hhigh
      exact ⟨fun _ => hslips, fun _ => hwithin⟩

/-- Times that slip are within a day. -/
theorem Slips.within {start stop : DateTime} (h : Slips start stop) :
    0 ≤ stop.signedDurationSince start ∧ stop.signedDurationSince start ≤ nanosOfHours 24 := by
  have hstart := start.frac_lt
  have hstop := stop.frac_lt
  unfold signedDurationSince nanosOfHours
  unfold Slips subsecMillis at h
  rcases h with ⟨hday, hsecs, hmillis⟩ | ⟨hday, hsecs, hmillis⟩
  · rw [if_pos (by omega)]
    dsimp only
    omega
  · rw [if_neg (by omega), if_pos (by omega)]
    dsimp only
    omega

end Differences

end DateTime

end Chrono
