import HomelabMcp.GrafanaRender
import HomelabMcp.TextEncoding

/-!
# PromQL steps and ranges

The step of a range query is read by a scanner over the bytes of its text.  The scanner slices the
text, which panics inside a character; the model gives no result then.

* `duration_iff`: the scanner never panics, and it reads exactly the durations of the grammar, at
  their value.
* `promql_law`: so it is, and a range query that is accepted is a day long at most and has at most
  11000 points.

The scanner is followed on the encoding of a list of characters: what it takes are characters of
one byte each, so it stands between two characters always.
-/

namespace Grafana

open Chrono (DateTime)
open Interaction
open Text (Bytes)

/-- `u8::is_ascii_digit`. -/
def isDigitByte (b : UInt8) : Bool := 48 ≤ b.toNat && b.toNat ≤ 57

/-- `is_char_boundary` at the start of what is left. -/
def isCharBoundary (rest : Bytes) : Bool := rest.head?.all fun b => b.toNat < 128 || 192 ≤ b.toNat

/-- The nanoseconds, the rank and the length of a unit of one letter. -/
def byteUnit (b : UInt8) : Option (Nat × Nat × Nat) :=
  if b = 115 then some (1000000000, 1, 1)
  else if b = 109 then some (60 * 1000000000, 2, 1)
  else if b = 104 then some (60 * 60 * 1000000000, 3, 1)
  else if b = 100 then some (24 * 60 * 60 * 1000000000, 4, 1)
  else if b = 119 then some (7 * 24 * 60 * 60 * 1000000000, 5, 1)
  else if b = 121 then some (365 * 24 * 60 * 60 * 1000000000, 6, 1)
  else none

/-- The unit that comes next. -/
def nextUnit (rest : Bytes) : Option (Nat × Nat × Nat) :=
  if (Text.ascii "ms").isPrefixOf rest then some (1000000, 0, 2)
  else rest.head?.bind byteUnit

/-- The loop of the scanner, from the bytes that are left.  The outer `none` is a panic. -/
def durationFrom (rest : Bytes) (previousRank total : Nat) : Option (Option Nat) :=
  if rest = [] then some (if total > 0 then some total else none)
  else
    let digits := rest.takeWhile isDigitByte
    let after := rest.dropWhile isDigitByte
    if _hdigits : digits = [] then some none
    else if !isCharBoundary rest || !isCharBoundary after then none
    else match parseU64 (digits.map fun b => Char.ofNat b.toNat) with
      | none => some none
      | some amount =>
          match nextUnit after with
          | none => some none
          | some (nanos, rank, length) =>
              if rank ≥ previousRank then some none
              else if amount * nanos ≥ 2 ^ 64 then some none
              else if total + amount * nanos ≥ 2 ^ 64 then some none
              else durationFrom (after.drop length) rank (total + amount * nanos)
termination_by rest.length
decreasing_by
  have hsplit := congrArg List.length
    (List.takeWhile_append_dropWhile (p := isDigitByte) (l := rest))
  have hpos : 0 < (rest.takeWhile isDigitByte).length := List.length_pos_iff.mpr _hdigits
  rw [List.length_append] at hsplit
  rw [List.length_drop]
  show (rest.dropWhile isDigitByte).length - _ < _
  omega

/-- `prometheus_duration_nanos`, a panic of the scanner as `none`. -/
def prometheusDurationNanos (value : String) : Option (Option Nat) :=
  durationFrom (Text.encode value) 255 0

/-- The units of a duration. -/
inductive DurationUnit where
  | ms
  | s
  | m
  | h
  | d
  | w
  | y
  deriving DecidableEq

namespace DurationUnit

/-- How a unit is written. -/
def name : DurationUnit → List Char
  | ms => ['m', 's']
  | s => ['s']
  | m => ['m']
  | h => ['h']
  | d => ['d']
  | w => ['w']
  | y => ['y']

/-- How long it is. -/
def nanos : DurationUnit → Nat
  | ms => 1000000
  | s => 1000000000
  | m => 60 * 1000000000
  | h => 60 * 60 * 1000000000
  | d => 24 * 60 * 60 * 1000000000
  | w => 7 * 24 * 60 * 60 * 1000000000
  | y => 365 * 24 * 60 * 60 * 1000000000

/-- Larger for a longer unit. -/
def rank : DurationUnit → Nat
  | ms => 0
  | s => 1
  | m => 2
  | h => 3
  | d => 4
  | w => 5
  | y => 6

/-- None is empty. -/
theorem nanos_pos (unit : DurationUnit) : 1 ≤ unit.nanos := by
  cases unit <;> decide

end DurationUnit

/-- An amount of a unit. -/
structure DurationPart where
  digits : List Char
  unit : DurationUnit
  digits_ne : digits ≠ []
  all_digits : ∀ c ∈ digits, c.isDigit = true

namespace DurationPart

/-- The number of a part. -/
def amount (part : DurationPart) : Nat := Nat.ofDigitChars 10 part.digits 0

/-- How long a part is. -/
def nanos (part : DurationPart) : Nat := part.amount * part.unit.nanos

/-- How it is written. -/
def text (part : DurationPart) : List Char := part.digits ++ part.unit.name

/-- A part that fits its type. -/
def Fits (part : DurationPart) : Prop := part.amount < 2 ^ 64 ∧ part.nanos < 2 ^ 64

/-- A part is at least as long as its number. -/
theorem amount_le_nanos (part : DurationPart) : part.amount ≤ part.nanos :=
  Nat.le_mul_of_pos_right _ part.unit.nanos_pos

end DurationPart

/-- Units become shorter from part to part. -/
abbrev Descending (parts : List DurationPart) : Prop :=
  parts.Pairwise fun a b => b.unit.rank < a.unit.rank

/-- How long a duration is. -/
def totalNanos (parts : List DurationPart) : Nat := (parts.map DurationPart.nanos).sum

/-- A text of the grammar, with its value. -/
def IsDuration (text : String) (n : Nat) : Prop :=
  ∃ parts : List DurationPart, parts ≠ [] ∧ Descending parts ∧ (∀ part ∈ parts, part.Fits) ∧
    text.toList = parts.flatMap DurationPart.text ∧ totalNanos parts = n ∧ 0 < n ∧ n < 2 ^ 64

/-- The bytes of characters. -/
abbrev encoded (cs : List Char) : Bytes := cs.flatMap Text.encodeChar

/-- A character beyond ASCII begins with a high byte. -/
theorem encodeChar_high {c : Char} (h : 128 ≤ c.toNat) :
    ∃ b rest, Text.encodeChar c = b :: rest ∧ 192 ≤ b.toNat := by
  have hvalid := Text.toNat_valid c
  simp only [Text.encodeChar]
  rw [if_neg (by omega)]
  split_ifs with htwo hthree
  · refine ⟨_, _, rfl, ?_⟩
    rw [Text.toNat_toUInt8 (by omega)]
    omega
  · refine ⟨_, _, rfl, ?_⟩
    rw [Text.toNat_toUInt8 (by omega)]
    omega
  · refine ⟨_, _, rfl, ?_⟩
    rw [Text.toNat_toUInt8 (by omega)]
    omega

/-- The digits by their codes. -/
theorem isDigit_iff {c : Char} : c.isDigit = true ↔ 48 ≤ c.toNat ∧ c.toNat ≤ 57 := by
  rw [Char.isDigit, Bool.and_eq_true, decide_eq_true_eq, decide_eq_true_eq]
  exact Iff.rfl

/-- A byte that is read is a character of its own, or it starts a longer one. -/
theorem encodeChar_cases (c : Char) :
    (c.toNat < 128 ∧ Text.encodeChar c = [c.toNat.toUInt8] ∧
      isDigitByte c.toNat.toUInt8 = c.isDigit) ∨
    (c.isDigit = false ∧ ∃ b rest, Text.encodeChar c = b :: rest ∧ 192 ≤ b.toNat ∧
      isDigitByte b = false) := by
  by_cases h : c.toNat < 128
  · refine .inl ⟨h, Text.encodeChar_ascii h, ?_⟩
    rw [Bool.eq_iff_iff, isDigit_iff, isDigitByte, Text.toNat_toUInt8 (by omega)]
    simp
  · obtain ⟨b, rest, hencode, hb⟩ := encodeChar_high (Nat.le_of_not_lt h)
    refine .inr ⟨?_, b, rest, hencode, hb, ?_⟩
    · by_contra hdigit
      have hbounds := isDigit_iff.mp (Bool.eq_true_of_not_eq_false hdigit)
      omega
    · by_contra hdigit
      have hbounds := Bool.eq_true_of_not_eq_false hdigit
      simp only [isDigitByte, Bool.and_eq_true, decide_eq_true_eq] at hbounds
      omega

/-- The digits at the start. -/
theorem digits_encoded (cs : List Char) :
    ((encoded cs).takeWhile isDigitByte).map (fun b => Char.ofNat b.toNat) =
        cs.takeWhile Char.isDigit ∧
      (encoded cs).dropWhile isDigitByte = encoded (cs.dropWhile Char.isDigit) := by
  induction cs with
  | nil => exact ⟨rfl, rfl⟩
  | cons c cs ih =>
      rcases encodeChar_cases c with ⟨hascii, hencode, hdigit⟩ | ⟨hc, b, rest, hencode, -, hb⟩
      · have hcons : encoded (c :: cs) = c.toNat.toUInt8 :: encoded cs := by
          rw [encoded, List.flatMap_cons, hencode]
          rfl
        have hchar : Char.ofNat c.toNat.toUInt8.toNat = c := by
          rw [Text.toNat_toUInt8 (by omega), Char.ofNat_toNat]
        rw [hcons]
        by_cases hc : c.isDigit = true
        · rw [List.takeWhile_cons_of_pos (hdigit.trans hc), List.takeWhile_cons_of_pos hc,
            List.dropWhile_cons_of_pos (hdigit.trans hc), List.dropWhile_cons_of_pos hc,
            List.map_cons, hchar, ih.1, ih.2]
          exact ⟨rfl, rfl⟩
        · have hbyte : ¬ isDigitByte c.toNat.toUInt8 = true := by rwa [hdigit]
          rw [List.takeWhile_cons_of_neg hbyte, List.takeWhile_cons_of_neg hc,
            List.dropWhile_cons_of_neg hbyte, List.dropWhile_cons_of_neg hc, hcons]
          exact ⟨rfl, rfl⟩
      · have hcons : encoded (c :: cs) = b :: (rest ++ encoded cs) := by
          rw [encoded, List.flatMap_cons, hencode]
          rfl
        rw [List.takeWhile_cons_of_neg (by simp [hc]), List.dropWhile_cons_of_neg (by simp [hc]),
          hcons, List.takeWhile_cons_of_neg (by simp [hb]),
          List.dropWhile_cons_of_neg (by simp [hb])]
        exact ⟨rfl, rfl⟩

/-- Between two characters there is a boundary. -/
theorem isCharBoundary_encoded (cs : List Char) : isCharBoundary (encoded cs) = true := by
  cases cs with
  | nil => rfl
  | cons c cs =>
      rcases encodeChar_cases c with ⟨hascii, hencode, -⟩ | ⟨-, b, rest, hencode, hb, -⟩
      · rw [encoded, List.flatMap_cons, hencode]
        simp [isCharBoundary]
        omega
      · rw [encoded, List.flatMap_cons, hencode]
        simp [isCharBoundary]
        omega

/-- The unit of a single letter. -/
def charUnit (c : Char) : Option DurationUnit :=
  if c = 's' then some .s
  else if c = 'm' then some .m
  else if c = 'h' then some .h
  else if c = 'd' then some .d
  else if c = 'w' then some .w
  else if c = 'y' then some .y
  else none

/-- The unit at the start, with what follows it. -/
def unitAt : List Char → Option (DurationUnit × List Char)
  | 'm' :: 's' :: rest => some (.ms, rest)
  | c :: rest => (charUnit c).map fun unit => (unit, rest)
  | [] => none

/-- An ASCII byte tells its character. -/
theorem byte_eq_iff {c d : Char} (hc : c.toNat < 128) (hd : d.toNat < 128) :
    c.toNat.toUInt8 = d.toNat.toUInt8 ↔ c = d := by
  constructor
  · intro h
    have hnat := congrArg UInt8.toNat h
    rw [Text.toNat_toUInt8 (by omega), Text.toNat_toUInt8 (by omega)] at hnat
    exact Char.toNat_inj.mp hnat
  · intro h
    rw [h]

/-- The scanner reads it from its byte. -/
theorem byteUnit_ascii {c : Char} (hc : c.toNat < 128) : byteUnit c.toNat.toUInt8 =
    (charUnit c).map fun unit => (unit.nanos, unit.rank, unit.name.length) := by
  have hs : c.toNat.toUInt8 = 115 ↔ c = 's' := byte_eq_iff hc (show 's'.toNat < 128 by decide)
  have hm : c.toNat.toUInt8 = 109 ↔ c = 'm' := byte_eq_iff hc (show 'm'.toNat < 128 by decide)
  have hh : c.toNat.toUInt8 = 104 ↔ c = 'h' := byte_eq_iff hc (show 'h'.toNat < 128 by decide)
  have hd : c.toNat.toUInt8 = 100 ↔ c = 'd' := byte_eq_iff hc (show 'd'.toNat < 128 by decide)
  have hw : c.toNat.toUInt8 = 119 ↔ c = 'w' := byte_eq_iff hc (show 'w'.toNat < 128 by decide)
  have hy : c.toNat.toUInt8 = 121 ↔ c = 'y' := byte_eq_iff hc (show 'y'.toNat < 128 by decide)
  unfold byteUnit charUnit
  simp only [hs, hm, hh, hd, hw, hy]
  split_ifs <;> rfl

/-- A high byte is no unit. -/
theorem byteUnit_high {b : UInt8} (hb : 192 ≤ b.toNat) : byteUnit b = none := by
  have hne : ∀ n : UInt8, n.toNat < 192 → b ≠ n := by
    rintro n hn rfl
    omega
  unfold byteUnit
  rw [if_neg (hne 115 (by decide)), if_neg (hne 109 (by decide)), if_neg (hne 104 (by decide)),
    if_neg (hne 100 (by decide)), if_neg (hne 119 (by decide)), if_neg (hne 121 (by decide))]

/-- Nor is its character. -/
theorem charUnit_high {c : Char} (hc : 128 ≤ c.toNat) : charUnit c = none := by
  have hne : ∀ d : Char, d.toNat < 128 → c ≠ d := by
    rintro d hd rfl
    omega
  unfold charUnit
  rw [if_neg (hne 's' (by decide)), if_neg (hne 'm' (by decide)), if_neg (hne 'h' (by decide)),
    if_neg (hne 'd' (by decide)), if_neg (hne 'w' (by decide)), if_neg (hne 'y' (by decide))]

/-- The letter is the unit's name. -/
theorem charUnit_name {c : Char} {unit : DurationUnit} (h : charUnit c = some unit) :
    unit.name = [c] := by
  unfold charUnit at h
  split_ifs at h with hs hm hh hd hw hy
  all_goals
    obtain rfl := Option.some.inj h
    subst c
    rfl

/-- A unit stands at its letter, milliseconds apart. -/
theorem unitAt_cons {c : Char} {rest : List Char} (h : ¬ (c = 'm' ∧ rest.head? = some 's')) :
    unitAt (c :: rest) = (charUnit c).map fun unit => (unit, rest) := by
  unfold unitAt
  split
  · next heq =>
      obtain ⟨rfl, rfl⟩ := List.cons.inj heq
      exact absurd ⟨rfl, rfl⟩ h
  · next heq =>
      obtain ⟨rfl, rfl⟩ := List.cons.inj heq
      rfl
  · next heq => cases heq

/-- A byte below 128 at the start of an encoding is its first character. -/
theorem head_encoded {cs : List Char} {b : UInt8} {bs : Bytes} (h : encoded cs = b :: bs)
    (hb : b.toNat < 128) :
    ∃ c rest, cs = c :: rest ∧ c.toNat < 128 ∧ b = c.toNat.toUInt8 ∧ bs = encoded rest := by
  cases cs with
  | nil => cases h
  | cons c rest =>
      rw [encoded, List.flatMap_cons] at h
      rcases encodeChar_cases c with ⟨hascii, hencode, -⟩ | ⟨-, b', rest', hencode, hb', -⟩
      · rw [hencode] at h
        obtain ⟨rfl, rfl⟩ := List.cons.inj h
        exact ⟨c, rest, rfl, hascii, rfl, rfl⟩
      · rw [hencode] at h
        obtain ⟨rfl, -⟩ := List.cons.inj h
        omega

/-- The two letters are read before the one. -/
theorem ms_prefix_iff (cs : List Char) :
    (Text.ascii "ms").isPrefixOf (encoded cs) = true ↔ ∃ rest, cs = 'm' :: 's' :: rest := by
  rw [List.isPrefixOf_iff_prefix]
  constructor
  · intro ⟨bs, hbs⟩
    obtain ⟨c, rest, rfl, hc, hm, hrest⟩ :=
      head_encoded (show encoded cs = 109 :: 115 :: bs from hbs.symm) (by decide)
    obtain ⟨d, rest, rfl, hd, hs, -⟩ := head_encoded hrest.symm (by decide)
    obtain rfl : 'm' = c := (byte_eq_iff (by decide) hc).mp hm
    obtain rfl : 's' = d := (byte_eq_iff (by decide) hd).mp hs
    exact ⟨rest, rfl⟩
  · intro ⟨rest, hcs⟩
    exact ⟨encoded rest, by rw [hcs]; rfl⟩

/-- The unit on characters is that on bytes. -/
theorem nextUnit_encoded (cs : List Char) :
    nextUnit (encoded cs) =
        (unitAt cs).map (fun found => (found.1.nanos, found.1.rank, found.1.name.length)) ∧
      ∀ unit rest, unitAt cs = some (unit, rest) → cs = unit.name ++ rest ∧
        (encoded cs).drop unit.name.length = encoded rest := by
  unfold nextUnit
  by_cases hms : ∃ rest, cs = 'm' :: 's' :: rest
  · obtain ⟨rest, rfl⟩ := hms
    rw [if_pos ((ms_prefix_iff _).mpr ⟨rest, rfl⟩)]
    refine ⟨rfl, fun unit rest' h => ?_⟩
    obtain ⟨rfl, rfl⟩ := Prod.mk.inj (Option.some.inj h)
    exact ⟨rfl, rfl⟩
  · rw [if_neg (mt (ms_prefix_iff cs).mp hms)]
    cases cs with
    | nil => exact ⟨rfl, fun unit rest h => nomatch h⟩
    | cons c rest =>
        have hunit : unitAt (c :: rest) = (charUnit c).map fun unit => (unit, rest) := by
          apply unitAt_cons
          intro ⟨hc, hrest⟩
          obtain ⟨rest', rfl⟩ := List.head?_eq_some_iff.mp hrest
          exact hms ⟨rest', by rw [hc]⟩
        rw [hunit, encoded, List.flatMap_cons]
        rcases encodeChar_cases c with ⟨hascii, hencode, -⟩ | ⟨-, b, bs, hencode, hb, -⟩
        · rw [hencode]
          constructor
          · show byteUnit c.toNat.toUInt8 = _
            rw [byteUnit_ascii hascii, Option.map_map]
            rfl
          · intro unit rest' h
            obtain ⟨unit', hname, heq⟩ := Option.map_eq_some_iff.mp h
            obtain ⟨rfl, rfl⟩ := Prod.mk.inj heq
            rw [charUnit_name hname]
            exact ⟨rfl, rfl⟩
        · have hnone : charUnit c = none := by
            apply charUnit_high
            by_contra hascii
            rw [Text.encodeChar_ascii (Nat.lt_of_not_le hascii)] at hencode
            obtain ⟨rfl, -⟩ := List.cons.inj hencode
            rw [Text.toNat_toUInt8 (by omega)] at hb
            omega
          rw [hencode, hnone]
          exact ⟨byteUnit_high hb, fun unit rest' h => nomatch h⟩

/-- No characters, no bytes. -/
theorem encoded_eq_nil {cs : List Char} : encoded cs = [] ↔ cs = [] := by
  cases cs with
  | nil => simp
  | cons c cs =>
      rcases encodeChar_cases c with ⟨-, hencode, -⟩ | ⟨-, b, bs, hencode, -⟩
      · simp [encoded, hencode]
      · simp [encoded, hencode]

/-- **One step of the scanner**, on characters: it never panics. -/
theorem durationFrom_encoded (cs : List Char) (previousRank total : Nat) :
    durationFrom (encoded cs) previousRank total =
      if cs = [] then some (if total > 0 then some total else none)
      else if cs.takeWhile Char.isDigit = [] then some none
      else match parseU64 (cs.takeWhile Char.isDigit), unitAt (cs.dropWhile Char.isDigit) with
        | some amount, some (unit, rest) =>
            if unit.rank ≥ previousRank then some none
            else if amount * unit.nanos ≥ 2 ^ 64 then some none
            else if total + amount * unit.nanos ≥ 2 ^ 64 then some none
            else durationFrom (encoded rest) unit.rank (total + amount * unit.nanos)
        | _, _ => some none := by
  obtain ⟨hdigits, hafter⟩ := digits_encoded cs
  obtain ⟨hunit, hrest⟩ := nextUnit_encoded (cs.dropWhile Char.isDigit)
  have hnone : (encoded cs).takeWhile isDigitByte = [] ↔ cs.takeWhile Char.isDigit = [] := by
    rw [← hdigits, List.map_eq_nil_iff]
  have hboundary : (!isCharBoundary (encoded cs) ||
      !isCharBoundary (encoded (cs.dropWhile Char.isDigit))) = false := by
    rw [isCharBoundary_encoded, isCharBoundary_encoded]
    rfl
  rw [durationFrom]
  simp only [encoded_eq_nil, hnone, hafter, hdigits, hboundary, hunit, Bool.false_eq_true, if_false,
    dite_eq_ite]
  by_cases hcs : cs = []
  · rw [if_pos hcs, if_pos hcs]
  by_cases hno : cs.takeWhile Char.isDigit = []
  · rw [if_neg hcs, if_neg hcs, if_pos hno, if_pos hno]
  rw [if_neg hcs, if_neg hcs, if_neg hno, if_neg hno]
  cases parseU64 (cs.takeWhile Char.isDigit) with
  | none => rfl
  | some amount =>
      cases hfound : unitAt (cs.dropWhile Char.isDigit) with
      | none => rfl
      | some found =>
          obtain ⟨unit, rest⟩ := found
          have hdrop := (hrest unit rest hfound).2
          simp only [Option.map_some, hdrop]

/-- **What the scanner finds is a text of the grammar**, from the characters that are left. -/
theorem durationFrom_sound (cs : List Char) (previousRank total : Nat) (htotal : total < 2 ^ 64) :
    ∃ r, durationFrom (encoded cs) previousRank total = some r ∧ ∀ n, r = some n →
      ∃ parts : List DurationPart, Descending parts ∧
        (∀ part ∈ parts, part.unit.rank < previousRank ∧ part.Fits) ∧
        cs = parts.flatMap DurationPart.text ∧ total + totalNanos parts = n ∧ 0 < n ∧
        n < 2 ^ 64 := by
  -- a part is not empty, so what is left is shorter
  induction hlength : cs.length using Nat.strong_induction_on
    generalizing cs previousRank total with
  | _ length ih =>
      rw [durationFrom_encoded]
      by_cases hcs : cs = []
      · rw [if_pos hcs]
        refine ⟨_, rfl, fun n hn => ?_⟩
        split_ifs at hn with hpos
        obtain rfl := Option.some.inj hn
        exact ⟨[], .nil, List.forall_mem_nil _, hcs, rfl, hpos, htotal⟩
      by_cases hno : cs.takeWhile Char.isDigit = []
      · rw [if_neg hcs, if_pos hno]
        exact ⟨none, rfl, fun n h => nomatch h⟩
      rw [if_neg hcs, if_neg hno]
      cases hamount : parseU64 (cs.takeWhile Char.isDigit) with
      | none => exact ⟨none, rfl, fun n h => nomatch h⟩
      | some amount =>
          cases hfound : unitAt (cs.dropWhile Char.isDigit) with
          | none => exact ⟨none, rfl, fun n h => nomatch h⟩
          | some found =>
              obtain ⟨unit, rest⟩ := found
              dsimp only
              split_ifs with hrank hproduct hsum
              · exact ⟨none, rfl, fun n h => nomatch h⟩
              · exact ⟨none, rfl, fun n h => nomatch h⟩
              · exact ⟨none, rfl, fun n h => nomatch h⟩
              · obtain ⟨hvalue, hfits⟩ := parseU64_eq_some.mp hamount
                have htext : cs = cs.takeWhile Char.isDigit ++ (unit.name ++ rest) := by
                  rw [← ((nextUnit_encoded _).2 unit rest hfound).1,
                    List.takeWhile_append_dropWhile]
                have hshorter : rest.length < length := by
                  have htake := List.length_pos_iff.mpr hno
                  have hsplit := congrArg List.length htext
                  rw [List.length_append, List.length_append] at hsplit
                  omega
                obtain ⟨r, hr, hsound⟩ := ih _ hshorter rest unit.rank
                  (total + amount * unit.nanos) (by omega) rfl
                refine ⟨r, hr, fun n hn => ?_⟩
                obtain ⟨parts, hdescending, hparts, hrest, htotalNanos, hpos, hlast⟩ := hsound n hn
                let part : DurationPart :=
                  ⟨cs.takeWhile Char.isDigit, unit, hno, fun c hc => List.mem_takeWhile_imp hc⟩
                have hpart : part.amount = amount := hvalue
                have hnanos : part.nanos = amount * unit.nanos := by rw [DurationPart.nanos, hpart]
                have hpartFits : part.Fits := by
                  constructor
                  · rw [hpart]
                    exact hfits
                  · rw [hnanos]
                    exact Nat.lt_of_not_le hproduct
                refine ⟨part :: parts, ?_, ?_, ?_, ?_, hpos, hlast⟩
                · exact .cons (fun next hnext => (hparts next hnext).1) hdescending
                · intro next hnext
                  rcases List.mem_cons.mp hnext with rfl | hnext
                  · exact ⟨Nat.lt_of_not_le hrank, hpartFits⟩
                  · obtain ⟨hnextRank, hnextFits⟩ := hparts next hnext
                    exact ⟨by omega, hnextFits⟩
                · rw [List.flatMap_cons, ← hrest, DurationPart.text, List.append_assoc]
                  exact htext
                · rw [totalNanos, List.map_cons, List.sum_cons, hnanos, ← Nat.add_assoc]
                  exact htotalNanos

/-- What a text of the grammar goes on with after a unit is no letter. -/
theorem unitAt_name (unit : DurationUnit) (parts : List DurationPart) :
    unitAt (unit.name ++ parts.flatMap DurationPart.text) =
      some (unit, parts.flatMap DurationPart.text) := by
  have hnext : (parts.flatMap DurationPart.text).head? ≠ some 's' := by
    cases parts with
    | nil => simp
    | cons part parts =>
        obtain ⟨c, digits, hdigits⟩ := List.exists_cons_of_ne_nil part.digits_ne
        have hc := part.all_digits c (by rw [hdigits]; exact List.mem_cons_self)
        rw [List.flatMap_cons, DurationPart.text, hdigits]
        intro h
        obtain rfl : c = 's' := Option.some.inj h
        exact absurd hc (by decide)
  cases unit with
  | ms => rfl
  | m => exact unitAt_cons fun h => hnext h.2
  | _ => rfl

/-- The digits of a part end at its unit. -/
theorem digits_of_part (part : DurationPart) (rest : List Char) :
    (part.text ++ rest).takeWhile Char.isDigit = part.digits ∧
      (part.text ++ rest).dropWhile Char.isDigit = part.unit.name ++ rest := by
  have hname : ∃ c name, part.unit.name = c :: name ∧ c.isDigit = false := by
    cases part.unit <;> exact ⟨_, _, rfl, by decide⟩
  obtain ⟨c, name, hname, hc⟩ := hname
  rw [DurationPart.text, List.append_assoc, List.takeWhile_append_of_pos part.all_digits,
    List.dropWhile_append_of_pos part.all_digits, hname, List.cons_append,
    List.takeWhile_cons_of_neg (by simp [hc]), List.dropWhile_cons_of_neg (by simp [hc]),
    List.append_nil]
  exact ⟨rfl, rfl⟩

/-- **A text of the grammar is found.** -/
theorem durationFrom_complete (parts : List DurationPart) (previousRank total : Nat)
    (hdescending : Descending parts) (hranks : ∀ part ∈ parts, part.unit.rank < previousRank)
    (htotal : total + totalNanos parts < 2 ^ 64) (hpos : 0 < total + totalNanos parts) :
    durationFrom (encoded (parts.flatMap DurationPart.text)) previousRank total =
      some (some (total + totalNanos parts)) := by
  induction parts generalizing previousRank total with
  | nil =>
      have hpos' : total > 0 := by simpa [totalNanos] using hpos
      rw [durationFrom_encoded, List.flatMap_nil, if_pos rfl, if_pos hpos']
      rfl
  | cons part parts ih =>
      obtain ⟨hbelow, hdescending⟩ := List.pairwise_cons.mp hdescending
      have hsum : totalNanos (part :: parts) = part.nanos + totalNanos parts := by
        rw [totalNanos, List.map_cons, List.sum_cons]
        rfl
      obtain ⟨htake, hdrop⟩ := digits_of_part part (parts.flatMap DurationPart.text)
      have hamount : parseU64 part.digits = some part.amount := by
        have hle := part.amount_le_nanos
        exact parseU64_eq_some.mpr ⟨rfl, by omega⟩
      have hne : part.text ++ parts.flatMap DurationPart.text ≠ [] := by
        intro hnil
        rw [hnil] at htake
        exact part.digits_ne htake.symm
      have hrank := hranks part List.mem_cons_self
      have hproduct : part.amount * part.unit.nanos = part.nanos := rfl
      rw [durationFrom_encoded, List.flatMap_cons, htake, hdrop, if_neg hne, if_neg part.digits_ne,
        hamount, unitAt_name]
      dsimp only
      rw [if_neg (by omega), hproduct, if_neg (by omega), if_neg (by omega),
        ih part.unit.rank (total + part.nanos) hdescending hbelow (by omega) (by omega), hsum,
        Nat.add_assoc]

/-- **The durations of Prometheus.**  For every text the scanner ends without a panic, and it finds
a number exactly if the text is one of the grammar with this value. -/
theorem duration_iff (value : String) :
    ∃ r, prometheusDurationNanos value = some r ∧ ∀ n, r = some n ↔ IsDuration value n := by
  obtain ⟨r, hr, hsound⟩ := durationFrom_sound value.toList 255 0 (by omega)
  refine ⟨r, hr, fun n => ⟨fun hn => ?_, fun h => ?_⟩⟩
  · obtain ⟨parts, hdescending, hparts, htext, htotal, hpos, hfits⟩ := hsound n hn
    rw [Nat.zero_add] at htotal
    have hne : parts ≠ [] := by
      rintro rfl
      obtain rfl : 0 = n := htotal
      exact Nat.lt_irrefl 0 hpos
    exact ⟨parts, hne, hdescending, fun part hpart => (hparts part hpart).2, htext, htotal, hpos,
      hfits⟩
  · obtain ⟨parts, -, hdescending, -, htext, rfl, hpos, hfits⟩ := h
    have hranks : ∀ part ∈ parts, part.unit.rank < 255 := by
      intro part _
      cases part.unit <;> decide
    have hfound := durationFrom_complete parts 255 0 hdescending hranks (by omega) (by omega)
    rw [← htext, Nat.zero_add] at hfound
    exact Option.some.inj (hr.symm.trans hfound)

/-- The input of a query. -/
structure PromqlInput where
  query : String
  start : Option String
  stop : Option String
  step : Option String
  time : Option String

/-- The modes of a query. -/
inductive Mode where
  | instant
  | range
  deriving DecidableEq

/-- A query that was accepted. -/
structure PromqlQuery where
  query : String
  mode : Mode
  start : Option DateTime
  stop : Option DateTime
  step : Option String
  time : Option DateTime

/-- The most points of a range. -/
def maxPromqlPoints : Nat := 11000

/-- `parse_timestamp`. -/
def parseTimestamp (parse : String → Option DateTime) :
    Option String → Except InvalidArguments (Option DateTime)
  | none => .ok none
  | some value => (okOr .invalidArguments (parse value)).map some

/-- A range that is not longer than a bound, in nanoseconds. -/
def validRange (start stop : DateTime) (maximum : Int) : Except InvalidArguments Int :=
  let range := stop.signedDurationSince start
  if range < 0 ∨ range > maximum then .error .invalidArguments else .ok range

/-- `num_nanoseconds`, and the conversion of it. -/
def rangeNanos (range : Int) : Except InvalidArguments Nat :=
  if range < -2 ^ 63 ∨ 2 ^ 63 ≤ range then .error .invalidArguments
  else if range < 0 then .error .invalidArguments
  else .ok range.toNat

/-- The query of a range, once its texts are read. -/
def rangeQuery (query step : String) (start stop : DateTime) (time : Option DateTime)
    (stepNanos : Option Nat) : Except InvalidArguments PromqlQuery := do
  let stepNanos ← okOr .invalidArguments stepNanos
  let range ← validRange start stop (DateTime.nanosOfHours 24)
  let nanos ← rangeNanos range
  demand (!(decide (nanos / stepNanos + 1 > maxPromqlPoints) || time.isSome)) .invalidArguments
  return {
    query := query
    mode := .range
    start := some start
    stop := some stop
    step := some step
    time := none
  }

/-- The outer `none` is a panic. -/
def PromqlInput.validate (parse : String → Option DateTime) (input : PromqlInput) :
    Option (Except InvalidArguments PromqlQuery) :=
  if (Text.trim input.query).isEmpty then some (.error .invalidArguments)
  else match parseTimestamp parse input.start, parseTimestamp parse input.stop,
      parseTimestamp parse input.time with
    | .ok start, .ok stop, .ok time =>
        match start, stop, input.step with
        | some start, some stop, some step =>
            (prometheusDurationNanos step).map (rangeQuery input.query step start stop time)
        | none, none, none =>
            some (.ok {
              query := input.query
              mode := .instant
              start := none
              stop := none
              step := none
              time := time
            })
        | _, _, _ => some (.error .invalidArguments)
    | _, _, _ => some (.error .invalidArguments)

/-- A range of a day at most, with at most 11000 points. -/
def RangeBounds (query : PromqlQuery) : Prop :=
  ∃ start stop step n, query.start = some start ∧ query.stop = some stop ∧
    query.step = some step ∧ IsDuration step n ∧ 0 ≤ stop.signedDurationSince start ∧
    stop.signedDurationSince start ≤ DateTime.nanosOfHours 24 ∧
    stop.signedDurationSince start / (n : Int) + 1 ≤ 11000

/-- A range is valid from its start on, up to the bound. -/
theorem validRange_eq_ok {start stop : DateTime} {maximum range : Int} :
    validRange start stop maximum = .ok range ↔
      stop.signedDurationSince start = range ∧ 0 ≤ range ∧ range ≤ maximum := by
  simp only [validRange]
  split_ifs with hout
  · constructor
    · intro h
      cases h
    · intro ⟨heq, hlow, hhigh⟩
      omega
  · constructor
    · intro h
      obtain rfl := Except.ok.inj h
      omega
    · intro ⟨heq, _, _⟩
      rw [heq]

/-- Its nanoseconds are the difference. -/
theorem rangeNanos_eq_ok {range : Int} {nanos : Nat} (h : rangeNanos range = .ok nanos) :
    range = (nanos : Int) := by
  unfold rangeNanos at h
  split_ifs at h with hfits hneg
  obtain rfl := Except.ok.inj h
  omega

/-- What is accepted as a range keeps its bounds, for a step that is a duration. -/
theorem rangeQuery_bounds {query step : String} {start stop : DateTime} {time : Option DateTime}
    {stepNanos : Option Nat} {accepted : PromqlQuery}
    (hstep : ∀ n, stepNanos = some n → IsDuration step n)
    (h : rangeQuery query step start stop time stepNanos = .ok accepted) :
    RangeBounds accepted := by
  obtain ⟨n, hn, h⟩ := bind_eq_ok.mp h
  obtain ⟨range, hrange, h⟩ := bind_eq_ok.mp h
  obtain ⟨nanos, hnanos, h⟩ := bind_eq_ok.mp h
  obtain ⟨⟨⟩, hpoints, h⟩ := bind_eq_ok.mp h
  obtain rfl := Except.ok.inj h
  obtain ⟨hrange, hlow, hhigh⟩ := validRange_eq_ok.mp hrange
  have hpoints : nanos / n + 1 ≤ 11000 := by
    have hallowed := demand_eq_ok.mp hpoints
    simp only [Bool.not_eq_true', Bool.or_eq_false_iff, decide_eq_false_iff_not] at hallowed
    exact Nat.le_of_not_lt hallowed.1
  obtain rfl := rangeNanos_eq_ok hnanos
  refine ⟨start, stop, step, n, rfl, rfl, rfl, hstep n (okOr_eq_ok.mp hn), ?_, ?_, ?_⟩
  · rw [hrange]
    exact hlow
  · rw [hrange]
    exact hhigh
  · rw [hrange]
    exact_mod_cast hpoints

/-- A query is accepted or refused without a panic, and a range that is accepted keeps its
bounds. -/
theorem validate_bounds (parse : String → Option DateTime) (input : PromqlInput) :
    ∃ r, input.validate parse = some r ∧
      ∀ query, r = .ok query → query.mode = .range → RangeBounds query := by
  unfold PromqlInput.validate
  split_ifs with hquery
  · exact ⟨_, rfl, fun query h => nomatch h⟩
  split
  · split
    · next start stop step _ _ _ =>
        obtain ⟨r, hr, hduration⟩ := duration_iff step
        rw [hr]
        refine ⟨_, rfl, fun query h _ => ?_⟩
        exact rangeQuery_bounds (fun n hn => (hduration n).mp hn) h
    · refine ⟨_, rfl, fun query h hmode => ?_⟩
      obtain rfl := Except.ok.inj h
      cases hmode
    · exact ⟨_, rfl, fun query h => nomatch h⟩
  · exact ⟨_, rfl, fun query h => nomatch h⟩

/-- **Steps and points of PromQL queries.**  For every text the scanner ends without a panic and
finds exactly the durations of the grammar, at their value; every range query that is accepted is a
day long at most and has at most 11000 points. -/
theorem promql_law :
    (∀ value, ∃ r, prometheusDurationNanos value = some r ∧
      ∀ n, r = some n ↔ IsDuration value n) ∧
    ∀ (parse : String → Option DateTime) (input : PromqlInput),
      ∃ r, input.validate parse = some r ∧
        ∀ query, r = .ok query → query.mode = .range → RangeBounds query :=
  ⟨duration_iff, validate_bounds⟩

/-- A tenth of a second from within a leap second on, in steps of a millisecond. -/
theorem promql_law_leap_second :
    ∃ query, PromqlInput.validate sampleParse {
        query := "up"
        start := some "2026-01-01T10:00:60.9Z"
        stop := some "2026-01-01T10:01:00Z"
        step := some "1ms"
        time := none
      } = some (.ok query) ∧ RangeBounds query := by
  have hstep : prometheusDurationNanos "1ms" = some (some 1000000) := by decide +kernel
  have hstart : sampleParse "2026-01-01T10:00:60.9Z" = some leapSecond := if_pos rfl
  have hstop : sampleParse "2026-01-01T10:01:00Z" = some minuteAfter :=
    (if_neg (by decide)).trans (if_pos rfl)
  obtain ⟨r, hr, hbounds⟩ := promql_law.2 sampleParse ⟨"up", some "2026-01-01T10:00:60.9Z",
    some "2026-01-01T10:01:00Z", some "1ms", none⟩
  have haccepted : PromqlInput.validate sampleParse ⟨"up", some "2026-01-01T10:00:60.9Z",
      some "2026-01-01T10:01:00Z", some "1ms", none⟩ =
      some (.ok ⟨"up", .range, some leapSecond, some minuteAfter, some "1ms", none⟩) := by
    unfold PromqlInput.validate
    rw [if_neg (by decide +kernel)]
    simp only [parseTimestamp, hstart, hstop]
    show Option.map _ (prometheusDurationNanos "1ms") = _
    rw [hstep]
    rfl
  obtain rfl := Option.some.inj (hr.symm.trans haccepted)
  exact ⟨_, haccepted, hbounds _ rfl rfl⟩

end Grafana
