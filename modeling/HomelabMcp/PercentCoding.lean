import HomelabMcp.TextEncoding
import HomelabMcp.WebUrl

/-!
# Percent-encoded texts

`encodeURIComponent` writes the UTF-8 bytes of a character that is not its own, each as a percent
sign and two digits.  A text is decoded byte by byte.

* `decode_encodeURIComponent`: what was encoded is decoded.
* `encodeURIComponent_eq_self`: a text is its own encoding exactly if all of its characters are.
* `decode_eq_self`: an ASCII text is its own decoding exactly if there is no escape in it.
-/

namespace WebUrl

open Text (Bytes)

/-- A character that `encodeURIComponent` leaves as it is. -/
def isComponentChar (c : Char) : Bool :=
  c.isAlphanum || ['-', '_', '.', '!', '~', '*', Char.ofNat 0x27, '(', ')'].contains c

/-- A hexadecimal digit. -/
def upperHex (n : Nat) : Char := if n < 10 then Char.ofNat (48 + n) else Char.ofNat (55 + n)

/-- A byte as an escape. -/
def escapeByte (b : UInt8) : List Char :=
  ['%', upperHex (b.toNat / 16), upperHex (b.toNat % 16)]

/-- A character as ECMAScript writes it in a component: itself, or the escapes of its UTF-8
bytes. -/
def encodeComponentChar (c : Char) : List Char :=
  if isComponentChar c then [c] else (Text.encodeChar c).flatMap escapeByte

/-- `encodeURIComponent` of ECMAScript, on texts without lone surrogates. -/
def encodeURIComponent (s : String) : String :=
  String.ofList (s.toList.flatMap encodeComponentChar)

/-- Write the characters that are not kept as escapes of their bytes. -/
def encodeKeeping (keep : Char → Bool) (cs : List Char) : List Char :=
  cs.flatMap fun c => if keep c then [c] else (Text.encodeChar c).flatMap escapeByte

/-- A digit that is written is read. -/
theorem hexDigit_upperHex {n : Nat} (h : n < 16) : hexDigit (upperHex n) = some n := by
  have hall : ∀ n, n < 16 → hexDigit (upperHex n) = some n := by decide
  exact hall n h

/-- An escape is decoded to its byte. -/
theorem percentDecode_escapeByte (b : UInt8) (rest : List Char) :
    percentDecode (escapeByte b ++ rest) = b :: percentDecode rest := by
  have hb : b.toNat < 256 := b.toNat_lt
  have hhigh := hexDigit_upperHex (n := b.toNat / 16) (by omega)
  have hlow := hexDigit_upperHex (n := b.toNat % 16) (by omega)
  have hbyte : (16 * (b.toNat / 16) + b.toNat % 16).toUInt8 = b := by
    rw [Nat.div_add_mod]
    exact UInt8.ofNat_toNat
  simp only [escapeByte, List.cons_append, List.nil_append, percentDecode, hhigh, hlow, hbyte]

/-- Escapes are decoded to their bytes. -/
theorem percentDecode_escapes (bs : Bytes) (rest : List Char) :
    percentDecode (bs.flatMap escapeByte ++ rest) = bs ++ percentDecode rest := by
  induction bs with
  | nil => rfl
  | cons b bs ih =>
      rw [List.flatMap_cons, List.append_assoc, percentDecode_escapeByte, ih, List.cons_append]

/-- Any other character is decoded to its own bytes. -/
theorem percentDecode_cons {c : Char} (h : c ≠ '%') (rest : List Char) :
    percentDecode (c :: rest) = Text.encodeChar c ++ percentDecode rest := by
  rw [← Text.utf8EncodeChar_eq]
  conv_lhs => unfold percentDecode
  split
  · next heq => exact absurd (List.cons.inj heq).1 h
  · next heq =>
      obtain ⟨rfl, rfl⟩ := List.cons.inj heq
      rfl
  · next heq => cases heq

/-- A character that is kept is ASCII, and no percent sign. -/
theorem isComponentChar_range {c : Char} (h : isComponentChar c = true) :
    c ≠ '%' ∧ c.toNat < 128 := by
  rw [isComponentChar, Bool.or_eq_true] at h
  rcases h with h | h
  · simp only [Char.isAlphanum, Char.isAlpha, Char.isUpper, Char.isLower, Char.isDigit,
      Bool.or_eq_true, Bool.and_eq_true, decide_eq_true_eq] at h
    have hrange : 48 ≤ c.toNat ∧ c.toNat ≤ 122 := by
      rcases h with (⟨hlow, hhigh⟩ | ⟨hlow, hhigh⟩) | ⟨hlow, hhigh⟩
      · have hlow : 65 ≤ c.toNat := hlow
        have hhigh : c.toNat ≤ 90 := hhigh
        omega
      · have hlow : 97 ≤ c.toNat := hlow
        have hhigh : c.toNat ≤ 122 := hhigh
        omega
      · have hlow : 48 ≤ c.toNat := hlow
        have hhigh : c.toNat ≤ 57 := hhigh
        omega
    refine ⟨?_, by omega⟩
    intro hc
    have hpercent : '%'.toNat = 37 := rfl
    rw [hc] at hrange
    omega
  · simp only [List.contains_cons, List.contains_nil, Bool.or_false, Bool.or_eq_true,
      beq_iff_eq] at h
    rcases h with rfl | rfl | rfl | rfl | rfl | rfl | rfl | rfl | rfl <;> decide

/-- What was encoded is decoded to its bytes. -/
theorem percentDecode_encodeKeeping {keep : Char → Bool} (hkeep : keep '%' = false)
    (cs : List Char) : percentDecode (encodeKeeping keep cs) = cs.flatMap Text.encodeChar := by
  induction cs with
  | nil => rfl
  | cons c cs ih =>
      rw [List.flatMap_cons, ← ih, encodeKeeping, List.flatMap_cons]
      by_cases hc : keep c = true
      · have hne : c ≠ '%' := by
          intro heq
          rw [heq, hkeep] at hc
          cases hc
        rw [if_pos hc]
        exact percentDecode_cons hne _
      · rw [if_neg hc, percentDecode_escapes]
        rfl

/-- **Round trip**, whatever is kept but the percent sign. -/
theorem decode_encodeKeeping {keep : Char → Bool} (hkeep : keep '%' = false) (s : String) :
    Text.decode (percentDecode (encodeKeeping keep s.toList)) = some s := by
  rw [percentDecode_encodeKeeping hkeep]
  exact Text.decode_encode s

/-- A text that is kept whole is its own encoding. -/
theorem encodeKeeping_eq_self {keep : Char → Bool} {cs : List Char}
    (h : ∀ c ∈ cs, keep c = true) : encodeKeeping keep cs = cs := by
  induction cs with
  | nil => rfl
  | cons c cs ih =>
      have hrest := ih fun d hd => h d (List.mem_cons_of_mem c hd)
      rw [encodeKeeping, List.flatMap_cons, if_pos (h c List.mem_cons_self)]
      exact congrArg (c :: ·) hrest

/-- What is written is kept, or of an escape. -/
theorem mem_encodeKeeping {keep : Char → Bool} {cs : List Char} {c : Char}
    (h : c ∈ encodeKeeping keep cs) : keep c = true ∨ c = '%' ∨ c.isAlphanum = true := by
  have hdigit : ∀ n, n < 16 → (upperHex n).isAlphanum = true := by decide
  obtain ⟨d, -, hd⟩ := List.mem_flatMap.mp h
  by_cases hkept : keep d = true
  · rw [if_pos hkept, List.mem_singleton] at hd
    exact .inl (hd ▸ hkept)
  · rw [if_neg hkept] at hd
    obtain ⟨b, -, hb⟩ := List.mem_flatMap.mp hd
    have hbyte : b.toNat < 256 := b.toNat_lt
    simp only [escapeByte, List.mem_cons, List.not_mem_nil, or_false] at hb
    rcases hb with rfl | rfl | rfl
    · exact .inr (.inl rfl)
    · exact .inr (.inr (hdigit _ (by omega)))
    · exact .inr (.inr (hdigit _ (by omega)))

/-- **Round trip.** -/
theorem decode_encodeURIComponent (s : String) :
    Text.decode (percentDecode (encodeURIComponent s).toList) = some s := by
  rw [encodeURIComponent, String.toList_ofList]
  exact decode_encodeKeeping (by decide) s

/-- An encoded character is longer. -/
theorem length_encodeComponentChar {c : Char} (h : isComponentChar c = false) :
    1 < (encodeComponentChar c).length := by
  have hne : Text.encodeChar c ≠ [] := by
    simp only [Text.encodeChar]
    split_ifs <;> exact List.cons_ne_nil _ _
  obtain ⟨b, bs, hbs⟩ := List.exists_cons_of_ne_nil hne
  rw [encodeComponentChar, if_neg (by rw [h]; exact Bool.false_ne_true), hbs, List.flatMap_cons,
    List.length_append]
  have hescape : (escapeByte b).length = 3 := rfl
  omega

/-- An encoded text is no shorter. -/
theorem length_le_encoded (cs : List Char) :
    cs.length ≤ (cs.flatMap encodeComponentChar).length := by
  induction cs with
  | nil => exact Nat.le_refl _
  | cons c cs ih =>
      have hc : 1 ≤ (encodeComponentChar c).length := by
        by_cases h : isComponentChar c
        · rw [encodeComponentChar, if_pos h]
          exact Nat.le_refl 1
        · exact (length_encodeComponentChar (eq_false_of_ne_true h)).le
      rw [List.flatMap_cons, List.length_append, List.length_cons]
      omega

/-- A text is its own encoding where all characters are kept. -/
theorem encoded_eq_self {cs : List Char} :
    cs.flatMap encodeComponentChar = cs ↔ ∀ c ∈ cs, isComponentChar c = true := by
  induction cs with
  | nil => simp
  | cons c cs ih =>
      rw [List.flatMap_cons, List.forall_mem_cons, ← ih]
      by_cases hc : isComponentChar c
      · rw [encodeComponentChar, if_pos hc, List.cons_append, List.nil_append, List.cons.injEq]
        exact and_congr_left fun _ => ⟨fun _ => hc, fun _ => rfl⟩
      · have hlong := length_encodeComponentChar (eq_false_of_ne_true hc)
        have hrest := length_le_encoded cs
        constructor
        · intro heq
          have hlength := congrArg List.length heq
          rw [List.length_append, List.length_cons] at hlength
          omega
        · intro h
          exact absurd h.1 hc

/-- The same of a string. -/
theorem encodeURIComponent_eq_self {s : String} :
    encodeURIComponent s = s ↔ ∀ c ∈ s.toList, isComponentChar c = true := by
  rw [← encoded_eq_self, encodeURIComponent]
  constructor
  · intro h
    rw [← String.toList_inj, String.toList_ofList] at h
    exact h
  · intro h
    rw [h, String.ofList_toList]

/-- A percent sign with two digits behind it. -/
def hasEscape : List Char → Bool
  | '%' :: a :: b :: cs =>
      ((hexDigit a).isSome && (hexDigit b).isSome) || hasEscape (a :: b :: cs)
  | _ :: cs => hasEscape cs
  | [] => false

/-- Without an escape the bytes are those of the text. -/
theorem percentDecode_plain {cs : List Char} (h : hasEscape cs = false) :
    percentDecode cs = cs.flatMap Text.encodeChar := by
  induction cs using hasEscape.induct with
  | case1 a b cs ih =>
      rw [hasEscape, Bool.or_eq_false_iff] at h
      have hpercent : percentDecode ('%' :: a :: b :: cs) =
          '%'.toNat.toUInt8 :: percentDecode (a :: b :: cs) := by
        have hdigits := h.1
        rw [percentDecode]
        cases ha : hexDigit a with
        | none => rfl
        | some high =>
            cases hb : hexDigit b with
            | none => rfl
            | some low => simp [ha, hb] at hdigits
      rw [hpercent, ih h.2]
      rfl
  | case2 c cs hc ih =>
      have hrest : hasEscape cs = false := by
        rwa [hasEscape] at h
        exact hc
      rw [List.flatMap_cons, ← ih hrest, ← Text.utf8EncodeChar_eq, percentDecode]
      exact hc
  | case3 => rfl

/-- An escape stands for fewer bytes than it has characters. -/
theorem length_percentDecode (cs : List Char) :
    (percentDecode cs).length ≤ (cs.flatMap Text.encodeChar).length ∧
      (hasEscape cs = true → (percentDecode cs).length < (cs.flatMap Text.encodeChar).length) := by
  induction cs using percentDecode.induct with
  | case1 a b cs high low ha hb ih =>
      have hcs : (percentDecode ('%' :: a :: b :: cs)).length = (percentDecode cs).length + 1 := by
        rw [percentDecode, ha, hb]
        rfl
      have hpa := Text.length_encodeChar_pos a
      have hpb := Text.length_encodeChar_pos b
      have hpp := Text.length_encodeChar_pos '%'
      simp only [hcs, List.flatMap_cons, List.length_append]
      omega
  | case2 a b cs hdigits ih =>
      have hplain : percentDecode ('%' :: a :: b :: cs) =
          '%'.toNat.toUInt8 :: percentDecode (a :: b :: cs) := by
        rw [percentDecode]
        split
        · next high low ha hb => exact absurd hb (hdigits high low ha)
        · rfl
      have hescape : hasEscape ('%' :: a :: b :: cs) = hasEscape (a :: b :: cs) := by
        rw [hasEscape]
        cases ha : hexDigit a with
        | none => rfl
        | some high =>
            cases hb : hexDigit b with
            | none => rfl
            | some low => exact absurd hb (hdigits high low ha)
      have hpp : (Text.encodeChar '%').length = 1 := rfl
      rw [hplain, hescape, List.flatMap_cons, List.length_append, List.length_cons, hpp]
      obtain ⟨hle, hlt⟩ := ih
      refine ⟨by omega, fun h => ?_⟩
      have hshort := hlt h
      omega
  | case3 c cs hc ih =>
      have hplain : percentDecode (c :: cs) = Text.encodeChar c ++ percentDecode cs := by
        rw [← Text.utf8EncodeChar_eq, percentDecode]
        exact hc
      have hescape : hasEscape (c :: cs) = hasEscape cs := by
        rw [hasEscape]
        exact hc
      rw [hplain, hescape, List.flatMap_cons, List.length_append, List.length_append]
      obtain ⟨hle, hlt⟩ := ih
      refine ⟨by omega, fun h => ?_⟩
      have hshort := hlt h
      omega
  | case4 => exact ⟨Nat.le_refl _, nofun⟩

/-- **A text without an escape** is what it is decoded to, and no other ASCII text is. -/
theorem decode_eq_self {s : String} (hascii : ∀ c ∈ s.toList, c.toNat < 128) :
    Text.decode (percentDecode s.toList) = some s ↔ hasEscape s.toList = false := by
  constructor
  · intro h
    by_contra hescape
    have hlength := Text.length_decode h
    have hshort := (length_percentDecode s.toList).2 (eq_true_of_ne_false hescape)
    have hsame := Text.length_encode_ascii hascii
    rw [Text.encode, String.toList_ofList] at hsame
    omega
  · intro h
    rw [percentDecode_plain h]
    exact Text.decode_encode s

end WebUrl
