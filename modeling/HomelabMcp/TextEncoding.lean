import HomelabMcp.Text

/-!
# Encoding a text as UTF-8

* `decode_encode`: the decoder reads back every text that was encoded.
* `length_decode`: a text has no more characters than it was decoded from bytes.
-/

namespace Text

/-- The bytes of a character. -/
def encodeChar (c : Char) : Bytes :=
  let n := c.toNat
  if n < 0x80 then [n.toUInt8]
  else if n < 0x800 then [(0xC0 + n / 64).toUInt8, (0x80 + n % 64).toUInt8]
  else if n < 0x10000 then
    [(0xE0 + n / 4096).toUInt8, (0x80 + n / 64 % 64).toUInt8, (0x80 + n % 64).toUInt8]
  else
    [(0xF0 + n / 262144).toUInt8, (0x80 + n / 4096 % 64).toUInt8, (0x80 + n / 64 % 64).toUInt8,
      (0x80 + n % 64).toUInt8]

/-- The bytes of a string. -/
def encode (s : String) : Bytes := s.toList.flatMap encodeChar

/-- A number below 256 is the byte of its own value. -/
theorem toNat_toUInt8 {n : Nat} (h : n < 256) : n.toUInt8.toNat = n := by
  rw [Nat.toUInt8, UInt8.toNat_ofNat']
  omega

/-- An ASCII character is one byte, its own code. -/
theorem encodeChar_ascii {c : Char} (h : c.toNat < 128) :
    encodeChar c = [c.toNat.toUInt8] := by
  simp only [encodeChar]
  rw [if_pos (by omega)]

/-- An ASCII text has as many bytes as characters. -/
theorem length_encode_ascii {cs : List Char} (h : ∀ c ∈ cs, c.toNat < 128) :
    (encode (String.ofList cs)).length = cs.length := by
  rw [encode, String.toList_ofList]
  induction cs with
  | nil => rfl
  | cons c cs ih =>
      rw [List.flatMap_cons, encodeChar_ascii (h c List.mem_cons_self), List.length_append,
        ih fun d hd => h d (List.mem_cons_of_mem c hd), List.length_cons, Nat.add_comm]
      rfl

/-- A code point is no surrogate and not too large. -/
theorem toNat_valid (c : Char) : c.toNat < 0xD800 ∨ 0xDFFF < c.toNat ∧ c.toNat < 0x110000 := c.valid

/-- A continuation byte that is not the last. -/
theorem scan_more {owed low high bits m : Nat} {rest : Bytes} (howed : owed ≠ 1) (hlow : low ≤ m)
    (hhigh : m ≤ high) (hbyte : m < 256) :
    scan (some ⟨owed, low, high, bits⟩) (m.toUInt8 :: rest) =
      scan (some ⟨owed - 1, 0x80, 0xBF, bits * 64 + (m - 0x80)⟩) rest := by
  rw [scan, toNat_toUInt8 hbyte, feed, if_pos ⟨hlow, hhigh⟩]
  simp only [if_neg howed, List.nil_append]

/-- The last byte of a character. -/
theorem scan_last {low high bits m : Nat} {rest : Bytes} (hlow : low ≤ m) (hhigh : m ≤ high)
    (hbyte : m < 256) :
    scan (some ⟨1, low, high, bits⟩) (m.toUInt8 :: rest) =
      some (Char.ofNat (bits * 64 + (m - 0x80))) :: scan none rest := by
  rw [scan, toNat_toUInt8 hbyte, feed, if_pos ⟨hlow, hhigh⟩]
  simp only [if_true, List.singleton_append]

/-- A first byte that starts a longer character. -/
theorem scan_first {m : Nat} {p : Pending} {rest : Bytes} (hbyte : m < 256)
    (h : first m = (none, some p)) : scan none (m.toUInt8 :: rest) = scan (some p) rest := by
  rw [scan, toNat_toUInt8 hbyte, feed, restart, h, List.nil_append]

/-- The first of three bytes leaves two to come, and the second is one of those it allows. -/
theorem first_of_three {n : Nat} (hlow : 0x800 ≤ n) (hhigh : n < 0x10000)
    (hvalid : n < 0xD800 ∨ 0xDFFF < n) : ∃ low high,
      first (0xE0 + n / 4096) = (none, some ⟨2, low, high, n / 4096⟩) ∧
        low ≤ 0x80 + n / 64 % 64 ∧ 0x80 + n / 64 % 64 ≤ high := by
  unfold first
  have hskip : ¬ 0xE0 + n / 4096 < 0x80 := by omega
  have hskip' : ¬ (0xC2 ≤ 0xE0 + n / 4096 ∧ 0xE0 + n / 4096 ≤ 0xDF) := by omega
  rw [if_neg hskip, if_neg hskip']
  by_cases hleast : n / 4096 = 0
  · refine ⟨0xA0, 0xBF, ?_, by omega, by omega⟩
    rw [hleast, if_pos rfl]
  · by_cases hsurrogate : n / 4096 = 13
    · refine ⟨0x80, 0x9F, ?_, by omega, by omega⟩
      rw [hsurrogate]
      rfl
    · refine ⟨0x80, 0xBF, ?_, by omega, by omega⟩
      rw [if_neg (by omega), if_neg (by omega), if_pos (by omega), Nat.add_sub_cancel_left]

/-- The first of four bytes leaves three to come, and the second is one of those it allows. -/
theorem first_of_four {n : Nat} (hlow : 0x10000 ≤ n) (hhigh : n < 0x110000) : ∃ low high,
    first (0xF0 + n / 262144) = (none, some ⟨3, low, high, n / 262144⟩) ∧
      low ≤ 0x80 + n / 4096 % 64 ∧ 0x80 + n / 4096 % 64 ≤ high := by
  unfold first
  rw [if_neg (by omega), if_neg (by omega), if_neg (by omega), if_neg (by omega),
    if_neg (by omega)]
  by_cases hleast : n / 262144 = 0
  · refine ⟨0x90, 0xBF, ?_, by omega, by omega⟩
    rw [hleast, if_pos rfl]
  · by_cases hmost : n / 262144 = 4
    · refine ⟨0x80, 0x8F, ?_, by omega, by omega⟩
      rw [hmost]
      rfl
    · refine ⟨0x80, 0xBF, ?_, by omega, by omega⟩
      rw [if_neg (by omega), if_neg (by omega), if_pos (by omega), Nat.add_sub_cancel_left]

/-- One character is read back. -/
theorem scan_encodeChar (c : Char) (rest : Bytes) :
    scan none (encodeChar c ++ rest) = some c :: scan none rest := by
  have hvalid := toNat_valid c
  have hback : ∀ bits, bits = c.toNat → Char.ofNat bits = c := by
    rintro _ rfl
    exact Char.ofNat_toNat c
  unfold encodeChar
  by_cases hone : c.toNat < 0x80
  · have hfirst : first c.toNat = (some (Char.ofNat c.toNat), none) := if_pos hone
    rw [if_pos hone, List.singleton_append, scan, toNat_toUInt8 (by omega), feed, restart, hfirst,
      Char.ofNat_toNat]
    rfl
  · by_cases htwo : c.toNat < 0x800
    · have hfirst : first (0xC0 + c.toNat / 64) = (none, some ⟨1, 0x80, 0xBF, c.toNat / 64⟩) := by
        rw [first, if_neg (by omega), if_pos (by omega), Nat.add_sub_cancel_left]
      simp only [if_neg hone, if_pos htwo, List.cons_append, List.nil_append]
      rw [scan_first (by omega) hfirst, scan_last (by omega) (by omega) (by omega)]
      rw [hback _ (by omega)]
    · by_cases hthree : c.toNat < 0x10000
      · obtain ⟨low, high, hfirst, hl, hh⟩ :=
          first_of_three (by omega) hthree (by omega)
        simp only [if_neg hone, if_neg htwo, if_pos hthree, List.cons_append, List.nil_append]
        rw [scan_first (by omega) hfirst, scan_more (by omega) hl hh (by omega),
          scan_last (by omega) (by omega) (by omega)]
        rw [hback _ (by omega)]
      · obtain ⟨low, high, hfirst, hl, hh⟩ := first_of_four (n := c.toNat) (by omega) (by omega)
        simp only [if_neg hone, if_neg htwo, if_neg hthree, List.cons_append, List.nil_append]
        rw [scan_first (by omega) hfirst, scan_more (by omega) hl hh (by omega),
          scan_more (by omega) (by omega) (by omega) (by omega),
          scan_last (by omega) (by omega) (by omega)]
        rw [hback _ (by omega)]

/-- The bytes of a text decode to its characters, and nothing in them is malformed. -/
theorem scan_encode (cs : List Char) : scan none (cs.flatMap encodeChar) = cs.map some := by
  induction cs with
  | nil => rfl
  | cons c cs ih => rw [List.flatMap_cons, scan_encodeChar, ih, List.map_cons]

/-- **Encoding and decoding.**  What was encoded is read back. -/
theorem decode_encode (s : String) : decode (encode s) = some s := by
  have hall : (s.toList.map some).mapM id = some s.toList := by
    generalize s.toList = cs
    induction cs with
    | nil => rfl
    | cons c cs ih => simp [ih]
  rw [decode, encode, scan_encode, hall]
  exact congrArg some String.ofList_toList

/-- The bytes of a character are those of Lean's own encoding. -/
theorem utf8EncodeChar_eq (c : Char) : String.utf8EncodeChar c = encodeChar c := by
  have hvalid := toNat_valid c
  have hn : c.val.toNat = c.toNat := rfl
  simp only [String.utf8EncodeChar, encodeChar, hn, Nat.toUInt8]
  by_cases h1 : c.toNat < 0x80
  · rw [if_pos (by omega), if_pos h1]
  rw [if_neg (by omega), if_neg h1]
  by_cases h2 : c.toNat < 0x800
  · rw [if_pos (by omega), if_pos h2]
    have hfirst : c.toNat / 64 % 0x20 + 0xC0 = 0xC0 + c.toNat / 64 := by omega
    rw [hfirst, Nat.add_comm (c.toNat % 0x40)]
  rw [if_neg (by omega), if_neg h2]
  by_cases h3 : c.toNat < 0x10000
  · rw [if_pos (by omega), if_pos h3]
    have hfirst : c.toNat / 4096 % 0x10 + 0xE0 = 0xE0 + c.toNat / 4096 := by omega
    rw [hfirst, Nat.add_comm (c.toNat % 0x40), Nat.add_comm (c.toNat / 64 % 0x40)]
  rw [if_neg (by omega), if_neg h3]
  have hfirst : c.toNat / 262144 % 0x08 + 0xF0 = 0xF0 + c.toNat / 262144 := by omega
  rw [hfirst, Nat.add_comm (c.toNat % 0x40), Nat.add_comm (c.toNat / 64 % 0x40),
    Nat.add_comm (c.toNat / 4096 % 0x40)]

/-- No character is written with no byte. -/
theorem length_encodeChar_pos (c : Char) : 0 < (encodeChar c).length := by
  simp only [encodeChar]
  split_ifs <;> exact Nat.zero_lt_succ _

/-- A character that is not read to its end. -/
def owed (p : Option Pending) : Nat := if p.isSome then 1 else 0

/-- One byte shows at most one character more than the bytes before it owed. -/
theorem length_feed (p : Option Pending) (b : Nat) :
    (feed p b).1.length + owed (feed p b).2 ≤ owed p + 1 := by
  have hrestart : (restart b).1.length + owed (restart b).2 ≤ 1 := by
    unfold restart
    split <;> exact Nat.le_refl 1
  cases p with
  | none => exact hrestart.trans (Nat.le_add_left 1 _)
  | some p =>
      simp only [feed]
      split_ifs with hrange howed
      · exact Nat.le_succ 1
      · exact Nat.le_succ 1
      · have hsome : owed (some p) = 1 := rfl
        show ((restart b).1.length + 1) + owed (restart b).2 ≤ _
        omega

/-- No more characters are read than there are bytes, a character begun before included. -/
theorem length_scan (p : Option Pending) (bytes : Bytes) :
    (scan p bytes).length ≤ bytes.length + owed p := by
  induction bytes generalizing p with
  | nil => cases p <;> exact Nat.le_refl _
  | cons b bytes ih =>
      have hfeed := length_feed p b.toNat
      have hrest := ih (feed p b.toNat).2
      rw [scan, List.length_append, List.length_cons]
      omega

/-- Where every reading is a character, there are as many characters as readings. -/
theorem length_of_mapM {found : List (Option Char)} {cs : List Char}
    (h : found.mapM id = some cs) : cs.length = found.length := by
  induction found generalizing cs with
  | nil =>
      obtain rfl := Option.some.inj h
      rfl
  | cons c found ih =>
      rw [List.mapM_cons] at h
      obtain ⟨d, -, h⟩ := Option.bind_eq_some_iff.mp h
      obtain ⟨ds, hds, h⟩ := Option.bind_eq_some_iff.mp h
      obtain rfl := Option.some.inj h
      rw [List.length_cons, List.length_cons, ih hds]

/-- Every byte ends at most one character. -/
theorem length_decode {bytes : Bytes} {s : String} (h : decode bytes = some s) :
    s.toList.length ≤ bytes.length := by
  obtain ⟨cs, hcs, rfl⟩ := Option.map_eq_some_iff.mp h
  have hscan := length_scan none bytes
  have hlength := length_of_mapM hcs
  rw [String.toList_ofList]
  exact hlength.trans_le hscan

/-- The bytes of a byte array are its list of bytes. -/
theorem toList_eq_data (bytes : ByteArray) : bytes.toList = bytes.data.toList := by
  have hloop : ∀ k i (r : List UInt8), bytes.size - i = k →
      ByteArray.toList.loop bytes i r = r.reverse ++ bytes.data.toList.drop i := by
    intro k
    induction k with
    | zero =>
        intro i r hk
        have hdone : ¬ i < bytes.size := by omega
        rw [ByteArray.toList.loop, if_neg hdone, List.drop_eq_nil_of_le, List.append_nil]
        rw [Array.length_toList]
        exact Nat.le_of_not_lt hdone
    | succ k ih =>
        intro i r hk
        have hmore : i < bytes.size := by omega
        have hlength : i < bytes.data.toList.length := by rwa [Array.length_toList]
        have hget : bytes.get! i = bytes.data.toList[i] := by
          rw [Array.getElem_toList]
          exact getElem!_pos bytes.data i hmore
        rw [ByteArray.toList.loop, if_pos hmore, ih (i + 1) _ (by omega), hget,
          List.drop_eq_getElem_cons hlength, List.reverse_cons, List.append_assoc]
        rfl
  exact hloop _ 0 [] rfl

/-- Two strings with the same bytes are one. -/
theorem toUTF8_inj {a b : String} (h : a.toUTF8.toList = b.toUTF8.toList) : a = b := by
  rw [toList_eq_data, toList_eq_data] at h
  exact String.toByteArray_inj.mp (ByteArray.ext (Array.toList_inj.mp h))

end Text
