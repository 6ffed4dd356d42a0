import HomelabMcp.TextEncoding
import HomelabMcp.TokenCache

/-!
# Reading the content of the token cache

A reader for flat JSON objects, whose values are strings and natural numbers, as `json.loads` reads
them.

* `loads_reads_back`: it reads every content that the cache writes.
-/

namespace SshHomelab

open Json (Value)
open Text (Bytes)

/-- The content of the file, in bytes. -/
def fileContent (entry : CachedToken) : Bytes := Text.encode (String.ofList (dumps entry))

/-- What is assumed of `json.loads`: what is written for an entry is read as an object with its three
members.  This is so of Unicode text; two surrogate code points that are written one after the other
would be read as one character. -/
def ReadsBack (loads : Bytes → Except LoadsError Value) : Prop :=
  ∀ entry : CachedToken, loads (fileContent entry) = .ok (.object [("schema", .nat 1),
    ("origin", .string entry.origin), ("token", .string entry.token)])

/-- The value of a hexadecimal digit. -/
def hexValue (c : Char) : Option Nat :=
  if '0' ≤ c ∧ c ≤ '9' then some (c.toNat - 48)
  else if 'a' ≤ c ∧ c ≤ 'f' then some (c.toNat - 87)
  else if 'A' ≤ c ∧ c ≤ 'F' then some (c.toNat - 55)
  else none

/-- The code unit of four digits. -/
def codeUnit (a b c d : Char) : Option Nat := do
  return (← hexValue a) * 4096 + (← hexValue b) * 256 + (← hexValue c) * 16 + (← hexValue d)

/-- The character of a short escape. -/
def escaped : Char → Option Char
  | 'n' => some '\n'
  | 'r' => some '\r'
  | 't' => some '\t'
  | 'f' => some (Char.ofNat 0x0C)
  | 'b' => some (Char.ofNat 0x08)
  | '\x22' => some '\x22'
  | '\x5c' => some '\x5c'
  | '/' => some '/'
  | _ => none

/-- The characters up to the closing quote, and what is behind it; `high` is the first half of a
pair that waits for its second. -/
def readChars : Option Nat → List Char → Option (List Char × List Char)
  | high, '\x5c' :: 'u' :: a :: b :: c :: d :: rest =>
      (codeUnit a b c d).bind fun unit => match high with
        | some first =>
            if 0xDC00 ≤ unit ∧ unit ≤ 0xDFFF then
              (readChars none rest).map fun (text, rest) =>
                (Char.ofNat (0x10000 + (first - 0xD800) * 1024 + (unit - 0xDC00)) :: text, rest)
            else none
        | none =>
            if 0xD800 ≤ unit ∧ unit ≤ 0xDBFF then readChars (some unit) rest
            else if 0xDC00 ≤ unit ∧ unit ≤ 0xDFFF then none
            else (readChars none rest).map fun (text, rest) => (Char.ofNat unit :: text, rest)
  | none, '\x5c' :: c :: rest =>
      match escaped c with
      | none => none
      | some c => (readChars none rest).map fun (text, rest) => (c :: text, rest)
  | none, '\x22' :: rest => some ([], rest)
  | none, c :: rest =>
      if c.toNat < 0x20 then none
      else (readChars none rest).map fun (text, rest) => (c :: text, rest)
  | _, _ => none

/-- A text within quotes. -/
def readString : List Char → Option (List Char × List Char)
  | '\x22' :: cs => readChars none cs
  | _ => none

/-- A string or a natural number. -/
def readValue : List Char → Option (Value × List Char)
  | '\x22' :: cs => (readChars none cs).map fun (text, cs) => (.string (String.ofList text), cs)
  | cs =>
      let digits := cs.takeWhile Char.isDigit
      if digits = [] then none
      else some (.nat (Nat.ofDigitChars 10 digits 0).toUInt64, cs.dropWhile Char.isDigit)

/-- The character that must follow. -/
def expect (c : Char) : List Char → Option (List Char)
  | [] => none
  | d :: cs => if d = c then some cs else none

/-- A member of an object. -/
def readMember (cs : List Char) : Option ((String × Value) × List Char) := do
  let (key, cs) ← readString cs
  let cs ← expect ':' cs
  let (value, cs) ← readValue cs
  return ((String.ofList key, value), cs)

/-- The members of an object, at most so many. -/
def readMembers : Nat → List Char → Option (List (String × Value))
  | 0, _ => none
  | n + 1, cs =>
      match readMember cs with
      | some (member, ',' :: cs) => (readMembers n cs).map (member :: ·)
      | some (member, ['\x7d']) => some [member]
      | _ => none

/-- An object of texts. -/
def readObject : List Char → Option Value
  | '\x7b' :: cs => (readMembers cs.length cs).map .object
  | _ => none

/-- The object of a file; anything else is refused. -/
def loads (content : Bytes) : Except LoadsError Value :=
  ((Text.decode content).bind fun text => readObject text.toList).elim (.error .refused) .ok

/-- A digit that is written is read. -/
theorem hexValue_digitChar {n : Nat} (h : n < 16) : hexValue n.digitChar = some n := by
  have hall : ∀ n, n < 16 → hexValue n.digitChar = some n := by decide
  exact hall n h

/-- Four digits are a code unit. -/
theorem codeUnit_digits {n : Nat} (h : n < 65536) :
    codeUnit (n / 4096 % 16).digitChar (n / 256 % 16).digitChar (n / 16 % 16).digitChar
      (n % 16).digitChar = some n := by
  have hsum : n / 4096 % 16 * 4096 + n / 256 % 16 * 256 + n / 16 % 16 * 16 + n % 16 = n := by omega
  unfold codeUnit
  rw [hexValue_digitChar (by omega), hexValue_digitChar (by omega), hexValue_digitChar (by omega),
    hexValue_digitChar (by omega)]
  exact congrArg some hsum

/-- The characters read, with one more before them. -/
def withChar (c : Char) : List Char × List Char → List Char × List Char
  | (text, rest) => (c :: text, rest)

/-- A short escape is read. -/
theorem readChars_short {c d : Char} (hc : c ≠ 'u') (h : escaped c = some d) (rest : List Char) :
    readChars none ('\x5c' :: c :: rest) = (readChars none rest).map (withChar d) := by
  rw [readChars]
  · rw [h]
    rfl
  · intro a b c' d' rest' hu
    exact absurd hu hc

/-- A character that is not escaped is read. -/
theorem readChars_plain {c : Char} (hlow : 0x20 ≤ c.toNat) (hquote : c ≠ '\x22')
    (hback : c ≠ '\x5c') (rest : List Char) :
    readChars none (c :: rest) = (readChars none rest).map (withChar c) := by
  rw [readChars]
  · rw [if_neg (Nat.not_lt.mpr hlow)]
    rfl
  · intro a b d e rest' hc
    exact absurd hc hback
  · intro d rest' hc
    exact absurd hc hback
  · intro hc
    exact absurd hc hquote

/-- A code unit that is no half of a pair. -/
theorem readChars_unit {n : Nat} (hlow : n < 0xD800 ∨ 0xDFFF < n) (hhigh : n < 65536)
    (rest : List Char) :
    readChars none ('\x5c' :: 'u' :: (n / 4096 % 16).digitChar :: (n / 256 % 16).digitChar ::
        (n / 16 % 16).digitChar :: (n % 16).digitChar :: rest) =
      (readChars none rest).map (withChar (Char.ofNat n)) := by
  rw [readChars, codeUnit_digits hhigh, Option.bind_some]
  dsimp only
  rw [if_neg (by omega), if_neg (by omega)]
  rfl

/-- A pair of code units. -/
theorem readChars_pair {high low : Nat} (hhigh : 0xD800 ≤ high ∧ high ≤ 0xDBFF)
    (hlow : 0xDC00 ≤ low ∧ low ≤ 0xDFFF) (rest : List Char) :
    readChars none ('\x5c' :: 'u' :: (high / 4096 % 16).digitChar ::
        (high / 256 % 16).digitChar :: (high / 16 % 16).digitChar :: (high % 16).digitChar ::
        '\x5c' :: 'u' :: (low / 4096 % 16).digitChar :: (low / 256 % 16).digitChar ::
        (low / 16 % 16).digitChar :: (low % 16).digitChar :: rest) =
      (readChars none rest).map
        (withChar (Char.ofNat (0x10000 + (high - 0xD800) * 1024 + (low - 0xDC00)))) := by
  rw [readChars, codeUnit_digits (by omega), Option.bind_some]
  dsimp only
  rw [if_pos hhigh, readChars, codeUnit_digits (by omega), Option.bind_some]
  dsimp only
  rw [if_pos hlow]
  rfl

/-- **One character** is read back. -/
theorem readChars_dumpsChar (c : Char) (rest : List Char) :
    readChars none (dumpsChar c ++ rest) = (readChars none rest).map (withChar c) := by
  have hvalid := Text.toNat_valid c
  have hchar : ∀ n, c.toNat = n → Char.ofNat n = c := by
    intro n hn
    rw [← hn, Char.ofNat_toNat]
  unfold dumpsChar
  dsimp only
  split
  · next h =>
      obtain rfl := hchar _ h
      exact readChars_short (by decide) rfl rest
  · next h =>
      obtain rfl := hchar _ h
      exact readChars_short (by decide) rfl rest
  · next h =>
      obtain rfl := hchar _ h
      exact readChars_short (by decide) rfl rest
  · next h =>
      obtain rfl := hchar _ h
      exact readChars_short (by decide) rfl rest
  · next h =>
      obtain rfl := hchar _ h
      exact readChars_short (by decide) rfl rest
  · next h =>
      obtain rfl := hchar _ h
      exact readChars_short (by decide) rfl rest
  · next h =>
      obtain rfl := hchar _ h
      exact readChars_short (by decide) rfl rest
  · next hquote hback _ _ _ _ _ =>
      split_ifs with hplain hunit
      · apply readChars_plain hplain.1
        · rintro rfl
          exact hquote rfl
        · rintro rfl
          exact hback rfl
      · have hone := @readChars_unit c.toNat (by omega) hunit rest
        rwa [Char.ofNat_toNat] at hone
      · have hpair := @readChars_pair (0xD800 + (c.toNat - 0x10000) / 1024)
          (0xDC00 + (c.toNat - 0x10000) % 1024) (by omega) (by omega) rest
        have hsum : 0x10000 + (0xD800 + (c.toNat - 0x10000) / 1024 - 0xD800) * 1024 +
            (0xDC00 + (c.toNat - 0x10000) % 1024 - 0xDC00) = c.toNat := by omega
        rw [hsum, Char.ofNat_toNat] at hpair
        simp only [List.map_cons, List.map_nil, List.cons_append, List.nil_append]
        exact hpair

/-- Every text that is written is read. -/
theorem readChars_flatMap (text rest : List Char) :
    readChars none (text.flatMap dumpsChar ++ '\x22' :: rest) = some (text, rest) := by
  induction text with
  | nil => rfl
  | cons c text ih =>
      rw [List.flatMap_cons, List.append_assoc, readChars_dumpsChar, ih]
      rfl

/-- With its quotes. -/
theorem readString_dumps (s : String) (rest : List Char) :
    readString (dumpsString s ++ rest) = some (s.toList, rest) := by
  have hquoted : dumpsString s ++ rest =
      '\x22' :: (s.toList.flatMap dumpsChar ++ '\x22' :: rest) := by simp [dumpsString]
  rw [hquoted]
  exact readChars_flatMap s.toList rest

/-- As a value. -/
theorem readValue_dumps (s : String) (rest : List Char) :
    readValue (dumpsString s ++ rest) = some (.string s, rest) := by
  have hquoted : dumpsString s ++ rest =
      '\x22' :: (s.toList.flatMap dumpsChar ++ '\x22' :: rest) := by simp [dumpsString]
  rw [hquoted]
  show (readChars none _).map _ = _
  rw [readChars_flatMap, Option.map_some]
  dsimp only
  rw [String.ofList_toList]

/-- A member whose key and value are read. -/
theorem readMember_dumps (key : String) {cs rest : List Char} {value : Value}
    (h : readValue cs = some (value, rest)) :
    readMember (dumpsString key ++ ':' :: cs) = some ((key, value), rest) := by
  have hcolon : expect ':' (':' :: cs) = some cs := by simp [expect]
  unfold readMember
  simp only [Option.bind_eq_bind, readString_dumps, Option.bind_some, hcolon, h]
  rw [String.ofList_toList]
  rfl

/-- A member with another one after it. -/
theorem readMembers_more {n : Nat} {cs rest : List Char} {member : String × Value}
    (h : readMember cs = some (member, ',' :: rest)) :
    readMembers (n + 1) cs = (readMembers n rest).map (member :: ·) := by
  simp only [readMembers, h]

/-- The last member. -/
theorem readMembers_last {n : Nat} {cs : List Char} {member : String × Value}
    (h : readMember cs = some (member, ['\x7d'])) : readMembers (n + 1) cs = some [member] := by
  simp only [readMembers, h]

/-- **What the cache writes is read back.** -/
theorem loads_reads_back : ReadsBack loads := by
  intro entry
  -- the content, member by member
  have htext : dumps entry = '\x7b' :: (dumpsString "schema" ++ ':' :: '1' :: ',' ::
      (dumpsString "origin" ++ ':' :: (dumpsString entry.origin ++ ',' ::
        (dumpsString "token" ++ ':' :: (dumpsString entry.token ++ ['\x7d']))))) := by
    unfold dumps
    simp only [List.append_assoc]
    rfl
  have hschema : readValue ('1' :: ',' :: (dumpsString "origin" ++ ':' ::
      (dumpsString entry.origin ++ ',' :: (dumpsString "token" ++ ':' ::
        (dumpsString entry.token ++ ['\x7d']))))) = some (.nat 1, ',' ::
      (dumpsString "origin" ++ ':' :: (dumpsString entry.origin ++ ',' ::
        (dumpsString "token" ++ ':' :: (dumpsString entry.token ++ ['\x7d']))))) := rfl
  have horigin := readValue_dumps entry.origin (',' :: (dumpsString "token" ++ ':' ::
    (dumpsString entry.token ++ ['\x7d'])))
  have htoken := readValue_dumps entry.token ['\x7d']
  have hmembers : ∀ n, readMembers (n + 3) (dumpsString "schema" ++ ':' :: '1' :: ',' ::
      (dumpsString "origin" ++ ':' :: (dumpsString entry.origin ++ ',' ::
        (dumpsString "token" ++ ':' :: (dumpsString entry.token ++ ['\x7d']))))) =
      some [("schema", .nat 1), ("origin", .string entry.origin),
        ("token", .string entry.token)] := by
    intro n
    rw [readMembers_more (readMember_dumps "schema" hschema),
      readMembers_more (readMember_dumps "origin" horigin),
      readMembers_last (readMember_dumps "token" htoken)]
    rfl
  have hobject : ∀ cs : List Char, 3 ≤ cs.length →
      readObject ('\x7b' :: cs) = (readMembers (cs.length - 3 + 3) cs).map .object := by
    intro cs hcs
    rw [Nat.sub_add_cancel hcs]
    rfl
  unfold loads fileContent
  rw [Text.decode_encode, Option.bind_some, String.toList_ofList, htext, hobject, hmembers]
  · rfl
  · simp only [List.length_append, List.length_cons]
    omega

/-- A digit is ASCII. -/
theorem digitChar_ascii {n : Nat} (h : n < 16) : n.digitChar.toNat < 128 := by
  have hall : ∀ n, n < 16 → n.digitChar.toNat < 128 := by decide
  exact hall n h

/-- So is every character as it is written. -/
theorem dumpsChar_ascii {c d : Char} (h : d ∈ dumpsChar c) : d.toNat < 128 := by
  have hhex : ∀ n, ∀ d ∈ Char.ofNat 0x5C :: 'u' ::
      [n / 4096 % 16, n / 256 % 16, n / 16 % 16, n % 16].map Nat.digitChar, d.toNat < 128 := by
    intro n d hd
    simp only [List.map_cons, List.map_nil, List.mem_cons, List.not_mem_nil, or_false] at hd
    rcases hd with rfl | rfl | rfl | rfl | rfl | rfl
    · decide
    · decide
    · exact digitChar_ascii (by omega)
    · exact digitChar_ascii (by omega)
    · exact digitChar_ascii (by omega)
    · exact digitChar_ascii (by omega)
  have hshort : ∀ n, c.toNat = n → n < 128 → d = Char.ofNat 0x5C ∨ d = c → d.toNat < 128 := by
    intro n hn hsmall hd
    rcases hd with rfl | rfl
    · decide
    · omega
  unfold dumpsChar at h
  dsimp only at h
  split at h
  · next hc => exact hshort _ hc (by decide) (by simpa using h)
  · next hc => exact hshort _ hc (by decide) (by simpa using h)
  · rcases List.mem_pair.mp h with rfl | rfl <;> decide
  · rcases List.mem_pair.mp h with rfl | rfl <;> decide
  · rcases List.mem_pair.mp h with rfl | rfl <;> decide
  · rcases List.mem_pair.mp h with rfl | rfl <;> decide
  · rcases List.mem_pair.mp h with rfl | rfl <;> decide
  · split_ifs at h with hplain hunit
    · rw [List.mem_singleton.mp h]
      omega
    · exact hhex _ d h
    · rcases List.mem_append.mp h with h | h
      · exact hhex _ d h
      · exact hhex _ d h

/-- And every text. -/
theorem dumpsString_ascii {s : String} {c : Char} (h : c ∈ dumpsString s) : c.toNat < 128 := by
  unfold dumpsString at h
  rw [List.cons_append] at h
  rcases List.mem_cons.mp h with rfl | h
  · decide
  · rcases List.mem_append.mp h with h | h
    · obtain ⟨d, -, hd⟩ := List.mem_flatMap.mp h
      exact dumpsChar_ascii hd
    · rw [List.mem_singleton.mp h]
      decide

/-- The content has as many bytes as characters. -/
theorem length_fileContent (entry : CachedToken) :
    (fileContent entry).length = (dumps entry).length := by
  apply Text.length_encode_ascii
  intro c hc
  have hfixed : ∀ text : List Char, text.all (fun c => decide (c.toNat < 128)) = true →
      c ∈ text → c.toNat < 128 := by
    intro text hall hmem
    exact of_decide_eq_true (List.all_eq_true.mp hall c hmem)
  unfold dumps at hc
  simp only [List.append_assoc, List.mem_append] at hc
  rcases hc with hc | hc | hc | hc | hc
  · exact hfixed _ (by decide) hc
  · exact dumpsString_ascii hc
  · exact hfixed _ (by decide) hc
  · exact dumpsString_ascii hc
  · exact hfixed _ (by decide) hc

/-- **What a save accepts is read as it was.** -/
theorem readEntry_fileContent {loads : Bytes → Except LoadsError Value} (hloads : ReadsBack loads)
    {entry : CachedToken} (htoken : validToken entry.token = true)
    (hsize : (dumps entry).length ≤ maxCacheBytes) :
    readEntry loads (fileContent entry) = some entry := by
  have hlength := (length_fileContent entry).trans_le hsize
  have hguard : (guard ((fileContent entry).length ≤ maxCacheBytes) : Option Unit) = some () :=
    if_pos hlength
  have hvalid : (guard (validToken entry.token = true) : Option Unit) = some () := if_pos htoken
  unfold readEntry
  rw [hguard, hloads entry]
  show (guard (validToken entry.token = true) : Option Unit).bind _ = _
  rw [hvalid]
  rfl

end SshHomelab
