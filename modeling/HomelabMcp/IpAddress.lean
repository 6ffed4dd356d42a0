import HomelabMcp.Text

/-!
# IP addresses as the standard library reads them

The parser of Rust's `core::net`: dotted IPv4 without leading zeros, and IPv6 with at most one `::`
and an IPv4 tail.  A parser takes characters and returns its value with the characters left.
-/

namespace IpAddress

/-- A parser of the start of a text. -/
abbrev Parser (α : Type) := List Char → Option (α × List Char)

/-- The value of a digit in a radix. -/
def digit (radix : Nat) (c : Char) : Option Nat :=
  let value :=
    if '0' ≤ c ∧ c ≤ '9' then some (c.toNat - 48)
    else if 'a' ≤ c ∧ c ≤ 'f' then some (c.toNat - 87)
    else if 'A' ≤ c ∧ c ≤ 'F' then some (c.toNat - 55)
    else none
  value.filter (· < radix)

/-- The longest run of digits, with the characters left. -/
def digits (radix : Nat) : List Char → List Nat × List Char
  | [] => ([], [])
  | c :: cs => match digit radix c with
      | some d => (d :: (digits radix cs).1, (digits radix cs).2)
      | none => ([], c :: cs)

/-- A number of at most `maxDigits` digits below `bound`. -/
def readNumber (radix maxDigits : Nat) (allowZeroPrefix : Bool) (bound : Nat) : Parser Nat :=
  fun cs =>
    let (ds, rest) := digits radix cs
    let value := ds.foldl (fun n d => radix * n + d) 0
    if ds.isEmpty || ds.length > maxDigits || bound ≤ value then none
    else if !allowZeroPrefix && ds.head? == some 0 && ds.length > 1 then none
    else some (value, rest)

/-- `inner`, after the separator unless it is the first item. -/
def readSeparated (sep : Char) (index : Nat) {α : Type} (inner : Parser α) : Parser α := fun cs =>
  if index = 0 then inner cs
  else match cs with
    | c :: rest => if c = sep then inner rest else none
    | [] => none

/-- Four octets; `count` of them are left. -/
def readOctets : (count : Nat) → Parser (List Nat)
  | 0, cs => some ([], cs)
  | count + 1, cs => do
      let (octet, rest) ← readSeparated '.' (3 - count) (readNumber 10 3 false 256) cs
      let (octets, rest) ← readOctets count rest
      return (octet :: octets, rest)

/-- `read_ipv4_addr`: four numbers. -/
def readIpv4 : Parser (List Nat) := readOctets 4

/-- Groups of an IPv6 address, `left` of them at most; an IPv4 address stands for two and ends
them. -/
def readGroups (index : Nat) : (left : Nat) → List Char → List Nat × Bool × List Char
  | 0, cs => ([], false, cs)
  | left + 1, cs =>
      let ipv4 := if 0 < left then readSeparated ':' index readIpv4 cs else none
      match ipv4 with
      | some ([a, b, c, d], rest) => ([256 * a + b, 256 * c + d], true, rest)
      | _ => match readSeparated ':' index (readNumber 16 4 true 65536) cs with
          | some (group, rest) =>
              let (groups, isIpv4, rest) := readGroups (index + 1) left rest
              (group :: groups, isIpv4, rest)
          | none => ([], false, cs)

/-- `read_ipv6_addr`: eight groups, or fewer around two colons. -/
def readIpv6 : Parser (List Nat) := fun cs =>
  let (head, isIpv4, rest) := readGroups 0 8 cs
  if head.length = 8 then some (head, rest)
  else if isIpv4 then none
  else match rest with
    | ':' :: ':' :: rest =>
        let (tail, _, rest) := readGroups 0 (7 - head.length) rest
        some (head ++ List.replicate (8 - head.length - tail.length) 0 ++ tail, rest)
    | _ => none

/-- The groups of an address that takes up the whole text. -/
def parse (s : String) : Option (List Nat) :=
  match (readIpv4 s.toList).or (readIpv6 s.toList) with
  | some (groups, []) => some groups
  | _ => none

example : parse "192.0.2.1" = some [192, 0, 2, 1] ∧ parse "192.0.02.1" = none ∧
    parse "2001:db8::1" = some [0x2001, 0xdb8, 0, 0, 0, 0, 0, 1] ∧
    parse "::ffff:192.0.2.1" = some [0, 0, 0, 0, 0, 0xffff, 0xc000, 0x201] ∧
    parse "1:2:3:4:5:6:7::8" = none := by decide

/-- The characters an address is written with. -/
def isAddressChar (c : Char) : Bool :=
  (digit 16 c).isSome || c == ':' || c == '.'

/-- What a parser leaves comes after characters of the alphabet. -/
def Consumes (cs rest : List Char) : Prop :=
  ∃ front, cs = front ++ rest ∧ ∀ c ∈ front, isAddressChar c = true

/-- Nothing consumed is nothing else. -/
theorem Consumes.refl (cs : List Char) : Consumes cs cs :=
  ⟨[], rfl, fun _ hc => absurd hc List.not_mem_nil⟩

/-- One character of the alphabet. -/
theorem Consumes.cons {c : Char} {cs rest : List Char} (hc : isAddressChar c = true)
    (h : Consumes cs rest) : Consumes (c :: cs) rest := by
  obtain ⟨front, rfl, hfront⟩ := h
  exact ⟨c :: front, rfl, List.forall_mem_cons.mpr ⟨hc, hfront⟩⟩

/-- Two parts, one after the other. -/
theorem Consumes.trans {cs middle rest : List Char} (h : Consumes cs middle)
    (h' : Consumes middle rest) : Consumes cs rest := by
  obtain ⟨front, rfl, hfront⟩ := h
  obtain ⟨front', rfl, hfront'⟩ := h'
  refine ⟨front ++ front', (List.append_assoc _ _ _).symm, ?_⟩
  exact List.forall_mem_append.mpr ⟨hfront, hfront'⟩

/-- A decimal digit is a hexadecimal one. -/
theorem isAddressChar_of_digit {radix : Nat} (hradix : radix ≤ 16) {c : Char} {d : Nat}
    (h : digit radix c = some d) : isAddressChar c = true := by
  have hhex : digit 16 c = some d := by
    unfold digit at h ⊢
    rw [Option.filter_eq_some_iff] at h ⊢
    have hlt : d < radix := of_decide_eq_true h.2
    exact ⟨h.1, decide_eq_true (by omega)⟩
  unfold isAddressChar
  rw [hhex]
  rfl

/-- Digits are of the alphabet. -/
theorem consumes_digits {radix : Nat} (hradix : radix ≤ 16) (cs : List Char) :
    Consumes cs (digits radix cs).2 := by
  induction cs with
  | nil => exact Consumes.refl []
  | cons c cs ih =>
      unfold digits
      cases hdigit : digit radix c with
      | none => exact Consumes.refl (c :: cs)
      | some d => exact ih.cons (isAddressChar_of_digit hradix hdigit)

/-- So is a number. -/
theorem consumes_readNumber {radix maxDigits bound value : Nat} {allowZeroPrefix : Bool}
    (hradix : radix ≤ 16) {cs rest : List Char}
    (h : readNumber radix maxDigits allowZeroPrefix bound cs = some (value, rest)) :
    Consumes cs rest := by
  have hrest : (digits radix cs).2 = rest := by
    unfold readNumber at h
    grind
  exact hrest ▸ consumes_digits hradix cs

/-- So is what follows a separator of the alphabet. -/
theorem consumes_readSeparated {sep : Char} (hsep : isAddressChar sep = true) {index : Nat}
    {α : Type} {inner : Parser α}
    (hinner : ∀ cs value rest, inner cs = some (value, rest) → Consumes cs rest)
    {cs rest : List Char} {value : α}
    (h : readSeparated sep index inner cs = some (value, rest)) : Consumes cs rest := by
  unfold readSeparated at h
  split_ifs at h with hindex
  · exact hinner cs value rest h
  · cases cs with
    | nil => simp at h
    | cons c cs =>
        by_cases hc : c = sep
        · subst hc
          exact (hinner cs value rest (by simpa using h)).cons hsep
        · simp [hc] at h

/-- So are four numbers. -/
theorem consumes_readOctets {count : Nat} {cs rest : List Char} {octets : List Nat}
    (h : readOctets count cs = some (octets, rest)) : Consumes cs rest := by
  induction count generalizing cs octets with
  | zero =>
      obtain ⟨-, rfl⟩ : [] = octets ∧ cs = rest := by simpa [readOctets] using h
      exact Consumes.refl cs
  | succ count ih =>
      simp only [readOctets, Option.bind_eq_bind, Option.bind_eq_some_iff] at h
      obtain ⟨⟨octet, middle⟩, hfirst, ⟨more, rest'⟩, hmore, hend⟩ := h
      obtain ⟨-, rfl⟩ : octet :: more = octets ∧ rest' = rest := by simpa using hend
      have hnumber : Consumes cs middle := consumes_readSeparated (by decide)
        (fun _ _ _ hread => consumes_readNumber (by decide) hread) hfirst
      exact hnumber.trans (ih hmore)

/-- So are groups. -/
theorem consumes_readGroups (index left : Nat) (cs : List Char) :
    Consumes cs (readGroups index left cs).2.2 := by
  induction left generalizing index cs with
  | zero => exact Consumes.refl cs
  | succ left ih =>
      unfold readGroups
      dsimp only
      split
      · next a b c d rest hipv4 =>
          split_ifs at hipv4
          exact consumes_readSeparated (by decide)
            (fun _ _ _ hread => consumes_readOctets hread) hipv4
      · split
        · next group rest hgroup =>
            have hnumber : Consumes cs rest := consumes_readSeparated (by decide)
              (fun _ _ _ hread => consumes_readNumber (by decide) hread) hgroup
            exact hnumber.trans (ih (index + 1) rest)
        · exact Consumes.refl cs

/-- And a whole address. -/
theorem consumes_readIpv6 {cs rest : List Char} {groups : List Nat}
    (h : readIpv6 cs = some (groups, rest)) : Consumes cs rest := by
  have hhead : Consumes cs (readGroups 0 8 cs).2.2 := consumes_readGroups 0 8 cs
  unfold readIpv6 at h
  dsimp only at h
  split_ifs at h with hfull hipv4
  · obtain ⟨-, rfl⟩ : _ ∧ _ = rest := by simpa using h
    exact hhead
  · split at h
    · next tail htail =>
        obtain ⟨-, rfl⟩ : _ ∧ _ = rest := by simpa using h
        rw [htail] at hhead
        have hcolons : Consumes (':' :: ':' :: tail) tail :=
          ((Consumes.refl tail).cons (by decide)).cons (by decide)
        exact (hhead.trans hcolons).trans (consumes_readGroups 0 _ tail)
    · simp at h

/-- **An address is written with hexadecimal digits, colons and dots only.** -/
theorem isAddressChar_of_parse {s : String} (h : (parse s).isSome) :
    ∀ c ∈ s.toList, isAddressChar c = true := by
  have hwhole : Consumes s.toList [] := by
    obtain ⟨groups, hgroups⟩ := Option.isSome_iff_exists.mp h
    unfold parse at hgroups
    split at hgroups
    · next groups' hread =>
        rw [Option.or_eq_some_iff] at hread
        rcases hread with hipv4 | ⟨-, hipv6⟩
        · exact consumes_readOctets hipv4
        · exact consumes_readIpv6 hipv6
    · simp at hgroups
  obtain ⟨front, hfront, hall⟩ := hwhole
  rw [hfront, List.append_nil]
  exact hall

end IpAddress
