import HomelabMcp.DeployRunLaws

/-!
# Host pins

A machine's host key is checked when it is stored and again before a deploy, and is then written
to a file of known hosts.

* `pins_exact`: the two checks accept the same keys; the file a worker writes, once at most, is one
  line of one host token, one type and one key, and the token means nothing but itself; tokens of
  hosts and ports that differ differ.
* `parsed_iff` and `compared_iff`: the strings read one after the other, and the bytes compared at
  fixed offsets, are the same bytes.

The decoder of base64 is a parameter that takes no white space.
-/

namespace Deploys

open Interaction SupervisedTask
open Inventory (Machine sshString ed25519Name validateHostPublicKey validSshHost)
open Text (Bytes)

/-- The wire form of a key. -/
def keyBytes (publicKey : Bytes) : Bytes :=
  [0, 0, 0, 11] ++ ed25519Name ++ [0, 0, 0, 32] ++ publicKey

/-- A string that was read stands behind its length. -/
theorem sshString_some {bytes value : Bytes} {offset finish : Nat}
    (h : sshString bytes offset = some (value, finish)) :
    ∃ a b c d : UInt8, bytes.drop offset = [a, b, c, d] ++ (value ++ bytes.drop finish) ∧
      value.length = ((a.toNat * 256 + b.toNat) * 256 + c.toNat) * 256 + d.toNat ∧
      finish = offset + 4 + value.length ∧ finish ≤ bytes.length := by
  unfold sshString at h
  split at h
  · next a b c d hprefix =>
      dsimp only at h
      split_ifs at h with hfits
      · simp only [Option.some.injEq, Prod.mk.injEq] at h
        obtain ⟨rfl, rfl⟩ := h
        have hlength : ((bytes.drop (offset + 4)).take
            (((a.toNat * 256 + b.toNat) * 256 + c.toNat) * 256 + d.toNat)).length =
            ((a.toNat * 256 + b.toNat) * 256 + c.toNat) * 256 + d.toNat := by
          rw [List.length_take, List.length_drop]
          omega
        refine ⟨a, b, c, d, ?_, hlength, by rw [hlength], hfits⟩
        have hrest : ∀ n, bytes.drop (offset + 4 + n) = (bytes.drop (offset + 4)).drop n :=
          fun n => List.drop_drop.symm
        rw [← hprefix, hrest, List.take_append_drop, ← List.drop_drop, List.take_append_drop]
  · simp at h

/-- A small length has zeros in front. -/
theorem be32_eq_small {a b c d : UInt8} {n : Nat} (hn : n < 256)
    (h : n = ((a.toNat * 256 + b.toNat) * 256 + c.toNat) * 256 + d.toNat) :
    a = 0 ∧ b = 0 ∧ c = 0 ∧ d.toNat = n := by
  have ha := a.toNat_lt
  have hb := b.toNat_lt
  have hc := c.toNat_lt
  have hd := d.toNat_lt
  refine ⟨?_, ?_, ?_, by omega⟩
  · exact UInt8.toNat_inj.mp (by change a.toNat = 0; omega)
  · exact UInt8.toNat_inj.mp (by change b.toNat = 0; omega)
  · exact UInt8.toNat_inj.mp (by change c.toNat = 0; omega)

/-- What the inventory reads from the bytes of a key. -/
theorem parsed_iff {decoded : Bytes} :
    (∃ middle publicKey, sshString decoded 0 = some (ed25519Name, middle) ∧
      sshString decoded middle = some (publicKey, decoded.length) ∧ publicKey.length = 32) ↔
      ∃ publicKey : Bytes, publicKey.length = 32 ∧ decoded = keyBytes publicKey := by
  constructor
  · rintro ⟨middle, publicKey, hname, hkey, hlength⟩
    obtain ⟨a, b, c, d, hfirst, hn, -, -⟩ := sshString_some hname
    obtain ⟨a', b', c', d', hsecond, hn', -, -⟩ := sshString_some hkey
    have hnlen : ed25519Name.length = 11 := rfl
    rw [hnlen] at hn
    rw [hlength] at hn'
    obtain ⟨rfl, rfl, rfl, hd⟩ := be32_eq_small (by decide) hn
    obtain ⟨rfl, rfl, rfl, hd'⟩ := be32_eq_small (by decide) hn'
    obtain rfl : d = 11 := UInt8.toNat_inj.mp hd
    obtain rfl : d' = 32 := UInt8.toNat_inj.mp hd'
    refine ⟨publicKey, hlength, ?_⟩
    rw [List.drop_length, List.append_nil] at hsecond
    rw [hsecond, List.drop_zero] at hfirst
    rw [hfirst]
    simp [keyBytes]
  · rintro ⟨publicKey, hlength, rfl⟩
    have htake : publicKey.take 32 = publicKey := List.take_of_length_le (by omega)
    refine ⟨15, publicKey, ?_, ?_, hlength⟩
    · simp [sshString, keyBytes, ed25519Name]
    · simp [sshString, keyBytes, ed25519Name, hlength, htake]

/-- What the runner compares of them. -/
theorem compared_iff {decoded : Bytes} :
    (decoded.length = 51 ∧ decoded.take 15 = [0, 0, 0, 11] ++ ed25519Name ∧
      (decoded.drop 15).take 4 = [0, 0, 0, 32]) ↔
      ∃ publicKey : Bytes, publicKey.length = 32 ∧ decoded = keyBytes publicKey := by
  constructor
  · rintro ⟨hlength, hname, hsize⟩
    refine ⟨decoded.drop 19, by rw [List.length_drop, hlength], ?_⟩
    calc decoded = decoded.take 15 ++ decoded.drop 15 := (List.take_append_drop _ _).symm
      _ = decoded.take 15 ++ ((decoded.drop 15).take 4 ++ (decoded.drop 15).drop 4) := by
        rw [List.take_append_drop 4]
      _ = keyBytes (decoded.drop 19) := by
        rw [hname, hsize, List.drop_drop]
        simp [keyBytes]
  · rintro ⟨publicKey, hlength, rfl⟩
    refine ⟨?_, ?_, ?_⟩
    · simp [keyBytes, ed25519Name, hlength]
    · simp [keyBytes, ed25519Name]
    · simp [keyBytes, ed25519Name]

/-- A key in the form both checks ask for. -/
structure Pin (decode : String → Option Bytes) (key encoded : String) : Prop where
  size : key.utf8ByteSize ≤ 256
  fields : Text.split key ' ' = ["ssh-ed25519", encoded]
  nonempty : encoded.isEmpty = false
  bytes : ∃ publicKey : Bytes, publicKey.length = 32 ∧ decode encoded = some (keyBytes publicKey)

/-- The decoder of base64 takes no white space. -/
def RejectsWhitespace (decode : String → Option Bytes) : Prop :=
  ∀ encoded bytes, decode encoded = some bytes → ∀ c ∈ encoded.toList, Text.isWhitespace c = false

variable {decode : String → Option Bytes} {key encoded : String}

/-- The runner accepts the pins. -/
theorem validateHostPin_iff {crates : Crates} {pin : String} :
    validateHostPin crates pin = .ok () ↔ ∃ encoded, Pin crates.decodeBase64 pin encoded := by
  unfold validateHostPin
  constructor
  · intro h
    split at h
    · next encoded hfields =>
        split_ifs at h with hbad
        simp only [Bool.or_eq_true, not_or, decide_eq_true_eq] at hbad
        split at h
        · simp at h
        · next bytes hdecode =>
            split_ifs at h with hbytes
            simp only [bne_iff_ne, Bool.or_eq_true, not_or, not_not] at hbytes
            obtain ⟨publicKey, hlength, rfl⟩ :=
              compared_iff.mp ⟨hbytes.1.1, hbytes.1.2, hbytes.2⟩
            exact ⟨encoded, by omega, hfields, by simpa using hbad.1, publicKey, hlength, hdecode⟩
    · simp at h
  · rintro ⟨encoded, hsize, hfields, hnonempty, publicKey, hlength, hdecode⟩
    have hbytes := compared_iff.mpr ⟨publicKey, hlength, rfl⟩
    have hsmall : ¬ pin.utf8ByteSize > 256 := by omega
    simp [hfields, hnonempty, hsmall, hdecode, hbytes]

/-- So does the inventory, where nothing stands around them. -/
theorem validateHostPublicKey_iff : validateHostPublicKey decode key = .ok () ↔
    Text.trim key = key ∧ ∃ encoded, Pin decode key encoded := by
  unfold validateHostPublicKey
  constructor
  · intro h
    split_ifs at h with hbad
    simp only [Bool.or_eq_true, not_or, decide_eq_true_eq, bne_iff_ne, not_not] at hbad
    refine ⟨hbad.2, ?_⟩
    split at h
    · next encoded hfields =>
        split_ifs at h with hempty
        split at h
        · simp at h
        · next decoded hdecode =>
            split at h
            · simp at h
            · next algorithm middle hname =>
                split at h
                · simp at h
                · next publicKey finish hkey =>
                    split_ifs at h with hbytes
                    simp only [bne_iff_ne, Bool.or_eq_true, not_or, not_not] at hbytes
                    obtain ⟨⟨rfl, hlength⟩, rfl⟩ := hbytes
                    obtain ⟨publicKey, hlength, rfl⟩ :=
                      parsed_iff.mp ⟨middle, publicKey, hname, hkey, hlength⟩
                    exact ⟨encoded, by omega, hfields, by simpa using hempty, publicKey, hlength,
                      hdecode⟩
    · simp at h
  · rintro ⟨htrim, encoded, hsize, hfields, hnonempty, publicKey, hlength, hdecode⟩
    obtain ⟨middle, publicKey', hname, hkey, hlength'⟩ :=
      parsed_iff.mpr ⟨publicKey, hlength, rfl⟩
    have hsmall : ¬ key.utf8ByteSize > 256 := by omega
    simp [htrim, hsmall, hfields, hnonempty, hdecode, hname, hkey, hlength']

/-- The text of a key is its type, a space and its base64. -/
theorem Pin.text (h : Pin decode key encoded) :
    key.toList = "ssh-ed25519".toList ++ ' ' :: encoded.toList := by
  have hjoin := Text.intercalate_pieces ' ' key.toList
  have hfields := congrArg (List.map String.toList) h.fields
  simp only [Text.split, List.map_map, List.map_cons, List.map_nil] at hfields
  have hpieces : Text.pieces (· == ' ') key.toList = ["ssh-ed25519".toList, encoded.toList] := by
    rw [← hfields]
    simp
  rw [hpieces] at hjoin
  simpa using hjoin.symm

/-- The text of a pin has no blank. -/
theorem Pin.plain (hdecode : RejectsWhitespace decode) (h : Pin decode key encoded) :
    ∀ c ∈ encoded.toList, Text.isWhitespace c = false := by
  obtain ⟨publicKey, -, hbytes⟩ := h.bytes
  exact hdecode encoded _ hbytes

/-- A key in that form has no white space at its ends. -/
theorem Pin.trim (hdecode : RejectsWhitespace decode) (h : Pin decode key encoded) :
    Text.trim key = key := by
  have hplain := h.plain hdecode
  have hne : encoded.toList ≠ [] := by
    intro hnil
    have hempty : encoded = "" := String.toList_eq_nil_iff.mp hnil
    have hnonempty := h.nonempty
    rw [hempty] at hnonempty
    simp at hnonempty
  have hstart : key.toList.dropWhile Text.isWhitespace = key.toList := by
    rw [h.text]
    rfl
  have hend : key.toList.rdropWhile Text.isWhitespace = key.toList := by
    rw [List.rdropWhile_eq_self_iff]
    intro hkey
    have hlast : key.toList.getLast hkey ∈ encoded.toList := by
      have hcons : ' ' :: encoded.toList ≠ [] := List.cons_ne_nil _ _
      rw [List.getLast_congr hkey (List.append_ne_nil_of_right_ne_nil _ hcons) h.text,
        List.getLast_append_of_ne_nil _ hcons, List.getLast_cons hne]
      exact List.getLast_mem hne
    rw [hplain _ hlast]
    decide
  unfold Text.trim
  rw [hstart, hend, String.ofList_toList]

/-- **The two checks of a host key accept the same keys.** -/
theorem checks_agree {crates : Crates} (hdecode : RejectsWhitespace crates.decodeBase64)
    (key : String) :
    validateHostPublicKey crates.decodeBase64 key = .ok () ↔ validateHostPin crates key = .ok () := by
  rw [validateHostPublicKey_iff, validateHostPin_iff]
  constructor
  · exact fun h => h.2
  · rintro ⟨encoded, hpin⟩
    exact ⟨hpin.trim hdecode, encoded, hpin⟩

/-- The characters that mean something in a file of known hosts. -/
def marks : List Char := [',', '*', '?', '!', '#', '@', '|']

/-- A character that only stands for itself there. -/
def isPlain (c : Char) : Bool := !Text.isWhitespace c && !marks.contains c

/-- Letters and digits are plain. -/
theorem isPlain_of_alphanumeric {c : Char} (h : Inventory.isAsciiAlphanumeric c = true) :
    isPlain c = true := by
  have hrange := Inventory.isAsciiAlphanumeric_iff.mp h
  have hspace : Text.isWhitespace c = false := by
    simp only [Text.isWhitespace, Bool.or_eq_false_iff, Bool.and_eq_false_iff,
      decide_eq_false_iff_not, List.contains_eq_mem, List.mem_cons, List.not_mem_nil, not_or,
      not_false_eq_true, and_true]
    omega
  have hmark : marks.contains c = false := by
    rw [List.contains_eq_mem, decide_eq_false_iff_not]
    intro hmem
    have hnone : marks.all (fun m => !Inventory.isAsciiAlphanumeric m) = true := by decide
    have hc := List.all_eq_true.mp hnone c hmem
    rw [h] at hc
    simp at hc
  rw [isPlain, hspace, hmark]
  rfl

/-- So are the characters of hosts. -/
theorem isPlain_of_hostChar {c : Char} (h : Inventory.isHostChar c = true) : isPlain c = true := by
  unfold Inventory.isHostChar at h
  simp only [Bool.or_eq_true, beq_iff_eq] at h
  rcases h with ((halnum | rfl) | rfl) | rfl
  · exact isPlain_of_alphanumeric halnum
  · decide
  · decide
  · decide

/-- The characters of a number. -/
theorem isPlain_of_number {n : Nat} {c : Char} (h : c ∈ (toString n).toList) : isPlain c = true := by
  have hdigit : c.isDigit = true := by
    have hmem : c ∈ Nat.toDigits 10 n := by simpa using h
    exact Nat.isDigit_of_mem_toDigits (by decide) (by decide) hmem
  apply isPlain_of_alphanumeric
  rw [Char.isDigit, Bool.and_eq_true, decide_eq_true_eq, decide_eq_true_eq] at hdigit
  rw [Inventory.isAsciiAlphanumeric_iff]
  exact Or.inl ⟨hdigit.1, hdigit.2⟩

variable {host host' : String} {port port' : UInt16}

/-- The host as it stands in the file, with its port where that is another. -/
theorem knownHostsHost_toList (host : String) (port : UInt16) :
    (knownHostsHost host port).toList = if port = 22 then host.toList
      else '[' :: (host.toList ++ ']' :: ':' :: (toString port.toNat).toList) := by
  unfold knownHostsHost
  split_ifs
  · rfl
  · simp

/-- **The host token means nothing but itself.** -/
theorem knownHostsHost_plain (h : validSshHost host = true) (port : UInt16) :
    ∀ c ∈ (knownHostsHost host port).toList, isPlain c = true := by
  intro c hc
  have hhost : ∀ c ∈ host.toList, isPlain c = true :=
    fun c hc => isPlain_of_hostChar (Inventory.isHostChar_of_valid h c hc)
  rw [knownHostsHost_toList] at hc
  split_ifs at hc with hport
  · exact hhost c hc
  · simp only [List.mem_cons, List.mem_append] at hc
    rcases hc with rfl | hmem | rfl | rfl | hnumber
    · decide
    · exact hhost c hmem
    · decide
    · decide
    · exact isPlain_of_number hnumber

/-- No other character stands in a host. -/
theorem not_mem_host (h : validSshHost host = true) {c : Char}
    (hc : Inventory.isHostChar c = false) : c ∉ host.toList := by
  intro hmem
  rw [Inventory.isHostChar_of_valid h c hmem] at hc
  simp at hc

/-- **Hosts and ports that differ have tokens that differ.** -/
theorem knownHostsHost_injective (h : validSshHost host = true) (h' : validSshHost host' = true)
    (heq : knownHostsHost host port = knownHostsHost host' port') : host = host' ∧ port = port' := by
  have hlist := congrArg String.toList heq
  rw [knownHostsHost_toList, knownHostsHost_toList] at hlist
  split_ifs at hlist with hport hport' hport'
  · exact ⟨String.toList_inj.mp hlist, hport.trans hport'.symm⟩
  · exact absurd (hlist ▸ List.mem_cons_self) (not_mem_host h (by decide))
  · exact absurd (hlist.symm ▸ List.mem_cons_self) (not_mem_host h' (by decide))
  · have hbracket : Inventory.isHostChar ']' = false := by decide
    obtain ⟨hhost, hnumber⟩ := Text.append_cons_inj (not_mem_host h hbracket)
      (not_mem_host h' hbracket) (List.cons.inj hlist).2
    refine ⟨String.toList_inj.mp hhost, ?_⟩
    have htext : toString port.toNat = toString port'.toNat :=
      String.toList_inj.mp (List.cons.inj hnumber).2
    exact UInt16.toNat_inj.mp (Nat.repr_injective htext)

/-- What the worker writes for a host. -/
def knownHostsText (host : String) (port : UInt16) (pin : String) : String :=
  knownHostsHost host port ++ " " ++ pin ++ "\n"

/-- One line, of a host token, the type of a key, and a key. -/
structure Entry (token key text : String) : Prop where
  line : Text.pieces (· == '\n') text.toList =
    [token.toList ++ ' ' :: ("ssh-ed25519".toList ++ ' ' :: key.toList), []]
  words : (Text.pieces Text.isWhitespace text.toList).filter (fun word => !word.isEmpty) =
    [token.toList, "ssh-ed25519".toList, key.toList]

/-- The first field of the entry is not empty. -/
theorem knownHostsHost_ne_nil (h : validSshHost host = true) (port : UInt16) :
    (knownHostsHost host port).toList ≠ [] := by
  rw [knownHostsHost_toList]
  split_ifs with hport
  · intro hnil
    have hnonempty := (Inventory.validSshHost_cases h).1
    rw [String.toList_eq_nil_iff.mp hnil] at hnonempty
    simp at hnonempty
  · exact List.cons_ne_nil _ _

/-- **The file is one entry**: nothing in the host or the key ends the line or splits a word. -/
theorem entry_of_pin (hdecode : RejectsWhitespace decode) (h : validSshHost host = true)
    (port : UInt16) (hpin : Pin decode key encoded) :
    Entry (knownHostsHost host port) encoded (knownHostsText host port key) := by
  have htoken : ∀ c ∈ (knownHostsHost host port).toList, Text.isWhitespace c = false := by
    intro c hc
    have hplain := knownHostsHost_plain h port c hc
    rw [isPlain, Bool.and_eq_true, Bool.not_eq_true'] at hplain
    exact hplain.1
  have htype : ∀ c ∈ "ssh-ed25519".toList, Text.isWhitespace c = false := by
    have hall : "ssh-ed25519".toList.all (fun c => !Text.isWhitespace c) = true := by decide
    intro c hc
    simpa using List.all_eq_true.mp hall c hc
  have hkey := hpin.plain hdecode
  have htext : (knownHostsText host port key).toList = (knownHostsHost host port).toList ++
      ' ' :: ("ssh-ed25519".toList ++ ' ' :: (encoded.toList ++ ['\n'])) := by
    unfold knownHostsText
    simp only [String.toList_append, hpin.text]
    simp
  have hencoded : encoded.toList ≠ [] := by
    intro hnil
    have hnonempty := hpin.nonempty
    rw [String.toList_eq_nil_iff.mp hnil] at hnonempty
    simp at hnonempty
  constructor
  · have hline : ∀ c ∈ (knownHostsHost host port).toList ++
        ' ' :: ("ssh-ed25519".toList ++ ' ' :: encoded.toList), (c == '\n') = false := by
      intro c hc
      rw [beq_eq_false_iff_ne]
      rintro rfl
      simp only [List.mem_append, List.mem_cons] at hc
      rcases hc with hmem | hspace | hmem | hspace | hmem
      · exact absurd (htoken _ hmem) (by decide)
      · exact absurd hspace (by decide)
      · exact absurd (htype _ hmem) (by decide)
      · exact absurd hspace (by decide)
      · exact absurd (hkey _ hmem) (by decide)
    have hend : (knownHostsText host port key).toList = ((knownHostsHost host port).toList ++
        ' ' :: ("ssh-ed25519".toList ++ ' ' :: encoded.toList)) ++ '\n' :: [] := by
      rw [htext]
      simp
    rw [hend, Text.pieces_append (by rfl), Text.pieces_single hline]
    rfl
  · rw [htext, Text.pieces_append (by decide), Text.pieces_append (by decide),
      Text.pieces_append (by decide), Text.pieces_single htoken, Text.pieces_single htype,
      Text.pieces_single hkey]
    simp [Text.pieces, knownHostsHost_ne_nil h port, hencoded]

/-- The text a worker writes to a file of known hosts. -/
def knownHostsWrite : Op → Option String
  | .writeAll path text => if "/known_hosts".toList <:+ path.toList then some text else none
  | _ => none

/-- What a worker has written to a file of known hosts, and whether the write succeeded. -/
def knownHostsWritten : (op : Op) → Ans op → Option (String × Bool)
  | .writeAll path text, written =>
      (knownHostsWrite (.writeAll path text)).map fun text => (text, written)
  | _, _ => none

/-- The operation that starts uv. -/
def Op.startsUv : Op → Bool
  | .spawnUv _ => true
  | _ => false

/-- An operation that writes no such file and does not start uv. -/
def Op.Other (op : Op) : Prop := knownHostsWrite op = none ∧ op.startsUv = false

/-- A write shows in what was written under its text. -/
theorem knownHostsWritten_text (op : Op) (answer : Ans op) :
    (knownHostsWritten op answer).map Prod.fst = knownHostsWrite op := by
  cases op with
  | writeAll path text =>
      show ((knownHostsWrite (.writeAll path text)).map fun text => (text, answer)).map Prod.fst = _
      cases knownHostsWrite (.writeAll path text) <;> rfl
  | _ => rfl

/-- An operation of another kind writes no such file. -/
theorem knownHostsWritten_none {op : Op} (h : knownHostsWrite op = none) (answer : Ans op) :
    knownHostsWritten op answer = none := by
  have htext := knownHostsWritten_text op answer
  rw [h] at htext
  exact Option.map_eq_none_iff.mp htext

/-- Looking for a cancellation does not write the file. -/
theorem only_cancelledNow : cancelledNow.run.Only Op.Other := by
  refine only_run_bind (only_ask ⟨rfl, rfl⟩) fun received => ?_
  cases received <;> trivial

/-- Nor does reading a file. -/
theorem only_readBounded (path : String) (limit : Nat) :
    (readBounded path limit).run.Only Op.Other := by
  refine only_run_bind (only_ask ⟨rfl, rfl⟩) fun metadata => ?_
  cases metadata with
  | none => trivial
  | some metadata =>
      refine only_run_bind (only_ensure _ _) fun _ => only_run_bind (only_ask ⟨rfl, rfl⟩) fun text => ?_
      cases text <;> trivial

/-- Nor does asking for a signature. -/
theorem only_sign (publicKey : String) : (sign publicKey).run.Only Op.Other := by
  refine only_run_bind (only_ask ⟨rfl, rfl⟩) fun signed => ?_
  cases signed <;> trivial

/-- Nor does making the run directory. -/
theorem only_createRunDir (root : String) (attempts : Nat) :
    (createRunDir root attempts).run.Only Op.Other := by
  induction attempts with
  | zero => trivial
  | succ attempts ih =>
      refine only_run_bind (only_ask ⟨rfl, rfl⟩) fun random => ?_
      cases random with
      | none => trivial
      | some random =>
          refine only_run_bind (only_ask ⟨rfl, rfl⟩) fun outcome => ?_
          cases outcome with
          | created => trivial
          | alreadyExists => exact ih
          | failed => trivial

/-- Nor does watching a process. -/
theorem only_watching (part : ChildProcess.Op → Op) (h : ∀ op, (part op).Other)
    {α : Type} (p : Program ChildProcess.Op (fun op => Ans (part op)) α) :
    (watching part p).run.Only Op.Other := by
  refine Program.Only.bind (Program.only_lift part h p) fun a => ?_
  trivial

/-- Nor does waiting for the key generator. -/
theorem only_awaitKeygen (pid : Nat) : (awaitKeygen pid).run.Only Op.Other := by
  refine only_run_bind (only_ask ⟨rfl, rfl⟩) fun wake => ?_
  obtain ⟨wake, hallow⟩ := wake
  cases wake with
  | exited status => exact only_ensure _ _
  | waitFailed => exact only_run_bind (only_ask ⟨rfl, rfl⟩) fun _ => trivial
  | cancelled => exact only_run_bind (only_watching Op.keygen (fun _ => ⟨rfl, rfl⟩) _) fun _ => trivial
  | expired => exact only_run_bind (only_watching Op.keygen (fun _ => ⟨rfl, rfl⟩) _) fun _ => trivial
  | stdout joined => exact nomatch hallow
  | stderr joined => exact nomatch hallow

/-- Nor does starting it. -/
theorem only_runKeygen (executable key : String) : (runKeygen executable key).run.Only Op.Other := by
  refine only_run_bind (only_ask ⟨rfl, rfl⟩) fun pid => ?_
  cases pid with
  | none => trivial
  | some pid =>
      refine only_run_bind (only_awaitKeygen pid) fun _ => only_run_bind (only_ask ⟨rfl, rfl⟩) fun _ => ?_
      refine only_run_bind (only_ensure _ _) fun _ => only_run_bind (only_ask ⟨rfl, rfl⟩) fun _ => ?_
      exact only_ensure _ _

/-- What is done with uv once it has been started. -/
theorem only_watchUv (spawned : Spawned) :
    (if spawned.stdout && spawned.stderr then do
        answer (← watching Op.uv
          (ChildProcess.watch endings ⟨⟨spawned.pid, false⟩, none, none, none⟩))
      else do
        ask (Op.uv (.kill spawned.pid .leader))
        throw .executionOutcomeUnknown : Worker Bytes).run.Only Op.Other := by
  split_ifs with hpipes
  · exact only_run_bind (only_watching Op.uv (fun _ => ⟨rfl, rfl⟩) _) fun _ => trivial
  · exact only_run_bind (only_ask ⟨rfl, rfl⟩) fun _ => trivial

/-- The certificate is another file. -/
theorem only_writeCertificate (runDir certificate : String) :
    (writePrivate (joinPath runDir "identity-cert.pub") certificate).run.Only Op.Other := by
  have hother : (Op.writeAll (joinPath runDir "identity-cert.pub") certificate).Other := by
    refine ⟨if_neg ?_, rfl⟩
    intro hsuffix
    have hpath : (joinPath runDir "identity-cert.pub").toList =
        runDir.toList ++ "/identity-cert.pub".toList := by
      simp [joinPath]
    rw [hpath] at hsuffix
    have hname := List.suffix_of_suffix_length_le hsuffix (List.suffix_append _ _) (by decide)
    revert hname
    decide
  refine only_run_bind (only_ask ⟨rfl, rfl⟩) fun _ => only_run_bind (only_ensure _ _) fun _ => ?_
  exact only_run_bind (only_ask hother) fun _ => only_ensure _ _

/-- The entry of a checked pin of the machine. -/
def PinEntry (crates : Crates) (machine : Machine) (text : String) : Prop :=
  ∃ pin, machine.pinnedHostPublicKey = some pin ∧ validateHostPin crates pin = .ok () ∧
    text = knownHostsText machine.sshHost machine.sshPort pin

/-- Follows what a worker writes to files of known hosts: once, the entry of a checked pin, and
before it starts uv. -/
def fileMonitor (crates : Crates) (machine : Machine) : Monitor Ans (List (String × Bool)) where
  may written op :=
    (∀ text, knownHostsWrite op = some text → written = [] ∧ PinEntry crates machine text) ∧
    (op.startsUv = true → ∃ text, PinEntry crates machine text ∧ written = [(text, true)])
  next written op answer := written ++ (knownHostsWritten op answer).toList

section Run

variable {crates : Crates} {config : DeployRunnerConfig} {deploy : ResolvedDeploy}
  {machine : Machine} {written : List (String × Bool)} {α β : Type}

/-- An operation of another kind leaves the monitor alone. -/
theorem next_other {op : Op} (h : knownHostsWrite op = none) (answer : Ans op) :
    (fileMonitor crates machine).next written op answer = written := by
  show written ++ (knownHostsWritten op answer).toList = written
  rw [knownHostsWritten_none h]
  exact List.append_nil written

/-- A part that writes no such file leaves the monitor alone. -/
theorem kept_other {x : Worker α} (hx : x.run.Only Op.Other) :
    (fileMonitor crates machine).wp x.run written fun s _ => s = written := by
  refine (fileMonitor crates machine).wp_of_only ?_ ?_ hx
  · intro op hother
    constructor
    · intro text htext
      rw [hother.1] at htext
      cases htext
    · intro hstarts
      rw [hother.2] at hstarts
      cases hstarts
  · intro op answer hother
    exact next_other hother.1 answer

/-- A part that does not write the file keeps what was written. -/
theorem wp_only {x : Worker α} (hx : x.run.Only Op.Other) :
    (fileMonitor crates machine).wp x.run written fun _ _ => True :=
  (fileMonitor crates machine).wp_mono (kept_other hx) fun _ _ _ => trivial

/-- A part that writes no such file, before what follows. -/
theorem wp_other {x : Worker α} {f : α → Worker β} (hx : x.run.Only Op.Other)
    (hf : ∀ a, (fileMonitor crates machine).wp (f a).run written fun _ _ => True) :
    (fileMonitor crates machine).wp (x >>= f).run written fun _ _ => True := by
  rw [Monitor.wp_run_bind]
  refine (fileMonitor crates machine).wp_mono (kept_other hx) ?_
  rintro _ (e | a) rfl
  · trivial
  · exact hf a

/-- The one write; what comes after it finds the entry written. -/
theorem writePrivate_writes {pin runDir : String} (hpin : machine.pinnedHostPublicKey = some pin)
    (hvalid : validateHostPin crates pin = .ok ()) :
    (fileMonitor crates machine).wp (writePrivate (joinPath runDir "known_hosts")
      (knownHostsText machine.sshHost machine.sshPort pin)).run [] fun written r =>
        r = .ok () → written = [(knownHostsText machine.sshHost machine.sshPort pin, true)] := by
  have hwrite : knownHostsWrite (.writeAll (joinPath runDir "known_hosts")
      (knownHostsText machine.sshHost machine.sshPort pin)) =
        some (knownHostsText machine.sshHost machine.sshPort pin) := by
    apply if_pos
    refine ⟨runDir.toList, ?_⟩
    simp [joinPath]
  unfold writePrivate
  rw [Monitor.wp_run_ask_bind]
  refine ⟨⟨nofun, nofun⟩, fun opened => ?_⟩
  rw [next_other rfl]
  apply Monitor.wp_run_ensure_bind
  · intro _
    rw [Monitor.wp_run_ask_bind]
    refine ⟨⟨?_, nofun⟩, fun written => ?_⟩
    · intro text htext
      rw [hwrite] at htext
      obtain rfl := Option.some.inj htext
      exact ⟨rfl, pin, hpin, hvalid, rfl⟩
    · have hnext : (fileMonitor crates machine).next [] (.writeAll (joinPath runDir "known_hosts")
          (knownHostsText machine.sshHost machine.sshPort pin)) written =
            [(knownHostsText machine.sshHost machine.sshPort pin, written)] := by
        show [] ++ ((knownHostsWrite _).map fun text => (text, written)).toList = _
        rw [hwrite]
        rfl
      rw [hnext]
      apply Monitor.wp_run_ensure
      · intro hwritten _
        rw [hwritten]
      · intro _ hok
        cases hok
  · intro _ hok
    cases hok

/-- uv is started when the entry has been written. -/
theorem runUv_writes {text : String} (hentry : PinEntry crates machine text) (inventory : String) :
    (fileMonitor crates machine).wp (runUv config deploy inventory).run [(text, true)]
      fun _ _ => True := by
  unfold runUv
  rw [Monitor.wp_run_ask_bind]
  refine ⟨⟨nofun, fun _ => ⟨text, hentry, rfl⟩⟩, fun spawned => ?_⟩
  rw [next_other rfl]
  cases spawned with
  | none => trivial
  | some spawned => exact wp_only (only_watchUv spawned)

/-- In the run directory the entry of the pin is what is written, before `uv` is spawned. -/
theorem inRunDir_writes {pin : String} (hpin : machine.pinnedHostPublicKey = some pin)
    (hvalid : validateHostPin crates pin = .ok ()) (runDir : String) :
    (fileMonitor crates machine).wp (inRunDir crates config deploy machine pin runDir).run []
      fun _ _ => True := by
  unfold inRunDir
  refine wp_other (only_runKeygen _ _) fun _ => ?_
  refine wp_other (only_readBounded _ _) fun publicKey => ?_
  refine wp_other only_cancelledNow fun _ => ?_
  refine wp_other (only_sign _) fun certificate => ?_
  refine wp_other (only_writeCertificate _ _) fun _ => ?_
  refine wp_other (only_ask ⟨rfl, rfl⟩) fun _ => wp_other (only_ensure _ _) fun _ => ?_
  rw [Monitor.wp_run_bind]
  refine (fileMonitor crates machine).wp_mono (writePrivate_writes hpin hvalid) ?_
  intro written r hwritten
  cases r with
  | error e => trivial
  | ok _ =>
      dsimp only
      rw [hwritten rfl, Monitor.wp_run_bind]
      refine (fileMonitor crates machine).wp_mono (runUv_writes ⟨pin, hpin, hvalid, rfl⟩ _) ?_
      intro written r _
      cases r <;> trivial

/-- The whole worker keeps to that. -/
theorem worker_writes :
    (fileMonitor crates machine).wp (worker crates config deploy machine).run []
      fun _ _ => True := by
  unfold worker
  refine wp_other only_cancelledNow fun _ => ?_
  cases hpin : machine.pinnedHostPublicKey with
  | none => trivial
  | some pin =>
      show (fileMonitor crates machine).wp (answer (validateHostPin crates pin) >>= fun _ =>
        createRunDir config.tempRoot 8 >>= fun runDir =>
          withCleanup runDir (inRunDir crates config deploy machine pin runDir)).run [] _
      cases hvalid : validateHostPin crates pin with
      | error e => trivial
      | ok _ =>
          refine wp_other trivial fun _ => ?_
          refine wp_other (only_createRunDir _ _) fun runDir => ?_
          unfold withCleanup
          rw [Monitor.wp_run_bind, Monitor.wp_run_attempt]
          refine (fileMonitor crates machine).wp_mono (inRunDir_writes hpin hvalid runDir) ?_
          intro written r _
          exact wp_other (only_ask ⟨rfl, rfl⟩) fun _ => trivial

/-- The texts a run writes to files of known hosts. -/
def knownHostsWrites (t : Trace Ans) : List String := t.filterMap fun e => knownHostsWrite e.1

/-- What a run has written to files of known hosts, and whether it succeeded. -/
def knownHostsFiles (t : Trace Ans) : List (String × Bool) :=
  t.filterMap fun e => knownHostsWritten e.1 e.2

/-- The texts of the files are what was written. -/
theorem knownHostsFiles_texts (t : Trace Ans) :
    (knownHostsFiles t).map Prod.fst = knownHostsWrites t := by
  unfold knownHostsFiles knownHostsWrites
  rw [List.map_filterMap]
  congr 1
  funext e
  exact knownHostsWritten_text e.1 e.2

/-- The monitor remembers the files of the trace. -/
theorem after_fileMonitor (written : List (String × Bool)) (t : Trace Ans) :
    (fileMonitor crates machine).after written t = written ++ knownHostsFiles t := by
  induction t generalizing written with
  | nil => exact (List.append_nil written).symm
  | cons e t ih =>
      rw [Monitor.after_cons, ih]
      show (written ++ (knownHostsWritten e.1 e.2).toList) ++ knownHostsFiles t = _
      cases hwrite : knownHostsWritten e.1 e.2 <;> simp [knownHostsFiles, hwrite]

/-- Nothing, or one entry of the machine's pin. -/
def OneEntryAtMost (crates : Crates) (machine : Machine) (written : List (String × Bool)) : Prop :=
  written = [] ∨ ∃ text ok, PinEntry crates machine text ∧ written = [(text, ok)]

/-- A write that is allowed is the first. -/
theorem oneEntryAtMost_step {op : Op} (answer : Ans op)
    (h : OneEntryAtMost crates machine written)
    (hmay : (fileMonitor crates machine).may written op) :
    OneEntryAtMost crates machine ((fileMonitor crates machine).next written op answer) := by
  have htext := knownHostsWritten_text op answer
  show OneEntryAtMost crates machine (written ++ (knownHostsWritten op answer).toList)
  cases hwrite : knownHostsWritten op answer with
  | none => simpa using h
  | some entry =>
      rw [hwrite] at htext
      obtain ⟨rfl, hentry⟩ := hmay.1 _ htext.symm
      exact Or.inr ⟨entry.1, entry.2, hentry, rfl⟩

/-- Once something is written, nothing more is. -/
theorem after_written {entry : String × Bool} {t : Trace Ans}
    (h : (fileMonitor crates machine).Allowed [entry] t) :
    (fileMonitor crates machine).after [entry] t = [entry] := by
  apply (fileMonitor crates machine).after_invariant (I := (· = [entry])) ?_ rfl h
  rintro _ op answer rfl hmay
  apply next_other
  by_contra hwrites
  obtain ⟨text, htext⟩ := Option.ne_none_iff_exists'.mp hwrites
  exact absurd (hmay.1 text htext).1 (List.cons_ne_nil _ _)

/-- **Whatever a worker has done**, it has written no such file, or one with the entry of its
pin; and when it has started uv, it has written that one. -/
theorem worker_knownHosts {t : Trace Ans} {q : Program Op Ans (Except DeployError DeployResult)}
    (h : Reaches (worker crates config deploy machine).run t q) :
    OneEntryAtMost crates machine (knownHostsFiles t) ∧
      ((∃ e ∈ t, e.1.startsUv = true) →
        ∃ text, PinEntry crates machine text ∧ knownHostsFiles t = [(text, true)]) := by
  have hallowed := ((fileMonitor crates machine).wp_reaches h worker_writes).2
  have hstate : (fileMonitor crates machine).after [] t = knownHostsFiles t := after_fileMonitor [] t
  constructor
  · rw [← hstate]
    exact (fileMonitor crates machine).after_invariant
      (fun _ _ answer hwritten hmay => oneEntryAtMost_step answer hwritten hmay) (Or.inl rfl)
      hallowed
  · rintro ⟨e, he, hstarts⟩
    obtain ⟨before, rest, rfl⟩ := List.append_of_mem he
    obtain ⟨-, hmay, hrest⟩ := ((fileMonitor crates machine).allowed_append _ _ _).mp hallowed
    obtain ⟨text, hentry, hwritten⟩ := hmay.2 hstarts
    have hother : knownHostsWrite e.1 = none := by
      cases e with
      | mk op answer => cases op <;> first | rfl | cases hstarts
    refine ⟨text, hentry, ?_⟩
    rw [hwritten, next_other hother] at hrest
    rw [← hstate, Monitor.after_append, Monitor.after_cons, hwritten, next_other hother]
    exact after_written hrest

end Run

/-- **Host pins**: the two checks accept the same keys; whatever a worker has written to a file of
known hosts, on whatever port, is one entry of the machine's host and of the key both checks accept,
and it has written that entry whenever it has started uv; the token of the host has no white space
and no mark; tokens of different hosts or ports differ. -/
theorem pins_exact (crates : Crates) (hdecode : RejectsWhitespace crates.decodeBase64) :
    (∀ key, validateHostPublicKey crates.decodeBase64 key = .ok () ↔
      validateHostPin crates key = .ok ()) ∧
    (∀ (config : DeployRunnerConfig) (deploy : ResolvedDeploy) (machine : Machine)
        (t : Trace Ans) (q : Program Op Ans (Except DeployError DeployResult)),
      validSshHost machine.sshHost = true →
      Reaches (worker crates config deploy machine).run t q →
      (knownHostsWrites t).length ≤ 1 ∧
      (∀ text ∈ knownHostsWrites t, ∃ pin encoded, machine.pinnedHostPublicKey = some pin ∧
        Pin crates.decodeBase64 pin encoded ∧
        Entry (knownHostsHost machine.sshHost machine.sshPort) encoded text) ∧
      ((∃ e ∈ t, e.1.startsUv = true) → ∃ text, knownHostsFiles t = [(text, true)])) ∧
    (∀ (host : String) (port : UInt16), validSshHost host = true →
      ∀ c ∈ (knownHostsHost host port).toList, Text.isWhitespace c = false ∧ c ∉ marks) ∧
    ∀ (host host' : String) (port port' : UInt16), validSshHost host = true →
      validSshHost host' = true → (host, port) ≠ (host', port') →
      knownHostsHost host port ≠ knownHostsHost host' port' := by
  refine ⟨checks_agree hdecode, ?_, ?_, ?_⟩
  · intro config deploy machine t q hhost hrun
    obtain ⟨hone, hstarted⟩ := worker_knownHosts hrun
    rw [← knownHostsFiles_texts]
    obtain hnone | ⟨text, ok, ⟨pin, hpin, hvalid, rfl⟩, hwritten⟩ := hone
    · rw [hnone]
      refine ⟨Nat.zero_le 1, fun _ hmem => absurd hmem List.not_mem_nil, fun hstarts => ?_⟩
      obtain ⟨text, -, hfiles⟩ := hstarted hstarts
      exact absurd (hnone.symm.trans hfiles) (List.cons_ne_nil _ _).symm
    · refine ⟨by rw [hwritten]; rfl, fun text hmem => ?_, fun hstarts => ?_⟩
      · rw [hwritten] at hmem
        obtain rfl := List.mem_singleton.mp hmem
        obtain ⟨encoded, hkey⟩ := validateHostPin_iff.mp hvalid
        exact ⟨pin, encoded, hpin, hkey, entry_of_pin hdecode hhost machine.sshPort hkey⟩
      · obtain ⟨text, -, hfiles⟩ := hstarted hstarts
        exact ⟨text, hfiles⟩
  · intro host port hhost c hc
    have hplain := knownHostsHost_plain hhost port c hc
    simp only [isPlain, Bool.and_eq_true, Bool.not_eq_true', List.contains_eq_mem,
      decide_eq_false_iff_not] at hplain
    exact hplain
  · intro host host' port port' hhost hhost' hne heq
    obtain ⟨rfl, rfl⟩ := knownHostsHost_injective hhost hhost' heq
    exact hne rfl

/-- This decoder takes no blanks. -/
theorem sampleCrates_rejects : RejectsWhitespace sampleCrates.decodeBase64 := by
  intro encoded bytes hdecode c hc
  have hkey : encoded = sampleKey := by
    by_contra hne
    simp [sampleCrates, hne] at hdecode
  have hall : sampleKey.toList.all (fun c => !Text.isWhitespace c) = true := by decide
  subst hkey
  simpa using List.all_eq_true.mp hall c hc

/-- The events of a run in which uv exits without output. -/
def silentTrace : Trace Ans :=
  preparation ++ (silentRun.map fun e => ⟨.uv e.1, e.2⟩) ++ [⟨.removeDirAll sampleDir, true⟩]

/-- `pins_exact` on a run to the end of uv, and on one host with two ports. -/
theorem pins_exact_sample :
    validateHostPublicKey sampleCrates.decodeBase64 samplePin = .ok () ∧
    (∃ pin encoded text, sampleMachine.pinnedHostPublicKey = some pin ∧
      Pin sampleCrates.decodeBase64 pin encoded ∧
      Entry (knownHostsHost "192.0.2.1" 22) encoded text ∧
      knownHostsFiles silentTrace = [(text, true)]) ∧
    (∀ c ∈ (knownHostsHost "node" 2222).toList, Text.isWhitespace c = false ∧ c ∉ marks) ∧
    knownHostsHost "node" 22 ≠ knownHostsHost "node" 2222 := by
  obtain ⟨hchecks, hfile, hplain, hne⟩ := pins_exact sampleCrates sampleCrates_rejects
  refine ⟨(hchecks samplePin).mpr (by decide), ?_, hplain "node" 2222 (by decide),
    hne "node" "node" 22 2222 (by decide) (by decide) (by decide)⟩
  have hwatch := ChildProcess.reaches_finish endings 8 (.exited 0) .ended .ended (by rfl) (by rfl)
  obtain ⟨-, hentries, hstarted⟩ := hfile sampleRunner.config sampleDeploy sampleMachine
    silentTrace _ (by decide) (worker_reaches true hwatch)
  obtain ⟨text, hwritten⟩ := hstarted ⟨_, List.mem_append_left _ (List.mem_append_left _
    (List.getLast_mem (l := preparation) (List.cons_ne_nil _ _))), rfl⟩
  have hmem : text ∈ knownHostsWrites silentTrace := by
    rw [← knownHostsFiles_texts, hwritten]
    exact List.mem_singleton_self text
  obtain ⟨pin, encoded, hpin, hkey, hentry⟩ := hentries text hmem
  exact ⟨pin, encoded, text, hpin, hkey, hentry, hwritten⟩

end Deploys
