import HomelabMcp.KubernetesPodLogs
import Mathlib.Data.List.DropRight

/-!
# Mutations of Kubernetes objects

The arguments that `kubectl` gets for a mutation.  The clock and the counter of the triggers are
arguments of the model, and an operation that can panic gives no result.

* `mutation_arguments_law`: the flags are those of the action, and all else is the words of the
  action with its one target, for every command that is valid.
* `generated_names_law`: the name of a triggered job is valid, and it tells two triggers apart by
  the time and the counter.

A name is followed as its labels (`Text.pieces`): a start of it has the same labels but the last,
and the suffix of a trigger goes to the last label.
-/

namespace Kubernetes

open Interaction

/-- The workloads that are restarted. -/
inductive RestartWorkloadKind where
  | deployment
  | statefulSet
  | daemonSet

/-- How kubectl names them. -/
def RestartWorkloadKind.argument : RestartWorkloadKind → String
  | .deployment => "deployment"
  | .statefulSet => "statefulset"
  | .daemonSet => "daemonset"

/-- The workloads that are scaled. -/
inductive ScalableWorkloadKind where
  | deployment
  | statefulSet

/-- How kubectl names them. -/
def ScalableWorkloadKind.argument : ScalableWorkloadKind → String
  | .deployment => "deployment"
  | .statefulSet => "statefulset"

/-- The mutations. -/
inductive ExecCommand where
  | workloadRestart (cluster : String) (kind : RestartWorkloadKind) (ns name : String)
      (dryRun : Bool)
  | workloadScale (cluster : String) (kind : ScalableWorkloadKind) (ns name : String)
      (replicas : UInt32) (dryRun : Bool)
  | cronjobSuspend (cluster ns name : String) (suspended dryRun : Bool)
  | cronjobTrigger (cluster ns name : String) (dryRun : Bool)
  | podDelete (cluster ns name : String) (dryRun : Bool)

/-- `valid_cronjob_name`: room is left for what is added to the name. -/
def validCronjobName (value : String) : Bool := value.utf8ByteSize ≤ 52 && validObjectName value

namespace ExecCommand

/-- The cluster of a command. -/
def cluster : ExecCommand → String
  | workloadRestart cluster _ _ _ _ | workloadScale cluster _ _ _ _ _
  | cronjobSuspend cluster _ _ _ _ | cronjobTrigger cluster _ _ _ | podDelete cluster _ _ _ =>
      cluster

/-- Its namespace. -/
def ns : ExecCommand → String
  | workloadRestart _ _ ns _ _ | workloadScale _ _ ns _ _ _
  | cronjobSuspend _ ns _ _ _ | cronjobTrigger _ ns _ _ | podDelete _ ns _ _ => ns

/-- The object it is about. -/
def name : ExecCommand → String
  | workloadRestart _ _ _ name _ | workloadScale _ _ _ name _ _
  | cronjobSuspend _ _ name _ _ | cronjobTrigger _ _ name _ | podDelete _ _ name _ => name

/-- Whether it only tries. -/
def dryRun : ExecCommand → Bool
  | workloadRestart _ _ _ _ dryRun | workloadScale _ _ _ _ _ dryRun
  | cronjobSuspend _ _ _ _ dryRun | cronjobTrigger _ _ _ dryRun | podDelete _ _ _ dryRun => dryRun

/-- The client's own check of a command. -/
def isValid (command : ExecCommand) : Bool :=
  let pair := fun ns name => validNamespace ns && validObjectName name
  validCatalogName command.cluster &&
    match command with
    | workloadRestart _ _ ns name _ | podDelete _ ns name _ => pair ns name
    | cronjobSuspend _ ns name _ _ | cronjobTrigger _ ns name _ =>
        pair ns name && validCronjobName name
    | workloadScale _ _ ns name replicas _ => pair ns name && replicas.toNat ≤ 1000

end ExecCommand

/-- What is read of the clock: the time as a text, and the seconds since 1970 or 0 before. -/
structure Clock where
  restartedAt : String
  seconds : Nat

/-- A number in at least so many digits. -/
def zeroPadded (width n : Nat) : List Char :=
  let digits := Nat.toDigits 10 n
  List.replicate (width - digits.length) '0' ++ digits

/-- `&value[..bytes]`, which panics inside a character and beyond the end. -/
def sliceTo (bytes : Nat) (cs : List Char) : Option (List Char) :=
  (Text.splitAtChecked bytes cs).map Prod.fst

/-- What is added to the name of a cron job. -/
def triggerSuffix (seconds sequence : Nat) : String :=
  String.ofList ("-manual-".toList ++ zeroPadded 9 (seconds % 1000000000) ++ '-' ::
    zeroPadded 4 (sequence % 10000))

/-- The name of a triggered job: a start of the name of the cron job with the suffix. -/
def generatedName (seconds sequence : Nat) (name : String) : Option String :=
  let suffix := triggerSuffix seconds sequence
  if 63 < suffix.utf8ByteSize then none
  else
    let prefixLen := 63 - suffix.utf8ByteSize
    (sliceTo (min name.utf8ByteSize prefixLen) name.toList).map fun start =>
      String.ofList (start.rdropWhile fun c => c == '-' || c == '.') ++ suffix

/-- The arguments that all mutations share. -/
def baseMutation (first second : String) (dryRun : Bool) : List String :=
  [first, second] ++ (if dryRun then ["--dry-run=server"] else []) ++ ["--output=name"]

/-- What `mutation_arguments` returns. -/
structure Mutation where
  arguments : List String
  action : String
  ns : String
  name : String
  dryRun : Bool

/-- The patch of a restart. -/
def restartPatch (restartedAt : String) : String :=
  "--patch=\x7b\"spec\":\x7b\"template\":\x7b\"metadata\":\x7b\"annotations\":\x7b" ++
    "\"kubectl.kubernetes.io/restartedAt\":\"" ++ restartedAt ++ "\"\x7d\x7d\x7d\x7d\x7d"

/-- The patch of a suspension. -/
def suspendPatch (suspended : Bool) : String :=
  "--patch=\x7b\"spec\":\x7b\"suspend\":" ++ (if suspended then "true" else "false") ++ "\x7d\x7d"

/-- `mutation_arguments`. -/
def mutationArguments (clock : Clock) (sequence : Nat) : ExecCommand → Option Mutation
  | .workloadRestart _ kind ns name dryRun =>
      let arguments :=
        if dryRun then
          baseMutation "patch" (kind.argument ++ "/" ++ name) true ++
            ["--namespace=" ++ ns, "--type=merge", restartPatch clock.restartedAt]
        else
          baseMutation "rollout" "restart" false ++
            [kind.argument ++ "/" ++ name, "--namespace=" ++ ns]
      some ⟨arguments, "workload_restart", ns, name, dryRun⟩
  | .workloadScale _ kind ns name replicas dryRun =>
      let arguments := baseMutation "scale" (kind.argument ++ "/" ++ name) dryRun ++
        ["--namespace=" ++ ns, "--replicas=" ++ toString replicas.toNat]
      some ⟨arguments, "workload_scale", ns, name, dryRun⟩
  | .cronjobSuspend _ ns name suspended dryRun =>
      let arguments := baseMutation "patch" ("cronjob/" ++ name) dryRun ++
        ["--namespace=" ++ ns, "--type=merge", suspendPatch suspended]
      some ⟨arguments, "cronjob_suspend", ns, name, dryRun⟩
  | .cronjobTrigger _ ns name dryRun =>
      (generatedName clock.seconds sequence name).map fun generated =>
        let arguments := baseMutation "create" "job" dryRun ++
          [generated, "--from=cronjob/" ++ name, "--namespace=" ++ ns]
        ⟨arguments, "cronjob_trigger", ns, generated, dryRun⟩
  | .podDelete _ ns name dryRun =>
      let arguments := baseMutation "delete" ("pod/" ++ name) dryRun ++
        ["--namespace=" ++ ns, "--wait=false"]
      some ⟨arguments, "pod_delete", ns, name, dryRun⟩

/-- What a mutation returns. -/
structure ExecResult where
  status : String
  action : String
  ns : String
  name : String
  dryRun : Bool

/-- Execute a command; there is no call if building the arguments panics. -/
def executeCancelled (client : KubernetesClient) (clock : Clock) (sequence : Nat)
    (command : ExecCommand) : Option (ClientCall ExecResult) :=
  if !command.isValid || command.cluster != client.clusterName then some (throw .mutationRejected)
  else (mutationArguments clock sequence command).map fun mutation => do
    let result ← (ask ⟨mutation.arguments, .mutation⟩ : ClientCall (Except Error Output))
    let _ ← answer result
    return ⟨if mutation.dryRun then "validated" else "accepted", mutation.action, mutation.ns,
      mutation.name, mutation.dryRun⟩

/-- The characters of names. -/
def isNameChar (c : Char) : Bool := ('a' ≤ c && c ≤ 'z') || c.isDigit || c == '-' || c == '.'

/-- The characters of a label, and its ends. -/
structure Label (cs : List Char) : Prop where
  size : (cs.map Char.utf8Size).sum ≤ 63
  chars : ∀ c ∈ cs, (('a' ≤ c && c ≤ 'z') || c.isDigit || c == '-') = true
  head : cs.head?.any Char.isAlphanum = true
  last : cs.getLast?.any Char.isAlphanum = true

/-- The check finds the labels. -/
theorem label_iff (cs : List Char) : validDnsLabel (String.ofList cs) = true ↔ Label cs := by
  unfold validDnsLabel
  rw [String.toList_ofList, Text.utf8ByteSize_ofList]
  simp only [Bool.and_eq_true, decide_eq_true_eq, List.all_eq_true]
  constructor
  · rintro ⟨⟨⟨⟨-, hsize⟩, hchars⟩, hhead⟩, hlast⟩
    exact ⟨hsize, hchars, hhead, hlast⟩
  · intro h
    have hne : (!(String.ofList cs).isEmpty) = true := by
      cases cs with
      | nil => exact absurd h.head (by simp)
      | cons c cs => simp
    exact ⟨⟨⟨⟨hne, h.size⟩, h.chars⟩, h.head⟩, h.last⟩

/-- The labels of a name. -/
abbrev labels (cs : List Char) : List (List Char) := Text.pieces (· == '.') cs

/-- A subdomain is made of labels, up to its bound. -/
theorem validDnsSubdomain_iff {value : String} {max : Nat} :
    validDnsSubdomain value max = true ↔
      value.utf8ByteSize ≤ max ∧ ∀ label ∈ labels value.toList, Label label := by
  unfold validDnsSubdomain Text.split
  simp only [Bool.and_eq_true, decide_eq_true_eq, List.all_map, List.all_eq_true,
    Function.comp_apply, label_iff]
  constructor
  · rintro ⟨⟨-, hsize⟩, hlabels⟩
    exact ⟨hsize, hlabels⟩
  · rintro ⟨hsize, hlabels⟩
    refine ⟨⟨?_, hsize⟩, hlabels⟩
    by_contra hempty
    have hnil : value = "" := by simpa using hempty
    have hlabel := hlabels [] (by simp [hnil, labels, Text.pieces])
    exact absurd hlabel.head (by simp)

/-- The characters of a valid name. -/
theorem nameChar_of_labels {cs : List Char} (h : ∀ label ∈ labels cs, Label label) :
    ∀ c ∈ cs, isNameChar c = true := by
  intro c hc
  unfold isNameChar
  rcases Text.mem_pieces (· == '.') hc with hdot | ⟨label, hlabel, hmem⟩
  · rw [hdot, Bool.or_true]
  · rw [(h label hlabel).chars c hmem, Bool.true_or]

/-- Each is one byte. -/
theorem utf8Size_of_nameChar {c : Char} (h : isNameChar c = true) : c.utf8Size = 1 := by
  have hval : c.val.toNat ≤ 127 := by
    simp only [isNameChar, Char.isDigit, Bool.or_eq_true, Bool.and_eq_true, decide_eq_true_eq,
      beq_iff_eq] at h
    rcases h with ((⟨-, hz⟩ | ⟨-, h9⟩) | rfl) | rfl
    · exact le_trans (show c.val.toNat ≤ 'z'.val.toNat from hz) (by decide)
    · exact le_trans (show c.val.toNat ≤ '9'.val.toNat from h9) (by decide)
    · decide
    · decide
  rw [Char.utf8Size_eq_one_iff]
  exact hval

/-- **A start of a name with a suffix is a name** if the start ends with no separator, the suffix is
one of a label, and all is short. -/
theorem labels_with_suffix {start rest suffix : List Char}
    (h : ∀ label ∈ labels (start ++ rest), Label label) (hne : start ≠ [])
    (hend : ∀ c, start.getLast? = some c → c ≠ '.')
    (hchars : ∀ c ∈ suffix, (('a' ≤ c && c ≤ 'z') || c.isDigit || c == '-') = true)
    (hlast : suffix.getLast?.any Char.isAlphanum = true)
    (hsize : ((start ++ suffix).map Char.utf8Size).sum ≤ 63) :
    ∀ label ∈ labels (start ++ suffix), Label label := by
  obtain ⟨init, last, more, after, hstart, hall⟩ := Text.pieces_start (· == '.') start rest
  have hsep : ∀ c ∈ suffix, (c == '.') = false := by
    intro c hc
    apply beq_false_of_ne
    rintro rfl
    exact absurd (hchars _ hc) (by decide)
  have hpieces := Text.pieces_end hstart hsep
  have hnonempty : last ≠ [] :=
    Text.last_piece_ne_nil hstart hne fun c hc => beq_false_of_ne (hend c hc)
  have hwhole : Label (last ++ more) := h _ (by rw [labels, hall]; simp)
  intro label hlabel
  rw [labels, hpieces] at hlabel
  rcases List.mem_append.mp hlabel with hinit | hlabel
  · exact h label (by rw [labels, hall]; exact List.mem_append_left _ hinit)
  · obtain rfl := List.mem_singleton.mp hlabel
    have hsuffix : last ++ suffix <:+ start ++ suffix := by
      obtain ⟨front, hfront⟩ := Text.suffix_of_pieces hstart
      exact ⟨front, by rw [← List.append_assoc, hfront]⟩
    constructor
    · have hsum := (hsuffix.sublist.map Char.utf8Size).sum_le_sum (by simp)
      exact hsum.trans hsize
    · intro c hc
      rcases List.mem_append.mp hc with hc | hc
      · exact hwhole.chars c (List.mem_append_left _ hc)
      · exact hchars c hc
    · obtain ⟨c, cs, rfl⟩ := List.exists_cons_of_ne_nil hnonempty
      exact hwhole.head
    · rw [List.getLast?_append]
      cases hget : suffix.getLast? with
      | none => simp [hget] at hlast
      | some c => simpa [hget] using hlast

section Generated

variable {name : String} {cs : List Char} (seconds sequence : Nat)

/-- So a name has as many bytes as characters. -/
theorem size_of_nameChars (h : ∀ c ∈ cs, isNameChar c = true) :
    (cs.map Char.utf8Size).sum = cs.length := by
  induction cs with
  | nil => rfl
  | cons c cs ih =>
      have hc := utf8Size_of_nameChar (h c List.mem_cons_self)
      have hrest := ih fun d hd => h d (List.mem_cons_of_mem c hd)
      rw [List.map_cons, List.sum_cons, List.length_cons]
      omega

/-- Where every character has one byte, a cut is never inside one. -/
theorem sliceTo_of_nameChars (h : ∀ c ∈ cs, isNameChar c = true) {bytes : Nat}
    (hbytes : bytes ≤ cs.length) : sliceTo bytes cs = some (cs.take bytes) := by
  have hstart : ∀ c ∈ cs.take bytes, isNameChar c = true := fun c hc => h c (List.mem_of_mem_take hc)
  have hsplit : Text.splitAtChecked bytes cs = some (cs.take bytes, cs.drop bytes) := by
    refine Text.splitAtChecked_eq_some.mpr ⟨(List.take_append_drop bytes cs).symm, ?_⟩
    rw [Text.utf8ByteSize_ofList, size_of_nameChars hstart, List.length_take]
    omega
  rw [sliceTo, hsplit]
  rfl

/-- A number that fits is padded to its width. -/
theorem length_zeroPadded {width n : Nat} (hwidth : 0 < width) (hn : n < 10 ^ width) :
    (zeroPadded width n).length = width := by
  have hdigits : (Nat.toDigits 10 n).length ≤ width :=
    (Nat.length_toDigits_le_iff (by decide) hwidth).mpr hn
  simp only [zeroPadded, List.length_append, List.length_replicate]
  omega

/-- The seconds have nine digits. -/
theorem length_seconds : (zeroPadded 9 (seconds % 1000000000)).length = 9 :=
  length_zeroPadded (by omega) (by omega)

/-- The counter has four. -/
theorem length_sequence : (zeroPadded 4 (sequence % 10000)).length = 4 :=
  length_zeroPadded (by omega) (by omega)

/-- All are digits. -/
theorem isDigit_zeroPadded {width n : Nat} {c : Char} (h : c ∈ zeroPadded width n) :
    c.isDigit = true := by
  rcases List.mem_append.mp h with hzero | hdigit
  · rw [(List.mem_replicate.mp hzero).2]
    decide
  · exact Nat.isDigit_of_mem_toDigits (by decide) (by decide) hdigit

/-- The digits tell the number. -/
theorem zeroPadded_injective {width m n : Nat} (h : zeroPadded width m = zeroPadded width n) :
    m = n := by
  have hvalue : ∀ n, Nat.ofDigitChars 10 (zeroPadded width n) 0 = n := by
    intro n
    simp [zeroPadded, Nat.ofDigitChars_append, Nat.ofDigitChars_replicate_zero]
  rw [← hvalue m, h, hvalue]

/-- The suffix, part by part. -/
theorem toList_suffix : (triggerSuffix seconds sequence).toList =
    "-manual-".toList ++ zeroPadded 9 (seconds % 1000000000) ++ '-' ::
      zeroPadded 4 (sequence % 10000) :=
  String.toList_ofList

/-- Its characters are those of a label. -/
theorem suffix_chars : ∀ c ∈ (triggerSuffix seconds sequence).toList,
    (('a' ≤ c && c ≤ 'z') || c.isDigit || c == '-') = true := by
  intro c hc
  rw [toList_suffix, List.append_assoc, List.mem_append, List.mem_append, List.mem_cons] at hc
  rcases hc with hword | hdigit | rfl | hdigit
  · exact List.all_eq_true.mp (show ("-manual-".toList.all fun c =>
      ('a' ≤ c && c ≤ 'z') || c.isDigit || c == '-') = true by decide) c hword
  · rw [isDigit_zeroPadded hdigit, Bool.or_true, Bool.true_or]
  · decide
  · rw [isDigit_zeroPadded hdigit, Bool.or_true, Bool.true_or]

/-- And of a name. -/
theorem suffix_nameChars : ∀ c ∈ (triggerSuffix seconds sequence).toList, isNameChar c = true := by
  intro c hc
  rw [isNameChar, suffix_chars seconds sequence c hc, Bool.true_or]

/-- There are twenty-two. -/
theorem length_suffix : (triggerSuffix seconds sequence).toList.length = 22 := by
  simp only [toList_suffix, List.length_append, List.length_cons, length_seconds, length_sequence]
  rfl

/-- Of one byte each. -/
theorem size_suffix : (triggerSuffix seconds sequence).utf8ByteSize = 22 := by
  rw [← String.ofList_toList (s := triggerSuffix seconds sequence), Text.utf8ByteSize_ofList,
    size_of_nameChars (suffix_nameChars seconds sequence), length_suffix]

/-- The last is a letter or a digit. -/
theorem suffix_last :
    (triggerSuffix seconds sequence).toList.getLast?.any Char.isAlphanum = true := by
  have hne : zeroPadded 4 (sequence % 10000) ≠ [] := by
    intro hnil
    have hlength := length_sequence sequence
    rw [hnil] at hlength
    cases hlength
  obtain ⟨digits, c, hdigits⟩ := List.eq_nil_or_concat _ |>.resolve_left hne
  have hc : c.isDigit = true := isDigit_zeroPadded (by rw [hdigits]; simp)
  have hend : (triggerSuffix seconds sequence).toList =
      ("-manual-".toList ++ zeroPadded 9 (seconds % 1000000000) ++ '-' :: digits) ++ [c] := by
    rw [toList_suffix, hdigits, List.concat_eq_append, List.append_assoc, List.append_assoc]
    rfl
  rw [hend, List.getLast?_concat]
  simp [Char.isAlphanum, hc]

/-- The suffix tells both numbers. -/
theorem suffix_injective {seconds' sequence' : Nat}
    (h : triggerSuffix seconds sequence = triggerSuffix seconds' sequence') :
    seconds % 1000000000 = seconds' % 1000000000 ∧ sequence % 10000 = sequence' % 10000 := by
  have hlists := congrArg String.toList h
  simp only [toList_suffix, List.append_assoc] at hlists
  have hdigits := List.append_cancel_left hlists
  obtain ⟨hseconds, hrest⟩ := List.append_inj hdigits (by rw [length_seconds, length_seconds])
  exact ⟨zeroPadded_injective hseconds, zeroPadded_injective (List.cons.inj hrest).2⟩

/-- The start of a generated name. -/
def triggerStart (name : String) : List Char :=
  (name.toList.take (min name.utf8ByteSize 41)).rdropWhile fun c => c == '-' || c == '.'

/-- The name of a job is the start of the cron job's name and the suffix. -/
theorem generatedName_eq (h : ∀ c ∈ name.toList, isNameChar c = true) :
    generatedName seconds sequence name =
      some (String.ofList (triggerStart name) ++ triggerSuffix seconds sequence) := by
  have hsize : name.utf8ByteSize = name.toList.length := by
    rw [← size_of_nameChars h, ← Text.utf8ByteSize_ofList, String.ofList_toList]
  have hbytes : min name.utf8ByteSize 41 ≤ name.toList.length := by omega
  unfold generatedName
  simp only [size_suffix]
  rw [if_neg (by decide), sliceTo_of_nameChars h hbytes]
  rfl

/-- The name of a cron job has the characters of names. -/
theorem nameChars_of_cronjob (h : validCronjobName name = true) :
    ∀ c ∈ name.toList, isNameChar c = true := by
  rw [validCronjobName, Bool.and_eq_true] at h
  exact nameChar_of_labels (validDnsSubdomain_iff.mp h.2).2

/-- A name starts with a letter or a digit. -/
theorem head_of_labels (h : ∀ label ∈ labels cs, Label label) :
    ∃ c rest, cs = c :: rest ∧ c.isAlphanum = true := by
  cases cs with
  | nil =>
      have hlabel := h [] (by simp [labels, Text.pieces])
      exact absurd hlabel.head (by simp)
  | cons c rest =>
      refine ⟨c, rest, rfl, ?_⟩
      by_cases hdot : c = '.'
      · have hlabel := h [] (by simp [labels, Text.pieces, hdot])
        exact absurd hlabel.head (by simp)
      · cases hpieces : Text.pieces (· == '.') rest with
        | nil => exact absurd hpieces (Text.pieces_ne_nil _ rest)
        | cons piece after =>
            have hlabel := h (c :: piece) (by simp [labels, Text.pieces, hdot, hpieces])
            simpa using hlabel.head

/-- The start is one of the name, has a character, and ends with none that separates. -/
theorem triggerStart_spec (h : validCronjobName name = true) :
    triggerStart name <+: name.toList ∧ triggerStart name ≠ [] ∧ (triggerStart name).length ≤ 41 ∧
      ∀ c, (triggerStart name).getLast? = some c → c ≠ '.' := by
  rw [validCronjobName, Bool.and_eq_true] at h
  obtain ⟨c, rest, hname, halnum⟩ := head_of_labels (validDnsSubdomain_iff.mp h.2).2
  have hcut : triggerStart name <+: name.toList.take (min name.utf8ByteSize 41) :=
    List.rdropWhile_prefix _ _
  refine ⟨hcut.trans (List.take_prefix _ _), ?_, ?_, ?_⟩
  · intro hnil
    have hsize := Text.length_le_utf8ByteSize name
    have hmem : c ∈ name.toList.take (min name.utf8ByteSize 41) := by
      rw [hname, List.length_cons] at hsize
      obtain ⟨bytes, hbytes⟩ := Nat.exists_eq_add_of_lt (show 0 < min name.utf8ByteSize 41 by omega)
      rw [hbytes, hname, Nat.zero_add, List.take_succ_cons]
      exact List.mem_cons_self
    have hstripped := List.rdropWhile_eq_nil_iff.mp hnil c hmem
    rw [Bool.or_eq_true, beq_iff_eq, beq_iff_eq] at hstripped
    rcases hstripped with rfl | rfl
    · exact absurd halnum (by decide)
    · exact absurd halnum (by decide)
  · have hlength := hcut.length_le
    rw [List.length_take] at hlength
    omega
  · intro c hc hdot
    have hne : triggerStart name ≠ [] := by
      intro hnil
      rw [hnil] at hc
      cases hc
    have hlast : ¬ ((triggerStart name).getLast hne == '-' ||
        (triggerStart name).getLast hne == '.') = true :=
      List.rdropWhile_last_not _ _ hne
    have hget : (triggerStart name).getLast hne = c := by
      rw [List.getLast?_eq_some_getLast hne] at hc
      exact Option.some.inj hc
    rw [hget, hdot] at hlast
    exact hlast (by decide)

/-- **The name of a triggered job.** -/
theorem generatedName_valid (h : validCronjobName name = true) :
    ∃ generated, generatedName seconds sequence name = some generated ∧
      generated.utf8ByteSize ≤ 63 ∧ validObjectName generated = true := by
  obtain ⟨⟨rest, hrest⟩, hne, hlength, hend⟩ := triggerStart_spec h
  have hchars := nameChars_of_cronjob h
  have hstart : ∀ c ∈ triggerStart name, isNameChar c = true :=
    fun c hc => hchars c (hrest ▸ List.mem_append_left _ hc)
  have hall : ∀ c ∈ triggerStart name ++ (triggerSuffix seconds sequence).toList,
      isNameChar c = true := by
    intro c hc
    rcases List.mem_append.mp hc with hc | hc
    · exact hstart c hc
    · exact suffix_nameChars seconds sequence c hc
  have hsum : ((triggerStart name ++ (triggerSuffix seconds sequence).toList).map
      Char.utf8Size).sum ≤ 63 := by
    rw [size_of_nameChars hall, List.length_append, length_suffix]
    omega
  have htext : String.ofList (triggerStart name) ++ triggerSuffix seconds sequence =
      String.ofList (triggerStart name ++ (triggerSuffix seconds sequence).toList) := by
    rw [String.ofList_append, String.ofList_toList]
  have hsize : (String.ofList (triggerStart name) ++
      triggerSuffix seconds sequence).utf8ByteSize ≤ 63 := by
    rw [htext, Text.utf8ByteSize_ofList]
    exact hsum
  have hlabels : ∀ label ∈ labels (triggerStart name ++ rest), Label label := by
    rw [validCronjobName, Bool.and_eq_true] at h
    rw [hrest]
    exact (validDnsSubdomain_iff.mp h.2).2
  refine ⟨_, generatedName_eq seconds sequence hchars, hsize, validDnsSubdomain_iff.mpr ⟨?_, ?_⟩⟩
  · omega
  · rw [htext, String.toList_ofList]
    exact labels_with_suffix hlabels hne hend (suffix_chars seconds sequence)
      (suffix_last seconds sequence) hsum

/-- The name of a job tells both numbers. -/
theorem generatedName_injective (h : validCronjobName name = true) {seconds' sequence' : Nat}
    (hsame : generatedName seconds sequence name = generatedName seconds' sequence' name) :
    seconds % 1000000000 = seconds' % 1000000000 ∧ sequence % 10000 = sequence' % 10000 := by
  have hchars := nameChars_of_cronjob h
  rw [generatedName_eq seconds sequence hchars, generatedName_eq seconds' sequence' hchars,
    Option.some.injEq, String.append_right_inj] at hsame
  exact suffix_injective seconds sequence hsame

end Generated

/-- `str::starts_with`. -/
def startsWith (start text : String) : Bool := start.toList.isPrefixOf text.toList

/-- kubectl reads an argument that starts with a dash as a flag. -/
def isFlag (argument : String) : Bool := startsWith "-" argument

/-- The start of a text that is long enough decides. -/
theorem startsWith_append {start a : String} (b : String)
    (h : start.toList.length ≤ a.toList.length) :
    startsWith start (a ++ b) = startsWith start a := by
  unfold startsWith
  rw [Bool.eq_iff_iff, List.isPrefixOf_iff_prefix, List.isPrefixOf_iff_prefix, String.toList_append]
  constructor
  · intro hstart
    exact List.prefix_of_prefix_length_le hstart (List.prefix_append _ _) h
  · intro hstart
    exact hstart.trans (List.prefix_append _ _)

/-- What starts with a start of a flag is a flag. -/
theorem isFlag_of_startsWith {start argument : String} (hstart : isFlag start = true)
    (h : startsWith start argument = true) : isFlag argument = true := by
  unfold isFlag startsWith at *
  rw [List.isPrefixOf_iff_prefix] at *
  exact hstart.trans h

namespace ExecCommand

/-- The flags of an action besides those of every mutation. -/
def ownFlags (restartedAt : String) : ExecCommand → List String
  | workloadRestart _ _ ns _ true =>
      ["--namespace=" ++ ns, "--type=merge", restartPatch restartedAt]
  | workloadRestart _ _ ns _ false => ["--namespace=" ++ ns]
  | workloadScale _ _ ns _ replicas _ =>
      ["--namespace=" ++ ns, "--replicas=" ++ toString replicas.toNat]
  | cronjobSuspend _ ns _ suspended _ =>
      ["--namespace=" ++ ns, "--type=merge", suspendPatch suspended]
  | cronjobTrigger _ ns name _ => ["--from=cronjob/" ++ name, "--namespace=" ++ ns]
  | podDelete _ ns _ _ => ["--namespace=" ++ ns, "--wait=false"]

/-- The arguments after the target. -/
def flags (restartedAt : String) (command : ExecCommand) : List String :=
  (if command.dryRun then ["--dry-run=server"] else []) ++
    "--output=name" :: command.ownFlags restartedAt

/-- The words of an action, the last of them its target. -/
def words (generated : String) : ExecCommand → List String
  | workloadRestart _ kind _ name true => ["patch", kind.argument ++ "/" ++ name]
  | workloadRestart _ kind _ name false => ["rollout", "restart", kind.argument ++ "/" ++ name]
  | workloadScale _ kind _ name _ _ => ["scale", kind.argument ++ "/" ++ name]
  | cronjobSuspend _ _ name _ _ => ["patch", "cronjob/" ++ name]
  | cronjobTrigger _ _ _ _ => ["create", "job", generated]
  | podDelete _ _ name _ => ["delete", "pod/" ++ name]

end ExecCommand

/-- What is said of the arguments that a command gets. -/
structure Unsubverted (clock : Clock) (command : ExecCommand) (m : Mutation) : Prop where
  flags : m.arguments.filter isFlag = command.flags clock.restartedAt
  words : (m.arguments.filter fun argument => !isFlag argument) = command.words m.name
  ns : m.arguments.filter (startsWith "--namespace") = ["--namespace=" ++ command.ns]
  names : (∀ c ∈ command.name.toList, isNameChar c = true) ∧
    ∀ c ∈ m.name.toList, isNameChar c = true
  dryRun : m.arguments.filter (startsWith "--dry-run") =
    if command.dryRun then ["--dry-run=server"] else []
  reported : m.dryRun = command.dryRun ∧ m.ns = command.ns

section Arguments

variable {clock : Clock} {sequence : Nat} {command : ExecCommand} {m : Mutation}

/-- The name of a valid command is the name of an object. -/
theorem name_of_valid (h : command.isValid = true) : validObjectName command.name = true := by
  unfold ExecCommand.isValid at h
  cases command <;> simp only [Bool.and_eq_true] at h <;> first | exact h.2.2 | exact h.2.1.2

/-- A text that is not empty decides whether it begins a flag. -/
theorem isFlag_append {a : String} (b : String) (h : a.toList ≠ []) :
    isFlag (a ++ b) = isFlag a :=
  startsWith_append b (List.length_pos_iff.mpr h)

/-- A target is no flag. -/
theorem isFlag_target (kind name : String) (hkind : kind.toList ≠ []) (h : isFlag kind = false) :
    isFlag (kind ++ "/" ++ name) = false := by
  rw [String.append_assoc, isFlag_append _ hkind, h]

/-- A name is no flag. -/
theorem isFlag_of_valid {name : String} (h : validObjectName name = true) :
    isFlag name = false := by
  obtain ⟨c, rest, hname, halnum⟩ := head_of_labels (validDnsSubdomain_iff.mp h).2
  have hc : ('-' == c) = false := by
    apply beq_false_of_ne
    rintro rfl
    exact absurd halnum (by decide)
  rw [isFlag, startsWith, hname]
  simp [List.isPrefixOf, hc]

/-- The flags and the words among the arguments of a mutation. -/
theorem filter_arguments {first second : String} {dryRun : Bool} {extra own : List String}
    (hwords : ∀ word ∈ first :: second :: extra, isFlag word = false)
    (hown : ∀ flag ∈ own, isFlag flag = true) :
    (baseMutation first second dryRun ++ (extra ++ own)).filter isFlag =
        (if dryRun then ["--dry-run=server"] else []) ++ "--output=name" :: own ∧
      (baseMutation first second dryRun ++ (extra ++ own)).filter (fun a => !isFlag a) =
        first :: second :: extra := by
  obtain ⟨hfirst, hrest⟩ := List.forall_mem_cons.mp hwords
  obtain ⟨hsecond, hextra⟩ := List.forall_mem_cons.mp hrest
  have hdry : isFlag "--dry-run=server" = true := by decide
  have houtput : isFlag "--output=name" = true := by decide
  have hextraFlags : extra.filter isFlag = [] :=
    List.filter_eq_nil_iff.mpr fun word hword => by simp [hextra word hword]
  have hextraWords : extra.filter (fun a => !isFlag a) = extra :=
    List.filter_eq_self.mpr fun word hword => by simp [hextra word hword]
  have hownFlags : own.filter isFlag = own := List.filter_eq_self.mpr hown
  have hownWords : own.filter (fun a => !isFlag a) = [] :=
    List.filter_eq_nil_iff.mpr fun flag hflag => by simp [hown flag hflag]
  cases dryRun <;>
    simp [baseMutation, hfirst, hsecond, hdry, houtput, hextraFlags, hextraWords, hownFlags,
      hownWords]

/-- The target of a restart is none. -/
theorem target_restart (kind : RestartWorkloadKind) (name : String) :
    isFlag (kind.argument ++ "/" ++ name) = false := by
  cases kind <;> exact isFlag_target _ _ (by decide) (by decide)

/-- Nor is that of a scaling. -/
theorem target_scale (kind : ScalableWorkloadKind) (name : String) :
    isFlag (kind.argument ++ "/" ++ name) = false := by
  cases kind <;> exact isFlag_target _ _ (by decide) (by decide)

/-- What the flags of the actions start with. -/
def flagStarts : List String :=
  ["--namespace=", "--replicas=", "--from=cronjob/", "--type=merge", "--wait=false",
    "--patch=\x7b\"spec\":\x7b\"template\":\x7b\"metadata\":\x7b\"annotations\":\x7b",
    "--patch=\x7b\"spec\":\x7b\"suspend\":"]

/-- The start of a flag tells what it is, whatever text follows. -/
theorem startsWith_flag {start : String} (h : start ∈ flagStarts) (text : String) :
    isFlag (start ++ text) = true ∧ startsWith "--dry-run" (start ++ text) = false ∧
      startsWith "--namespace" (start ++ text) = decide (start = "--namespace=") := by
  have htable : ∀ start ∈ flagStarts, 11 ≤ start.toList.length ∧ isFlag start = true ∧
      startsWith "--dry-run" start = false ∧
      startsWith "--namespace" start = decide (start = "--namespace=") := by
    decide +kernel
  obtain ⟨hlength, hflag, hdry, hnamespace⟩ := htable start h
  have hdash : "-".toList.length ≤ start.toList.length := le_trans (by decide) hlength
  have hdryLength : "--dry-run".toList.length ≤ start.toList.length :=
    le_trans (by decide) hlength
  have hnamespaceLength : "--namespace".toList.length ≤ start.toList.length :=
    le_trans (by decide) hlength
  refine ⟨?_, ?_, ?_⟩
  · rw [isFlag, startsWith_append text hdash]
    exact hflag
  · rw [startsWith_append text hdryLength, hdry]
  · rw [startsWith_append text hnamespaceLength, hnamespace]

/-- What is said of the flags of an action: they are flags, one is the namespace, and none is of a
dry run. -/
structure OwnFlags (ns : String) (own : List String) : Prop where
  flags : ∀ flag ∈ own, isFlag flag = true
  ns : own.filter (startsWith "--namespace") = ["--namespace=" ++ ns]
  dryRun : own.filter (startsWith "--dry-run") = []

/-- A flag that is neither that of the namespace nor of a dry run. -/
def Other (flag : String) : Prop :=
  isFlag flag = true ∧ startsWith "--dry-run" flag = false ∧ startsWith "--namespace" flag = false

/-- An argument that begins otherwise is another flag. -/
theorem other_of_start {start : String} (h : start ∈ flagStarts) (hne : start ≠ "--namespace=")
    (text : String) : Other (start ++ text) := by
  obtain ⟨hflag, hdry, hnamespace⟩ := startsWith_flag h text
  exact ⟨hflag, hdry, by rw [hnamespace, decide_eq_false hne]⟩

/-- Other flags around the namespace are a command's own. -/
theorem ownFlags_of_others {ns : String} {before after : List String}
    (hbefore : ∀ flag ∈ before, Other flag) (hafter : ∀ flag ∈ after, Other flag) :
    OwnFlags ns (before ++ ("--namespace=" ++ ns) :: after) := by
  obtain ⟨hflag, hdry, hnamespace⟩ :=
    startsWith_flag (show "--namespace=" ∈ flagStarts by decide) ns
  have hothers : ∀ others : List String, (∀ flag ∈ others, Other flag) →
      others.filter (startsWith "--namespace") = [] ∧
        others.filter (startsWith "--dry-run") = [] := by
    intro others h
    constructor
    · exact List.filter_eq_nil_iff.mpr fun flag hmem => by simp [(h flag hmem).2.2]
    · exact List.filter_eq_nil_iff.mpr fun flag hmem => by simp [(h flag hmem).2.1]
  constructor
  · intro flag hmem
    rcases List.mem_append.mp hmem with hmem | hmem
    · exact (hbefore flag hmem).1
    · rcases List.mem_cons.mp hmem with rfl | hmem
      · exact hflag
      · exact (hafter flag hmem).1
  · rw [List.filter_append, (hothers before hbefore).1,
      List.filter_cons_of_pos (by simpa using hnamespace), (hothers after hafter).1]
    rfl
  · rw [List.filter_append, (hothers before hbefore).2,
      List.filter_cons_of_neg (by simp [hdry]), (hothers after hafter).2]
    rfl

/-- The patch of a restart is another flag. -/
theorem other_restart (restartedAt : String) : Other (restartPatch restartedAt) := by
  unfold restartPatch
  rw [String.append_assoc, String.append_assoc]
  exact other_of_start (by decide) (by decide) _

/-- So is that of a suspension. -/
theorem other_suspend (suspended : Bool) : Other (suspendPatch suspended) := by
  unfold suspendPatch
  rw [String.append_assoc]
  exact other_of_start (by decide) (by decide) _

/-- So is the type of a patch. -/
theorem other_type : Other "--type=merge" :=
  other_of_start (show "--type=merge" ∈ flagStarts by decide) (by decide) ""

/-- So is the waiting. -/
theorem other_wait : Other "--wait=false" :=
  other_of_start (show "--wait=false" ∈ flagStarts by decide) (by decide) ""

/-- Every command has flags of its own, with its own namespace. -/
theorem ownFlags_spec (restartedAt : String) (command : ExecCommand) :
    OwnFlags command.ns (command.ownFlags restartedAt) := by
  have hnil : ∀ flag ∈ ([] : List String), Other flag := List.forall_mem_nil _
  cases command with
  | workloadRestart cluster kind ns name dryRun =>
      cases dryRun with
      | false => exact ownFlags_of_others hnil hnil
      | true =>
          exact ownFlags_of_others hnil
            (List.forall_mem_cons.mpr ⟨other_type, List.forall_mem_singleton.mpr
              (other_restart restartedAt)⟩)
  | workloadScale cluster kind ns name replicas dryRun =>
      exact ownFlags_of_others hnil (List.forall_mem_singleton.mpr
        (other_of_start (by decide) (by decide) (toString replicas.toNat)))
  | cronjobSuspend cluster ns name suspended dryRun =>
      exact ownFlags_of_others hnil
        (List.forall_mem_cons.mpr ⟨other_type, List.forall_mem_singleton.mpr
          (other_suspend suspended)⟩)
  | cronjobTrigger cluster ns name dryRun =>
      exact ownFlags_of_others (List.forall_mem_singleton.mpr
        (other_of_start (show "--from=cronjob/" ∈ flagStarts by decide) (by decide) name)) hnil
  | podDelete cluster ns name dryRun =>
      exact ownFlags_of_others hnil (List.forall_mem_singleton.mpr other_wait)

/-- What the arguments of a valid command are put together from. -/
structure Built (clock : Clock) (command : ExecCommand) (m : Mutation) : Prop where
  shape : ∃ first second extra, first :: second :: extra = command.words m.name ∧
    m.arguments = baseMutation first second command.dryRun ++
      (extra ++ command.ownFlags clock.restartedAt)
  words : ∀ word ∈ command.words m.name, isFlag word = false
  name : validObjectName m.name = true
  reported : m.dryRun = command.dryRun ∧ m.ns = command.ns

/-- A valid command is built, and as it should be. -/
theorem mutationArguments_built (clock : Clock) (sequence : Nat) (h : command.isValid = true) :
    ∃ m, mutationArguments clock sequence command = some m ∧ Built clock command m := by
  have hname := name_of_valid h
  cases command with
  | workloadRestart cluster kind ns name dryRun =>
      have htarget := target_restart kind name
      cases dryRun with
      | false =>
          exact ⟨_, rfl, ⟨_, _, [_], rfl, rfl⟩, by simpa [ExecCommand.words] using
            ⟨by decide, by decide, htarget⟩, hname, rfl, rfl⟩
      | true =>
          exact ⟨_, rfl, ⟨_, _, [], rfl, rfl⟩, by simpa [ExecCommand.words] using
            ⟨by decide, htarget⟩, hname, rfl, rfl⟩
  | workloadScale cluster kind ns name replicas dryRun =>
      have htarget := target_scale kind name
      exact ⟨_, rfl, ⟨_, _, [], rfl, rfl⟩, by simpa [ExecCommand.words] using
        ⟨by decide, htarget⟩, hname, rfl, rfl⟩
  | cronjobSuspend cluster ns name suspended dryRun =>
      have htarget : isFlag ("cronjob/" ++ name) = false :=
        (isFlag_append name (by decide)).trans (by decide)
      exact ⟨_, rfl, ⟨_, _, [], rfl, rfl⟩, by simpa [ExecCommand.words] using
        ⟨by decide, htarget⟩, hname, rfl, rfl⟩
  | cronjobTrigger cluster ns name dryRun =>
      have hcronjob : validCronjobName name = true := by
        simp only [ExecCommand.isValid, Bool.and_eq_true] at h
        exact h.2.2
      obtain ⟨generated, hgenerated, -, hvalid⟩ :=
        generatedName_valid clock.seconds sequence hcronjob
      have htarget := isFlag_of_valid hvalid
      refine ⟨⟨_, "cronjob_trigger", ns, generated, dryRun⟩, ?_, ⟨_, _, [generated], rfl, rfl⟩,
        by simpa [ExecCommand.words] using ⟨by decide, by decide, htarget⟩, hvalid, rfl, rfl⟩
      rw [mutationArguments, hgenerated]
      rfl
  | podDelete cluster ns name dryRun =>
      have htarget : isFlag ("pod/" ++ name) = false :=
        (isFlag_append name (by decide)).trans (by decide)
      exact ⟨_, rfl, ⟨_, _, [], rfl, rfl⟩, by simpa [ExecCommand.words] using
        ⟨by decide, htarget⟩, hname, rfl, rfl⟩

/-- What starts as a flag is found among the flags. -/
theorem filter_startsWith {start : String} (hstart : isFlag start = true)
    (arguments : List String) :
    arguments.filter (startsWith start) = (arguments.filter isFlag).filter (startsWith start) := by
  rw [List.filter_filter]
  refine List.filter_congr fun argument _ => ?_
  cases h : startsWith start argument with
  | false => rw [Bool.false_and]
  | true => rw [isFlag_of_startsWith hstart h, Bool.true_and]

/-- What is built so is what kubectl reads. -/
theorem Built.unsubverted (hvalid : command.isValid = true) (h : Built clock command m) :
    Unsubverted clock command m := by
  obtain ⟨first, second, extra, hwords, harguments⟩ := h.shape
  have hown := ownFlags_spec clock.restartedAt command
  have hplain : ∀ word ∈ first :: second :: extra, isFlag word = false := by
    rw [hwords]
    exact h.words
  obtain ⟨hflags, hrest⟩ := @filter_arguments _ _ command.dryRun _ _ hplain hown.flags
  rw [← harguments] at hflags hrest
  constructor
  · exact hflags
  · exact hrest.trans hwords
  · rw [filter_startsWith (by decide), hflags]
    cases command.dryRun <;> simp [hown.ns, startsWith]
  · exact ⟨nameChar_of_labels (validDnsSubdomain_iff.mp (name_of_valid hvalid)).2,
      nameChar_of_labels (validDnsSubdomain_iff.mp h.name).2⟩
  · rw [filter_startsWith (by decide), hflags]
    cases command.dryRun <;> simp [hown.dryRun, startsWith]
  · exact h.reported

/-- **The arguments of a mutation cannot be subverted.**  For every command that is valid, and
whatever the clock and the counter say, building them does not panic; the flags among them are
those of the action, with one namespace, and a dry run exactly if it was asked for; and the rest
are the words of the action with its target. -/
theorem mutation_arguments_law (clock : Clock) (sequence : Nat) (command : ExecCommand)
    (h : command.isValid = true) :
    ∃ m, mutationArguments clock sequence command = some m ∧ Unsubverted clock command m := by
  obtain ⟨m, hm, hbuilt⟩ := mutationArguments_built clock sequence h
  exact ⟨m, hm, hbuilt.unsubverted h⟩

/-- A restart of a deployment that is only tried. -/
theorem mutation_arguments_law_restart : ∃ m,
    mutationArguments ⟨"2026-01-01T00:00:00Z", 1767225600⟩ 0
        (.workloadRestart "main" .deployment "default" "web.app" true) = some m ∧
      Unsubverted ⟨"2026-01-01T00:00:00Z", 1767225600⟩
        (.workloadRestart "main" .deployment "default" "web.app" true) m :=
  mutation_arguments_law _ 0 _ (by decide +kernel)

/-- **Every run of a command has such arguments**; one that is not valid, or is for another cluster,
runs nothing. -/
theorem executeCancelled_runs (client : KubernetesClient) (clock : Clock) (sequence : Nat)
    (command : ExecCommand) : ∃ call, executeCancelled client clock sequence command = some call ∧
      call.run.Only fun run => run.operation = .mutation ∧ command.isValid = true ∧
        ∃ m, Unsubverted clock command m ∧ run.arguments = m.arguments := by
  unfold executeCancelled
  by_cases h : (!command.isValid || command.cluster != client.clusterName) = true
  · exact ⟨_, if_pos h, trivial⟩
  · have hvalid : command.isValid = true := by
      simp only [Bool.or_eq_true, not_or] at h
      simpa using h.1
    obtain ⟨m, hm, hsafe⟩ := mutation_arguments_law clock sequence command hvalid
    rw [if_neg h, hm]
    refine ⟨_, rfl, ⟨rfl, hvalid, m, hsafe, rfl⟩, fun result => ?_⟩
    cases result <;> exact trivial

end Arguments

/-- A trigger of a cron job, with what is read of the clock and of the counter. -/
structure Trigger where
  cluster : String
  ns : String
  dryRun : Bool
  clock : Clock
  sequence : Nat

namespace Trigger

/-- The mutation of a trigger. -/
def mutation (trigger : Trigger) (name : String) : Option Mutation :=
  mutationArguments trigger.clock trigger.sequence
    (.cronjobTrigger trigger.cluster trigger.ns name trigger.dryRun)

/-- What the generated name shows of the clock and of the counter. -/
def shown (trigger : Trigger) : Nat × Nat :=
  (trigger.clock.seconds % 1000000000, trigger.sequence % 10000)

/-- Its name is the generated one. -/
theorem mutation_name (trigger : Trigger) (name : String) :
    (trigger.mutation name).map Mutation.name =
      generatedName trigger.clock.seconds trigger.sequence name := by
  show ((generatedName trigger.clock.seconds trigger.sequence name).map _).map _ = _
  rw [Option.map_map]
  exact congrFun Option.map_id _

end Trigger

/-- **The names of triggered jobs** are valid, and two triggers of a cron job get different ones if
their seconds or their counters differ. -/
theorem generated_names_law (name : String) (h : validCronjobName name = true) :
    (∀ trigger : Trigger, ∃ m, trigger.mutation name = some m ∧ m.name.utf8ByteSize ≤ 63 ∧
      validObjectName m.name = true) ∧
    ∀ (trigger trigger' : Trigger) m m', trigger.mutation name = some m →
      trigger'.mutation name = some m' → trigger.shown ≠ trigger'.shown → m.name ≠ m'.name := by
  constructor
  · intro trigger
    obtain ⟨generated, hgenerated, hsize, hvalid⟩ :=
      generatedName_valid trigger.clock.seconds trigger.sequence h
    rw [← trigger.mutation_name] at hgenerated
    obtain ⟨m, hm, rfl⟩ := Option.map_eq_some_iff.mp hgenerated
    exact ⟨m, hm, hsize, hvalid⟩
  · intro trigger trigger' m m' hm hm' hne hsame
    have hname := trigger.mutation_name name
    have hname' := trigger'.mutation_name name
    rw [hm, Option.map_some] at hname
    rw [hm', Option.map_some, ← hsame, hname] at hname'
    obtain ⟨hseconds, hsequence⟩ := generatedName_injective _ _ h hname'
    exact hne (Prod.ext hseconds hsequence)

/-- A trigger at the turn of a year. -/
def sampleTrigger (sequence : Nat) : Trigger :=
  ⟨"main", "default", true, ⟨"2026-01-01T00:00:00Z", 1767225600⟩, sequence⟩

/-- Two triggers in a second. -/
theorem generated_names_law_two :
    (∃ m, (sampleTrigger 7).mutation "nightly.backup" = some m ∧ m.name.utf8ByteSize ≤ 63 ∧
      validObjectName m.name = true) ∧
    ∀ m m', (sampleTrigger 7).mutation "nightly.backup" = some m →
      (sampleTrigger 8).mutation "nightly.backup" = some m' → m.name ≠ m'.name := by
  obtain ⟨hvalid, hdistinct⟩ := generated_names_law "nightly.backup" (by decide +kernel)
  exact ⟨hvalid _, fun m m' hm hm' => hdistinct _ _ m m' hm hm' (by decide)⟩

example : generatedName 1767225600 7 "nightly.backup" =
    some "nightly.backup-manual-767225600-0007" := by decide +kernel

end Kubernetes
