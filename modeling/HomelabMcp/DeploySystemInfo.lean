import HomelabMcp.DeployRunner
import HomelabMcp.TextEncoding
import HomelabMcp.TextSections

/-!
# The sections of the system information

The remote command prints eleven sections between two markers, and the server takes them apart
again.  A section may hold any text, also the lines that end a section and begin the next.

* `system_info_exact_iff`: the server refuses the output or finds every section as it was printed,
  unless some section can be misread.
* `system_info_round_trip`: sections that hold neither their own END line nor the END marker come
  back as they were printed.
-/

namespace Deploys

open Text (Bytes ClosedBy)

/-- The keys of the calls of `emit`, in their order. -/
def emittedKeys : List String :=
  ["hostname", "uptime", "boot_time", "os_release", "kernel_arch", "cpu", "memory", "filesystems",
    "block_devices", "interfaces", "default_routes"]

/-- The line that opens a section. -/
def beginLine (key : String) : List Char := ("--- " ++ key ++ " BEGIN ---\n").toList

/-- The line that closes it. -/
def endLine (key : String) : List Char := ("\n--- " ++ key ++ " END ---\n").toList

/-- A section as the command prints it. -/
def emit (key body : String) : List Char := beginLine key ++ (body.toList ++ endLine key)

/-- What `_SYSTEM_INFO_COMMAND` prints if the commands print these bodies. -/
def systemInfoCommand (bodies : String → String) : List Char :=
  "HOMELAB_SYSTEM_INFO_V1_BEGIN\n".toList ++
    ((emittedKeys.flatMap fun key => emit key (bodies key)) ++
      "HOMELAB_SYSTEM_INFO_V1_END\n".toList)

/-- The output of a deploy: the sections with a log around them. -/
def deployOutput (before after : List Char) (bodies : String → String) : Bytes :=
  Text.encode (String.ofList (before ++ (systemInfoCommand bodies ++ after)))

/-- What a body may be: `head -c` cuts it, and it is a text. -/
def Fits (body : List Char) : Prop :=
  (String.ofList body).utf8ByteSize ≤ maxSectionBytes ∧ '\x00' ∉ body

/-- The sections that the command prints. -/
def printed (bodies : String → String) : List (String × List Char) :=
  emittedKeys.map fun key => (key, (bodies key).toList)

/-- The sections as the server should find them. -/
def asPrinted (bodies : String → String) : SystemInfo :=
  ⟨emittedKeys.map fun key => (key, bodies key)⟩

/-- The text of sections. -/
abbrev joined : List (String × List Char) → List Char := Text.joined beginLine endLine

/-- Sections that the decoder reads back. -/
abbrev Legible : List (String × List Char) → Prop := Text.Legible endLine Fits

/-- Some body holds its own END line too early, and from there on the text reads as the sections
that are left. -/
def Misread (bodies : String → String) : Prop :=
  Text.Misread beginLine endLine Fits (printed bodies)

/-- The first section, then the others. -/
theorem joined_cons (key : String) (body : List Char) (sections : List (String × List Char)) :
    joined ((key, body) :: sections) =
      beginLine key ++ (body ++ (endLine key ++ joined sections)) :=
  Text.joined_cons (key, body) sections

/-- The command prints the sections one after another. -/
theorem emit_joined (bodies : String → String) (keys : List String) :
    (keys.flatMap fun key => emit key (bodies key)) =
      joined (keys.map fun key => (key, (bodies key).toList)) := by
  induction keys with
  | nil => rfl
  | cons key keys ih =>
      rw [List.flatMap_cons, ih, List.map_cons, joined_cons, emit, List.append_assoc,
        List.append_assoc]

/-- The marker at the end stands on a line of its own. -/
theorem endMarker_line : "HOMELAB_SYSTEM_INFO_V1_END\n".toList = endMarker.toList ++ ['\n'] := by
  decide

/-- The whole output: the markers around the sections. -/
theorem systemInfoCommand_eq (bodies : String → String) : systemInfoCommand bodies =
    beginMarker.toList ++ (joined (printed bodies) ++ (endMarker.toList ++ ['\n'])) := by
  unfold systemInfoCommand printed beginMarker
  rw [emit_joined, endMarker_line]

/-- A closing line is never empty. -/
theorem endLine_ne_nil (key : String) : endLine key ≠ [] := by
  intro h
  have hlength := congrArg List.length h
  simp [endLine] at hlength

/-- A body fits where the decoder's check lets it pass. -/
theorem fits_iff {body : List Char} : Fits body ↔
    ¬ ((decide ((String.ofList body).utf8ByteSize > maxSectionBytes) ||
      body.contains '\x00') = true) := by
  simp [Fits]

/-- The sections are read exactly if the text is made of them and each is legible. -/
theorem readSections_ok_iff {names : List String} {text : List Char}
    {found : List (String × String)} : readSections names text = .ok found ↔
      ∃ sections, sections.map Prod.fst = names ∧ Legible sections ∧ text = joined sections ∧
        found = sections.map fun s => (s.1, String.ofList s.2) := by
  induction names generalizing text found with
  | nil =>
      constructor
      · intro h
        cases text with
        | nil =>
            cases h
            exact ⟨[], rfl, nofun, rfl, rfl⟩
        | cons c text => cases h
      · rintro ⟨sections, hkeys, -, rfl, rfl⟩
        obtain rfl := List.map_eq_nil_iff.mp hkeys
        rfl
  | cons name names ih =>
      constructor
      · intro h
        unfold readSections at h
        split at h
        · cases h
        · next body hbody =>
            split at h
            · cases h
            · next value rest hvalue =>
                split_ifs at h with hlarge
                split at h
                · cases h
                · next sections hsections =>
                    obtain ⟨later, hkeys, hlegible, rfl, rfl⟩ := ih.mp hsections
                    obtain ⟨rfl, hclosed⟩ := (Text.splitOnce_iff (endLine_ne_nil name)).mp hvalue
                    obtain rfl := Text.stripPrefix_iff.mp hbody
                    cases h
                    refine ⟨(name, value) :: later, by simp [hkeys], ?_,
                      (joined_cons name value later).symm, rfl⟩
                    exact List.forall_mem_cons.mpr ⟨⟨fits_iff.mpr hlarge, hclosed⟩, hlegible⟩
      · rintro ⟨sections, hkeys, hlegible, rfl, rfl⟩
        cases sections with
        | nil => cases hkeys
        | cons s sections =>
            obtain ⟨key, body⟩ := s
            obtain ⟨rfl, hnames⟩ := List.cons.inj hkeys
            obtain ⟨⟨hfits, hclosed⟩, hlater⟩ := List.forall_mem_cons.mp hlegible
            have hstrip := Text.stripPrefix_iff.mpr (joined_cons key body sections)
            have hsplit := (Text.splitOnce_iff (endLine_ne_nil key)).mpr
              ⟨(rfl : _ = body ++ (endLine key ++ joined sections)), hclosed⟩
            have hrest := ih.mpr ⟨sections, hnames, hlater, rfl, rfl⟩
            unfold readSections
            rw [show ("--- " ++ key ++ " BEGIN ---\n").toList = beginLine key from rfl, hstrip]
            simp only
            rw [show ("\n--- " ++ key ++ " END ---\n").toList = endLine key from rfl, hsplit]
            simp only
            rw [if_neg (fits_iff.mp hfits), hrest]
            rfl

/-- The letter that begins the marker comes once in it. -/
theorem beginMarker_head : ∃ w, beginMarker.toList = 'H' :: w ∧ 'H' ∉ w :=
  ⟨_, rfl, by decide⟩

/-- The same of the marker at the end. -/
theorem endMarker_head : ∃ w, endMarker.toList = 'H' :: w ∧ 'H' ∉ w :=
  ⟨_, rfl, by decide⟩

/-- Where the marker is also in the text before it, it stands behind its first occurrence again. -/
theorem markerInside_again {marker text after payload rest w : List Char}
    (hhead : marker = 'H' :: w) (hw : 'H' ∉ w) (hinside : marker <:+: text)
    (htext : text ++ (marker ++ after) = payload ++ (marker ++ rest))
    (hclosed : ClosedBy marker payload) : marker <:+: rest := by
  obtain ⟨x, y, rfl⟩ := hinside
  have hearly : payload.length ≤ x.length := by
    by_contra hlate
    have hfirst : x ++ (marker ++ (y ++ (marker ++ after))) = payload ++ (marker ++ rest) := by
      rw [← htext]
      simp only [List.append_assoc]
    rw [hhead] at hfirst
    obtain ⟨gap, rfl, -⟩ := Text.exists_gap hw hfirst (by omega)
    have hagain := hclosed x (gap ++ marker) (by rw [hhead]; simp only [List.append_assoc])
    simp [hhead] at hagain
  have hlength : 0 < marker.length := by rw [hhead]; exact Nat.succ_pos _
  rw [hhead] at htext hlength
  obtain ⟨gap, -, rfl⟩ := Text.exists_gap hw htext.symm
    (by simp only [List.length_append]; omega)
  rw [← hhead]
  exact ⟨gap, after, by simp only [List.append_assoc]⟩

/-- The sections between the first two markers are read, if the END marker is there once. -/
theorem systemInfo_iff {before after : List Char} (hbefore : ¬ beginMarker.toList <:+: before)
    (hafter : ¬ endMarker.toList <:+: after) (bodies : String → String) (result : DeployResult) :
    systemInfo (deployOutput before after bodies) = .ok result ↔
      ¬ endMarker.toList <:+: joined (printed bodies) ∧
        ∃ found, readSections emittedKeys (joined (printed bodies)) = .ok found ∧
          result = .systemInfo ⟨found⟩ := by
  obtain ⟨v, hbegin, hv⟩ := beginMarker_head
  obtain ⟨w, hend, hw⟩ := endMarker_head
  have hstart : Text.splitOnce beginMarker.toList
      (before ++ (systemInfoCommand bodies ++ after)) =
        some (before, joined (printed bodies) ++ (endMarker.toList ++ ('\n' :: after))) := by
    rw [systemInfoCommand_eq, Text.splitOnce_iff (hbegin ▸ List.cons_ne_nil _ _)]
    refine ⟨by simp, ?_⟩
    rw [hbegin] at hbefore ⊢
    exact Text.closedBy_of_head hv hbefore
  have hnone : ¬ endMarker.toList <:+: '\n' :: after := by
    rw [hend] at hafter ⊢
    intro hinside
    have hnewline : 'H' ∉ ['\n'] := by decide
    exact hafter (Text.infix_of_head hnewline hinside)
  unfold systemInfo deployOutput
  simp only [Text.decode_encode, String.toList_ofList, hstart]
  by_cases hmarker : endMarker.toList <:+: joined (printed bodies)
  · -- The first END marker is inside the sections, so the last is in what follows it.
    refine iff_of_false ?_ (fun h => h.1 hmarker)
    cases hfirst : Text.splitOnce endMarker.toList
      (joined (printed bodies) ++ (endMarker.toList ++ ('\n' :: after))) with
    | none => exact nofun
    | some pair =>
        obtain ⟨payload, rest⟩ := pair
        obtain ⟨htext, hclosed⟩ := (Text.splitOnce_iff (hend ▸ List.cons_ne_nil _ _)).mp hfirst
        have hagain := markerInside_again hend hw hmarker htext hclosed
        simp only [Text.hasInfix_iff.mpr hagain, if_true]
        exact nofun
  · have hpayload : Text.splitOnce endMarker.toList
        (joined (printed bodies) ++ (endMarker.toList ++ ('\n' :: after))) =
          some (joined (printed bodies), '\n' :: after) := by
      rw [Text.splitOnce_iff (hend ▸ List.cons_ne_nil _ _)]
      refine ⟨rfl, ?_⟩
      rw [hend] at hmarker ⊢
      exact Text.closedBy_of_head hw hmarker
    have honce : ¬ Text.hasInfix endMarker.toList ('\n' :: after) = true := by
      rwa [Text.hasInfix_iff]
    have hkeys : sectionNames ++ [optionalSection] = emittedKeys := rfl
    simp only [hpayload, if_neg honce, hkeys]
    constructor
    · intro h
      split at h
      · cases h
      · next found hfound => exact ⟨hmarker, found, hfound, (Except.ok.inj h).symm⟩
    · intro h
      obtain ⟨-, found, hfound, rfl⟩ := h
      rw [hfound]

/-- No line around a section holds that letter. -/
theorem lines_no_head : (emittedKeys.all fun key =>
    !(beginLine key).contains 'H' && !(endLine key).contains 'H') = true := by decide +kernel

/-- A closing line begins with a newline. -/
theorem endLine_newline (key : String) : ∃ line, endLine key = '\n' :: line :=
  ⟨(endLine key).tail, by simp [endLine]⟩

/-- The END marker has no place in the lines between the bodies. -/
theorem endMarker_joined {sections : List (String × List Char)}
    (hkeys : ∀ s ∈ sections, s.1 ∈ emittedKeys) :
    endMarker.toList <:+: joined sections ↔ ∃ s ∈ sections, endMarker.toList <:+: s.2 := by
  obtain ⟨w, hend, hw⟩ := endMarker_head
  have hnewline : '\n' ∉ endMarker.toList := by decide
  induction sections with
  | nil => simp [joined, Text.joined, hend]
  | cons s sections ih =>
      obtain ⟨key, body⟩ := s
      obtain ⟨hkey, hlater⟩ := List.forall_mem_cons.mp hkeys
      have hlines := List.all_eq_true.mp lines_no_head key hkey
      simp only [Bool.and_eq_true, Bool.not_eq_true', List.contains_eq_mem,
        decide_eq_false_iff_not] at hlines
      have hothers : endMarker.toList <:+: joined sections ↔
          ∃ s ∈ sections, endMarker.toList <:+: s.2 := ih hlater
      rw [joined_cons, List.exists_mem_cons_iff, ← hothers]
      constructor
      · intro hinside
        rw [hend] at hinside hnewline ⊢
        have hbody := Text.infix_of_head hlines.1 hinside
        obtain ⟨line, hline⟩ := endLine_newline key
        rw [hline, List.cons_append] at hbody
        refine (Text.infix_split hnewline hbody).imp_right ?_
        intro hrest
        refine Text.infix_of_head ?_ hrest
        intro hmem
        exact hlines.2 (hline ▸ List.mem_cons_of_mem _ hmem)
      · intro hinside
        rcases hinside with hbody | hrest
        · exact (hbody.trans (List.prefix_append _ _).isInfix).trans (List.suffix_append _ _).isInfix
        · refine (hrest.trans (List.suffix_append (endLine key) _).isInfix).trans ?_
          refine List.IsInfix.trans ?_ (List.suffix_append (beginLine key) _).isInfix
          exact (List.suffix_append body _).isInfix

/-- The sections stand in the order of the keys. -/
theorem printed_keys (bodies : String → String) :
    (printed bodies).map Prod.fst = emittedKeys := by
  rw [printed, List.map_map]
  exact List.map_id _

/-- The marker at the end stands in the output where it stands in a body. -/
theorem endMarker_printed (bodies : String → String) :
    endMarker.toList <:+: joined (printed bodies) ↔
      ∃ key ∈ emittedKeys, endMarker.toList <:+: (bodies key).toList := by
  rw [endMarker_joined]
  · simp [printed]
  · intro s hs
    obtain ⟨key, hkey, rfl⟩ := List.mem_map.mp hs
    exact hkey

/-- Sections are what the server shows of them. -/
theorem shown_eq_iff {sections : List (String × List Char)} {bodies : String → String} :
    (sections.map fun s => (s.1, String.ofList s.2)) = (asPrinted bodies).sections ↔
      sections = printed bodies := by
  have hprinted : (asPrinted bodies).sections =
      (printed bodies).map fun s => (s.1, String.ofList s.2) := by
    simp [asPrinted, printed]
  rw [hprinted]
  refine List.map_inj_right ?_
  intro s o h
  obtain ⟨hkey, hbody⟩ := Prod.mk.inj h
  exact Prod.ext hkey (String.ofList_injective hbody)

/-- A second reading is the only way to find other sections. -/
theorem exact_iff_unique {before after : List Char} (hbefore : ¬ beginMarker.toList <:+: before)
    (hafter : ¬ endMarker.toList <:+: after) (bodies : String → String) :
    ((∃ e, systemInfo (deployOutput before after bodies) = .error e) ∨
      systemInfo (deployOutput before after bodies) = .ok (.systemInfo (asPrinted bodies))) ↔
    (∃ key ∈ emittedKeys, endMarker.toList <:+: (bodies key).toList) ∨
      ∀ others, Legible others → others.map Prod.fst = (printed bodies).map Prod.fst →
        joined others = joined (printed bodies) → others = printed bodies := by
  rw [← endMarker_printed]
  constructor
  · intro hexact
    by_cases hmarker : endMarker.toList <:+: joined (printed bodies)
    · exact .inl hmarker
    · right
      intro others hlegible hkeys htext
      have hread := readSections_ok_iff.mpr ⟨others, hkeys.trans (printed_keys bodies), hlegible,
        htext.symm, rfl⟩
      have hok := (systemInfo_iff hbefore hafter bodies _).mpr ⟨hmarker, _, hread, rfl⟩
      rw [hok] at hexact
      rcases hexact with ⟨e, he⟩ | hsame
      · cases he
      · have hinfo := DeployResult.systemInfo.inj (Except.ok.inj hsame)
        exact shown_eq_iff.mp (congrArg SystemInfo.sections hinfo)
  · intro hcases
    cases hresult : systemInfo (deployOutput before after bodies) with
    | error e => exact .inl ⟨e, rfl⟩
    | ok result =>
        right
        obtain ⟨hmarker, found, hfound, rfl⟩ := (systemInfo_iff hbefore hafter bodies _).mp hresult
        obtain ⟨others, hkeys, hlegible, htext, rfl⟩ := readSections_ok_iff.mp hfound
        have hunique := hcases.resolve_left hmarker
        have hothers := hunique others hlegible (hkeys.trans (printed_keys bodies).symm) htext.symm
        rw [shown_eq_iff.mpr hothers]

/-- **The sections.**  The server refuses the output or finds each section as it was printed,
exactly if some body holds the END marker of the output or the sections cannot be misread. -/
theorem system_info_exact_iff {before after : List Char}
    (hbefore : ¬ beginMarker.toList <:+: before) (hafter : ¬ endMarker.toList <:+: after)
    (bodies : String → String) :
    ((∃ e, systemInfo (deployOutput before after bodies) = .error e) ∨
      systemInfo (deployOutput before after bodies) = .ok (.systemInfo (asPrinted bodies))) ↔
    (∃ key ∈ emittedKeys, endMarker.toList <:+: (bodies key).toList) ∨ ¬ Misread bodies := by
  rw [exact_iff_unique hbefore hafter bodies, Text.reading_unique_iff]
  rfl

/-- **Round trip.**  Sections in which nothing looks like their own end are found as printed. -/
theorem system_info_round_trip {before after : List Char}
    (hbefore : ¬ beginMarker.toList <:+: before) (hafter : ¬ endMarker.toList <:+: after)
    {bodies : String → String} (hlegible : Legible (printed bodies))
    (hmarker : ∀ key ∈ emittedKeys, ¬ endMarker.toList <:+: (bodies key).toList) :
    systemInfo (deployOutput before after bodies) = .ok (.systemInfo (asPrinted bodies)) := by
  have hnone : ¬ endMarker.toList <:+: joined (printed bodies) := by
    rw [endMarker_printed]
    intro hinside
    obtain ⟨key, hkey, hbody⟩ := hinside
    exact hmarker key hkey hbody
  have hread := readSections_ok_iff.mpr ⟨printed bodies, printed_keys bodies, hlegible, rfl, rfl⟩
  rw [shown_eq_iff.mpr rfl] at hread
  exact (systemInfo_iff hbefore hafter bodies _).mpr ⟨hnone, _, hread, rfl⟩

/-- Sections that are split where they end are legible. -/
theorem legible_of_split {sections : List (String × List Char)}
    (h : ∀ s ∈ sections, Fits s.2 ∧
      Text.splitOnce (endLine s.1) (s.2 ++ endLine s.1) = some (s.2, [])) : Legible sections := by
  intro s hs
  obtain ⟨hfits, hclosed⟩ := h s hs
  exact ⟨hfits, (Text.closedBy_iff (endLine_ne_nil s.1)).mpr hclosed⟩

/-- Bodies of several lines, with the lines of other sections among them. -/
def markedBodies : String → String
  | "hostname" => "hopper\n--- uptime BEGIN ---"
  | "uptime" => "--- hostname END ---\nup 3 days"
  | "boot_time" => "2024-05-01 10:00"
  | "os_release" => "NAME=Debian\nID=debian\n"
  | "cpu" => "\n--- memory END ---\nIntel"
  | "memory" => "--- memory END ---"
  | "interfaces" => "lo UP\neth0 UP 10.0.0.2/24"
  | _ => ""

/-- None of these bodies holds it. -/
theorem markedBodies_marker :
    ∀ key ∈ emittedKeys, ¬ endMarker.toList <:+: (markedBodies key).toList := by
  have hall : ∀ key ∈ emittedKeys,
      Text.hasInfix endMarker.toList (markedBodies key).toList = false := by decide +kernel
  intro key hkey hinside
  exact absurd (Text.hasInfix_iff.mpr hinside) (by simp [hall key hkey])

/-- Behind a log line, such bodies are found as they were printed, and they cannot be misread. -/
theorem system_info_exact_iff_marked :
    systemInfo (deployOutput "log\n".toList ['\n'] markedBodies) =
      .ok (.systemInfo (asPrinted markedBodies)) ∧ ¬ Misread markedBodies := by
  have hbefore : ¬ beginMarker.toList <:+: "log\n".toList := by
    rw [← Text.hasInfix_iff]
    decide
  have hafter : ¬ endMarker.toList <:+: ['\n'] := by
    rw [← Text.hasInfix_iff]
    decide
  have hlegible : Legible (printed markedBodies) := by
    apply legible_of_split
    unfold Fits
    decide +kernel
  have hfound := system_info_round_trip hbefore hafter hlegible markedBodies_marker
  refine ⟨hfound, ?_⟩
  rcases (system_info_exact_iff hbefore hafter markedBodies).mp (.inr hfound) with hmarker | hread
  · obtain ⟨key, hkey, hinside⟩ := hmarker
    exact absurd hinside (markedBodies_marker key hkey)
  · exact hread

/-- The name of the host ends its own section and begins the next. -/
def splicedName : String := "a\n--- hostname END ---\n--- uptime BEGIN ---"

/-- A host name that holds the lines of another section. -/
def spliced (key : String) : String := if key = "hostname" then splicedName else ""

/-- The sections after the first two, all empty. -/
def laterSections : List (String × List Char) :=
  (emittedKeys.drop 2).map fun key => (key, [])

/-- What the server finds. -/
def splicedSections : List (String × List Char) :=
  ("hostname", ['a']) ::
    ("uptime", "--- hostname END ---\n--- uptime BEGIN ---\n".toList) :: laterSections

/-- What is printed then. -/
theorem printed_spliced : printed spliced =
    ("hostname", splicedName.toList) :: ("uptime", []) :: laterSections := by decide +kernel

/-- The sections that the decoder reads instead are legible. -/
theorem splicedSections_legible : Legible splicedSections := by
  apply legible_of_split
  unfold Fits
  decide +kernel

/-- And their text is the one that was printed. -/
theorem splicedSections_text : joined splicedSections = joined (printed spliced) := by
  have hlines : ['a'] ++ (endLine "hostname" ++ (beginLine "uptime" ++
      "--- hostname END ---\n--- uptime BEGIN ---\n".toList)) =
        splicedName.toList ++ (endLine "hostname" ++ beginLine "uptime") := by decide +kernel
  rw [printed_spliced, splicedSections, joined_cons, joined_cons, joined_cons, joined_cons]
  have hwhole := congrArg
    (fun lines => lines ++ (endLine "uptime" ++ joined laterSections)) hlines
  simp only [List.append_assoc] at hwhole
  rw [hwhole, List.nil_append]

/-- The name of the host is cut, and the rest of it is found under `uptime`. -/
theorem spliced_shown : (∀ key ∈ emittedKeys, Fits (spliced key).toList) ∧
    ¬ ((∃ e, systemInfo (deployOutput [] [] spliced) = .error e) ∨
      systemInfo (deployOutput [] [] spliced) = .ok (.systemInfo (asPrinted spliced))) := by
  have hempty : ∀ c w, ¬ (c :: w : List Char) <:+: [] := fun c w h => by simp at h
  have hnone : ¬ endMarker.toList <:+: joined (printed spliced) := by
    rw [endMarker_printed]
    have hall : ∀ key ∈ emittedKeys, Text.hasInfix endMarker.toList (spliced key).toList = false := by
      decide +kernel
    intro hinside
    obtain ⟨key, hkey, hbody⟩ := hinside
    exact absurd (Text.hasInfix_iff.mpr hbody) (by simp [hall key hkey])
  have hread := readSections_ok_iff.mpr
    ⟨splicedSections, rfl, splicedSections_legible, splicedSections_text.symm, rfl⟩
  have hok := (systemInfo_iff (hempty _ _) (hempty _ _) spliced _).mpr ⟨hnone, _, hread, rfl⟩
  refine ⟨by unfold Fits; decide +kernel, ?_⟩
  rw [hok]
  intro hexact
  rcases hexact with ⟨e, he⟩ | hsame
  · cases he
  · have hinfo := DeployResult.systemInfo.inj (Except.ok.inj hsame)
    have hsections := shown_eq_iff.mp (congrArg SystemInfo.sections hinfo)
    rw [printed_spliced] at hsections
    obtain ⟨hfirst, -⟩ := List.cons.inj hsections
    exact absurd (Prod.mk.inj hfirst).2 (by decide)

end Deploys
