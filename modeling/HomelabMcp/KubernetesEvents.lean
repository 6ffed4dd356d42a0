import HomelabMcp.KubernetesClient

/-!
# Messages of events

The message of an event is cut to 1024 bytes when it is normalized, and left out if what is left has
a control character; the messages of a list are then cut to 32 KiB together.  Both cuts set a flag
of the event.

* `event_messages_explicit_iff`: every message is a start of what the API has, within the bounds,
  and the flags say what was cut, exactly if no message has a control character at its start.
* `listed_events`: the list that is answered is cut in this way.
-/

namespace Kubernetes

open Json (Value)

namespace Details

/-- The first entry, or the others. -/
theorem lookup_cons_ite (k key value : String) (rest : List (String × String)) :
    ((key, value) :: rest).lookup k = if k = key then some value else rest.lookup k := by
  by_cases hk : k = key
  · rw [if_pos hk, hk, List.lookup_cons_self]
  · rw [if_neg hk, List.lookup_cons, beq_eq_false_iff_ne.mpr hk]

/-- An entry that is set is read back, the others as before. -/
theorem get_insert (details : Details) (key value k : String) :
    (details.insert key value).get k = if k = key then some value else details.get k := by
  have hentries : ∀ entries : List (String × String),
      (insertEntry key value entries).lookup k = if k = key then some value else entries.lookup k := by
    intro entries
    induction entries with
    | nil => rw [insertEntry, lookup_cons_ite]
    | cons entry rest ih =>
        obtain ⟨name, text⟩ := entry
        unfold insertEntry
        split_ifs with hlt heq
        · rw [lookup_cons_ite, if_pos ‹_›]
        · rw [lookup_cons_ite, if_neg ‹_›]
        all_goals grind [lookup_cons_ite]
  exact hentries details.entries

/-- An entry that is removed is gone, the others as before. -/
theorem get_remove (details : Details) (key k : String) :
    (details.remove key).get k = if k = key then none else details.get k := by
  have hentries : ∀ entries : List (String × String),
      (entries.filter fun entry => entry.1 != key).lookup k =
        if k = key then none else entries.lookup k := by
    intro entries
    induction entries with
    | nil => simp
    | cons entry rest ih =>
        obtain ⟨name, text⟩ := entry
        by_cases hname : name = key
        · rw [List.filter_cons_of_neg (by simpa using hname), ih, lookup_cons_ite]
          grind
        · rw [List.filter_cons_of_pos (by simpa using hname), lookup_cons_ite, ih, lookup_cons_ite]
          grind
  exact hentries details.entries

/-- A token that is added changes its own entry only. -/
theorem get_addToken {details : Details} {key k : String} {value : Option Value} {max : Nat}
    (hk : k ≠ key) : (details.addToken key value max).get k = details.get k := by
  unfold addToken
  split
  · rw [get_insert, if_neg hk]
  · rfl

/-- So does a number. -/
theorem get_addNumber {details : Details} {key k : String} {value : Option Value} (hk : k ≠ key) :
    (details.addNumber key value).get k = details.get k := by
  unfold addNumber
  split
  · rw [get_insert, if_neg hk]
  · rfl

end Details

/-- The message of a resource. -/
def Resource.message (r : Resource) : Option String := r.details.get "message"

/-- The text that the API has for the message of an event: its note, or without one its message. -/
def upstreamMessage (item : Value) : Option String :=
  ((item.get "note").or (item.get "message")).bind Value.asStr

/-- What of it fits the bound of one message. -/
def messageStart (text : String) : String := String.ofList (Text.fit 1024 text.toList)

/-- The start of a message is how the text begins. -/
theorem messageStart_isPrefix (text : String) : (messageStart text).toList <+: text.toList := by
  rw [messageStart, String.toList_ofList]
  exact Text.fit_isPrefix _ _

/-- It fits the bound. -/
theorem messageStart_size (text : String) : (messageStart text).utf8ByteSize ≤ 1024 :=
  Text.fit_size _ _

/-- A start of a text has fewer bytes exactly if it is another text. -/
theorem size_lt_iff_ne {start text : String} (h : start.toList <+: text.toList) :
    start.utf8ByteSize < text.utf8ByteSize ↔ start ≠ text := by
  obtain ⟨rest, hrest⟩ := h
  have hsize : text.utf8ByteSize = start.utf8ByteSize + (String.ofList rest).utf8ByteSize := by
    rw [← String.utf8ByteSize_append, ← String.ofList_toList (s := text), ← hrest,
      String.ofList_append, String.ofList_toList]
  constructor
  · intro hlt heq
    rw [heq] at hlt
    exact Nat.lt_irrefl _ hlt
  · intro hne
    cases rest with
    | nil =>
        rw [List.append_nil] at hrest
        exact absurd (String.toList_injective hrest) hne
    | cons c rest =>
        have hpos := Char.utf8Size_pos c
        rw [hsize, Text.utf8ByteSize_ofList, List.map_cons, List.sum_cons]
        omega

/-- **The message of one event**: the start that fits, unless it has a control character; the flag
says whether that is less than the text. -/
theorem event_details (item : Value) :
    (detailsFor .event item).1.get "message" =
        (upstreamMessage item).bind (fun u =>
          if Text.noControl (messageStart u) then some (messageStart u) else none) ∧
      ((detailsFor .event item).2 = true ↔ ∃ u, upstreamMessage item = some u ∧
        Text.noControl (messageStart u) = true ∧ messageStart u ≠ u) := by
  have hreason : (Details.empty.addToken "reason" (item.get "reason") 128).get "message" = none := by
    rw [Details.get_addToken (by decide)]
    rfl
  simp only [detailsFor]
  rw [Details.get_addNumber (by decide), Details.get_addToken (by decide),
    Details.get_addToken (by decide)]
  unfold Details.addTruncatedText
  change _ ∧ (_ ↔ ∃ u, ((item.get "note").or (item.get "message")).bind Value.asStr = some u ∧ _)
  rw [upstreamMessage]
  cases ((item.get "note").or (item.get "message")).bind Value.asStr with
  | none => simp [hreason]
  | some u =>
      by_cases hcontrol : Text.noControl (messageStart u) = true
      · have hflag := size_lt_iff_ne (messageStart_isPrefix u)
        have hcontrol' : Text.noControl (String.ofList (Text.fit 1024 u.toList)) = true := hcontrol
        simp only [if_pos hcontrol', Details.get_insert, if_pos]
        refine ⟨by simp [hcontrol]; rfl, ?_⟩
        rw [decide_eq_true_eq]
        change (messageStart u).utf8ByteSize < u.utf8ByteSize ↔ _
        rw [hflag]
        simp [hcontrol]
      · have hcontrol' : ¬ Text.noControl (String.ofList (Text.fit 1024 u.toList)) = true := hcontrol
        simp [if_neg hcontrol', hcontrol, hreason]

/-- What normalizing makes of the message of an event. -/
theorem resource_message {item : Value} {r : Resource} (h : resource .event item = .ok r) :
    r.message = (upstreamMessage item).bind (fun u =>
        if Text.noControl (messageStart u) then some (messageStart u) else none) ∧
      (r.detailsTruncated = true ↔ ∃ u, upstreamMessage item = some u ∧
        Text.noControl (messageStart u) = true ∧ messageStart u ≠ u) := by
  obtain ⟨metadata, -, h⟩ := Interaction.bind_eq_ok.mp h
  obtain ⟨name, -, h⟩ := Interaction.bind_eq_ok.mp h
  obtain ⟨ns, -, h⟩ := Interaction.bind_eq_ok.mp h
  obtain ⟨uid, -, h⟩ := Interaction.bind_eq_ok.mp h
  obtain rfl := Except.ok.inj h
  exact event_details item

/-- What the bound of a list may make of an event. -/
inductive Bounded : Resource → Resource → Prop
  | absent {r : Resource} (h : r.message = none) : Bounded r r
  | removed {r : Resource} {m : String} (h : r.message = some m) :
      Bounded r { r with details := r.details.remove "message", detailsTruncated := true }
  | cut {r : Resource} {m start : String} (h : r.message = some m)
      (hstart : start.toList <+: m.toList) :
      Bounded r { r with
        details := r.details.insert "message" start
        detailsTruncated := r.detailsTruncated || decide (start.utf8ByteSize < m.utf8ByteSize) }

/-- The bytes of the messages of a list. -/
def messageBytes (resources : List Resource) : Nat :=
  ((resources.filterMap Resource.message).map String.utf8ByteSize).sum

/-- A message that is removed is gone. -/
@[simp] theorem message_removed (r : Resource) (flag : Bool) :
    ({ r with details := r.details.remove "message", detailsTruncated := flag } : Resource).message =
      none := by
  rw [Resource.message, Details.get_remove, if_pos rfl]

/-- One that is set is there. -/
@[simp] theorem message_inserted (r : Resource) (text : String) (flag : Bool) :
    ({ r with details := r.details.insert "message" text, detailsTruncated := flag } :
      Resource).message = some text := by
  rw [Resource.message, Details.get_insert, if_pos rfl]

/-- **The bound of a list**: each event is kept, loses its message or has it cut, the messages that
are left fit, and the flag says whether any is not what it was. -/
theorem boundMessages_spec (remaining : Nat) (resources : List Resource) :
    List.Forall₂ Bounded resources (boundMessages remaining resources).1 ∧
      messageBytes (boundMessages remaining resources).1 ≤ remaining ∧
      ((boundMessages remaining resources).2 = true ↔
        (boundMessages remaining resources).1.map Resource.message ≠
          resources.map Resource.message) := by
  induction resources generalizing remaining with
  | nil => simp [boundMessages, messageBytes]
  | cons r rest ih =>
      unfold boundMessages
      cases hmessage : r.details.get "message" with
      | none =>
          obtain ⟨hbounded, htotal, hflag⟩ := ih remaining
          refine ⟨.cons (.absent hmessage) hbounded, ?_, ?_⟩
          · simpa [messageBytes, Resource.message, hmessage] using htotal
          · simpa using hflag
      | some message =>
          by_cases hremaining : remaining = 0
          · obtain ⟨hbounded, htotal, hflag⟩ := ih remaining
            simp only [if_pos hremaining]
            refine ⟨.cons (.removed hmessage) hbounded, ?_, ?_⟩
            · simpa [messageBytes] using htotal
            · simp [Resource.message, hmessage, Details.get_remove]
          · simp only [if_neg hremaining]
            have hsize := Text.fit_size remaining message.toList
            have hstart : (String.ofList (Text.fit remaining message.toList)).toList <+:
                message.toList := by
              rw [String.toList_ofList]
              exact Text.fit_isPrefix _ _
            generalize String.ofList (Text.fit remaining message.toList) = start at hsize hstart ⊢
            obtain ⟨hbounded, htotal, hflag⟩ := ih (remaining - start.utf8ByteSize)
            refine ⟨.cons (.cut hmessage hstart) hbounded, ?_, ?_⟩
            · simp only [messageBytes, List.filterMap_cons, message_inserted, List.map_cons,
                List.sum_cons] at htotal ⊢
              omega
            · have hcut := size_lt_iff_ne hstart
              have hsame : r.message = some message := hmessage
              simp only [Bool.or_eq_true, decide_eq_true_eq, hcut, hflag, List.map_cons,
                message_inserted, hsame, ne_eq, List.cons.injEq, Option.some.injEq]
              tauto

/-- What is said of the messages of the events `items` that were normalized to `normalized` and
bounded to `out`. -/
structure MessagesExplicit (items : List Value) (normalized out : List Resource)
    (aggregateTruncated : Bool) : Prop where
  retained : List.Forall₂ (fun item r => ∀ m, r.message = some m →
    ∃ u, upstreamMessage item = some u ∧ m.toList <+: u.toList ∧ m.utf8ByteSize ≤ 1024) items out
  total : messageBytes out ≤ 32768
  aggregate : aggregateTruncated = true ↔
    out.map Resource.message ≠ normalized.map Resource.message
  explicit : List.Forall₂ (fun item r => ∀ u, upstreamMessage item = some u →
    r.message ≠ some u → r.detailsTruncated = true) items out

/-- An event without control characters at the start of its message, as it is normalized. -/
def Clean (item : Value) : Prop :=
  ∀ u, upstreamMessage item = some u → Text.noControl (messageStart u) = true

section Events

variable {items : List Value} {normalized : List Resource} {item : Value} {r r' : Resource}

/-- A message that is left is a start of the text that the API has. -/
theorem retained_of_bounded (h : resource .event item = .ok r) (hbounded : Bounded r r') :
    ∀ m, r'.message = some m →
      ∃ u, upstreamMessage item = some u ∧ m.toList <+: u.toList ∧ m.utf8ByteSize ≤ 1024 := by
  have hown : ∀ m, r.message = some m →
      ∃ u, upstreamMessage item = some u ∧ m = messageStart u := by
    intro m hm
    rw [(resource_message h).1] at hm
    obtain ⟨u, hu, hm⟩ := Option.bind_eq_some_iff.mp hm
    split_ifs at hm
    exact ⟨u, hu, (Option.some.inj hm).symm⟩
  intro m hm
  cases hbounded with
  | absent hnone => simp [hnone] at hm
  | removed _ => simp at hm
  | @cut _ start hmessage hstart =>
      obtain ⟨u, hu, rfl⟩ := hown _ hmessage
      rw [message_inserted, Option.some.injEq] at hm
      subst hm
      refine ⟨u, hu, hstart.trans (messageStart_isPrefix u), ?_⟩
      have hsize := messageStart_size u
      by_cases heq : start = messageStart u
      · rw [heq]
        exact hsize
      · exact ((size_lt_iff_ne hstart).mpr heq).le.trans hsize

/-- The flag of an event says that its message is not all of the text, exactly if the message was
not left out for a control character. -/
theorem explicit_of_bounded (h : resource .event item = .ok r) (hbounded : Bounded r r') :
    (∀ u, upstreamMessage item = some u → r'.message ≠ some u → r'.detailsTruncated = true) ↔
      Clean item := by
  obtain ⟨hmessage, hflag⟩ := resource_message h
  constructor
  · intro hexplicit u hu
    by_contra hcontrol
    have hnone : r.message = none := by simp [hmessage, hu, hcontrol]
    cases hbounded with
    | absent _ =>
        have htruncated := hexplicit u hu (by simp [hnone])
        obtain ⟨u', hu', hclean, -⟩ := hflag.mp htruncated
        rw [hu, Option.some.injEq] at hu'
        exact hcontrol (hu' ▸ hclean)
    | removed hsome => simp [hnone] at hsome
    | cut hsome _ => simp [hnone] at hsome
  · intro hclean u hu hne
    have hkept : r.message = some (messageStart u) := by simp [hmessage, hu, hclean u hu]
    have hcut : messageStart u ≠ u → r.detailsTruncated = true := fun hneq =>
      hflag.mpr ⟨u, hu, hclean u hu, hneq⟩
    cases hbounded with
    | absent hnone => simp [hkept] at hnone
    | removed _ => rfl
    | @cut m start hsome hstart =>
        rw [hkept, Option.some.injEq] at hsome
        subst hsome
        rw [message_inserted, ne_eq, Option.some.injEq] at hne
        simp only [Bool.or_eq_true, decide_eq_true_eq, size_lt_iff_ne hstart]
        by_cases hsame : start = messageStart u
        · exact .inl (hcut (hsame ▸ hne))
        · exact .inr hsame

/-- Related lists, element by element through a third. -/
theorem forall₂_comp {α β γ : Type} {R : α → β → Prop} {S : β → γ → Prop} {as : List α}
    {bs : List β} {cs : List γ} (hr : List.Forall₂ R as bs) (hs : List.Forall₂ S bs cs) :
    List.Forall₂ (fun a c => ∃ b, R a b ∧ S b c) as cs := by
  induction hr generalizing cs with
  | nil =>
      cases hs
      exact .nil
  | cons hab _ ih =>
      cases hs with
      | cons hbc hs => exact .cons ⟨_, hab, hbc⟩ (ih hs)

/-- The parts of what is said that hold of every event, and the one that does not. -/
theorem messages_parts
    (h : List.Forall₂ (fun item r => resource .event item = .ok r) items normalized) :
    List.Forall₂ (fun item r => ∀ m, r.message = some m → ∃ u, upstreamMessage item = some u ∧
        m.toList <+: u.toList ∧ m.utf8ByteSize ≤ 1024) items (boundEventMessages normalized).1 ∧
      (List.Forall₂ (fun item r => ∀ u, upstreamMessage item = some u → r.message ≠ some u →
        r.detailsTruncated = true) items (boundEventMessages normalized).1 ↔
          ∀ item ∈ items, Clean item) := by
  have hpairs := forall₂_comp h (boundMessages_spec (32 * 1024) normalized).1
  constructor
  · refine hpairs.imp fun item r' hpair => ?_
    obtain ⟨r, hresource, hbound⟩ := hpair
    exact retained_of_bounded hresource hbound
  · refine Interaction.forall₂_iff_forall_mem (fun item r' hpair => ?_) hpairs
    obtain ⟨r, hresource, hbound⟩ := hpair
    exact explicit_of_bounded hresource hbound

/-- Where no message was changed unsaid, the listing says what it left out. -/
theorem messagesExplicit_of_clean
    (h : List.Forall₂ (fun item r => resource .event item = .ok r) items normalized)
    (hclean : ∀ item ∈ items, Clean item) :
    MessagesExplicit items normalized (boundEventMessages normalized).1
      (boundEventMessages normalized).2 := by
  obtain ⟨hretained, hexplicit⟩ := messages_parts h
  obtain ⟨-, htotal, hflag⟩ := boundMessages_spec (32 * 1024) normalized
  exact ⟨hretained, htotal, hflag, hexplicit.mpr hclean⟩

/-- **Event messages are explicit** exactly if no message has a control character in its first 1024
bytes: such a message is left out, and the flag of its event does not say so. -/
theorem event_messages_explicit_iff
    (h : List.Forall₂ (fun item r => resource .event item = .ok r) items normalized) :
    MessagesExplicit items normalized (boundEventMessages normalized).1
        (boundEventMessages normalized).2 ↔
      ∀ item ∈ items, Clean item :=
  ⟨fun hmessages => (messages_parts h).2.mp hmessages.explicit, messagesExplicit_of_clean h⟩

end Events

/-- An event with this note. -/
def eventWith (note : String) : Value := .object [
  ("metadata", .object [("name", .string "pod.1"), ("namespace", .string "default")]),
  ("note", .string note)]

/-- What events with these notes are normalized to. -/
def normalizedWith (notes : List String) : List Resource :=
  notes.filterMap fun note => (resource .event (eventWith note)).toOption

/-- Whatever its note is, the event is normalized. -/
theorem resource_eventWith (note : String) : ∃ r, resource .event (eventWith note) = .ok r :=
  ⟨_, rfl⟩

/-- The events with these notes are read as these resources. -/
theorem normalizedWith_eq (notes : List String) :
    List.Forall₂ (fun item r => resource .event item = .ok r) (notes.map eventWith)
      (normalizedWith notes) := by
  induction notes with
  | nil => exact .nil
  | cons note notes ih =>
      obtain ⟨r, hr⟩ := resource_eventWith note
      rw [normalizedWith, List.filterMap_cons_some (by rw [hr]; rfl)]
      exact .cons hr ih

/-- A note that is one character, so many times. -/
def noteOf (n : Nat) (c : Char) : String := String.ofList (List.replicate n c)

/-- How long such a note is. -/
theorem noteOf_size (n : Nat) (c : Char) : (noteOf n c).utf8ByteSize = n * c.utf8Size := by
  rw [noteOf, Text.utf8ByteSize_ofList, List.map_replicate, List.sum_replicate, smul_eq_mul]

/-- Its start has no control character. -/
theorem noteOf_clean (n : Nat) {c : Char} (hc : Text.isControl c = false) :
    Text.noControl (messageStart (noteOf n c)) = true := by
  rw [Text.noControl, messageStart, noteOf, String.toList_ofList, String.toList_ofList,
    Bool.not_eq_true', List.any_eq_false]
  intro d hd
  obtain ⟨-, rfl⟩ := List.mem_replicate.mp ((Text.fit_isPrefix 1024 _).subset hd)
  simp [hc]

/-- A plain note, and one of 2000 bytes, which is longer than a message may be. -/
def plainNotes : List String := ["Pulled image", noteOf 500 '𝄞']

/-- Of a plain note and a long one the messages are explicit: the long one is not shown in full, and
its event says so. -/
theorem event_messages_explicit_iff_long : ∃ plain cut : Resource,
    (boundEventMessages (normalizedWith plainNotes)).1 = [plain, cut] ∧
      MessagesExplicit (plainNotes.map eventWith) (normalizedWith plainNotes) [plain, cut]
        (boundEventMessages (normalizedWith plainNotes)).2 ∧
      cut.message ≠ some (noteOf 500 '𝄞') ∧ cut.detailsTruncated = true := by
  have hexplicit := (event_messages_explicit_iff (normalizedWith_eq plainNotes)).mpr (by
    intro item hitem u hu
    obtain ⟨note, hnote, rfl⟩ := List.mem_map.mp hitem
    obtain rfl := Option.some.inj (show some note = some u from hu)
    rcases List.mem_pair.mp hnote with rfl | rfl
    · decide
    · exact noteOf_clean 500 (by decide))
  obtain ⟨shown, hshown⟩ : ∃ shown, (boundEventMessages (normalizedWith plainNotes)).1 = shown :=
    ⟨_, rfl⟩
  rw [hshown] at hexplicit ⊢
  have hretained := hexplicit.retained
  have hflags := hexplicit.explicit
  obtain ⟨plain, rest, -, hrest, rfl⟩ := List.forall₂_cons_left_iff.mp hretained
  obtain ⟨cut, last, hcut, hlast, rfl⟩ := List.forall₂_cons_left_iff.mp hrest
  obtain rfl := List.forall₂_nil_left_iff.mp hlast
  have hmessage : cut.message ≠ some (noteOf 500 '𝄞') := by
    intro hsome
    obtain ⟨u, -, -, hsize⟩ := hcut _ hsome
    rw [noteOf_size] at hsize
    exact absurd hsize (by decide)
  cases hflags with
  | cons _ hflags =>
      cases hflags with
      | cons hflag _ => exact ⟨plain, cut, rfl, hexplicit, hmessage, hflag _ rfl hmessage⟩

/-- A message with a line break is left out, and nothing says so. -/
theorem line_break_silent : ¬ ∀ items normalized,
    List.Forall₂ (fun item r => resource .event item = .ok r) items normalized →
      MessagesExplicit items normalized (boundEventMessages normalized).1
        (boundEventMessages normalized).2 := by
  intro h
  have hnormalized := normalizedWith_eq ["a\nb"]
  have hclean := (messages_parts hnormalized).2.mp (h _ _ hnormalized).explicit
  exact absurd (hclean _ List.mem_cons_self "a\nb" rfl) (by decide +kernel)

/-- A choice for each gives a list of choices. -/
theorem exists_forall₂ {α β : Type} {R : α → β → Prop} {p : α → Prop} {bs : List β}
    (h : ∀ b ∈ bs, ∃ a, p a ∧ R a b) : ∃ as, (∀ a ∈ as, p a) ∧ List.Forall₂ R as bs := by
  induction bs with
  | nil => exact ⟨[], List.forall_mem_nil _, .nil⟩
  | cons b bs ih =>
      obtain ⟨⟨a, ha, hab⟩, hrest⟩ := List.forall_mem_cons.mp h
      obtain ⟨as, has, hall⟩ := ih hrest
      exact ⟨a :: as, List.forall_mem_cons.mpr ⟨ha, has⟩, .cons hab hall⟩

/-- **The list of events** that is answered: its messages are explicit for the events of the cluster
that it shows, if no event has a message that is left out. -/
theorem listed_events {query : ResourceQuery} {listing : Listing} {normalized : List Resource}
    (hkind : query.kind = .event) (h : listing.items.mapM (resource .event) = .ok normalized)
    (hclean : ∀ item ∈ listing.items, Clean item) :
    ∃ shown kept, (∀ item ∈ shown, item ∈ listing.items) ∧
      MessagesExplicit shown kept (listResult query listing normalized).items
        (listResult query listing normalized).metadata.aggregateTruncated := by
  have hsources : ∀ r ∈ (StableSort.sortByKey Resource.place normalized).take query.limit.toNat,
      ∃ item, item ∈ listing.items ∧ resource .event item = .ok r := by
    intro r hr
    have hmem : r ∈ normalized := (List.mem_insertionSort _).mp (List.mem_of_mem_take hr)
    have hall : List.Forall₂ (fun item r => resource .event item = .ok r) listing.items normalized :=
      Interaction.forall₂_of_mapM h
    have hsource := Interaction.exists_left_of_mem hall hmem
    exact hsource
  obtain ⟨shown, hshown, hall⟩ := exists_forall₂ hsources
  refine ⟨shown, (StableSort.sortByKey Resource.place normalized).take query.limit.toNat, hshown, ?_⟩
  have hexplicit := messagesExplicit_of_clean hall fun item hitem => hclean item (hshown item hitem)
  simp only [listResult, if_pos hkind]
  exact hexplicit

end Kubernetes
