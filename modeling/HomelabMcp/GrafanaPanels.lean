import HomelabMcp.GrafanaNormalize
import HomelabMcp.GrafanaRender
import HomelabMcp.TextDecimals

/-!
# The panels of a dashboard

A panel may have panels of its own; `flattenPanels` lists them all.  It refuses a list that is
nested too deep, and counts the panels before each one.

* `flattenPanels_eq_ok`: from any depth and any list so far, it accepts exactly the forests of
  panels within both limits.
* `panels_in_preorder`: what it returns for the panels of a dashboard.
-/

namespace Grafana

open Interaction
open Json (Value)

/-- The most panels of a dashboard. -/
def maxDashboardPanels : Nat := 500

/-- `valid_panel_id`. -/
def validPanelId (panelId : String) : Bool :=
  1 ≤ panelId.utf8ByteSize && panelId.utf8ByteSize ≤ 64 &&
    panelId.toList.all fun c => c.isAlphanum || ['_', '.', '-'].contains c

/-- The id as the dashboard has it, a text or a number. -/
def sourcePanelId : Option Value → Except Error String
  | some (.string id) => if validPanelId id then .ok id else .error .invalidResponse
  | some (.number id) =>
      okOr .invalidResponse ((Value.number id).asU64.map fun n => toString n.toNat)
  | _ => .error .invalidResponse

/-- The identity of a panel: a text, or a number in decimal. -/
def panelId (object : Members) : Except Error String := do
  let id ← sourcePanelId (object.lookup "id")
  if validPanelId id then pure id else .error .invalidResponse

/-- What is listed of a panel. -/
structure PanelLabel where
  id : String
  title : String
  type : String

/-- A label as it is returned. -/
def PanelLabel.toValue (label : PanelLabel) : Value :=
  .object [("id", .string label.id), ("title", .string label.title), ("type", .string label.type)]

/-- `panel_label`. -/
def panelLabel (object : Members) : Except Error PanelLabel := do
  let id ← panelId object
  let title ← allowEmptyBoundedString object "title" maxSummaryBytes
  let type ← boundedString object "type" maxSafeKeyBytes
  pure ⟨id, title, type⟩

/-- One panel, and then those it has. -/
def flattenPanel (flattenChildren : List Value → List Value → Except Error (List Value))
    (output : List Value) (panel : Value) : Except Error (List Value) :=
  if output.length ≥ maxDashboardPanels then .error .invalidResponse
  else do
    let object ← okOr .invalidResponse panel.asObject
    let label ← panelLabel object
    let output := output ++ [label.toValue]
    match object.lookup "panels" with
    | some children => flattenChildren (← okOr .invalidResponse children.asArray) output
    | none => pure output

/-- `flatten_panels`: at most 64 levels deep. -/
def flattenPanels (panels output : List Value) (depth : Nat) : Except Error (List Value) :=
  if h : depth > 64 then .error .invalidResponse
  else
    panels.foldlM (flattenPanel fun children output => flattenPanels children output (depth + 1))
      output
termination_by 65 - depth

/-- Panels, each without a list of panels or with one, which may be empty. -/
inductive Forest where
  | nil
  | leaf (label : PanelLabel) (rest : Forest)
  | group (label : PanelLabel) (children rest : Forest)

namespace Forest

/-- How deep lists of panels are nested. -/
def depth : Forest → Nat
  | nil => 0
  | leaf _ rest => rest.depth
  | group _ children rest => max (children.depth + 1) rest.depth

/-- Each panel before those it has, and these before the next one. -/
def preorder : Forest → List PanelLabel
  | nil => []
  | leaf label rest => label :: rest.preorder
  | group label children rest => label :: (children.preorder ++ rest.preorder)

end Forest

/-- A valid identity of a panel. -/
def PanelIdentity (id : String) : Prop :=
  1 ≤ id.utf8ByteSize ∧ id.utf8ByteSize ≤ 64 ∧
    ∀ c ∈ id.toList, c.isAlphanum = true ∨ c ∈ ['_', '.', '-']

/-- The object has this identity, title and type. -/
structure PanelLabel.IsRead (object : Members) (label : PanelLabel) : Prop where
  id : object.lookup "id" = some (.string label.id) ∧ PanelIdentity label.id ∨
    ∃ n : UInt64, object.lookup "id" = some (.nat n) ∧ label.id = toString n.toNat
  title : object.lookup "title" = some (.string label.title) ∧
    label.title.utf8ByteSize ≤ maxSummaryBytes
  type : object.lookup "type" = some (.string label.type) ∧ label.type ≠ "" ∧
    label.type.utf8ByteSize ≤ maxSafeKeyBytes

/-- The values are these panels. -/
inductive ForestIsRead : List Value → Forest → Prop
  | nil : ForestIsRead [] .nil
  | leaf {object : Members} {label : PanelLabel} {panels : List Value} {rest : Forest}
      (hlabel : label.IsRead object) (hnone : object.lookup "panels" = none)
      (hrest : ForestIsRead panels rest) :
      ForestIsRead (.object object :: panels) (.leaf label rest)
  | group {object : Members} {label : PanelLabel} {nested panels : List Value}
      {children rest : Forest} (hlabel : label.IsRead object)
      (hsome : object.lookup "panels" = some (.array nested))
      (hchildren : ForestIsRead nested children) (hrest : ForestIsRead panels rest) :
      ForestIsRead (.object object :: panels) (.group label children rest)

/-- The check of an id finds the ids of panels. -/
theorem validPanelId_iff (id : String) : validPanelId id = true ↔ PanelIdentity id := by
  simp only [validPanelId, PanelIdentity, Bool.and_eq_true, decide_eq_true_eq, List.all_eq_true,
    Bool.or_eq_true, List.contains_iff_mem, and_assoc]

/-- A number of 64 bits in decimal is a valid identity. -/
theorem panelIdentity_nat (n : UInt64) : PanelIdentity (toString n.toNat) := by
  have hdigits : ∀ c ∈ Text.decimal n.toNat, c.isDigit = true :=
    fun _ => Text.isDigit_of_mem_decimal
  have hsize : (toString n.toNat).utf8ByteSize = (Text.decimal n.toNat).length := by
    rw [← size_of_digits hdigits, ← Text.toList_toString, String.ofList_toList]
  have hbound : n.toNat < 10 ^ 64 := n.toNat_lt.trans (by decide)
  refine ⟨?_, ?_, ?_⟩
  · rw [hsize]
    exact Nat.length_toDigits_pos
  · rw [hsize]
    exact (Nat.length_toDigits_le_iff (by decide) (by decide)).mpr hbound
  · intro c hc
    rw [Text.toList_toString] at hc
    have hdigit := hdigits c hc
    left
    rw [Char.isAlphanum, hdigit, Bool.or_true]

/-- An id is read from a text or from a number. -/
theorem panelId_eq_ok {object : Members} {id : String} :
    panelId object = .ok id ↔ object.lookup "id" = some (.string id) ∧ PanelIdentity id ∨
      ∃ n : UInt64, object.lookup "id" = some (.nat n) ∧ id = toString n.toNat := by
  unfold panelId
  constructor
  · intro h
    obtain ⟨read, hread, h⟩ := bind_eq_ok.mp h
    split_ifs at h with hvalid
    obtain rfl := Except.ok.inj h
    have hidentity := (validPanelId_iff read).mp hvalid
    unfold sourcePanelId at hread
    split at hread
    · next text hlookup =>
        split_ifs at hread
        obtain rfl := Except.ok.inj hread
        exact .inl ⟨hlookup, hidentity⟩
    · next number hlookup =>
        obtain ⟨n, hn, rfl⟩ := Option.map_eq_some_iff.mp (okOr_eq_ok.mp hread)
        cases number with
        | posInt m =>
            obtain rfl := Option.some.inj hn
            exact .inr ⟨m, hlookup, rfl⟩
        | negInt m => cases hn
        | float bits => cases hn
    · cases hread
  · rintro (⟨hlookup, hidentity⟩ | ⟨n, hlookup, rfl⟩)
    · have hvalid := (validPanelId_iff id).mpr hidentity
      rw [hlookup, sourcePanelId, if_pos hvalid]
      exact if_pos hvalid
    · rw [hlookup]
      exact if_pos ((validPanelId_iff _).mpr (panelIdentity_nat n))

/-- A label is read where its parts are. -/
theorem panelLabel_eq_ok {object : Members} {label : PanelLabel} :
    panelLabel object = .ok label ↔ label.IsRead object := by
  unfold panelLabel
  constructor
  · intro h
    obtain ⟨id, hid, h⟩ := bind_eq_ok.mp h
    obtain ⟨title, htitle, h⟩ := bind_eq_ok.mp h
    obtain ⟨type, htype, h⟩ := bind_eq_ok.mp h
    obtain rfl := Except.ok.inj h
    exact ⟨panelId_eq_ok.mp hid, allowEmptyBoundedString_eq_ok.mp htitle,
      boundedString_eq_ok.mp htype⟩
  · intro h
    refine bind_eq_ok.mpr ⟨label.id, panelId_eq_ok.mpr h.id, ?_⟩
    refine bind_eq_ok.mpr ⟨label.title, allowEmptyBoundedString_eq_ok.mpr h.title, ?_⟩
    exact bind_eq_ok.mpr ⟨label.type, boundedString_eq_ok.mpr h.type, rfl⟩

/-- What one panel adds: its label, and what its own panels add after it. -/
theorem flattenPanel_eq_ok
    {flattenChildren : List Value → List Value → Except Error (List Value)}
    {output out : List Value} {panel : Value} :
    flattenPanel flattenChildren output panel = .ok out ↔
      output.length < maxDashboardPanels ∧ ∃ (object : Members) (label : PanelLabel),
        panel = .object object ∧ label.IsRead object ∧
        (object.lookup "panels" = none ∧ out = output ++ [label.toValue] ∨
          ∃ nested, object.lookup "panels" = some (.array nested) ∧
            flattenChildren nested (output ++ [label.toValue]) = .ok out) := by
  unfold flattenPanel
  by_cases hfull : output.length ≥ maxDashboardPanels
  · rw [if_pos hfull]
    exact iff_of_false nofun fun h => absurd h.1 (Nat.not_lt.mpr hfull)
  · rw [if_neg hfull, and_iff_right (Nat.lt_of_not_le hfull)]
    constructor
    · intro h
      obtain ⟨object, hobject, h⟩ := bind_eq_ok.mp h
      obtain ⟨label, hlabel, h⟩ := bind_eq_ok.mp h
      refine ⟨object, label, Value.asObject_eq_some.mp (okOr_eq_ok.mp hobject),
        panelLabel_eq_ok.mp hlabel, ?_⟩
      cases hlookup : object.lookup "panels" with
      | none =>
          rw [hlookup] at h
          obtain rfl := Except.ok.inj h
          exact .inl ⟨rfl, rfl⟩
      | some children =>
          rw [hlookup] at h
          obtain ⟨nested, hnested, h⟩ := bind_eq_ok.mp h
          rw [Value.asArray_eq_some.mp (okOr_eq_ok.mp hnested)]
          exact .inr ⟨nested, rfl, h⟩
    · rintro ⟨object, label, rfl, hlabel, hpanels⟩
      refine bind_eq_ok.mpr ⟨object, rfl, bind_eq_ok.mpr ⟨label, panelLabel_eq_ok.mpr hlabel, ?_⟩⟩
      rcases hpanels with ⟨hnone, rfl⟩ | ⟨nested, hsome, hout⟩
      · rw [hnone]
        rfl
      · rw [hsome]
        exact hout

/-- The panels of a forest are added, and are not too many. -/
def Adds (forest : Forest) (output out : List Value) : Prop :=
  output.length + forest.preorder.length ≤ maxDashboardPanels ∧
    out = output ++ forest.preorder.map PanelLabel.toValue

/-- A leaf adds its label. -/
theorem adds_leaf {label : PanelLabel} {rest : Forest} {output out : List Value} :
    Adds (.leaf label rest) output out ↔ Adds rest (output ++ [label.toValue]) out := by
  simp only [Adds, Forest.preorder, List.length_append, List.length_cons, List.length_nil,
    List.map_cons, List.append_assoc, List.singleton_append]
  rw [show output.length + (0 + 1) + rest.preorder.length =
    output.length + (rest.preorder.length + 1) by omega]

/-- A group adds its own, then those of its children. -/
theorem adds_group {label : PanelLabel} {children rest : Forest} {output out : List Value} :
    Adds (.group label children rest) output out ↔
      ∃ mid, Adds children (output ++ [label.toValue]) mid ∧ Adds rest mid out := by
  constructor
  · rintro ⟨hlength, rfl⟩
    simp only [Forest.preorder, List.length_append, List.length_cons] at hlength
    refine ⟨_, ⟨?_, rfl⟩, ?_, ?_⟩
    · rw [List.length_append, List.length_singleton]
      omega
    · simp only [List.length_append, List.length_singleton, List.length_map]
      omega
    · simp [Forest.preorder]
  · rintro ⟨mid, ⟨hlength, rfl⟩, hrest, rfl⟩
    simp only [List.length_append, List.length_singleton, List.length_map] at hrest
    refine ⟨?_, by simp [Forest.preorder]⟩
    simp only [Forest.preorder, List.length_append, List.length_cons]
    omega

/-- There was room before the panels. -/
theorem Adds.start {forest : Forest} {output out : List Value} (h : Adds forest output out) :
    output.length ≤ maxDashboardPanels := (Nat.le_add_right _ _).trans h.1

/-- There is room after them. -/
theorem Adds.stop {forest : Forest} {output out : List Value} (h : Adds forest output out) :
    out.length ≤ maxDashboardPanels := by
  rw [h.2, List.length_append, List.length_map]
  exact h.1

/-- A loop over panels, where it is known what is done with those that a panel has. -/
theorem foldlM_flattenPanel
    {flattenChildren : List Value → List Value → Except Error (List Value)} {depth : Nat}
    (hdepth : depth ≤ 64)
    (hchildren : ∀ {nested output out : List Value}, output.length ≤ maxDashboardPanels →
      (flattenChildren nested output = .ok out ↔ ∃ forest, ForestIsRead nested forest ∧
        depth + 1 + forest.depth ≤ 64 ∧ Adds forest output out))
    {panels output out : List Value} (houtput : output.length ≤ maxDashboardPanels) :
    panels.foldlM (flattenPanel flattenChildren) output = .ok out ↔
      ∃ forest, ForestIsRead panels forest ∧ depth + forest.depth ≤ 64 ∧
        Adds forest output out := by
  induction panels generalizing output with
  | nil =>
      constructor
      · intro h
        obtain rfl := Except.ok.inj h
        exact ⟨.nil, .nil, hdepth, houtput, (List.append_nil output).symm⟩
      · rintro ⟨forest, hread, -, -, rfl⟩
        cases hread
        rw [Forest.preorder, List.map_nil, List.append_nil]
        rfl
  | cons panel panels ih =>
      rw [List.foldlM_cons, bind_eq_ok]
      have hlength : ∀ label : PanelLabel,
          (output ++ [label.toValue]).length = output.length + 1 := by simp
      constructor
      · intro ⟨mid, hpanel, hpanels⟩
        obtain ⟨hspace, object, label, rfl, hlabel, hcase⟩ := flattenPanel_eq_ok.mp hpanel
        have hnext : (output ++ [label.toValue]).length ≤ maxDashboardPanels := by
          rw [hlength]
          exact hspace
        rcases hcase with ⟨hnone, rfl⟩ | ⟨nested, hsome, hnested⟩
        · obtain ⟨rest, hrest, hlow, hadds⟩ := (ih hnext).mp hpanels
          exact ⟨.leaf label rest, .leaf hlabel hnone hrest, hlow, adds_leaf.mpr hadds⟩
        · obtain ⟨children, hread, hdeep, hadd⟩ := (hchildren hnext).mp hnested
          obtain ⟨rest, hrest, hlow, hadds⟩ := (ih hadd.stop).mp hpanels
          refine ⟨.group label children rest, .group hlabel hsome hread hrest, ?_,
            adds_group.mpr ⟨mid, hadd, hadds⟩⟩
          rw [Forest.depth]
          omega
      · intro ⟨forest, hread, hlow, hadds⟩
        cases hread with
        | @leaf object label _ rest hlabel hnone hrest =>
            have hadd := adds_leaf.mp hadds
            have hnext := hadd.start
            have hspace : output.length < maxDashboardPanels := by
              rw [hlength] at hnext
              exact hnext
            exact ⟨_, flattenPanel_eq_ok.mpr ⟨hspace, object, label, rfl, hlabel,
              .inl ⟨hnone, rfl⟩⟩, (ih hnext).mpr ⟨rest, hrest, hlow, hadd⟩⟩
        | @group object label nested _ children rest hlabel hsome hchild hrest =>
            obtain ⟨mid, hadd, hadds⟩ := adds_group.mp hadds
            have hnext := hadd.start
            have hspace : output.length < maxDashboardPanels := by
              rw [hlength] at hnext
              exact hnext
            rw [Forest.depth] at hlow
            have hnested := (hchildren hnext).mpr ⟨children, hchild, by omega, hadd⟩
            exact ⟨mid, flattenPanel_eq_ok.mpr ⟨hspace, object, label, rfl, hlabel,
              .inr ⟨nested, hsome, hnested⟩⟩,
              (ih hadd.stop).mpr ⟨rest, hrest, by omega, hadds⟩⟩

/-- **From any depth and any list so far**, the panels within the limits are added. -/
theorem flattenPanels_eq_ok {panels output out : List Value} {depth : Nat}
    (houtput : output.length ≤ maxDashboardPanels) :
    flattenPanels panels output depth = .ok out ↔
      ∃ forest, ForestIsRead panels forest ∧ depth + forest.depth ≤ 64 ∧
        Adds forest output out := by
  obtain ⟨levels, hlevels⟩ : ∃ levels, levels = 65 - depth := ⟨_, rfl⟩
  induction levels generalizing panels output out depth with
  | zero =>
      rw [flattenPanels, dif_pos (by omega)]
      refine iff_of_false nofun ?_
      intro ⟨forest, _, hdepth, _⟩
      omega
  | succ levels deeper =>
      rw [flattenPanels, dif_neg (by omega)]
      apply foldlM_flattenPanel (by omega) _ houtput
      intro nested output out houtput
      exact deeper houtput (by omega)

/-- **The panels of a dashboard.**  The list is accepted exactly if each panel has a valid identity,
title and type, and its own panels, if any, are a list; no list is nested deeper than 64 levels, and
there are 500 panels at most.  Each panel is then listed before its own ones, and these before the
next one. -/
theorem panels_in_preorder (panels out : List Value) :
    flattenPanels panels [] 0 = .ok out ↔
      ∃ forest, ForestIsRead panels forest ∧ forest.depth ≤ 64 ∧
        forest.preorder.length ≤ maxDashboardPanels ∧
        out = forest.preorder.map PanelLabel.toValue := by
  have hempty : ([] : List Value).length ≤ maxDashboardPanels := Nat.zero_le _
  rw [flattenPanels_eq_ok hempty]
  simp only [Adds, List.length_nil, Nat.zero_add, List.nil_append]

end Grafana
