import HomelabMcp.CephMutations
import HomelabMcp.ClusterCatalogs
import HomelabMcp.TextDecimals

/-!
# Confirmations of destroy and purge

The input of a Ceph command is validated before anything is sent.  To destroy or purge an OSD the
caller spells out the action, the OSD and the cluster.

* `confirmation_unambiguous`: a confirmation is accepted for one action, one cluster and one OSD,
  and the command names these.
-/

namespace Ceph

/-- The one error of validation. -/
structure ValidationError where
  deriving DecidableEq

/-- What is handed in, the confirmation of a removal with it. -/
inductive ExecInput where
  | mark (cluster : String) (osdId : UInt32) (state : CephClient.MarkState)
  | reweight (cluster : String) (osdId : UInt32) (weight : UInt64)
  | scrub (cluster : String) (osdId : UInt32) (kind : CephClient.ScrubKind)
  | destroy (cluster : String) (osdId : UInt32) (confirmation : String)
  | purge (cluster : String) (osdId : UInt32) (confirmation : String)
  deriving DecidableEq

/-- The text that confirms a removal. -/
def destructiveConfirmation (action cluster : String) (osdId : UInt32) : String :=
  action ++ " osd." ++ toString osdId.toNat ++ " on " ++ cluster

/-- Whether a double is from zero to one, by its bits; a zero may have a sign. -/
def inUnit (bits : UInt64) : Bool := bits ≤ 0x3FF0000000000000 || bits == 0x8000000000000000

/-- `ExecInput::validate`. -/
def ExecInput.validate : ExecInput → Except ValidationError ExecCommand
  | mark cluster osdId state =>
      if validCluster cluster then .ok (.mark cluster osdId state) else .error ⟨⟩
  | reweight cluster osdId weight =>
      if validCluster cluster && CephClient.isFinite weight && inUnit weight then
        .ok (.reweight cluster osdId weight)
      else .error ⟨⟩
  | scrub cluster osdId kind =>
      if validCluster cluster then .ok (.scrub cluster osdId kind) else .error ⟨⟩
  | destroy cluster osdId confirmation =>
      if validCluster cluster &&
          confirmation == destructiveConfirmation "destroy" cluster osdId then
        .ok (.destroy cluster osdId)
      else .error ⟨⟩
  | purge cluster osdId confirmation =>
      if validCluster cluster && confirmation == destructiveConfirmation "purge" cluster osdId then
        .ok (.purge cluster osdId)
      else .error ⟨⟩

namespace Removal

/-- The word of a confirmation. -/
def word : Removal → String
  | destroy => "destroy"
  | purge => "purge"

/-- The input of a removal with a confirmation. -/
def input : Removal → String → UInt32 → String → ExecInput
  | destroy => .destroy
  | purge => .purge

end Removal

variable {removal removal' : Removal} {cluster cluster' : String} {osdId osdId' : UInt32}

/-- A removal is accepted with its own confirmation and no other. -/
theorem validate_input {confirmation : String} {command : ExecCommand} :
    (removal.input cluster osdId confirmation).validate = .ok command ↔
      validCluster cluster = true ∧
        confirmation = destructiveConfirmation removal.word cluster osdId ∧
        command = removal.command cluster osdId := by
  have hguard : ∀ (word : String) (accepted : ExecCommand),
      (if validCluster cluster && confirmation == destructiveConfirmation word cluster osdId then
        .ok accepted else .error ⟨⟩ : Except ValidationError ExecCommand) = .ok command ↔
      validCluster cluster = true ∧ confirmation = destructiveConfirmation word cluster osdId ∧
        command = accepted := by
    intro word accepted
    by_cases h : (validCluster cluster &&
        confirmation == destructiveConfirmation word cluster osdId) = true
    · rw [if_pos h]
      rw [Bool.and_eq_true, beq_iff_eq] at h
      constructor
      · intro heq
        exact ⟨h.1, h.2, (Except.ok.inj heq).symm⟩
      · intro ⟨_, _, heq⟩
        rw [heq]
    · rw [if_neg h]
      rw [Bool.and_eq_true, beq_iff_eq] at h
      constructor
      · intro heq
        cases heq
      · intro ⟨hcluster, hconfirmation, _⟩
        exact absurd ⟨hcluster, hconfirmation⟩ h
  cases removal with
  | destroy => exact hguard "destroy" _
  | purge => exact hguard "purge" _

/-- A destroy or a purge is only accepted from an input for one. -/
theorem input_of_removal {input : ExecInput}
    (h : input.validate = .ok (removal.command cluster osdId)) :
    ∃ confirmation, input = removal.input cluster osdId confirmation := by
  cases input with
  | mark =>
      rw [ExecInput.validate] at h
      split_ifs at h
      cases removal <;> cases h
  | reweight =>
      rw [ExecInput.validate] at h
      split_ifs at h
      cases removal <;> cases h
  | scrub =>
      rw [ExecInput.validate] at h
      split_ifs at h
      cases removal <;> cases h
  | destroy cluster' osdId' confirmation =>
      have haccepted := (@validate_input .destroy _ _ _ _).mp h
      cases removal with
      | destroy =>
          obtain ⟨rfl, rfl⟩ := ExecCommand.destroy.inj haccepted.2.2
          exact ⟨confirmation, rfl⟩
      | purge => cases haccepted.2.2
  | purge cluster' osdId' confirmation =>
      have haccepted := (@validate_input .purge _ _ _ _).mp h
      cases removal with
      | destroy => cases haccepted.2.2
      | purge =>
          obtain ⟨rfl, rfl⟩ := ExecCommand.purge.inj haccepted.2.2
          exact ⟨confirmation, rfl⟩

/-- The parts of a confirmation, in their order. -/
theorem toList_confirmation (word cluster : String) (osdId : UInt32) :
    (destructiveConfirmation word cluster osdId).toList =
      word.toList ++ (" osd.".toList ++ (Text.decimal osdId.toNat ++ ' ' ::
        ("on ".toList ++ cluster.toList))) := by
  have hon : " on ".toList = ' ' :: "on ".toList := by decide
  simp only [destructiveConfirmation, String.toList_append, Text.toList_toString, hon,
    List.append_assoc, List.cons_append]

/-- **The parts of a confirmation.** -/
theorem confirmation_inj (h : destructiveConfirmation removal.word cluster osdId =
    destructiveConfirmation removal'.word cluster' osdId') :
    removal = removal' ∧ cluster = cluster' ∧ osdId = osdId' := by
  have hlist := congrArg String.toList h
  rw [toList_confirmation, toList_confirmation] at hlist
  have hremoval : removal = removal' := by
    cases removal <;> cases removal'
    · rfl
    · simp [Removal.word] at hlist
    · simp [Removal.word] at hlist
    · rfl
  subst hremoval
  have hnumber := List.append_cancel_left (List.append_cancel_left hlist)
  obtain ⟨hosd, hrest⟩ := Text.decimal_append_inj (by decide) hnumber
  have hcluster := List.append_cancel_left hrest
  exact ⟨rfl, String.toList_inj.mp hcluster, UInt32.toNat_inj.mp hosd⟩

/-- **A confirmation is for one removal.** -/
theorem confirmation_unambiguous :
    (∀ (confirmation : String) (removal removal' : Removal) (cluster cluster' : String)
      (osdId osdId' : UInt32) (command command' : ExecCommand),
      (removal.input cluster osdId confirmation).validate = .ok command →
        (removal'.input cluster' osdId' confirmation).validate = .ok command' →
          removal = removal' ∧ cluster = cluster' ∧ osdId = osdId') ∧
    (∀ (confirmation : String) (removal : Removal) (cluster : String) (osdId : UInt32)
      (command : ExecCommand),
      (removal.input cluster osdId confirmation).validate = .ok command →
        command = removal.command cluster osdId) ∧
    ∀ (input : ExecInput) (removal : Removal) (cluster : String) (osdId : UInt32),
      input.validate = .ok (removal.command cluster osdId) →
        ∃ confirmation, input = removal.input cluster osdId confirmation := by
  refine ⟨?_, ?_, fun _ _ _ _ h => input_of_removal h⟩
  · intro confirmation removal removal' cluster cluster' osdId osdId' command command' h h'
    obtain ⟨-, hconfirmation, -⟩ := validate_input.mp h
    obtain ⟨-, hconfirmation', -⟩ := validate_input.mp h'
    exact confirmation_inj (hconfirmation.symm.trans hconfirmation')
  · intro confirmation removal cluster osdId command h
    exact (validate_input.mp h).2.2

/-- A cluster named by digits and dashes. -/
theorem confirmation_unambiguous_digits :
    (Removal.destroy.input "1-2" 7 "destroy osd.7 on 1-2").validate = .ok (.destroy "1-2" 7) ∧
      ∀ (removal : Removal) (cluster : String) (osdId : UInt32) (command : ExecCommand),
        (removal.input cluster osdId "destroy osd.7 on 1-2").validate = .ok command →
          removal = .destroy ∧ cluster = "1-2" ∧ osdId = 7 := by
  have haccepted : (Removal.destroy.input "1-2" 7 "destroy osd.7 on 1-2").validate =
      .ok (.destroy "1-2" 7) := by
    have hname : destructiveConfirmation "destroy" "1-2" 7 = "destroy osd.7 on 1-2" := by decide
    exact validate_input.mpr ⟨by decide, hname.symm, rfl⟩
  refine ⟨haccepted, fun removal cluster osdId command h => ?_⟩
  exact confirmation_unambiguous.1 _ _ _ _ _ _ _ _ _ h haccepted

end Ceph
