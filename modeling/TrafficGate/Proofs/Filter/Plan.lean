import TrafficGate.Proofs.Filter.RuleOrder
import TrafficGate.Proofs.Resource.Operation
import TrafficGate.Resource.Filter
/-!
# Plans of a filter

What it means that a plan has no problem, what is tracked of a filter that
the API reports, and when the one asks for no change to the other
(`planChange_eq_none_iff`). Rules are compared as they count: in any order,
but each as often as it is there.
-/

namespace TrafficGate

namespace FilterModel

variable {plan tracked : FilterModel} {info : FilterInfo}

/-! ## Validation -/

/-- A complaint that is no error is not made. -/
theorem complaint_eq_nil {holds : Bool} {name message : String}
    (h : (complaint holds name message).hasError = false) : complaint holds name message = [] := by
  cases holds with
  | false => rfl
  | true => simp [complaint] at h

/-- **A plan without an error has no problem at all.** -/
theorem validate_eq_nil {m : FilterModel} (h : m.validate.hasError = false) : m.validate = [] := by
  simp only [validate, Diagnostics.hasError_append, Bool.or_eq_false_iff] at h ⊢
  obtain ⟨⟨h₁, h₂⟩, h₃⟩ := h
  rw [complaint_eq_nil h₁, complaint_eq_nil h₂]
  cases hr : m.rules with
  | none => rfl
  | some rules =>
    simp only [hr, Diagnostics.hasError_append, Bool.or_eq_false_iff] at h₃
    simp [complaint_eq_nil h₃.1, complaint_eq_nil h₃.2]

/-- Rules that are managed are not empty, -/
theorem rules_ne_nil (h : plan.validate = []) : plan.rules ≠ some [] := by
  intro hrules
  simp [validate, hrules, complaint] at h

/-- so a request carries them as they are. -/
theorem managedRules_eq (h : plan.validate = []) : plan.managedRules = plan.rules := by
  unfold managedRules
  cases hrules : plan.rules with
  | none => rfl
  | some rules =>
    have hne : rules ≠ [] := fun hnil => rules_ne_nil h (hnil ▸ hrules)
    simp [hne]

/-! ## What is tracked of a report -/

/-- An empty description is tracked as none. -/
theorem description_ofInfo (info : FilterInfo) :
    (ofInfo info).description =
      if info.description = some "" then none else info.description := by
  cases h : info.description with
  | none => simp [ofInfo, h]
  | some d =>
    by_cases hempty : d = ""
    · simp [ofInfo, h, hempty, Option.filter]
    · simp [ofInfo, h, hempty, Option.filter]

/-- Rules that are tracked are those that were reported. -/
theorem rules_ofInfo : (ofInfo info).rules.getD [] = info.rules := by
  cases h : info.rules with
  | nil => simp [ofInfo, h]
  | cons r rs => simp [ofInfo, h]

/-! ## Comparison -/

/-- Nothing has to be replaced if the region and the type are the same. -/
theorem replacedAttributes_eq_nil_iff :
    plan.replacedAttributes tracked = [] ↔
      plan.region = tracked.region ∧ plan.type = tracked.type := by
  simp [replacedAttributes]

/-- Rules are the same if one list is the other in some order. -/
theorem sameRules_iff :
    plan.sameRules tracked = true ↔ (plan.rules.getD []).Perm (tracked.rules.getD []) := by
  rw [sameRules, beq_iff_eq]
  exact Rule.sorted_eq_iff

/-- **Nothing has to change** exactly where all attributes are equal and the
rules are, up to their order. -/
theorem planChange_eq_none_iff :
    plan.planChange tracked = .none ↔
      (plan.region = tracked.region ∧ plan.type = tracked.type) ∧ plan.name = tracked.name ∧
        plan.description = tracked.description ∧
        plan.includeByDefault = tracked.includeByDefault ∧
        (plan.rules.getD []).Perm (tracked.rules.getD []) := by
  rw [← replacedAttributes_eq_nil_iff, ← sameRules_iff]
  unfold planChange
  cases plan.replacedAttributes tracked with
  | nil => simp
  | cons a as => simp

end FilterModel

end TrafficGate
