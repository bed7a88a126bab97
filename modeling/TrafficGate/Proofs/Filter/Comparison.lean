import Mathlib.Logic.Basic
import TrafficGate.Proofs.Filter.Plan
/-!
# What a comparison of plans looks at

Two filters are compared attribute by attribute. Region and type are looked
at first, since they cannot be changed in place; the rules last, each as
often as it is there and in whatever order. Ids are not looked at. So a
comparison depends on two questions only, in which attributes of the first
kind the filters differ and whether they are alike in the others
(`planChange_congr`), and both read the same from either side.
-/

namespace TrafficGate

/-- Whether two filters differ in an attribute that cannot be changed in
place. -/
def FixedAttribute.differs (a b : FilterModel) : FixedAttribute → Bool
  | region => a.region ≠ b.region
  | type => a.type ≠ b.type

/-- The attributes of this kind in which they differ, the region first. -/
def FixedAttribute.differing (a b : FilterModel) : List FixedAttribute :=
  [region, type].filter (differs a b)

namespace FilterModel

variable {a b c a' b' : FilterModel}

/-- Two filters are alike in all that can be changed in place. Absent rules
are as good as none. -/
structure Alike (a b : FilterModel) : Prop where
  name : a.name = b.name
  description : a.description = b.description
  includeByDefault : a.includeByDefault = b.includeByDefault
  rules : (a.rules.getD []).Perm (b.rules.getD [])

/-- A filter with another id, or none, and its rules in another order. -/
structure Rearranged (a a' : FilterModel) : Prop where
  rest : a' = { a with id := a'.id, rules := a'.rules }
  rules : (a.rules.getD []).Perm (a'.rules.getD [])

/-! ## The two questions -/

/-- No attribute differs if the region and the type are the same. -/
theorem differing_eq_nil_iff :
    FixedAttribute.differing a b = [] ↔ a.region = b.region ∧ a.type = b.type := by
  simp [FixedAttribute.differing, FixedAttribute.differs]

/-- The attributes that call for a replacement are those that differ. -/
theorem replacedAttributes_eq : a.replacedAttributes b = FixedAttribute.differing a b := by
  unfold replacedAttributes FixedAttribute.differing
  by_cases hregion : a.region = b.region
  · by_cases htype : a.type = b.type
    · simp [FixedAttribute.differs, hregion, htype]
    · simp [FixedAttribute.differs, hregion, htype]
  · by_cases htype : a.type = b.type
    · simp [FixedAttribute.differs, hregion, htype]
    · simp [FixedAttribute.differs, hregion, htype]

/-- To be alike is what is checked after that. -/
theorem alike_iff :
    a.Alike b ↔ a.name = b.name ∧ a.description = b.description ∧
      a.includeByDefault = b.includeByDefault ∧ a.sameRules b = true := by
  rw [sameRules_iff]
  constructor
  · intro h
    exact ⟨h.name, h.description, h.includeByDefault, h.rules⟩
  · rintro ⟨hname, hdescription, hinclude, hrules⟩
    exact ⟨hname, hdescription, hinclude, hrules⟩

instance : Decidable (a.Alike b) := decidable_of_iff _ alike_iff.symm

/-- **The answer**, given those to the two questions. -/
theorem planChange_eq :
    a.planChange b = match FixedAttribute.differing a b with
      | [] => if a.Alike b then .none else .update
      | attributes => .replace attributes := by
  rw [planChange, replacedAttributes_eq]
  cases FixedAttribute.differing a b with
  | nil => exact if_congr alike_iff.symm rfl rfl
  | cons x xs => rfl

section Answers

variable {attributes : List FixedAttribute}

/-- **A replacement** is due if an attribute differs, and names those that
do. -/
theorem planChange_eq_replace_iff :
    a.planChange b = .replace attributes ↔
      attributes ≠ [] ∧ attributes = FixedAttribute.differing a b := by
  rw [planChange_eq]
  cases FixedAttribute.differing a b with
  | nil =>
    by_cases h : a.Alike b
    · simp [h]
    · simp [h]
  | cons x xs =>
    rw [PlannedChange.replace.injEq, eq_comm]
    constructor
    · rintro rfl
      exact ⟨List.cons_ne_nil x xs, rfl⟩
    · exact And.right

/-- **Nothing** is due if no attribute differs and the rest is alike. -/
theorem planChange_eq_none_iff_alike :
    a.planChange b = .none ↔ (a.region = b.region ∧ a.type = b.type) ∧ a.Alike b := by
  rw [← differing_eq_nil_iff, planChange_eq]
  cases FixedAttribute.differing a b with
  | nil => simp
  | cons x xs => simp

/-- **An update** is due if no attribute differs and the rest is not alike. -/
theorem planChange_eq_update_iff :
    a.planChange b = .update ↔ (a.region = b.region ∧ a.type = b.type) ∧ ¬ a.Alike b := by
  rw [← differing_eq_nil_iff, planChange_eq]
  cases FixedAttribute.differing a b with
  | nil => simp
  | cons x xs => simp

end Answers

/-- **Where both questions have the same answers, the comparisons have.** -/
theorem planChange_congr {d : FilterModel}
    (hfixed : FixedAttribute.differing a b = FixedAttribute.differing c d)
    (halike : a.Alike b ↔ c.Alike d) : a.planChange b = c.planChange d := by
  rw [planChange_eq, planChange_eq, hfixed]
  simp only [halike]

/-! ## From either side -/

/-- It does not matter from which side attributes differ. -/
theorem differing_symm (a b : FilterModel) :
    FixedAttribute.differing a b = FixedAttribute.differing b a := by
  refine List.filter_congr fun x _ => ?_
  cases x with
  | region => exact decide_eq_decide.2 ne_comm
  | type => exact decide_eq_decide.2 ne_comm

theorem Alike.refl (a : FilterModel) : a.Alike a := ⟨rfl, rfl, rfl, .refl _⟩

theorem Alike.symm (h : a.Alike b) : b.Alike a :=
  ⟨h.name.symm, h.description.symm, h.includeByDefault.symm, h.rules.symm⟩

theorem Alike.trans (hab : a.Alike b) (hbc : b.Alike c) : a.Alike c :=
  ⟨hab.name.trans hbc.name, hab.description.trans hbc.description,
    hab.includeByDefault.trans hbc.includeByDefault, hab.rules.trans hbc.rules⟩

/-- What has to happen is the same both ways. -/
theorem planChange_symm (a b : FilterModel) : a.planChange b = b.planChange a :=
  planChange_congr (differing_symm a b) ⟨Alike.symm, Alike.symm⟩

/-- **Filters between which nothing has to change** are of one class. -/
theorem equivalence_planChange : Equivalence fun a b : FilterModel => a.planChange b = .none where
  refl a := planChange_eq_none_iff_alike.2 ⟨⟨rfl, rfl⟩, .refl a⟩
  symm {a b} h := (planChange_symm b a).trans h
  trans {a b c} hab hbc := by
    obtain ⟨⟨hregion, htype⟩, halike⟩ := planChange_eq_none_iff_alike.1 hab
    obtain ⟨⟨hregion', htype'⟩, halike'⟩ := planChange_eq_none_iff_alike.1 hbc
    exact planChange_eq_none_iff_alike.2
      ⟨⟨hregion.trans hregion', htype.trans htype'⟩, halike.trans halike'⟩

/-! ## Another id, and another order -/

/-- A filter is alike to itself with its rules in another order, or under
another id. -/
theorem Rearranged.alike (h : a.Rearranged a') : a.Alike a' := by
  have hrest := h.rest
  refine ⟨?_, ?_, ?_, h.rules⟩
  · rw [hrest]
  · rw [hrest]
  · rw [hrest]

/-- Which attributes differ does not depend on the order of rules or on ids. -/
theorem Rearranged.differing (ha : a.Rearranged a') (hb : b.Rearranged b') :
    FixedAttribute.differing a' b' = FixedAttribute.differing a b := by
  have hregion : a'.region = a.region ∧ b'.region = b.region := by rw [ha.rest, hb.rest]; simp
  have htype : a'.type = a.type ∧ b'.type = b.type := by rw [ha.rest, hb.rest]; simp
  refine List.filter_congr fun x _ => ?_
  cases x with
  | region => rw [FixedAttribute.differs, FixedAttribute.differs, hregion.1, hregion.2]
  | type => rw [FixedAttribute.differs, FixedAttribute.differs, htype.1, htype.2]

/-- Nor does what has to happen. -/
theorem Rearranged.planChange (ha : a.Rearranged a') (hb : b.Rearranged b') :
    a'.planChange b' = a.planChange b := by
  refine planChange_congr (ha.differing hb) ?_
  constructor
  · intro h
    exact ha.alike.trans (h.trans hb.alike.symm)
  · intro h
    exact ha.alike.symm.trans (h.trans hb.alike)

/-! ## The law -/

/-- **A comparison ignores the order of rules, and the ids, and nothing
else.** It asks for a replacement exactly where region or type differ, and
names those that do, the region first. Otherwise nothing has to change
exactly where name, description and flag are equal and each rule, with its
description, is on both sides as often; and all other filters have to be
updated. Hence it does not matter which of the two is the plan, or what ids
they have, or how their rules are ordered, and to be no change is an
equivalence. -/
theorem plans_compared :
    (∀ (a b : FilterModel) (attributes : List FixedAttribute),
      a.planChange b = .replace attributes ↔
        attributes ≠ [] ∧ attributes = FixedAttribute.differing a b) ∧
    (∀ a b : FilterModel, a.planChange b = .none ↔
      (a.region = b.region ∧ a.type = b.type) ∧ a.Alike b) ∧
    (∀ a b : FilterModel, a.planChange b = .update ↔
      (a.region = b.region ∧ a.type = b.type) ∧ ¬ a.Alike b) ∧
    (∀ a b : FilterModel, a.planChange b = b.planChange a) ∧
    (∀ a a' b b' : FilterModel, a.Rearranged a' → b.Rearranged b' →
      a'.planChange b' = a.planChange b) ∧
    Equivalence fun a b : FilterModel => a.planChange b = .none := by
  refine ⟨?_, ?_, ?_, planChange_symm, ?_, equivalence_planChange⟩
  · intro a b attributes
    exact planChange_eq_replace_iff
  · intro a b
    exact planChange_eq_none_iff_alike
  · intro a b
    exact planChange_eq_update_iff
  · intro a a' b b' ha hb
    exact ha.planChange hb

end FilterModel

namespace Reordered

/-- A filter with one rule twice, and another one of the same source. -/
def plan : FilterModel where
  name := "office"
  region := "eu"
  rules := some [⟨"10.0.0.0/8", none⟩, ⟨"10.0.0.0/8", some "VPN"⟩, ⟨"10.0.0.0/8", none⟩]

/-- The same with an id, and its rules in another order. -/
def tracked : FilterModel :=
  { plan with
    id := some "tf-1"
    rules := some [⟨"10.0.0.0/8", some "VPN"⟩, ⟨"10.0.0.0/8", none⟩, ⟨"10.0.0.0/8", none⟩] }

/-- The same set of rules, but the other one is there twice. -/
def other : FilterModel :=
  { plan with
    rules := some [⟨"10.0.0.0/8", some "VPN"⟩, ⟨"10.0.0.0/8", some "VPN"⟩, ⟨"10.0.0.0/8", none⟩] }

theorem rearranged : plan.Rearranged tracked := ⟨rfl, by decide⟩

end Reordered

/-- **Two rules of one source** may change places, but one of them cannot
take the place of the other. -/
theorem FilterModel.plans_compared_reordered :
    Reordered.plan.Rearranged Reordered.tracked ∧
      Reordered.tracked.planChange Reordered.other = Reordered.plan.planChange Reordered.other ∧
      Reordered.plan.planChange Reordered.tracked = .none ∧
      Reordered.plan.planChange Reordered.other = .update := by
  obtain ⟨-, hnone, hupdate, -, hrearranged, -⟩ := FilterModel.plans_compared
  have hother : ¬ Reordered.plan.Alike Reordered.other := fun h => absurd h.rules (by decide)
  exact ⟨Reordered.rearranged,
    hrearranged _ _ _ _ Reordered.rearranged ⟨rfl, .refl _⟩,
    (hnone _ _).2 ⟨⟨rfl, rfl⟩, Reordered.rearranged.alike⟩,
    (hupdate _ _).2 ⟨⟨rfl, rfl⟩, hother⟩⟩

end TrafficGate
