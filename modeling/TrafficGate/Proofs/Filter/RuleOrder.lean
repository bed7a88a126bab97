import TrafficGate.Filter.Model
/-!
# The order of rules

Rules are compared by their sources and then by their descriptions. That is
a total order in which only a rule and itself are equal, so a list of rules
has one form in which it is sorted, and two lists have the same one exactly
where each rule is in both of them as often (`sorted_eq_iff`).
-/

namespace TrafficGate

namespace Rule

variable {r s t : Rule} {rs ss : List Rule}

/-! ## Two rules -/

instance : Std.TransOrd Rule :=
  inferInstanceAs (Std.TransCmp (compareLex (compareOn source) (compareOn description)))

/-- **Only a rule and itself compare as equal**: no field is left out. -/
theorem eq_of_compare_eq (h : compare r s = .eq) : r = s := by
  obtain ⟨hsource, hdescription⟩ := Ordering.then_eq_eq.1 h
  obtain ⟨source, description⟩ := r
  obtain rfl : source = s.source := Std.LawfulEqOrd.eq_of_compare hsource
  obtain rfl : description = s.description := Std.LawfulEqOrd.eq_of_compare hdescription
  rfl

/-- Of two rules, one may stand before the other. -/
theorem le_total (r s : Rule) : (r.le s || s.le r) = true := by
  rw [Bool.or_eq_true]
  by_cases hrs : r.le s = true
  · exact .inl hrs
  · exact .inr (Ordering.isLE_of_eq_lt (Std.OrientedCmp.lt_of_not_isLE hrs))

/-- A rule that may stand before a second one may stand before all that the
second one may. -/
theorem le_trans (hrs : r.le s = true) (hst : s.le t = true) : r.le t = true :=
  Std.TransOrd.isLE_trans hrs hst

/-- Two rules that may each stand before the other are one. -/
theorem le_antisymm (hrs : r.le s = true) (hsr : s.le r = true) : r = s :=
  eq_of_compare_eq (Std.OrientedCmp.isLE_antisymm hrs hsr)

/-! ## Sorted lists -/

/-- To sort drops no rule and repeats none. -/
theorem sorted_perm (rs : List Rule) : (sorted rs).Perm rs := List.mergeSort_perm rs le

/-- Each rule may stand before all that are behind it. -/
theorem pairwise_sorted (rs : List Rule) : (sorted rs).Pairwise fun r s => r.le s = true := by
  have htrans : ∀ r s t : Rule, r.le s = true → s.le t = true → r.le t = true :=
    fun _ _ _ => le_trans
  exact List.pairwise_mergeSort htrans le_total rs

/-- **Two lists are equal once sorted if and only if they hold the same
rules**, each as often. -/
theorem sorted_eq_iff : sorted rs = sorted ss ↔ rs.Perm ss := by
  have hrs : (sorted rs).Perm rs := sorted_perm rs
  have hss : (sorted ss).Perm ss := sorted_perm ss
  constructor
  · intro h
    rw [h] at hrs
    exact hrs.symm.trans hss
  · intro h
    have hperm : (sorted rs).Perm (sorted ss) := hrs.trans (h.trans hss.symm)
    -- the rules of one list do not rise in two ways
    exact hperm.eq_of_pairwise (fun r s _ _ => le_antisymm) (pairwise_sorted rs)
      (pairwise_sorted ss)

end Rule

end TrafficGate
