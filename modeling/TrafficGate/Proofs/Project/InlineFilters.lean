import TrafficGate.Run
import TrafficGate.Proofs.Association.Lists
import TrafficGate.Proofs.Resource.Operation
import TrafficGate.Proofs.Text.ByteOrder
import Mathlib.Data.List.Sort
/-!
# Declared sets and their calls

A declared set is a list of ids in rising order, and there is one such list
for each set of ids (`Rising.eq_of_mem_iff`). So what `sorted` makes of a
list depends on the ids in it only, and a set that is written and read back
is the set that was declared (`sorted_eq_of_mem_iff`).

To look up the set of a project is one call, and so is to replace it; where
no set is declared there is nothing to replace, and the one call is the
look-up (`store_eq_fetch`).
-/

namespace TrafficGate

/-- Ids in the order of their bytes, each once. -/
def Rising (ids : List String) : Prop :=
  ids.Pairwise fun a b => Utf8.encode a < Utf8.encode b

instance (ids : List String) : Decidable (Rising ids) :=
  inferInstanceAs (Decidable (ids.Pairwise _))

namespace Rising

variable {ids ids' : List String}

theorem iff_pairwise : Rising ids ↔ ids.Pairwise (· < ·) := by
  simp only [Rising, Utf8.encode_lt_encode_iff]

theorem nodup (h : Rising ids) : ids.Nodup :=
  (iff_pairwise.1 h).imp fun hlt => ne_of_lt hlt

/-- **There is one such list of the same ids.** -/
theorem eq_of_mem_iff (h : Rising ids) (h' : Rising ids') (hmem : ∀ id, id ∈ ids ↔ id ∈ ids') :
    ids = ids' :=
  (iff_pairwise.1 h).eq_of_mem_iff (iff_pairwise.1 h') hmem

end Rising

namespace InlineFilters

variable {id x : String} {ids : List String} {m : Membership} {p : ProjectKey}

/-! ## Sets as lists -/

theorem mem_insert : x ∈ insert id ids ↔ x = id ∨ x ∈ ids := by
  induction ids with
  | nil => simp [insert]
  | cons y rest ih =>
    unfold insert
    split
    · exact List.mem_cons
    · split
      case isTrue heq => simp [heq]
      case isFalse => simp only [List.mem_cons, ih, or_left_comm]

/-- An id is put in its place. -/
theorem pairwise_insert (h : ids.Pairwise (· < ·)) : (insert id ids).Pairwise (· < ·) := by
  induction ids with
  | nil => exact List.pairwise_singleton _ _
  | cons y rest ih =>
    obtain ⟨hy, hrest⟩ := List.pairwise_cons.1 h
    unfold insert
    split
    case isTrue hlt =>
      refine List.pairwise_cons.2 ⟨fun z hz => ?_, h⟩
      rcases List.mem_cons.1 hz with rfl | hz
      · exact hlt
      · exact hlt.trans (hy z hz)
    split
    case isTrue => exact h
    case isFalse hnlt hne =>
      refine List.pairwise_cons.2 ⟨fun z hz => ?_, ih hrest⟩
      rcases mem_insert.1 hz with rfl | hz
      · exact lt_of_le_of_ne (not_lt.1 hnlt) (Ne.symm hne)
      · exact hy z hz

/-- To sort ids adds none and drops none. -/
@[simp] theorem mem_sorted : x ∈ sorted ids ↔ x ∈ ids := by
  induction ids with
  | nil => rfl
  | cons y rest ih =>
    rw [sorted, List.foldr_cons, mem_insert, List.mem_cons]
    exact or_congr_right ih

/-- Sorted ids rise. -/
theorem rising_sorted (ids : List String) : Rising (sorted ids) := by
  rw [Rising.iff_pairwise]
  induction ids with
  | nil => exact .nil
  | cons y rest ih => exact pairwise_insert ih

/-- **A rising list is what is made of any list of its ids.** -/
theorem sorted_eq_of_mem_iff {shown : List String} (h : Rising shown)
    (hmem : ∀ id, id ∈ ids ↔ id ∈ shown) : sorted ids = shown :=
  (rising_sorted ids).eq_of_mem_iff h fun _ => mem_sorted.trans (hmem _)

/-- Of no ids there is no set, not an empty one. -/
theorem ofMembership_eq (m : Membership) :
    ofMembership m = if m.ids = [] then none else some (sorted m.ids) := by
  unfold ofMembership ofFilters
  rw [← Membership.map_id_toFilters m]
  cases m.toFilters with
  | nil => rfl
  | cons ref refs => rfl

/-! ## Their calls -/

/-- **To look up a set is one call.** -/
theorem calls_fetch (p : ProjectKey) :
    (fetch p).calls = .ask p.reading fun o =>
      .done ((p.reported .readProject o).map ofMembership) := by
  simp only [fetch, Attempt.calls_bind, ProjectKey.calls_fetchMembership, Dialogue.ask_bind,
    Dialogue.done_bind]
  congr 1
  funext o
  cases p.reported .readProject o <;> rfl

/-- **To replace it by one with an id in it is one call**, and the list that
is sent is the set. -/
theorem calls_store (h : ids.Nodup) (hne : ids ≠ []) :
    (store p (some ids)).calls = .ask (p.writing ⟨ids, h⟩) fun o =>
      .done ((p.reported .updateProject o).map ofMembership) := by
  have hfilters : toFilters (some ids) = some (ids.map FilterRef.mk) := by
    simp [toFilters, Option.filter, hne]
  have hwritten : Membership.ofFilters (some (ids.map FilterRef.mk)) = ⟨ids, h⟩ := by
    simp only [Membership.ofFilters, Option.getD_some, List.map_map]
    exact (congrArg Membership.ofIds (List.map_id ids)).trans (Membership.ofIds_ids ⟨ids, h⟩)
  simp only [store, hfilters, hwritten, Attempt.calls_bind, ProjectKey.calls_storeMembership,
    Dialogue.ask_bind, Dialogue.done_bind]
  congr 1
  funext o
  cases p.reported .updateProject o <;> rfl

/-- **Without an id in it there is nothing to replace.** -/
theorem store_eq_fetch {declared : Option (List String)} (h : declared.getD [] = []) :
    store p declared = fetch p := by
  obtain rfl | rfl : declared = none ∨ declared = some [] := by
    cases declared with
    | none => exact .inl rfl
    | some ids => exact .inr (congrArg some h)
  · rfl
  · rfl

end InlineFilters

end TrafficGate
