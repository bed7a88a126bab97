import TrafficGate.Proofs.Json.Canonical
import Mathlib.Data.String.Basic
/-!
# Values in the order of their keys

A value that is held in memory has the members of its objects in rising
order of their keys, each key once (`rising_orderMembers`). To bring it in
order again changes nothing (`ordered_ordered`), and what stands under a key
stays there (`get?_ordered`).
-/

namespace TrafficGate

namespace Json

variable {key : String} {x : Json} {members : List (String × Json)}

/-- Members in rising order of their keys. -/
abbrev RisingKeys (members : List (String × Json)) : Prop :=
  members.Pairwise fun m n => m.1 < n.1

/-- A member that was put in is new or was there before. -/
theorem mem_insertMember {m : String × Json} (h : m ∈ insertMember key x members) :
    m = (key, x) ∨ m ∈ members := by
  induction members with
  | nil => exact .inl (List.mem_singleton.1 h)
  | cons n rest ih =>
    obtain ⟨k, v⟩ := n
    unfold insertMember at h
    split at h
    · exact List.mem_cons.1 h
    split at h
    · rcases List.mem_cons.1 h with heq | hrest
      · exact .inl heq
      · exact .inr (List.mem_cons_of_mem _ hrest)
    · rcases List.mem_cons.1 h with rfl | hrest
      · exact .inr List.mem_cons_self
      · exact (ih hrest).imp_right (List.mem_cons_of_mem _)

/-- Every member that comes out went in. -/
theorem mem_of_mem_orderMembers {m : String × Json} (h : m ∈ orderMembers members) :
    m ∈ members := by
  -- what has been put in already is as good as what is still to come
  have hfold : ∀ acc, m ∈ members.foldl (fun acc m => insertMember m.1 m.2 acc) acc →
      m ∈ acc ∨ m ∈ members := by
    clear h
    induction members with
    | nil => exact fun _ h => .inl h
    | cons n rest ih =>
      intro acc h
      rcases ih _ h with hinsert | hrest
      · rcases mem_insertMember hinsert with rfl | hacc
        · exact .inr List.mem_cons_self
        · exact .inl hacc
      · exact .inr (List.mem_cons_of_mem _ hrest)
  exact (hfold [] h).resolve_left List.not_mem_nil

/-- Members in the order of their keys stay so if one is put in. -/
theorem risingKeys_insertMember (h : RisingKeys members) :
    RisingKeys (insertMember key x members) := by
  induction members with
  | nil => exact List.pairwise_singleton _ _
  | cons n rest ih =>
    obtain ⟨k, v⟩ := n
    obtain ⟨hk, hrest⟩ := List.pairwise_cons.1 h
    unfold insertMember
    split
    case isTrue hlt =>
      exact List.pairwise_cons.2 ⟨List.forall_mem_cons.2 ⟨hlt, fun m hm => hlt.trans (hk m hm)⟩, h⟩
    split
    case isTrue heq => exact List.pairwise_cons.2 ⟨fun m hm => heq ▸ hk m hm, hrest⟩
    case isFalse hnlt hne =>
      refine List.pairwise_cons.2 ⟨fun m hm => ?_, ih hrest⟩
      rcases mem_insertMember hm with rfl | hm
      · exact lt_of_le_of_ne (not_lt.1 hnlt) (Ne.symm hne)
      · exact hk m hm

/-- **Members come out in rising order.** -/
theorem risingKeys_orderMembers (members : List (String × Json)) :
    RisingKeys (orderMembers members) := by
  have hfold : ∀ acc, RisingKeys acc →
      RisingKeys (members.foldl (fun acc m => insertMember m.1 m.2 acc) acc) := by
    induction members with
    | nil => exact fun _ h => h
    | cons m members ih => exact fun _ h => ih _ (risingKeys_insertMember h)
  exact hfold [] .nil

/-- A member with the greatest key goes to the end. -/
theorem insertMember_of_forall_lt (h : ∀ m ∈ members, m.1 < key) :
    insertMember key x members = members ++ [(key, x)] := by
  induction members with
  | nil => rfl
  | cons m rest ih =>
    obtain ⟨hm, hrest⟩ := List.forall_mem_cons.1 h
    have hnlt : ¬ key < m.1 := lt_asymm hm
    have hne : key ≠ m.1 := (ne_of_lt hm).symm
    simp only [insertMember, hnlt, hne, if_false, ih hrest, List.cons_append]

/-- **What is in order stays as it is.** -/
theorem orderMembers_of_risingKeys (h : RisingKeys members) : orderMembers members = members := by
  -- each member is greater than all that stand there, so it goes to the end
  have hfold : ∀ acc, RisingKeys (acc ++ members) →
      members.foldl (fun acc m => insertMember m.1 m.2 acc) acc = acc ++ members := by
    clear h
    induction members with
    | nil => exact fun acc _ => (List.append_nil acc).symm
    | cons m rest ih =>
      intro acc h
      have hlast : ∀ n ∈ acc, n.1 < m.1 := fun n hn =>
        (List.pairwise_append.1 h).2.2 n hn m List.mem_cons_self
      have hsplit : acc ++ m :: rest = (acc ++ [m]) ++ rest := by simp
      rw [List.foldl_cons, insertMember_of_forall_lt hlast, hsplit]
      exact ih _ (hsplit ▸ h)
  exact hfold [] h

mutual

/-- **A value is brought in order once.** -/
theorem ordered_ordered : ∀ x : Json, x.ordered.ordered = x.ordered
  | .null => rfl
  | .flag _ => rfl
  | .number _ => rfl
  | .text _ => rfl
  | .list items => congrArg Json.list (orderedItems_orderedItems items)
  | .object members => by
    have hmembers := orderedMembers_orderedMembers members
    simp only [ordered, orderedMembers_eq] at hmembers ⊢
    rw [← orderMembers_map, hmembers, orderMembers_of_risingKeys (risingKeys_orderMembers _)]

theorem orderedItems_orderedItems : ∀ items : List Json,
    orderedItems (orderedItems items) = orderedItems items
  | [] => rfl
  | x :: rest => congrArg₂ List.cons (ordered_ordered x) (orderedItems_orderedItems rest)

theorem orderedMembers_orderedMembers : ∀ members : List (String × Json),
    orderedMembers (orderedMembers members) = orderedMembers members
  | [] => rfl
  | (k, x) :: rest =>
    congrArg₂ (fun y ys => (k, y) :: ys) (ordered_ordered x) (orderedMembers_orderedMembers rest)

end

/-! ## What is found in an ordered value -/

/-- An ordered object has its members in order, and each of them ordered. -/
theorem ordered_object (members : List (String × Json)) :
    (object members).ordered = object ((orderMembers members).map orderedMember) := by
  simp only [ordered, orderedMembers_eq, orderMembers_map]

/-- A key is found in ordered members if it is found before, with its value
ordered. -/
theorem lookup?_map_orderedMember (key : String) (members : List (String × Json)) :
    lookup? key (members.map orderedMember) = (lookup? key members).map ordered := by
  induction members with
  | nil => rfl
  | cons m rest ih =>
    obtain ⟨k, v⟩ := m
    rw [List.map_cons, orderedMember, lookup?_cons, lookup?_cons, ih]
    split
    · rfl
    · rfl

/-- **What stands under a key stays there.** -/
theorem get?_ordered (h : (members.map Prod.fst).Nodup) (key : String) :
    (object members).ordered.get? key = (lookup? key members).map ordered := by
  have hperm := orderMembers_perm h
  have hlookup : lookup? key (orderMembers members) = lookup? key members :=
    lookup?_perm hperm ((hperm.map Prod.fst).nodup_iff.2 h) key
  rw [ordered_object, ← hlookup]
  exact lookup?_map_orderedMember key (orderMembers members)

/-- No number comes in by it. -/
theorem NumberFree.ordered {x : Json} (h : NumberFree x) : NumberFree x.ordered := by
  induction h with
  | null => exact .null
  | flag b => exact .flag b
  | text s => exact .text s
  | list hitems ih =>
    rw [Json.ordered, orderedItems_eq]
    exact .list (List.forall_mem_map.2 ih)
  | object hmembers ih =>
    rw [ordered_object]
    exact .object (List.forall_mem_map.2 fun m hm => ih m (mem_of_mem_orderMembers hm))

end Json

end TrafficGate
