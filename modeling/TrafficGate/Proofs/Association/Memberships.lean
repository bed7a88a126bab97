import TrafficGate.Proofs.Association.Remarks
import Mathlib.Data.List.Sort
/-!
# Memberships as sets with an order

Read from a list, a membership has the ids of the list in the order in which
they first stand there, and no other list of ids has them so
(`FirstNamed.unique`). An id is added behind the others, and where one is
removed the others close up; so to remove an id that was just added leaves
the membership as it was, its order included.

Changes to different ids do not hinder each other. Whichever comes first,
the same ids are in the end in the membership (`mem_settledAll`), and only
those that were added can stand in another order (`bind_target?_comm`).
-/

namespace TrafficGate

/-! ## The order of a list -/

/-- Ids in the order in which a list names them: they are those of the list,
and one stands before another if the list names it earlier. -/
structure FirstNamed (listed ids : List String) : Prop where
  same : SameIds ids listed
  order : ids.Pairwise fun a b => listed.idxOf a < listed.idxOf b

namespace FirstNamed

variable {listed ids ids' : List String}

/-- In the order of first mention no id stands twice. -/
theorem nodup (h : FirstNamed listed ids) : ids.Nodup := by
  refine h.order.imp ?_
  rintro a b hlt rfl
  omega

/-- **There is one such list of ids.** -/
theorem unique (h : FirstNamed listed ids) (h' : FirstNamed listed ids') : ids = ids' := by
  have : Std.Irrefl fun a b => listed.idxOf a < listed.idxOf b := ⟨fun _ => Nat.lt_irrefl _⟩
  have : Std.Antisymm fun a b => listed.idxOf a < listed.idxOf b :=
    ⟨fun _ _ hab hba => absurd hba (Nat.lt_asymm hab)⟩
  exact h.order.eq_of_mem_iff h'.order fun id => (h.same id).trans (h'.same id).symm

end FirstNamed

namespace Membership

variable {m n : Membership} {f : String}

/-- A list that is read keeps its ids in the order of first mention. -/
theorem firstNamed_firsts (listed : List String) : FirstNamed listed (firsts listed) where
  same _ := mem_firsts
  order := by
    induction listed with
    | nil => exact .nil
    | cons x rest ih =>
      -- ids other than the first one are all found one place later
      have hlater : ∀ a ∈ (firsts rest).filter (· ≠ x),
          (x :: rest).idxOf a = rest.idxOf a + 1 := by
        intro a ha
        have hne : a ≠ x := by simpa using (List.mem_filter.1 ha).2
        exact List.idxOf_cons_ne rest hne.symm
      refine List.pairwise_cons.2 ⟨?_, ?_⟩
      · intro b hb
        have hx : (x :: rest).idxOf x = 0 := List.idxOf_cons_self
        have hb' := hlater b hb
        omega
      · refine (ih.filter _).imp_of_mem ?_
        intro a b ha hb hab
        have ha' := hlater a ha
        have hb' := hlater b hb
        omega

/-- **What is read from a list has the order of the list.** -/
theorem ids_ofFilters_iff {filters : Option (List FilterRef)} {ids : List String} :
    (ofFilters filters).ids = ids ↔ FirstNamed ((filters.getD []).map FilterRef.id) ids := by
  constructor
  · rintro rfl
    exact firstNamed_firsts _
  · exact (firstNamed_firsts _).unique

/-- What is written of a membership is read as it. -/
theorem ofFilters_toFilters (m : Membership) : ofFilters (some m.toFilters) = m := by
  rw [ofFilters, Option.getD_some, map_id_toFilters, ofIds_ids]

/-- Memberships with the same ids in the same order are the same. -/
theorem eq_of_ids (h : m.ids = n.ids) : m = n := by
  obtain ⟨ids, _⟩ := m
  obtain ⟨ids', _⟩ := n
  obtain rfl : ids = ids' := h
  rfl

end Membership

/-! ## One change -/

namespace Settling

variable {s t : Settling} {m n : Membership} {x : String} {ids : List String}

/-- **What is to be written**: nothing if the entry is right, and else the ids
with the one entry changed. -/
theorem target?_eq_some_iff :
    s.target? m = some n ↔ ¬ s.Reflected m.ids ∧ n.ids = s.edit m.ids := by
  constructor
  · intro h
    exact ⟨not_reflected_of_target? h, ids_of_target? h⟩
  · rintro ⟨hwrong, hids⟩
    cases htarget : s.target? m with
    | none => exact absurd (target?_eq_none_iff.1 htarget) hwrong
    | some target => rw [Membership.eq_of_ids (hids.trans (ids_of_target? htarget).symm)]

/-- A change decides on its own id, and on no other. -/
theorem mem_edit : x ∈ s.edit ids ↔ if x = s.filterId then s.aim = .present else x ∈ ids := by
  split
  case isTrue h =>
    subst h
    obtain ⟨_ | _, f⟩ := s
    · simp [edit]
    · simp [edit]
  case isFalse h => exact mem_edit_of_ne s ids h

end Settling

namespace Membership

variable {m n : Membership} {f : String} {before behind : List String}

/-- There is nothing to be added if the id is there. -/
theorem add?_eq_none_iff : m.add? f = none ↔ f ∈ m.ids :=
  Settling.target?_eq_none_iff (s := ⟨.present, f⟩)

/-- An id is added behind the others. -/
theorem add?_eq_some_iff : m.add? f = some n ↔ f ∉ m.ids ∧ n.ids = m.ids ++ [f] :=
  Settling.target?_eq_some_iff (s := ⟨.present, f⟩)

/-- There is nothing to be taken off if the id is not there. -/
theorem remove?_eq_none_iff : m.remove? f = none ↔ f ∉ m.ids :=
  Settling.target?_eq_none_iff (s := ⟨.absent, f⟩)

/-- An id that stands once is left out by closing its gap. -/
theorem filter_ne_of_nodup (h : (before ++ f :: behind).Nodup) :
    (before ++ f :: behind).filter (· ≠ f) = before ++ behind := by
  have hbefore : f ∉ before := by
    intro hf
    exact (List.nodup_append.1 h).2.2 f hf f List.mem_cons_self rfl
  calc (before ++ f :: behind).filter (· ≠ f)
      = (before ++ f :: behind).erase f := by
        rw [h.erase_eq_filter]
        exact List.filter_congr fun x _ => by rw [decide_not, bne, beq_eq_decide]
    _ = before ++ (f :: behind).erase f := List.erase_append_right _ hbefore
    _ = before ++ behind := by rw [List.erase_cons_head]

/-- **An id is removed by closing its gap.** -/
theorem remove?_eq_some_iff :
    m.remove? f = some n ↔
      ∃ before behind, m.ids = before ++ f :: behind ∧ n.ids = before ++ behind := by
  have hedit : m.remove? f = some n ↔ ¬ f ∉ m.ids ∧ n.ids = m.ids.filter (· ≠ f) :=
    Settling.target?_eq_some_iff (s := ⟨.absent, f⟩)
  rw [hedit]
  constructor
  · rintro ⟨hf, hn⟩
    obtain ⟨before, behind, hm⟩ := List.append_of_mem (not_not.1 hf)
    exact ⟨before, behind, hm, by rw [hn, hm, filter_ne_of_nodup (hm ▸ m.nodup)]⟩
  · rintro ⟨before, behind, hm, hn⟩
    have hf : f ∈ m.ids := by
      rw [hm]
      exact List.mem_append_right before List.mem_cons_self
    exact ⟨not_not.2 hf, by rw [hn, hm, filter_ne_of_nodup (hm ▸ m.nodup)]⟩

/-- **To remove what was just added** is to have added nothing. -/
theorem remove?_of_add? (h : m.add? f = some n) : n.remove? f = some m :=
  remove?_eq_some_iff.2 ⟨m.ids, [], (add?_eq_some_iff.1 h).2, (List.append_nil m.ids).symm⟩

end Membership

/-! ## Two changes to different ids -/

namespace Settling

variable {s t : Settling} {m n : Membership} {ids : List String}

/-- They do not meet. -/
theorem sameIds_edit_comm (h : s.filterId ≠ t.filterId) (ids : List String) :
    SameIds (t.edit (s.edit ids)) (s.edit (t.edit ids)) := by
  intro x
  rw [mem_edit, mem_edit, mem_edit, mem_edit]
  by_cases hs : x = s.filterId
  · have ht : x ≠ t.filterId := fun ht => h (hs.symm.trans ht)
    rw [if_neg ht, if_pos hs, if_pos hs]
  · rw [if_neg hs, if_neg hs]

/-- They even leave one order, if one of them is no addition. -/
theorem edit_comm (h : s.filterId ≠ t.filterId) (ht : t.aim = .absent) (ids : List String) :
    t.edit (s.edit ids) = s.edit (t.edit ids) := by
  obtain ⟨_, g⟩ := t
  obtain rfl := ht
  obtain ⟨_ | _, f⟩ := s
  · have hfg : f ≠ g := h
    simp [edit, hfg]
  · exact List.filter_comm _ _ ids

/-- There are two changes to make unless one of the entries is right from the
start, and that does not depend on their order. -/
theorem bind_target?_eq_none_iff (h : s.filterId ≠ t.filterId) :
    (s.target? m).bind t.target? = none ↔ s.Reflected m.ids ∨ t.Reflected m.ids := by
  cases hk : s.target? m with
  | none => exact iff_of_true rfl (.inl (target?_eq_none_iff.1 hk))
  | some k =>
    rw [Option.bind_some, target?_eq_none_iff, ids_of_target? hk, reflected_edit_of_ne h.symm]
    exact (or_iff_right (not_reflected_of_target? hk)).symm

/-- After two changes the ids are those that both have edited. -/
theorem ids_of_bind_target? (h : (s.target? m).bind t.target? = some n) :
    n.ids = t.edit (s.edit m.ids) := by
  obtain ⟨k, hk, hn⟩ := Option.bind_eq_some_iff.1 h
  rw [ids_of_target? hn, ids_of_target? hk]

/-- What relates the two edited lists relates the two memberships. -/
theorem rel_bind_target? {r : List String → List String → Prop} (h : s.filterId ≠ t.filterId)
    (hr : r (t.edit (s.edit m.ids)) (s.edit (t.edit m.ids))) :
    Option.Rel (fun n n' => r n.ids n'.ids)
      ((s.target? m).bind t.target?) ((t.target? m).bind s.target?) := by
  cases hst : (s.target? m).bind t.target? with
  | none =>
    have hright := (bind_target?_eq_none_iff h).1 hst
    rw [(bind_target?_eq_none_iff h.symm).2 hright.symm]
    exact .none
  | some n =>
    cases hts : (t.target? m).bind s.target? with
    | none =>
      have hright := (bind_target?_eq_none_iff h.symm).1 hts
      rw [(bind_target?_eq_none_iff h).2 hright.symm] at hst
      cases hst
    | some n' =>
      refine .some ?_
      rw [ids_of_bind_target? hst, ids_of_bind_target? hts]
      exact hr

/-- **In either order they come to the same ids**, or not at all. -/
theorem bind_target?_agrees (h : s.filterId ≠ t.filterId) (m : Membership) :
    Option.Rel (fun n n' => n.agrees n' = true)
      ((s.target? m).bind t.target?) ((t.target? m).bind s.target?) := by
  simp only [Membership.agrees_iff]
  exact rel_bind_target? h (sameIds_edit_comm h m.ids)

/-- **And to one membership**, if one of them is no addition. -/
theorem bind_target?_comm (h : s.filterId ≠ t.filterId) (ht : t.aim = .absent) (m : Membership) :
    (s.target? m).bind t.target? = (t.target? m).bind s.target? := by
  have hrel := rel_bind_target? (r := Eq) h (edit_comm h ht m.ids)
  generalize (s.target? m).bind t.target? = st, (t.target? m).bind s.target? = ts at hrel ⊢
  cases hrel with
  | none => rfl
  | some hids => rw [Membership.eq_of_ids hids]

end Settling

/-! ## Any number of them -/

namespace Membership

open Settling (target?_eq_none_iff ids_of_target? mem_edit)

variable {m : Membership} {s : Settling} {ss ts : List Settling} {x : String}

/-- The membership with an entry settled. -/
def settled (m : Membership) (s : Settling) : Membership := (s.target? m).getD m

/-- The same with one entry after the other. -/
def settledAll (m : Membership) (ss : List Settling) : Membership := ss.foldl settled m

/-- It is what an attempt leaves that nobody interferes with. -/
theorem members_runWith (p : ProjectKey) (s : Settling) (l : Lists) :
    ((s.attempt p).calls.runWith Lists.answer l).2.members p = (l.members p).settled s := by
  rw [Settling.runWith_attempt, settled]
  cases s.target? (l.members p) with
  | none => rfl
  | some target => exact Lists.members_put

/-- **To settle an entry** changes it as it is wanted, and no other. -/
theorem mem_settled :
    x ∈ (m.settled s).ids ↔ if x = s.filterId then s.aim = .present else x ∈ m.ids := by
  cases htarget : s.target? m with
  | some n => rw [settled, htarget, Option.getD_some, ids_of_target? htarget, mem_edit]
  | none =>
    rw [settled, htarget, Option.getD_none]
    split
    case isTrue h =>
      subst h
      have hright := target?_eq_none_iff.1 htarget
      obtain ⟨_ | _, f⟩ := s
      · exact iff_of_true hright rfl
      · exact iff_of_false hright (by simp)
    case isFalse => rfl

/-- **Which ids there are in the end**, if no id is settled twice: those that
were to be there, and those that nobody asked about and were there before. -/
theorem mem_settledAll (h : (ss.map Settling.filterId).Nodup) :
    x ∈ (m.settledAll ss).ids ↔ ⟨.present, x⟩ ∈ ss ∨ x ∈ m.ids ∧ ⟨.absent, x⟩ ∉ ss := by
  induction ss generalizing m with
  | nil => simp [settledAll]
  | cons s rest ih =>
    obtain ⟨hs, hrest⟩ := List.nodup_cons.1 h
    rw [settledAll, List.foldl_cons, ← settledAll, ih hrest, mem_settled]
    by_cases hx : x = s.filterId
    · -- the rest says nothing of this id
      have hnone : ∀ aim, ⟨aim, x⟩ ∉ rest := fun aim hmem =>
        hs (hx ▸ List.mem_map_of_mem (f := Settling.filterId) hmem)
      obtain ⟨_ | _, f⟩ := s
      · obtain rfl : x = f := hx
        simp [hnone]
      · obtain rfl : x = f := hx
        simp [hnone]
    · have hne : ∀ aim, (⟨aim, x⟩ : Settling) ≠ s := fun aim heq => hx (heq ▸ rfl)
      simp [hx, hne]

/-- **It does not matter which comes first.** -/
theorem settledAll_agrees (h : (ss.map Settling.filterId).Nodup) (hperm : ss.Perm ts)
    (m : Membership) : (m.settledAll ss).agrees (m.settledAll ts) = true := by
  have h' : (ts.map Settling.filterId).Nodup := (hperm.map _).nodup_iff.1 h
  refine agrees_iff.2 fun x => ?_
  rw [mem_settledAll h, mem_settledAll h', hperm.mem_iff, hperm.mem_iff]

/-! ## The laws -/

/-- **A membership is a set that keeps the order in which its ids came.**
Read from a list, absent or with repetitions as it may be, it has no id twice
and has them in the order of the list; sent as a list and read back, it is what
it was. A new id is put behind the others, and an id that is there is taken
out from between them; the one undoes the other, and there is nothing to add
or to remove exactly where the id is there already, or is not. Changes to two
different ids, one after the other, are both to be made or not in either
order, and lead to the same set, in the same order too unless both ids are
added. Any number of changes to different ids, each of them left out if there
is nothing to change, leads to the same set in whatever order they come. -/
theorem insertion_ordered :
    (∀ filters : Option (List FilterRef), (ofFilters filters).ids.Nodup ∧
      ∀ ids, (ofFilters filters).ids = ids ↔
        FirstNamed ((filters.getD []).map FilterRef.id) ids) ∧
    (∀ m : Membership, ofFilters (some m.toFilters) = m) ∧
    (∀ (m : Membership) (f : String), (m.add? f = none ↔ f ∈ m.ids) ∧
      ∀ n, m.add? f = some n ↔ f ∉ m.ids ∧ n.ids = m.ids ++ [f]) ∧
    (∀ (m : Membership) (f : String), (m.remove? f = none ↔ f ∉ m.ids) ∧
      ∀ n, m.remove? f = some n ↔
        ∃ before behind, m.ids = before ++ f :: behind ∧ n.ids = before ++ behind) ∧
    (∀ (m : Membership) (f : String), f ∉ m.ids → (m.add? f).bind (·.remove? f) = some m) ∧
    (∀ (m : Membership) (s t : Settling), s.filterId ≠ t.filterId →
      Option.Rel (fun n n' => n.agrees n' = true)
        ((s.target? m).bind t.target?) ((t.target? m).bind s.target?) ∧
      (t.aim = .absent → (s.target? m).bind t.target? = (t.target? m).bind s.target?)) ∧
    (∀ (m : Membership) (ss ts : List Settling), (ss.map Settling.filterId).Nodup → ss.Perm ts →
      (m.settledAll ss).agrees (m.settledAll ts) = true) := by
  refine ⟨fun filters => ⟨?_, fun ids => ids_ofFilters_iff⟩, ofFilters_toFilters,
    fun m f => ⟨add?_eq_none_iff, fun n => add?_eq_some_iff⟩,
    fun m f => ⟨remove?_eq_none_iff, fun n => remove?_eq_some_iff⟩, ?_, ?_, ?_⟩
  · exact (ids_ofFilters_iff.1 rfl).nodup
  · intro m f hf
    cases hadd : m.add? f with
    | none => exact absurd (add?_eq_none_iff.1 hadd) hf
    | some n => exact remove?_of_add? hadd
  · intro m s t h
    exact ⟨Settling.bind_target?_agrees h m, fun ht => Settling.bind_target?_comm h ht m⟩
  · intro m ss ts h hperm
    exact settledAll_agrees h hperm m

/-! ### A list with repetitions

Two ids are added to it and one is removed, in two orders. -/

namespace Cluttered

def filters : List FilterRef := [⟨"b"⟩, ⟨"a"⟩, ⟨"b"⟩, ⟨"c"⟩, ⟨"a"⟩]

def shown : Membership := ofFilters (some filters)

def added : Settling := ⟨.present, "d"⟩

def removed : Settling := ⟨.absent, "a"⟩

def changes : List Settling := [added, removed, ⟨.present, "e"⟩]

def rearranged : List Settling := [⟨.present, "e"⟩, added, removed]

end Cluttered

/-- **A list with two ids twice** is changed three times, in two orders. The
ids are the same, and those that were added stand in the order of the
changes. -/
theorem insertion_ordered_cluttered :
    Cluttered.shown.ids = ["b", "a", "c"] ∧ "d" ∉ Cluttered.shown.ids ∧
    (Cluttered.shown.add? "d").bind (·.remove? "d") = some Cluttered.shown ∧
    (Cluttered.added.target? Cluttered.shown).bind Cluttered.removed.target? =
      (Cluttered.removed.target? Cluttered.shown).bind Cluttered.added.target? ∧
    (Cluttered.shown.settledAll Cluttered.changes).ids = ["b", "c", "d", "e"] ∧
    (Cluttered.shown.settledAll Cluttered.rearranged).ids = ["b", "c", "e", "d"] ∧
    (Cluttered.shown.settledAll Cluttered.changes).agrees
      (Cluttered.shown.settledAll Cluttered.rearranged) = true := by
  obtain ⟨-, -, -, -, hundone, htwo, hall⟩ := insertion_ordered
  have hnew : "d" ∉ Cluttered.shown.ids := by decide
  have hdifferent : Cluttered.added.filterId ≠ Cluttered.removed.filterId := by decide
  have hperm : Cluttered.changes.Perm Cluttered.rearranged := by decide
  refine ⟨by decide, hnew, hundone _ _ hnew, (htwo _ _ _ hdifferent).2 rfl, by decide, by decide,
    hall _ _ _ (by decide) hperm⟩

end Membership

end TrafficGate
