import TrafficGate.Proofs.Association.Interleaved
/-!
# Updates that are lost, and who is told

A settling is lost when it ended well and the list does not have its entry
as it was wanted. Of operations that name different filters one is lost
only if it wrote, and its write landed between the two calls of another
(`overtakes_of_lost`); of two operations, whenever that happens
(`lost_of_overtakes`).

Nobody is told. A server that stores what is written and reports what it
stores reports what was written, and that is all the warning looks at
(`no_warning`). So an update is lost in silence exactly when one operation
overtakes the other.
-/

namespace TrafficGate

open Dialogue (After Gives Interleaves Passes share)

namespace Settling

section Family

variable {κ : Type} [DecidableEq κ] {p : ProjectKey} {s : κ → Settling} {t : Schedule κ}
  {l l' : Lists} {i j : κ}
  {left : κ → CallM (Except ResourceError (Transition × Diagnostics))}

/-! ## What is said -/

/-- **Nobody is warned**, however many operations there are and in
whatever order they make their calls. -/
theorem no_warning (h : Interleaves (attempts p s) t left)
    (hpasses : Passes Lists.MayRefuse l t.calls l') {v : Transition × Diagnostics}
    (hv : left i = .done (.ok v)) : v.2 = [] := by
  have hi := h i
  rw [hv] at hi
  rcases gives_attempt.1 hi with ⟨o, -, hstage⟩ | ⟨o, target, o', hlog, -, hresult⟩
  · rw [(afterReading_eq_ok hstage).1]
  obtain ⟨m, hm, rfl⟩ := afterWriting_eq_ok hresult.symm
  have hmem : (i, ⟨p.writing target, o'⟩) ∈ t := Dialogue.mem_share.1 (by simp [hlog])
  obtain ⟨t₁, t₂, rfl⟩ := List.append_of_mem hmem
  rw [Schedule.calls_append, Dialogue.passes_append] at hpasses
  obtain ⟨l₁, -, hafter⟩ := hpasses
  obtain ⟨l₂, hwrite, -⟩ := Dialogue.passes_cons.1 hafter
  rcases hwrite.of_writing with ⟨-, -, hreported⟩ | ⟨-, -, hreported⟩
  · obtain rfl : target = m := Except.ok.inj (hreported.symm.trans hm)
    exact remarks_self p target
  · exact absurd hm (hreported m)

/-! ## What is lost -/

/-- A write of this one landed. -/
def Wrote (t : Schedule κ) (i : κ) : Prop := ∃ e, (i, e) ∈ t ∧ Lists.landed e = true

omit [DecidableEq κ] in
/-- What was written stays written. -/
theorem Wrote.append {t₁ t₂ : Schedule κ} (h : Wrote t₁ i) : Wrote (t₁ ++ t₂) i := by
  obtain ⟨e, hmem, he⟩ := h
  exact ⟨e, List.mem_append_left _ hmem, he⟩

/-- Whoever had no part in a schedule has not written. -/
theorem not_wrote_of_share (h : share i t = []) : ¬ Wrote t i := by
  rintro ⟨e, hmem, -⟩
  rw [Dialogue.share_eq_nil_iff] at h
  exact h (List.mem_map.2 ⟨_, hmem, rfl⟩)

/-- **Others leave an entry as it was at first**, since what they write is
what they read. -/
theorem reflected_of_not_wrote (hne : ∀ j, j ≠ i → (s i).filterId ≠ (s j).filterId)
    (h : Interleaves (attempts p s) t left) (hpasses : Passes Lists.MayRefuse l t.calls l')
    (hi : ¬ Wrote t i) : (s i).Reflected (l'.ids p) ↔ (s i).Reflected (l.ids p) := by
  -- the last writer read the list after fewer steps
  induction hn : t.length using Nat.strongRecOn generalizing t l' left with
  | ind n ih =>
    rcases t.last_write with hquiet | ⟨t₁, j, e, t₂, rfl, he, hlast⟩
    · rw [lists_of_quiet hpasses hquiet]
    obtain ⟨t₀, o, rest, l₀, rfl, -, hstart, rfl⟩ := lists_of_last_write h hpasses he hlast
    have hj : j ≠ i := by
      rintro rfl
      exact hi ⟨e, by simp, he⟩
    rw [List.append_assoc] at h hi
    obtain ⟨mid, hmid⟩ := h.of_append
    rw [Lists.ids_update, reflected_edit_of_ne (hne j hj), reflected_members]
    exact ih t₀.length (by simp [← hn]) hmid hstart (fun hw => hi hw.append) rfl

/-- Who wrote found the entry otherwise, and so it was otherwise at first. -/
theorem not_reflected_of_wrote (hne : ∀ j, j ≠ i → (s i).filterId ≠ (s j).filterId)
    (h : Interleaves (attempts p s) t left) (hpasses : Passes Lists.MayRefuse l t.calls l')
    (hi : Wrote t i) : ¬ (s i).Reflected (l.ids p) := by
  obtain ⟨e, hmem, he⟩ := hi
  obtain ⟨t₁, t₂, rfl⟩ := List.append_of_mem hmem
  obtain ⟨t₀, o, rest, target, o', rfl, rfl, hdue, h₀, -⟩ := read_of_landed h he
  rw [List.append_assoc] at h hpasses
  obtain ⟨mid, hmid⟩ := h.of_append
  obtain ⟨l₀, hstart, -, hsnapshot⟩ := snapshot_of_read hpasses
  obtain ⟨m, hm, htarget⟩ := afterReading_eq_due hdue
  obtain rfl := hsnapshot m hm
  rw [← reflected_of_not_wrote hne hmid hstart (not_wrote_of_share h₀), ← reflected_members]
  exact not_reflected_of_target? htarget

/-- Who ended well and did not write finds the entry as it was wanted. -/
theorem reflected_of_idle (hne : ∀ j, j ≠ i → (s i).filterId ≠ (s j).filterId)
    (h : Interleaves (attempts p s) t left) (hpasses : Passes Lists.MayRefuse l t.calls l')
    {v : Transition × Diagnostics} (hv : left i = .done (.ok v)) (hi : ¬ Wrote t i) :
    (s i).Reflected (l'.ids p) := by
  rw [reflected_of_not_wrote hne h hpasses hi]
  have hlog := h i
  rw [hv] at hlog
  rcases gives_attempt.1 hlog with ⟨o, hshare, hstage⟩ | ⟨o, target, o', hshare, -, hresult⟩
  · obtain ⟨t₀, rest, rfl, h₀, -⟩ := Dialogue.exists_of_share_eq_singleton hshare
    obtain ⟨mid, hmid⟩ := h.of_append
    obtain ⟨l₀, hstart, -, hsnapshot⟩ := snapshot_of_read hpasses
    obtain ⟨-, m, hm, hreflected⟩ := afterReading_eq_ok hstage
    obtain rfl := hsnapshot m hm
    rw [← reflected_of_not_wrote hne hmid hstart (not_wrote_of_share h₀)]
    exact reflected_members.1 hreflected
  · obtain ⟨m, hm, -⟩ := afterWriting_eq_ok hresult.symm
    have hmem : (i, ⟨p.writing target, o'⟩) ∈ t := Dialogue.mem_share.1 (by simp [hshare])
    exact absurd ⟨_, hmem, Lists.carries_of_reported hm⟩ hi

/-- **A write is lost only to somebody it overtook.** -/
theorem overtakes_of_lost (hne : ∀ j, j ≠ i → (s i).filterId ≠ (s j).filterId)
    (h : Interleaves (attempts p s) t left) (hpasses : Passes Lists.MayRefuse l t.calls l')
    (hi : Wrote t i) (hlost : ¬ (s i).Reflected (l'.ids p)) :
    ∃ j, j ≠ i ∧ t.Overtakes i j := by
  induction hn : t.length using Nat.strongRecOn generalizing t l' left with
  | ind n ih =>
    rcases t.last_write with hquiet | ⟨t₁, j, e, t₂, rfl, he, hlast⟩
    · obtain ⟨e, hmem, he⟩ := hi
      rw [hquiet _ hmem] at he
      cases he
    obtain ⟨t₀, o, rest, l₀, rfl, -, hstart, rfl⟩ := lists_of_last_write h hpasses he hlast
    rw [Lists.ids_update] at hlost
    -- what it wrote itself would not be lost
    have hj : j ≠ i := by
      rintro rfl
      exact hlost (reflected_edit _ _)
    rw [reflected_edit_of_ne (hne j hj), reflected_members] at hlost
    rw [List.append_assoc] at h ⊢
    obtain ⟨mid, hmid⟩ := h.of_append
    obtain ⟨e', hmem, he'⟩ := hi
    rw [List.append_assoc] at hmem
    rcases List.mem_append.1 hmem with hearly | hlate
    · -- it was lost already when the last writer read
      obtain ⟨k, hk, hover⟩ :=
        ih t₀.length (by simp [← hn]) hmid hstart ⟨e', hearly, he'⟩ hlost rfl
      exact ⟨k, hk, hover.append _⟩
    · -- it wrote after that read, so between the calls of the last writer
      have hrest : (i, e') ∈ rest := by
        rcases List.mem_append.1 hlate with hread | hafter
        · rcases List.mem_cons.1 hread with heq | hrest
          · exact absurd (Prod.mk.inj heq).1.symm hj
          · exact hrest
        · rcases List.mem_cons.1 hafter with heq | hquiet
          · exact absurd (Prod.mk.inj heq).1.symm hj
          · rw [hlast _ hquiet] at he'
            cases he'
      refine ⟨j, hj, ⟨p.reading, o⟩, e', e, ?_, he', he⟩
      have hbetween : List.Sublist [(j, ⟨p.reading, o⟩), (i, e')]
          ((j, (⟨p.reading, o⟩ : AnsweredCall)) :: rest) :=
        (List.singleton_sublist.2 hrest).cons_cons _
      have hthree := hbetween.append
        (List.singleton_sublist.2 (List.mem_cons_self (a := (j, e)) (l := t₂)))
      exact hthree.trans (List.sublist_append_right _ _)

end Family

/-! ## Two operations -/

section Pair

variable {p : ProjectKey} {s : Bool → Settling} {t : Schedule Bool} {l l' : Lists} {i : Bool}
  {left : Bool → CallM (Except ResourceError (Transition × Diagnostics))}

/-- What is found in two parts of a list starts in the first, or is found
in the second. -/
theorem mem_or_sublist_of_append {α : Type} {x : α} {xs t₁ t₂ : List α}
    (h : List.Sublist (x :: xs) (t₁ ++ t₂)) : x ∈ t₁ ∨ List.Sublist (x :: xs) t₂ := by
  obtain ⟨a, b, hab, ha, hb⟩ := List.sublist_append_iff.1 h
  obtain _ | ⟨y, a⟩ := a
  · exact .inr (hab ▸ hb)
  · obtain ⟨rfl, -⟩ := List.cons.inj hab
    exact .inl (ha.subset (List.mem_cons_self ..))

/-- **Of two, who overtakes the other is lost.** -/
theorem lost_of_overtakes (hne : ∀ j, j ≠ i → (s i).filterId ≠ (s j).filterId)
    (h : Interleaves (attempts p s) t left) (hpasses : Passes Lists.MayRefuse l t.calls l')
    (hover : t.Overtakes i (!i)) : ¬ (s i).Reflected (l'.ids p) := by
  obtain ⟨e₁, e, e₂, hsub, he, he₂⟩ := hover
  have hwrote : Wrote t i := ⟨e, hsub.subset (by simp), he⟩
  rcases t.last_write with hquiet | ⟨t₁, k, e', t₂, rfl, he', hlast⟩
  · rw [hquiet _ (hsub.subset (by simp) : (!i, e₂) ∈ t)] at he₂
    cases he₂
  -- the other wrote after this one, and nobody wrote after the last writer
  have hk : k = !i := by
    by_contra hk
    obtain rfl : k = i := by simpa using hk
    obtain ⟨t₀, o, rest, target, o', rfl, rfl, -, h₀, hrest, -⟩ := read_of_landed h he'
    rcases mem_or_sublist_of_append ((List.sublist_cons_self _ _).trans hsub) with hmem | hafter
    · rw [← Dialogue.mem_share, Dialogue.share_append, Dialogue.share_cons_self, h₀, hrest,
        List.nil_append, List.mem_singleton] at hmem
      rw [hmem] at he
      cases he
    · have hmem : (!k, e₂) ∈ t₂ := hafter.tail.subset (List.mem_cons_self ..)
      rw [hlast _ hmem] at he₂
      cases he₂
  obtain rfl := hk
  have hinit := not_reflected_of_wrote hne h hpasses hwrote
  obtain ⟨t₀, o, rest, l₀, rfl, h₀, hstart, rfl⟩ := lists_of_last_write h hpasses he' hlast
  rw [List.append_assoc] at h hsub
  obtain ⟨mid, hmid⟩ := h.of_append
  -- an attempt writes once, and this one did so after the other had read
  have hfirst : ¬ Wrote t₀ i := by
    rintro ⟨e₀, hmem, he₀⟩
    have hlater : (i, e) ∈ (!i, ⟨p.reading, o⟩) :: rest ++ (!i, e') :: t₂ := by
      rcases mem_or_sublist_of_append hsub with hearly | hlater
      · rw [← Dialogue.mem_share, h₀] at hearly
        cases hearly
      · exact hlater.subset (by simp)
    obtain ⟨a, b, rfl⟩ := List.append_of_mem hmem
    rw [List.append_assoc, List.cons_append] at h
    obtain ⟨-, -, -, -, -, -, -, -, -, -, hnone⟩ := read_of_landed h he₀
    rw [Dialogue.share_append, List.append_eq_nil_iff] at hnone
    rw [← Dialogue.mem_share, hnone.2] at hlater
    cases hlater
  rw [Lists.ids_update, reflected_edit_of_ne (hne _ (by simp)), reflected_members,
    reflected_of_not_wrote hne hmid hstart hfirst]
  exact hinit

/-- **One of two operations that ended well is lost** exactly if it overtakes
the other. -/
theorem lost_iff_overtakes (hne : ∀ j, j ≠ i → (s i).filterId ≠ (s j).filterId)
    (h : Interleaves (attempts p s) t left) (hpasses : Passes Lists.MayRefuse l t.calls l')
    {v : Transition × Diagnostics} (hv : left i = .done (.ok v)) :
    ¬ (s i).Reflected (l'.ids p) ↔ t.Overtakes i (!i) := by
  constructor
  · intro hlost
    have hwrote : Wrote t i := by
      by_contra hidle
      exact hlost (reflected_of_idle hne h hpasses hv hidle)
    obtain ⟨j, hj, hover⟩ := overtakes_of_lost hne h hpasses hwrote hlost
    obtain rfl : j = !i := Bool.eq_not.2 hj
    exact hover
  · exact lost_of_overtakes hne h hpasses

end Pair

end Settling

/-! ## Two operations of the resource -/

namespace AssociationResource

section Pair

variable {configured : Bool → Bool} {before : Bool → Option Association}
  {op : Bool → Operation Association} {p : ProjectKey} {s : Bool → Settling}
  {t : Schedule Bool} {l l' : Lists} {left : Bool → CallM (Outcome Association)}
  {out : Bool → Outcome Association}

/-- **A lost update is never told, and there is one exactly where one
operation overtakes the other.** Two creates or deletes of different filters
on one project, both over without an error: neither has anything to say; one
of them is lost if and only if its write landed between the two calls of the
other; and so a lost update comes with a warning in those runs only in which
there is none. -/
theorem lost_iff_overtaken (hs : ∀ i, (op i).settling? (before i) = some (p, s i))
    (hne : (s false).filterId ≠ (s true).filterId)
    (h : Interleaves (operations configured before op) t left)
    (hpasses : Passes Lists.MayRefuse l t.calls l') (hout : ∀ i, left i = .done (out i))
    (hok : ∀ i, (out i).diagnostics.hasError = false) :
    (∀ i, (out i).diagnostics = []) ∧
    (∀ i, ¬ (s i).Reflected (l'.ids p) ↔ t.Overtakes i (!i)) ∧
    (((∃ i, ¬ (s i).Reflected (l'.ids p)) → ∃ i, ∃ d ∈ (out i).diagnostics,
        d.severity = .warning ∧ d.summary = "Concurrent traffic filter modification") ↔
      ∀ i, ¬ t.Overtakes i (!i)) := by
  have hsettlings := fun i => settling_of_operation (hs i) (h i)
  choose mid hmid hcompleted hbind using hsettlings
  have hdone : ∀ i, completed (left i) = true := by
    intro i
    simp [hout i, completed, hok i]
  have hsucceeded : ∀ i, ∃ v, mid i = .done (.ok v) := fun i =>
    Dialogue.exists_of_succeeded ((hcompleted i).symm.trans (hdone i))
  choose v hv using hsucceeded
  have hsilent : ∀ i, (out i).diagnostics = [] := by
    intro i
    have hleft := (hbind i (hdone i)).2
    rw [hout i, hv i] at hleft
    rw [Dialogue.done.inj hleft]
    exact Settling.no_warning hmid hpasses (hv i)
  have hdistinct : ∀ i j, j ≠ i → (s i).filterId ≠ (s j).filterId := by
    intro i j hj
    cases i <;> cases j <;> simp_all [Ne.symm hne]
  have hlost : ∀ i, ¬ (s i).Reflected (l'.ids p) ↔ t.Overtakes i (!i) := fun i =>
    Settling.lost_iff_overtakes (hdistinct i) hmid hpasses (hv i)
  refine ⟨hsilent, hlost, ?_⟩
  constructor
  · intro htold i hover
    obtain ⟨j, d, hd, -⟩ := htold ⟨i, (hlost i).2 hover⟩
    rw [hsilent j] at hd
    cases hd
  · rintro hno ⟨i, hi⟩
    exact absurd ((hlost i).1 hi) (hno i)

end Pair

/-! ### Two creates that both read first

Each reads the empty list, and the second one to write sends a list without
the filter of the first. -/

namespace Overtaken

def project : ProjectKey := ⟨.elasticsearch, "p"⟩

def plan (filterId : String) : Association :=
  { projectId := "p", projectType := "elasticsearch", filterId := filterId }

/-- Two creates, each of another filter. -/
def op : Bool → Operation Association
  | false => .create (plan "a")
  | true => .create (plan "b")

def settling : Bool → Settling
  | false => ⟨.present, "a"⟩
  | true => ⟨.present, "b"⟩

def only (filterId : String) : Membership := ⟨[filterId], by simp⟩

/-- At first there are no lists. -/
def lists : Lists := fun _ => none

/-- Both reads come before both writes. -/
def schedule : Schedule Bool :=
  [(false, ⟨project.reading, Lists.report none⟩),
    (true, ⟨project.reading, Lists.report none⟩),
    (false, ⟨project.writing (only "a"), Lists.report (some ["a"])⟩),
    (true, ⟨project.writing (only "b"), Lists.report (some ["b"])⟩)]

/-- Both operations end well, and warn of nothing. -/
def outcome : Bool → Outcome Association
  | false => ⟨some (plan "a").withId, []⟩
  | true => ⟨some (plan "b").withId, []⟩

/-- The list in the end: the filter of the first is not in it. -/
def result : Lists := (lists.put project (only "a")).put project (only "b")

theorem interleaves : Interleaves (operations (fun _ => true) (fun _ => none) op) schedule
    fun i => .done (outcome i) := by
  intro i
  cases i with
  | false => exact .cons (.cons .nil)
  | true => exact .cons (.cons .nil)

/-- The server does as it is told. -/
theorem passes : Passes Lists.Serves lists schedule.calls result :=
  .cons (Lists.serves_answer project.reading lists)
    (.cons (Lists.serves_answer project.reading lists)
      (.cons (Lists.serves_answer (project.writing (only "a")) lists)
        (.cons (Lists.serves_answer (project.writing (only "b")) _) .nil)))

theorem entries (i : Bool) : (op i).settling? none = some (project, settling i) := by
  cases i <;> decide

end Overtaken

/-- **An update may be lost and nobody told**, against a server that serves
every call. -/
theorem lost_update_untold :
    (∀ i, (Overtaken.op i).settling? none = some (Overtaken.project, Overtaken.settling i)) ∧
    Interleaves (operations (fun _ => true) (fun _ => none) Overtaken.op) Overtaken.schedule
      (fun i => .done (Overtaken.outcome i)) ∧
    Passes Lists.Serves Overtaken.lists Overtaken.schedule.calls Overtaken.result ∧
    (∀ i, (Overtaken.outcome i).diagnostics.hasError = false) ∧
    ¬ ((∃ i, ¬ (Overtaken.settling i).Reflected (Overtaken.result.ids Overtaken.project)) →
      ∃ i, ∃ d ∈ (Overtaken.outcome i).diagnostics,
        d.severity = .warning ∧ d.summary = "Concurrent traffic filter modification") := by
  refine ⟨Overtaken.entries, Overtaken.interleaves, Overtaken.passes, by decide, ?_⟩
  intro htold
  have hlost : ¬ (Overtaken.settling false).Reflected (Overtaken.result.ids Overtaken.project) := by
    simp [Overtaken.settling, Overtaken.result, Settling.Reflected, Overtaken.only]
  obtain ⟨i, d, hd, -⟩ := htold ⟨false, hlost⟩
  cases i <;> cases hd

/-- The create of the first filter overtakes that of the second. -/
theorem lost_iff_overtaken_both_read :
    Interleaves (operations (fun _ => true) (fun _ => none) Overtaken.op) Overtaken.schedule
      (fun i => .done (Overtaken.outcome i)) ∧
    Passes Lists.MayRefuse Overtaken.lists Overtaken.schedule.calls Overtaken.result ∧
    Overtaken.schedule.Overtakes false true := by
  have hpasses : Passes Lists.MayRefuse Overtaken.lists Overtaken.schedule.calls
      Overtaken.result :=
    Overtaken.passes.mono fun _ _ _ h => .inl h
  obtain ⟨-, hlost, -⟩ := lost_iff_overtaken Overtaken.entries (by decide) Overtaken.interleaves
    hpasses (fun _ => rfl) (by decide)
  refine ⟨Overtaken.interleaves, hpasses, (hlost false).1 ?_⟩
  simp [Overtaken.settling, Overtaken.result, Settling.Reflected, Overtaken.only]

end AssociationResource

end TrafficGate
