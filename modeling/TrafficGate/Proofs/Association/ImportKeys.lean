import TrafficGate.Association.ImportKey
import TrafficGate.Proofs.Text.Split
/-!
# Keys and their parts

A text with two commas has three parts, and it has them in one way only
(`Parts.unique`). It is a key if none of them is empty and the one in the
middle names a kind. So reading undoes writing, no other text is read, and
each refusal has a cause of its own (`read_exactly`).
-/

namespace TrafficGate

namespace ProjectKind

variable {name : String} {kind : ProjectKind}

/-- **A kind goes by its name alone.** -/
theorem ofName?_eq_some_iff : ofName? name = some kind ↔ name = kind.name := by
  constructor
  · intro h
    unfold ofName? at h
    have hname := List.find?_some h
    exact (eq_of_beq hname).symm
  · rintro rfl
    exact ofName?_name kind

end ProjectKind

namespace ImportKey

variable {s projectId kindName filterId : String} {kind : ProjectKind}

/-! ## Parts -/

/-- A text that can be a part of a key. -/
structure IsPart (s : String) : Prop where
  ne_empty : s ≠ ""
  no_comma : ',' ∉ s.toList

theorem isPart_name (kind : ProjectKind) : IsPart kind.name := by
  cases kind <;> exact ⟨by decide, by decide⟩

theorem IsPart.isEmpty (h : IsPart s) : s.toList.isEmpty = false := by
  rw [List.isEmpty_eq_false_iff]
  exact fun hnil => h.ne_empty (String.toList_eq_nil_iff.1 hnil)

/-- Three texts without a comma that make up a text with two. They may be
empty. -/
structure Parts (s projectId kindName filterId : String) : Prop where
  text : s = projectId ++ "," ++ kindName ++ "," ++ filterId
  project : ',' ∉ projectId.toList
  kind : ',' ∉ kindName.toList
  filter : ',' ∉ filterId.toList

theorem uncut_iff {cs : List Char} :
    (∀ c ∈ cs, decide (c = ',') = false) ↔ ',' ∉ cs := by
  simp only [decide_eq_false_iff_not]
  exact ⟨fun h hc => h _ hc rfl, fun h c hc heq => h (heq ▸ hc)⟩

theorem Parts.split (h : Parts s projectId kindName filterId) :
    Text.split (· = ',') s.toList = [projectId.toList, kindName.toList, filterId.toList] := by
  have hchars : s.toList =
      projectId.toList ++ ',' :: (kindName.toList ++ ',' :: filterId.toList) := by
    rw [h.text]
    simp
  rw [hchars, Text.split_append (uncut_iff.2 h.project) (decide_eq_true rfl),
    Text.split_append (uncut_iff.2 h.kind) (decide_eq_true rfl),
    Text.split_of_uncut (uncut_iff.2 h.filter)]

/-- **A text has its parts in one way.** -/
theorem Parts.unique {projectId' kindName' filterId' : String}
    (h : Parts s projectId kindName filterId) (h' : Parts s projectId' kindName' filterId') :
    projectId = projectId' ∧ kindName = kindName' ∧ filterId = filterId' := by
  have hpieces := h.split.symm.trans h'.split
  simpa only [List.cons.injEq, String.toList_inj, and_true] using hpieces

/-- There is one piece more than there are commas. -/
theorem length_pieces (s : String) :
    (Text.split (· = ',') s.toList).length = s.toList.count ',' + 1 := by
  rw [Text.length_split, List.count]
  simp only [beq_eq_decide]

/-- A text with two commas has parts. -/
theorem exists_parts (h : s.toList.count ',' = 2) : ∃ p k f, Parts s p k f := by
  have hlength : (Text.split (· = ',') s.toList).length = 3 := by rw [length_pieces, h]
  obtain ⟨p, k, f, hsplit⟩ := List.length_eq_three.1 hlength
  have huncut : ∀ q ∈ [p, k, f], ',' ∉ q := fun q hq =>
    uncut_iff.1 (Text.uncut_of_mem_split (hsplit ▸ hq))
  have hchars : s.toList = p ++ ',' :: (k ++ ',' :: f) := by
    rw [← Text.intercalate_split ',' s.toList, hsplit]
    simp [List.intercalate_cons_cons]
  refine ⟨.ofList p, .ofList k, .ofList f, ?_, ?_, ?_, ?_⟩
  · rw [← String.toList_inj, hchars]
    simp
  all_goals simpa using huncut _ (by simp)

/-! ## What is read -/

/-- A text that is written for a key. -/
def Writes (s : String) (k : ImportKey) : Prop :=
  s = k.text ∧ IsPart k.projectId ∧ IsPart k.filterId

/-- A text that has not three parts, or an empty one among them. -/
def Malformed (s : String) : Prop :=
  s.toList.count ',' ≠ 2 ∨ ∃ p k f, Parts s p k f ∧ (p = "" ∨ k = "" ∨ f = "")

/-- A text of three parts, the middle one of which is not the name of a
kind. -/
def WritesUnknown (s given : String) : Prop :=
  (∃ p f, s = p ++ "," ++ given ++ "," ++ f ∧ IsPart p ∧ IsPart f) ∧ IsPart given ∧
    ∀ kind : ProjectKind, given ≠ kind.name

/-- What becomes of three parts. -/
theorem Parts.ofString (h : Parts s projectId kindName filterId) :
    ImportKey.ofString s =
      if projectId.toList.isEmpty || kindName.toList.isEmpty || filterId.toList.isEmpty then
        .error (.format s)
      else
        match ProjectKind.ofName? kindName with
        | some kind => .ok ⟨projectId, kind, filterId⟩
        | none => .error (.unknownKind kindName) := by
  cases hname : ProjectKind.ofName? kindName with
  | some kind => simp [ImportKey.ofString, h.split, hname]
  | none => simp [ImportKey.ofString, h.split, hname]

/-- **Three parts are told apart again.** Only the one in the middle can
still be wrong. -/
theorem ofString_joined (hproject : IsPart projectId) (hkind : IsPart kindName)
    (hfilter : IsPart filterId) :
    ofString (projectId ++ "," ++ kindName ++ "," ++ filterId) =
      match ProjectKind.ofName? kindName with
      | some kind => .ok ⟨projectId, kind, filterId⟩
      | none => .error (.unknownKind kindName) := by
  have hparts : Parts (projectId ++ "," ++ kindName ++ "," ++ filterId) projectId kindName
      filterId := ⟨rfl, hproject.no_comma, hkind.no_comma, hfilter.no_comma⟩
  simp only [hparts.ofString, hproject.isEmpty, hkind.isEmpty, hfilter.isEmpty, Bool.or_false,
    Bool.false_eq_true, if_false]

/-- So a key is read from its text. -/
theorem ofString_text (hproject : IsPart projectId) (hfilter : IsPart filterId) :
    ofString (projectId ++ "," ++ kind.name ++ "," ++ filterId) =
      .ok ⟨projectId, kind, filterId⟩ := by
  rw [ofString_joined hproject (isPart_name kind) hfilter, ProjectKind.ofName?_name]

theorem Writes.ofString {k : ImportKey} (h : Writes s k) : ofString s = .ok k := by
  obtain ⟨rfl, hproject, hfilter⟩ := h
  exact ofString_text hproject hfilter

theorem WritesUnknown.ofString {given : String} (h : WritesUnknown s given) :
    ofString s = .error (.unknownKind given) := by
  obtain ⟨⟨p, f, rfl, hproject, hfilter⟩, hgiven, hunknown⟩ := h
  have hnone : ProjectKind.ofName? given = none :=
    Option.eq_none_iff_forall_ne_some.2 fun kind hkind =>
      hunknown kind (ProjectKind.ofName?_eq_some_iff.1 hkind)
  rw [ofString_joined hproject hgiven hfilter, hnone]

theorem Malformed.ofString (h : Malformed s) : ofString s = .error (.format s) := by
  rcases h with hcount | ⟨p, k, f, hparts, hempty⟩
  · unfold ImportKey.ofString
    split
    · next hsplit =>
      -- three pieces would make two commas
      have hlength : s.toList.count ',' + 1 = 3 := by rw [← length_pieces, hsplit]; rfl
      exact absurd (Nat.succ.inj hlength) hcount
    · rfl
  · have hnil : (p.toList.isEmpty || k.toList.isEmpty || f.toList.isEmpty) = true := by
      rcases hempty with rfl | rfl | rfl <;> simp
    rw [hparts.ofString, if_pos hnil]

/-- **Every text is one of the three.** -/
theorem writes_or_malformed (s : String) :
    (∃ k, Writes s k) ∨ Malformed s ∨ ∃ given, WritesUnknown s given := by
  by_cases hcount : s.toList.count ',' = 2
  · obtain ⟨p, k, f, hparts⟩ := exists_parts hcount
    by_cases hempty : p = "" ∨ k = "" ∨ f = ""
    · exact .inr (.inl (.inr ⟨p, k, f, hparts, hempty⟩))
    simp only [not_or] at hempty
    obtain ⟨hp, hk, hf⟩ := hempty
    have hproject : IsPart p := ⟨hp, hparts.project⟩
    have hfilter : IsPart f := ⟨hf, hparts.filter⟩
    by_cases hknown : ∃ kind : ProjectKind, k = kind.name
    · obtain ⟨kind, rfl⟩ := hknown
      exact .inl ⟨⟨p, kind, f⟩, hparts.text, hproject, hfilter⟩
    · exact .inr (.inr ⟨k, ⟨p, f, hparts.text, hproject, hfilter⟩, ⟨hk, hparts.kind⟩,
        not_exists.1 hknown⟩)
  · exact .inr (.inl (.inl hcount))

/-- A text that is read as a key is written for it. -/
theorem writes_of_ofString {k : ImportKey} (h : ofString s = .ok k) : Writes s k := by
  rcases writes_or_malformed s with ⟨k', hs⟩ | hs | ⟨given, hs⟩
  · obtain rfl : k' = k := Except.ok.inj (hs.ofString.symm.trans h)
    exact hs
  · exact nomatch hs.ofString.symm.trans h
  · exact nomatch hs.ofString.symm.trans h

/-- A fault quotes the text it is about, and has its own cause. -/
theorem cause_of_ofString {fault : Fault} (h : ofString s = .error fault) :
    (fault = .format s ∧ Malformed s) ∨ ∃ given, fault = .unknownKind given ∧
      WritesUnknown s given := by
  rcases writes_or_malformed s with ⟨k, hs⟩ | hs | ⟨given, hs⟩
  · exact nomatch hs.ofString.symm.trans h
  · exact .inl ⟨Except.error.inj (h.symm.trans hs.ofString), hs⟩
  · exact .inr ⟨given, Except.error.inj (h.symm.trans hs.ofString), hs⟩

/-- **Exactly the texts of keys are read, and each refusal has its cause.**
A text is read as a key just if it is written for that key, and no text is
written for two. It is refused for its format, and named in full, just if it
has not three parts or an empty one among them. It is refused for its kind
just if it has three parts that are not empty and the middle one, which is
named as it stands, is not the very name of a kind. -/
theorem read_exactly (s : String) :
    (∀ k : ImportKey, ofString s = .ok k ↔ Writes s k) ∧
    ((∃ k, ofString s = .ok k) ↔ ∃! k, Writes s k) ∧
    (∀ text, ofString s = .error (.format text) ↔ text = s ∧ Malformed s) ∧
    (∀ given, ofString s = .error (.unknownKind given) ↔ WritesUnknown s given) := by
  refine ⟨fun k => ⟨writes_of_ofString, Writes.ofString⟩, ⟨?_, ?_⟩, fun text => ⟨?_, ?_⟩,
    fun given => ⟨?_, WritesUnknown.ofString⟩⟩
  · rintro ⟨k, h⟩
    have hunique : ∀ k', Writes s k' → k' = k := fun k' hk' =>
      Except.ok.inj (hk'.ofString.symm.trans h)
    exact ⟨k, writes_of_ofString h, hunique⟩
  · rintro ⟨k, hk, -⟩
    exact ⟨k, hk.ofString⟩
  · intro h
    rcases cause_of_ofString h with ⟨hfault, hs⟩ | ⟨given, hfault, -⟩
    · exact ⟨Fault.format.inj hfault, hs⟩
    · exact nomatch hfault
  · rintro ⟨rfl, hs⟩
    exact hs.ofString
  · intro h
    rcases cause_of_ofString h with ⟨hfault, -⟩ | ⟨given', hfault, hs⟩
    · exact nomatch hfault
    · exact Fault.unknownKind.inj hfault ▸ hs

/-- Blanks and capitals make another name. -/
example : ofString "p, security,f" = .error (.unknownKind " security") ∧
    ofString "p,Security,f" = .error (.unknownKind "Security") := by
  decide

end ImportKey

end TrafficGate
