import Mathlib.Data.List.Nodup
import TrafficGate.CommandLine.Parse
import TrafficGate.Proofs.Text.Split
/-!
# Reading the words of a level

An option with its value attached to it is one word, and its value is taken
as it stands, whatever it looks like (`walk_attached`). So a list of such
words is read option by option. All of them count if they are options of
the level and none of them is given twice (`walk_options`); one that was
given before is a conflict (`walk_conflict`). What is needed in the end is a
value for each name (`finish_of_complete`, `finish_of_missing`).
-/

namespace TrafficGate

namespace CommandLine

/-- Names with the values given for them, in order. -/
abbrev Given := List (String × String)

theorem toList_attached (o : String × String) :
    (attached o).toList = '-' :: '-' :: (o.1.toList ++ '=' :: o.2.toList) := by
  simp [attached]

namespace Progress

variable {p : Progress} {o : Opt} {name value : String}

/-- Nothing is pending, and options can still be given. -/
structure Ready (p : Progress) : Prop where
  pending : p.pending = .nothing
  trailing : p.trailing = false

theorem ready_of_values (values : Given) : Ready { values := values } := ⟨rfl, rfl⟩

theorem settle_of_nothing (h : p.pending = .nothing) : p.settle = .ok p := by
  rw [settle, h]

theorem Ready.isWaiting (h : p.Ready) : p.isWaiting = false := by
  rw [Progress.isWaiting, h.pending]

/-- Whether there is a value for a name. -/
theorem any_values_iff :
    p.values.any (·.1 == name) = true ↔ name ∈ p.values.map Prod.fst := by
  simp only [List.any_eq_true, beq_iff_eq, List.mem_map]

/-- **An option counts the first time**, but a path must not be empty. -/
theorem take_of_not_mem (hnew : o.name ∉ p.values.map Prod.fst)
    (hpath : o.isPath = true → value ≠ "") :
    p.take o value = .ok { p with values := p.values ++ [(o.name, value)] } := by
  have hempty : ¬ (o.isPath && value.isEmpty) = true := by
    simpa [String.isEmpty_iff] using hpath
  rw [take, if_neg (any_values_iff.not.2 hnew), if_neg hempty]

/-- **It does not count again**, whatever its value. -/
theorem take_of_mem (h : o.name ∈ p.values.map Prod.fst) :
    p.take o value = .error .argumentConflict := by
  rw [take, if_pos (any_values_iff.2 h)]

end Progress

namespace Level

variable {l : Level} {p : Progress} {o : String × String} {opt : Opt} {given : Given}
  {name value : String} {rest : List String}

/-! ## Options -/

/-- The option of a name. -/
def option? (l : Level) (name : String) : Option Opt := l.options.find? (·.name == name)

theorem name_of_option? (h : l.option? name = some opt) : opt.name = name := by
  unfold option? at h
  have hname := List.find?_some h
  exact eq_of_beq hname

/-- The names of a level hold no sign that could be taken for a part of the
command line. -/
structure Plain (l : Level) : Prop where
  options : ∀ opt ∈ l.options, '=' ∉ opt.name.toList
  subcommands : ∀ s ∈ l.subcommands, '-' ∉ s.toList

theorem Plain.not_mem_of_option? (h : l.Plain) (hopt : l.option? name = some opt) :
    '=' ∉ name.toList :=
  name_of_option? hopt ▸ h.options opt (List.mem_of_find?_eq_some hopt)

/-- An option is no subcommand. -/
theorem Plain.isSubcommand_attached (h : l.Plain) (o : String × String) :
    l.isSubcommand (attached o) = false := by
  have hdash : '-' ∈ (attached o).toList := by simp [toList_attached]
  have hcontains : l.subcommands.contains (attached o) = false := by
    rw [List.contains_eq_mem]
    exact decide_eq_false fun hmem => h.subcommands _ hmem hdash
  have hhelp : attached o ≠ helpName := by
    intro heq
    rw [heq] at hdash
    exact absurd hdash (by decide)
  rw [isSubcommand, hcontains, decide_eq_false hhelp, Bool.and_false, Bool.or_self]

/-- An option that is given with its value is taken with just that value. -/
theorem step_attached (hl : l.Plain) (hp : p.Ready) (hopt : l.option? o.1 = some opt) :
    l.step p (attached o) = p.take opt o.2 := by
  have huncut : ∀ c ∈ o.1.toList, decide (c = '=') = false := fun c hc =>
    decide_eq_false fun heq => hl.not_mem_of_option? hopt (heq ▸ hc)
  -- behind the two dashes there is a sign of equality at least
  obtain ⟨c, cs, hcs⟩ : ∃ c cs, o.1.toList ++ '=' :: o.2.toList = c :: cs :=
    List.exists_cons_of_ne_nil (by simp)
  have hlong : l.step p (attached o) = l.takeLong p (c :: cs) := by
    rw [step, hp.trailing, toList_attached, hcs]
    rfl
  unfold option? at hopt
  rw [hlong, takeLong, ← hcs, Text.cutFirst_append huncut (decide_eq_true rfl)]
  simp only [String.ofList_toList, Option.map_some, hopt]
  rw [takeOption, Progress.settle_of_nothing hp.pending]
  rfl

/-- **One option more.** -/
theorem walk_attached {q : Progress} (hl : l.Plain) (hp : p.Ready)
    (hopt : l.option? o.1 = some opt) (hq : p.take opt o.2 = .ok q) (rest : List String) :
    l.walk p (attached o :: rest) = l.walk q rest := by
  simp only [walk, hl.isSubcommand_attached, Bool.and_false, Bool.false_eq_true, if_false,
    step_attached hl hp hopt, hq]

/-- An option of the level, with a value that it can have. -/
def Accepts (l : Level) (o : String × String) : Prop :=
  ∃ opt, l.option? o.1 = some opt ∧ (opt.isPath = true → o.2 ≠ "")

/-- **All options count**, in the order in which they are given, as long as
none is given twice. -/
theorem walk_options (hl : l.Plain) (hp : p.Ready) (haccepts : ∀ o ∈ given, l.Accepts o)
    (hnodup : ((p.values ++ given).map Prod.fst).Nodup) (rest : List String) :
    l.walk p (given.map attached ++ rest) =
      l.walk { p with values := p.values ++ given } rest := by
  induction given generalizing p with
  | nil => rw [List.append_nil]; rfl
  | cons o given ih =>
    obtain ⟨name, value⟩ := o
    obtain ⟨⟨opt, hopt, hpath⟩, hrest⟩ := List.forall_mem_cons.1 haccepts
    obtain rfl : opt.name = name := name_of_option? hopt
    rw [List.append_cons] at hnodup ⊢
    have hnew : opt.name ∉ p.values.map Prod.fst := by
      rw [List.map_append, List.map_append, List.append_assoc] at hnodup
      exact fun hmem => List.disjoint_of_nodup_append hnodup hmem (by simp)
    have hq : Progress.Ready { p with values := p.values ++ [(opt.name, value)] } :=
      ⟨hp.pending, hp.trailing⟩
    rw [List.map_cons, List.cons_append,
      walk_attached hl hp hopt (Progress.take_of_not_mem hnew hpath)]
    exact ih hq hrest hnodup

/-- **An option that was given before is a conflict**, whatever follows. -/
theorem walk_conflict (hl : l.Plain) (hp : p.Ready) (hopt : l.option? name = some opt)
    (hmem : name ∈ p.values.map Prod.fst) (value : String) (rest : List String) :
    l.walk p (attached (name, value) :: rest) = .error .argumentConflict := by
  have hstep : l.step p (attached (name, value)) = .error .argumentConflict := by
    rw [step_attached hl hp hopt]
    exact Progress.take_of_mem (name_of_option? hopt ▸ hmem)
  simp only [walk, hl.isSubcommand_attached, Bool.and_false, Bool.false_eq_true, if_false, hstep]

/-! ## Other words -/

/-- The name of a subcommand ends the level. -/
theorem walk_subcommand (hp : p.Ready) (h : l.isSubcommand name = true) (rest : List String) :
    l.walk p (name :: rest) = .ok { progress := p, subcommand := some (name, rest) } := by
  simp [walk, hp.trailing, hp.isWaiting, h]

/-- What follows two dashes is the positional argument, whatever it looks
like. -/
theorem walk_positional (hl : l.subcommands = []) (hp : p.Ready) (hname : l.positional = some name)
    (hnew : name ∉ p.values.map Prod.fst) (value : String) :
    l.walk p ["--", value] =
      .ok { progress := { p with values := p.values ++ [(name, value)], trailing := true } } := by
  have hplain : ∀ word, l.isSubcommand word = false := fun word => by simp [isSubcommand, hl]
  have hdashes : l.step p "--" = .ok { p with trailing := true } := by simp [step, hp.trailing]
  have hsettle : Progress.settle { p with trailing := true } = .ok { p with trailing := true } :=
    Progress.settle_of_nothing hp.pending
  have hvalue : l.step { p with trailing := true } value =
      .ok { p with values := p.values ++ [(name, value)], trailing := true } := by
    simp only [step, takeWord, if_true, hname]
    rw [if_neg (Progress.any_values_iff.not.2 hnew), hsettle]
    rfl
  simp only [walk, hplain, Bool.and_false, Bool.false_eq_true, if_false, hdashes, hvalue]

/-! ## The end of a level -/

/-- What a level needs values for. -/
def names (l : Level) : List String := l.options.map Opt.name ++ l.positional.toList

variable {e : LevelEnd}

theorem complete_iff {values : Given} :
    (l.options.map Opt.name ++ l.positional.toList).all
        (fun name => values.any (·.1 == name)) = true ↔
      ∀ name ∈ l.names, name ∈ values.map Prod.fst := by
  simp only [List.all_eq_true, List.any_eq_true, beq_iff_eq, List.mem_map, names]

/-- A level that asks for no subcommand, or has got one. -/
def Settled (l : Level) (e : LevelEnd) : Prop :=
  e.progress.pending = .nothing ∧ (l.subcommands = [] ∨ e.subcommand.isSome = true)

theorem finish_of_settled (h : l.Settled e) :
    l.finish e =
      if (l.options.map Opt.name ++ l.positional.toList).all
        (fun name => e.progress.values.any (·.1 == name)) then .ok e.progress.values
      else .error .missingRequired := by
  obtain ⟨hpending, hsub⟩ := h
  have hcond : (e.subcommand.isNone && !l.subcommands.isEmpty) = false := by
    rcases hsub with hsub | hsub
    · simp [hsub]
    · simp [Option.isNone_eq_false_iff.2 hsub]
  rw [finish, Progress.settle_of_nothing hpending]
  simp [bind, Except.bind, hcond]

/-- **There is a value for every name.** -/
theorem finish_of_complete (h : l.Settled e)
    (hcomplete : ∀ name ∈ l.names, name ∈ e.progress.values.map Prod.fst) :
    l.finish e = .ok e.progress.values := by
  rw [finish_of_settled h, if_pos (complete_iff.2 hcomplete)]

/-- **A name has no value.** -/
theorem finish_of_missing (h : l.Settled e) (hname : name ∈ l.names)
    (hmissing : name ∉ e.progress.values.map Prod.fst) :
    l.finish e = .error .missingRequired := by
  rw [finish_of_settled h, if_neg (complete_iff.not.2 fun h => hmissing (h name hname))]

end Level

end CommandLine

end TrafficGate
