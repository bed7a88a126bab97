import TrafficGate.Proofs.CommandLine.Levels
/-!
# Command lines as they are written

Every command has a level of its own, and it gives values for just the names
of that level (`exists_level`). What is made of a level depends on which
value has which name, not on the order (`commandOf?_of_values`). So a line
that gives each option once is read as the command that it is written for,
one that gives an option again is a conflict, and one that leaves an option
out lacks a value (`parse_line`).
-/

namespace TrafficGate

namespace CommandLine

variable {c : Command} {w : Command.Words} {l : Level} {values given left : Given}
  {name value : String}

/-! ## The level of a command -/

/-- The level under the two names of a command. -/
def level? (w : Command.Words) : Option Level :=
  (groups.lookup w.group).bind fun g => g.lookup w.name

theorem mem_of_lookup {α : Type} {l : List (String × α)} {a : α} (h : l.lookup name = some a) :
    (name, a) ∈ l := by
  obtain ⟨l₁, l₂, rfl, -⟩ := List.lookup_eq_some_iff.1 h
  exact List.mem_append_right l₁ List.mem_cons_self

/-- How the levels of all commands are. -/
structure IsLeaf (l : Level) : Prop where
  plain : l.Plain
  subcommands : l.subcommands = []
  nodup : l.names.Nodup
  /-- One option is a path. -/
  path : ∀ opt ∈ l.options, opt.isPath = true → opt.name = "file"

theorem isLeaf_of_level? (h : level? w = some l) : IsLeaf l := by
  -- the table of levels is closed, so this is a computation
  have hall : ∀ g ∈ groups, ∀ entry ∈ g.2,
      (∀ opt ∈ entry.2.options, '=' ∉ opt.name.toList) ∧ entry.2.subcommands = [] ∧
      entry.2.names.Nodup ∧ ∀ opt ∈ entry.2.options, opt.isPath = true → opt.name = "file" := by
    decide
  obtain ⟨g, hg, hl⟩ := Option.bind_eq_some_iff.1 h
  obtain ⟨hoptions, hsub, hnodup, hpath⟩ := hall _ (mem_of_lookup hg) _ (mem_of_lookup hl)
  refine ⟨⟨hoptions, ?_⟩, hsub, hnodup, hpath⟩
  rw [hsub]
  exact nofun

/-- A level that asks for just what is written for a command. -/
structure Fits (l : Level) (w : Command.Words) : Prop where
  options : w.options.map Prod.fst = l.options.map Opt.name
  positional : w.positional.isSome = l.positional.isSome

/-- **Every command has its level.** -/
theorem exists_level (c : Command) : ∃ l, level? c.words = some l ∧ Fits l c.words := by
  rcases c with (_ | _ | _ | _ | _) | (_ | _ | _ | _) | _
  all_goals exact ⟨_, rfl, rfl, rfl⟩

/-- What is given for a path is a file that the command reads. -/
theorem mem_files (h : ("file", value) ∈ c.words.options) : value ∈ c.files := by
  rcases c with (_ | _ | _ | _ | _) | (_ | _ | _ | _) | _ <;>
    simp_all [Command.words, Command.associationWords, Command.files]

theorem exists_option (h : name ∈ l.options.map Opt.name) :
    ∃ opt ∈ l.options, l.option? name = some opt := by
  obtain ⟨opt, hmem, rfl⟩ := List.mem_map.1 h
  have hsome : (l.option? opt.name).isSome = true :=
    List.find?_isSome.2 ⟨opt, hmem, beq_self_eq_true _⟩
  obtain ⟨found, hfound⟩ := Option.isSome_iff_exists.1 hsome
  exact ⟨found, List.mem_of_find?_eq_some hfound, hfound⟩

/-- The options of a command are options of its level. -/
theorem Fits.accepts (hfits : Fits l c.words) (hl : IsLeaf l)
    (hpaths : ∀ path ∈ c.files, path ≠ "") : ∀ o ∈ c.words.options, l.Accepts o := by
  rintro ⟨name, value⟩ ho
  have hname : name ∈ l.options.map Opt.name :=
    hfits.options ▸ List.mem_map.2 ⟨(name, value), ho, rfl⟩
  obtain ⟨opt, hmem, hopt⟩ := exists_option hname
  refine ⟨opt, hopt, fun hpath => hpaths value (mem_files ?_)⟩
  have hfile : name = "file" := (Level.name_of_option? hopt).symm.trans (hl.path opt hmem hpath)
  exact hfile ▸ ho

/-! ## What is made of the values -/

/-- What is given for a level: the options, and the positional argument under
the name that it has there. -/
def valuesOn (l : Level) (w : Command.Words) : Given :=
  w.options ++ l.positional.toList.zip w.positional.toList

theorem Fits.names (h : Fits l w) : (valuesOn l w).map Prod.fst = l.names := by
  have hpositional : (l.positional.toList.zip w.positional.toList).map Prod.fst =
      l.positional.toList := by
    have hsame := h.positional
    cases hl : l.positional <;> cases hw : w.positional <;> simp_all
  rw [valuesOn, List.map_append, hpositional, h.options, Level.names]

/-- A value is found under its name, if no other has this name. -/
theorem valueOf_of_mem (hnodup : (values.map Prod.fst).Nodup) (h : (name, value) ∈ values) :
    valueOf values name = value := by
  induction values with
  | nil => cases h
  | cons o values ih =>
    obtain ⟨hnew, hnodup⟩ := List.nodup_cons.1 hnodup
    rcases List.mem_cons.1 h with rfl | hmem
    · simp [valueOf]
    · have hne : (name == o.1) = false :=
        beq_false_of_ne fun heq => hnew (heq ▸ List.mem_map_of_mem hmem)
      rw [← ih hnodup hmem, valueOf, valueOf, List.lookup_cons, hne]

/-- **The values make up the command**, in whatever order they were given. -/
theorem commandOf?_of_values (hlevel : level? c.words = some l)
    (hnodup : (values.map Prod.fst).Nodup) (hvalues : ∀ o ∈ valuesOn l c.words, o ∈ values) :
    commandOf? c.words.group c.words.name values = some c := by
  have hvalue : ∀ o ∈ valuesOn l c.words, valueOf values o.1 = o.2 := fun o ho =>
    valueOf_of_mem hnodup (hvalues o ho)
  rcases c with (_ | _ | _ | _ | _) | (_ | _ | _ | _) | _ <;>
  · obtain rfl := Option.some.inj hlevel
    simp only [valuesOn, Command.words, Command.associationWords, List.forall_mem_append,
      List.forall_mem_cons, Option.toList_some, List.zip_cons_cons] at hvalue
    simp [commandOf?, Command.words, hvalue]

/-! ## Reading the words of a command -/

/-- The words behind the options: the positional argument, if there is one,
behind two dashes. -/
def tail (w : Command.Words) : List String :=
  match w.positional with
  | some value => ["--", value]
  | none => []

/-- What has been given so far counts, and so does the positional argument. -/
theorem walk_given (hl : IsLeaf l) (hfits : Fits l w) (haccepts : ∀ o ∈ given, l.Accepts o)
    (hnodup : ((given ++ l.positional.toList.zip w.positional.toList).map Prod.fst).Nodup) :
    ∃ e : LevelEnd, l.walk {} (given.map attached ++ tail w) = .ok e ∧ l.Settled e ∧
      e.progress.values = given ++ l.positional.toList.zip w.positional.toList := by
  have hgiven : (given.map Prod.fst).Nodup := by
    rw [List.map_append] at hnodup
    exact hnodup.of_append_left
  rw [Level.walk_options hl.plain (Progress.ready_of_values []) haccepts hgiven]
  have hready : Progress.Ready { values := given } := Progress.ready_of_values given
  have hsame := hfits.positional
  cases hpositional : l.positional with
  | none =>
    have hw : w.positional = none := by simpa [hpositional] using hsame
    refine ⟨{ progress := { values := given } }, ?_, ⟨rfl, .inl hl.subcommands⟩, ?_⟩
    · simp [tail, hw, Level.walk]
    · simp
  | some n =>
    obtain ⟨value, hw⟩ : ∃ value, w.positional = some value := by
      simpa [hpositional, Option.isSome_iff_exists] using hsame
    have hnew : n ∉ given.map Prod.fst := by
      rw [hpositional, hw, List.map_append] at hnodup
      exact fun hmem => List.disjoint_of_nodup_append hnodup hmem (by simp)
    refine ⟨{ progress := { values := given ++ [(n, value)], trailing := true } }, ?_,
      ⟨rfl, .inl hl.subcommands⟩, ?_⟩
    · simp only [tail, hw]
      exact Level.walk_positional hl.subcommands hready hpositional hnew value
    · simp [hw]

section Read

variable (hlevel : level? c.words = some l) (hfits : Fits l c.words)
  (hpaths : ∀ path ∈ c.files, path ≠ "")

include hlevel hfits hpaths

/-- What has been read of a command when its words end. -/
theorem walk_of_perm (hperm : (given ++ left).Perm c.words.options) :
    ∃ e : LevelEnd, l.walk {} (given.map attached ++ tail c.words) = .ok e ∧ l.Settled e ∧
      (e.progress.values ++ left).Perm (valuesOn l c.words) := by
  have hl := isLeaf_of_level? hlevel
  have hall : (given ++ l.positional.toList.zip c.words.positional.toList ++ left).Perm
      (valuesOn l c.words) := by
    refine List.Perm.trans ?_ (hperm.append_right _)
    rw [List.append_assoc, List.append_assoc]
    exact List.perm_append_comm.append_left given
  have hnodup : ((given ++ l.positional.toList.zip c.words.positional.toList ++ left).map
      Prod.fst).Nodup := (hall.map Prod.fst).nodup_iff.2 (hfits.names ▸ hl.nodup)
  rw [List.map_append] at hnodup
  have haccepts : ∀ o ∈ given, l.Accepts o := fun o ho =>
    hfits.accepts hl hpaths o (hperm.subset (List.mem_append_left left ho))
  obtain ⟨e, hwalk, hsettled, hvalues⟩ := walk_given hl hfits haccepts hnodup.of_append_left
  exact ⟨e, hwalk, hsettled, hvalues ▸ hall⟩

/-- **Each option once, in any order.** -/
theorem parseCommand_of_perm (hperm : given.Perm c.words.options) :
    parseCommand c.words.group c.words.name l (given.map attached ++ tail c.words) = .ok c := by
  have hall : (given ++ []).Perm c.words.options := (List.append_nil given).symm ▸ hperm
  obtain ⟨e, hwalk, hsettled, hvalues⟩ := walk_of_perm hlevel hfits hpaths hall
  rw [List.append_nil] at hvalues
  have hnames : (e.progress.values.map Prod.fst).Perm l.names :=
    hfits.names ▸ hvalues.map Prod.fst
  have hfinish : l.finish e = .ok e.progress.values :=
    Level.finish_of_complete hsettled fun _ hname => hnames.mem_iff.2 hname
  have hcommand : commandOf? c.words.group c.words.name e.progress.values = some c :=
    commandOf?_of_values hlevel (hnames.nodup_iff.2 (isLeaf_of_level? hlevel).nodup)
      fun _ ho => hvalues.mem_iff.2 ho
  simp only [parseCommand, hwalk, hfinish, hcommand, bind, Except.bind]

/-- **An option that is left out is missing.** -/
theorem parseCommand_of_left (hperm : (given ++ left).Perm c.words.options) (hleft : left ≠ []) :
    parseCommand c.words.group c.words.name l (given.map attached ++ tail c.words) =
      .error .missingRequired := by
  obtain ⟨e, hwalk, hsettled, hvalues⟩ := walk_of_perm hlevel hfits hpaths hperm
  obtain ⟨o, left, rfl⟩ := List.exists_cons_of_ne_nil hleft
  have hnames : ((e.progress.values ++ o :: left).map Prod.fst).Perm l.names :=
    hfits.names ▸ hvalues.map Prod.fst
  have hname : o.1 ∈ l.names := hnames.mem_iff.1 (by simp)
  have hmissing : o.1 ∉ e.progress.values.map Prod.fst := by
    have hnodup := hnames.nodup_iff.2 (isLeaf_of_level? hlevel).nodup
    rw [List.map_append] at hnodup
    exact fun hmem => List.disjoint_of_nodup_append hnodup hmem (by simp)
  simp only [parseCommand, hwalk, Level.finish_of_missing hsettled hname hmissing, bind,
    Except.bind]

/-- **An option that is given again is a conflict**, whatever its value is
then. -/
theorem parseCommand_of_again {before between after : Given}
    (hperm : (before ++ (name, value) :: between ++ after).Perm c.words.options)
    (value' : String) :
    parseCommand c.words.group c.words.name l
      ((before ++ (name, value) :: between ++ (name, value') :: after).map attached ++
        tail c.words) = .error .argumentConflict := by
  have hl := isLeaf_of_level? hlevel
  have haccepts : ∀ o ∈ before ++ (name, value) :: between, l.Accepts o := fun o ho =>
    hfits.accepts hl hpaths o (hperm.subset (List.mem_append_left after ho))
  have hnodup : ((before ++ (name, value) :: between).map Prod.fst).Nodup := by
    have hall : ((before ++ (name, value) :: between ++ after).map Prod.fst).Nodup := by
      rw [(hperm.map Prod.fst).nodup_iff, hfits.options]
      exact hl.nodup.of_append_left
    rw [List.map_append] at hall
    exact hall.of_append_left
  obtain ⟨opt, hopt, -⟩ := haccepts (name, value) (by simp)
  have hmem : name ∈ (before ++ (name, value) :: between).map Prod.fst := by simp
  have hwalk : l.walk {} ((before ++ (name, value) :: between ++ (name, value') :: after).map
      attached ++ tail c.words) = .error .argumentConflict := by
    rw [List.map_append, List.append_assoc, List.map_cons, List.cons_append,
      Level.walk_options hl.plain (Progress.ready_of_values []) haccepts hnodup]
    exact Level.walk_conflict hl.plain (Progress.ready_of_values _) hopt hmem value' _
  simp only [parseCommand, hwalk, bind, Except.bind]

end Read

/-! ## Reading a line -/

/-- A command line: values for the option of the program, the two names of a
command, options of the command with their values, and its positional
argument. -/
def line (configs : List String) (w : Command.Words) (given : Given) : List String :=
  configs.map (fun path => attached ("config", path)) ++
    w.group :: w.name :: (given.map attached ++ tail w)

/-- The line that an invocation writes itself is one of them. -/
theorem toArgs_eq (i : Invocation) :
    i.toArgs = line [i.config] i.command.words i.command.words.options := rfl

theorem plain_programLevel : programLevel.Plain := ⟨by decide, by decide⟩

theorem option?_config : programLevel.option? "config" = some configOption := by decide

theorem isSubcommand_of_lookup {α : Type} {l : Level} {entries : List (String × α)} {a : α}
    (hl : l.subcommands = entries.map Prod.fst) (h : entries.lookup name = some a) :
    l.isSubcommand name = true := by
  have hmem : name ∈ l.subcommands := hl ▸ List.mem_map.2 ⟨_, mem_of_lookup h, rfl⟩
  rw [Level.isSubcommand, List.contains_iff_mem.2 hmem, Bool.true_or]

/-- A group reads the command of its next word. -/
theorem parseGroup_of_lookup {g : Group} {group : String} (h : g.lookup name = some l)
    (words : List String) :
    parseGroup group g (name :: words) = parseCommand group name l words := by
  have hwalk : (groupLevel g).walk {} (name :: words) =
      .ok { progress := {}, subcommand := some (name, words) } :=
    Level.walk_subcommand (Progress.ready_of_values []) (isSubcommand_of_lookup rfl h) words
  have hfinish : (groupLevel g).finish { progress := {}, subcommand := some (name, words) } =
      .ok [] :=
    Level.finish_of_complete ⟨rfl, .inr rfl⟩ (by simp [Level.names, groupLevel])
  simp only [parseGroup, hwalk, h, hfinish, bind, Except.bind]
  cases parseCommand group name l words with
  | ok c => rfl
  | error fault => rfl

/-- The options of the program, and the words of a command behind them. -/
theorem parse_of_options {values : Given} (hlevel : level? w = some l)
    (haccepts : ∀ o ∈ values, programLevel.Accepts o) (hnodup : (values.map Prod.fst).Nodup)
    (words : List String) :
    parse (values.map attached ++ w.group :: w.name :: words) =
      (parseCommand w.group w.name l words).bind fun command =>
        (programLevel.finish
          { progress := { values := values }, subcommand := some (w.group, w.name :: words) }).map
          fun values => ⟨valueOf values "config", command⟩ := by
  obtain ⟨g, hgroup, hname⟩ := Option.bind_eq_some_iff.1 hlevel
  have hwalk : programLevel.walk {} (values.map attached ++ w.group :: w.name :: words) =
      .ok { progress := { values := values }, subcommand := some (w.group, w.name :: words) } := by
    rw [Level.walk_options plain_programLevel (Progress.ready_of_values []) haccepts hnodup]
    exact Level.walk_subcommand (Progress.ready_of_values values)
      (isSubcommand_of_lookup rfl hgroup) _
  simp only [parse, hwalk, hgroup, parseGroup_of_lookup hname, bind, Except.bind]
  cases parseCommand w.group w.name l words with
  | error fault => rfl
  | ok command => simp only [Except.map]

theorem accepts_config {path : String} (h : path ≠ "") :
    programLevel.Accepts ("config", path) := ⟨configOption, option?_config, fun _ => h⟩

/-- With its path for the configuration, a line is its command. -/
theorem parse_line_of_config {path : String} (hlevel : level? w = some l) (hpath : path ≠ "")
    (given : Given) :
    parse (line [path] w given) =
      (parseCommand w.group w.name l (given.map attached ++ tail w)).map fun command =>
        ⟨path, command⟩ := by
  have haccepts : ∀ o ∈ [("config", path)], programLevel.Accepts o :=
    List.forall_mem_singleton.2 (accepts_config hpath)
  have hfinish : ∀ sub, programLevel.finish
      { progress := { values := [("config", path)] }, subcommand := some sub } =
        .ok [("config", path)] := fun sub =>
    Level.finish_of_complete ⟨rfl, .inr rfl⟩ fun _ hname => hname
  have hparse := parse_of_options hlevel haccepts (List.nodup_singleton _)
    (given.map attached ++ tail w)
  rw [hfinish] at hparse
  refine hparse.trans ?_
  cases parseCommand w.group w.name l (given.map attached ++ tail w) with
  | error fault => rfl
  | ok command => rfl

/-- Without a path, a line that is right otherwise still lacks it. -/
theorem parse_line_of_none (hlevel : level? w = some l) (given : Given) :
    parse (line [] w given) =
      (parseCommand w.group w.name l (given.map attached ++ tail w)).bind fun _ =>
        .error .missingRequired := by
  have hfinish : ∀ sub, programLevel.finish { progress := {}, subcommand := some sub } =
      .error .missingRequired := fun sub =>
    Level.finish_of_missing ⟨rfl, .inr rfl⟩ List.mem_cons_self List.not_mem_nil
  have haccepts : ∀ o ∈ ([] : Given), programLevel.Accepts o := nofun
  have hparse := parse_of_options hlevel haccepts List.nodup_nil
    (given.map attached ++ tail w)
  rw [hfinish] at hparse
  exact hparse

/-- The path is given again. -/
theorem parse_line_again {path : String} (hpath : path ≠ "") (path' : String) (w : Command.Words)
    (given : Given) : parse (line [path, path'] w given) = .error .argumentConflict := by
  have haccepts : ∀ o ∈ [("config", path)], programLevel.Accepts o :=
    List.forall_mem_singleton.2 (accepts_config hpath)
  have hoption := Level.walk_options plain_programLevel (Progress.ready_of_values []) haccepts
    (List.nodup_singleton _)
  have hwalk : programLevel.walk {} (line [path, path'] w given) = .error .argumentConflict :=
    (hoption _).trans (Level.walk_conflict plain_programLevel
      (Progress.ready_of_values [("config", path)]) option?_config List.mem_cons_self path' _)
  simp only [parse, hwalk, bind, Except.bind]

section Invocation

variable (i : Invocation) (hpaths : ∀ path ∈ i.files, path ≠ "")

include hpaths

theorem parse_line_of_perm (hperm : given.Perm i.command.words.options) :
    parse (line [i.config] i.command.words given) = .ok i := by
  obtain ⟨hconfig, hfiles⟩ := List.forall_mem_cons.1 hpaths
  obtain ⟨l, hlevel, hfits⟩ := exists_level i.command
  rw [parse_line_of_config hlevel hconfig, parseCommand_of_perm hlevel hfits hfiles hperm]
  rfl

/-- **An invocation is read from what it writes.** -/
theorem parse_toArgs : parse i.toArgs = .ok i :=
  toArgs_eq i ▸ parse_line_of_perm i hpaths (List.Perm.refl _)

end Invocation

/-- **Every command can be written, and is read back.** With the path of its
configuration in front, each of its options once and in any order, whatever
their values are, and its positional argument behind two dashes, a line is
read as its invocation. An option of the command or of the program that is
given again is a conflict, and one that is left out is missing. -/
theorem commands_read_back (i : Invocation) (hpaths : ∀ path ∈ i.files, path ≠ "") :
    (∀ given, given.Perm i.command.words.options →
      parse (line [i.config] i.command.words given) = .ok i) ∧
    (∀ before between after name value value',
      (before ++ (name, value) :: between ++ after).Perm i.command.words.options →
      parse (line [i.config] i.command.words
        (before ++ (name, value) :: between ++ (name, value') :: after)) =
          .error .argumentConflict) ∧
    (∀ path given,
      parse (line [i.config, path] i.command.words given) = .error .argumentConflict) ∧
    (∀ given left, (given ++ left).Perm i.command.words.options → left ≠ [] →
      parse (line [i.config] i.command.words given) = .error .missingRequired) ∧
    (∀ given left, (given ++ left).Perm i.command.words.options →
      parse (line [] i.command.words given) = .error .missingRequired) := by
  obtain ⟨hconfig, hfiles⟩ := List.forall_mem_cons.1 hpaths
  obtain ⟨l, hlevel, hfits⟩ := exists_level i.command
  refine ⟨fun given hperm => parse_line_of_perm i hpaths hperm,
    fun before between after name value value' hperm => ?_,
    fun path given => parse_line_again hconfig path _ given, fun given left hperm hleft => ?_,
    fun given left hperm => ?_⟩
  · rw [parse_line_of_config hlevel hconfig,
      parseCommand_of_again hlevel hfits hfiles hperm value']
    rfl
  · rw [parse_line_of_config hlevel hconfig,
      parseCommand_of_left hlevel hfits hfiles hperm hleft]
    rfl
  · rw [parse_line_of_none hlevel]
    -- the command of the line may lack an option itself, and that comes first
    rcases List.eq_nil_or_concat left with rfl | ⟨left, o, rfl⟩
    · rw [List.append_nil] at hperm
      rw [parseCommand_of_perm hlevel hfits hfiles hperm]
      rfl
    · rw [parseCommand_of_left hlevel hfits hfiles hperm (by simp)]
      rfl

/-- Values that look like options: the paths are `=` and `-c`, and the
identifier of the filter is `--file=`. -/
def Disguised.update : Invocation := ⟨"=", .filter (.update "--file=" "-c")⟩

/-- An import of the key `--`. -/
def Disguised.importKey : Invocation := ⟨"help", .association (.importKey "--")⟩

theorem commands_read_back_disguised :
    (parse ["--config==", "filter", "update", "--file=-c", "--id=--file="] =
        .ok Disguised.update ∧
      parse ["--config==", "filter", "update", "--file=-c", "--id=--file=", "--file="] =
        .error .argumentConflict ∧
      parse ["--config==", "--config=", "filter", "update", "--file=-c", "--id=--file="] =
        .error .argumentConflict ∧
      parse ["--config==", "filter", "update", "--id=--file="] = .error .missingRequired ∧
      parse ["filter", "update", "--file=-c", "--id=--file="] = .error .missingRequired) ∧
    parse ["--config=help", "association", "import", "--", "--"] = .ok Disguised.importKey := by
  have hpaths : ∀ path ∈ Disguised.update.files, path ≠ "" := by decide
  obtain ⟨hread, hagain, hconfig, hleft, hnone⟩ := commands_read_back Disguised.update hpaths
  have hswapped : List.Perm [("file", "-c"), ("id", "--file=")]
      Disguised.update.command.words.options := by decide
  refine ⟨⟨hread _ hswapped, hagain [] [("id", "--file=")] [] "file" "-c" "" hswapped,
    hconfig "" [("file", "-c"), ("id", "--file=")],
    hleft [("id", "--file=")] [("file", "-c")] (by decide) (by decide),
    hnone [("file", "-c"), ("id", "--file=")] [] hswapped⟩, ?_⟩
  exact (commands_read_back Disguised.importKey (by decide)).1 [] (List.Perm.refl _)

end CommandLine

end TrafficGate
