import TrafficGate.Text.Split
/-!
# One level of a command line

A command line is read in levels: options of the program, then the name
of a subcommand, then its options, and so on. `Level.walk` reads one
level, up to the name of a subcommand or to the end.

An option takes one value: attached to it, or the next word, unless that
looks like an option. A value that is the next word counts only once the
following word has been looked at, so that an unknown word behind it is
reported first.
-/

namespace TrafficGate

namespace CommandLine

/-- Why a command line is not carried out. -/
inductive Fault where
  | displayHelp
  | displayVersion
  | helpOnMissing
  | missingSubcommand
  | invalidSubcommand
  | unknownArgument
  | invalidValue
  | argumentConflict
  | missingRequired
  | tooManyValues
  deriving DecidableEq, Repr, Inhabited

/-- An option with one value. -/
structure Opt where
  name : String
  short : Option Char := none
  /-- A path is never empty. -/
  isPath : Bool := false
  deriving DecidableEq, Repr, Inhabited

/-- What may stand on one level. -/
structure Level where
  options : List Opt := []
  positional : Option String := none
  /-- The names of the subcommands; one of them is needed if there are any. -/
  subcommands : List String := []
  hasVersion : Bool := false
  deriving DecidableEq, Repr, Inhabited

/-- An option that has been named and whose value does not count yet. -/
inductive Pending where
  | nothing
  | waiting (o : Opt)
  | held (o : Opt) (value : String)
  deriving DecidableEq, Repr, Inhabited

/-- What has been read of a level. -/
structure Progress where
  values : List (String × String) := []
  pending : Pending := .nothing
  /-- Whether everything from here on is a plain word. -/
  trailing : Bool := false
  deriving DecidableEq, Repr, Inhabited

/-- How a level ends: with its own words, or with a subcommand and the
words behind its name. -/
structure LevelEnd where
  progress : Progress
  subcommand : Option (String × List String) := none
  deriving DecidableEq, Repr, Inhabited

namespace Progress

/-- Records the value of an option. -/
def take (p : Progress) (o : Opt) (value : String) : Except Fault Progress :=
  if p.values.any (·.1 == o.name) then .error .argumentConflict
  else if o.isPath && value.isEmpty then .error .invalidValue
  else .ok { p with values := p.values ++ [(o.name, value)] }

/-- Lets a pending option count. -/
def settle (p : Progress) : Except Fault Progress :=
  match p.pending with
  | .nothing => .ok p
  | .waiting _ => .error .invalidValue
  | .held o value => { p with pending := .nothing }.take o value

/-- Whether the next word may be the value of an option. -/
def isWaiting (p : Progress) : Bool :=
  match p.pending with
  | .waiting _ => true
  | _ => false

end Progress

namespace Level

/-- The name under which every level with subcommands has its help. -/
def helpName : String := "help"

/-- Whether a word names a subcommand. -/
def isSubcommand (l : Level) (word : String) : Bool :=
  l.subcommands.contains word || (!l.subcommands.isEmpty && word = helpName)

/-- An option named in full or by its letter, with or without a value
attached to it. -/
def takeOption (p : Progress) (o : Opt) (attached : Option String) : Except Fault Progress := do
  let p ← p.settle
  match attached with
  | some value => p.take o value
  | none => .ok { p with pending := .waiting o }

/-- A word behind two dashes. -/
def takeLong (l : Level) (p : Progress) (cs : List Char) : Except Fault Progress :=
  let (nameChars, value) := Text.cutFirst (· = '=') cs
  let name := String.ofList nameChars
  let value := value.map String.ofList
  match l.options.find? (·.name == name) with
  | some o => takeOption p o value
  | none =>
    let fault? : Option Fault :=
      if name = "help" then some .displayHelp
      else if name = "version" && l.hasVersion then some .displayVersion
      else none
    match fault? with
    | none => .error .unknownArgument
    | some fault =>
      if value.isSome then .error .tooManyValues
      else do
        let _ ← p.settle
        .error fault

/-- The letters behind one dash, the first of which decides. -/
def takeShort (l : Level) (p : Progress) : List Char → Except Fault Progress
  | [] => .ok p
  | c :: rest =>
    match l.options.find? (·.short == some c) with
    | some o =>
      let value :=
        match rest with
        | [] => none
        | '=' :: rest => some (String.ofList rest)
        | rest => some (String.ofList rest)
      takeOption p o value
    | none =>
      let fault? : Option Fault :=
        if c = 'h' then some .displayHelp
        else if c = 'V' && l.hasVersion then some .displayVersion
        else none
      match fault? with
      | none => .error .unknownArgument
      | some fault => do
        let _ ← p.settle
        .error fault

/-- A plain word: a pending value, or the positional argument, or one too
many. -/
def takeWord (l : Level) (p : Progress) (word : String) : Except Fault Progress :=
  match p.trailing, p.pending with
  | false, .waiting o => .ok { p with pending := .held o word }
  | _, _ =>
    match l.positional with
    | some name =>
      if p.values.any (·.1 == name) then .error .unknownArgument
      else do
        let p ← p.settle
        .ok { p with values := p.values ++ [(name, word)] }
    | none =>
      if p.trailing && l.isSubcommand word then .error .unknownArgument
      else if l.subcommands.isEmpty then .error .unknownArgument
      else .error .invalidSubcommand

/-- One word that is not the name of a subcommand. -/
def step (l : Level) (p : Progress) (word : String) : Except Fault Progress :=
  if p.trailing then l.takeWord p word
  else
    match word.toList with
    | ['-', '-'] => .ok { p with trailing := true }
    | '-' :: '-' :: rest => l.takeLong p rest
    | '-' :: c :: rest => l.takeShort p (c :: rest)
    | _ => l.takeWord p word

/-- Reads the words of a level. -/
def walk (l : Level) (p : Progress) : List String → Except Fault LevelEnd
  | [] => .ok { progress := p }
  | word :: rest =>
    if !p.trailing && !p.isWaiting && l.isSubcommand word then
      .ok { progress := p, subcommand := some (word, rest) }
    else
      match l.step p word with
      | .ok p => l.walk p rest
      | .error fault => .error fault

/-- The values of a level whose words have all been read: nothing is left
pending, a subcommand is there if one is needed, and so are all values. -/
def finish (l : Level) (e : LevelEnd) : Except Fault (List (String × String)) := do
  let p ← e.progress.settle
  if e.subcommand.isNone && !l.subcommands.isEmpty then
    .error (if p.values.isEmpty then .helpOnMissing else .missingSubcommand)
  else
    let names := l.options.map Opt.name ++ l.positional.toList
    if names.all fun name => p.values.any (·.1 == name) then .ok p.values
    else .error .missingRequired

end Level

end CommandLine

end TrafficGate
