import TrafficGate.CommandLine.Command
import TrafficGate.CommandLine.Level
/-!
# Command lines

The levels of the program's command line, and the commands that the words
on them amount to. `CommandLine.parse` reads a command line and
`Invocation.toArgs` writes one.
-/

namespace TrafficGate

namespace CommandLine

/-! ## The levels -/

def configOption : Opt := { name := "config", short := some 'c', isPath := true }

def idOption : Opt := { name := "id" }

def fileOption : Opt := { name := "file", isPath := true }

def projectIdOption : Opt := { name := "project-id" }

def projectTypeOption : Opt := { name := "project-type" }

def filterIdOption : Opt := { name := "traffic-filter-id" }

/-- What names an association. -/
def associationLevel : Level := { options := [projectIdOption, projectTypeOption, filterIdOption] }

/-- The commands of a group, each with what stands on its level. -/
abbrev Group := List (String × Level)

def filterGroup : Group :=
  [("create", { options := [fileOption] }),
   ("read", { options := [idOption] }),
   ("update", { options := [idOption, fileOption] }),
   ("delete", { options := [idOption] }),
   ("import", { positional := some "id" })]

def associationGroup : Group :=
  [("create", associationLevel),
   ("read", associationLevel),
   ("delete", associationLevel),
   ("import", { positional := some "key" })]

def projectGroup : Group :=
  [("filters", { options := [projectIdOption, projectTypeOption] })]

/-- The groups of commands. -/
def groups : List (String × Group) :=
  [("filter", filterGroup), ("association", associationGroup), ("project", projectGroup)]

/-- The level that a group itself is. -/
def groupLevel (g : Group) : Level := { subcommands := g.map (·.1) }

/-- The outermost level. -/
def programLevel : Level :=
  { options := [configOption], subcommands := groups.map (·.1), hasVersion := true }

/-! ## Commands -/

/-- The value under a name; empty if there is none. -/
def valueOf (values : List (String × String)) (name : String) : String :=
  (values.lookup name).getD ""

/-- The command of a group, a name in it, and the values given. -/
def commandOf? (group name : String) (values : List (String × String)) : Option Command :=
  let value := valueOf values
  let args : AssociationArgs :=
    ⟨value "project-id", value "project-type", value "traffic-filter-id"⟩
  match group, name with
  | "filter", "create" => some (.filter (.create (value "file")))
  | "filter", "read" => some (.filter (.read (value "id")))
  | "filter", "update" => some (.filter (.update (value "id") (value "file")))
  | "filter", "delete" => some (.filter (.delete (value "id")))
  | "filter", "import" => some (.filter (.importId (value "id")))
  | "association", "create" => some (.association (.create args))
  | "association", "read" => some (.association (.read args))
  | "association", "delete" => some (.association (.delete args))
  | "association", "import" => some (.association (.importKey (value "key")))
  | "project", "filters" =>
    some (.project (.filters (value "project-id") (value "project-type")))
  | _, _ => none

/-! ## Help -/

/-- What the words behind `help` come to on the level of a command: it has
no subcommands. -/
def commandHelp : List String → Fault
  | [] => .displayHelp
  | _ :: _ => .invalidSubcommand

/-- What the words behind `help` come to in a group. -/
def groupHelp (g : Group) : List String → Fault
  | [] => .displayHelp
  | word :: rest =>
    if (groupLevel g).isSubcommand word then commandHelp rest else .invalidSubcommand

/-- What the words behind `help` come to on the outermost level. -/
def programHelp : List String → Fault
  | [] => .displayHelp
  | word :: rest =>
    match groups.lookup word with
    | some g => groupHelp g rest
    | none => if word = Level.helpName then commandHelp rest else .invalidSubcommand

/-! ## Reading a command line -/

/-- Reads the words of one command. -/
def parseCommand (group name : String) (level : Level) (words : List String) :
    Except Fault Command := do
  let e ← level.walk {} words
  let values ← level.finish e
  match commandOf? group name values with
  | some command => .ok command
  | none => .error .invalidSubcommand

/-- Reads the words of a group. -/
def parseGroup (group : String) (g : Group) (words : List String) : Except Fault Command := do
  let e ← (groupLevel g).walk {} words
  match e.subcommand with
  | none => do
    let _ ← (groupLevel g).finish e
    .error .missingSubcommand
  | some (name, rest) =>
    match g.lookup name with
    | none => .error (groupHelp g rest)
    | some level => do
      let command ← parseCommand group name level rest
      let _ ← (groupLevel g).finish e
      .ok command

/-- Reads a command line. What is wrong with the subcommand comes before
what is wrong with the options in front of it. -/
def parse (words : List String) : Except Fault Invocation := do
  let e ← programLevel.walk {} words
  match e.subcommand with
  | none => do
    let _ ← programLevel.finish e
    .error .missingSubcommand
  | some (name, rest) =>
    match groups.lookup name with
    | none => .error (programHelp rest)
    | some g => do
      let command ← parseGroup name g rest
      let values ← programLevel.finish e
      .ok ⟨valueOf values "config", command⟩

end CommandLine

/-! ## Writing a command line -/

namespace Command

/-- The names of a command and its values, the positional one last. -/
structure Words where
  group : String
  name : String
  options : List (String × String)
  positional : Option String := none
  deriving DecidableEq, Repr, Inhabited

/-- The options that name an association. -/
def associationWords (a : AssociationArgs) : List (String × String) :=
  [("project-id", a.projectId), ("project-type", a.projectType),
    ("traffic-filter-id", a.filterId)]

/-- How a command is written. -/
def words : Command → Words
  | .filter (.create file) => { group := "filter", name := "create", options := [("file", file)] }
  | .filter (.read id) => { group := "filter", name := "read", options := [("id", id)] }
  | .filter (.update id file) =>
    { group := "filter", name := "update", options := [("id", id), ("file", file)] }
  | .filter (.delete id) => { group := "filter", name := "delete", options := [("id", id)] }
  | .filter (.importId id) =>
    { group := "filter", name := "import", options := [], positional := some id }
  | .association (.create a) =>
    { group := "association", name := "create", options := associationWords a }
  | .association (.read a) =>
    { group := "association", name := "read", options := associationWords a }
  | .association (.delete a) =>
    { group := "association", name := "delete", options := associationWords a }
  | .association (.importKey key) =>
    { group := "association", name := "import", options := [], positional := some key }
  | .project (.filters projectId projectType) =>
    { group := "project", name := "filters"
      options := [("project-id", projectId), ("project-type", projectType)] }

end Command

namespace CommandLine

/-- An option with its value attached. -/
def attached (o : String × String) : String := "--" ++ o.1 ++ "=" ++ o.2

end CommandLine

/-- A command line that is read as the invocation. -/
def Invocation.toArgs (i : Invocation) : List String :=
  let w := i.command.words
  [CommandLine.attached ("config", i.config), w.group, w.name] ++
    w.options.map CommandLine.attached ++
    (match w.positional with
      | some value => ["--", value]
      | none => [])

end TrafficGate
