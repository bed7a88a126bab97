/-!
# Commands

What the program can be told to do: one operation on a filter, on an
association, or on the filters of a project.
-/

namespace TrafficGate

inductive FilterCommand where
  | create (file : String)
  | read (id : String)
  | update (id file : String)
  | delete (id : String)
  | importId (id : String)
  deriving DecidableEq, Repr, Inhabited

/-- What names an association on the command line. -/
structure AssociationArgs where
  projectId : String
  projectType : String
  filterId : String
  deriving DecidableEq, Repr, Inhabited

inductive AssociationCommand where
  | create (args : AssociationArgs)
  | read (args : AssociationArgs)
  | delete (args : AssociationArgs)
  | importKey (key : String)
  deriving DecidableEq, Repr, Inhabited

inductive ProjectCommand where
  | filters (projectId projectType : String)
  deriving DecidableEq, Repr, Inhabited

inductive Command where
  | filter (c : FilterCommand)
  | association (c : AssociationCommand)
  | project (c : ProjectCommand)
  deriving DecidableEq, Repr, Inhabited

/-- The model files that a command reads. -/
def Command.files : Command → List String
  | .filter (.create file) => [file]
  | .filter (.update _ file) => [file]
  | _ => []

/-- A command, and where the settings are. -/
structure Invocation where
  config : String
  command : Command
  deriving DecidableEq, Repr, Inhabited

/-- All files that an invocation reads. -/
def Invocation.files (i : Invocation) : List String := i.config :: i.command.files

end TrafficGate
