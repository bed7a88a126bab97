import TrafficGate.Filter.Declared
import TrafficGate.Settings.Yaml
/-!
# Files

A file is opened, and then the document in it is read; either can fail, and
then there is a reason. What a document looks like is not laid down here:
`Files` comes with its own readers, and what is said of the program holds
whatever they accept. `Files.yaml` has readers for a part of YAML.
-/

namespace TrafficGate

/-- What comes of opening and reading a file. -/
inductive FileRead where
  /-- The file could not be opened, and why. -/
  | missing (reason : String)
  /-- It was opened, but gave no bytes. -/
  | unreadable (reason : String)
  | bytes (content : List UInt8)
  deriving DecidableEq, Repr, Inhabited

/-- Why there is no document. -/
inductive FileFault where
  | unopened (reason : String)
  | unparsed (reason : String)
  deriving DecidableEq, Repr, Inhabited

/-- The document in a file. A file that gives no bytes is opened, and so has
none that could be read. -/
def FileRead.document {α : Type} (parse : List UInt8 → Except String α) :
    FileRead → Except FileFault α
  | missing reason => .error (.unopened reason)
  | unreadable reason => .error (.unparsed reason)
  | bytes content => (parse content).mapError .unparsed

/-- The files at hand, and how settings and models are read from what is in
them. -/
structure Files where
  fileAt : String → FileRead
  settings : List UInt8 → Except String Settings
  model : List UInt8 → Except String FilterModel

namespace Files

/-- Files whose documents are in the part of YAML that `Yaml.Node.ofBytes?`
reads. -/
def yaml (fileAt : String → FileRead) : Files where
  fileAt := fileAt
  settings content := (Settings.ofYaml? content).elim (.error "no settings") .ok
  model content := (FilterModel.ofYaml? content).elim (.error "no model of a filter") .ok

end Files

end TrafficGate
