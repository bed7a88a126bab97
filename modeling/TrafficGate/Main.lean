import TrafficGate.Program
/-!
# The program at a terminal

Hands the words of the command line, the files they name and the key in
the environment to `Program.run`, and carries out what it asks for. The
terminal has no network: no service needs one, and every exchange goes
unanswered.
-/

namespace TrafficGate

namespace Terminal

/-- What an error of the system means for a file. A directory can be
opened but not read. -/
def unread : IO.Error → FileRead
  | .noFileOrDirectory _ code details => .missing (numbered code details)
  | .permissionDenied _ code details => .missing (numbered code details)
  | .inappropriateType _ code details =>
    if code = 21 then .unreadable (numbered code details) else .missing (numbered code details)
  | e => .missing (toString e)
where
  -- The number comes with its sign turned where the file could not even be looked up.
  numbered (code : UInt32) (details : String) : String :=
    let number := min code.toNat (4294967296 - code.toNat)
    details.capitalize ++ " (os error " ++ toString number ++ ")"

/-- Reads a file. -/
def read (path : String) : IO FileRead := do
  try
    let content ← IO.FS.readBinFile path
    return .bytes content.toList
  catch e => return unread e

/-- Reads the files that a command line names. -/
def readAll (args : List String) : IO (List (String × FileRead)) :=
  match CommandLine.parse args with
  | .error _ => return []
  | .ok i => i.files.mapM fun path => do return (path, ← read path)

/-- Answers what the program asks of the network and of the clock. -/
def answer : (q : Http.Question) → IO (Http.Answer q)
  | .exchange r => return .error (.unanswered r.url.withoutCredentials.text)
  | .pause milliseconds => IO.sleep milliseconds.toUInt32
  | .count _ => return ()

/-- The help of the program. -/
def help : String :=
  "Manage serverless traffic filters and their project associations.\n\n" ++
  "Usage: ecfilter --config <CONFIG> <COMMAND>\n\n" ++
  "Commands:\n" ++
  "  filter       create, read, update, delete or import a traffic filter\n" ++
  "  association  create, read, delete or import an association\n" ++
  "  project      show the traffic filters of a project\n"

/-- Prints what the program writes to its output. -/
def print : Output → IO Unit
  | .nothing => return ()
  | .help => IO.print help
  | .version => IO.println Program.versionLine
  | .report r => IO.println r.text

end Terminal

end TrafficGate

open TrafficGate in
/-- The program. -/
def main (args : List String) : IO UInt32 := do
  let files ← Terminal.readAll args
  let env : Environment :=
    { args := args
      files := .yaml fun path => (files.lookup path).getD (.unreadable "not read")
      apiKey := ← IO.getEnv "EC_API_KEY"
      services := .offline }
  let ending ← (Program.run env).run Terminal.answer
  Terminal.print ending.output
  if let some line := ending.faultLine then IO.eprintln line
  return ending.exitCode.toUInt32
