import Mathlib.Logic.Unique
import TrafficGate.Proofs.Client.Repetition
import TrafficGate.Proofs.Client.Sample
/-!
# How the program ends

All that can go wrong without a report goes wrong before the command is
carried out (`run_cases`), apart from the writing of the report itself, and
every report can be written (`Services.Encodes`). So a program that sent
anything prints one report, and one that prints none has sent nothing and
fails; with a report the exit code tells whether there is an error in it
(`sends_only_with_report`).

Files are read by whatever reads them, and of the services only the outcomes
are known: nothing is said here of when a document is accepted, or a recorder
of metrics can be built.
-/

namespace TrafficGate

open Dialogue (Gives)
open Http (exchanges)

/-- The key that requests carry: the one in the environment, unless it is
empty. -/
def Settings.effectiveKey (s : Settings) (key : Option String) : String :=
  (key.filter fun k => !k.isEmpty).getD s.api.apiKey

/-- The settings under which requests are made. -/
def Settings.effectiveApi (s : Settings) (key : Option String) : ApiSettings :=
  { s.api with apiKey := s.effectiveKey key }

/-- The key of the environment is put in place of that of the file. -/
theorem Settings.withApiKey_eq (s : Settings) (key : Option String) :
    s.withApiKey key = { s with api := s.effectiveApi key } := by
  cases key with
  | none => rfl
  | some k =>
    by_cases hk : k.isEmpty = true
    · simp [withApiKey, effectiveApi, effectiveKey, Option.filter, hk]
    · simp [withApiKey, effectiveApi, effectiveKey, Option.filter, hk]

/-! ## Steps that can fail -/

/-- Another account of the fault does not change when there is none. -/
@[simp]
theorem mapError_eq_ok_iff {ε ε' α : Type} {x : Except ε α} {f : ε → ε'} {a : α} :
    x.mapError f = .ok a ↔ x = .ok a := by
  cases x <;> simp [Except.mapError]

/-- Two steps go well if the first does, and then the second. -/
theorem bind_eq_ok_iff {ε α β : Type} {x : Except ε α} {f : α → Except ε β} {b : β} :
    (x >>= f) = .ok b ↔ ∃ a, x = .ok a ∧ f a = .ok b := by
  cases x <;> simp [bind, Except.bind]

/-- A file has a document if it gives bytes that are read as one. -/
theorem FileRead.document_eq_ok_iff {α : Type} {parse : List UInt8 → Except String α}
    {file : FileRead} {a : α} :
    file.document parse = .ok a ↔ ∃ content, file = .bytes content ∧ parse content = .ok a := by
  cases file <;> simp [document]

namespace Ending

/-- The end of a program that does not come to a report. -/
structure Unreported (e : Ending) : Prop where
  output : e.output = .nothing
  failure : e.exitCode ≠ 0

theorem Unreported.failed (fault : ProgramFault) : (failed fault).Unreported :=
  ⟨rfl, Nat.one_ne_zero⟩

theorem Unreported.brokenOff : brokenOff.Unreported := ⟨rfl, by decide⟩

end Ending

namespace Program

variable {env : Environment} {invocation : Invocation} {file : Settings}

/-- Everything is in place for the command: the settings were read from
this file, they are accepted, and all that is set up with them was there to
be had. -/
structure SetUp (env : Environment) (invocation : Invocation) (file : Settings) : Prop where
  loaded : ∃ content, env.files.fileAt invocation.config = .bytes content ∧
    env.files.settings content = .ok file
  logging : env.services.logging file.logging = true
  metrics : ∀ m, file.metrics = some m → env.services.metrics m = .ok ()
  api : (file.effectiveApi env.apiKey).validate = .ok ()
  connections : env.services.connections (file.effectiveApi env.apiKey) = .ok ()
  runtime : env.services.runtime = .ok ()

/-- Settings are loaded if the file gives bytes that are read as settings. -/
theorem loadSettings_eq_ok_iff {files : Files} {path : String} :
    loadSettings files path = .ok file ↔
      ∃ content, files.fileAt path = .bytes content ∧ files.settings content = .ok file :=
  mapError_eq_ok_iff.trans FileRead.document_eq_ok_iff

/-- The preparation goes well if each of its four steps does. -/
theorem prepare_eq_ok_iff {services : Services} {settings : Settings} :
    prepare services settings = .ok () ↔
      (∀ m, settings.metrics = some m → services.metrics m = .ok ()) ∧
        settings.api.validate = .ok () ∧ services.connections settings.api = .ok () ∧
        services.runtime = .ok () := by
  obtain ⟨api, logging, metrics⟩ := settings
  cases metrics <;> simp [prepare, bind_eq_ok_iff, Unique.exists_iff]

/-- A report is only printed of a command that ended in it. -/
theorem report_of_conclude {services : Services} {outcome : Except RunFault Report}
    {report : Report} (h : (conclude services outcome).output = .report report) :
    outcome = .ok report := by
  cases outcome with
  | error fault => cases h
  | ok r =>
    unfold conclude at h
    cases hencoded : services.encoding r with
    | error reason => simp [hencoded, Ending.failed] at h
    | ok _ => simpa [hencoded, Ending.reported] using h

/-- **Where nothing is in the way, the command is carried out**, and what it
ends in is written. -/
theorem run_of_setUp {operation : ApiM Report}
    (hparse : CommandLine.parse env.args = .ok invocation) (h : SetUp env invocation file)
    (hcommand : invocation.command.run env.files = .ok operation) :
    run env = ((file.effectiveApi env.apiKey).client.carryOut operation).bind fun report =>
      .done (conclude env.services (.ok report)) := by
  have hload : loadSettings env.files invocation.config = .ok file :=
    loadSettings_eq_ok_iff.2 h.loaded
  have hprepare : prepare env.services { file with api := file.effectiveApi env.apiKey } = .ok () :=
    prepare_eq_ok_iff.2 ⟨h.metrics, h.api, h.connections, h.runtime⟩
  simp only [run, hparse, hload, file.withApiKey_eq env.apiKey, h.logging, Bool.not_true,
    Bool.false_eq_true, if_false, hprepare, execute, hcommand]
  exact Dialogue.bind_assoc _ _ _

/-- **Otherwise it stops before anything is sent.** -/
theorem run_cases (hparse : CommandLine.parse env.args = .ok invocation) :
    (∃ ending : Ending, run env = .done ending ∧ ending.Unreported) ∨
    ∃ file operation, SetUp env invocation file ∧
      invocation.command.run env.files = .ok operation := by
  simp only [run, hparse]
  cases hload : loadSettings env.files invocation.config with
  | error fault => exact .inl ⟨_, rfl, .failed fault⟩
  | ok file =>
    simp only [file.withApiKey_eq env.apiKey]
    cases hlogging : env.services.logging file.logging with
    | false => exact .inl ⟨_, rfl, .brokenOff⟩
    | true =>
      simp only [Bool.not_true, Bool.false_eq_true, if_false]
      split
      case h_1 fault _ => exact .inl ⟨_, rfl, .failed fault⟩
      case h_2 hprepare =>
        obtain ⟨hmetrics, hapi, hconnections, hruntime⟩ := prepare_eq_ok_iff.1 hprepare
        have hsetUp : SetUp env invocation file :=
          ⟨loadSettings_eq_ok_iff.1 hload, hlogging, hmetrics, hapi, hconnections, hruntime⟩
        unfold execute
        cases invocation.command.run env.files with
        | error fault => exact .inl ⟨_, rfl, .failed (.run fault)⟩
        | ok operation => exact .inr ⟨file, operation, hsetUp, rfl⟩

/-- **A report that is printed is that of the command**, over the exchanges
of the program. -/
theorem exists_operation_of_report {log : Http.Log} {ending : Ending} {report : Report}
    (hparse : CommandLine.parse env.args = .ok invocation) (h : Gives (run env) log ending)
    (houtput : ending.output = .report report) :
    ∃ client operation, invocation.command.run env.files = .ok operation ∧
      Gives (Client.carryOut client operation) log report := by
  rcases run_cases hparse with ⟨e, hrun, hnothing, -⟩ | ⟨file, operation, hsetUp, hcommand⟩
  · rw [hrun] at h
    obtain ⟨rfl, rfl⟩ := Dialogue.gives_done.1 h
    rw [hnothing] at houtput
    cases houtput
  · rw [run_of_setUp hparse hsetUp hcommand] at h
    obtain ⟨r, hgives, rfl⟩ := Dialogue.gives_bind_done.1 h
    obtain rfl := Except.ok.inj (report_of_conclude houtput)
    exact ⟨_, operation, hcommand, hgives⟩

end Program

namespace Keyed

/-- Settings with a key of their own. -/
def config : String := "api: \x7bendpoint: \"http://localhost\", api_key: old\x7d"

def environment : Environment where
  args := ["--config", "c", "filter", "read", "--id", "tf-1"]
  files := .yaml fun _ => .bytes (Utf8.encode config)
  apiKey := some "new"
  services := .offline

def invocation : Invocation := ⟨"c", .filter (.read "tf-1")⟩

/-- A server that knows of nothing. -/
def answers : Stream' Exchange := Stream'.const (.ok (.notFound, []))

def log : Http.Log := (Program.run environment).transcript Http.play answers

/-- What a client of the same endpoint sends, but with the new key. -/
def request : Request :=
  { Sample.request .get ["traffic-filters", "tf-1"] none with authorization := "ApiKey new" }

end Keyed

end TrafficGate
