import TrafficGate.Proofs.Codecs
import TrafficGate.Proofs.Filter.Plan
import TrafficGate.Proofs.Json.Ordering
import TrafficGate.Proofs.Program.Endings
/-!
# A report loses nothing

What is printed of a report is one document, and whoever reads it gets back
what was to be told (`loses_nothing`): the resource, the model that
is tracked or null where nothing is, and every diagnostic in its place. The
texts in it may hold anything, quotes and line breaks of a server among
them. The members of the state stand in the order of their keys, not in that
of declaration; for a reader there is no difference.
-/

namespace TrafficGate

open Dialogue (Gives)
open Json (Canonical Document NumberFree)

/-! ## Diagnostics as they are printed -/

namespace Severity

def all : List Severity := [error, warning]

def codec : Json.Codec Severity where
  shape := .word (all.map name)
  encode s := .text s.name
  ofCanonical x := (x.text?.bind fun s => all.find? (·.name == s)).getD error

theorem faithful_codec : codec.Faithful where
  canonical s := .word (by cases s <;> decide)
  ofCanonical s := by cases s <;> rfl

end Severity

namespace Diagnostic

/-- Diagnostics as records, written as they are in reports. -/
def codec : Json.Codec Diagnostic where
  shape := .record "Diagnostic" <|
    .field "severity" true Severity.codec.shape <|
    .field "summary" true .text <|
    .field "detail" true .text .done
  encode := toJson
  ofCanonical x :=
    { severity := Severity.codec.ofCanonical ((x.get? "severity").getD .null)
      summary := x.textAt "summary"
      detail := x.textAt "detail" }

theorem faithful_codec : codec.Faithful where
  canonical d := .record (by decide) <|
    .present (by simp) (Severity.faithful_codec.canonical d.severity) <|
    .present (by simp) (.text d.summary) <|
    .present (by simp) (.text d.detail) .done
  ofCanonical d := by
    have hseverity : Severity.codec.ofCanonical (.text d.severity.name) = d.severity :=
      Severity.faithful_codec.ofCanonical d.severity
    simp [codec, toJson, Json.textAt, Json.get?, Json.text?, hseverity]

end Diagnostic

/-- Nothing has to happen for a filter to become what it is. -/
theorem FilterModel.planChange_self (m : FilterModel) : m.planChange m = .none :=
  planChange_eq_none_iff.2 ⟨⟨rfl, rfl⟩, rfl, rfl, rfl, List.Perm.refl _⟩

/-! ## What is printed -/

namespace Report

variable {M : Type} {codec : Json.Codec M} {resource : String}

/-- What is printed of a report: its text and the end of the line. -/
def printed (r : Report) : String := r.text ++ "\n"

/-- What a reader gets back from a text that is printed of an outcome. It is
one document, an object with three members and no others. -/
def Tells (codec : Json.Codec M) (resource : String) (o : Outcome M) (printed : String) : Prop :=
  (∃ x, Document x printed.toList) ∧
  ∃ state diagnostics,
    Json.parse (Utf8.pieces (Utf8.encode printed)) = .ok (.object
      [("diagnostics", diagnostics), ("resource", .text resource), ("state", state)]) ∧
    (state = .null ↔ o.state = none) ∧
    (∀ m, o.state = some m → codec.ofValue state = .ok m) ∧
    Diagnostic.codec.listOf.ofValue diagnostics = .ok o.diagnostics

/-- A report of a faithful codec holds no number. -/
theorem numberFree_toJson (h : codec.Faithful) (o : Outcome M) :
    NumberFree (ofOutcome resource codec o).toJson := by
  have hstate : NumberFree ((ofOutcome resource codec o).state.getD .null) := by
    obtain ⟨_ | m, ds⟩ := o
    · exact .null
    · exact (h.canonical m).numberFree.ordered
  have hdiagnostics : NumberFree (Diagnostics.toJson o.diagnostics) :=
    (Diagnostic.faithful_codec.listOf.canonical o.diagnostics).numberFree
  refine .object ?_
  simp only [List.forall_mem_cons]
  exact ⟨.text resource, hstate, hdiagnostics, List.forall_mem_nil _⟩

/-- The three members in the order of their keys. -/
theorem ordered_toJson (r : Report) :
    r.toJson.ordered = .object
      [("diagnostics", r.diagnostics.toJson.ordered), ("resource", .text r.resource),
        ("state", (r.state.getD .null).ordered)] := by
  have hstate : ¬ "state" < "resource" := by decide
  have hne : "state" ≠ "resource" := by decide
  have hdiagnostics : "diagnostics" < "resource" := by decide
  rw [toJson, Json.ordered_object]
  -- the state goes behind the resource, and the diagnostics before both
  simp only [Json.orderMembers, List.foldl_cons, List.foldl_nil, Json.insertMember, hstate, hne,
    hdiagnostics, if_true, if_false]
  rfl

/-- A report without numbers is printed as a document. -/
theorem document_printed {r : Report} (h : NumberFree r.toJson) :
    Document r.toJson r.printed.toList := by
  have hspells := Json.spells_render Json.Layout.blank_indented h 0
  have hend : Json.Blanks ['\n'] := List.forall_mem_singleton.2 rfl
  have hpadded := Document.padded Json.blanks_nil hspells hend
  have hprinted : r.printed.toList = [] ++ Json.render .indented 0 r.toJson ++ ['\n'] := by
    simp [printed, text, Json.indented]
  rwa [hprinted]

/-- The state that is reported is in order before it is printed. -/
theorem ordered_state (o : Outcome M) :
    ((ofOutcome resource codec o).state.getD .null).ordered =
      (o.state.map fun m => (codec.encode m).ordered).getD .null := by
  cases h : o.state with
  | none => simp [ofOutcome, h, Json.ordered]
  | some m => simp [ofOutcome, h, Json.ordered_ordered]

/-- **What is printed of an outcome tells it.** -/
theorem tells_printed (h : codec.Faithful) (hnull : ∀ m, codec.encode m ≠ .null) (o : Outcome M) :
    Tells codec resource o (ofOutcome resource codec o).printed := by
  have hfree : NumberFree (ofOutcome resource codec o).toJson := numberFree_toJson h o
  have hdocument := document_printed hfree
  have hparse := Json.parse_document hdocument hfree
  -- the reader has the members in order, those of the state among them
  rw [ordered_toJson, ordered_state, ← Utf8.pieces_encode] at hparse
  refine ⟨⟨_, hdocument⟩, _, _, hparse, ?_, ?_, ?_⟩
  · cases hstate : o.state with
    | none => simp
    | some m => simpa using fun hm => hnull m (Json.ordered_eq_null hm)
  · rintro m hm
    rw [hm]
    exact h.ofValue_ordered m
  · exact Diagnostic.faithful_codec.listOf.ofValue_ordered o.diagnostics

/-! ## Reports of commands -/

/-- The report of an operation on a filter. -/
def ofFilter (o : Outcome FilterModel) : Report :=
  ofOutcome FilterResource.typeName FilterModel.codec o

/-- The report of an operation on an association. -/
def ofAssociation (o : Outcome Association) : Report :=
  ofOutcome AssociationResource.typeName Association.codec o

/-- The report of an operation on a filter tells its outcome. -/
theorem tells_ofFilter (o : Outcome FilterModel) :
    Tells FilterModel.codec FilterResource.typeName o (ofFilter o).printed :=
  tells_printed FilterModel.faithful_codec (fun _ => nofun) o

/-- So does that of an operation on an association. -/
theorem tells_ofAssociation (o : Outcome Association) :
    Tells Association.codec AssociationResource.typeName o (ofAssociation o).printed :=
  tells_printed Association.faithful_codec (fun _ => nofun) o

/-- A command on a filter ends in the report of its operation. -/
theorem exists_ofFilter {files : Files} {c : FilterCommand} {client : Client}
    {operation : ApiM Report} {log : Http.Log} {report : Report}
    (hrun : (Command.filter c).run files = .ok operation)
    (h : Gives (client.carryOut operation) log report) :
    ∃ inner o, Run.filter (filterResource true) files c = .ok inner ∧
      Gives (client.carryOut inner) log o ∧ report = ofFilter o := by
  obtain ⟨inner, hinner, hoperation⟩ := bind_eq_ok_iff.1 hrun
  obtain rfl := Except.ok.inj hoperation
  obtain ⟨o, hgives, rfl⟩ := Client.gives_carryOut_bind_done.1 h
  exact ⟨inner, o, hinner, hgives, rfl⟩

/-- A command on an association does so, too. -/
theorem exists_ofAssociation {files : Files} {c : AssociationCommand}
    {client : Client} {operation : ApiM Report} {log : Http.Log} {report : Report}
    (hrun : (Command.association c).run files = .ok operation)
    (h : Gives (client.carryOut operation) log report) :
    ∃ o, Gives (client.carryOut (Run.association (associationResource true) c)) log o ∧
      report = ofAssociation o := by
  obtain rfl := Except.ok.inj hrun
  exact Client.gives_carryOut_bind_done.1 h

/-- **A report loses nothing.** Whatever an operation on a filter or an
association ends with, what is printed of it is one document, an object of
the resource, the state and the diagnostics. The state is null exactly if
nothing is tracked, and otherwise it is read as the very model that is
tracked; so nothing would have to happen for a filter to become the one that
is read. The diagnostics are read as they are, in their order. And every
report that the program prints of such a command is the report of what its
operation ended with. -/
theorem loses_nothing :
    (∀ o : Outcome FilterModel,
      Tells FilterModel.codec FilterResource.typeName o (ofFilter o).printed ∧
      ∀ (tracked found : FilterModel) (x state : Json), o.state = some tracked →
        Json.parse (Utf8.pieces (Utf8.encode (ofFilter o).printed)) = .ok x →
        x.get? "state" = some state → FilterModel.codec.ofValue state = .ok found →
          found.planChange tracked = .none) ∧
    (∀ o : Outcome Association,
      Tells Association.codec AssociationResource.typeName o (ofAssociation o).printed) ∧
    ∀ (env : Environment) (invocation : Invocation) (log : Http.Log) (ending : Ending)
      (report : Report), CommandLine.parse env.args = .ok invocation →
      Gives (Program.run env) log ending → ending.output = .report report →
        (∀ c, invocation.command = .filter c → ∃ client operation o,
          Run.filter (filterResource true) env.files c = .ok operation ∧
            Gives (Client.carryOut client operation) log o ∧ report = ofFilter o) ∧
        ∀ c, invocation.command = .association c → ∃ client o,
          Gives (Client.carryOut client (Run.association (associationResource true) c)) log o ∧
            report = ofAssociation o := by
  refine ⟨fun o => ⟨tells_ofFilter o, ?_⟩, tells_ofAssociation, ?_⟩
  · intro tracked found x state htracked hparse hstate hfound
    obtain ⟨-, state', diagnostics, hparse', -, hdecoded, -⟩ := tells_ofFilter o
    obtain rfl := Except.ok.inj (hparse.symm.trans hparse')
    obtain rfl : state' = state := Option.some.inj hstate
    obtain rfl : tracked = found := Except.ok.inj ((hdecoded tracked htracked).symm.trans hfound)
    exact FilterModel.planChange_self _
  · intro env invocation log ending report hparse hgives houtput
    obtain ⟨client, operation, hrun, hreport⟩ :=
      Program.exists_operation_of_report hparse hgives houtput
    constructor
    · rintro c hc
      rw [hc] at hrun
      exact ⟨client, exists_ofFilter hrun hreport⟩
    · rintro c hc
      rw [hc] at hrun
      exact ⟨client, exists_ofAssociation hrun hreport⟩

end Report

namespace Quoted

/-- The program with another command, and no key in the environment. -/
def environment (words : List String) : Environment :=
  { Keyed.environment with args := ["--config", "c"] ++ words, apiKey := none }

def filterWords : List String := ["filter", "read", "--id", "t\"\\"]

def associationWords : List String :=
  ["association", "read", "--project-id", "p\"", "--project-type", "\n", "--traffic-filter-id", "é"]

/-- A server that answers everything with a quote and a line break. -/
def answers : Stream' Exchange := Stream'.const (.ok ({ code := 403 }, Utf8.encode "\"\n"))

/-- How the program ends. -/
def ending (words : List String) : Ending :=
  ((Program.run (environment words)).runWith Http.play answers).1

theorem gives (words : List String) :
    Gives (Program.run (environment words))
      ((Program.run (environment words)).transcript Http.play answers) (ending words) :=
  Dialogue.gives_transcript _ _

/-- What is known of the filter, and what the server had to say. -/
def outcome : Outcome FilterModel :=
  ⟨some (.imported "t\"\\"), [.error "could not read" "\"\n", .warning "\u0000" "é"]⟩

end Quoted

/-- What the program writes, if it is a report. -/
def Output.report? : Output → Option Report
  | .report r => some r
  | _ => none

theorem Output.exists_report {output : Output} (h : output.report?.isSome = true) :
    ∃ r, output = .report r := by
  cases output with
  | report r => exact ⟨r, rfl⟩
  | nothing => cases h
  | help => cases h
  | version => cases h

/-- **Quotes, backslashes and line breaks** come back from a report, and two
commands end in one. -/
theorem Report.loses_nothing_quoted :
    (∃ x state, Json.parse (Utf8.pieces (Utf8.encode (Report.ofFilter Quoted.outcome).printed)) =
        .ok x ∧ x.get? "state" = some state ∧
      FilterModel.codec.ofValue state = .ok (.imported "t\"\\") ∧
      (FilterModel.imported "t\"\\").planChange (.imported "t\"\\") = .none) ∧
    (∃ report client operation o,
      (Quoted.ending Quoted.filterWords).output = .report report ∧
        Gives (Client.carryOut client operation)
          ((Program.run (Quoted.environment Quoted.filterWords)).transcript Http.play
            Quoted.answers) o ∧ report = Report.ofFilter o) ∧
    ∃ report o, (Quoted.ending Quoted.associationWords).output = .report report ∧
      report = Report.ofAssociation o := by
  have hfilter : CommandLine.parse (Quoted.environment Quoted.filterWords).args =
      .ok ⟨"c", .filter (.read "t\"\\")⟩ := by decide +kernel
  have hassociation : CommandLine.parse (Quoted.environment Quoted.associationWords).args =
      .ok ⟨"c", .association (.read ⟨"p\"", "\n", "é"⟩)⟩ := by decide +kernel
  obtain ⟨report, hreport⟩ : ∃ r, (Quoted.ending Quoted.filterWords).output = .report r :=
    Output.exists_report (by decide +kernel)
  obtain ⟨report', hreport'⟩ : ∃ r, (Quoted.ending Quoted.associationWords).output = .report r :=
    Output.exists_report (by decide +kernel)
  obtain ⟨hdecoded, -, hcommand⟩ := Report.loses_nothing
  refine ⟨?_, ?_, ?_⟩
  · obtain ⟨⟨-, state, diagnostics, hparse, -, hfound, -⟩, hsame⟩ := hdecoded Quoted.outcome
    have hstate := hfound _ rfl
    exact ⟨_, state, hparse, rfl, hstate, hsame _ _ _ _ rfl hparse rfl hstate⟩
  · obtain ⟨honFilter, -⟩ := hcommand _ _ _ _ _ hfilter (Quoted.gives _) hreport
    obtain ⟨client, operation, o, -, hgives, ho⟩ := honFilter _ rfl
    exact ⟨report, client, operation, o, hreport, hgives, ho⟩
  · obtain ⟨-, honAssociation⟩ := hcommand _ _ _ _ _ hassociation (Quoted.gives _) hreport'
    obtain ⟨client, o, -, ho⟩ := honAssociation _ rfl
    exact ⟨report', o, hreport', ho⟩

end TrafficGate
