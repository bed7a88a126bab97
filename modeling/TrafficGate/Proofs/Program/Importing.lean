import TrafficGate.Run
import TrafficGate.Proofs.Association.ImportKeys
import TrafficGate.Proofs.Dialogue.Log
import TrafficGate.Proofs.Resource.Operation
/-!
# What is imported is read

An import starts to track what a key names, and reads it. The key of an
association gives the model that the three arguments of a read give, so the
two commands are one operation (`import_is_read`): whoever answers is asked
the same, and the report is the same. A key that is none ends the import at
once, with the one error that it is.
-/

namespace TrafficGate

namespace Run

variable {M : Type} {r : Resource M} {key : String}

/-- An import whose key names something is a read of it. -/
theorem importAndRead_of_named {m : M} (h : r.importState key none = ⟨some m, []⟩) :
    importAndRead r key = r.read (some m) := by
  simp only [importAndRead, h, Diagnostics.hasError_nil, Bool.false_eq_true, if_false,
    List.nil_append]
  exact Dialogue.bind_done (r.read (some m))

/-- An import whose key is refused is over. -/
theorem importAndRead_of_refused {o : Outcome M} (h : r.importState key none = o)
    (herror : o.diagnostics.hasError = true) : importAndRead r key = .done o := by
  simp only [importAndRead, h, herror, if_true]
  rfl

end Run

/-- The association that the key names is the one that the arguments name. -/
theorem Association.ofKey_eq (projectId filterId : String) (kind : ProjectKind) :
    ofKey ⟨projectId, kind, filterId⟩ =
      (Run.associationOf ⟨projectId, kind.name, filterId⟩).withId := rfl

namespace Command

variable {files : Files}

/-- Two commands that one operation carries out: they ask the same of whoever
answers, in the same order, and whatever is answered they end in the same
report. -/
def SameOperation (files : Files) (c d : Command) : Prop :=
  ∃ operation, c.run files = .ok operation ∧ d.run files = .ok operation

/-- A key that is none ends the import before anything is asked. -/
theorem run_importKey_of_error {key : String} {fault : ImportKey.Fault}
    (h : ImportKey.ofString key = .error fault) :
    (association (.importKey key)).run files = .ok (.done
      ⟨AssociationResource.typeName, none, [(ResourceError.importKey fault).diagnostic]⟩) := by
  have hrefused : (associationResource true).importState key none =
      ⟨none, [(ResourceError.importKey fault).diagnostic]⟩ := by
    simp only [associationResource, AssociationResource.importState, h]
  simp only [run, Run.association, Run.importAndRead_of_refused hrefused (by simp)]
  rfl

/-- **What is imported is read.** The import of a project id, a kind and a
filter id with commas between them is the operation that reads the
association of these three, if neither id is empty or holds a comma; and so
it is with the import of a filter and the operation that reads it. A key
that cannot be read as one asks for nothing, and ends with null for a state
and one error. -/
theorem import_is_read (files : Files) :
    (∀ (projectId filterId : String) (kind : ProjectKind),
      ImportKey.IsPart projectId → ImportKey.IsPart filterId →
        SameOperation files
          (.association (.importKey (projectId ++ "," ++ kind.name ++ "," ++ filterId)))
          (.association (.read ⟨projectId, kind.name, filterId⟩))) ∧
    (∀ id, SameOperation files (.filter (.importId id)) (.filter (.read id))) ∧
    ∀ key, (∀ k, ImportKey.ofString key ≠ .ok k) → ∃ report d,
      (association (.importKey key)).run files = .ok (.done report) ∧
        report.toJson.get? "state" = some .null ∧ report.diagnostics = [d] ∧
        d.severity = .error := by
  refine ⟨?_, ?_, ?_⟩
  · intro projectId filterId kind hproject hfilter
    have hnamed : (associationResource true).importState
        (projectId ++ "," ++ kind.name ++ "," ++ filterId) none =
          ⟨some (.ofKey ⟨projectId, kind, filterId⟩), []⟩ := by
      simp only [associationResource, AssociationResource.importState,
        ImportKey.ofString_text hproject hfilter]
    refine ⟨_, ?_, rfl⟩
    simp only [run, Run.association, Run.importAndRead_of_named hnamed, Association.ofKey_eq]
  · intro id
    have hnamed : (filterResource true).importState id none = ⟨some (.imported id), []⟩ := rfl
    refine ⟨_, ?_, rfl⟩
    simp only [run, Run.filter, Run.importAndRead_of_named hnamed]
    rfl
  · intro key hkey
    cases hread : ImportKey.ofString key with
    | ok k => exact absurd hread (hkey k)
    | error fault =>
      refine ⟨_, _, run_importKey_of_error hread, rfl, rfl, ?_⟩
      rfl

/-- **One key names an association of ids with dashes**, and another one is
off by a capital letter. -/
theorem import_is_read_dashed :
    ImportKey.IsPart "p-1" ∧ ImportKey.IsPart "tf-é" ∧
      SameOperation (.yaml fun _ => .missing "no files")
        (.association (.importKey "p-1,security,tf-é"))
        (.association (.read ⟨"p-1", "security", "tf-é"⟩)) ∧
      ImportKey.ofString "p-1,Security,tf-é" = .error (.unknownKind "Security") ∧
      ∃ report d,
        (association (.importKey "p-1,Security,tf-é")).run (.yaml fun _ => .missing "no files") =
          .ok (.done report) ∧
        report.toJson.get? "state" = some .null ∧ report.diagnostics = [d] ∧
        d.severity = .error := by
  have hproject : ImportKey.IsPart "p-1" := ⟨by decide, by decide⟩
  have hfilter : ImportKey.IsPart "tf-é" := ⟨by decide, by decide⟩
  have hrefused : ImportKey.ofString "p-1,Security,tf-é" = .error (.unknownKind "Security") := by
    rfl
  obtain ⟨hsame, -, hnone⟩ := import_is_read (.yaml fun _ => .missing "no files")
  exact ⟨hproject, hfilter, hsame "p-1" "tf-é" .security hproject hfilter, hrefused,
    hnone _ fun k hk => nomatch hrefused.symm.trans hk⟩

end Command

end TrafficGate
