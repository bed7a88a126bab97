import TrafficGate.Filter.Basic
import TrafficGate.ResourceError
/-!
# Declared and tracked filters

A `FilterModel` is a filter as a user declares it, or as it is known to
be after an operation. `planChange` says what has to happen for a tracked
filter to become the declared one; the order of the rules does not count
there, and rules that are not declared are as good as none.
-/

namespace TrafficGate

/-- A declared or tracked filter. Absent rules are not managed. -/
structure FilterModel where
  id : Option String := none
  name : String := ""
  type : FilterType := .ip
  region : String := ""
  description : Option String := none
  includeByDefault : Bool := false
  rules : Option (List Rule) := none
  deriving DecidableEq, Repr, Inhabited

/-- An attribute that a change in place cannot reach. -/
inductive FixedAttribute where
  | region
  | type
  deriving DecidableEq, Repr, Inhabited

def FixedAttribute.name : FixedAttribute → String
  | region => "region"
  | type => "type"

/-- What has to happen to a tracked filter. -/
inductive PlannedChange where
  | none
  | update
  | replace (attributes : List FixedAttribute)
  deriving DecidableEq, Repr, Inhabited

namespace FilterModel

/-- A filter of which only the id is known. -/
def imported (id : String) : FilterModel := { id := some id }

/-! ## Validation -/

/-- A problem with an attribute, if there is one. -/
def complaint (holds : Bool) (name message : String) : Diagnostics :=
  if holds then [(ResourceError.invalidAttribute name message).diagnostic] else []

/-- Every problem of a declared filter. -/
def validate (m : FilterModel) : Diagnostics :=
  complaint m.name.isEmpty "name" "must not be empty" ++
  complaint m.region.isEmpty "region" "must not be empty" ++
  match m.rules with
  | .none => []
  | some rules =>
    complaint rules.isEmpty "rule" "at least one rule is required when rules are managed" ++
    complaint (rules.any (·.source.isEmpty)) "rule.source" "must not be empty"

/-! ## The filter as the API has it -/

/-- What is known of a filter once the API has reported it: an empty
description and an empty list of rules count as absent. -/
def ofInfo (info : FilterInfo) : FilterModel where
  id := some info.id
  name := info.name
  type := info.type
  region := info.region
  description := info.description.filter fun d => !d.isEmpty
  includeByDefault := info.includeByDefault
  rules := if info.rules.isEmpty then .none else some info.rules

/-- The rules that a request carries; an empty list is left out. -/
def managedRules (m : FilterModel) : Option (List Rule) := m.rules.filter fun rs => !rs.isEmpty

/-- The request for a new filter. -/
def creation (m : FilterModel) : FilterCreation where
  name := m.name
  region := m.region
  type := m.type
  description := m.description
  includeByDefault := some m.includeByDefault
  rules := m.managedRules

/-- The request for a change. -/
def patch (m : FilterModel) : FilterPatch where
  name := some m.name
  description := m.description
  includeByDefault := some m.includeByDefault
  rules := m.managedRules

/-! ## What has to change -/

/-- The attributes that differ and cannot be changed in place. -/
def replacedAttributes (plan tracked : FilterModel) : List FixedAttribute :=
  (if plan.region ≠ tracked.region then [.region] else []) ++
  (if plan.type ≠ tracked.type then [.type] else [])

/-- The rules in their order; absent rules are none. -/
def sortedRules (m : FilterModel) : List Rule := Rule.sorted (m.rules.getD [])

/-- Whether two filters have the same rules, in whatever order. -/
def sameRules (a b : FilterModel) : Bool := a.sortedRules == b.sortedRules

/-- What has to happen for a tracked filter to become the planned one. -/
def planChange (plan tracked : FilterModel) : PlannedChange :=
  match plan.replacedAttributes tracked with
  | [] =>
    if plan.name = tracked.name ∧ plan.description = tracked.description ∧
        plan.includeByDefault = tracked.includeByDefault ∧ plan.sameRules tracked then .none
    else .update
  | attributes => .replace attributes

/-! ## In JSON -/

def codec : Json.Codec FilterModel where
  shape := .record "TrafficFilterModel" <|
    .field "id" false (.optional .text) <|
    .field "name" false .text <|
    .field "type" false FilterType.codec.shape <|
    .field "region" false .text <|
    .field "description" false (.optional .text) <|
    .field "include_by_default" false .flag <|
    .field "rule" false (.optional (.list (Rule.codecAs "TrafficFilterRuleModel").shape)) .done
  encode m := .object <|
    Json.member? "id" .text m.id ++
    [("name", .text m.name), ("type", FilterType.codec.encode m.type),
      ("region", .text m.region)] ++
    Json.member? "description" .text m.description ++
    [("include_by_default", .flag m.includeByDefault)] ++
    Json.member? "rule" Rule.codec.listOf.encode m.rules
  ofCanonical x :=
    { id := x.textAt? "id"
      name := x.textAt "name"
      type := FilterType.codec.ofCanonical ((x.get? "type").getD .null)
      region := x.textAt "region"
      description := x.textAt? "description"
      includeByDefault := x.flagAt "include_by_default"
      rules := x.listAt? Rule.codec "rule" }

end FilterModel

end TrafficGate
