import TrafficGate.Json.Codec
import TrafficGate.ProjectKind
/-!
# Traffic filters as the API holds them

A traffic filter belongs to a region and lets in the sources that its
rules list: addresses, or endpoints of private links. Projects refer to
filters by id.
-/

namespace TrafficGate

/-- What the rules of a filter name as sources. -/
inductive FilterType where
  | ip
  | vpce
  deriving DecidableEq, Repr, Inhabited

namespace FilterType

def name : FilterType → String
  | ip => "ip"
  | vpce => "vpce"

def names : List String := [ip.name, vpce.name]

/-- The type of a name; the match is exact. -/
def ofName? (s : String) : Option FilterType := [ip, vpce].find? (·.name == s)

def codec : Json.Codec FilterType where
  shape := .word names
  encode t := .text t.name
  ofCanonical x := (x.text?.bind ofName?).getD ip

end FilterType

/-- A source that is let in. -/
structure Rule where
  source : String
  description : Option String
  deriving DecidableEq, Repr, Inhabited

namespace Rule

/-- Rules are in the order of their sources, and those of one source in the
order of their descriptions: none comes first. -/
instance : Ord Rule := ⟨compareLex (compareOn source) (compareOn description)⟩

/-- Whether a rule may stand before another. -/
def le (r s : Rule) : Bool := (compare r s).isLE

/-- Rules in their order, each as often as it is there. -/
def sorted (rules : List Rule) : List Rule := rules.mergeSort le

/-- Rules of a record of the given name. -/
def codecAs (recordName : String) : Json.Codec Rule where
  shape := .record recordName
    (.field "source" true .text (.field "description" false (.optional .text) .done))
  encode r := .object (("source", .text r.source) :: Json.member? "description" .text r.description)
  ofCanonical x := ⟨x.textAt "source", x.textAt? "description"⟩

/-- Rules as the API exchanges them. -/
def codec : Json.Codec Rule := codecAs "TrafficFilterRule"

end Rule

/-- How a project refers to a filter. -/
structure FilterRef where
  id : String
  deriving DecidableEq, Repr, Inhabited

def FilterRef.codec : Json.Codec FilterRef where
  shape := .record "TrafficFilter" (.field "id" true .text .done)
  encode f := .object [("id", .text f.id)]
  ofCanonical x := ⟨x.textAt "id"⟩

/-- A filter as the API reports it. -/
structure FilterInfo where
  id : String
  name : String
  type : FilterType
  region : String
  includeByDefault : Bool
  description : Option String
  rules : List Rule
  deriving DecidableEq, Repr, Inhabited

def FilterInfo.codec : Json.Codec FilterInfo where
  shape := .record "TrafficFilterInfo" <|
    .field "id" true .text <|
    .field "name" true .text <|
    .field "type" true FilterType.codec.shape <|
    .field "region" true .text <|
    .field "include_by_default" false .flag <|
    .field "description" false (.optional .text) <|
    .field "rules" false (.list Rule.codec.shape) .done
  encode f := .object <|
    [("id", .text f.id), ("name", .text f.name), ("type", FilterType.codec.encode f.type),
      ("region", .text f.region), ("include_by_default", .flag f.includeByDefault)] ++
    Json.member? "description" .text f.description ++
    [("rules", (Rule.codec.listOf).encode f.rules)]
  ofCanonical x :=
    { id := x.textAt "id"
      name := x.textAt "name"
      type := FilterType.codec.ofCanonical ((x.get? "type").getD .null)
      region := x.textAt "region"
      includeByDefault := x.flagAt "include_by_default"
      description := x.textAt? "description"
      rules := (x.listAt? Rule.codec "rules").getD [] }

/-- What a new filter is made of. -/
structure FilterCreation where
  name : String := ""
  region : String := ""
  type : FilterType := .ip
  description : Option String := none
  includeByDefault : Option Bool := none
  rules : Option (List Rule) := none
  deriving DecidableEq, Repr, Inhabited

/-- The body of a request for a new filter. What is absent is left out. -/
def FilterCreation.toJson (c : FilterCreation) : Json :=
  .object <|
    [("name", .text c.name), ("region", .text c.region),
      ("type", FilterType.codec.encode c.type)] ++
    Json.member? "description" .text c.description ++
    Json.member? "include_by_default" .flag c.includeByDefault ++
    Json.member? "rules" Rule.codec.listOf.encode c.rules

/-- What is changed of a filter; absent fields stay as they are. -/
structure FilterPatch where
  name : Option String := none
  description : Option String := none
  includeByDefault : Option Bool := none
  rules : Option (List Rule) := none
  deriving DecidableEq, Repr, Inhabited

/-- The body of a request for a change. What is absent is left out. -/
def FilterPatch.toJson (p : FilterPatch) : Json :=
  .object <|
    Json.member? "name" .text p.name ++
    Json.member? "description" .text p.description ++
    Json.member? "include_by_default" .flag p.includeByDefault ++
    Json.member? "rules" Rule.codec.listOf.encode p.rules

end TrafficGate
