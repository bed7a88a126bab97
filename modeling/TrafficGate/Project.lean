import TrafficGate.Filter.Basic
/-!
# Projects as the API holds them

The record of a project, which embeds the list of the filters attached
to it. The three kinds share all fields but one, whose name depends on
the kind and which plays no part here.
-/

namespace TrafficGate

namespace ProjectKind

/-- The name of the record of a project of this kind. -/
def recordName : ProjectKind → String
  | elasticsearch => "ElasticsearchProject"
  | observability => "ObservabilityProject"
  | security => "SecurityProject"

/-- The name of the field that only this kind has. -/
def ownField : ProjectKind → String
  | elasticsearch => "optimized_for"
  | observability => "product_tier"
  | security => "admin_features_package"

def codec : Json.Codec ProjectKind where
  shape := .word (all.map name)
  encode k := .text k.name
  ofCanonical x := (x.text?.bind ofName?).getD elasticsearch

end ProjectKind

/-- A project. -/
structure Project where
  id : String
  name : String
  aliasName : Option String := none
  regionId : Option String := none
  /-- The field that only projects of its kind have. -/
  own : Option String := none
  filters : Option (List FilterRef) := none
  deriving DecidableEq, Repr, Inhabited

namespace Project

/-- Projects of a kind. -/
def codec (kind : ProjectKind) : Json.Codec Project where
  shape := .record kind.recordName <|
    .field "id" true .text <|
    .field "name" true .text <|
    .field "alias" false (.optional .text) <|
    .field "region_id" false (.optional .text) <|
    .field kind.ownField false (.optional .text) <|
    .field "traffic_filters" false (.optional (.list FilterRef.codec.shape)) .done
  encode p := .object <|
    [("id", .text p.id), ("name", .text p.name)] ++
    Json.member? "alias" .text p.aliasName ++
    Json.member? "region_id" .text p.regionId ++
    Json.member? kind.ownField .text p.own ++
    Json.member? "traffic_filters" FilterRef.codec.listOf.encode p.filters
  ofCanonical x :=
    { id := x.textAt "id"
      name := x.textAt "name"
      aliasName := x.textAt? "alias"
      regionId := x.textAt? "region_id"
      own := x.textAt? kind.ownField
      filters := x.listAt? FilterRef.codec "traffic_filters" }

end Project

/-- The whole list of filters that a project is to have. -/
structure ProjectPatch where
  filters : Option (List FilterRef)
  deriving DecidableEq, Repr, Inhabited

/-- The body of a request that replaces the list. An absent list is
written as null. -/
def ProjectPatch.toJson (p : ProjectPatch) : Json :=
  .object [("traffic_filters", (FilterRef.codec.listOf.orNull).encode p.filters)]

end TrafficGate
