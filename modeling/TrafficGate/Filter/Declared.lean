import TrafficGate.Filter.Model
import TrafficGate.Yaml.Record
/-!
# Filters declared in files

A model file declares a filter. Every field but the sources of rules may
be left out.
-/

namespace TrafficGate

/-- The type that a scalar names. -/
def FilterType.ofNode? (x : Yaml.Node) : Option FilterType := x.text?.bind ofName?

def Rule.ofNode? (x : Yaml.Node) : Option Rule := do
  let fields ← x.record? ["source", "description"]
  let source ← fields.required? "source" Yaml.Node.text?
  let description ← fields.optional? "description" Yaml.Node.text?
  some ⟨source, description⟩

namespace FilterModel

def fieldNames : List String :=
  ["id", "name", "type", "region", "description", "include_by_default", "rule"]

/-- The filter that a document declares. -/
def ofNode? (x : Yaml.Node) : Option FilterModel := do
  let fields ← x.record? fieldNames
  let id ← fields.optional? "id" Yaml.Node.text?
  let name ← fields.defaulted? "name" Yaml.Node.text? ""
  let type ← fields.defaulted? "type" FilterType.ofNode? .ip
  let region ← fields.defaulted? "region" Yaml.Node.text? ""
  let description ← fields.optional? "description" Yaml.Node.text?
  let includeByDefault ← fields.defaulted? "include_by_default" Yaml.Node.flag? false
  let rules ← fields.optional? "rule" (Yaml.Node.list? Rule.ofNode?)
  some
    { id := id, name := name, type := type, region := region, description := description
      includeByDefault := includeByDefault, rules := rules }

/-- The filter that a file declares. -/
def ofYaml? (bytes : List UInt8) : Option FilterModel := (Yaml.Node.ofBytes? bytes).bind ofNode?

end FilterModel

end TrafficGate
