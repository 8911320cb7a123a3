import TenantSql.Definition.Sketch

/-!
# Links to parents

A model is linked to the models that it belongs to, joins or refers to: each
link has a field that holds the id of the other model's row.
-/

namespace TenantSql

structure Linked where
  sketch : Sketch
  join : Option Join
  parents : List Parent
  fields : List Entries

namespace Linked

def relationEntries (v : Value) : Except LoadError Entries :=
  match v with
  | .text _ => .ok (.ofFields [("model", v)])
  | other => Sketch.orFault other.asEntries

def parentField (name : Value) (fullTable : String) : Entries :=
  .ofFields [("name", name), ("sql_type", .text SqlType.uuid.name), ("writable", .bool true),
    ("indexed", .bool true), ("references", .text fullTable)]

def idFieldName (other : Sketch) : String :=
  other.snakeName ++ "_id"

def parentRecord (parent : Sketch) (field : Value) (globallyUnique : Bool) :
    Except LoadError Parent :=
  ((Parent.ofEntries (.ofFields
    [("model", .text parent.name), ("model_snake_name", .text parent.snakeName),
      ("field_name", field), ("sql_name", field),
      ("globally_unique", .bool globallyUnique)])).toExcept Parent.title).mapError .refused

def declares (fields : List Entries) (name : Value) : Bool :=
  fields.any fun field => (field.getD "name").same name

def linkJoin (sketches : List Sketch) (source : Option String) (s : Sketch) :
    Except LoadError Linked := do
  match (s.given.getD "joins").bare with
  | .null => return ⟨s, none, [], s.fields⟩
  | .list [first, second] => do
      let named := fun v => do Sketch.find sketches source s.name "joins" (← Sketch.shown v)
      let firstParent ← named first
      let secondParent ← named second
      let ids := (idFieldName firstParent, idFieldName secondParent)
      let firstTable ← firstParent.fullTable
      let firstRecord ← parentRecord firstParent (.text ids.1) false
      let secondTable ← secondParent.fullTable
      let secondRecord ← parentRecord secondParent (.text ids.2) false
      let join ← (Join.make ids (some (firstParent.name, secondParent.name))).orReject Join.title
        source (.join s.name)
      return {
        sketch := s
        join := some join
        parents := [firstRecord, secondRecord]
        fields := parentField (.text ids.1) firstTable :: parentField (.text ids.2) secondTable ::
          s.fields }
  | _ => reject source (.joinsNotTwo s.name)

def linkParent (sketches : List Sketch) (source : Option String) (linked : Linked) (v : Value) :
    Except LoadError Linked := do
  let relation ← relationEntries v
  let parent ← Sketch.find sketches source linked.sketch.name "belongs_to"
    (← Sketch.shown (relation.getD "model"))
  let fullTable ← parent.fullTable
  let name := Sketch.truthyOr relation "field" (.text (idFieldName parent))
  if declares linked.fields name then
    reject source (.parentFieldDeclared linked.sketch.name (← Sketch.shown name))
  let record ← parentRecord parent name (relation.getD "globally_unique").isTruthy
  return { linked with
    fields := linked.fields ++ [parentField name fullTable]
    parents := linked.parents ++ [record] }

def linkReference (sketches : List Sketch) (source : Option String) (linked : Linked) (v : Value) :
    Except LoadError Linked := do
  match v.bare with
  | .object entries =>
      let entries : Entries := entries
      let target ← Sketch.find sketches source linked.sketch.name "references"
        (← Sketch.shown (entries.getD "model"))
      let name := Sketch.truthyOr entries "field" (.text (idFieldName target))
      if declares linked.fields name then return linked
      else
        return { linked with fields := linked.fields ++ [.ofFields
          [("name", name), ("sql_type", .text SqlType.uuid.name), ("nullable", .bool true),
            ("writable", .bool true), ("references", .text (← target.fullTable))]] }
  | _ => reject source (.referenceNotMapping linked.sketch.name)

def resolveReference (sketches : List Sketch) (source : Option String) (owner : String)
    (field : Entries) : Except LoadError Entries := do
  let reference := field.getD "references"
  if !reference.isTruthy then return field
  if ← Sketch.orFault (reference.hasPart ".") then return field
  match reference with
  | .text name =>
      let what := "field '" ++ (← Sketch.shown (field.getD "name")) ++ "'"
      let target ← Sketch.find sketches source owner what name
      return field.set "references" (.text (← target.fullTable))
  | _ => throw (.fault .wrongKind)

def ofSketch (sketches : List Sketch) (source : Option String) (s : Sketch) :
    Except LoadError Linked := do
  let joined ← linkJoin sketches source s
  let parents ← Sketch.orFault (s.given.getD "belongs_to").partsOrNone
  let withParents ← parents.foldlM (linkParent sketches source) joined
  let references ← Sketch.orFault (s.given.getD "references").partsOrNone
  let withReferences ← references.foldlM (linkReference sketches source) withParents
  let fields ← withReferences.fields.mapM (resolveReference sketches source s.name)
  return { withReferences with fields }

end Linked

end TenantSql
