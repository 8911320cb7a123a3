import TenantSql.Definition.Link

/-!
# Relations

With all links known, the fields become records, and so do the relations that
reads can fill in: children by the link from the child or from a join table, and
references by the field that holds the id.
-/

namespace TenantSql

structure Typed where
  linked : Linked
  fields : List Field

namespace Typed

def sketch (t : Typed) : Sketch := t.linked.sketch

def name (t : Typed) : String := t.sketch.name

def readableFields (t : Typed) : List Field :=
  t.fields.filter fun f => !f.neverRead

def fieldOf (source : Option String) (s : Sketch) (entries : Entries) :
    Except LoadError Field := do
  let name := entries.getD "name"
  let named := if entries.has "sql_name" then entries else entries.set "sql_name" name
  let fullName := (← Sketch.shown s.table) ++ "." ++ (← Sketch.shown (named.getD "sql_name"))
  (Field.ofEntries (named.set "sql_full_name" (.text fullName))).orShow Field.title source
    name (.field s.name)

def ofLinked (source : Option String) (linked : Linked) : Except LoadError Typed := do
  return ⟨linked, ← linked.fields.mapM (fieldOf source linked.sketch)⟩

def find (all : List Typed) (source : Option String) (owner what name : String) :
    Except LoadError Typed :=
  match all.find? (·.name == name) with
  | some typed => .ok typed
  | none => reject source (.unknownModel owner what name)

def parentColumn? (child parent : Typed) : Option String :=
  (child.linked.parents.find? (·.model == parent.name)).map Parent.column

def outputName (child : Typed) (fetch : FetchType) (many : Bool) : String :=
  let snake := child.sketch.snakeName
  match fetch with
  | .id => if many then snake ++ "_ids" else snake ++ "_id"
  | _ => if many then Text.plural snake else snake

def fetchOf (source : Option String) (owner child : String) (relation : Entries) (key : String) :
    Except LoadError FetchType :=
  match relation.get? key with
  | none => .ok .none
  | some v =>
    let found := match v with
      | .text s => FetchType.ofName? s
      | _ => none
    match found with
    | some fetch => .ok fetch
    | none =>
        reject source (.unknownFetch owner child (if v.isShowable then some v.quoted else none))

def pathOf (all : List Typed) (source : Option String) (owner child : Typed) (relation : Entries) :
    Except LoadError (String × Option Through) := do
  let through := relation.getD "through"
  if through.isTruthy then
    let join ← find all source owner.name "has.through" (← Sketch.shown through)
    match join.linked.join, join.parentColumn? owner, join.parentColumn? child with
    | some _, some fromColumn, some toColumn => do
        let record ← (Through.ofEntries (.ofFields
          [("model", .text join.name), ("schema_name", join.sketch.schema),
            ("table", join.sketch.table), ("to_id_field", .text toColumn)])).orReject Through.title
          source (.through owner.name join.name)
        return (fromColumn, some record)
    | _, _, _ => reject source (.notJoinBetween owner.name join.name child.name)
  else
    match child.parentColumn? owner with
    | some column => return (column, none)
    | none => reject source (.notParentOf owner.name child.name)

def childOf (all : List Typed) (source : Option String) (owner : Typed) (v : Value) :
    Except LoadError Child := do
  let relation ← Linked.relationEntries v
  let child ← find all source owner.name "has" (← Sketch.shown (relation.getD "model"))
  let many := ((relation.get? "many").getD (.bool true)).isTruthy
  let onGet ← fetchOf source owner.name child.name relation "populate_on_get"
  let onList ← fetchOf source owner.name child.name relation "populate_on_list"
  let (column, through) ← pathOf all source owner child relation
  let outputOr := fun key fetch =>
    Sketch.truthyOr relation key (.text (child.outputName fetch many))
  (Child.ofParts (.ofFields
    [("model", .text child.name), ("schema_name", child.sketch.schema),
      ("table", child.sketch.table), ("parent_field", .text column), ("many", .bool many),
      ("populate_on_get", .text onGet.name), ("populate_on_list", .text onList.name),
      ("get_field_name", outputOr "get_field" onGet),
      ("list_field_name", outputOr "list_field" onList)])
    (.ok child.readableFields) (.ok through)).orReject Child.title source
      (.child owner.name child.name)

def childrenOf (all : List Typed) (source : Option String) (owner : Typed) :
    Except LoadError (List Child) := do
  (← Sketch.orFault (owner.sketch.given.getD "has").partsOrNone).mapM (childOf all source owner)

def withoutIdEnding (name : String) : String :=
  let reversed := name.toList.reverse
  if "di_".toList.isPrefixOf reversed then String.ofList (reversed.drop 3).reverse else name

def wantedFields (source : Option String) (owner : String) (reference : Value) (target : Typed)
    (wanted : Value) : Except LoadError (List Field) := do
  let available := target.readableFields
  if !wanted.isTruthy then return available
  let names ← Sketch.orFault wanted.parts
  if !names.all Value.isKey then throw (.fault .wrongKind)
  let unknown ← Sketch.orFault (Value.sorted ((Value.distinct names).filter fun name =>
    !available.any fun f => name.same (.text f.name)))
  if !unknown.isEmpty then
    reject source (.unknownReferenceFields owner (← Sketch.shown reference)
      (← Sketch.shown (.list unknown)) target.name)
  available.filterM fun f => Sketch.orFault (wanted.hasPart f.name)

def referenceOf (all : List Typed) (source : Option String) (owner : Typed) (v : Value) :
    Except LoadError Reference := do
  let entries ← Sketch.orFault v.asEntries
  let model ← match entries.get? "model" with
    | some model => Sketch.shown model
    | none => throw (.fault .missingEntry)
  let target ← match all.find? (·.name == model) with
    | some target => pure target
    | none => throw (.fault .missingEntry)
  let idField := Sketch.truthyOr entries "field" (.text (Linked.idFieldName target.sketch))
  let field ← match owner.fields.find? fun f => idField.same (.text f.name) with
    | some field => pure field
    | none => throw (.fault .notFound)
  let name := Sketch.truthyOr entries "name" (.text (withoutIdEnding field.name))
  let fields ← wantedFields source owner.name name target (entries.getD "fields")
  (Reference.ofParts (.ofFields
    [("name", name), ("full_name", Sketch.truthyOr entries "full_name" name),
      ("model", .text target.name), ("schema_name", target.sketch.schema),
      ("table", target.sketch.table), ("id_field", .text field.column),
      ("on_get", .bool ((entries.get? "on_get").getD (.bool true)).isTruthy),
      ("on_list", .bool (entries.getD "on_list").isTruthy),
      ("is_global", .bool target.sketch.isGlobal)]) (.ok fields)).orShow Reference.title source
      name (.reference owner.name)

def referencesOf (all : List Typed) (source : Option String) (owner : Typed) :
    Except LoadError (List Reference) := do
  (← Sketch.orFault (owner.sketch.given.getD "references").partsOrNone).mapM
    (referenceOf all source owner)

end Typed

end TenantSql
