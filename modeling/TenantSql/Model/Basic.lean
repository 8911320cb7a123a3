import TenantSql.Model.Relation
import TenantSql.Text.Order

/-!
# Models

A model is a table with its fields and relations and with what its statements
need to know: the permissions, whether deletes check them, the default order,
and extra indexes. A model belongs to an organization unless it is global; it is
keyed by `id`, or by the ids of its two parents if it is a join table.
-/

namespace TenantSql

structure Model where
  name : String
  moduleName : String
  schema : String
  table : String
  isGlobal : Bool
  fields : List Field
  join : Option Join
  parents : List Parent
  children : List Child
  references : List Reference
  authSchema : String
  ownerPermission : String
  writePermission : String
  readPermission : String
  checksPermission : Bool
  unpaged : Bool
  defaultSort : Option String
  indexes : List (List String)
  deriving DecidableEq, Repr, Inhabited

namespace Model

def title : String := "ModelSchema"

def fullTable (m : Model) : String :=
  m.schema ++ "." ++ m.table

def isJoin (m : Model) : Bool :=
  m.join.isSome

def field? (m : Model) (name : String) : Option Field :=
  m.fields.find? (·.name == name)

def joinIdNames (m : Model) : List String :=
  (m.join.map Join.idNames).getD []

def readableFields (m : Model) : List Field :=
  m.fields.filter fun f => !f.neverRead

def listFields (m : Model) : List Field :=
  m.fields.filter fun f => !f.neverRead && !f.omitInList

def identityNames (m : Model) : List String :=
  m.joinIdNames ++ ["id", "organization_id"]

def writableFields (m : Model) : List Field :=
  m.fields.filter fun f => f.writable && !m.identityNames.contains f.name

def ownerWritableFields (m : Model) : List Field :=
  m.fields.filter fun f => f.ownerWritable && !m.identityNames.contains f.name

def sortableFields (m : Model) : List Field :=
  m.fields.filter fun f => f.sortable != .none

def describe (m : Model) : String :=
  let kind := if m.isJoin then "join" else if m.isGlobal then "global" else "tenant"
  s!"<ModelSchema {m.name} {m.fullTable} ({kind}, {m.fields.length} fields)>"

end Model

end TenantSql

namespace TenantSql.Model

/-! ## The rules of a single model

Names and columns are unique; a join table has the ids of both parents and neither an
`id` nor children, and any other table has one `id`; a table belongs to an organization
or is global. -/

def sharedNameBreach? (m : Model) : Option Breach :=
  let names := Text.repeated (m.fields.map Field.name)
  let columns := Text.repeated (m.fields.map Field.column)
  if !names.isEmpty then some (.duplicateNames m.name "field" names)
  else if !columns.isEmpty then some (.duplicateNames m.name "column" columns)
  else none

def joinBreach? (m : Model) (join : Join) : Option Breach :=
  let names := m.fields.map Field.name
  let missing := join.idNames.filter fun id => !names.contains id
  let renamed := m.fields.filter fun f => join.idNames.contains f.name && f.column != f.name
  if !missing.isEmpty then some (.missingJoinIds m.name missing)
  else if !renamed.isEmpty then some (.renamedJoinIds m.name (renamed.map Field.name))
  else if names.contains "id" then some (.joinWithId m.name)
  else if !m.children.isEmpty then some (.joinWithChildren m.name)
  else none

def identityBreach? (m : Model) : Option Breach :=
  match m.join with
  | some join => m.joinBreach? join
  | none => if (m.fields.map Field.name).count "id" == 1 then none else some (.notOneId m.name)

def tenancyBreach? (m : Model) : Option Breach :=
  let hasOrganization := (m.fields.map Field.name).contains "organization_id"
  if m.isGlobal && hasOrganization then some (.globalWithOrganization m.name)
  else if !m.isGlobal && !hasOrganization then some (.tenantWithoutOrganization m.name)
  else none

def breach? (m : Model) : Option Breach :=
  m.sharedNameBreach?.or (m.identityBreach?.or m.tenancyBreach?)

def checkRules (m : Model) : Checked Model :=
  match m.breach? with
  | none => .ok m
  | some breach => .refuse (.breach breach)

end TenantSql.Model
