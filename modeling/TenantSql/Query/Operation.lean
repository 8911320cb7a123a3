import TenantSql.Query.Write

/-!
# The statements of a model

The statements that read rows, and with those that write them every family of
statements that a model gives rise to, all in the order of the families.
-/

namespace TenantSql

open Sql

/-! ## Statements that read rows

One row by its identity, or the rows of an organization page by page; both
either plain or with children and referenced rows filled in. -/

namespace Model

def columnItems (fields : List Field) : List (SelectItem String) :=
  fields.map fun f => .column ⟨some mainAlias, f.column⟩

def nestedOrganization (m : Model) : Option String :=
  if m.isGlobal then none else some Binding.organization

def childItemsOnGet (m : Model) : List (SelectItem String) :=
  m.children.filterMap fun c =>
    (c.subquery? c.onGet m.nestedOrganization (.param Binding.id)).map (.nested · c.getName)

def childItemsOnList (m : Model) : List (SelectItem String) :=
  m.children.filterMap fun c =>
    (c.subquery? c.onList m.nestedOrganization (.column ⟨some mainAlias, "id"⟩)).map
      (.nested · c.listName)

def referencesOnGet (m : Model) : List Reference :=
  m.references.filter Reference.onGet

def referencesOnList (m : Model) : List Reference :=
  m.references.filter Reference.onList

def selectOneStatement (m : Model) (populated : Bool) : Select String where
  items := columnItems m.readableFields ++
    if populated then m.childItemsOnGet ++ m.referencesOnGet.map Reference.joinedItem else []
  table := m.tableName
  tableAlias := mainAlias
  joins := if populated then m.referencesOnGet.map (·.leftJoin !m.isGlobal) else []
  conditions := m.idTests (some mainAlias) ++ m.organizationTest (some mainAlias)

def selectOnePlan (m : Model) (populated : Bool) : Plan where
  name := if populated then "select_one_populated" else "select_one"
  reserved := m.idBindings ++ m.organizationBinding ++ if populated then [Binding.id] else []
  statement := .select (m.selectOneStatement populated)

def listStatement (m : Model) (populated : Bool) (order : Option OrderBy) : Select String where
  items := columnItems m.listFields ++
    if populated then
      m.childItemsOnList ++ m.referencesOnList.map (·.nestedItem !m.isGlobal)
    else []
  table := m.tableName
  tableAlias := mainAlias
  conditions := m.organizationTest (some mainAlias)
  order := order.map (·.term mainAlias)
  page := if m.unpaged then none else some (Binding.limit, Binding.offset)

def listPlan (m : Model) (populated : Bool) (order : Option OrderBy) : Plan where
  name := if populated then "list_populated" else "list"
  reserved := m.organizationBinding
  statement := .select (m.listStatement populated order)

def selectOne? (m : Model) (populated : Bool) : Option Plan :=
  if populated && m.children.isEmpty then none else some (m.selectOnePlan populated)

def list? (m : Model) (populated : Bool) (request : Option String) :
    Except GenerateError (Option Plan) :=
  if populated && m.children.isEmpty then .ok none
  else
    match m.listOrder request with
    | .ok order => .ok (some (m.listPlan populated order))
    | .error e => .error (.order e)

end Model

/-! ## Families of statements -/

namespace Model

def lookupPlan (m : Model) : Except GenerateError Plan :=
  if m.isJoin then
    .error (.unsupported OperationKind.lookupObjectPermissions.name m.name
      "join models have no single object id")
  else .ok { name := "lookup_object_permissions", statement := .lookup m.tierLookup }

def plans (m : Model) : OperationKind → Except GenerateError (List Plan)
  | .insert => .ok [m.insertPlan]
  | .update => .ok [m.updatePlan]
  | .updateOneWithParent => .ok m.updateWithParentPlans
  | .selectOne => .ok (m.selectOne? false).toList
  | .selectOnePopulated => .ok (m.selectOne? true).toList
  | .delete => .ok [m.deletePlan]
  | .deleteChildren => .ok m.deleteChildrenPlans
  | .list => Option.toList <$> m.list? false none
  | .listPopulated => Option.toList <$> m.list? true none
  | .upsert => .ok m.upsertPlans
  | .lookupObjectPermissions => (fun plan => [plan]) <$> m.lookupPlan

def queriesOf (m : Model) (kind : OperationKind) : Except GenerateError (List Query) := do
  (← m.plans kind).mapM Plan.build

def listQuery (m : Model) (populated : Bool) (request : Option String) :
    Except GenerateError (Option Query) := do
  (← m.list? populated request).mapM Plan.build

def applicable (m : Model) (wanted : List OperationKind) : List OperationKind :=
  OperationKind.all.filter fun kind =>
    wanted.contains kind && !(kind == .lookupObjectPermissions && m.isJoin)

def queries (m : Model) (wanted : List OperationKind) : Except GenerateError (List Query) := do
  return (← (m.applicable wanted).mapM m.queriesOf).flatten

end Model

end TenantSql
