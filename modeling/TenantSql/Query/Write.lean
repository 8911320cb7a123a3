import TenantSql.Query.Identity
import TenantSql.Query.Plan

/-!
# Statements that write rows

Insertion, change and deletion of rows, and the insertion of a child that
changes the row in its way. A row of an organization is written with the
organization or found by it, under a test of the actors' permissions where the
model asks for one; the values come in the order of the bindings.
-/

namespace TenantSql

open Sql

/-! ## Permissions

The tests of the permission tables. The names of permissions are constants of a
model; organization, actors and object are parameters. The administrator of an
organization holds every permission in it. -/

namespace Permission

def admin : String := "org_admin"

def column (name : String) : Column :=
  { name := name }

def ofActors : List (Comparison String) :=
  [.equals (column "organization_id") (.param Binding.organization),
    .inArray (column "actor_id") Binding.actorIds]

end Permission

namespace Model

open Permission

def permissionCheck (m : Model) (permissions : List String) : Condition String :=
  .someRow ⟨m.authSchema, "permissions"⟩ (ofActors ++ [.oneOf (column "permission") permissions])

def tierLookup (m : Model) : TierLookup String where
  tiers := [(.oneOf [admin, m.ownerPermission], "owner"), (.exactly m.writePermission, "write"),
    (.exactly m.readPermission, "read")]
  table := ⟨m.authSchema, "object_permissions"⟩
  conditions := ofActors ++
    [.equals (column "object_id") (.param Binding.id),
      .oneOf (column "permission")
        [admin, m.ownerPermission, m.writePermission, m.readPermission]]

end Model

/-! ## Insertion, change and deletion -/

namespace Model

def bare (column : String) : Column :=
  { name := column }

def organizationBinding (m : Model) : List String :=
  if m.isGlobal then [] else [Binding.organization]

def organizationColumn (m : Model) : List String :=
  if m.isGlobal then [] else ["organization_id"]

def organizationTest (m : Model) (tableAlias : Option String) : List (Condition String) :=
  if m.isGlobal then []
  else [.holds (.equals ⟨tableAlias, "organization_id"⟩ (.param Binding.organization))]

def idTests (m : Model) (tableAlias : Option String) : List (Condition String) :=
  (m.idComparisons tableAlias).map .holds

def returning (m : Model) : List String :=
  m.readableFields.map Field.fullName

def fieldAssignment (f : Field) : Assignment String :=
  ⟨f.column, .param f.name⟩

def touch : Assignment String :=
  ⟨"updated_at", .now⟩

def insertion (m : Model) (fields : List Field) (conflict : Option (Conflict String)) :
    Insert String where
  table := m.tableName
  columns := m.idColumns.map (·.1) ++ m.organizationColumn ++ fields.map Field.column
  values := m.idBindings ++ m.organizationBinding ++ fields.map Field.name
  conflict := conflict
  returning := m.returning

def insertPlan (m : Model) : Plan where
  name := "insert"
  statement := .insert (m.insertion m.ownerWritableFields none)
  fields := m.ownerWritableFields.map Field.name

def updateStatement (m : Model) (parent : Option Parent) : Statement String :=
  let parentTest := match parent with
    | none => []
    | some p => [.holds (.equals (bare p.column) (.param Binding.parentId))]
  .update m.tableName (m.writableFields.map fieldAssignment ++ [touch])
    (m.idTests none ++ parentTest ++ m.organizationTest none)

def updatePlan (m : Model) : Plan where
  name := "update"
  reserved := m.idBindings
  statement := m.updateStatement none
  fields := m.writableFields.map Field.name

def updateWithParentPlan (m : Model) (p : Parent) : Plan where
  name := "update_one_with_parent_of_" ++ p.snakeName
  reserved := m.idBindings
  statement := m.updateStatement (some p)
  fields := m.writableFields.map Field.name

def updateWithParentPlans (m : Model) : List Plan :=
  if m.isJoin then [] else m.parents.map m.updateWithParentPlan

def deletePlan (m : Model) : Plan where
  name := "delete"
  statement := .delete m.tableName
    (m.idTests none ++ m.organizationTest none ++
      if m.checksPermission then [m.permissionCheck [m.ownerPermission]] else [])

def ofParentTests (m : Model) (p : Parent) : List (Condition String) :=
  m.organizationTest none ++ [.holds (.equals (bare p.column) (.param Binding.parentId))]

def deleteAllChildrenPlan (m : Model) (p : Parent) : Plan where
  name := "delete_all_children_of_" ++ p.snakeName
  statement := .delete m.tableName (m.ofParentTests p)

def deleteRemovedChildrenPlan (m : Model) (p : Parent) : Plan where
  name := "delete_removed_children_of_" ++ p.snakeName
  statement := .delete m.tableName
    (m.ofParentTests p ++ [.holds (.notInArray (bare (m.otherIdColumn p.column)) Binding.ids)])

def deleteWithParentPlan (m : Model) (p : Parent) : Plan where
  name := "delete_with_parent_of_" ++ p.snakeName
  statement := .delete m.tableName (m.ofParentTests p ++ m.idTests none)

def deleteChildrenPlans (m : Model) : List Plan :=
  m.parents.flatMap fun p =>
    [m.deleteAllChildrenPlan p, m.deleteRemovedChildrenPlan p, m.deleteWithParentPlan p]

/-- The fields that an insertion may change in the row in its way: what writers may set, and for a
join table with one row per parent also the id of the other parent. -/
def upsertFields (m : Model) (p : Parent) : List Field :=
  m.fields.filter fun f =>
    !(["id", "organization_id"].contains f.name) &&
      (f.writable && !m.joinIdNames.contains f.name ||
        p.globallyUnique && m.joinIdNames.contains f.name && f.name != p.fieldName)

def upsertDataFields (m : Model) (p : Parent) : List Field :=
  (m.upsertFields p).filter fun f => !(m.idColumns.map (·.1)).contains f.name

def upsertResolution (m : Model) (p : Parent) : Resolution String :=
  if (m.upsertFields p).isEmpty then .keep
  else
    .change ((m.upsertFields p).map (fun f => ⟨f.column, .proposed⟩) ++ [touch])
      (m.organizationTest (some m.table) ++
        [.holds (.equals ⟨some m.table, p.column⟩ (.param Binding.parentId))])

def upsertPlan (m : Model) (p : Parent) : Plan where
  name := "upsert_single_child_of_" ++ p.snakeName
  statement := .insert (m.insertion (m.upsertDataFields p) (some
    { target := if p.globallyUnique then [p.column] else m.idColumns.map (·.1)
      resolution := m.upsertResolution p }))
  fields := (m.upsertDataFields p).map Field.name

def upsertPlans (m : Model) : List Plan :=
  m.parents.map m.upsertPlan

end Model

end TenantSql
