import TenantSql.Query.Identity

/-!
# Nested rows

How a read fills in children and referenced rows: children by a subquery that
matches the parent's id, references by a joined table or a subquery. Where the
parent belongs to an organization, so must the nested rows.
-/

namespace TenantSql

open Sql

variable {π : Type}

def mainAlias : String := "tb"

def objectOf (fields : List Field) (table : Option String) : List (String × Column) :=
  fields.map fun f => (f.name, ⟨table, f.column⟩)

namespace Child

def idTable (c : Child) : TableName :=
  match c.through with
  | some through => ⟨through.schema, through.table⟩
  | none => ⟨c.schema, c.table⟩

def idColumn (c : Child) : String :=
  match c.through with
  | some through => through.childColumn
  | none => "id"

def comparisons (c : Child) (tableAlias : String) (organization : Option π) (parent : Operand π) :
    List (Comparison π) :=
  .equals ⟨some tableAlias, c.parentColumn⟩ parent ::
    match organization with
    | none => []
    | some p => [.equals ⟨some tableAlias, "organization_id"⟩ (.param p)]

def idSubquery (c : Child) (organization : Option π) (parent : Operand π) : Subquery π where
  value := .column ⟨some "ct", c.idColumn⟩
  gathered := if c.many then some "uuid" else none
  table := c.idTable
  tableAlias := "ct"
  join := none
  conditions := c.comparisons "ct" organization parent
  firstOnly := !c.many

def dataSubquery (c : Child) (organization : Option π) (parent : Operand π) : Subquery π :=
  let tableAlias := if c.through.isSome then "tt" else "t"
  { value := .object (objectOf c.fields (some "t"))
    gathered := if c.many then some "jsonb" else none
    table := c.idTable
    tableAlias
    join := c.through.map fun through =>
      { table := ⟨c.schema, c.table⟩
        tableAlias := "t"
        condition := .equals ⟨some "tt", through.childColumn⟩ (.column ⟨some "t", "id"⟩) }
    conditions := c.comparisons tableAlias organization parent
    firstOnly := !c.many }

def subquery? (c : Child) (fetch : FetchType) (organization : Option π) (parent : Operand π) :
    Option (Subquery π) :=
  match fetch with
  | .none => none
  | .id => some (c.idSubquery organization parent)
  | .data => some (c.dataSubquery organization parent)

end Child

namespace Reference

def comparisons (r : Reference) (tenantScoped : Bool) : List (Comparison π) :=
  .equals ⟨some r.tableAlias, "id"⟩ (.column ⟨some mainAlias, r.idColumn⟩) ::
    if tenantScoped && !r.isGlobal then
      [.equals ⟨some r.tableAlias, "organization_id"⟩
        (.column ⟨some mainAlias, "organization_id"⟩)]
    else []

def objectEntries (r : Reference) : List (String × Column) :=
  objectOf r.fields (some r.tableAlias)

def joinedItem (r : Reference) : SelectItem π :=
  .joined r.tableAlias r.objectEntries r.outputName

def leftJoin (r : Reference) (tenantScoped : Bool) : LeftJoin π where
  table := ⟨r.schema, r.table⟩
  tableAlias := r.tableAlias
  conditions := r.comparisons tenantScoped

def nestedItem (r : Reference) (tenantScoped : Bool) : SelectItem π :=
  .nested
    { value := .object r.objectEntries
      gathered := none
      table := ⟨r.schema, r.table⟩
      tableAlias := r.tableAlias
      join := none
      conditions := r.comparisons tenantScoped
      firstOnly := false }
    r.outputName

end Reference

end TenantSql
