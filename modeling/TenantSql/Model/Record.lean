import TenantSql.Model.Basic
import TenantSql.Model.Settings

/-!
# Records

A model and its parts as values: every entry under the name by which it is read,
and the entries that follow from others after them.
-/

namespace TenantSql

namespace Value

def ofTexts (items : List String) : Value :=
  .list (items.map .text)

def ofPair (p : String × String) : Value :=
  .ofTexts [p.1, p.2]

def ofOption {α : Type} (write : α → Value) : Option α → Value
  | some a => write a
  | none => .null

end Value

def Field.toValue (f : Field) : Value := .ofFields
  [("name", .text f.name), ("sql_name", .text f.column), ("sql_full_name", .text f.fullName),
    ("sql_type", .text f.sqlType.name), ("nullable", .bool f.nullable), ("unique", .bool f.unique),
    ("indexed", .bool f.indexed), ("owner_write", .bool f.ownerWrite),
    ("writable", .bool f.writable), ("never_read", .bool f.neverRead),
    ("omit_in_list", .bool f.omitInList), ("sortable", .text f.sortable.name),
    ("default_sql", .ofOption .text f.defaultSql), ("references", .ofOption .text f.references),
    ("owner_writable", .bool f.ownerWritable)]

def Join.toValue (j : Join) : Value := .ofFields
  [("model_ids", .ofPair j.ids), ("models", .ofOption .ofPair j.models)]

def Parent.toValue (p : Parent) : Value := .ofFields
  [("model", .text p.model), ("model_snake_name", .text p.snakeName),
    ("field_name", .text p.fieldName), ("sql_name", .text p.column),
    ("globally_unique", .bool p.globallyUnique)]

def Through.toValue (t : Through) : Value := .ofFields
  [("model", .text t.model), ("schema_name", .text t.schema), ("table", .text t.table),
    ("to_id_field", .text t.childColumn)]

def Child.toValue (c : Child) : Value := .ofFields
  [("model", .text c.model), ("schema_name", .text c.schema), ("table", .text c.table),
    ("parent_field", .text c.parentColumn), ("many", .bool c.many),
    ("populate_on_get", .text c.onGet.name), ("populate_on_list", .text c.onList.name),
    ("get_field_name", .text c.getName), ("list_field_name", .text c.listName),
    ("fields", .list (c.fields.map Field.toValue)),
    ("through", .ofOption Through.toValue c.through)]

def Reference.toValue (r : Reference) : Value := .ofFields
  [("name", .text r.name), ("full_name", .text r.outputName), ("model", .text r.model),
    ("schema_name", .text r.schema), ("table", .text r.table), ("id_field", .text r.idColumn),
    ("fields", .list (r.fields.map Field.toValue)), ("on_get", .bool r.onGet),
    ("on_list", .bool r.onList), ("is_global", .bool r.isGlobal), ("alias", .text r.tableAlias)]

def Model.toValue (m : Model) : Value := .ofFields
  [("name", .text m.name), ("module_name", .text m.moduleName), ("schema_name", .text m.schema),
    ("table", .text m.table), ("is_global", .bool m.isGlobal),
    ("fields", .list (m.fields.map Field.toValue)), ("join", .ofOption Join.toValue m.join),
    ("belongs_to", .list (m.parents.map Parent.toValue)),
    ("children", .list (m.children.map Child.toValue)),
    ("reference_populations", .list (m.references.map Reference.toValue)),
    ("auth_schema", .text m.authSchema), ("owner_permission", .text m.ownerPermission),
    ("write_permission", .text m.writePermission), ("read_permission", .text m.readPermission),
    ("auth_check_in_query", .bool m.checksPermission), ("pagination_disabled", .bool m.unpaged),
    ("default_sort", .ofOption .text m.defaultSort),
    ("indexes", .list (m.indexes.map .ofTexts)), ("full_table", .text m.fullTable)]

def Settings.toValue (s : Settings) : Value := .ofFields
  [("project_name", .text s.projectName), ("project_version", .text s.projectVersion),
    ("output_dir", .text s.outputDir), ("default_schema", .text s.defaultSchema),
    ("auth_schema", .text s.authSchema), ("operations", .ofTexts (s.operations.map (·.name))),
    ("generate_migrations", .bool s.migrations), ("formatter", .ofOption .ofTexts s.formatter),
    ("auto_detect_formatter", .bool s.detectFormatter),
    ("max_workers", .ofOption (fun n : Nat => .int n) s.workers),
    ("overwrite_existing", .bool s.overwrite)]

end TenantSql
