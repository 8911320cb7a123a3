import TenantSql.Proofs.Definition.Accepted

/-!
# Names of accepted models

The names that statements spell without quotes: those of schemas, tables and columns of
a model and of its relations, and the short names of references. However a model was
accepted, they are identifiers. By itself it is read with its relations, whose names are
checked; loaded with a definition it takes them from the models that they lead to. The
names of what is returned are no such names: they stand in quotes.
-/

namespace TenantSql

structure Through.IsNamed (t : Through) : Prop where
  schema : isIdentifier t.schema
  table : isIdentifier t.table
  childColumn : isIdentifier t.childColumn

structure Child.IsNamed (c : Child) : Prop where
  schema : isIdentifier c.schema
  table : isIdentifier c.table
  parentColumn : isIdentifier c.parentColumn
  columns : ∀ f ∈ c.fields, isIdentifier f.column
  through : ∀ t ∈ c.through, t.IsNamed

structure Reference.IsNamed (r : Reference) : Prop where
  name : isIdentifier r.name
  schema : isIdentifier r.schema
  table : isIdentifier r.table
  idColumn : isIdentifier r.idColumn
  columns : ∀ f ∈ r.fields, isIdentifier f.column

structure Model.IsNamed (m : Model) : Prop where
  schema : isIdentifier m.schema
  table : isIdentifier m.table
  authSchema : isIdentifier m.authSchema
  columns : ∀ f ∈ m.fields, isIdentifier f.column
  joinIds : ∀ id ∈ m.joinIdNames, isIdentifier id
  parents : ∀ p ∈ m.parents, isIdentifier p.column
  children : ∀ c ∈ m.children, c.IsNamed
  references : ∀ r ∈ m.references, r.IsNamed

theorem Model.Lawful.isIdentifier_joinId {m : Model} (lawful : m.Lawful)
    (columns : ∀ f ∈ m.fields, isIdentifier f.column) :
    ∀ id ∈ m.joinIdNames, isIdentifier id := by
  intro id among
  obtain ⟨f, held, _, rfl⟩ := lawful.joinIds id among
  exact columns f held

/-! ## Models of a definition -/

section Loaded

variable {models : List Model} (all : ∀ m ∈ models, m.Loaded models)

include all

theorem Child.Leads.isNamed {c : Child} {target : Model} (leads : c.Leads models target) :
    c.IsNamed := by
  have owner := all target leads.listed
  have schema : c.schema = target.schema := congrArg Sql.TableName.schema leads.table
  have table : c.table = target.table := congrArg Sql.TableName.table leads.table
  refine ⟨schema ▸ owner.schema, table ▸ owner.table, leads.column, fun f held => ?_,
    fun through given => ?_⟩
  · rw [leads.fields] at held
    exact owner.columns f (List.mem_filter.mp held).1
  · obtain ⟨join, listed, joins⟩ := leads.indirect through given
    obtain ⟨p, parent, _, column⟩ := joins.childColumn
    have schema : through.schema = join.schema := congrArg Sql.TableName.schema joins.table
    have table : through.table = join.table := congrArg Sql.TableName.table joins.table
    have joined := all join listed
    exact ⟨schema ▸ joined.schema, table ▸ joined.table, column ▸ (joined.parents p parent).1⟩

theorem Reference.Leads.isNamed {r : Reference} {owner target : Model} (member : owner ∈ models)
    (leads : r.Leads models owner target) : r.IsNamed := by
  have other := all target leads.listed
  have schema : r.schema = target.schema := congrArg Sql.TableName.schema leads.table
  have table : r.table = target.table := congrArg Sql.TableName.table leads.table
  obtain ⟨f, held, column⟩ := leads.column
  exact ⟨leads.name, schema ▸ other.schema, table ▸ other.table,
    column ▸ (all owner member).columns f held,
    fun f held => other.columns f (List.mem_filter.mp (leads.fields f held)).1⟩

theorem Model.Loaded.isNamed {m : Model} (member : m ∈ models) : m.IsNamed := by
  have loaded := all m member
  refine ⟨loaded.schema, loaded.table, loaded.authSchema, loaded.columns,
    (Model.lawful_of_rules loaded.rules).isIdentifier_joinId loaded.columns,
    fun p parent => (loaded.parents p parent).1, fun c child => ?_, fun r reference => ?_⟩
  · obtain ⟨target, leads⟩ := loaded.children c child
    exact leads.isNamed all
  · obtain ⟨target, leads⟩ := loaded.references r reference
    exact leads.isNamed all member

end Loaded

/-! ## Records -/

theorem Through.isNamed_of_ofEntries {entries : Entries} : ∀ t,
    ofEntries entries = .ok t → t.IsNamed := by
  simp only [ofEntries, Checked.forall_seqLeft_eq_ok, Checked.forall_seq_eq_ok,
    Checked.forall_map_eq_ok]
  intro _ _ schema readSchema table readTable column readColumn _
  exact ⟨Entries.isIdentifier_of_required readSchema, Entries.isIdentifier_of_required readTable,
    Entries.isIdentifier_of_required readColumn⟩

theorem Child.isNamed_of_ofParts {entries : Entries} {fields : Checked (List Field)}
    {through : Checked (Option Through)}
    (columns : ∀ found, fields = .ok found → ∀ f ∈ found, isIdentifier f.column)
    (joins : ∀ found, through = .ok found → ∀ t ∈ found, t.IsNamed) : ∀ c,
    ofParts entries fields through = .ok c → c.IsNamed := by
  simp only [ofParts, Checked.forall_seq_eq_ok, Checked.forall_map_eq_ok]
  intro _ _ schema readSchema table readTable column readColumn _ _ _ _ _ _ _ _ _ _ found
    readFields joined readThrough
  exact ⟨Entries.isIdentifier_of_required readSchema, Entries.isIdentifier_of_required readTable,
    Entries.isIdentifier_of_required readColumn, columns found readFields,
    joins joined readThrough⟩

theorem Reference.isNamed_of_ofParts {entries : Entries} {fields : Checked (List Field)}
    (columns : ∀ found, fields = .ok found → ∀ f ∈ found, isIdentifier f.column) : ∀ r,
    ofParts entries fields = .ok r → r.IsNamed := by
  simp only [ofParts, Checked.forall_seq_eq_ok, Checked.forall_map_eq_ok]
  intro name readName _ _ _ _ schema readSchema table readTable column readColumn found readFields
  intros
  exact ⟨Entries.isIdentifier_of_required readName, Entries.isIdentifier_of_required readSchema,
    Entries.isIdentifier_of_required readTable, Entries.isIdentifier_of_required readColumn,
    columns found readFields⟩

theorem isIdentifier_of_fields {entries : Entries} {found : List Field}
    (read : entries.optional "fields" [] (Value.readList Field.read) = .ok found) :
    ∀ f ∈ found, isIdentifier f.column := by
  intro f held
  obtain ⟨_, read⟩ := Entries.exists_of_optional_list read held
  exact Field.isIdentifier_of_read read

theorem Child.isNamed_of_read {v : Value} {c : Child} (read : read v = .ok c) : c.IsNamed := by
  obtain ⟨parts, _⟩ := Checked.seqLeft_eq_ok.mp (Value.read_entries read)
  refine isNamed_of_ofParts (fun _ => isIdentifier_of_fields) (fun joined found t given => ?_) c
    parts
  rcases Entries.optional_eq_ok.mp found with ⟨_, _, stated⟩ | ⟨_, rfl⟩
  · rw [Option.mem_def.mp given] at stated
    exact Through.isNamed_of_ofEntries t (Value.read_entries (Value.read_of_readOptional stated))
  · cases given

theorem Reference.isNamed_of_read {v : Value} {r : Reference} (read : read v = .ok r) :
    r.IsNamed := by
  obtain ⟨parts, _⟩ := Checked.seqLeft_eq_ok.mp (Value.read_entries read)
  exact isNamed_of_ofParts (fun _ => isIdentifier_of_fields) r parts

namespace Model

theorem isNamed_of_ofEntries {entries : Entries} {fields : Checked (List Field)} {m : Model}
    (accepted : m.Accepted) (read : ofEntries entries fields = .ok m) : m.IsNamed := by
  have made := isMadeOf_of_ofEntries read
  have own : ∀ name ∈ m.sqlNames, isIdentifier name := fun _ => accepted.isIdentifier_of_mem
  have columns : ∀ f ∈ m.fields, isIdentifier f.column := fun f held =>
    own _ (List.mem_cons_of_mem _ (List.mem_cons_of_mem _ (List.mem_map_of_mem held)))
  refine ⟨own _ List.mem_cons_self, own _ (List.mem_cons_of_mem _ List.mem_cons_self),
    Entries.isIdentifier_of_optional (by decide +kernel) made.authSchema, columns,
    accepted.lawful.isIdentifier_joinId columns, fun p held => (isIdentifier_of_parent read held).2,
    fun c held => ?_, fun r held => ?_⟩
  · obtain ⟨_, read⟩ := Entries.exists_of_optional_list made.children held
    exact Child.isNamed_of_read read
  · obtain ⟨_, read⟩ := Entries.exists_of_optional_list made.references held
    exact Reference.isNamed_of_read read

theorem Accepted.isNamed {m : Model} (accepted : m.Accepted) : m.IsNamed := by
  cases accepted with
  | read read => exact isNamed_of_ofEntries (.read read) (Value.read_entries read)
  | readWithFields each read =>
      exact isNamed_of_ofEntries (.readWithFields each read) (Value.read_entries read)
  | loaded loaded member =>
      exact Loaded.isNamed (fun _ listed => loadModels_loaded loaded listed) member

end Model

end TenantSql
