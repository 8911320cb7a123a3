import TenantSql.Proofs.Definition.Loaded
import TenantSql.Proofs.Model.Rules
import TenantSql.Query.Operation
import TenantSql.Proofs.Sql.Scope

/-!
# Columns of the written table

What models and their relations must be like for statements to name columns that
exist. Statements that write a row name columns of one table: the key, the
organization, the columns of parents and fields, and the time of the change.
-/

namespace TenantSql

open Sql

def HasColumn (models : List Model) (table : TableName) (column : String) : Prop :=
  ∃ m ∈ models, m.tableName = table ∧ ∃ f ∈ m.fields, f.column = column

instance (models : List Model) (table : TableName) (column : String) :
    Decidable (HasColumn models table column) :=
  inferInstanceAs (Decidable (∃ m ∈ models, _ ∧ ∃ f ∈ m.fields, _))

/-- A relation to children names columns that exist: ids are read from a table that has them, and a
join table that is to belong to an organization does. -/
structure Child.Fits (models : List Model) (isGlobal : Bool) (c : Child) (fetch : FetchType) :
    Prop where
  ids : fetch = .id → c.through = none → HasColumn models c.tableName "id"
  joins : fetch ≠ .none → isGlobal = false → ∀ through ∈ c.through,
    HasColumn models through.tableName "organization_id"

instance (models : List Model) (isGlobal : Bool) (c : Child) (fetch : FetchType) :
    Decidable (c.Fits models isGlobal fetch) :=
  decidable_of_iff (_ ∧ _) ⟨fun fits => ⟨fits.1, fits.2⟩, fun fits => ⟨fits.ids, fits.joins⟩⟩

/-- All columns that a reference reads, but for the `id`, are columns of a table. -/
structure Reference.Fits (models : List Model) (isGlobal : Bool) (r : Reference)
    (table : TableName) : Prop where
  fields : ∀ f ∈ r.fields, HasColumn models table f.column
  organization : isGlobal = false → r.isGlobal = false → HasColumn models table "organization_id"

instance (models : List Model) (isGlobal : Bool) (r : Reference) (table : TableName) :
    Decidable (r.Fits models isGlobal table) :=
  decidable_of_iff (_ ∧ _)
    ⟨fun fits => ⟨fits.1, fits.2⟩, fun fits => ⟨fits.fields, fits.organization⟩⟩

structure Model.Fits (models : List Model) (m : Model) : Prop where
  key : m.isJoin = false → HasColumn models m.tableName "id"
  returning : ∀ f ∈ m.readableFields, ∃ g ∈ m.fields, f.fullName = g.qualified m.table
  children : ∀ c ∈ m.children,
    c.Fits models m.isGlobal c.onGet ∧ c.Fits models m.isGlobal c.onList
  references : m.children ≠ [] → ∀ r ∈ m.referencesOnGet, ∀ other ∈ m.referencesOnGet,
    other.name = r.name → r.Fits models m.isGlobal other.tableName

instance (models : List Model) (m : Model) : Decidable (m.Fits models) :=
  decidable_of_iff (_ ∧ _ ∧ _ ∧ _) ⟨fun fits => ⟨fits.1, fits.2.1, fits.2.2.1, fits.2.2.2⟩,
    fun fits => ⟨fits.key, fits.returning, fits.children, fits.references⟩⟩

namespace Model

variable {models : List Model} {m : Model}

/-! ## Columns of the own table -/

theorem hasColumn_own (member : m ∈ models) {f : Field} (held : f ∈ m.fields) :
    HasColumn models m.tableName f.column :=
  ⟨m, member, rfl, f, held, rfl⟩

namespace Loaded

theorem hasStandardColumn (loaded : m.Loaded models) (member : m ∈ models) {name : String}
    (standard : name ∈ m.standardColumns) : HasColumn models m.tableName name := by
  obtain ⟨keys, rest, listed, _, all⟩ := loaded.standard
  obtain ⟨f, held, _, rfl⟩ := all name standard
  exact hasColumn_own member (listed ▸ List.mem_append_right keys held)

theorem hasOrganization (loaded : m.Loaded models) (member : m ∈ models)
    (tenant : m.isGlobal = false) : HasColumn models m.tableName "organization_id" :=
  loaded.hasStandardColumn member (by simp [standardColumns, tenant])

theorem hasParentColumn (loaded : m.Loaded models) (member : m ∈ models) {column : String}
    (parent : m.HasParentColumn column) : HasColumn models m.tableName column := by
  obtain ⟨p, held, rfl⟩ := parent
  obtain ⟨_, f, own, same⟩ := loaded.parents p held
  exact same ▸ hasColumn_own member own

theorem hasIdColumn (loaded : m.Loaded models) (member : m ∈ models) (fits : m.Fits models)
    {column : String} (key : column ∈ m.idColumns.map (·.1)) :
    HasColumn models m.tableName column := by
  cases joined : m.join with
  | none =>
      rw [idColumns, joined, List.map_singleton, List.mem_singleton] at key
      exact key ▸ fits.key (by simp [isJoin, joined])
  | some join =>
      have among : column ∈ m.joinIdNames := by
        simpa [idColumns, joinIdNames, Join.idNames, joined] using key
      obtain ⟨f, held, _, rfl⟩ := (lawful_of_rules loaded.rules).joinIds column among
      exact hasColumn_own member held

theorem hasOtherIdColumn (loaded : m.Loaded models) (member : m ∈ models) (fits : m.Fits models)
    (column : String) : HasColumn models m.tableName (m.otherIdColumn column) := by
  refine loaded.hasIdColumn member fits ?_
  unfold Model.otherIdColumn
  split
  · rename_i join joined
    split <;> simp [idColumns, joined]
  · rename_i joined
    simp [idColumns, joined]

end Loaded

def Reaches (models : List Model) (m : Model) (scopes : List Scope) (owner : Option String) :
    Prop :=
  ∀ name, Column.Known (HasColumn models) scopes ⟨owner, name⟩ ↔ HasColumn models m.tableName name

section Tests

variable {scopes : List Scope} {owner : Option String}

theorem idTests_known (loaded : m.Loaded models) (member : m ∈ models) (fits : m.Fits models)
    (reaches : m.Reaches models scopes owner) :
    ∀ condition ∈ m.idTests owner, condition.Known (HasColumn models) scopes := by
  intro condition tested
  simp only [idTests, idComparisons, List.map_map, List.mem_map, Function.comp_apply] at tested
  obtain ⟨column, among, rfl⟩ := tested
  exact ⟨(reaches _).mpr (loaded.hasIdColumn member fits (List.mem_map_of_mem among)), trivial⟩

theorem organizationTest_known (loaded : m.Loaded models) (member : m ∈ models)
    (reaches : m.Reaches models scopes owner) :
    ∀ condition ∈ m.organizationTest owner, condition.Known (HasColumn models) scopes := by
  intro condition tested
  unfold organizationTest at tested
  split at tested
  · cases tested
  · rename_i tenant
    rw [List.mem_singleton.mp tested]
    exact ⟨(reaches _).mpr (loaded.hasOrganization member (Bool.eq_false_iff.mpr tenant)), trivial⟩

theorem parentTest_known (loaded : m.Loaded models) (member : m ∈ models)
    (reaches : m.Reaches models scopes owner) {p : Parent} (parent : p ∈ m.parents) :
    (Condition.holds (.equals ⟨owner, p.column⟩ (.param Binding.parentId))).Known
      (HasColumn models) scopes :=
  ⟨(reaches _).mpr (loaded.hasParentColumn member ⟨p, parent, rfl⟩), trivial⟩

end Tests

theorem reaches_bare : m.Reaches models [m.tableName.scope] none :=
  fun _ => Column.known_single (by simp [TableName.scope]) (by simp [TableName.scope])
    fun _ same => by cases same

theorem reaches_insertion {s : Insert String} (into : s.table = m.tableName) {owner : Option String}
    (own : ∀ name ∈ owner, name = m.table ∨ name = "EXCLUDED") :
    m.Reaches models [s.scope] owner := by
  refine fun _ => Column.known_single ?_ ?_ fun name stated => ?_
  · simp [Insert.scope, into]
  · simp [Insert.scope]
  · rcases own name stated with rfl | rfl
    · exact ⟨_, List.mem_cons_self, congrArg TableName.table into⟩
    · exact ⟨_, List.mem_cons_of_mem _ List.mem_cons_self, rfl⟩

/-! ## Statements that write -/

theorem touch_known (loaded : m.Loaded models) (member : m ∈ models) {scopes : List Scope}
    (reaches : m.Reaches models scopes none) : touch.Known (HasColumn models) scopes :=
  ⟨(reaches _).mpr (loaded.hasStandardColumn member (by simp [standardColumns, touch])), trivial⟩

theorem insertion_known (loaded : m.Loaded models) (member : m ∈ models) (fits : m.Fits models)
    {fields : List Field} (own : ∀ f ∈ fields, f ∈ m.fields) {conflict : Option (Conflict String)}
    (target : ∀ c ∈ conflict, ∀ column ∈ c.target, HasColumn models m.tableName column)
    (resolution : ∀ c ∈ conflict, c.resolution.Known (HasColumn models)
      [(m.insertion fields conflict).scope]) :
    (m.insertion fields conflict).Known (HasColumn models) := by
  have bare : m.Reaches models [(m.insertion fields conflict).scope] none :=
    reaches_insertion rfl fun _ same => by cases same
  have qualified : m.Reaches models [(m.insertion fields conflict).scope] (some m.table) :=
    reaches_insertion rfl fun _ same => .inl (Option.some.inj same).symm
  refine ⟨fun column listed => (bare column).mpr ?_,
    fun c given column listed => (bare column).mpr (target c given column listed), resolution,
    fun full listed => ?_⟩
  · simp only [insertion, List.mem_append] at listed
    rcases listed with (key | organization) | field
    · exact loaded.hasIdColumn member fits key
    · unfold organizationColumn at organization
      split at organization
      · cases organization
      · rename_i tenant
        rw [List.mem_singleton.mp organization]
        exact loaded.hasOrganization member (Bool.eq_false_iff.mpr tenant)
    · obtain ⟨f, held, rfl⟩ := List.mem_map.mp field
      exact hasColumn_own member (own f held)
  · obtain ⟨f, held, rfl⟩ := List.mem_map.mp listed
    obtain ⟨g, among, same⟩ := fits.returning f held
    exact ⟨g.column, same, (qualified _).mpr (hasColumn_own member among)⟩

theorem update_known (loaded : m.Loaded models) (member : m ∈ models) (fits : m.Fits models)
    {parent : Option Parent} (known : ∀ p ∈ parent, p ∈ m.parents) :
    (m.updateStatement parent).Known (HasColumn models) := by
  refine ⟨fun assignment listed => ?_, fun condition tested => ?_⟩
  · rcases List.mem_append.mp listed with field | touched
    · obtain ⟨f, held, rfl⟩ := List.mem_map.mp field
      exact ⟨(reaches_bare _).mpr (hasColumn_own member (List.mem_filter.mp held).1), trivial⟩
    · rw [List.mem_singleton.mp touched]
      exact touch_known loaded member reaches_bare
  · simp only [List.mem_append] at tested
    rcases tested with (id | ofParent) | organization
    · exact idTests_known loaded member fits reaches_bare condition id
    · cases parent with
      | none => cases ofParent
      | some p =>
          rw [List.mem_singleton.mp ofParent]
          exact parentTest_known loaded member reaches_bare (known p rfl)
    · exact organizationTest_known loaded member reaches_bare condition organization

theorem ofParentTests_known (loaded : m.Loaded models) (member : m ∈ models) {p : Parent}
    (parent : p ∈ m.parents) :
    ∀ condition ∈ m.ofParentTests p,
      condition.Known (HasColumn models) [m.tableName.scope] := by
  intro condition tested
  rcases List.mem_append.mp tested with organization | ofParent
  · exact organizationTest_known loaded member reaches_bare condition organization
  · rw [List.mem_singleton.mp ofParent]
    exact parentTest_known loaded member reaches_bare parent

theorem upsertResolution_known (loaded : m.Loaded models) (member : m ∈ models) {p : Parent}
    (parent : p ∈ m.parents) {s : Insert String} (into : s.table = m.tableName) :
    (m.upsertResolution p).Known (HasColumn models) [s.scope] := by
  have bare : m.Reaches models [s.scope] none := reaches_insertion into fun _ same => by cases same
  have proposed : m.Reaches models [s.scope] (some "EXCLUDED") :=
    reaches_insertion into fun _ same => .inr (Option.some.inj same).symm
  have qualified : m.Reaches models [s.scope] (some m.table) :=
    reaches_insertion into fun _ same => .inl (Option.some.inj same).symm
  unfold upsertResolution
  split
  · trivial
  · refine ⟨fun assignment listed => ?_, fun condition tested => ?_⟩
    · rcases List.mem_append.mp listed with field | touched
      · obtain ⟨f, held, rfl⟩ := List.mem_map.mp field
        have own := hasColumn_own member (List.mem_filter.mp held).1
        exact ⟨(bare _).mpr own, (proposed _).mpr own⟩
      · rw [List.mem_singleton.mp touched]
        exact touch_known loaded member bare
    · rcases List.mem_append.mp tested with organization | ofParent
      · exact organizationTest_known loaded member qualified condition organization
      · rw [List.mem_singleton.mp ofParent]
        exact parentTest_known loaded member qualified parent

theorem upsert_known (loaded : m.Loaded models) (member : m ∈ models) (fits : m.Fits models)
    {p : Parent} (parent : p ∈ m.parents) :
    (m.upsertPlan p).statement.Known (HasColumn models) := by
  refine insertion_known loaded member fits (fun f held => ?_) (fun c given column listed => ?_)
    fun c given => ?_
  · exact (List.mem_filter.mp (List.mem_filter.mp held).1).1
  · obtain rfl := Option.mem_some_iff.mp given
    simp only at listed
    split at listed
    · rw [List.mem_singleton.mp listed]
      exact loaded.hasParentColumn member ⟨p, parent, rfl⟩
    · exact loaded.hasIdColumn member fits listed
  · obtain rfl := Option.mem_some_iff.mp given
    exact upsertResolution_known loaded member parent rfl

theorem delete_known (loaded : m.Loaded models) (member : m ∈ models) (fits : m.Fits models) :
    m.deletePlan.statement.Known (HasColumn models) := by
  intro condition tested
  simp only [List.mem_append] at tested
  rcases tested with (id | organization) | permission
  · exact idTests_known loaded member fits reaches_bare condition id
  · exact organizationTest_known loaded member reaches_bare condition organization
  · split at permission
    · rw [List.mem_singleton.mp permission]
      trivial
    · cases permission

end Model

end TenantSql
