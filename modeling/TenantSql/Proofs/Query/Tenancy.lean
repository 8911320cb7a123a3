import Mathlib.Data.List.Nodup
import TenantSql.Proofs.Definition.Parents
import TenantSql.Proofs.Query.Closure

/-!
# Tenancy

Every statement of a model that belongs to organizations is bound to one of them:
it finds rows by the organization, and inserts rows with it. No row is moved to
another organization either, unless a field that may be written is stored in a
column whose name is read as that of the organization.
-/

namespace TenantSql

open Sql

namespace Sql

def ofOrganization (owner : Option String) : Condition String :=
  .holds (.equals ⟨owner, "organization_id"⟩ (.param Binding.organization))

def Resolution.BoundTo (table : String) : Resolution String → Prop
  | .keep => True
  | .change _ conditions => ofOrganization (some table) ∈ conditions

/-- A statement about a table is bound to the organization: an insertion gives it to the
organization's column, among its values only there, and changes a row in the way only if the row
belongs to it; any other statement tests for the organization in its outermost `WHERE`. -/
def Statement.BoundTo (table : TableName) : Statement String → Prop
  | .insert s =>
      s.table = table ∧
        (∃ place : Nat, s.columns[place]? = some "organization_id" ∧
          ∀ i : Nat, s.values[i]? = some Binding.organization ↔ i = place) ∧
        ∀ conflict ∈ s.conflict, conflict.resolution.BoundTo table.table
  | .update target _ conditions => target = table ∧ ofOrganization none ∈ conditions
  | .delete target conditions => target = table ∧ ofOrganization none ∈ conditions
  | .select s => s.table = table ∧ ofOrganization (some s.tableAlias) ∈ s.conditions
  | .lookup s => ofOrganization none ∈ (Statement.lookup s).conditions

/-- No assignment is to a column that is read as the organization's, and none takes the organization
for something else. -/
def KeepsOrganization (assignments : List (Assignment String)) : Prop :=
  ∀ assignment ∈ assignments,
    readName assignment.column ≠ "organization_id" ∧ assignment.value ≠ .param Binding.organization

def Resolution.KeepsOrganization : Resolution String → Prop
  | .keep => True
  | .change assignments _ => Sql.KeepsOrganization assignments

/-- No row is moved to another organization: nothing is assigned to a column that is read as the
organization's, and an insertion gives no such column another value. -/
def Statement.KeepsOrganization : Statement String → Prop
  | .insert s =>
      (∀ i : Nat, (s.columns.map readName)[i]? = some "organization_id" →
          s.values[i]? = some Binding.organization) ∧
        ∀ conflict ∈ s.conflict, conflict.resolution.KeepsOrganization
  | .update _ assignments _ => Sql.KeepsOrganization assignments
  | .delete .. | .select _ | .lookup _ => True

end Sql

namespace Model

variable {models : List Model} {m : Model}

theorem organizationTest_eq (tenant : m.isGlobal = false) (tableAlias : Option String) :
    m.organizationTest tableAlias = [ofOrganization tableAlias] := by
  rw [organizationTest, tenant]
  rfl

/-! ## Names that data is bound under -/

theorem organization_not_mem_idBindings (m : Model) : Binding.organization ∉ m.idBindings := by
  cases joined : m.join with
  | none => simp [idBindings, idColumns, joined, Binding.organization, Binding.id]
  | some join =>
      simp [idBindings, idColumns, joined, Binding.organization, Binding.joinId0, Binding.joinId1]

theorem name_ne_of_mem_writableFields {f : Field}
    (member : f ∈ m.writableFields ∨ f ∈ m.ownerWritableFields) :
    f ∈ m.fields ∧ f.name ≠ "organization_id" := by
  have other {allowed : Bool} (settable : (allowed && !m.identityNames.contains f.name) = true) :
      f.name ≠ "organization_id" := by
    intro same
    simp [identityNames, same] at settable
  rcases member with member | member
  · exact ⟨(List.mem_filter.mp member).1, other (List.mem_filter.mp member).2⟩
  · exact ⟨(List.mem_filter.mp member).1, other (List.mem_filter.mp member).2⟩

theorem name_ne_of_mem_upsertFields {p : Parent} {f : Field} (member : f ∈ m.upsertFields p) :
    f ∈ m.fields ∧ f.name ≠ "organization_id" := by
  obtain ⟨held, settable⟩ := List.mem_filter.mp member
  refine ⟨held, fun same => ?_⟩
  simp [same] at settable

theorem name_ne_of_mem_upsertDataFields {p : Parent} {f : Field}
    (member : f ∈ m.upsertDataFields p) : f.name ≠ "organization_id" :=
  (name_ne_of_mem_upsertFields (List.mem_filter.mp member).1).2

theorem organization_not_mem_names {fields : List Field}
    (own : ∀ f ∈ fields, f.name ≠ "organization_id") :
    Binding.organization ∉ fields.map Field.name := by
  intro among
  obtain ⟨f, held, name⟩ := List.mem_map.mp among
  exact own f held name

theorem HasPlan.organization_not_mem_fields {p : Plan} (plan : m.HasPlan p) :
    "organization_id" ∉ p.fields := by
  cases plan with
  | insert =>
      exact organization_not_mem_names fun f held => (name_ne_of_mem_writableFields (.inr held)).2
  | update | updateWithParent =>
      exact organization_not_mem_names fun f held => (name_ne_of_mem_writableFields (.inl held)).2
  | upsert => exact organization_not_mem_names fun f held => name_ne_of_mem_upsertDataFields held
  | selectOne | delete | deleteAllChildren | deleteRemovedChildren | deleteWithParent | list | lookup =>
      exact List.not_mem_nil

/-! ## Statements are bound to the organization -/

/-- An item that occurs neither before nor after a place occurs in that place only. -/
theorem getElem?_eq_some_middle {α : Type} {front back : List α} {a : α} (before : a ∉ front)
    (after : a ∉ back) {i : Nat} : (front ++ [a] ++ back)[i]? = some a ↔ i = front.length := by
  rw [List.append_assoc]
  rcases Nat.lt_trichotomy i front.length with low | rfl | high
  · rw [List.getElem?_append_left low]
    exact ⟨fun found => absurd (List.mem_of_getElem? found) before, fun same => by omega⟩
  · simp
  · rw [List.getElem?_append_right (Nat.le_of_lt high), List.getElem?_append_right (by simp; omega)]
    exact ⟨fun found => absurd (List.mem_of_getElem? found) after, fun same => by omega⟩

theorem organization_place (tenant : m.isGlobal = false) {fields : List Field}
    (own : ∀ f ∈ fields, f.name ≠ "organization_id") (conflict : Option (Conflict String))
    (i : Nat) : (m.insertion fields conflict).values[i]? = some Binding.organization ↔
      i = m.idColumns.length := by
  have place := getElem?_eq_some_middle m.organization_not_mem_idBindings
    (organization_not_mem_names own) (i := i)
  rw [idBindings, List.length_map] at place
  simpa [insertion, organizationBinding, tenant, idBindings] using place

theorem insertion_boundTo (tenant : m.isGlobal = false) {fields : List Field}
    (own : ∀ f ∈ fields, f.name ≠ "organization_id") {conflict : Option (Conflict String)}
    (bound : ∀ given ∈ conflict, given.resolution.BoundTo m.table) :
    (Statement.insert (m.insertion fields conflict)).BoundTo m.tableName := by
  refine ⟨rfl, ⟨m.idColumns.length, ?_, organization_place tenant own conflict⟩, bound⟩
  simp [insertion, organizationColumn, tenant]

theorem updateStatement_boundTo (tenant : m.isGlobal = false) (parent : Option Parent) :
    (m.updateStatement parent).BoundTo m.tableName := by
  refine ⟨rfl, ?_⟩
  rw [organizationTest_eq tenant]
  exact List.mem_append_right _ (List.mem_singleton_self _)

theorem upsertResolution_boundTo (tenant : m.isGlobal = false) (p : Parent) :
    (m.upsertResolution p).BoundTo m.table := by
  unfold upsertResolution
  split
  · trivial
  · rw [organizationTest_eq tenant]
    exact List.mem_append_left _ (List.mem_singleton_self _)

theorem ofOrganization_mem_ofParentTests (tenant : m.isGlobal = false) (p : Parent) :
    ofOrganization none ∈ m.ofParentTests p := by
  rw [ofParentTests, organizationTest_eq tenant]
  exact List.mem_append_left _ (List.mem_singleton_self _)

/-- Every statement of a model that belongs to organizations is bound to one of them. -/
theorem HasPlan.boundTo (tenant : m.isGlobal = false) {p : Plan} (plan : m.HasPlan p) :
    p.statement.BoundTo m.tableName := by
  cases plan with
  | insert =>
      exact insertion_boundTo tenant (fun f held => (name_ne_of_mem_writableFields (.inr held)).2)
        nofun
  | update => exact updateStatement_boundTo tenant none
  | @updateWithParent q => exact updateStatement_boundTo tenant (some q)
  | selectOne children =>
      refine ⟨rfl, ?_⟩
      simp [selectOneStatement, organizationTest_eq tenant]
  | delete =>
      refine ⟨rfl, ?_⟩
      simp [organizationTest_eq tenant]
  | @deleteAllChildren q parent => exact ⟨rfl, ofOrganization_mem_ofParentTests tenant q⟩
  | @deleteRemovedChildren q parent =>
      exact ⟨rfl, List.mem_append_left _ (ofOrganization_mem_ofParentTests tenant q)⟩
  | @deleteWithParent q parent =>
      exact ⟨rfl, List.mem_append_left _ (ofOrganization_mem_ofParentTests tenant q)⟩
  | list children admitted =>
      refine ⟨rfl, ?_⟩
      simp [listStatement, organizationTest_eq tenant]
  | @upsert q parent =>
      refine insertion_boundTo tenant (fun f held => name_ne_of_mem_upsertDataFields held) ?_
      rintro _ ⟨⟩
      exact upsertResolution_boundTo tenant q
  | lookup plain => simp [Statement.BoundTo, Statement.conditions, tierLookup, Permission.ofActors,
      Permission.column, ofOrganization]

theorem organization_mem_params {s : Statement String} {table : TableName}
    (bound : s.BoundTo table) : Binding.organization ∈ s.fragment.params := by
  cases s with
  | insert s =>
      obtain ⟨_, ⟨place, _, only⟩, _⟩ := bound
      exact Insert.mem_params_of_value (List.mem_of_getElem? ((only place).mpr rfl))
  | update target assignments conditions => exact mem_params_of_equals bound.2
  | delete target conditions => exact mem_params_of_equals bound.2
  | select s => exact mem_params_of_equals bound.2
  | lookup s => exact mem_params_of_equals bound

/-! ## Columns that are read as the organization's -/

def StoresApart (m : Model) : Prop :=
  ∀ f ∈ m.ownerWritableFields, readName f.column ≠ "organization_id"

instance (m : Model) : Decidable m.StoresApart :=
  inferInstanceAs (Decidable (∀ f ∈ m.ownerWritableFields, _))

theorem mem_ownerWritableFields {f : Field} (member : f ∈ m.writableFields) :
    f ∈ m.ownerWritableFields := by
  obtain ⟨held, settable⟩ := List.mem_filter.mp member
  refine List.mem_filter.mpr ⟨held, ?_⟩
  rw [Bool.and_eq_true] at settable ⊢
  exact ⟨by rw [Field.ownerWritable, settable.1, Bool.or_true], settable.2⟩

namespace Loaded

theorem organization_not_mem_idColumns (loaded : m.Loaded models) (tenant : m.isGlobal = false) :
    "organization_id" ∉ m.idColumns.map (·.1) := by
  cases joined : m.join with
  | none => simp [idColumns, joined]
  | some join =>
      obtain ⟨keys, rest, listed, keyed, standard⟩ := loaded.standard
      obtain ⟨g, held, name, _⟩ := standard "organization_id" (by simp [standardColumns, tenant])
      have names := (lawful_of_rules loaded.rules).names
      rw [listed, List.map_append, List.nodup_append] at names
      have ids : m.idColumns.map (·.1) = keys.map Field.name := by
        rw [keyed join joined]
        simp [idColumns, joined, Join.idNames]
      rw [ids]
      exact fun among => names.2.2 _ among _ (List.mem_map_of_mem held) name.symm

theorem readName_idColumn (loaded : m.Loaded models) (orders : m.OrdersParents)
    {column : String} (key : column ∈ m.idColumns.map (·.1)) : readName column = column := by
  cases joined : m.join with
  | none =>
      have same : column = "id" := by simpa [idColumns, joined] using key
      rw [same]
      decide
  | some join =>
      obtain ⟨p, q, others, parents, ids, _⟩ := orders.heads join joined
      obtain ⟨first, second, ends⟩ := orders.ids join joined
      have read {r : Parent} (listed : r ∈ m.parents) {start : String}
          (ends : r.column = start ++ "_id") : readName r.column = r.column :=
        readName_eq_self (loaded.parents r listed).1 (by simp [ends, String.toList_append])
      rw [ids, Prod.mk.injEq] at ends
      simp only [idColumns, joined, ids, List.map_cons, List.map_nil, List.mem_cons,
        List.not_mem_nil, or_false] at key
      rcases key with rfl | rfl
      · exact read (by simp [parents]) ends.1
      · exact read (by simp [parents]) ends.2

theorem readName_idColumn_ne (loaded : m.Loaded models) (orders : m.OrdersParents)
    (tenant : m.isGlobal = false) {column : String} (key : column ∈ m.idColumns.map (·.1)) :
    readName column ≠ "organization_id" := by
  rw [loaded.readName_idColumn orders key]
  rintro rfl
  exact loaded.organization_not_mem_idColumns tenant key

theorem column_of_joinIdName (loaded : m.Loaded models) (orders : m.OrdersParents) {f : Field}
    (member : f ∈ m.fields) (key : f.name ∈ m.joinIdNames) :
    f.column ∈ m.idColumns.map (·.1) := by
  cases joined : m.join with
  | none => simp [joinIdNames, joined] at key
  | some join =>
      obtain ⟨p, q, others, parents, ids, _⟩ := orders.heads join joined
      have columns : ∀ parent ∈ m.parents, f.name = parent.column → f.column = parent.column := by
        intro parent listed name
        obtain ⟨g, held, gName, gColumn, _⟩ := loaded.parentFields parent listed
        have same : f.name = g.name := by rw [name, orders.named parent listed, gName]
        rw [List.inj_on_of_nodup_map (lawful_of_rules loaded.rules).names member held same, gColumn]
      simp only [joinIdNames, joined, Option.map_some, Option.getD_some, Join.idNames, ids,
        List.mem_cons, List.not_mem_nil, or_false] at key
      simp only [idColumns, joined, ids, List.map_cons, List.map_nil, List.mem_cons,
        List.not_mem_nil, or_false]
      exact key.imp (columns p (by simp [parents])) (columns q (by simp [parents]))

theorem readName_ne_of_mem_upsertFields (loaded : m.Loaded models) (orders : m.OrdersParents)
    (tenant : m.isGlobal = false) (apart : m.StoresApart) {p : Parent} {f : Field}
    (member : f ∈ m.upsertFields p) : readName f.column ≠ "organization_id" := by
  obtain ⟨held, settable⟩ := List.mem_filter.mp member
  by_cases key : f.name ∈ m.joinIdNames
  · exact loaded.readName_idColumn_ne orders tenant (loaded.column_of_joinIdName orders held key)
  · refine apart f (mem_ownerWritableFields (List.mem_filter.mpr ⟨held, ?_⟩))
    simp_all [identityNames]

end Loaded

theorem keepsOrganization_of_fields {fields : List Field}
    (apart : ∀ f ∈ fields, readName f.column ≠ "organization_id") {value : Field → Assigned String}
    (other : ∀ f ∈ fields, value f ≠ .param Binding.organization) :
    KeepsOrganization (fields.map (fun f => ⟨f.column, value f⟩) ++ [touch]) := by
  intro assignment member
  rcases List.mem_append.mp member with field | touched
  · obtain ⟨f, held, rfl⟩ := List.mem_map.mp field
    exact ⟨apart f held, other f held⟩
  · rw [List.mem_singleton.mp touched]
    exact ⟨by decide, nofun⟩

theorem insertion_keepsOrganization (loaded : m.Loaded models) (orders : m.OrdersParents)
    (tenant : m.isGlobal = false) {fields : List Field}
    (own : ∀ f ∈ fields, f.name ≠ "organization_id")
    (apart : ∀ f ∈ fields, readName f.column ≠ "organization_id")
    {conflict : Option (Conflict String)}
    (keeps : ∀ given ∈ conflict, given.resolution.KeepsOrganization) :
    (Statement.insert (m.insertion fields conflict)).KeepsOrganization := by
  refine ⟨fun i found => ?_, keeps⟩
  have keys : "organization_id" ∉ (m.idColumns.map (·.1)).map readName := by
    intro among
    obtain ⟨column, key, read⟩ := List.mem_map.mp among
    exact loaded.readName_idColumn_ne orders tenant key read
  have columns : "organization_id" ∉ (fields.map Field.column).map readName := by
    intro among
    obtain ⟨_, listed, read⟩ := List.mem_map.mp among
    obtain ⟨f, held, rfl⟩ := List.mem_map.mp listed
    exact apart f held read
  have organization : readName "organization_id" = "organization_id" := by decide
  have place := getElem?_eq_some_middle keys columns (i := i)
  rw [List.length_map, List.length_map] at place
  refine (organization_place tenant own conflict i).mpr (place.mp ?_)
  simpa [insertion, organizationColumn, tenant, organization] using found

theorem updateStatement_keepsOrganization (apart : m.StoresApart) (parent : Option Parent) :
    (m.updateStatement parent).KeepsOrganization := by
  refine keepsOrganization_of_fields (fun f held => apart f (mem_ownerWritableFields held)) ?_
  intro f held same
  exact (name_ne_of_mem_writableFields (.inl held)).2 (Assigned.param.inj same)

theorem upsertResolution_keepsOrganization (loaded : m.Loaded models) (orders : m.OrdersParents)
    (tenant : m.isGlobal = false) (apart : m.StoresApart) (p : Parent) :
    (m.upsertResolution p).KeepsOrganization := by
  unfold upsertResolution
  split
  · trivial
  · exact keepsOrganization_of_fields
      (fun f held => loaded.readName_ne_of_mem_upsertFields orders tenant apart held) fun _ _ => nofun

theorem HasPlan.keepsOrganization (loaded : m.Loaded models) (orders : m.OrdersParents)
    (tenant : m.isGlobal = false) (apart : m.StoresApart) {p : Plan} (plan : m.HasPlan p) :
    p.statement.KeepsOrganization := by
  cases plan with
  | insert =>
      exact insertion_keepsOrganization loaded orders tenant
        (fun f held => (name_ne_of_mem_writableFields (.inr held)).2) apart nofun
  | update => exact updateStatement_keepsOrganization apart none
  | @updateWithParent q => exact updateStatement_keepsOrganization apart (some q)
  | @upsert q parent =>
      refine insertion_keepsOrganization loaded orders tenant
        (fun f held => name_ne_of_mem_upsertDataFields held)
        (fun f held => loaded.readName_ne_of_mem_upsertFields orders tenant apart
          (List.mem_filter.mp held).1) ?_
      rintro _ ⟨⟩
      exact upsertResolution_keepsOrganization loaded orders tenant apart q
  | selectOne | delete | deleteAllChildren | deleteRemovedChildren | deleteWithParent | list | lookup =>
      trivial

theorem storesApart_of_insertPlan (tenant : m.isGlobal = false)
    (keeps : m.insertPlan.statement.KeepsOrganization) : m.StoresApart := by
  intro f held read
  obtain ⟨j, inside, found⟩ := List.mem_iff_getElem.mp held
  have own : ∀ f ∈ m.ownerWritableFields, f.name ≠ "organization_id" := fun f held =>
    (name_ne_of_mem_writableFields (.inr held)).2
  have listed : ((m.insertion m.ownerWritableFields none).columns.map
      readName)[m.idColumns.length + (j + 1)]? = some "organization_id" := by
    simp [insertion, organizationColumn, tenant, inside, found, read]
  have place := (organization_place tenant own none _).mp (keeps.1 _ listed)
  omega

end Model

/-- Whatever definition is loaded, every query of a model that belongs to organizations binds one,
binds no data under its name, and is written from a statement that is bound to it; and no row is
moved to another organization if and only if no field that may be written is stored in a column that
is read as the organization's. -/
theorem loadModels_scoped_iff {raw : Entries} {settings : Settings} {source : Option String}
    {models : List Model} (loaded : loadModels raw settings source = .ok models) {m : Model}
    (member : m ∈ models) (tenant : m.isGlobal = false) :
    (∀ q, m.HasQuery q → "organization_id" ∈ q.bindings ∧ "organization_id" ∉ q.fieldBindings ∧
        ∃ s, m.Generates q s) ∧
      (∀ q s, m.Generates q s → q.Writes s ∧ s.BoundTo m.tableName) ∧
      ((∀ q s, m.Generates q s → s.KeepsOrganization) ↔ m.StoresApart) := by
  have orders := loadModels_ordersParents loaded member
  have isLoaded := loadModels_loaded loaded member
  refine ⟨fun q query => ?_, ?_, fun keeps => ?_, ?_⟩
  · obtain ⟨p, plan, rfl⟩ := Model.hasQuery_iff.mp query
    refine ⟨?_, fun bound => ?_, _, plan.generates⟩
    · exact Plan.mem_bindings.mpr (.inr (Model.organization_mem_params (plan.boundTo tenant)))
    · exact plan.organization_not_mem_fields (Plan.mem_fieldBindings.mp bound).2
  · rintro _ _ ⟨p, plan, rfl, rfl⟩
    exact ⟨p.writes_query, plan.boundTo tenant⟩
  · exact Model.storesApart_of_insertPlan tenant (keeps _ _ Model.HasPlan.insert.generates)
  · rintro apart _ _ ⟨p, plan, rfl, rfl⟩
    exact plan.keepsOrganization isLoaded orders tenant apart

def ownerPosts (column : String) : Entries := .ofFields [("models", .list [
  .ofFields [("name", .text "Post"), ("fields", .list [
    .ofFields [("name", .text "owner"), ("column", .text column), ("writable", .bool true)]])]])]

theorem ownerPosts_stay : ∃ models m q s,
    loadModels (ownerPosts "owner_id") .default none = .ok models ∧
    m ∈ models ∧ m.isGlobal = false ∧ m.Generates q s ∧
    q.text = "UPDATE public.posts SET owner_id = $2, updated_at = NOW() " ++
      "WHERE id = $1 AND organization_id = $3" ∧
    q.Writes s ∧ s.BoundTo m.tableName ∧ ∀ q s, m.Generates q s → s.KeepsOrganization := by
  obtain ⟨models, m, loaded, member, checked⟩ := exists_loaded (ownerPosts "owner_id")
    (fun m _ => !m.isGlobal && decide m.StoresApart &&
      m.updatePlan.bytes == Text.bytes ("UPDATE public.posts SET owner_id = $2, " ++
        "updated_at = NOW() WHERE id = $1 AND organization_id = $3")) (by decide +kernel)
  simp only [Bool.and_eq_true, Bool.not_eq_true', beq_iff_eq, decide_eq_true_eq] at checked
  obtain ⟨⟨tenant, apart⟩, text⟩ := checked
  obtain ⟨_, bound, keeps⟩ := loadModels_scoped_iff loaded member tenant
  have generates := Model.HasPlan.generates (m := m) .update
  obtain ⟨writes, within⟩ := bound _ _ generates
  exact ⟨models, m, _, _, loaded, member, tenant, generates, Plan.text_eq_of_bytes text, writes,
    within, keeps.mpr apart⟩

/-- A line end is admitted after the name of a column, so the owner can be in the column of the
organization, and the update moves the post. -/
theorem ownerPosts_move : ∃ models m q s,
    loadModels (ownerPosts "organization_id\n") .default none = .ok models ∧
    Audit.Passes models .default ∧ m ∈ models ∧ m.isGlobal = false ∧ m.Generates q s ∧
    q.text = "UPDATE public.posts SET organization_id\n = $2, updated_at = NOW() " ++
      "WHERE id = $1 AND organization_id = $3" ∧
    ¬ s.KeepsOrganization := by
  obtain ⟨models, m, loaded, member, checked⟩ := exists_loaded (ownerPosts "organization_id\n")
    (fun m models => !(Audit.findings models .default).hasErrors && !m.isGlobal &&
      m.updatePlan.bytes == Text.bytes ("UPDATE public.posts SET organization_id\n = $2, " ++
        "updated_at = NOW() WHERE id = $1 AND organization_id = $3") &&
      m.writableFields.any (fun f => f.column == "organization_id\n")) (by decide +kernel)
  simp only [Bool.and_eq_true, Bool.not_eq_true', beq_iff_eq, List.any_eq_true] at checked
  obtain ⟨⟨⟨passes, tenant⟩, text⟩, f, held, column⟩ := checked
  refine ⟨models, m, _, _, loaded, passes, member, tenant, Model.HasPlan.update.generates,
    Plan.text_eq_of_bytes text, fun keeps => ?_⟩
  have assigned : Model.fieldAssignment f ∈
      m.writableFields.map Model.fieldAssignment ++ [Model.touch] :=
    List.mem_append_left _ (List.mem_map_of_mem held)
  have read : readName f.column = "organization_id" := by
    rw [column]
    decide
  exact (keeps _ assigned).1 read

end TenantSql
