import TenantSql.Proofs.Migration.Agreement
import TenantSql.Proofs.Sql.Written

/-!
# Values and their columns

Callers pass values by position alone. The position of every value in the
bindings of an insertion or a change is that of the placeholder that its column
is paired with. No two values share a name: a field that callers set has neither
the name of another field nor one that an identity, an organization or a parent
is bound under.
-/

namespace TenantSql

open Sql Sql.Fragment

namespace Model

/-! ## What is written -/

def written (m : Model) (fields : List Field) : List (String × String) :=
  m.idColumns ++ (if m.isGlobal then [] else [("organization_id", Binding.organization)]) ++
    fields.map fun f => (f.column, f.name)

/-- An insertion takes the value of every column from the placeholder at the same place, which is
also the place of the value's name in the bindings. What is done about a row in the way may bind
more names, after those of the values. -/
structure Inserts (m : Model) (fields : List Field) (resolution : String) (more : List String)
    (q : Query) : Prop where
  bindings : q.bindings = (m.written fields).map (·.2) ++ more
  text : q.text = "INSERT INTO " ++ (m.schema ++ "." ++ m.table) ++ " (" ++
    ", ".intercalate ((m.written fields).map (·.1)) ++ ") VALUES (" ++
    ", ".intercalate (firstPlaceholders (m.written fields).length) ++ ")" ++ resolution ++
    " RETURNING " ++ ", ".intercalate m.returning
  distinct : q.bindings.Nodup
  fieldBindings : q.fieldBindings = fields.map Field.name

/-- A change assigns to the column of every field that writers may set the placeholder at whose
place the bindings have the field, and then the time of the change. -/
structure Updates (m : Model) (parent : Option Parent) (q : Query) : Prop where
  bindings : q.bindings = m.idBindings ++ m.writableFields.map Field.name ++
    (parent.map fun _ => Binding.parentId).toList ++ m.organizationBinding
  text : q.text = "UPDATE " ++ (m.schema ++ "." ++ m.table) ++ " SET " ++
    ", ".intercalate ((m.writableFields.mapIdx fun i f =>
      f.column ++ " = " ++ placeholder (m.idBindings.length + i + 1)) ++ ["updated_at = NOW()"]) ++
    " WHERE " ++ " AND ".intercalate (
      (m.idColumns.map fun c => c.1 ++ " = " ++ q.parameter c.2) ++
      (parent.toList.map fun p => p.column ++ " = " ++ q.parameter Binding.parentId) ++
      (m.organizationColumn.map fun c => c ++ " = " ++ q.parameter Binding.organization))
  distinct : q.bindings.Nodup
  fieldBindings : q.fieldBindings = m.writableFields.map Field.name

def movedFields (m : Model) (p : Parent) : List Field :=
  if p.globallyUnique then
    m.fields.filter fun f => m.joinIdNames.contains f.name && f.name != p.fieldName
  else []

/-- What an insertion for a parent does about the row in its way: it sets fields to what could not
be inserted, in a row of the organization and the parent, or leaves the row alone if there is none
to set. -/
def resolutionText (m : Model) (p : Parent) (q : Query) : String :=
  let changed := m.movedFields p ++ m.writableFields
  " ON CONFLICT (" ++
    ", ".intercalate (if p.globallyUnique then [p.column] else m.idColumns.map (·.1)) ++
    if changed = [] then ") DO NOTHING"
    else ") DO UPDATE SET " ++
      ", ".intercalate (changed.map (fun f => f.column ++ " = EXCLUDED." ++ f.column) ++
        ["updated_at = NOW()"]) ++
      " WHERE " ++ " AND ".intercalate (
        (m.organizationColumn.map fun c =>
          m.table ++ "." ++ c ++ " = " ++ q.parameter Binding.organization) ++
        [m.table ++ "." ++ p.column ++ " = " ++ q.parameter Binding.parentId])

def Upserts (m : Model) (p : Parent) (q : Query) : Prop :=
  m.Inserts m.writableFields (m.resolutionText p q)
    (if m.movedFields p ++ m.writableFields = [] then [] else [Binding.parentId]) q

variable {models : List Model} {m : Model} {f : Field}

theorem columns_written (m : Model) (fields : List Field) :
    (m.written fields).map (·.1) =
      m.idColumns.map (·.1) ++ m.organizationColumn ++ fields.map Field.column := by
  cases tenant : m.isGlobal <;> simp [written, organizationColumn, tenant]

theorem names_written (m : Model) (fields : List Field) :
    (m.written fields).map (·.2) =
      m.idBindings ++ m.organizationBinding ++ fields.map Field.name := by
  cases tenant : m.isGlobal <;> simp [written, organizationBinding, idBindings, tenant]

/-! ## Names that are told apart -/

structure IsData (m : Model) (f : Field) : Prop where
  own : f ∈ m.fields
  settable : f.ownerWritable
  free : f.name ∉ m.identityNames

theorem isData_of_ownerWritableFields (member : f ∈ m.ownerWritableFields) : m.IsData f := by
  obtain ⟨own, chosen⟩ := List.mem_filter.mp member
  simp only [Bool.and_eq_true, Bool.not_eq_true', List.contains_eq_mem, decide_eq_false_iff_not]
    at chosen
  exact ⟨own, chosen.1, chosen.2⟩

theorem isData_of_writableFields (member : f ∈ m.writableFields) : m.IsData f := by
  obtain ⟨own, chosen⟩ := List.mem_filter.mp member
  simp only [Bool.and_eq_true, Bool.not_eq_true', List.contains_eq_mem, decide_eq_false_iff_not]
    at chosen
  refine ⟨own, ?_, chosen.2⟩
  rw [Field.ownerWritable, chosen.1, Bool.or_true]

def roleNames (m : Model) : List String :=
  m.idBindings ++ m.organizationBinding ++ [Binding.parentId]

theorem nodup_roleNames (m : Model) : m.roleNames.Nodup := by
  cases joined : m.join <;> cases tenant : m.isGlobal <;>
    simp [roleNames, idBindings, idColumns, organizationBinding, joined, tenant, Binding.id,
      Binding.organization, Binding.parentId, Binding.joinId0, Binding.joinId1]

theorem IsData.not_role (data : m.IsData f) {settings : Settings}
    (passes : Audit.Passes models settings) (member : m ∈ models) : f.name ∉ m.roleNames := by
  have reserved := passes.not_reserved member data.own data.settable
  have free := data.free
  simp only [identityNames, List.mem_append, List.mem_cons, not_or] at free
  simp only [Binding.reserved, List.mem_cons, not_or] at reserved
  cases joined : m.join <;> cases tenant : m.isGlobal <;>
    simp [roleNames, idBindings, idColumns, organizationBinding, joined, tenant, Binding.id,
      Binding.organization, free, reserved]

theorem Loaded.nodup_names (loaded : m.Loaded models) {settings : Settings}
    (passes : Audit.Passes models settings) (member : m ∈ models) {fields : List Field}
    (own : fields.Sublist m.fields) (data : ∀ f ∈ fields, m.IsData f) :
    (m.roleNames ++ fields.map Field.name).Nodup := by
  refine List.nodup_append.mpr ⟨m.nodup_roleNames, ?_, fun role isRole name named same => ?_⟩
  · exact (own.map Field.name).nodup loaded.lawful.names
  · obtain ⟨f, held, rfl⟩ := List.mem_map.mp named
    exact (data f held).not_role passes member (same ▸ isRole)

theorem nodup_of_count_le {texts among : List String} (apart : among.Nodup)
    (fewer : ∀ s, texts.count s ≤ among.count s) : texts.Nodup :=
  List.nodup_iff_count.mpr fun s => Nat.le_trans (fewer s) (List.nodup_iff_count.mp apart s)

theorem filter_of_nodup {front names back : List String} (apart : (front ++ names ++ back).Nodup) :
    (front ++ names ++ back).filter names.contains = names := by
  rw [List.nodup_append, List.nodup_append] at apart
  obtain ⟨⟨_, _, before⟩, _, after⟩ := apart
  have none {texts : List String} (apart : ∀ s ∈ texts, s ∉ names) :
      texts.filter names.contains = [] :=
    List.filter_eq_nil_iff.mpr fun s member named => apart s member (List.contains_iff_mem.mp named)
  have all : names.filter names.contains = names :=
    List.filter_eq_self.mpr fun s member => List.contains_iff_mem.mpr member
  rw [List.filter_append, List.filter_append, all, none, none, List.nil_append, List.append_nil]
  · exact fun s member named => after s (List.mem_append_right front named) s member rfl
  · exact fun s member named => before s member s named rfl

/-! ## Insertions -/

theorem inserts_query {p : Plan} {fields : List Field} {conflict : Option (Conflict String)}
    (again more : List String) (statement : p.statement = .insert (m.insertion fields conflict))
    (reserved : p.reserved = []) (names : p.fields = fields.map Field.name)
    (known : again ⊆ m.organizationBinding)
    (params : (conflict.map fun c => Fragment.params c.fragment).getD [] = again ++ more)
    (distinct : ((m.written fields).map (·.2) ++ more).Nodup) :
    m.Inserts fields ((conflict.map fun c => c.fragment.write p.query.parameter).getD "") more
      p.query := by
  have columns : (m.insertion fields conflict).columns = (m.written fields).map (·.1) :=
    (m.columns_written fields).symm
  have values : (m.insertion fields conflict).values = (m.written fields).map (·.2) :=
    (m.names_written fields).symm
  have bindings : p.query.bindings = (m.written fields).map (·.2) ++ more := by
    have earlier : again ⊆ (m.written fields).map (·.2) := by
      rw [names_written]
      exact fun s member => List.mem_append_left _ (List.mem_append_right _ (known member))
    rw [p.bindings_query, reserved, statement, List.nil_append, Statement.fragment,
      Insert.params_fragment, values]
    have parted : (m.insertion fields conflict).conflict = conflict := rfl
    rw [parted, params, ← List.append_assoc, Text.distinct_drop earlier,
      Text.distinct_of_nodup distinct]
  constructor
  case bindings => exact bindings
  case distinct => exact bindings ▸ distinct
  case text =>
    have written : p.query.text = p.statement.fragment.write p.query.parameter := p.writes_query
    have numbers : ((m.written fields).map (·.2)).map p.query.parameter =
        firstPlaceholders (m.written fields).length := by
      have parameter : p.query.parameter = numbered ((m.written fields).map (·.2) ++ more) := by
        rw [← bindings]
        rfl
      rw [parameter, map_numbered_of_nodup distinct, List.length_map]
    rw [written, statement, Statement.fragment, Insert.write_fragment, columns, values, numbers]
    rfl
  case fieldBindings =>
    have found : p.query.fieldBindings = p.query.bindings.filter p.fields.contains := rfl
    rw [names_written] at bindings distinct
    rw [found, names, bindings]
    exact filter_of_nodup distinct

/-! ## Changes -/

theorem params_idTests (m : Model) (tableAlias : Option String) :
    (m.idTests tableAlias).flatMap (fun c => Fragment.params c.fragment) = m.idBindings := by
  rw [idTests, idComparisons, idBindings, List.map_map, List.flatMap_map]
  simp only [Function.comp_apply, params_equals, ← List.map_eq_flatMap]

theorem params_organizationTest (m : Model) (tableAlias : Option String) :
    (m.organizationTest tableAlias).flatMap (fun c => Fragment.params c.fragment) =
      m.organizationBinding := by
  cases tenant : m.isGlobal <;>
    simp [organizationTest, organizationBinding, tenant, params_equals]

theorem write_idTests (m : Model) (writeParam : String → String) :
    ((m.idTests none).map fun c => write writeParam c.fragment) =
      m.idColumns.map fun c => c.1 ++ " = " ++ writeParam c.2 := by
  rw [idTests, idComparisons, List.map_map, List.map_map]
  refine List.map_congr_left fun c _ => ?_
  rw [Function.comp_apply, Function.comp_apply, write_equals, Column.write_fragment]

theorem write_organizationTest (m : Model) (tableAlias : Option String)
    (writeParam : String → String) :
    ((m.organizationTest tableAlias).map fun c => write writeParam c.fragment) =
      m.organizationColumn.map fun c =>
        write writeParam (Column.fragment ⟨tableAlias, c⟩) ++ " = " ++
          writeParam Binding.organization := by
  cases tenant : m.isGlobal <;>
    simp [organizationTest, organizationColumn, tenant, write_equals]

theorem params_assignments (fields : List Field) :
    (fields.map fieldAssignment ++ [touch]).flatMap Assignment.params = fields.map Field.name := by
  rw [List.flatMap_append, List.flatMap_map, ← List.append_nil (fields.map Field.name),
    List.map_eq_flatMap]
  rfl

theorem updateStatement_eq (m : Model) (parent : Option Parent) :
    m.updateStatement parent = .update m.tableName (m.writableFields.map fieldAssignment ++ [touch])
      (m.idTests none ++
        (parent.toList.map fun p => .holds (.equals (bare p.column) (.param Binding.parentId))) ++
        m.organizationTest none) := by
  cases parent <;> rfl

theorem idTests_ne_nil (m : Model) (tableAlias : Option String) : m.idTests tableAlias ≠ [] := by
  cases joined : m.join <;> simp [idTests, idComparisons, idColumns, joined]

theorem write_touch (writeParam : String → String) :
    write writeParam touch.fragment = "updated_at = NOW()" := by
  rw [Assignment.write_fragment]
  rfl

theorem updates_query {p : Plan} {parent : Option Parent}
    (statement : p.statement = m.updateStatement parent) (reserved : p.reserved = m.idBindings)
    (names : p.fields = m.writableFields.map Field.name)
    (apart : (m.roleNames ++ m.writableFields.map Field.name).Nodup) :
    m.Updates parent p.query := by
  let late := (parent.map fun _ => Binding.parentId).toList
  have params : p.statement.fragment.params = m.writableFields.map Field.name ++
      (m.idBindings ++ (late ++ m.organizationBinding)) := by
    rw [statement, updateStatement_eq, Statement.params_update, params_assignments,
      List.flatMap_append, List.flatMap_append, params_idTests, params_organizationTest]
    cases parent <;> simp [late, params_equals]
  have distinct : (m.idBindings ++ m.writableFields.map Field.name ++
      (late ++ m.organizationBinding)).Nodup := by
    refine nodup_of_count_le apart fun s => ?_
    have once : late.count s ≤ [Binding.parentId].count s := by
      cases parent <;> simp [late]
    simp only [roleNames, List.count_append] at once ⊢
    omega
  have bindings : p.query.bindings = m.idBindings ++ m.writableFields.map Field.name ++
      (late ++ m.organizationBinding) := by
    rw [p.bindings_query, reserved, params, ← List.append_assoc, ← List.append_assoc,
      Text.distinct_drop (fun s member => List.mem_append_left _ member),
      Text.distinct_of_nodup distinct]
  constructor
  case bindings =>
    rw [bindings, ← List.append_assoc]
  case distinct => exact bindings ▸ distinct
  case text =>
    have written : p.query.text = p.statement.fragment.write p.query.parameter := p.writes_query
    have assigned : ((m.writableFields.map fieldAssignment).map fun a =>
        write p.query.parameter a.fragment) = m.writableFields.mapIdx fun i f =>
          f.column ++ " = " ++ placeholder (m.idBindings.length + i + 1) := by
      refine List.ext_getElem (by simp) fun i inside _ => ?_
      rw [List.length_map, List.length_map] at inside
      have here : (m.writableFields.map Field.name)[i]? = some m.writableFields[i].name := by
        rw [List.getElem?_map, List.getElem?_eq_getElem inside, Option.map_some]
      have place : p.query.parameter m.writableFields[i].name =
          placeholder (m.idBindings.length + i + 1) := by
        rw [Query.parameter, bindings, numbered_of_nodup distinct here]
      simp [fieldAssignment, Assignment.write_fragment, place]
    rw [written, statement, updateStatement_eq, Statement.write_update]
    · rw [List.map_append, assigned, List.map_append, List.map_append, write_idTests,
        write_organizationTest, List.map_map]
      simp only [List.map_cons, List.map_nil, write_touch, Function.comp_def, write_equals,
        Column.write_fragment, bare]
      rfl
    · simp [m.idTests_ne_nil]
  case fieldBindings =>
    have found : p.query.fieldBindings = p.query.bindings.filter p.fields.contains := rfl
    rw [found, names, bindings]
    exact filter_of_nodup distinct

/-! ## Rows in the way -/

structure KeysFirst (m : Model) (keys others : List Field) : Prop where
  listed : m.fields = keys ++ others
  key : ∀ f ∈ keys, m.joinIdNames.contains f.name
  free : ∀ f ∈ keys, ["id", "organization_id"].contains f.name = false
  other : ∀ f ∈ others, m.joinIdNames.contains f.name = false

namespace KeysFirst

variable {keys others : List Field}

theorem movedFields (first : m.KeysFirst keys others) (p : Parent) :
    m.movedFields p = keys.filter fun f => p.globallyUnique && f.name != p.fieldName := by
  have own : keys.filter (fun f => m.joinIdNames.contains f.name && f.name != p.fieldName) =
      keys.filter fun f => f.name != p.fieldName :=
    List.filter_congr fun f key => by rw [first.key f key, Bool.true_and]
  have none : others.filter (fun f =>
      m.joinIdNames.contains f.name && f.name != p.fieldName) = [] :=
    List.filter_eq_nil_iff.mpr fun f other => by
      rw [first.other f other]
      exact Bool.false_ne_true
  rw [Model.movedFields, first.listed, List.filter_append, none, own, List.append_nil]
  cases p.globallyUnique <;> simp

theorem writableFields (first : m.KeysFirst keys others) :
    m.writableFields =
      others.filter fun f => f.writable && !(["id", "organization_id"].contains f.name) := by
  have none : keys.filter (fun f => f.writable && !m.identityNames.contains f.name) = [] :=
    List.filter_eq_nil_iff.mpr fun f key => by
      rw [identityNames, List.contains_append, first.key f key, Bool.true_or, Bool.not_true,
        Bool.and_false]
      exact Bool.false_ne_true
  rw [Model.writableFields, first.listed, List.filter_append, none, List.nil_append]
  refine List.filter_congr fun f other => ?_
  rw [identityNames, List.contains_append, first.other f other, Bool.false_or]

theorem upsertFields (first : m.KeysFirst keys others) (p : Parent) :
    m.upsertFields p = m.movedFields p ++ m.writableFields := by
  rw [first.movedFields p, first.writableFields, Model.upsertFields, first.listed,
    List.filter_append]
  congr 1
  · refine List.filter_congr fun f key => ?_
    rw [first.key f key, first.free f key]
    simp
  · refine List.filter_congr fun f other => ?_
    rw [first.other f other]
    simp [Bool.and_comm]

end KeysFirst

namespace Loaded

theorem exists_keysFirst (loaded : m.Loaded models) (joins : m.isJoin) :
    ∃ keys others, m.KeysFirst keys others := by
  obtain ⟨join, joined⟩ := Option.isSome_iff_exists.mp joins
  obtain ⟨keys, others, listed, keyed, standard⟩ := loaded.standard
  have names := loaded.lawful.names
  rw [listed, List.map_append, List.nodup_append] at names
  have ids : m.joinIdNames = keys.map Field.name := by
    rw [keyed join joined]
    simp [joinIdNames, joined]
  refine ⟨keys, others, listed, fun f key => ?_, fun f key => ?_, fun f other => ?_⟩
  · rw [ids, List.contains_iff_mem]
    exact List.mem_map_of_mem key
  · have own : f.name ∈ m.fields.map Field.name :=
      List.mem_map_of_mem (listed ▸ List.mem_append_left others key)
    have notId : f.name ≠ "id" := fun same => loaded.lawful.joinHasNoId joins (same ▸ own)
    have notOrganization : f.name ≠ "organization_id" := by
      intro same
      have tenant : m.isGlobal = false := loaded.lawful.tenancy.mpr (same ▸ own)
      obtain ⟨g, held, name, _⟩ := standard "organization_id" (by simp [standardColumns, tenant])
      exact names.2.2 _ (List.mem_map_of_mem key) _ (List.mem_map_of_mem held)
        (same.trans name.symm)
    simp [notId, notOrganization]
  · rw [ids, List.contains_eq_mem, decide_eq_false_iff_not]
    exact fun key => names.2.2 _ key _ (List.mem_map_of_mem other) rfl

theorem upsertFields_eq (loaded : m.Loaded models) (p : Parent) :
    m.upsertFields p = m.movedFields p ++ m.writableFields := by
  cases joins : m.isJoin with
  | false =>
      have plain := joinIdNames_of_plain joins
      have none : m.movedFields p = [] := by simp [movedFields, plain]
      rw [none, List.nil_append, upsertFields, writableFields, identityNames, plain]
      refine List.filter_congr fun f _ => ?_
      simp [Bool.and_comm]
  | true =>
      obtain ⟨keys, others, first⟩ := loaded.exists_keysFirst joins
      exact first.upsertFields p

theorem upsertResolution_eq (loaded : m.Loaded models) (p : Parent) :
    m.upsertResolution p =
      if m.movedFields p ++ m.writableFields = [] then .keep
      else .change ((m.movedFields p ++ m.writableFields).map (fun f => ⟨f.column, .proposed⟩) ++
          [touch])
        (m.organizationTest (some m.table) ++
          [.holds (.equals ⟨some m.table, p.column⟩ (.param Binding.parentId))]) := by
  simp only [upsertResolution, loaded.upsertFields_eq p, List.isEmpty_iff]

theorem params_conflict (loaded : m.Loaded models) (p : Parent) (target : List String) :
    Fragment.params (Conflict.fragment ⟨target, m.upsertResolution p⟩) =
      if m.movedFields p ++ m.writableFields = [] then []
      else m.organizationBinding ++ [Binding.parentId] := by
  have proposed (fields : List Field) :
      (fields.map (fun f => (⟨f.column, .proposed⟩ : Assignment String)) ++ [touch]).flatMap
        Assignment.params = [] := by
    rw [List.flatMap_append, List.flatMap_map]
    exact List.append_eq_nil_iff.mpr ⟨List.flatMap_eq_nil_iff.mpr fun _ _ => rfl, rfl⟩
  rw [Conflict.params_fragment, loaded.upsertResolution_eq p]
  by_cases none : m.movedFields p ++ m.writableFields = []
  · rw [if_pos none, if_pos none]
  · rw [if_neg none, if_neg none]
    simp only [proposed, List.flatMap_append, params_organizationTest, List.flatMap_cons,
      List.flatMap_nil, params_equals, List.nil_append, List.append_nil]

theorem write_conflict (loaded : m.Loaded models) (p : Parent) (q : Query) :
    write q.parameter (Conflict.fragment
      ⟨if p.globallyUnique then [p.column] else m.idColumns.map (·.1), m.upsertResolution p⟩) =
        m.resolutionText p q := by
  have assigned (fields : List Field) :
      (fields.map (fun f => (⟨f.column, .proposed⟩ : Assignment String)) ++ [touch]).map
          (fun a => write q.parameter a.fragment) =
        fields.map (fun f => f.column ++ " = EXCLUDED." ++ f.column) ++ ["updated_at = NOW()"] := by
    have sign : " = EXCLUDED." = " = " ++ "EXCLUDED." := rfl
    rw [List.map_append, List.map_map, List.map_singleton, write_touch, sign]
    simp only [Function.comp_def, Assignment.write_fragment, String.append_assoc]
  have tested : ((m.organizationTest (some m.table) ++
        [Condition.holds (.equals ⟨some m.table, p.column⟩ (.param Binding.parentId))]).map
          fun c => write q.parameter c.fragment) =
      (m.organizationColumn.map fun c =>
          m.table ++ "." ++ c ++ " = " ++ q.parameter Binding.organization) ++
        [m.table ++ "." ++ p.column ++ " = " ++ q.parameter Binding.parentId] := by
    rw [List.map_append, write_organizationTest, List.map_singleton, write_equals]
    simp only [Column.write_fragment]
  rw [Conflict.write_fragment, loaded.upsertResolution_eq p]
  -- The equation of this definition would take long to prove.
  delta resolutionText
  by_cases none : m.movedFields p ++ m.writableFields = []
  · simp only [none, if_true]
  · simp only [none, if_false]
    rw [write_whereClause (by simp), assigned, tested]
    simp only [String.append_assoc]

theorem upserts_query (loaded : m.Loaded models) (p : Parent)
    (apart : (m.roleNames ++ m.writableFields.map Field.name).Nodup) :
    m.Upserts p (m.upsertPlan p).query := by
  have statement : (m.upsertPlan p).statement = .insert (m.insertion m.writableFields (some
      { target := if p.globallyUnique then [p.column] else m.idColumns.map (·.1)
        resolution := m.upsertResolution p })) := by
    rw [← m.upsertDataFields_eq p]
    rfl
  have names : (m.upsertPlan p).fields = m.writableFields.map Field.name := by
    rw [← m.upsertDataFields_eq p]
    rfl
  let changed := m.movedFields p ++ m.writableFields
  let again := if changed = [] then [] else m.organizationBinding
  let more := if changed = [] then [] else [Binding.parentId]
  have known : again ⊆ m.organizationBinding := by
    intro name member
    simp only [again] at member
    split at member
    · cases member
    · exact member
  have distinct : ((m.written m.writableFields).map (·.2) ++ more).Nodup := by
    refine nodup_of_count_le apart fun s => ?_
    have once : more.count s ≤ [Binding.parentId].count s := by
      simp only [more]
      split
      · exact Nat.zero_le _
      · exact Nat.le_refl _
    rw [names_written]
    simp only [roleNames, List.count_append] at once ⊢
    omega
  have inserts := inserts_query again more statement rfl names known ?_ distinct
  · rw [Option.map_some, Option.getD_some, loaded.write_conflict p] at inserts
    exact inserts
  · rw [Option.map_some, Option.getD_some, loaded.params_conflict p]
    simp only [again, more, changed]
    split <;> rfl

end Loaded

end Model

/-- Whatever definition is loaded and passes the audit, insertions and changes take the value of
every column from the placeholder of the value's own name, and names are bound by position: first
the identity, then what is written, or the organization before it in an insertion, and at last what
is only tested. -/
theorem loadModels_assigns {raw : Entries} {settings audited : Settings} {source : Option String}
    {models : List Model} (loaded : loadModels raw settings source = .ok models)
    (passes : Audit.Passes models audited) {m : Model} (member : m ∈ models) :
    (∃ q, m.queriesOf .insert = .ok [q] ∧ m.Inserts m.ownerWritableFields "" [] q) ∧
      (∃ q, m.queriesOf .update = .ok [q] ∧ m.Updates none q) ∧
      (∃ queries, m.queriesOf .updateOneWithParent = .ok queries ∧
        List.Forall₂ (fun p q => m.Updates (some p) q) (if m.isJoin then [] else m.parents)
          queries) ∧
      ∃ queries, m.queriesOf .upsert = .ok queries ∧ List.Forall₂ m.Upserts m.parents queries := by
  have whole := loadModels_loaded loaded member
  have writable : (m.roleNames ++ m.writableFields.map Field.name).Nodup :=
    whole.nodup_names passes member List.filter_sublist fun f held =>
      Model.isData_of_writableFields held
  have ownerWritable : (m.roleNames ++ m.ownerWritableFields.map Field.name).Nodup :=
    whole.nodup_names passes member List.filter_sublist fun f held =>
      Model.isData_of_ownerWritableFields held
  refine ⟨⟨_, Model.queriesOf_eq_ok.mpr ⟨_, rfl, rfl⟩, ?_⟩,
    ⟨_, Model.queriesOf_eq_ok.mpr ⟨_, rfl, rfl⟩, Model.updates_query rfl rfl rfl writable⟩,
    ⟨_, Model.queriesOf_eq_ok.mpr ⟨_, rfl, rfl⟩, ?_⟩, ⟨_, m.queriesOf_upsert, ?_⟩⟩
  · refine Model.inserts_query (p := m.insertPlan) [] [] rfl rfl rfl (List.nil_subset _) rfl ?_
    refine Model.nodup_of_count_le ownerWritable fun s => ?_
    rw [Model.names_written]
    simp only [Model.roleNames, List.count_append, List.count_nil]
    omega
  · cases joins : m.isJoin with
    | true =>
        rw [Model.updateWithParentPlans, joins]
        exact .nil
    | false =>
        rw [Model.updateWithParentPlans, joins, if_neg Bool.false_ne_true,
          if_neg Bool.false_ne_true, List.map_map, List.forall₂_map_right_iff, List.forall₂_same]
        exact fun p _ => Model.updates_query rfl rfl rfl writable
  · rw [List.forall₂_map_right_iff, List.forall₂_same]
    exact fun p _ => whole.upserts_query p writable

def notes : Entries := .ofFields [("models", .list [
  .ofFields [("name", .text "Note"), ("belongs_to", .list [.text "Folder"]), ("fields", .list [
    .ofFields [("name", .text "body"), ("column", .text "body_text"), ("writable", .bool true)],
    .ofFields [("name", .text "author"), ("owner_write", .bool true)]])],
  .ofFields [("name", .text "Folder")]])]

theorem notes_assigned : ∃ models m q, loadModels notes .default none = .ok models ∧
    Audit.Passes models .default ∧ m ∈ models ∧ m.queriesOf .update = .ok [q] ∧
    q.bindings = ["id", "body", "folder_id", "organization_id"] ∧
    q.text = "UPDATE public.notes SET body_text = $2, folder_id = $3, updated_at = NOW() " ++
      "WHERE id = $1 AND organization_id = $4" ∧ m.Updates none q := by
  obtain ⟨models, m, loaded, member, checked⟩ := exists_loaded notes
    (fun m models => !(Audit.findings models .default).hasErrors &&
      m.updatePlan.query.bindings == ["id", "body", "folder_id", "organization_id"] &&
      m.updatePlan.bytes == Text.bytes
        ("UPDATE public.notes SET body_text = $2, folder_id = $3, updated_at = NOW() " ++
          "WHERE id = $1 AND organization_id = $4")) (by decide +kernel)
  simp only [Bool.and_eq_true, Bool.not_eq_true', beq_iff_eq] at checked
  obtain ⟨⟨passes, bindings⟩, text⟩ := checked
  obtain ⟨q, generated, updates⟩ := (loadModels_assigns loaded passes member).2.1
  have same : q = m.updatePlan.query := by
    have planned : m.queriesOf .update = .ok [m.updatePlan.query] :=
      Model.queriesOf_eq_ok.mpr ⟨_, rfl, rfl⟩
    rw [planned] at generated
    cases generated
    rfl
  subst same
  exact ⟨models, m, _, loaded, passes, member, generated, bindings, Plan.text_eq_of_bytes text,
    updates⟩

end TenantSql
