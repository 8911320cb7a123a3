import TenantSql.Proofs.Audit.Passed
import TenantSql.Proofs.Migration.Table
import TenantSql.Proofs.Query.Placeholder

/-!
# Insertions and declared tables

What insertions need of the tables that migrations declare. An insertion that
changes the row in its way finds this row by a key of the table; and a row can
only be inserted if every required column is given.
-/

namespace TenantSql

open Migration

namespace Model

variable {models : List Model} {m : Model}

/-! ## The row in the way -/

/-- The row in the way of a child of the parent is found by a key: by the `id` that is the parent's,
if there is at most one row per parent, and by what identifies rows otherwise. -/
structure HasConflictKey (m : Model) (p : Parent) : Prop where
  single : p.globallyUnique → p.fieldName = "id"
  usual : p.globallyUnique = false → m.isJoin = false →
    ∃ f ∈ m.fields, f.column = "id" ∧ (f.name = "id" ∨ f.unique)

instance (m : Model) (p : Parent) : Decidable (m.HasConflictKey p) :=
  decidable_of_iff (_ ∧ _) ⟨fun both => ⟨both.1, both.2⟩, fun has => ⟨has.single, has.usual⟩⟩

namespace Loaded

theorem lawful (loaded : m.Loaded models) : m.Lawful :=
  lawful_of_rules loaded.rules

theorem nodup_joinIdNames (loaded : m.Loaded models) : m.joinIdNames.Nodup := by
  cases joined : m.join with
  | none => simp [joinIdNames, joined]
  | some join =>
      obtain ⟨keys, rest, listed, keyed, _⟩ := loaded.standard
      have names := loaded.lawful.names
      rw [listed, List.map_append] at names
      have ids : m.joinIdNames = keys.map Field.name := by
        rw [keyed join joined]
        simp [joinIdNames, joined]
      rw [ids]
      exact (List.nodup_append.mp names).1

theorem primaryKey_ne_singleton (loaded : m.Loaded models) (joins : m.isJoin) (column : String) :
    ¬ ∀ c, c ∈ (tableDefinition models m).primaryKey ↔ c = column := by
  intro only
  -- Both ids of a join table would be the one column, but they are distinct.
  obtain ⟨join, joined⟩ := Option.isSome_iff_exists.mp joins
  have ids : m.joinIdNames = [join.ids.1, join.ids.2] := by
    simp [joinIdNames, Join.idNames, joined]
  have isColumn {id : String} (member : id ∈ m.joinIdNames) : id = column := by
    refine (only id).mp ((loaded.lawful.mem_primaryKey_of_isJoin joins).mpr ?_)
    rw [idColumns_of_isJoin joins]
    exact member
  have distinct := loaded.nodup_joinIdNames
  have first : join.ids.1 = column := isColumn (by simp [ids])
  have second : join.ids.2 = column := isColumn (by simp [ids])
  rw [ids, first, second] at distinct
  simp at distinct

theorem parent_not_unique (loaded : m.Loaded models) {p : Parent} (parent : p ∈ m.parents) :
    .unique p.column ∉ (tableDefinition models m).constraints := by
  intro stated
  obtain ⟨f, held, _, column, plain, _⟩ := loaded.parentFields p parent
  obtain ⟨g, other, unique, same⟩ := unique_mem_constraints.mp stated
  rw [loaded.lawful.eq_of_column other held (same.trans column.symm), plain] at unique
  cases unique

theorem hasKey_parent (loaded : m.Loaded models) {p : Parent} (parent : p ∈ m.parents) :
    (tableDefinition models m).HasKey [p.column] ↔ p.fieldName = "id" := by
  rw [hasKey_singleton, or_iff_left (loaded.parent_not_unique parent)]
  obtain ⟨f, held, name, column, _⟩ := loaded.parentFields p parent
  cases joins : m.isJoin with
  | true =>
      refine iff_of_false (loaded.primaryKey_ne_singleton joins p.column) fun isId => ?_
      refine loaded.lawful.joinHasNoId joins ?_
      exact isId ▸ name ▸ List.mem_map_of_mem held
  | false =>
      obtain ⟨id, among, named⟩ := List.mem_map.mp (loaded.lawful.plainHasId joins)
      constructor
      · intro only
        have member : id.column ∈ (tableDefinition models m).primaryKey :=
          (loaded.lawful.mem_primaryKey_of_plain joins among named).mpr rfl
        have same : id = f :=
          loaded.lawful.eq_of_column among held (((only _).mp member).trans column.symm)
        rw [← name, ← same, named]
      · intro isId c
        rw [loaded.lawful.mem_primaryKey_of_plain joins held (name.trans isId), column]

theorem hasKey_idColumns (loaded : m.Loaded models) :
    (tableDefinition models m).HasKey (m.idColumns.map (·.1)) ↔
      (m.isJoin = false → ∃ f ∈ m.fields, f.column = "id" ∧ (f.name = "id" ∨ f.unique)) := by
  cases joins : m.isJoin with
  | true =>
      refine iff_of_true (.inl fun c => ?_) nofun
      exact (loaded.lawful.mem_primaryKey_of_isJoin joins).symm
  | false =>
      -- The field named `id` is the key, under whatever column it has; insertions name the column.
      obtain ⟨id, among, named⟩ := List.mem_map.mp (loaded.lawful.plainHasId joins)
      rw [idColumns_of_plain joins, hasKey_singleton, unique_mem_constraints]
      constructor
      · rintro (only | ⟨f, held, unique, column⟩) _
        · have column : id.column = "id" :=
            (only _).mp ((loaded.lawful.mem_primaryKey_of_plain joins among named).mpr rfl)
          exact ⟨id, among, column, .inl named⟩
        · exact ⟨f, held, column, .inr unique⟩
      · intro exists_key
        obtain ⟨f, held, column, name | unique⟩ := exists_key rfl
        · refine .inl fun c => ?_
          rw [loaded.lawful.mem_primaryKey_of_plain joins held name, column]
        · exact .inr ⟨f, held, unique, column⟩

end Loaded

/-! ## Required columns -/

def IsIdentity (m : Model) (f : Field) : Prop :=
  f.column ∈ m.idColumns.map (·.1) ∨ f.column ∈ m.organizationColumn

/-- The insertion gives a required column exactly if it is an identity or may be set as data. -/
def Gives (models : List Model) (m : Model) (s : Sql.Insert String) (allowed : Field → Bool) :
    Prop :=
  ∀ f ∈ m.fields, (columnDefinition models m f).IsRequired →
    (f.column ∈ s.columns ↔ m.IsIdentity f ∨ allowed f ∧ f.name ≠ "id")

theorem queriesOf_upsert (m : Model) :
    m.queriesOf .upsert = .ok (m.parents.map fun p => (m.upsertPlan p).query) := by
  refine queriesOf_eq_ok.mpr ⟨m.upsertPlans, rfl, ?_⟩
  rw [upsertPlans, List.map_map]
  rfl

theorem upsertDataFields_eq (m : Model) (p : Parent) : m.upsertDataFields p = m.writableFields := by
  rw [upsertDataFields, upsertFields, writableFields, List.filter_filter]
  -- The id of the other parent, which may be moved too, is in the key of the new row already.
  refine List.filter_congr fun f _ => ?_
  cases joins : m.isJoin with
  | true =>
      rw [idColumns_of_isJoin joins, identityNames]
      cases among : m.joinIdNames.contains f.name <;> simp_all [Bool.and_comm]
  | false =>
      rw [idColumns_of_plain joins, identityNames, joinIdNames_of_plain joins]
      cases f.writable <;> simp

namespace Loaded

theorem isIdentity_of_identityName (loaded : m.Loaded models) {f : Field} (held : f ∈ m.fields)
    (name : f.name ∈ m.identityNames) (notId : f.name ≠ "id") : m.IsIdentity f := by
  have lawful := loaded.lawful
  rcases List.mem_append.mp name with joined | standard
  · have joins : m.isJoin := by
      cases plain : m.isJoin with
      | true => rfl
      | false => simp [joinIdNames_of_plain plain] at joined
    left
    rw [idColumns_of_isJoin joins, lawful.column_of_joinId held joined]
    exact joined
  · have organization : f.name = "organization_id" := by simpa [notId] using standard
    have tenant : m.isGlobal = false :=
      lawful.tenancy.mpr (organization ▸ List.mem_map_of_mem held)
    obtain ⟨keys, rest, listed, _, all⟩ := loaded.standard
    obtain ⟨g, among, gName, gColumn⟩ :=
      all "organization_id" (by simp [standardColumns, tenant])
    have there : g ∈ m.fields := listed ▸ List.mem_append_right keys among
    right
    rw [lawful.eq_of_name held there (organization.trans gName.symm), gColumn]
    simp [organizationColumn, tenant]

theorem gives_insertion (loaded : m.Loaded models) (allowed : Field → Bool)
    (conflict : Option (Sql.Conflict String)) :
    m.Gives models (m.insertion
      (m.fields.filter fun f => allowed f && !m.identityNames.contains f.name) conflict) allowed := by
  intro f held _
  have data : f.column ∈ (m.fields.filter fun f =>
      allowed f && !m.identityNames.contains f.name).map Field.column ↔
        allowed f ∧ f.name ∉ m.identityNames := by
    rw [List.mem_map]
    constructor
    · rintro ⟨g, among, same⟩
      obtain ⟨other, settable⟩ := List.mem_filter.mp among
      rw [loaded.lawful.eq_of_column other held same] at settable
      simpa using settable
    · intro settable
      exact ⟨f, List.mem_filter.mpr ⟨held, by simpa using settable⟩, rfl⟩
  simp only [insertion, List.mem_append, data]
  refine or_congr_right' fun other => and_congr_right fun _ => ?_
  constructor
  · intro free isId
    exact free (isId ▸ by simp [identityNames])
  · intro notId name
    exact other (loaded.isIdentity_of_identityName held name notId)

end Loaded

end Model

/-! ## Loaded definitions -/

section

variable {raw : Entries} {settings : Settings} {source : Option String} {models : List Model}

/-- Whatever definition is loaded, the columns by which an insertion of a child finds the row in its
way are a key of the table that the migration declares exactly if the model has such a key for the
parent. For a parent that is marked as globally unique this means that its field is the `id`. -/
theorem loadModels_hasKey_iff (loaded : loadModels raw settings source = .ok models) {m : Model}
    (member : m ∈ models) :
    (∀ s, script models m = .ok s → s.up = (tableDefinition models m).upText) ∧
      m.queriesOf .upsert = .ok (m.parents.map fun p => (m.upsertPlan p).query) ∧
      ∀ p ∈ m.parents, ∃ s conflict, (m.upsertPlan p).statement = .insert s ∧
        (m.upsertPlan p).query.Writes (.insert s) ∧ s.conflict = some conflict ∧
        ((tableDefinition models m).HasKey conflict.target ↔ m.HasConflictKey p) := by
  have whole := loadModels_loaded loaded member
  refine ⟨fun s made => up_of_script made, m.queriesOf_upsert, fun p parent => ?_⟩
  refine ⟨_, _, rfl, (m.upsertPlan p).writes_query, rfl, ?_⟩
  cases single : p.globallyUnique with
  | true =>
      rw [if_pos rfl, whole.hasKey_parent parent]
      exact ⟨fun isId => ⟨fun _ => isId, by simp [single]⟩, fun has => has.single single⟩
  | false =>
      rw [if_neg Bool.false_ne_true, whole.hasKey_idColumns]
      exact ⟨fun key => ⟨by simp [single], fun _ => key⟩, fun has => has.usual single⟩

def profiles (single : Bool) : Entries := .ofFields [("models", .list [
  .ofFields [("name", .text "Profile"), ("fields", .list [.text "motto"]), ("belongs_to", .list [
    .ofFields [("model", .text "Account"), ("globally_unique", .bool single)]])],
  .ofFields [("name", .text "Account")]])]

theorem profiles_hasKey : ∃ models m p s conflict,
    loadModels (profiles false) .default none = .ok models ∧ m ∈ models ∧ p ∈ m.parents ∧
    (m.upsertPlan p).statement = .insert s ∧ s.conflict = some conflict ∧
    (tableDefinition models m).HasKey conflict.target := by
  obtain ⟨models, m, loaded, member, checked⟩ := exists_loaded (profiles false)
    (fun m _ => m.parents.any fun p => decide (m.HasConflictKey p)) (by decide +kernel)
  simp only [List.any_eq_true, decide_eq_true_eq] at checked
  obtain ⟨p, parent, has⟩ := checked
  obtain ⟨s, conflict, inserts, _, given, agrees⟩ :=
    (loadModels_hasKey_iff loaded member).2.2 p parent
  exact ⟨models, m, p, s, conflict, loaded, member, parent, inserts, given, agrees.mpr has⟩

theorem singleProfile_noKey : ∃ models m p s conflict,
    loadModels (profiles true) .default none = .ok models ∧ Audit.Passes models .default ∧
    m ∈ models ∧ p ∈ m.parents ∧ (m.upsertPlan p).statement = .insert s ∧
    s.conflict = some conflict ∧ conflict.target = ["account_id"] ∧
    (tableDefinition models m).primaryKey = ["id"] ∧
    (tableDefinition models m).constraints = [.foreignKey "account_id" ⟨"public", "accounts"⟩] ∧
    ¬ (tableDefinition models m).HasKey conflict.target := by
  obtain ⟨models, m, loaded, member, checked⟩ := exists_loaded (profiles true)
    (fun m models => !(Audit.findings models .default).hasErrors &&
      (tableDefinition models m).primaryKey == ["id"] &&
      (tableDefinition models m).constraints ==
        [.foreignKey "account_id" ⟨"public", "accounts"⟩] &&
      m.parents.any fun p => p.globallyUnique && p.column == "account_id") (by decide +kernel)
  simp only [Bool.and_eq_true, Bool.not_eq_true', beq_iff_eq, List.any_eq_true] at checked
  obtain ⟨⟨⟨passes, primary⟩, constraints⟩, p, parent, single, column⟩ := checked
  have target : (if p.globallyUnique then [p.column] else m.idColumns.map (·.1)) =
      ["account_id"] := by
    rw [if_pos single, column]
  refine ⟨models, m, p, _, _, loaded, passes, member, parent, rfl, rfl, target, primary,
    constraints, ?_⟩
  rw [target, hasKey_singleton, primary, constraints]
  simp

/-- Whatever definition is loaded, an insertion gives a required column exactly if it identifies
the row or its organization, or belongs to a data field that may be set: by owners if the row is
only inserted, and by all writers if an insertion may change the row in its way. -/
theorem loadModels_gives (loaded : loadModels raw settings source = .ok models) {m : Model}
    (member : m ∈ models) :
    (∀ s, script models m = .ok s → s.up = (tableDefinition models m).upText) ∧
      m.queriesOf .insert = .ok [m.insertPlan.query] ∧
      (∃ s, m.insertPlan.statement = .insert s ∧ m.insertPlan.query.Writes (.insert s) ∧
        m.Gives models s Field.ownerWritable) ∧
      m.queriesOf .upsert = .ok (m.parents.map fun p => (m.upsertPlan p).query) ∧
      ∀ p ∈ m.parents, ∃ s, (m.upsertPlan p).statement = .insert s ∧
        (m.upsertPlan p).query.Writes (.insert s) ∧ m.Gives models s Field.writable := by
  have whole := loadModels_loaded loaded member
  refine ⟨fun s made => up_of_script made, ?_, ?_, m.queriesOf_upsert, fun p _ => ?_⟩
  · exact Model.queriesOf_eq_ok.mpr ⟨[m.insertPlan], rfl, rfl⟩
  · exact ⟨_, rfl, m.insertPlan.writes_query, whole.gives_insertion Field.ownerWritable none⟩
  · refine ⟨_, rfl, (m.upsertPlan p).writes_query, ?_⟩
    rw [m.upsertDataFields_eq p]
    exact whole.gives_insertion Field.writable _

theorem profiles_gives : ∃ models m s f, loadModels (profiles false) .default none = .ok models ∧
    m ∈ models ∧ m.insertPlan.statement = .insert s ∧ f ∈ m.fields ∧ f.column = "account_id" ∧
    (columnDefinition models m f).IsRequired ∧ f.column ∈ s.columns := by
  obtain ⟨models, m, loaded, member, checked⟩ := exists_loaded (profiles false)
    (fun m models => m.fields.any fun f => f.column == "account_id" &&
      decide (columnDefinition models m f).IsRequired && f.ownerWritable && f.name != "id")
    (by decide +kernel)
  simp only [List.any_eq_true, Bool.and_eq_true, beq_iff_eq, decide_eq_true_eq, bne_iff_ne]
    at checked
  obtain ⟨f, held, ⟨⟨column, required⟩, allowed⟩, notId⟩ := checked
  obtain ⟨s, inserts, _, gives⟩ := (loadModels_gives loaded member).2.2.1
  exact ⟨models, m, s, f, loaded, member, inserts, held, column, required,
    (gives f held required).mpr (.inr ⟨allowed, notId⟩)⟩

theorem profiles_lackMotto : ∃ models m f, loadModels (profiles false) .default none = .ok models ∧
    Audit.Passes models .default ∧ m ∈ models ∧ f ∈ m.fields ∧ f.column = "motto" ∧
    (columnDefinition models m f).IsRequired ∧
    m.insertPlan.statement = .insert (m.insertion m.ownerWritableFields none) ∧
    "motto" ∉ (m.insertion m.ownerWritableFields none).columns := by
  obtain ⟨models, m, loaded, member, checked⟩ := exists_loaded (profiles false)
    (fun m models => !(Audit.findings models .default).hasErrors &&
      !(m.insertion m.ownerWritableFields none).columns.contains "motto" &&
      m.fields.any fun f => f.column == "motto" &&
        decide (columnDefinition models m f).IsRequired) (by decide +kernel)
  simp only [Bool.and_eq_true, Bool.not_eq_true', List.contains_eq_mem, decide_eq_false_iff_not,
    List.any_eq_true, beq_iff_eq, decide_eq_true_eq] at checked
  obtain ⟨⟨passes, missing⟩, f, held, column, required⟩ := checked
  exact ⟨models, m, f, loaded, passes, member, held, column, required, rfl, missing⟩

end

end TenantSql
