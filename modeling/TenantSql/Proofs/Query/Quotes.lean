import TenantSql.Proofs.Definition.Loaded
import TenantSql.Proofs.Query.Plan
import TenantSql.Proofs.Sql.Quoted

/-!
# What the statements of a model quote

Constants are the permissions and tiers that a model tests, and the names of the
fields of nested rows; labels are the output names of children and references.
Nothing else that a definition holds is quoted.
-/

namespace TenantSql

open Sql

namespace Model

variable {models : List Model} {m : Model}

inductive MayQuote (models : List Model) (m : Model) : Quote → Prop
  | admin : MayQuote models m (.constant Permission.admin)
  | tier {name : String} (known : name ∈ ["owner", "write", "read"]) :
      MayQuote models m (.constant name)
  | permission {name : String}
      (own : name ∈ [m.ownerPermission, m.writePermission, m.readPermission]) :
      MayQuote models m (.constant name)
  | field {other : Model} {f : Field} (listed : other ∈ models) (held : f ∈ other.fields) :
      MayQuote models m (.constant f.name)
  | getName {c : Child} (child : c ∈ m.children) : MayQuote models m (.label c.getName)
  | listName {c : Child} (child : c ∈ m.children) : MayQuote models m (.label c.listName)
  | outputName {r : Reference} (reference : r ∈ m.references) :
      MayQuote models m (.label r.outputName)

/-! ## Tests -/

theorem quotes_idTests (m : Model) (tableAlias : Option String) :
    (m.idTests tableAlias).flatMap Condition.quotes = [] := by
  rw [idTests, idComparisons, List.map_map, List.flatMap_map, List.flatMap_eq_nil_iff]
  exact fun _ _ => rfl

theorem quotes_organizationTest (m : Model) (tableAlias : Option String) :
    (m.organizationTest tableAlias).flatMap Condition.quotes = [] := by
  unfold organizationTest
  split <;> rfl

theorem quotes_ofParentTests (m : Model) (p : Parent) :
    (m.ofParentTests p).flatMap Condition.quotes = [] := by
  simp [ofParentTests, quotes_organizationTest, Condition.quotes, Comparison.quotes]

theorem quotes_permissionCheck (m : Model) (permissions : List String) :
    (m.permissionCheck permissions).quotes = permissions.map .constant := by
  simp [permissionCheck, Permission.ofActors, Condition.quotes, Comparison.quotes]

theorem quotes_childComparisons (c : Child) (tableAlias : String) (organization : Option String)
    (parent : Operand String) :
    (c.comparisons tableAlias organization parent).flatMap Comparison.quotes = [] := by
  cases organization <;> rfl

theorem quotes_referenceComparisons (r : Reference) (tenantScoped : Bool) :
    (r.comparisons tenantScoped : List (Comparison String)).flatMap Comparison.quotes = [] := by
  unfold Reference.comparisons
  split <;> rfl

/-! ## Nested rows -/

theorem mayQuote_of_object {target : Model} (listed : target ∈ models) {fields : List Field}
    (own : ∀ f ∈ fields, f ∈ target.readableFields) {table : Option String} :
    ∀ quote ∈ (RowValue.object (objectOf fields table)).quotes, m.MayQuote models quote := by
  intro quote member
  simp only [RowValue.quotes, objectOf, List.map_map, List.mem_map, Function.comp_apply] at member
  obtain ⟨f, held, rfl⟩ := member
  exact .field listed (List.mem_filter.mp (own f held)).1

theorem mayQuote_of_subquery {c : Child} {target : Model} (leads : c.Leads models target)
    {fetch : FetchType} {organization : Option String} {parent : Operand String}
    {q : Subquery String} (found : c.subquery? fetch organization parent = some q) :
    ∀ quote ∈ q.quotes, m.MayQuote models quote := by
  intro quote member
  cases fetch with
  | none => cases found
  | id =>
      cases found
      simp [Subquery.quotes, Child.idSubquery, RowValue.quotes, quotes_childComparisons] at member
  | data =>
      cases found
      have joins : (c.dataSubquery organization parent).join.toList.flatMap
          (fun join => join.condition.quotes) = [] := by
        cases given : c.through <;> simp [Child.dataSubquery, given, Comparison.quotes]
      rw [Subquery.quotes, joins] at member
      simp only [Child.dataSubquery, quotes_childComparisons, List.append_nil] at member
      exact mayQuote_of_object leads.listed (fun f held => leads.fields ▸ held) quote member

theorem mayQuote_of_childItem (all : ∀ m ∈ models, m.Loaded models) (member : m ∈ models)
    {c : Child} (child : c ∈ m.children) {fetch : FetchType} {organization : Option String}
    {parent : Operand String} {item : SelectItem String} {label : String}
    (found : (c.subquery? fetch organization parent).map (.nested · label) = some item)
    (labelled : m.MayQuote models (.label label)) :
    ∀ quote ∈ item.quotes, m.MayQuote models quote := by
  obtain ⟨q, fetched, rfl⟩ := Option.map_eq_some_iff.mp found
  obtain ⟨target, leads⟩ := (all m member).children c child
  intro quote among
  rcases List.mem_append.mp among with inside | same
  · exact mayQuote_of_subquery leads fetched quote inside
  · rw [List.mem_singleton.mp same]
    exact labelled

theorem mayQuote_of_reference (all : ∀ m ∈ models, m.Loaded models) (member : m ∈ models)
    {r : Reference} (reference : r ∈ m.references) :
    (∀ quote ∈ (r.joinedItem : SelectItem String).quotes, m.MayQuote models quote) ∧
      ∀ tenantScoped, ∀ quote ∈ (r.nestedItem tenantScoped : SelectItem String).quotes,
        m.MayQuote models quote := by
  obtain ⟨target, leads⟩ := (all m member).references r reference
  have object : ∀ quote ∈ (RowValue.object r.objectEntries).quotes, m.MayQuote models quote :=
    mayQuote_of_object leads.listed leads.fields
  constructor
  · intro quote among
    rcases List.mem_append.mp among with inside | same
    · exact object quote inside
    · rw [List.mem_singleton.mp same]
      exact .outputName reference
  · intro tenantScoped quote among
    rcases List.mem_append.mp among with inside | same
    · simp only [Subquery.quotes, quotes_referenceComparisons, Option.toList_none,
        List.flatMap_nil, List.append_nil] at inside
      exact object quote inside
    · rw [List.mem_singleton.mp same]
      exact .outputName reference

theorem quotes_columnItems (fields : List Field) :
    (columnItems fields).flatMap SelectItem.quotes = [] := by
  simp [columnItems, SelectItem.quotes]

/-! ## Statements -/

theorem mayQuote_of_selectOne (all : ∀ m ∈ models, m.Loaded models) (member : m ∈ models)
    (populated : Bool) :
    ∀ quote ∈ (m.selectOneStatement populated).quotes, m.MayQuote models quote := by
  have joins : (m.selectOneStatement populated).joins.flatMap LeftJoin.quotes = [] := by
    rw [List.flatMap_eq_nil_iff]
    intro join joined
    cases populated with
    | false => cases joined
    | true =>
        obtain ⟨r, _, rfl⟩ := List.mem_map.mp joined
        exact quotes_referenceComparisons r _
  intro quote among
  rw [Select.quotes, joins] at among
  simp only [selectOneStatement, List.flatMap_append, quotes_columnItems, quotes_idTests,
    quotes_organizationTest, List.nil_append, List.append_nil] at among
  obtain ⟨item, listed, inside⟩ := List.mem_flatMap.mp among
  cases populated with
  | false => cases listed
  | true =>
      rcases List.mem_append.mp listed with child | reference
      · obtain ⟨c, held, found⟩ := List.mem_filterMap.mp child
        exact mayQuote_of_childItem all member held found (.getName held) quote inside
      · obtain ⟨r, held, rfl⟩ := List.mem_map.mp reference
        exact (mayQuote_of_reference all member (List.mem_filter.mp held).1).1 quote inside

theorem mayQuote_of_list (all : ∀ m ∈ models, m.Loaded models) (member : m ∈ models)
    (populated : Bool) (order : Option OrderBy) :
    ∀ quote ∈ (m.listStatement populated order).quotes, m.MayQuote models quote := by
  intro quote among
  simp only [Select.quotes, listStatement, List.flatMap_append, quotes_columnItems,
    quotes_organizationTest, List.flatMap_nil, List.nil_append, List.append_nil] at among
  obtain ⟨item, listed, inside⟩ := List.mem_flatMap.mp among
  cases populated with
  | false => cases listed
  | true =>
      rcases List.mem_append.mp listed with child | reference
      · obtain ⟨c, held, found⟩ := List.mem_filterMap.mp child
        exact mayQuote_of_childItem all member held found (.listName held) quote inside
      · obtain ⟨r, held, rfl⟩ := List.mem_map.mp reference
        exact (mayQuote_of_reference all member (List.mem_filter.mp held).1).2 _ quote inside

theorem mayQuote_of_lookup : ∀ quote ∈ m.tierLookup.quotes, m.MayQuote models quote := by
  intro quote among
  simp only [tierLookup, TierLookup.quotes, PermissionTest.quotes, Permission.ofActors,
    Comparison.quotes, List.flatMap_cons, List.flatMap_nil, List.map_cons, List.map_nil,
    List.cons_append, List.nil_append, List.append_nil, List.mem_cons, List.not_mem_nil,
    or_false] at among
  rcases among with rfl | rfl | rfl | rfl | rfl | rfl | rfl | rfl | rfl | rfl | rfl
  · exact .admin
  · exact .permission (by simp)
  · exact .tier (by simp)
  · exact .permission (by simp)
  · exact .tier (by simp)
  · exact .permission (by simp)
  · exact .tier (by simp)
  · exact .admin
  · exact .permission (by simp)
  · exact .permission (by simp)
  · exact .permission (by simp)

theorem quotes_update (m : Model) (parent : Option Parent) :
    (m.updateStatement parent).quotes = [] := by
  cases parent <;>
    simp [updateStatement, Statement.quotes, quotes_idTests, quotes_organizationTest,
      Condition.quotes, Comparison.quotes]

theorem quotes_upsert (m : Model) (p : Parent) : (m.upsertPlan p).statement.quotes = [] := by
  have resolution : (m.upsertResolution p).quotes = [] := by
    unfold upsertResolution
    split
    · rfl
    · simp [Resolution.quotes, quotes_organizationTest, Condition.quotes, Comparison.quotes]
  show (m.upsertResolution p).quotes ++ [] = []
  rw [resolution, List.append_nil]

theorem mayQuote_of_delete :
    ∀ quote ∈ m.deletePlan.statement.quotes, m.MayQuote models quote := by
  intro quote among
  simp only [deletePlan, Statement.quotes, List.flatMap_append, quotes_idTests,
    quotes_organizationTest, List.nil_append] at among
  split at among
  · rw [List.flatMap_singleton, quotes_permissionCheck, List.map_singleton,
      List.mem_singleton] at among
    exact among ▸ .permission List.mem_cons_self
  · cases among

theorem quotes_deleteAllChildren (m : Model) (p : Parent) :
    (m.deleteAllChildrenPlan p).statement.quotes = [] :=
  m.quotes_ofParentTests p

theorem quotes_deleteRemovedChildren (m : Model) (p : Parent) :
    (m.deleteRemovedChildrenPlan p).statement.quotes = [] := by
  show (m.ofParentTests p ++ _).flatMap Condition.quotes = []
  rw [List.flatMap_append, quotes_ofParentTests]
  rfl

theorem quotes_deleteWithParent (m : Model) (p : Parent) :
    (m.deleteWithParentPlan p).statement.quotes = [] := by
  show (m.ofParentTests p ++ m.idTests none).flatMap Condition.quotes = []
  rw [List.flatMap_append, quotes_ofParentTests, quotes_idTests]
  rfl

/-- A statement of a loaded model quotes nothing else. -/
theorem HasPlan.mayQuote (all : ∀ m ∈ models, m.Loaded models) (member : m ∈ models) {p : Plan}
    (plan : m.HasPlan p) : ∀ quote ∈ p.statement.quotes, m.MayQuote models quote := by
  -- Only reads, the deletion that checks a permission and the lookup of a tier quote anything.
  have none {quotes : List Quote} (absent : quotes = []) :
      ∀ quote ∈ quotes, m.MayQuote models quote := by
    rw [absent]
    exact nofun
  cases plan with
  | insert => exact none rfl
  | update => exact none (m.quotes_update .none)
  | @updateWithParent q => exact none (m.quotes_update (some q))
  | selectOne => exact mayQuote_of_selectOne all member _
  | delete => exact mayQuote_of_delete
  | deleteAllChildren => exact none (m.quotes_deleteAllChildren _)
  | deleteRemovedChildren => exact none (m.quotes_deleteRemovedChildren _)
  | deleteWithParent => exact none (m.quotes_deleteWithParent _)
  | list => exact mayQuote_of_list all member _ _
  | upsert => exact none (m.quotes_upsert _)
  | lookup => exact mayQuote_of_lookup

theorem MayQuote.label_ne_empty (all : ∀ m ∈ models, m.Loaded models) (member : m ∈ models)
    {name : String} (quoted : m.MayQuote models (.label name)) : name ≠ "" := by
  cases quoted with
  | @getName c child =>
      obtain ⟨target, leads⟩ := (all m member).children c child
      exact leads.named.1
  | @listName c child =>
      obtain ⟨target, leads⟩ := (all m member).children c child
      exact leads.named.2
  | @outputName r reference =>
      obtain ⟨target, leads⟩ := (all m member).references r reference
      exact leads.named

end Model

end TenantSql
