import TenantSql.Proofs.Audit.Passed
import TenantSql.Proofs.Query.Names
import TenantSql.Proofs.Sql.Params

/-!
# Placeholders and bindings

The placeholders in the text of a query are numbered by its bindings, and every
binding has one. For this the text must be legible, and a plan must not reserve
a name that its statement does not use.
-/

namespace TenantSql

open Sql

/-- The placeholders in the text of a query, outside constants and labels, are those of its
bindings, which are distinct: none is unbound and none is unused. -/
structure Sql.Query.IsNumbered (q : Query) : Prop where
  distinct : q.bindings.Nodup
  placeholders : ∃ numbers, parameters? q.text = some numbers ∧
    ∀ k, k ∈ numbers ↔ 1 ≤ k ∧ k ≤ q.bindings.length

namespace Plan

/-- A query is numbered by its bindings if its statement is legible and uses what is reserved. -/
theorem isNumbered {p : Plan} (names : p.statement.EachName HoldsNoParameter)
    (used : ∀ name ∈ p.reserved, name ∈ p.statement.fragment.params) : p.query.IsNumbered := by
  refine ⟨p.nodup_bindings, p.statement.fragment.params.map fun name =>
    p.query.bindings.idxOf name + 1, ?_, fun k => ?_⟩
  · have written : p.query.text = p.statement.fragment.write p.query.parameter := p.writes_query
    rw [written]
    exact Fragment.parameters?_write (Statement.fragment_legible names) fun name =>
      p.query.bindings.idxOf name + 1
  · have bound (name : String) :
        name ∈ p.query.bindings ↔ name ∈ p.statement.fragment.params :=
      mem_bindings.trans ⟨fun either => either.elim (used name) id, .inr⟩
    rw [List.mem_map]
    constructor
    · rintro ⟨name, member, rfl⟩
      exact ⟨Nat.le_add_left _ _, List.idxOf_lt_length_of_mem ((bound name).mpr member)⟩
    · rintro ⟨positive, inside⟩
      have within : k - 1 < p.query.bindings.length := by omega
      refine ⟨p.query.bindings[k - 1], (bound _).mp (List.getElem_mem within), ?_⟩
      rw [List.Nodup.idxOf_getElem p.nodup_bindings]
      omega

end Plan

/-! ## Reserved names are used -/

namespace Model

open Fragment

variable {m : Model}

theorem mem_params_of_equals {s : Statement String} {column : Column} {name : String}
    (tested : .holds (.equals column (.param name)) ∈ s.conditions) : name ∈ s.fragment.params := by
  refine Statement.mem_params_of_condition tested ?_
  simp only [Condition.fragment, Comparison.fragment, mem_params_append]
  exact .inr (by simp [Operand.fragment, params])

theorem mem_params_of_idTests {s : Statement String} {tableAlias : Option String}
    (tested : m.idTests tableAlias ⊆ s.conditions) {name : String} (member : name ∈ m.idBindings) :
    name ∈ s.fragment.params := by
  obtain ⟨column, among, rfl⟩ := List.mem_map.mp member
  exact mem_params_of_equals (tested (List.mem_map_of_mem (List.mem_map_of_mem among)))

theorem mem_params_of_organizationTest {s : Statement String} {tableAlias : Option String}
    (tested : m.organizationTest tableAlias ⊆ s.conditions) {name : String}
    (member : name ∈ m.organizationBinding) : name ∈ s.fragment.params := by
  unfold organizationBinding at member
  split at member
  · cases member
  · rename_i tenant
    rw [List.mem_singleton.mp member]
    have test : .holds (.equals ⟨tableAlias, "organization_id"⟩ (.param Binding.organization)) ∈
        m.organizationTest tableAlias := by
      simp [organizationTest, tenant]
    exact mem_params_of_equals (tested test)

theorem update_reserved_used (parent : Option Parent) {name : String}
    (member : name ∈ m.idBindings) : name ∈ (m.updateStatement parent).fragment.params := by
  have tested : m.idTests none ⊆ (m.updateStatement parent).conditions := by
    intro condition listed
    exact List.mem_append_left _ (List.mem_append_left _ listed)
  exact mem_params_of_idTests tested member

theorem id_mem_idBindings (lawful : m.Lawful) (children : m.children ≠ []) :
    Binding.id ∈ m.idBindings := by
  cases joined : m.join with
  | none => simp [idBindings, idColumns, joined]
  | some join => exact absurd (lawful.joinHasNoChildren (by simp [isJoin, joined])) children

/-- A plan reserves no name that its statement leaves unused. -/
theorem HasPlan.reserved_used (lawful : m.Lawful) {p : Plan} (plan : m.HasPlan p) :
    ∀ name ∈ p.reserved, name ∈ p.statement.fragment.params := by
  intro name reserved
  cases plan with
  | insert | delete | deleteAllChildren | deleteRemovedChildren | deleteWithParent | upsert | lookup =>
      cases reserved
  | update => exact update_reserved_used none reserved
  | @updateWithParent q => exact update_reserved_used (some q) reserved
  | @selectOne populated children =>
      have ids : m.idTests (some mainAlias) ⊆ (m.selectOnePlan populated).statement.conditions :=
        fun _ tested => List.mem_append_left _ tested
      have organization :
          m.organizationTest (some mainAlias) ⊆ (m.selectOnePlan populated).statement.conditions :=
        fun _ tested => List.mem_append_right _ tested
      rcases List.mem_append.mp reserved with early | late
      · rcases List.mem_append.mp early with id | tenant
        · exact mem_params_of_idTests ids id
        · exact mem_params_of_organizationTest organization tenant
      · cases populated with
        | false => cases late
        | true =>
            rw [List.mem_singleton.mp late]
            exact mem_params_of_idTests ids (id_mem_idBindings lawful (children rfl))
  | @list populated request order children admitted =>
      have organization :
          m.organizationTest (some mainAlias) ⊆ (m.listPlan populated order).statement.conditions :=
        fun _ tested => tested
      exact mem_params_of_organizationTest organization reserved

end Model

/-- Whatever definition is loaded, the placeholders of every query of its models are numbered by
the query's bindings, without gaps and without repetition. -/
theorem loadModels_isNumbered {raw : Entries} {settings : Settings} {source : Option String}
    {models : List Model} (loaded : loadModels raw settings source = .ok models) {m : Model}
    (member : m ∈ models) {q : Query} (query : m.HasQuery q) : q.IsNumbered := by
  have all : ∀ m ∈ models, m.Loaded models := fun _ listed => loadModels_loaded loaded listed
  obtain ⟨p, plan, rfl⟩ := Model.hasQuery_iff.mp query
  exact p.isNumbered (plan.names all member)
    (plan.reserved_used (Model.lawful_of_rules (all m member).rules))

def firstPasses (raw : Entries) (check : Model → List Model → Bool) : Bool :=
  match loadModels raw .default none with
  | .ok (m :: rest) => check m (m :: rest)
  | _ => false

theorem exists_loaded (raw : Entries) (check : Model → List Model → Bool)
    (checked : firstPasses raw check) :
    ∃ models m, loadModels raw .default none = .ok models ∧ m ∈ models ∧ check m models := by
  rw [firstPasses] at checked
  split at checked
  · exact ⟨_, _, by assumption, List.mem_cons_self, checked⟩
  · cases checked

namespace Text

/-- The bytes of a text. To compare long texts by them takes fewer steps than to compare the
texts. -/
def bytes (text : String) : List UInt8 :=
  text.toByteArray.data.toList

theorem eq_of_bytes {text other : String} (same : bytes text = bytes other) : text = other :=
  String.toByteArray_inj.mp (ByteArray.ext (Array.toList_inj.mp same))

@[simp] theorem bytes_append (text other : String) :
    bytes (text ++ other) = bytes text ++ bytes other := by
  simp [bytes]

theorem bytes_join (parts : List String) : bytes (String.join parts) = parts.flatMap bytes := by
  induction parts with
  | nil => rfl
  | cons part parts ih => rw [String.join_cons, bytes_append, ih, List.flatMap_cons]

end Text

def Plan.bytes (p : Plan) : List UInt8 :=
  p.statement.fragment.flatMap fun piece => Text.bytes (piece.write p.query.parameter)

theorem Plan.text_eq_of_bytes {p : Plan} {text : String} (same : p.bytes = Text.bytes text) :
    p.query.text = text := by
  have written : p.query.text = p.statement.fragment.write p.query.parameter := p.writes_query
  refine Text.eq_of_bytes (Eq.trans ?_ same)
  rw [written, Fragment.write, Text.bytes_join, List.flatMap_map, Plan.bytes]

def blog (fetch : String) : Entries := .ofFields [("models", .list [
  .ofFields [("name", .text "Post"), ("fields", .list [.text "title"]), ("has", .list [
    .ofFields [("model", .text "Tag"), ("through", .text "PostTag"),
      ("populate_on_get", .text fetch)]])],
  .ofFields [("name", .text "Tag"), ("fields", .list [.text "label"])],
  .ofFields [("name", .text "PostTag"), ("joins", .list [.text "Post", .text "Tag"])]])]

def blogField (table name : String) (type : Option SqlType) : Field :=
  { (default : Field) with
    name, column := name, fullName := table ++ "." ++ name, statedType := type }

def blogKey (table name parent : String) : Field :=
  { blogField table name (some .uuid) with
    indexed := true, writable := true, references := some parent }

def blogTime (table name : String) : Field :=
  { blogField table name (some .timestamp) with
    sortable := .defaultDescending, defaultSql := some "now()" }

def blogTable (name moduleName table : String) (keys own : List Field) : Model :=
  { (default : Model) with
    name, moduleName, table
    schema := "public"
    fields := keys ++ [{ blogField table "organization_id" (some .uuid) with indexed := true },
      blogTime table "updated_at", blogTime table "created_at"] ++ own
    authSchema := "auth"
    ownerPermission := name ++ "::owner"
    writePermission := name ++ "::write"
    readPermission := name ++ "::read"
    defaultSort := some "-updated_at" }

def blogTag : Model :=
  blogTable "Tag" "tag" "tags" [blogField "tags" "id" (some .uuid)] [blogField "tags" "label" none]

def blogPost (fetch : FetchType) : Model :=
  { blogTable "Post" "post" "posts" [blogField "posts" "id" (some .uuid)]
      [blogField "posts" "title" none] with
    children := [{
      model := "Tag", schema := "public", table := "tags", parentColumn := "post_id", many := true
      onGet := fetch, onList := .none
      getName := if fetch == .id then "tag_ids" else "tags", listName := "tags"
      fields := blogTag.fields
      through := some ⟨"PostTag", "public", "post_tags", "tag_id"⟩ }] }

theorem blogPost_children (fetch : FetchType) : (blogPost fetch).children ≠ [] :=
  List.cons_ne_nil _ _

def blogPostTag : Model :=
  { blogTable "PostTag" "post_tag" "post_tags"
      [blogKey "post_tags" "post_id" "public.posts", blogKey "post_tags" "tag_id" "public.tags"]
      [] with
    join := some ⟨("post_id", "tag_id"), some ("Post", "Tag")⟩
    parents := [⟨"Post", "post", "post_id", "post_id", false⟩,
      ⟨"Tag", "tag", "tag_id", "tag_id", false⟩] }

def blogModels (fetch : FetchType) : List Model :=
  [blogPost fetch, blogTag, blogPostTag]

theorem blogPost_mem (fetch : FetchType) : blogPost fetch ∈ blogModels fetch :=
  List.mem_cons_self

theorem loadModels_blog (fetch : FetchType) :
    loadModels (blog fetch.name) .default none = .ok (blogModels fetch) := by
  cases fetch <;> decide +kernel

theorem blog_passes (fetch : FetchType) : Audit.Passes (blogModels fetch) .default := by
  rw [Audit.Passes]
  cases fetch <;> decide +kernel

theorem blog_isNumbered : ∃ models m q, loadModels (blog "id") .default none = .ok models ∧
    m ∈ models ∧ m.HasQuery q ∧ q.name = "select_one_populated" ∧
    q.bindings = ["id", "organization_id"] ∧ q.IsNumbered := by
  have loaded := loadModels_blog .id
  have query : (blogPost .id).HasQuery ((blogPost .id).selectOnePlan true).query :=
    Model.hasQuery_iff.mpr ⟨_, .selectOne fun _ => blogPost_children .id, rfl⟩
  exact ⟨_, _, _, loaded, blogPost_mem .id, query, rfl, by decide +kernel,
    loadModels_isNumbered loaded (blogPost_mem .id) query⟩

end TenantSql
