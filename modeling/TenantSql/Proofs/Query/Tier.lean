import Mathlib.Data.List.Find
import TenantSql.Proofs.Query.Lexemes
import TenantSql.Proofs.Query.Permission

/-!
# The highest tier

The lookup of a tier reads one row for every permission that was granted on an object. `WHERE` leaves
the rows of the actors with one of the four permissions that the tiers ask for, so no tier misses a
row, and the first tier that some row grants is the answer. That holds whatever the permissions are
called, also if two of them have one name.
-/

namespace TenantSql

open Sql

namespace Permission

variable {ι : Type} [DecidableEq ι] {organization object : ι} {actors : List ι}
  {rows : List (Row ι)} {row : Row ι} {permissions : List String}

def Concerns (organization : ι) (actors : List ι) (object : ι) (row : Row ι) : Prop :=
  row "organization_id" = some (.id organization) ∧
    (∃ actor ∈ actors, row "actor_id" = some (.id actor)) ∧ row "object_id" = some (.id object)

def Grants (permissions : List String) (row : Row ι) : Prop :=
  ∃ permission ∈ permissions, row "permission" = some (.text permission)

def Granted (rows : List (Row ι)) (organization : ι) (actors : List ι) (object : ι)
    (permissions : List String) : Prop :=
  ∃ row ∈ rows, Concerns organization actors object row ∧ Grants permissions row

instance : Decidable (Concerns organization actors object row) :=
  inferInstanceAs (Decidable (_ ∧ (∃ _ ∈ _, _) ∧ _))

instance : Decidable (Grants permissions row) :=
  inferInstanceAs (Decidable (∃ _ ∈ _, _))

instance : Decidable (Granted rows organization actors object permissions) :=
  inferInstanceAs (Decidable (∃ _ ∈ _, _))

theorem equals_passes_iff {name param : String} {value : Datum ι}
    (bound : (asked organization actors object).value param = some value) :
    (Comparison.equals (column name) (.param param)).passes (asked organization actors object) row ↔
      row name = some value := by
  rw [Comparison.passes, bound, sameDatum_some_iff, column]

theorem actors_passes_iff :
    (Comparison.inArray (column "actor_id") Binding.actorIds).passes
        (asked organization actors object) row ↔
      ∃ actor ∈ actors, row "actor_id" = some (.id actor) := by
  simp [Comparison.passes, asked, column]

theorem permission_passes_iff {bound : Bound ι} :
    (Comparison.oneOf (column "permission") permissions).passes bound row ↔
      Grants permissions row := by
  simp [Comparison.passes, column, Grants]

end Permission

def Sql.PermissionTest.permissions : PermissionTest → List String
  | .oneOf permissions => permissions
  | .exactly permission => [permission]

theorem Sql.PermissionTest.passes_iff {ι : Type} [DecidableEq ι] {row : Row ι}
    {test : PermissionTest} : test.passes row ↔ Permission.Grants test.permissions row := by
  cases test <;> simp [passes, permissions, Permission.Grants]

namespace Model

open Permission

variable {ι : Type} [DecidableEq ι] {organization object : ι} {actors : List ι} {row : Row ι}
  {tables : TableName → List (Row ι)}

def tierPermissions (m : Model) : List String :=
  [admin, m.ownerPermission, m.writePermission, m.readPermission]

theorem tierLookup_passes_iff (m : Model) :
    m.tierLookup.conditions.all (·.passes (asked organization actors object) row) ↔
      Concerns organization actors object row ∧ Grants m.tierPermissions row := by
  simp only [tierLookup, ofActors, List.all_append, List.all_cons, List.all_nil, Bool.and_true,
    Bool.and_eq_true]
  rw [equals_passes_iff rfl, equals_passes_iff rfl, actors_passes_iff, permission_passes_iff,
    Concerns, and_assoc, and_assoc, and_assoc]
  rfl

/-- No row that grants what a tier asks for is lost. -/
theorem any_passes_iff (m : Model) {test : PermissionTest}
    (asks : test.permissions ⊆ m.tierPermissions) {rows : List (Row ι)} :
    ((rows.filter fun row =>
        m.tierLookup.conditions.all (·.passes (asked organization actors object) row)).any
      test.passes) ↔ Granted rows organization actors object test.permissions := by
  simp only [List.any_eq_true, List.mem_filter, tierLookup_passes_iff, PermissionTest.passes_iff,
    Granted]
  refine exists_congr fun row => ?_
  rw [and_assoc, and_assoc]
  -- What `WHERE` asks for besides is implied by what the tier asks for.
  refine and_congr_right fun _ => and_congr_right fun _ => and_iff_right_of_imp ?_
  rintro ⟨permission, asked, granted⟩
  exact ⟨permission, asks asked, granted⟩

theorem permissions_subset_of_mem_tiers (m : Model) :
    ∀ tier ∈ m.tierLookup.tiers, tier.1.permissions ⊆ m.tierPermissions := by
  simp [tierLookup, PermissionTest.permissions, tierPermissions]

theorem value_eq_find (m : Model) :
    m.tierLookup.value (asked organization actors object) tables =
      (m.tierLookup.tiers.find? fun tier => decide
        (Granted (tables m.tierLookup.table) organization actors object tier.1.permissions)).map
          (·.2) := by
  rw [TierLookup.value_eq_answer, TierLookup.answer]
  refine congrArg (Option.map _) (List.find?_congr fun tier member => ?_)
  rw [Bool.eq_iff_iff, decide_eq_true_iff]
  exact m.any_passes_iff (m.permissions_subset_of_mem_tiers tier member)

theorem value_eq_highest (m : Model) :
    m.tierLookup.value (asked organization actors object) tables =
      if Granted (tables m.tierLookup.table) organization actors object [admin, m.ownerPermission]
      then some "owner"
      else if Granted (tables m.tierLookup.table) organization actors object [m.writePermission]
      then some "write"
      else if Granted (tables m.tierLookup.table) organization actors object [m.readPermission]
      then some "read"
      else none := by
  rw [value_eq_find, tierLookup]
  simp only [List.find?_cons, List.find?_nil, PermissionTest.permissions]
  by_cases owner : Granted (tables ⟨m.authSchema, "object_permissions"⟩) organization actors object
      [admin, m.ownerPermission]
  case pos => simp [owner]
  by_cases write : Granted (tables ⟨m.authSchema, "object_permissions"⟩) organization actors object
      [m.writePermission]
  case pos => simp [owner, write]
  by_cases read : Granted (tables ⟨m.authSchema, "object_permissions"⟩) organization actors object
      [m.readPermission]
  case pos => simp [owner, write, read]
  case neg => simp [owner, write, read]

omit [DecidableEq ι] in
/-- What was granted to others, on other objects or in other organizations does not matter. -/
theorem granted_congr {rows others : List (Row ι)} {permissions : List String}
    (same : ∀ row, Concerns organization actors object row → (row ∈ rows ↔ row ∈ others)) :
    Granted rows organization actors object permissions ↔
      Granted others organization actors object permissions := by
  refine exists_congr fun row => ?_
  constructor
  · rintro ⟨listed, concerns, grants⟩
    exact ⟨(same row concerns).mp listed, concerns, grants⟩
  · rintro ⟨listed, concerns, grants⟩
    exact ⟨(same row concerns).mpr listed, concerns, grants⟩

theorem bindings_lookup (m : Model) (name : String) :
    ({ name, statement := .lookup m.tierLookup } : Plan).query.bindings =
      [Binding.organization, Binding.actorIds, Binding.id] := by
  rw [Plan.bindings_query, Statement.fragment, TierLookup.params_fragment]
  exact (by decide : Text.distinct ([] ++
    [Binding.organization, Binding.actorIds, Binding.id]) =
      [Binding.organization, Binding.actorIds, Binding.id])

theorem plans_lookup {m : Model} (plain : m.isJoin = false) :
    m.plans .lookupObjectPermissions =
      .ok [{ name := "lookup_object_permissions", statement := .lookup m.tierLookup }] := by
  rw [plans, lookupPlan, plain]
  rfl

theorem quotes_tierLookup (m : Model) :
    m.tierLookup.quotes = [admin, m.ownerPermission, "owner", m.writePermission, "write",
      m.readPermission, "read", admin, m.ownerPermission, m.writePermission,
      m.readPermission].map .constant :=
  rfl

theorem lookup_splitsSafely (m : Model) (name : String) (schema : isIdentifier m.authSchema)
    (noZero : ∀ permission ∈ m.tierPermissions, '\x00' ∉ permission.toList) :
    ({ name, statement := .lookup m.tierLookup } : Plan).query.SplitsSafely
      (· ∈ m.tierLookup.quotes) (.lookup m.tierLookup) := by
  have quotes : (Statement.lookup m.tierLookup : Statement String).quotes =
    m.tierLookup.quotes := rfl
  refine Plan.splitsSafely (tierLookup_names (fun _ => .inl) schema) (fun quote => id)
    (fun label quoted => ?_) (fun quote quoted => ?_)
  · rw [quotes, quotes_tierLookup] at quoted
    simp at quoted
  · rw [quotes, quotes_tierLookup] at quoted
    have tiers : ∀ tier ∈ ["owner", "write", "read"], '\x00' ∉ tier.toList := by decide
    obtain ⟨constant, listed, rfl⟩ := List.mem_map.mp quoted
    have among : constant ∈ m.tierPermissions ∨ constant ∈ ["owner", "write", "read"] := by
      simp only [tierPermissions, List.mem_cons] at listed ⊢
      tauto
    exact among.elim (noZero constant) (tiers constant)

end Model

/-- The lookup of a model that is no join model is one query, whose constants are the permissions and
the names of the tiers. Whatever the permissions are called and whatever rows the table has, the
value of the query is the highest tier of which some row grants a permission to one of the actors on
the object in the organization; rows that concern others have no influence on it. -/
theorem Model.lookup_answers_highest (m : Model) (plain : m.isJoin = false) :
    ∃ q, m.queriesOf .lookupObjectPermissions = .ok [q] ∧ q.Writes (.lookup m.tierLookup) ∧
      q.bindings = [Binding.organization, Binding.actorIds, Binding.id] ∧
      (isIdentifier m.authSchema →
        (∀ permission ∈ m.tierPermissions, '\x00' ∉ permission.toList) →
          q.SplitsSafely (· ∈ m.tierLookup.quotes) (.lookup m.tierLookup)) ∧
      ∀ (ι : Type) [DecidableEq ι] (organization : ι) (actors : List ι) (object : ι)
        (tables : TableName → List (Row ι)),
        m.tierLookup.value (Permission.asked organization actors object) tables =
          (if Permission.Granted (tables ⟨m.authSchema, "object_permissions"⟩) organization actors
              object [Permission.admin, m.ownerPermission] then some "owner"
            else if Permission.Granted (tables ⟨m.authSchema, "object_permissions"⟩) organization
              actors object [m.writePermission] then some "write"
            else if Permission.Granted (tables ⟨m.authSchema, "object_permissions"⟩) organization
              actors object [m.readPermission] then some "read"
            else none) ∧
        ∀ others : TableName → List (Row ι),
          (∀ row, Permission.Concerns organization actors object row →
            (row ∈ tables ⟨m.authSchema, "object_permissions"⟩ ↔
              row ∈ others ⟨m.authSchema, "object_permissions"⟩)) →
          m.tierLookup.value (Permission.asked organization actors object) others =
            m.tierLookup.value (Permission.asked organization actors object) tables := by
  refine ⟨_, queriesOf_eq_ok.mpr ⟨_, plans_lookup plain, rfl⟩, Plan.writes_query _, m.bindings_lookup _,
    m.lookup_splitsSafely _, fun ι _ organization actors object tables =>
      ⟨m.value_eq_highest, fun others same => ?_⟩⟩
  rw [value_eq_find, value_eq_find]
  refine congrArg (Option.map _) (List.find?_congr fun tier _ => ?_)
  rw [Bool.eq_iff_iff, decide_eq_true_iff, decide_eq_true_iff]
  exact (granted_congr same).symm

def quotedNotes : Entries := .ofFields [("models", .list [
  .ofFields [("name", .text "Note"), ("owner_permission", .text "org_admin"),
    ("write_permission", .text "writer's")]])]

def noteLookup : String :=
  "SELECT CASE WHEN bool_or(permission IN ('org_admin', 'org_admin')) THEN 'owner' " ++
    "WHEN bool_or(permission = 'writer''s') THEN 'write' " ++
    "WHEN bool_or(permission = 'Note::read') THEN 'read' ELSE NULL END AS _permission " ++
    "FROM auth.object_permissions WHERE organization_id = $1 AND actor_id = ANY($2) " ++
    "AND object_id = $3 AND permission IN ('org_admin', 'org_admin', 'writer''s', 'Note::read')"

def noteGrants : List (Row Nat) :=
  [Permission.Grant.row ⟨1, 2, "writer's"⟩ (some 3),
    Permission.Grant.row ⟨1, 4, "org_admin"⟩ (some 3),
    Permission.Grant.row ⟨5, 2, "org_admin"⟩ (some 3),
    Permission.Grant.row ⟨1, 2, "org_admin"⟩ (some 6)]

theorem quotedNotes_looked_up : ∃ models m q, loadModels quotedNotes .default none = .ok models ∧
    m ∈ models ∧ m.isJoin = false ∧ m.queriesOf .lookupObjectPermissions = .ok [q] ∧
    q.text = noteLookup ∧ q.SplitsSafely (· ∈ m.tierLookup.quotes) (.lookup m.tierLookup) ∧
    m.tierLookup.value (Permission.asked 1 [2] 3) (fun _ => noteGrants) = some "write" := by
  obtain ⟨models, m, loaded, member, checked⟩ := exists_loaded quotedNotes
    (fun m _ => !m.isJoin && isIdentifier m.authSchema &&
      m.tierPermissions == ["org_admin", "org_admin", "writer's", "Note::read"] &&
      ({ name := "lookup_object_permissions", statement := .lookup m.tierLookup } : Plan).bytes ==
        Text.bytes noteLookup) (by decide +kernel)
  simp only [Bool.and_eq_true, Bool.not_eq_true', beq_iff_eq] at checked
  obtain ⟨⟨⟨plain, schema⟩, permissions⟩, text⟩ := checked
  obtain ⟨q, queries, _, _, splits, answers⟩ := Model.lookup_answers_highest m plain
  obtain ⟨_, planned, built⟩ := Model.queriesOf_eq_ok.mp queries
  cases (Model.plans_lookup plain).symm.trans planned
  have text := Plan.text_eq_of_bytes text
  rw [← List.singleton_inj.mp built] at text
  refine ⟨models, m, q, loaded, member, plain, queries, text,
    splits schema (by rw [permissions]; decide), ?_⟩
  simp only [Model.tierPermissions, List.cons.injEq, and_true] at permissions
  obtain ⟨_, owner, write, read⟩ := permissions
  rw [(answers Nat 1 [2] 3 fun _ => noteGrants).1, owner, write, read]
  decide +kernel

end TenantSql
