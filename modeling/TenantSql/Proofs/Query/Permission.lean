import TenantSql.Proofs.Query.Placeholder
import TenantSql.Proofs.Sql.Row

/-!
# Who counts as an owner

The lookup of a tier takes the administrator of an organization for an owner of
every object in it. The check that deletions make does not: it passes only actors
who were granted the permission itself. So the two agree on all grants only if
the owner's permission is that of the administrator.
-/

namespace TenantSql

/-! ## Grants -/

open Sql

namespace Permission

structure Grant (ι : Type) where
  organization : ι
  actor : ι
  permission : String
  deriving DecidableEq, Repr

variable {ι : Type} [DecidableEq ι]

def Grant.row (g : Grant ι) (object : Option ι) : Row ι
  | "organization_id" => some (.id g.organization)
  | "actor_id" => some (.id g.actor)
  | "permission" => some (.text g.permission)
  | "object_id" => object.map .id
  | _ => none

def tables (schema : String) (object : ι) (grants : List (Grant ι)) (table : TableName) :
    List (Row ι) :=
  if table = ⟨schema, "permissions"⟩ then grants.map (·.row none)
  else if table = ⟨schema, "object_permissions"⟩ then grants.map (·.row (some object))
  else []

def asked (organization : ι) (actors : List ι) (object : ι) : Bound ι where
  value := fun name =>
    if name = Binding.organization then some (.id organization)
    else if name = Binding.id then some (.id object)
    else none
  array := fun name => if name = Binding.actorIds then actors.map .id else []

def Held (grants : List (Grant ι)) (organization : ι) (actors : List ι)
    (permissions : List String) : Prop :=
  ∃ g ∈ grants, g.organization = organization ∧ g.actor ∈ actors ∧ g.permission ∈ permissions

variable {organization object : ι} {actors : List ι} {grants : List (Grant ι)} {g : Grant ι}
  {permissions : List String}

theorem ofActors_passes_iff {place : Option ι} :
    ofActors.all (·.passes (asked organization actors object) (g.row place)) ↔
      g.organization = organization ∧ g.actor ∈ actors := by
  have named : Grant.row g place (column "organization_id").name = some (.id g.organization) := rfl
  have acting : Grant.row g place (column "actor_id").name = some (.id g.actor) := rfl
  simp [ofActors, Comparison.passes, asked, named, acting]

theorem oneOf_passes_iff {bound : Bound ι} {place : Option ι} :
    (Comparison.oneOf (column "permission") permissions).passes bound (g.row place) ↔
      g.permission ∈ permissions := by
  simp [Comparison.passes, column, Grant.row]

end Permission

namespace Model

open Permission

variable {ι : Type} [DecidableEq ι] {organization object : ι} {actors : List ι}
  {grants : List (Grant ι)} {permissions : List String} {row : Row ι}

theorem permissionCheck_passes_iff (m : Model) :
    (m.permissionCheck permissions).passes (asked organization actors object)
        (tables m.authSchema object grants) row ↔
      Held grants organization actors permissions := by
  have every (g : Grant ι) :
      (ofActors ++ [Comparison.oneOf (column "permission") permissions]).all
          (·.passes (asked organization actors object) (g.row none)) ↔
        g.organization = organization ∧ g.actor ∈ actors ∧ g.permission ∈ permissions := by
    rw [List.all_append, Bool.and_eq_true, ofActors_passes_iff, List.all_cons, List.all_nil,
      Bool.and_true, oneOf_passes_iff, and_assoc]
  simp only [permissionCheck, Condition.passes, tables, if_pos, List.any_map, List.any_eq_true,
    Function.comp_apply, every, Held]

/-- Whatever else is looked up, the first tier is the answer if some row grants it. -/
theorem answer_eq_first_iff {s : TierLookup String} {bound : Bound ι}
    {tables : TableName → List (Row ι)} {first : PermissionTest} {name : String}
    {others : List (PermissionTest × String)} (tiers : s.tiers = (first, name) :: others)
    (apart : ∀ tier ∈ others, tier.2 ≠ name) :
    s.answer bound tables = some name ↔
      ∃ row ∈ tables s.table, s.conditions.all (·.passes bound row) ∧ first.passes row := by
  have granted : ((tables s.table).filter fun row => s.conditions.all (·.passes bound row)).any
      first.passes ↔ ∃ row ∈ tables s.table, s.conditions.all (·.passes bound row) ∧
        first.passes row := by
    simp only [List.any_eq_true, List.mem_filter, and_assoc]
  rw [TierLookup.answer, tiers, ← granted, List.find?_cons]
  split
  · rename_i holds
    exact iff_of_true rfl holds
  · rename_i fails
    refine iff_of_false (fun found => ?_) (Bool.eq_false_iff.mp fails)
    obtain ⟨tier, later, same⟩ := Option.map_eq_some_iff.mp found
    exact apart tier (List.mem_of_find?_eq_some later) same

/-- The lookup takes an administrator for an owner. -/
theorem answer_tierLookup_eq_owner_iff (m : Model) :
    m.tierLookup.answer (asked organization actors object) (tables m.authSchema object grants) =
        some "owner" ↔
      Held grants organization actors [admin, m.ownerPermission] := by
  have placed : tables m.authSchema object grants m.tierLookup.table =
      grants.map (·.row (some object)) := by
    simp [tables, tierLookup]
  have listed (g : Grant ι) : m.tierLookup.conditions.all
        (·.passes (asked organization actors object) (g.row (some object))) ↔
      (g.organization = organization ∧ g.actor ∈ actors) ∧
        g.permission ∈ [admin, m.ownerPermission, m.writePermission, m.readPermission] := by
    have found : (Comparison.equals (column "object_id") (.param Binding.id)).passes
        (asked organization actors object) (g.row (some object)) :=
      sameDatum_some_iff.mpr rfl
    rw [tierLookup, List.all_append, Bool.and_eq_true, ofActors_passes_iff, List.all_cons, found,
      Bool.true_and, List.all_cons, List.all_nil, Bool.and_true, oneOf_passes_iff]
  have first (g : Grant ι) :
      (PermissionTest.oneOf [admin, m.ownerPermission]).passes (g.row (some object)) ↔
        g.permission ∈ [admin, m.ownerPermission] := by
    simp [PermissionTest.passes, Grant.row]
  rw [answer_eq_first_iff rfl (by simp), placed]
  simp only [List.mem_map, exists_exists_and_eq_and, listed, first, Held]
  refine exists_congr fun g => and_congr_right fun _ => ?_
  rw [and_assoc, and_assoc]
  refine and_congr_right fun _ => and_congr_right fun _ => and_iff_right_of_imp fun granted => ?_
  exact List.mem_append_left [m.writePermission, m.readPermission] granted

/-- The check passes fewer actors than the lookup takes for owners: not those who are only
administrators. So the two agree, whoever asks and whatever was granted, only if the owner's
permission is the administrator's own. -/
theorem permissionCheck_iff_answer (m : Model) (organization object : ι) (row : Row ι) :
    (∀ actors grants,
      ((m.permissionCheck [m.ownerPermission]).passes (asked organization actors object)
          (tables m.authSchema object grants) row ↔
        Held grants organization actors [m.ownerPermission]) ∧
      (m.tierLookup.answer (asked organization actors object) (tables m.authSchema object grants) =
          some "owner" ↔
        Held grants organization actors [admin, m.ownerPermission])) ∧
    ((∀ actors grants,
        ((m.permissionCheck [m.ownerPermission]).passes (asked organization actors object)
            (tables m.authSchema object grants) row ↔
          m.tierLookup.answer (asked organization actors object)
            (tables m.authSchema object grants) = some "owner")) ↔
      m.ownerPermission = admin) := by
  refine ⟨fun actors grants =>
    ⟨m.permissionCheck_passes_iff, m.answer_tierLookup_eq_owner_iff⟩, ?_⟩
  simp only [permissionCheck_passes_iff, answer_tierLookup_eq_owner_iff]
  constructor
  · intro agree
    have sole : Held [⟨organization, organization, admin⟩] organization [organization]
        [admin, m.ownerPermission] :=
      ⟨_, List.mem_singleton_self _, rfl, List.mem_singleton_self _, List.mem_cons_self⟩
    obtain ⟨g, granted, _, _, owner⟩ := (agree _ _).mpr sole
    rw [List.mem_singleton.mp granted] at owner
    exact (List.mem_singleton.mp owner).symm
  · intro same actors grants
    rw [same]
    simp [Held]

end Model

def ownedPosts : Entries := .ofFields [("models", .list [
  .ofFields [("name", .text "Post"), ("auth_check_in_query", .bool true)]])]

/-- An administrator who was granted nothing else is an owner of the post, and cannot delete it. -/
theorem ownedPosts_disagree : ∃ models m, loadModels ownedPosts .default none = .ok models ∧
    m ∈ models ∧ ¬ m.isJoin ∧ m.checksPermission ∧
    m.tierLookup.answer (Permission.asked 1 [2] 3)
        (Permission.tables m.authSchema 3 [⟨1, 2, "org_admin"⟩]) = some "owner" ∧
    (m.permissionCheck [m.ownerPermission]).passes (Permission.asked 1 [2] 3)
        (Permission.tables m.authSchema 3 [⟨1, 2, "org_admin"⟩]) (fun _ => none) = false := by
  obtain ⟨models, m, loaded, member, checked⟩ := exists_loaded ownedPosts
    (fun m _ => !m.isJoin && m.checksPermission &&
      m.tierLookup.answer (Permission.asked 1 [2] 3)
        (Permission.tables m.authSchema 3 [⟨1, 2, "org_admin"⟩]) == some "owner" &&
      !(m.permissionCheck [m.ownerPermission]).passes (Permission.asked 1 [2] 3)
        (Permission.tables m.authSchema 3 [⟨1, 2, "org_admin"⟩]) (fun _ => none))
    (by decide +kernel)
  simp only [Bool.and_eq_true, Bool.not_eq_true', beq_iff_eq] at checked
  obtain ⟨⟨⟨plain, wanted⟩, owner⟩, denied⟩ := checked
  exact ⟨models, m, loaded, member, Bool.eq_false_iff.mp plain, wanted, owner, denied⟩

end TenantSql
