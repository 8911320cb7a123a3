import Mathlib.Data.List.Nodup

/-!
# Items with keys

An item of a list whose keys are distinct is the one with its key.
-/

namespace TenantSql

variable {α β : Type} {key : α → String} {items : List α} {item : α}

theorem find?_of_key (apart : (items.map key).Nodup) (member : item ∈ items) :
    items.find? (key · == key item) = some item := by
  cases found : items.find? (key · == key item) with
  | none =>
      have missing := List.find?_eq_none.mp found item member
      simp at missing
  | some other =>
      have same : key other = key item := by simpa using List.find?_some found
      rw [List.inj_on_of_nodup_map apart (List.mem_of_find?_eq_some found) member same]

theorem find?_reverse_of_key (apart : (items.map key).Nodup) (member : item ∈ items) :
    items.reverse.find? (key · == key item) = some item := by
  refine find?_of_key ?_ (List.mem_reverse.mpr member)
  rw [List.map_reverse]
  exact List.nodup_reverse.mpr apart

theorem filter_of_key (apart : (items.map key).Nodup) (member : item ∈ items) :
    items.filter (key · == key item) = [item] := by
  refine List.perm_singleton.mp ((List.perm_ext_iff_of_nodup (apart.of_map.filter _)
    (List.nodup_singleton item)).mpr fun other => ?_)
  rw [List.mem_filter, List.mem_singleton, beq_iff_eq]
  constructor
  · rintro ⟨among, same⟩
    exact List.inj_on_of_nodup_map apart among member same
  · rintro rfl
    exact ⟨member, rfl⟩

theorem find?_eq_of_perm {others : List α} (apart : (items.map key).Nodup)
    (same : items.Perm others) (k : String) :
    items.find? (key · == k) = others.find? (key · == k) := by
  cases found : items.find? (key · == k) with
  | none =>
      rw [List.find?_eq_none] at found
      exact (List.find?_eq_none.mpr fun item member => found item (same.mem_iff.mpr member)).symm
  | some item =>
      have named : key item = k := by simpa using List.find?_some found
      have member : item ∈ others := same.mem_iff.mp (List.mem_of_find?_eq_some found)
      rw [← named, find?_of_key ((same.map key).nodup_iff.mp apart) member]

theorem flatMap_of_key (apart : (items.map key).Nodup) (member : item ∈ items) (f : α → List β) :
    (items.flatMap fun other => if key other = key item then f other else []) = f item := by
  induction items with
  | nil => cases member
  | cons first rest induction =>
      rw [List.map_cons, List.nodup_cons] at apart
      rw [List.flatMap_cons]
      rcases List.mem_cons.mp member with rfl | later
      · have others : (rest.flatMap fun other => if key other = key item then f other else []) = [] := by
          refine List.flatMap_eq_nil_iff.mpr fun other listed => if_neg fun same => ?_
          exact apart.1 (same ▸ List.mem_map_of_mem listed)
        rw [if_pos rfl, others, List.append_nil]
      · have different : key first ≠ key item := fun same =>
          apart.1 (same ▸ List.mem_map_of_mem later)
        rw [if_neg different, List.nil_append, induction apart.2 later]

end TenantSql
