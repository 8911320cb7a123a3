import Mathlib.Data.List.Nodup
import TenantSql.Output.FileMap

/-!
# Files put together

What a file map holds after texts are put into it. Nothing is lost as long as
no path comes up twice: then the map is the list of all that was put into it.
-/

namespace TenantSql.FileMap

variable {files more : FileMap} {path text : String}

@[simp] theorem paths_cons {file : String × String} :
    paths (file :: files) = file.1 :: files.paths := rfl

@[simp] theorem paths_append : paths (files ++ more) = files.paths ++ more.paths :=
  List.map_append

theorem mem_paths_of_mem (member : (path, text) ∈ files) : path ∈ files.paths :=
  List.mem_map.mpr ⟨_, member, rfl⟩

theorem mem_paths_of_get? (found : files.get? path = some text) : path ∈ files.paths := by
  induction files with
  | nil => cases found
  | cons file rest induction =>
      rw [get?, List.lookup_cons] at found
      split at found
      · rename_i same
        exact beq_iff_eq.mp same ▸ List.mem_cons_self
      · exact List.mem_cons_of_mem _ (induction found)

theorem get?_of_mem (distinct : files.paths.Nodup) (member : (path, text) ∈ files) :
    files.get? path = some text := by
  induction files with
  | nil => cases member
  | cons file rest induction =>
      rw [paths_cons, List.nodup_cons] at distinct
      rcases List.mem_cons.mp member with rfl | later
      · rw [get?, List.lookup_cons_self]
      · have different : path ≠ file.1 := fun same =>
          distinct.1 (same ▸ mem_paths_of_mem later)
        rw [get?, List.lookup_cons, beq_false_of_ne different]
        exact induction distinct.2 later

theorem insert_of_not_mem (new : path ∉ files.paths) :
    files.insert path text = files ++ [(path, text)] := by
  have absent : files.any (·.1 == path) = false := by
    rw [List.any_eq_false]
    intro file member same
    exact new (List.mem_map.mpr ⟨file, member, beq_iff_eq.mp same⟩)
  rw [insert, absent, if_neg Bool.false_ne_true]

theorem nodup_paths_insert (distinct : files.paths.Nodup) :
    (files.insert path text).paths.Nodup := by
  by_cases present : path ∈ files.paths
  · rw [paths_insert_of_mem present]
    exact distinct
  · rw [insert_of_not_mem present, paths_append]
    refine List.nodup_append.mpr ⟨distinct, List.nodup_singleton path, fun a member b last same => ?_⟩
    have new : b = path := List.mem_singleton.mp last
    exact present (new ▸ same ▸ member)

theorem union_cons {file : String × String} :
    files.union (file :: more) = (files.insert file.1 file.2).union more := rfl

theorem nodup_paths_union (distinct : files.paths.Nodup) : (files.union more).paths.Nodup := by
  induction more generalizing files with
  | nil => exact distinct
  | cons file rest induction =>
      rw [union_cons]
      exact induction (nodup_paths_insert distinct)

theorem union_of_nodup (distinct : (files.paths ++ more.paths).Nodup) :
    files.union more = files ++ more := by
  induction more generalizing files with
  | nil => exact (List.append_nil files).symm
  | cons file rest induction =>
      obtain ⟨path, text⟩ := file
      have new : path ∉ files.paths := fun member =>
        (List.nodup_append.mp distinct).2.2 path member path List.mem_cons_self rfl
      rw [union_cons, insert_of_not_mem new, induction, List.append_assoc, List.singleton_append]
      rw [paths_append, List.append_assoc]
      exact distinct

theorem union_nil_of_nodup (distinct : more.paths.Nodup) : union [] more = more :=
  union_of_nodup distinct

/-! ## What is found under a path -/

@[simp] theorem get?_nil : get? [] path = none := rfl

theorem get?_cons (file : String × String) :
    get? (file :: files) path = if path = file.1 then some file.2 else files.get? path := by
  rw [get?, List.lookup_cons]
  by_cases same : path = file.1
  · rw [if_pos same, beq_iff_eq.mpr same]
  · rw [if_neg same, beq_false_of_ne same]
    rfl

theorem get?_eq_none_iff : files.get? path = none ↔ path ∉ files.paths := by
  induction files with
  | nil => exact iff_of_true rfl List.not_mem_nil
  | cons file rest induction =>
      rw [get?_cons, paths_cons, List.mem_cons]
      by_cases same : path = file.1 <;> simp [same, induction]

theorem mem_of_get? (found : files.get? path = some text) : (path, text) ∈ files := by
  induction files with
  | nil => cases found
  | cons file rest induction =>
      rw [get?_cons] at found
      by_cases same : path = file.1
      · rw [if_pos same, Option.some.injEq] at found
        rw [same, ← found]
        exact List.mem_cons_self
      · rw [if_neg same] at found
        exact List.mem_cons_of_mem _ (induction found)

theorem get?_append : get? (files ++ more) path = (files.get? path).or (more.get? path) := by
  induction files with
  | nil => rfl
  | cons file rest induction =>
      rw [List.cons_append, get?_cons, get?_cons, induction]
      by_cases same : path = file.1 <;> simp [same]

theorem get?_replace {other : String} :
    get? (files.map fun file => if file.1 == path then (path, text) else file) other =
      if other = path then (files.get? path).map fun _ => text else files.get? other := by
  induction files with
  | nil => simp
  | cons file rest induction =>
      rw [List.map_cons, get?_cons, get?_cons, get?_cons, induction]
      by_cases here : file.1 = path
      · by_cases same : other = path <;> simp [here, same]
      · by_cases same : other = path
        · simp [here, same, Ne.symm here]
        · simp [here, same]

theorem get?_insert {other : String} : (files.insert path text).get? other =
    if other = path then some text else files.get? other := by
  by_cases present : path ∈ files.paths
  · have found : files.any (·.1 == path) = true := by
      obtain ⟨file, member, same⟩ := List.mem_map.mp present
      exact List.any_eq_true.mpr ⟨file, member, beq_iff_eq.mpr same⟩
    obtain ⟨old, there⟩ := Option.ne_none_iff_exists'.mp (get?_eq_none_iff.not_left.mpr present)
    rw [insert, found, if_pos rfl, get?_replace, there]
    rfl
  · rw [insert_of_not_mem present, get?_append, get?_cons]
    by_cases same : other = path
    · rw [if_pos same, if_pos same, same, get?_eq_none_iff.mpr present]
      rfl
    · rw [if_neg same, if_neg same]
      exact Option.or_none

theorem get?_union :
    (files.union more).get? path = (get? more.reverse path).or (files.get? path) := by
  induction more generalizing files with
  | nil => rfl
  | cons file rest induction =>
      rw [union_cons, induction, get?_insert, List.reverse_cons, get?_append, get?_cons]
      by_cases same : path = file.1 <;> simp [same]

theorem mem_insert {file : String × String} (member : file ∈ files.insert path text) :
    file ∈ files ∨ file = (path, text) := by
  rw [insert] at member
  split at member
  · obtain ⟨old, among, rfl⟩ := List.mem_map.mp member
    split
    · exact .inr rfl
    · exact .inl among
  · exact (List.mem_append.mp member).imp id List.mem_singleton.mp

theorem mem_union {file : String × String} (member : file ∈ files.union more) :
    file ∈ files ∨ file ∈ more := by
  induction more generalizing files with
  | nil => exact .inl member
  | cons first rest induction =>
      rw [union_cons] at member
      rcases induction member with earlier | later
      · rcases mem_insert earlier with before | rfl
        · exact .inl before
        · exact .inr List.mem_cons_self
      · exact .inr (List.mem_cons_of_mem _ later)

theorem mem_of_mem_union_nil {file : String × String} (member : file ∈ union [] files) :
    file ∈ files :=
  (mem_union member).resolve_left List.not_mem_nil

theorem mem_paths_union_iff :
    path ∈ (files.union more).paths ↔ path ∈ files.paths ∨ path ∈ more.paths := by
  have reversed : path ∈ paths more.reverse ↔ path ∈ more.paths := by simp [paths]
  have absent : path ∉ (files.union more).paths ↔ path ∉ files.paths ∧ path ∉ more.paths := by
    rw [← get?_eq_none_iff, get?_union, Option.or_eq_none_iff, get?_eq_none_iff, get?_eq_none_iff,
      reversed, and_comm]
  rw [← not_iff_not, absent, not_or]

theorem get?_of_forall (present : path ∈ files.paths)
    (only : ∀ other, (path, other) ∈ files → other = text) : files.get? path = some text := by
  obtain ⟨other, found⟩ := Option.ne_none_iff_exists'.mp (get?_eq_none_iff.not_left.mpr present)
  rw [found, only other (mem_of_get? found)]

theorem filter_eq_of_get?_eq (among : String → Bool) (distinct : files.paths.Nodup)
    (paths : more.paths = files.paths)
    (texts : ∀ path, among path → more.get? path = files.get? path) :
    (more.filter fun file => among file.1) = files.filter fun file => among file.1 := by
  induction files generalizing more with
  | nil => rw [List.map_eq_nil_iff.mp paths]
  | cons file rest induction =>
      cases more with
      | nil => cases paths
      | cons other others =>
          rw [paths_cons, paths_cons, List.cons.injEq] at paths
          rw [paths_cons, List.nodup_cons] at distinct
          have later := induction distinct.2 paths.2 fun path wanted => by
            by_cases same : path = file.1
            · rw [same, get?_eq_none_iff.mpr distinct.1,
                get?_eq_none_iff.mpr (paths.2 ▸ distinct.1)]
            · have later := texts path wanted
              rwa [get?_cons, get?_cons, paths.1, if_neg same, if_neg same] at later
          rw [List.filter_cons, List.filter_cons, later, paths.1]
          split
          · rename_i wanted
            have first := texts file.1 wanted
            rw [get?_cons, get?_cons, paths.1, if_pos rfl, if_pos rfl, Option.some.injEq] at first
            rw [Prod.ext paths.1 first]
          · rfl

theorem eq_of_get?_eq (distinct : files.paths.Nodup) (paths : more.paths = files.paths)
    (texts : ∀ path, more.get? path = files.get? path) : more = files := by
  have whole := filter_eq_of_get?_eq (fun _ => true) distinct paths fun path _ => texts path
  rwa [List.filter_true, List.filter_true] at whole

end TenantSql.FileMap
