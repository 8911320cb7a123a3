import Mathlib.Data.List.Nodup
import TenantSql.Text.Order

/-!
# Every text once

What is left of some texts when each is kept only where it occurs first.
-/

namespace TenantSql.Text

def distinctAfter (seen texts : List String) : List String :=
  texts.foldl (fun seen s => if seen.contains s then seen else seen ++ [s]) seen

variable {seen texts more : List String} {s : String}

theorem distinct_eq : distinct texts = distinctAfter [] texts := rfl

theorem distinctAfter_append :
    distinctAfter seen (texts ++ more) = distinctAfter (distinctAfter seen texts) more :=
  List.foldl_append

theorem mem_distinctAfter : s ∈ distinctAfter seen texts ↔ s ∈ seen ∨ s ∈ texts := by
  induction texts generalizing seen with
  | nil => simp [distinctAfter]
  | cons first rest induction =>
      rw [distinctAfter, List.foldl_cons, ← distinctAfter, induction, List.mem_cons]
      split
      · rename_i present
        rw [List.contains_iff_mem] at present
        constructor
        · exact fun either => either.imp id .inr
        · rintro (before | rfl | later)
          · exact .inl before
          · exact .inl present
          · exact .inr later
      · rw [List.mem_append, List.mem_singleton, or_assoc]

theorem distinctAfter_of_nodup (apart : (seen ++ texts).Nodup) :
    distinctAfter seen texts = seen ++ texts := by
  induction texts generalizing seen with
  | nil => exact (List.append_nil seen).symm
  | cons first rest induction =>
      have new : seen.contains first = false := by
        rw [List.contains_eq_mem, decide_eq_false_iff_not]
        intro earlier
        exact (List.nodup_append.mp apart).2.2 first earlier first List.mem_cons_self rfl
      have extended : ((seen ++ [first]) ++ rest).Nodup := by
        rw [List.append_assoc]
        exact apart
      rw [distinctAfter, List.foldl_cons, ← distinctAfter, new, if_neg Bool.false_ne_true,
        induction extended, List.append_assoc]
      rfl

theorem distinctAfter_of_subset (known : texts ⊆ seen) : distinctAfter seen texts = seen := by
  induction texts with
  | nil => rfl
  | cons first rest induction =>
      have present : seen.contains first := List.contains_iff_mem.mpr (known List.mem_cons_self)
      rw [distinctAfter, List.foldl_cons, ← distinctAfter, if_pos present]
      exact induction fun s later => known (List.mem_cons_of_mem first later)

theorem mem_distinct : s ∈ distinct texts ↔ s ∈ texts := by
  rw [distinct_eq, mem_distinctAfter, or_iff_right List.not_mem_nil]

theorem nodup_distinctAfter (apart : seen.Nodup) : (distinctAfter seen texts).Nodup := by
  induction texts generalizing seen with
  | nil => exact apart
  | cons first rest induction =>
      rw [distinctAfter, List.foldl_cons, ← distinctAfter]
      split
      · exact induction apart
      · rename_i new
        rw [List.contains_iff_mem] at new
        exact induction (apart.append (List.nodup_singleton first) (by simpa using new))

theorem distinct_perm (same : texts.Perm more) : (distinct texts).Perm (distinct more) := by
  refine (List.perm_ext_iff_of_nodup (nodup_distinctAfter List.nodup_nil)
    (nodup_distinctAfter List.nodup_nil)).mpr fun s => ?_
  rw [← distinct_eq, ← distinct_eq, mem_distinct, mem_distinct, same.mem_iff]

theorem distinct_of_nodup (apart : texts.Nodup) : distinct texts = texts :=
  (distinctAfter_of_nodup apart : distinctAfter [] texts = [] ++ texts)

theorem distinct_drop {front again back : List String} (known : again ⊆ front) :
    distinct (front ++ again ++ back) = distinct (front ++ back) := by
  have earlier : again ⊆ distinctAfter [] front := fun s member =>
    mem_distinctAfter.mpr (.inr (known member))
  rw [distinct_eq, distinct_eq, distinctAfter_append, distinctAfter_append, distinctAfter_append,
    distinctAfter_of_subset earlier]

end TenantSql.Text
