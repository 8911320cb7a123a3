import TenantSql.Proofs.Model.Identifier
import TenantSql.Value.Sequence

/-!
# Values among values

Which values can be shown, which equal a text, and which can be put in order: those of which any two
can be compared.
-/

namespace TenantSql

namespace Value

/-! ## Values that can be shown -/

theorem isShowable_of_falsy : ∀ {v : Value}, v.isTruthy = false → v.isShowable
  | .scalar s, falsy => by
      cases s with
      | int n =>
          have zero : n = 0 := by simpa [isTruthy, Scalar.isTruthy] using falsy
          rw [zero, isShowable, Scalar.isShowable, decide_eq_true_eq, Int.natAbs_zero]
          exact Nat.pow_pos (Nat.zero_lt_succ 9)
      | null | bool | real | undefined | text | bytes | date | moment => rfl
  | .list items, falsy => by
      have none : items = [] := by simpa [isTruthy] using falsy
      subst none
      rfl
  | .pair _ _, falsy => by cases falsy
  | .set members, falsy => by
      have none : members = [] := by simpa [isTruthy] using falsy
      subst none
      rfl
  | .object entries, falsy => by
      have none : entries = [] := by simpa [isTruthy] using falsy
      subst none
      rfl
  | .knot _ collection, falsy => isShowable_of_falsy (v := collection) falsy

theorem isShowable_of_readText {v : Value} {s : String} (read : v.readText = .ok s) :
    v.isShowable := by
  rcases readText_eq_ok.mp read with rfl | ⟨content, rfl, _⟩
  · rfl
  · rfl

theorem areShowable_iff {items : List Value} : areShowable items ↔ ∀ v ∈ items, v.isShowable := by
  induction items with
  | nil => simp [areShowable]
  | cons first rest induction =>
      rw [areShowable, Bool.and_eq_true, induction, List.forall_mem_cons]

/-! ## Values that equal a text -/

theorem eq_text_of_same {s : String} {v : Value} (same : (Value.text s).same v) : v = .text s := by
  cases v with
  | scalar other =>
      cases other with
      | text t =>
          have equal : s = t := by simpa [Value.same, Scalar.same, Scalar.integer?] using same
          rw [equal]
      | real x =>
          cases whole : x.toInt? <;>
            simp [Value.same, Scalar.same, Scalar.integer?, whole] at same
      | null | bool | int | undefined | bytes | date | moment => cases same
  | list | pair | set | object | knot => cases same

theorem eq_text_of_key_same {s : String} {v : Value} (key : v.isKey) (same : v.same (.text s)) :
    v = .text s := by
  cases v with
  | scalar other =>
      rw [Value.same, Scalar.same_text, beq_iff_eq] at same
      rw [same]
  | pair => cases same
  | list | set | object | knot => cases key

theorem isShowable_of_same_text {s : String} : ∀ {v : Value}, v.same (.text s) → v.isShowable
  | .scalar other, same => by
      rw [Value.same, Scalar.same_text, beq_iff_eq] at same
      rw [same]
      rfl
  | .knot _ collection, same => isShowable_of_same_text (v := collection) same
  | .list _, same | .pair _ _, same | .set _, same | .object _, same => by cases same

/-- A value that is read as a text and equals another one is this other one, unless that is no text
but bytes. -/
theorem eq_text_of_readText {a b : Value} {s : String} (read : a.readText = .ok s)
    (same : a.same b) (noBytes : ∀ content, b ≠ .scalar (.bytes content)) : b = .text s := by
  rcases readText_eq_ok.mp read with rfl | ⟨content, rfl, _⟩
  · exact eq_text_of_same same
  · cases b with
    | scalar other =>
        cases other with
        | bytes others => exact absurd rfl (noBytes others)
        | real x =>
            cases whole : x.toInt? <;>
              simp [Value.same, Scalar.same, Scalar.integer?, whole] at same
        | null | bool | int | undefined | text | date | moment => cases same
    | list | pair | set | object | knot => cases same

/-! ## Values in order -/

def Comparable (a b : Value) : Prop :=
  (∃ first, a.precedes b = .ok first) ∧ ∃ first, b.precedes a = .ok first

theorem comparable_texts (s t : String) : Comparable (.text s) (.text t) :=
  ⟨⟨_, rfl⟩, ⟨_, rfl⟩⟩

theorem perm_of_sorted {values ordered : List Value} (found : sorted values = .ok ordered) :
    ordered.Perm values := by
  simp only [sorted, Result.bind_eq_ok, Result.pure_eq_ok] at found
  obtain ⟨_, _, rfl⟩ := found
  exact List.mergeSort_perm ..

theorem exists_sorted {values : List Value} (comparable : values.Pairwise Comparable) :
    ∃ ordered, sorted values = .ok ordered := by
  have compared {a b : Value × Nat} (first : a ∈ values.zipIdx) (second : b ∈ values.zipIdx)
      (apart : a.2 ≠ b.2) : ∃ before, a.1.precedes b.1 = .ok before := by
    obtain ⟨inside, same⟩ := List.getElem?_eq_some_iff.mp (List.mem_zipIdx_iff_getElem?.mp first)
    obtain ⟨inside', same'⟩ := List.getElem?_eq_some_iff.mp (List.mem_zipIdx_iff_getElem?.mp second)
    rw [← same, ← same']
    rcases Nat.lt_or_gt_of_ne apart with earlier | later
    · exact (List.pairwise_iff_getElem.mp comparable _ _ inside inside' earlier).1
    · exact (List.pairwise_iff_getElem.mp comparable _ _ inside' inside later).2
  have looped {xs : List (Value × Nat)} {f : Value × Nat → PUnit → Except Fault (ForInStep PUnit)}
      (each : ∀ x ∈ xs, f x ⟨⟩ = .ok (.yield ⟨⟩)) : forIn xs ⟨⟩ f = .ok ⟨⟩ := by
    induction xs with
    | nil => rfl
    | cons x rest induction =>
        rw [List.forIn_cons, each x List.mem_cons_self]
        exact induction fun other later => each other (List.mem_cons_of_mem x later)
  refine ⟨_, Result.bind_eq_ok.mpr ⟨⟨⟩, looped fun a first => ?_, rfl⟩⟩
  refine Result.bind_eq_ok.mpr ⟨⟨⟩, looped fun b second => ?_, rfl⟩
  by_cases apart : a.2 = b.2
  · simp [apart]
  · obtain ⟨before, found⟩ := compared first second apart
    simp [apart, found]

/-! ## Values of which each is kept once -/

def distinctAfter (seen values : List Value) : List Value :=
  values.foldl (fun seen v => if seen.any (·.same v) then seen else seen ++ [v]) seen

theorem distinctAfter_cons {seen rest : List Value} {first : Value} :
    distinctAfter seen (first :: rest) =
      distinctAfter (if seen.any (·.same first) then seen else seen ++ [first]) rest := rfl

theorem distinctAfter_sublist {seen values : List Value} :
    ∃ new, distinctAfter seen values = seen ++ new ∧ new.Sublist values := by
  induction values generalizing seen with
  | nil => exact ⟨[], (List.append_nil seen).symm, .slnil⟩
  | cons first rest induction =>
      rw [distinctAfter_cons]
      split
      · obtain ⟨new, whole, among⟩ := @induction seen
        exact ⟨new, whole, among.cons first⟩
      · obtain ⟨new, whole, among⟩ := @induction (seen ++ [first])
        exact ⟨first :: new, by rw [whole, List.append_assoc]; rfl, among.cons_cons first⟩

theorem distinct_sublist (values : List Value) : (distinct values).Sublist values := by
  obtain ⟨new, whole, among⟩ := @distinctAfter_sublist [] values
  have same : distinct values = new := whole
  exact same ▸ among

theorem mem_or_same_of_distinct {values : List Value} {v : Value} (member : v ∈ values) :
    v ∈ distinct values ∨ ∃ kept ∈ distinct values, kept.same v := by
  have grows {seen values : List Value} {kept : Value} (before : kept ∈ seen) :
      kept ∈ distinctAfter seen values := by
    obtain ⟨new, whole, _⟩ := @distinctAfter_sublist seen values
    exact whole ▸ List.mem_append_left new before
  have found {seen : List Value} : v ∈ distinctAfter seen values ∨
      ∃ kept ∈ distinctAfter seen values, kept.same v := by
    induction values generalizing seen with
    | nil => cases member
    | cons first rest induction =>
        rw [distinctAfter_cons]
        rcases List.mem_cons.mp member with rfl | later
        · split
          · rename_i known
            obtain ⟨kept, before, same⟩ := List.any_eq_true.mp known
            exact .inr ⟨kept, grows before, same⟩
          · exact .inl (grows (List.mem_append_right seen (List.mem_singleton_self v)))
        · exact induction later
  exact @found []

theorem exists_hasPart (part : String) : ∀ {v : Value} {parts : List Value}, v.parts = .ok parts →
    v.isTruthy → (∀ item ∈ parts, ∃ s, item = .text s) → ∃ found, v.hasPart part = .ok found
  | .scalar s, parts, given, truthy, texts => by
      cases s with
      | text => exact ⟨_, rfl⟩
      | bytes content =>
          cases content with
          | nil => cases truthy
          | cons byte rest =>
              cases given
              obtain ⟨s, number⟩ := texts (.int byte.toNat) List.mem_cons_self
              cases number
      | null | bool | int | real | undefined | date | moment => cases given
  | .list _, _, _, _, _ | .pair _ _, _, _, _, _ | .set _, _, _, _, _ | .object _, _, _, _, _ =>
      ⟨_, rfl⟩
  | .knot _ collection, _, given, truthy, texts =>
      exists_hasPart part (v := collection) given truthy texts

end Value

end TenantSql
