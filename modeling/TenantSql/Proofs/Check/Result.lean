import Mathlib.Data.List.Forall2
import TenantSql.Check.Read
import TenantSql.Definition.Error

/-!
# Results of steps and checks

What follows from a result about the steps that led to it: every step had a
result of its own. A check that yields a result found no issue in any part.
-/

namespace TenantSql

variable {ε δ α β γ : Type}

/-! ## Steps one after another -/

namespace Result

@[simp] theorem pure_eq_ok {a b : α} : (pure a : Except ε α) = .ok b ↔ a = b := by
  simp [pure, Except.pure]

@[simp] theorem throw_ne_ok {e : ε} {a : α} : (throw e : Except ε α) ≠ .ok a := by
  simp [throw, throwThe, MonadExceptOf.throw]

theorem bind_eq_ok {x : Except ε α} {f : α → Except ε β} {b : β} :
    (x >>= f) = .ok b ↔ ∃ a, x = .ok a ∧ f a = .ok b := by
  cases x <;> simp [Bind.bind, Except.bind]

theorem map_eq_ok {x : Except ε α} {f : α → β} {b : β} :
    f <$> x = .ok b ↔ ∃ a, x = .ok a ∧ f a = b := by
  cases x <;> simp [Functor.map, Except.map]

@[simp] theorem mapError_eq_ok {x : Except ε α} {f : ε → δ} {a : α} :
    x.mapError f = .ok a ↔ x = .ok a := by
  cases x with
  | ok x =>
      constructor
      · intro same
        cases same
        rfl
      · intro same
        cases same
        rfl
  | error e => exact ⟨fun same => (by cases same), fun same => (by cases same)⟩

theorem mapError_eq_error {x : Except ε α} {f : ε → δ} {d : δ} :
    x.mapError f = .error d ↔ ∃ e, x = .error e ∧ f e = d := by
  cases x <;> simp [Except.mapError]

theorem mapM_cons {f : α → Except ε β} {x : α} {xs : List α} {results : List β} :
    (x :: xs).mapM f = .ok results ↔
      ∃ y ys, f x = .ok y ∧ xs.mapM f = .ok ys ∧ results = y :: ys := by
  rw [List.mapM_cons, bind_eq_ok]
  simp only [bind_eq_ok, pure_eq_ok]
  constructor
  · rintro ⟨y, first, ys, rest, rfl⟩
    exact ⟨y, ys, first, rest, rfl⟩
  · rintro ⟨y, ys, first, rest, rfl⟩
    exact ⟨y, first, ys, rest, rfl⟩

theorem mapM_eq_ok {f : α → Except ε β} {xs : List α} {ys : List β} :
    xs.mapM f = .ok ys ↔ List.Forall₂ (fun x y => f x = .ok y) xs ys := by
  induction xs generalizing ys with
  | nil => rw [List.mapM_nil, pure_eq_ok, List.forall₂_nil_left_iff, eq_comm]
  | cons x xs induction =>
      rw [mapM_cons, List.forall₂_cons_left_iff]
      simp only [induction]

theorem mapM_append {f : α → Except ε β} {xs ys : List α} {results : List β} :
    (xs ++ ys).mapM f = .ok results ↔
      ∃ front back, xs.mapM f = .ok front ∧ ys.mapM f = .ok back ∧ results = front ++ back := by
  simp only [List.mapM_append, bind_eq_ok, pure_eq_ok]
  constructor
  · rintro ⟨front, first, back, second, rfl⟩
    exact ⟨front, back, first, second, rfl⟩
  · rintro ⟨front, back, first, second, rfl⟩
    exact ⟨front, first, back, second, rfl⟩

theorem mapM_mapM {f : α → Except ε β} {g : β → Except ε γ} {xs : List α} {ys : List β}
    {zs : List γ} (first : xs.mapM f = .ok ys) (second : ys.mapM g = .ok zs) :
    xs.mapM (fun x => f x >>= g) = .ok zs := by
  induction xs generalizing ys zs with
  | nil =>
      rw [List.mapM_nil, pure_eq_ok] at first
      rw [← first] at second
      exact second
  | cons x xs induction =>
      obtain ⟨y, rest, found, others, rfl⟩ := mapM_cons.mp first
      obtain ⟨z, last, result, results, rfl⟩ := mapM_cons.mp second
      exact mapM_cons.mpr ⟨z, last, bind_eq_ok.mpr ⟨y, found, result⟩, induction others results, rfl⟩

theorem mapM_bind_eq_ok {f : α → Except ε β} {g : β → Except ε γ} {xs : List α} {zs : List γ} :
    xs.mapM (fun x => f x >>= g) = .ok zs ↔ ∃ ys, xs.mapM f = .ok ys ∧ ys.mapM g = .ok zs := by
  constructor
  · intro both
    induction xs generalizing zs with
    | nil => exact ⟨[], rfl, both⟩
    | cons x xs induction =>
        obtain ⟨z, rest, result, results, rfl⟩ := mapM_cons.mp both
        obtain ⟨y, found, last⟩ := bind_eq_ok.mp result
        obtain ⟨ys, first, second⟩ := induction results
        exact ⟨y :: ys, mapM_cons.mpr ⟨y, ys, found, first, rfl⟩,
          mapM_cons.mpr ⟨z, rest, last, second, rfl⟩⟩
  · rintro ⟨ys, first, second⟩
    exact mapM_mapM first second

theorem exists_of_mem_mapM {f : α → Except ε β} {xs : List α} {ys : List β}
    (mapped : xs.mapM f = .ok ys) {y : β} (member : y ∈ ys) : ∃ x ∈ xs, f x = .ok y := by
  induction xs generalizing ys with
  | nil =>
      rw [List.mapM_nil, pure_eq_ok] at mapped
      rw [← mapped] at member
      cases member
  | cons x xs induction =>
      obtain ⟨first, rest, found, others, rfl⟩ := mapM_cons.mp mapped
      rcases List.mem_cons.mp member with rfl | later
      · exact ⟨x, by simp, found⟩
      · obtain ⟨source, among, result⟩ := induction others later
        exact ⟨source, by simp [among], result⟩

theorem mem_of_mapM {f : α → Except ε β} {xs : List α} {ys : List β}
    (mapped : xs.mapM f = .ok ys) {x : α} (member : x ∈ xs) : ∃ y ∈ ys, f x = .ok y := by
  induction xs generalizing ys with
  | nil => cases member
  | cons first xs induction =>
      obtain ⟨y, rest, found, others, rfl⟩ := mapM_cons.mp mapped
      rcases List.mem_cons.mp member with rfl | later
      · exact ⟨y, by simp, found⟩
      · obtain ⟨result, among, source⟩ := induction others later
        exact ⟨result, by simp [among], source⟩

theorem mapM_eq_ok_map {f : α → Except ε β} {g : α → β} {xs : List α}
    (each : ∀ x ∈ xs, f x = .ok (g x)) : xs.mapM f = .ok (xs.map g) := by
  rw [mapM_eq_ok, List.forall₂_map_right_iff, List.forall₂_same]
  exact each

theorem exists_map_of_mapM {f : α → Except ε β} {xs : List α} {ys : List β}
    (mapped : xs.mapM f = .ok ys) (some : xs ≠ []) :
    ∃ g : α → β, ys = xs.map g ∧ ∀ x ∈ xs, f x = .ok (g x) := by
  obtain ⟨x, member⟩ := List.exists_mem_of_ne_nil xs some
  obtain ⟨y, _, _⟩ := mem_of_mapM mapped member
  let result (x : α) : β := match f x with
    | .ok found => found
    | .error _ => y
  have each : ∀ x ∈ xs, f x = .ok (result x) := by
    intro x member
    obtain ⟨found, _, same⟩ := mem_of_mapM mapped member
    simp only [result, same]
  exact ⟨result, Except.ok.inj (mapped.symm.trans (mapM_eq_ok_map each)), each⟩

theorem map_eq_of_mapM {f : α → Except ε β} {g : β → γ} {h : α → γ}
    (kept : ∀ x y, f x = .ok y → g y = h x) {xs : List α} {ys : List β}
    (mapped : xs.mapM f = .ok ys) : ys.map g = xs.map h := by
  induction xs generalizing ys with
  | nil =>
      rw [List.mapM_nil, pure_eq_ok] at mapped
      rw [← mapped, List.map_nil, List.map_nil]
  | cons x xs induction =>
      obtain ⟨y, rest, found, others, rfl⟩ := mapM_cons.mp mapped
      rw [List.map_cons, List.map_cons, kept x y found, induction others]

theorem exists_mapM_iff {f : α → Except ε β} {xs : List α} :
    (∃ ys, xs.mapM f = .ok ys) ↔ ∀ x ∈ xs, ∃ y, f x = .ok y := by
  constructor
  · rintro ⟨ys, mapped⟩ x member
    obtain ⟨y, _, found⟩ := mem_of_mapM mapped member
    exact ⟨y, found⟩
  · intro each
    induction xs with
    | nil => exact ⟨[], rfl⟩
    | cons first rest induction =>
        obtain ⟨y, found⟩ := each first List.mem_cons_self
        obtain ⟨ys, others⟩ := induction fun x later => each x (List.mem_cons_of_mem first later)
        exact ⟨y :: ys, mapM_cons.mpr ⟨y, ys, found, others, rfl⟩⟩

theorem first_of_mapM_error {f : α → Except ε β} {xs : List α} {e : ε}
    (failed : xs.mapM f = .error e) :
    ∃ before x after, xs = before ++ x :: after ∧ (∀ other ∈ before, ∃ y, f other = .ok y) ∧
      f x = .error e := by
  induction xs with
  | nil => cases failed
  | cons first rest induction =>
      rw [List.mapM_cons] at failed
      cases found : f first with
      | error other =>
          rw [found] at failed
          cases failed
          exact ⟨[], first, rest, rfl, nofun, found⟩
      | ok y =>
          cases others : rest.mapM f with
          | error other =>
              rw [found, others] at failed
              cases failed
              obtain ⟨before, x, after, split, fine, same⟩ := induction others
              refine ⟨first :: before, x, after, congrArg (first :: ·) split, ?_, same⟩
              exact List.forall_mem_cons.mpr ⟨⟨y, found⟩, fine⟩
          | ok ys =>
              rw [found, others] at failed
              cases failed

theorem exists_of_mapM_error {f : α → Except ε β} {xs : List α} {e : ε}
    (failed : xs.mapM f = .error e) : ∃ x ∈ xs, f x = .error e := by
  obtain ⟨before, x, after, rfl, _, same⟩ := first_of_mapM_error failed
  exact ⟨x, List.mem_append_right before List.mem_cons_self, same⟩

theorem mem_of_mem_filterM {f : α → Except ε Bool} {xs ys : List α}
    (filtered : xs.filterM f = .ok ys) {x : α} (member : x ∈ ys) : x ∈ xs := by
  have collected {xs kept ys : List α} (filtered : xs.filterAuxM f kept = .ok ys) {x : α}
      (member : x ∈ ys) : x ∈ xs ∨ x ∈ kept := by
    induction xs generalizing kept with
    | nil =>
        rw [List.filterAuxM, pure_eq_ok] at filtered
        exact .inr (filtered ▸ member)
    | cons first rest induction =>
        rw [List.filterAuxM, bind_eq_ok] at filtered
        obtain ⟨wanted, _, others⟩ := filtered
        rcases induction others with later | here
        · exact .inl (List.mem_cons_of_mem first later)
        · cases wanted with
          | false => exact .inr here
          | true =>
              rcases List.mem_cons.mp here with rfl | earlier
              · exact .inl List.mem_cons_self
              · exact .inr earlier
  rw [List.filterM, bind_eq_ok] at filtered
  obtain ⟨reversed, found, same⟩ := filtered
  rw [pure_eq_ok] at same
  rw [← same, List.mem_reverse] at member
  exact (collected found member).resolve_right List.not_mem_nil

theorem filterM_map {f : β → Except ε Bool} {g : α → β} {p : α → Bool}
    (decided : ∀ x, f (g x) = .ok (p x)) (xs : List α) :
    (xs.map g).filterM f = .ok ((xs.filter p).map g) := by
  have collected (kept : List β) :
      (xs.map g).filterAuxM f kept = .ok (((xs.filter p).map g).reverse ++ kept) := by
    induction xs generalizing kept with
    | nil => rfl
    | cons x rest induction =>
        rw [List.map_cons, List.filterAuxM, decided]
        change (rest.map g).filterAuxM f _ = _
        rw [induction, List.filter_cons]
        cases p x <;> simp
  rw [List.filterM, collected []]
  simp [Bind.bind, Except.bind, pure, Except.pure]

/-- What the first state has and every step keeps, the last state has. -/
theorem foldlM_invariant {f : β → α → Except ε β} {holds : β → Prop} {xs : List α}
    (step : ∀ state x next, x ∈ xs → f state x = .ok next → holds state → holds next)
    {first last : β} (folded : xs.foldlM f first = .ok last) (start : holds first) :
    holds last := by
  induction xs generalizing first with
  | nil =>
      rw [List.foldlM_nil, pure_eq_ok] at folded
      exact folded ▸ start
  | cons x xs induction =>
      rw [List.foldlM_cons, bind_eq_ok] at folded
      obtain ⟨next, stepped, rest⟩ := folded
      exact induction (fun state other next member => step state other next (by simp [member])) rest
        (step first x next (by simp) stepped start)

/-- What the step for an item brings about and every other step keeps, the last state has for all
items. -/
theorem foldlM_each {f : β → α → Except ε β} {holds : α → β → Prop} {xs : List α}
    (made : ∀ state x next, f state x = .ok next → holds x next)
    (kept : ∀ state x next y, f state x = .ok next → holds y state → holds y next)
    {first last : β} (folded : xs.foldlM f first = .ok last) : ∀ x ∈ xs, holds x last := by
  induction xs generalizing first with
  | nil => exact nofun
  | cons x rest induction =>
      rw [List.foldlM_cons, bind_eq_ok] at folded
      obtain ⟨next, stepped, others⟩ := folded
      refine List.forall_mem_cons.mpr ⟨?_, induction others⟩
      exact foldlM_invariant (fun state other later _ step => kept state other later x step) others
        (made first x next stepped)

end Result

@[simp] theorem reject_ne_ok {source : Option String} {complaint : Complaint} {a : α} :
    (reject source complaint : Except LoadError α) ≠ .ok a := by
  simp [reject]

/-! ## Checks side by side -/

namespace Checked

variable {check : Checked α} {a : α}

@[simp] theorem refuse_ne_ok {problem : Problem} : (refuse problem : Checked α) ≠ .ok a := by
  simp [refuse]

theorem forall_seq_eq_ok {f : Checked (α → β)} {holds : β → Prop} :
    (∀ b, f <*> check = .ok b → holds b) ↔
      ∀ g, f = .ok g → ∀ a, check = .ok a → holds (g a) := by
  cases f <;> cases check <;> simp [Seq.seq, apply]

theorem forall_map_eq_ok {f : α → β} {holds : β → Prop} :
    (∀ b, f <$> check = .ok b → holds b) ↔ ∀ a, check = .ok a → holds (f a) := by
  cases check <;> simp [Functor.map, apply]

theorem seqLeft_eq_ok {other : Checked β} :
    check <* other = .ok a ↔ check = .ok a ∧ ∃ b, other = .ok b := by
  cases check with
  | ok a => cases other <;> simp [SeqLeft.seqLeft, apply]
  | refused issues => simp [SeqLeft.seqLeft, apply]

theorem forall_seqLeft_eq_ok {other : Checked β} {holds : α → Prop} :
    (∀ a, check <* other = .ok a → holds a) ↔
      ∀ a, check = .ok a → (∃ b, other = .ok b) → holds a := by
  simp only [seqLeft_eq_ok, and_imp]

theorem andThen_eq_ok {next : α → Checked β} {b : β} :
    check.andThen next = .ok b ↔ ∃ a, check = .ok a ∧ next a = .ok b := by
  cases check <;> simp [andThen]

@[simp] theorem within_eq_ok {step : Step} : check.within step = .ok a ↔ check = .ok a := by
  cases check <;> simp [within]

theorem ensure_eq_ok {holds : α → Bool} {breach : α → Breach} :
    check.ensure holds breach = .ok a ↔ check = .ok a ∧ holds a := by
  rw [ensure, andThen_eq_ok]
  constructor
  · rintro ⟨found, passed, rule⟩
    split at rule
    · cases rule
      exact ⟨passed, by assumption⟩
    · simp at rule
  · rintro ⟨passed, rule⟩
    exact ⟨a, passed, by simp [rule]⟩

@[simp] theorem toExcept_eq_ok {title : String} : check.toExcept title = .ok a ↔ check = .ok a := by
  cases check <;> simp [toExcept]

@[simp] theorem orReject_eq_ok {title : String} {source : Option String}
    {complaint : Refusal → Complaint} :
    check.orReject title source complaint = .ok a ↔ check = .ok a := by
  cases check <;> simp [orReject, toExcept]

@[simp] theorem orShow_eq_ok {title : String} {source : Option String} {what : Value}
    {complaint : String → Refusal → Complaint} :
    check.orShow title source what complaint = .ok a ↔ check = .ok a := by
  cases check <;> simp [orShow, toExcept, Result.bind_eq_ok]

end Checked

/-! ## Entries of records -/

namespace Entries

variable {entries : Entries} {key : String} {read : Value → Checked α} {a : α}

theorem required_eq_ok :
    entries.required key read = .ok a ↔ ∃ v, entries.get? key = some v ∧ read v = .ok a := by
  rw [required, Checked.within_eq_ok]
  cases entries.get? key <;> simp

theorem optional_eq_ok {default : α} :
    entries.optional key default read = .ok a ↔
      (∃ v, entries.get? key = some v ∧ read v = .ok a) ∨
        entries.get? key = none ∧ default = a := by
  rw [optional]
  cases entries.get? key <;> simp

theorem aliased_eq_ok {short long : String} {default : α} :
    entries.aliased short long default read = .ok a ↔
      (∃ v, (entries.get? short).or (entries.get? long) = some v ∧ read v = .ok a) ∨
        (entries.get? short = none ∧ entries.get? long = none) ∧ default = a := by
  rw [aliased, nameOf, has, has]
  cases first : entries.get? short <;> cases second : entries.get? long <;>
    simp [optional_eq_ok, first, second]

end Entries

/-! ## Entries that are found -/

theorem Scalar.same_text (s : Scalar) (key : String) : s.same (.text key) = (s == .text key) := by
  cases s with
  | moment m => rfl
  | real x => simp only [same, integer?]; cases x.toInt? <;> rfl
  | null | bool | int | undefined | text | bytes | date => rfl

namespace Entries

variable {entries : Entries} {key other : String} {v : Value}

@[simp] theorem get?_nil : get? [] key = none := rfl

theorem get?_append {front back : Entries} :
    get? (front ++ back) key = (front.get? key).or (back.get? key) := by
  rw [get?, List.find?_append, Option.map_or]
  rfl

theorem get?_cons {k : Scalar} :
    get? ((k, v) :: entries) key = if k = .text key then some v else entries.get? key := by
  by_cases same : k = .text key <;> simp [get?, same]

@[simp] theorem get?_cons_text : get? ((.text other, v) :: entries) key =
    if other = key then some v else entries.get? key := by
  simp [get?_cons]

theorem get?_replace :
    get? (entries.map fun entry => if entry.1 == .text key then (entry.1, v) else entry) other =
      if other = key then (entries.get? key).map (fun _ => v) else entries.get? other := by
  induction entries with
  | nil => simp
  | cons entry rest induction =>
      obtain ⟨k, w⟩ := entry
      by_cases here : k = .text key
      · subst here
        rw [List.map_cons, if_pos (beq_self_eq_true _), get?_cons_text, get?_cons_text,
          get?_cons_text, induction]
        by_cases same : other = key
        · simp [same]
        · simp [same, Ne.symm same]
      · rw [List.map_cons, if_neg (by simpa using here), get?_cons, get?_cons, get?_cons, induction,
          if_neg here]
        by_cases same : other = key
        · simp [same, here]
        · simp [same]

theorem get?_set :
    (entries.set key v).get? other = if other = key then some v else entries.get? other := by
  simp only [set, insert, Scalar.same_text]
  split
  · rename_i present
    obtain ⟨entry, member, found⟩ := List.any_eq_true.mp present
    have there : (entries.get? key).isSome := by
      rw [get?, Option.isSome_map, List.find?_isSome]
      exact ⟨entry, member, found⟩
    obtain ⟨w, given⟩ := Option.isSome_iff_exists.mp there
    rw [get?_replace, given]
    rfl
  · rename_i absent
    have missing : get? entries key = none := by
      simp only [get?, Option.map_eq_none_iff, List.find?_eq_none]
      intro entry member found
      exact absent (List.any_eq_true.mpr ⟨entry, member, found⟩)
    rw [get?_append, get?_cons_text, get?_nil]
    by_cases same : other = key
    · simp [same, missing]
    · simp [same, Ne.symm same]

theorem getD_set :
    (entries.set key v).getD other = if other = key then v else entries.getD other := by
  rw [getD, getD, get?_set]
  split <;> rfl

theorem getD_of_get? (found : entries.get? key = some v) : entries.getD key = v := by
  rw [getD, found]
  rfl

end Entries

end TenantSql
