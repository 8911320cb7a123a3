import TenantSql.Proofs.Definition.Field

/-!
# Failures that are reported

A failure is reported if it is a complaint about the definition that names its source. A step may
fail otherwise; a condition guards it if nothing else than a breach of the condition leads there,
and if nothing comes of such a breach.
-/

namespace TenantSql

variable {α β : Type} {source : Option String}

def Reports (source : Option String) (x : Except LoadError α) : Prop :=
  ∀ e, x = .error e → ∃ complaint, e = .rejected ⟨complaint, source⟩

/-- With the condition every failure is reported; without it there is no result. -/
structure Guards (source : Option String) (condition : Prop) (x : Except LoadError α) : Prop where
  needed : ∀ a, x = .ok a → condition
  reports : condition → Reports source x

namespace Reports

theorem ok (a : α) : Reports source (.ok a : Except LoadError α) := by
  rintro e ⟨⟩

theorem reject (complaint : Complaint) :
    Reports source (TenantSql.reject source complaint : Except LoadError α) := by
  rintro e ⟨⟩
  exact ⟨complaint, rfl⟩

theorem reject_bind (complaint : Complaint) (f : α → Except LoadError β) :
    Reports source (TenantSql.reject source complaint >>= f) := by
  rintro e ⟨⟩
  exact ⟨complaint, rfl⟩

theorem ok_bind (a : α) {f : α → Except LoadError β} (next : Reports source (f a)) :
    Reports source (.ok a >>= f) :=
  next

/-- A step that builds on another needs its guard whenever the other has a result. -/
theorem bind {x : Except LoadError α} {f : α → Except LoadError β} (first : Reports source x)
    (next : ∀ a, x = .ok a → Reports source (f a)) : Reports source (x >>= f) := by
  cases x with
  | ok a => exact next a rfl
  | error other =>
      rintro e ⟨⟩
      exact first other rfl

theorem mapM {f : α → Except LoadError β} {xs : List α} (each : ∀ x ∈ xs, Reports source (f x)) :
    Reports source (xs.mapM f) := by
  intro e failed
  obtain ⟨x, member, same⟩ := Result.exists_of_mapM_error failed
  exact each x member e same

theorem foldlM {f : β → α → Except LoadError β} {xs : List α}
    (each : ∀ state, ∀ x ∈ xs, Reports source (f state x)) (first : β) :
    Reports source (xs.foldlM f first) := by
  induction xs generalizing first with
  | nil => exact ok first
  | cons x rest induction =>
      rw [List.foldlM_cons]
      exact (each first x List.mem_cons_self).bind fun next _ =>
        induction (fun state other later => each state other (List.mem_cons_of_mem x later)) next

theorem filterM {f : α → Except LoadError Bool} {xs : List α}
    (each : ∀ x ∈ xs, Reports source (f x)) : Reports source (xs.filterM f) := by
  have collected (kept : List α) : Reports source (xs.filterAuxM f kept) := by
    induction xs generalizing kept with
    | nil => exact ok kept
    | cons x rest induction =>
        rw [List.filterAuxM]
        exact (each x List.mem_cons_self).bind fun wanted _ =>
          induction (fun other later => each other (List.mem_cons_of_mem x later)) _
  exact (collected []).bind fun _ _ => ok _

theorem orReject (check : Checked α) (title : String) (complaint : Refusal → Complaint) :
    Reports source (check.orReject title source complaint) := by
  rw [Checked.orReject]
  split
  · exact ok _
  · exact reject _

end Reports

namespace Guards

variable {condition other : Prop} {x : Except LoadError α}

theorem of_reports (reports : Reports source x) : Guards source True x :=
  ⟨fun _ _ => trivial, fun _ => reports⟩

theorem congr (guards : Guards source condition x) (same : condition ↔ other) :
    Guards source other x :=
  ⟨fun a found => same.mp (guards.needed a found), fun holds => guards.reports (same.mpr holds)⟩

theorem bind {f : α → Except LoadError β} {next : α → Prop} (first : Guards source condition x)
    (second : ∀ a, x = .ok a → Guards source (next a) (f a)) :
    Guards source (condition ∧ ∀ a, x = .ok a → next a) (x >>= f) := by
  constructor
  · intro b found
    obtain ⟨a, made, rest⟩ := Result.bind_eq_ok.mp found
    refine ⟨first.needed a made, fun other same => ?_⟩
    cases made.symm.trans same
    exact (second a made).needed b rest
  · rintro ⟨holds, later⟩
    exact (first.reports holds).bind fun a made => (second a made).reports (later a made)

theorem mapM {f : α → Except LoadError β} {each : α → Prop} {xs : List α}
    (step : ∀ x ∈ xs, Guards source (each x) (f x)) :
    Guards source (∀ x ∈ xs, each x) (xs.mapM f) := by
  constructor
  · intro ys mapped x member
    obtain ⟨y, _, found⟩ := Result.mem_of_mapM mapped member
    exact (step x member).needed y found
  · exact fun all => Reports.mapM fun x member => (step x member).reports (all x member)

theorem foldlM {f : β → α → Except LoadError β} {each : α → Prop} {xs : List α}
    (step : ∀ state, ∀ x ∈ xs, Guards source (each x) (f state x)) (first : β) :
    Guards source (∀ x ∈ xs, each x) (xs.foldlM f first) := by
  constructor
  · intro last folded
    induction xs generalizing first with
    | nil => exact List.forall_mem_nil each
    | cons x rest induction =>
        rw [List.foldlM_cons, Result.bind_eq_ok] at folded
        obtain ⟨next, stepped, others⟩ := folded
        refine List.forall_mem_cons.mpr ⟨(step first x List.mem_cons_self).needed next stepped, ?_⟩
        exact induction (fun state other later => step state other (List.mem_cons_of_mem x later))
          next others
  · exact fun all => Reports.foldlM (fun state x member => (step state x member).reports
      (all x member)) first

theorem orFault {result : Except Fault α} :
    Guards source (∃ a, result = .ok a) (Sketch.orFault result) := by
  constructor
  · intro a found
    exact ⟨a, Result.mapError_eq_ok.mp found⟩
  · rintro ⟨a, rfl⟩
    exact Reports.ok a

theorem shown (v : Value) : Guards source v.isShowable (Sketch.shown v) := by
  constructor
  · exact fun s found => (Sketch.shown_eq_ok.mp found).1
  · intro showable
    rw [Sketch.shown_eq_ok.mpr ⟨showable, rfl⟩]
    exact Reports.ok _

end Guards

namespace Reports

theorem orShow {what : Value} (showable : what.isShowable) (check : Checked α) (title : String)
    (complaint : String → Refusal → Complaint) :
    Reports source (check.orShow title source what complaint) := by
  rw [Checked.orShow]
  split
  · exact ok _
  · exact ((Guards.shown what).reports showable).bind fun _ _ => reject _

end Reports

end TenantSql
