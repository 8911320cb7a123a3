import TenantSql.Proofs.Definition.Loaded
import TenantSql.Proofs.Definition.RelationReports

/-!
# What is told about definitions

Loading a definition of the right shape yields models, or a complaint that names the source. A
definition of another shape yields no models, and what is wrong with it may not be told.
-/

namespace TenantSql

variable {source : Option String} {sketches : List Sketch} {raw : Entries} {settings : Settings}

theorem Sketch.hasShape_of_model (sound : AreSound sketches)
    {all : List Typed} {s : Sketch} {l : Linked} {t : Typed} {m : Model}
    (tables : s.schema.isShowable ∧ s.table.isShowable)
    (linked : Linked.ofSketch sketches source s = .ok l) (typed : Typed.ofLinked source l = .ok t)
    (made : Typed.modelOf settings source all t = .ok m) : s.HasShape sketches := by
  have same : t.sketch = s := Typed.ofLinked_sketch linked typed
  obtain ⟨joins, parents, references⟩ := Linked.ofSketch_needs sound linked
  simp only [Typed.modelOf, Result.bind_eq_ok] at made
  obtain ⟨children, childrenFound, populated, referencesFound, _⟩ := made
  constructor
  case schema => exact tables.1
  case table => exact tables.2
  case fields =>
    intro field member
    obtain ⟨after, there, kept⟩ := Linked.ofSketch_keeps linked member
    simp only [Typed.ofLinked, Result.bind_eq_ok] at typed
    obtain ⟨fields, read, _⟩ := typed
    obtain ⟨f, _, made⟩ := Result.mem_of_mapM read there
    obtain ⟨_, name, column⟩ := Typed.fieldOf_needs made
    rw [kept _ (by decide)] at name column
    exact ⟨name, column, references field member⟩
  case joins => exact joins
  case parents => exact parents
  case children => exact same ▸ Typed.childrenOf_guarded.needed children childrenFound
  case references =>
    rw [Typed.referencesOf, same, Result.bind_eq_ok] at referencesFound
    obtain ⟨parts, given, mapped⟩ := referencesFound
    refine ⟨parts, Result.mapError_eq_ok.mp given, fun v member reference bare => ?_⟩
    obtain ⟨r, _, read⟩ := Result.mem_of_mapM mapped member
    exact Typed.referenceOf_needs bare read

/-- A definition that was loaded had the right shape. -/
theorem hasShape_of_loadModels {models : List Model}
    (loaded : loadModels raw settings source = .ok models) : raw.HasShape settings source := by
  intro items listed
  obtain ⟨_, sketches, sketched, linked, linking, typed, typing, making⟩ :=
    (loadModels_eq_ok listed).mp loaded
  refine ⟨fun v member entries given named => ?_, fun others again => ?_⟩
  · obtain ⟨s, _, drawn⟩ := Result.mem_of_mapM (Sketch.ofValues_eq_ok.mp sketched).1 member
    obtain ⟨own, same, _, _, made⟩ := Sketch.ofValue_spec drawn
    cases given.symm.trans same
    exact Sketch.ofEntries_guarded.needed s made
  · cases sketched.symm.trans again
    have each : ∀ s ∈ sketches, ∃ l t m, Linked.ofSketch sketches source s = .ok l ∧
        Typed.ofLinked source l = .ok t ∧ Typed.modelOf settings source typed t = .ok m := by
      intro s member
      obtain ⟨l, among, link⟩ := Result.mem_of_mapM linking member
      obtain ⟨t, here, read⟩ := Result.mem_of_mapM typing among
      obtain ⟨m, _, made⟩ := Result.mem_of_mapM making here
      exact ⟨l, t, m, link, read, made⟩
    have tables : ∀ s ∈ sketches, s.schema.isShowable ∧ s.table.isShowable := by
      intro s member
      obtain ⟨l, t, m, link, read, made⟩ := each s member
      simp only [Typed.modelOf, Result.bind_eq_ok] at made
      obtain ⟨_, _, _, _, made⟩ := made
      obtain ⟨schema, table⟩ := (Typed.toModel_spec made).1.table
      rw [Typed.ofLinked_sketch link read] at schema table
      exact ⟨Value.isShowable_of_readText (Value.readIdentifier_eq_ok.mp schema).1,
        Value.isShowable_of_readText (Value.readIdentifier_eq_ok.mp table).1⟩
    intro s member
    obtain ⟨l, t, m, link, read, made⟩ := each s member
    exact Sketch.hasShape_of_model (Sketch.areSound_of_drawn sketched tables) (tables s member) link
      read made

theorem Typed.toModel_reports {t : Typed} {children : List Child} {references : List Reference} :
    Reports source (t.toModel settings source children references) := by
  rw [Typed.toModel]
  exact Reports.orReject _ _ _

/-- What is wrong with a definition of the right shape is told. -/
theorem reports_of_hasShape (shape : raw.HasShape settings source) :
    Reports source (loadModels raw settings source) := by
  unfold loadModels
  split
  · rename_i first rest listed
    obtain ⟨models, shapes⟩ := shape _ listed
    refine (Sketch.ofValues_reports models).bind fun sketches sketched => ?_
    have shaped := shapes sketches sketched
    have sound := Sketch.areSound_of_drawn sketched fun s member =>
      ⟨(shaped s member).schema, (shaped s member).table⟩
    refine (Reports.mapM fun s member => Linked.ofSketch_reports sound (shaped s member)).bind
      fun linked linking => ?_
    refine (Reports.mapM fun l among => ?_).bind fun typed typing => ?_
    · obtain ⟨s, member, link⟩ := Result.exists_of_mem_mapM linking among
      exact Typed.ofLinked_reports (shaped s member) link
    have drawn : typed.map Typed.sketch = sketches := Typed.map_sketch linking typing
    have apart : (typed.map Typed.name).Nodup := by
      rw [Typed.map_name linking typing]
      exact (Sketch.ofValues_eq_ok.mp sketched).2
    refine (Reports.mapM fun t here => ?_).bind fun related _ => ?_
    · obtain ⟨l, among, read⟩ := Result.exists_of_mem_mapM typing here
      obtain ⟨s, member, link⟩ := Result.exists_of_mem_mapM linking among
      have same : t.sketch = s := Typed.ofLinked_sketch link read
      refine (Typed.childrenOf_guarded.reports (same ▸ (shaped s member).children)).bind
        fun _ _ => ?_
      exact (Typed.referencesOf_reports apart drawn (shaped s member) link read).bind
        fun _ _ => Reports.ok _
    · exact Reports.mapM fun _ _ => Typed.toModel_reports
  · exact Reports.reject _

/-- Loading a definition of the right shape yields models or a complaint that names the source, and
no definition of another shape is loaded. -/
theorem loadModels_reports (raw : Entries) (settings : Settings) (source : Option String) :
    (raw.HasShape settings source → (∃ models, loadModels raw settings source = .ok models) ∨
      ∃ complaint, loadModels raw settings source = .error (.rejected ⟨complaint, source⟩)) ∧
      ∀ models, loadModels raw settings source = .ok models → raw.HasShape settings source := by
  refine ⟨fun shape => ?_, fun models loaded => hasShape_of_loadModels loaded⟩
  cases loaded : loadModels raw settings source with
  | ok models => exact .inl ⟨models, rfl⟩
  | error e =>
      obtain ⟨complaint, rfl⟩ := reports_of_hasShape shape e loaded
      exact .inr ⟨complaint, rfl⟩

def childlessBlog : Entries := .ofFields [("models", .list [
  .ofFields [("name", .text "Post"), ("has", .list [.text "Tag"])]])]

theorem childlessBlog_hasShape : childlessBlog.HasShape .default (some "blog.yaml") := by
  intro items listed
  cases listed
  refine ⟨fun v member entries given _ => ?_, fun sketches sketched s member => ?_⟩
  · rw [List.mem_singleton.mp member] at given
    cases given
    have known : Entries.unknownKeys (.ofFields [("name", .text "Post"),
        ("has", .list [.text "Tag"])]) = [] := by
      simp [Entries.unknownKeys, Entries.ofFields, Sketch.keys]
    exact ⟨rfl, Entries.tellable_of_known known, [], rfl⟩
  · obtain ⟨v, among, drawn⟩ :=
      Result.exists_of_mem_mapM (Sketch.ofValues_eq_ok.mp sketched).1 member
    rw [List.mem_singleton.mp among] at drawn
    obtain ⟨entries, given, isOf, _⟩ := Sketch.ofValue_spec drawn
    cases given
    obtain ⟨parts, none, declared, found, fields⟩ := isOf.fields
    cases none
    rw [List.mapM_nil, Result.pure_eq_ok] at found
    subst found
    constructor
    case schema => exact isOf.schema ▸ rfl
    case table => exact isOf.table ▸ rfl
    case fields =>
      rw [fields, List.append_nil]
      exact Sketch.standardFields_shape s.isGlobal _
    case joins =>
      rw [Sketch.HasJoinShape, isOf.given]
      intro first second given
      cases given
    case parents => exact isOf.given ▸ ⟨[], rfl, List.forall_mem_nil _⟩
    case children =>
      refine isOf.given ▸ ⟨[.text "Tag"], rfl, fun v member => ?_⟩
      exact List.mem_singleton.mp member ▸ ⟨_, rfl, rfl, rfl⟩
    case references => exact isOf.given ▸ ⟨[], rfl, List.forall_mem_nil _⟩

theorem childlessBlog_reported : ∃ complaint, loadModels childlessBlog .default (some "blog.yaml") =
    .error (.rejected ⟨complaint, some "blog.yaml"⟩) := by
  refine ((loadModels_reports childlessBlog .default (some "blog.yaml")).1
    childlessBlog_hasShape).resolve_left ?_
  rintro ⟨models, loaded⟩
  have failed : (loadModels childlessBlog .default (some "blog.yaml")).toBool = false := by
    decide +kernel
  rw [loaded] at failed
  cases failed

def countedFields : Entries := .ofFields [("models", .list [
  .ofFields [("name", .text "Post"), ("fields", .int 5)]])]

theorem countedFields_unreported :
    ¬Reports (some "blog.yaml") (loadModels countedFields .default (some "blog.yaml")) := by
  intro reports
  have failed : loadModels countedFields .default (some "blog.yaml") =
      .error (.fault .wrongKind) := by decide +kernel
  obtain ⟨complaint, same⟩ := reports _ failed
  cases same

end TenantSql
