import TenantSql.Proofs.Definition.Loaded

/-!
# Models that were accepted

A model comes from a definition that was loaded, or from a record that was read
by itself. Either way its schema, its table and its columns are identifiers.
-/

namespace TenantSql

/-! ## Lists and records that were read -/

namespace Checked

theorem all_eq_ok {α : Type} {checks : List (Checked α)} {results : List α} :
    all checks = .ok results ↔ List.Forall₂ (fun check a => check = .ok a) checks results := by
  constructor
  · intro passed
    induction checks generalizing results with
    | nil =>
        cases passed
        exact .nil
    | cons check rest induction =>
        have split : ∀ whole, List.cons <$> check <*> all rest = .ok whole →
            List.Forall₂ (fun check a => check = .ok a) (check :: rest) whole := by
          rw [forall_seq_eq_ok, forall_map_eq_ok]
          intro first taken others read
          exact .cons taken (induction read)
        exact split results passed
  · intro each
    induction each with
    | nil => rfl
    | cons first _ induction =>
        rw [all, first, induction]
        rfl

end Checked

namespace Value

def entries : Value → Entries
  | .object entries => entries
  | .knot _ collection => collection.entries
  | _ => []

theorem read_entries {α : Type} {title : String} {read : Entries → Checked α} {v : Value} {a : α}
    (passed : v.readRecord title read = .ok a) : read v.entries = .ok a := by
  induction v using readRecord.induct with
  | case1 entries => exact passed
  | case2 _ _ induction => exact induction passed
  | case3 _ object knot => simp_all [readRecord]

theorem exists_of_readList {α : Type} {read : Value → Checked α} {v : Value} {results : List α}
    (passed : v.readList read = .ok results) {a : α} (member : a ∈ results) :
    ∃ item, read item = .ok a := by
  rw [readList] at passed
  split at passed
  · have each := Checked.all_eq_ok.mp passed
    obtain ⟨index, inside, rfl⟩ := List.getElem_of_mem member
    have here := each.get (each.length_eq.symm ▸ inside) inside
    simp only [List.get_eq_getElem, List.getElem_map, Checked.within_eq_ok] at here
    exact ⟨_, here⟩
  · simp at passed

theorem read_of_readOptional {α : Type} {read : Value → Checked α} {v : Value} {a : α}
    (passed : v.readOptional read = .ok (some a)) : read v = .ok a := by
  unfold readOptional at passed
  split at passed
  · cases passed
  · have inverted : ∀ result, Option.some <$> read v = .ok result →
        result = some a → read v = .ok a := by
      rw [Checked.forall_map_eq_ok]
      intro b read same
      cases same
      exact read
    exact inverted _ passed rfl

end Value

namespace Entries

variable {entries : Entries} {key what s : String}

theorem isIdentifier_of_required
    (read : entries.required key (Value.readIdentifier what) = .ok s) : isIdentifier s := by
  obtain ⟨_, _, read⟩ := required_eq_ok.mp read
  exact (Value.readIdentifier_eq_ok.mp read).2

theorem isIdentifier_of_optional {usual : String} (valid : isIdentifier usual)
    (read : entries.optional key usual (Value.readIdentifier what) = .ok s) : isIdentifier s := by
  rcases optional_eq_ok.mp read with ⟨_, _, read⟩ | ⟨_, rfl⟩
  · exact (Value.readIdentifier_eq_ok.mp read).2
  · exact valid

theorem exists_of_optional_list {α : Type} {read : Value → Checked α} {results : List α}
    (passed : entries.optional key [] (Value.readList read) = .ok results) {a : α}
    (member : a ∈ results) : ∃ item, read item = .ok a := by
  rcases optional_eq_ok.mp passed with ⟨v, _, listed⟩ | ⟨_, rfl⟩
  · exact Value.exists_of_readList listed member
  · cases member

end Entries

/-! ## Names of models that were read -/

theorem Field.isIdentifier_of_ofEntries {entries : Entries} {f : Field}
    (read : ofEntries entries = .ok f) : isIdentifier f.column :=
  (Value.readIdentifier_eq_ok.mp (ofEntries_spec f read).2.1).2

theorem Field.isIdentifier_of_read {v : Value} {f : Field} (read : read v = .ok f) :
    isIdentifier f.column :=
  isIdentifier_of_ofEntries (Value.read_entries read)

namespace Model

def sqlNames (m : Model) : List String :=
  m.schema :: m.table :: m.fields.map Field.column

inductive Accepted (m : Model) : Prop where
  | read {v : Value} (read : Model.read v = .ok m)
  | readWithFields {v : Value} {fields : List Field}
      (each : ∀ f ∈ fields, ∃ given, Field.read given = .ok f)
      (read : Model.readWithFields fields v = .ok m)
  | loaded {raw : Entries} {settings : Settings} {source : Option String} {models : List Model}
      (loaded : loadModels raw settings source = .ok models) (member : m ∈ models)

def AcceptedWith (m : Model) (entries : Entries) (given : GivenFields) : Prop :=
  ∃ parts : Parts, parts.fields = readFields (entries.getD "table") given ∧
    (ofParts entries parts).andThen checkRules = .ok m

theorem someFields_eq_ok {check : Checked (List Field)} {fields : List Field}
    (passed : someFields check = .ok fields) : check = .ok fields := by
  obtain ⟨found, read, some⟩ := Checked.andThen_eq_ok.mp passed
  split at some
  · simp at some
  · cases some
    exact read

theorem IsMadeOf.isIdentifier_schema {m : Model} {entries : Entries} {parts : Parts}
    (made : m.IsMadeOf entries parts) : isIdentifier m.schema :=
  Entries.isIdentifier_of_optional (by decide +kernel) made.schema

theorem IsMadeOf.readTable {m : Model} {entries : Entries} {parts : Parts}
    (made : m.IsMadeOf entries parts) :
    (entries.getD "table").readIdentifier "Identifier" = .ok m.table := by
  obtain ⟨v, given, read⟩ := Entries.required_eq_ok.mp made.table
  rw [Entries.getD_of_get? given]
  exact read

theorem AcceptedWith.spec {m : Model} {entries : Entries} {given : GivenFields}
    (accepted : m.AcceptedWith entries given) :
    isIdentifier m.schema ∧ (entries.getD "table").readIdentifier "Identifier" = .ok m.table ∧
      readFields (entries.getD "table") given = .ok m.fields := by
  obtain ⟨parts, fields, passed⟩ := accepted
  obtain ⟨built, read, ruled⟩ := Checked.andThen_eq_ok.mp passed
  obtain ⟨rfl, _⟩ := checkRules_eq_ok ruled
  have made := ofParts_spec built read
  exact ⟨made.isIdentifier_schema, made.readTable, fields ▸ made.fields⟩

theorem acceptedWith_of_ofEntries {entries : Entries} {given : GivenFields}
    {fields : Checked (List Field)} {m : Model} (read : ofEntries entries fields = .ok m)
    (listed : ∀ some, fields = .ok some → readFields (entries.getD "table") given = .ok some) :
    m.AcceptedWith entries given := by
  obtain ⟨built, read, ruled⟩ := Checked.andThen_eq_ok.mp read
  obtain ⟨parted, _⟩ := Checked.seqLeft_eq_ok.mp read
  have same := (ofParts_spec built parted).fields
  have whole : fields = readFields (entries.getD "table") given :=
    same.trans (listed _ same).symm
  exact ⟨readParts entries fields, whole, Checked.andThen_eq_ok.mpr ⟨built, parted, ruled⟩⟩

theorem acceptedWith_of_readGiven {v : Value} {given : GivenFields} {m : Model}
    (read : readGiven given v = .ok m) : m.AcceptedWith v.entries given := by
  refine acceptedWith_of_ofEntries (Value.read_entries read) fun fields listed => ?_
  exact someFields_eq_ok (Checked.within_eq_ok.mp listed)

theorem acceptedWith_of_read {v : Value} {m : Model} (read : Model.read v = .ok m) :
    ∃ collection given, v.entries.get? "fields" = some collection ∧
      GivenFields.ofValue? collection = some given ∧ m.AcceptedWith v.entries given := by
  have passed := Value.read_entries read
  obtain ⟨built, parted, _⟩ := Checked.andThen_eq_ok.mp passed
  have same := (ofParts_spec built (Checked.seqLeft_eq_ok.mp parted).1).fields
  obtain ⟨collection, there, listed⟩ := Entries.required_eq_ok.mp same
  have found := someFields_eq_ok listed
  split at found
  · rename_i given items
    refine ⟨collection, given, there, items, acceptedWith_of_ofEntries passed fun fields all => ?_⟩
    obtain ⟨_, again, listed⟩ := Entries.required_eq_ok.mp all
    cases there.symm.trans again
    rw [items] at listed
    exact someFields_eq_ok listed
  · simp at found

theorem readFields_eq_ok {table : Value} {given : GivenFields} {fields : List Field} :
    readFields table given = .ok fields ↔ List.Forall₂
      (fun item f => readField (if given.isList then table else .null) item = .ok f)
      given.items fields := by
  have paired : List.Forall₂
      (fun item f => readField (if given.isList then table else .null) item = .ok f)
      (given.items.zipIdx.map Prod.fst) fields ↔ readFields table given = .ok fields := by
    rw [List.forall₂_map_left_iff, readFields, Checked.all_eq_ok, List.forall₂_map_left_iff]
    simp only [Checked.within_eq_ok]
  rw [← paired, List.zipIdx_map_fst]

theorem column_of_readField {table : Value} {item : GivenField} {f : Field}
    (read : readField table item = .ok f)
    (records : ∀ g, item = .record g → isIdentifier g.column) : isIdentifier f.column := by
  cases item with
  | value v =>
      have passed : Field.ofEntries (withFullName table v.entries) = .ok f :=
        Value.read_entries read
      exact Field.isIdentifier_of_ofEntries passed
  | record g =>
      have kept : f.column = g.column := by
        rw [← Checked.ok.inj read, Field.withFullName]
        split
        · split <;> rfl
        · rfl
      exact kept ▸ records g rfl

theorem AcceptedWith.isIdentifier_column {m : Model} {entries : Entries} {given : GivenFields}
    (accepted : m.AcceptedWith entries given)
    (records : ∀ g, .record g ∈ given.items → isIdentifier g.column) :
    ∀ f ∈ m.fields, isIdentifier f.column := by
  intro f member
  have each := readFields_eq_ok.mp accepted.spec.2.2
  obtain ⟨index, inside, rfl⟩ := List.getElem_of_mem member
  have read := each.get (each.length_eq.symm ▸ inside) inside
  exact column_of_readField read fun g record => records g (record ▸ List.getElem_mem _)

theorem acceptedWith_of_loaded {raw : Entries} {settings : Settings} {source : Option String}
    {models : List Model} (loaded : loadModels raw settings source = .ok models) {m : Model}
    (member : m ∈ models) : ∃ entries, m.AcceptedWith entries ⟨m.fields.map .record, true⟩ := by
  obtain ⟨items, _, _, listed, _⟩ := loadModels_loading loaded
  obtain ⟨_, sketches, _, linked, _, typed, typing, making⟩ := (loadModels_eq_ok listed).mp loaded
  obtain ⟨t, among, made⟩ := Result.exists_of_mem_mapM making member
  obtain ⟨l, _, read⟩ := Result.exists_of_mem_mapM typing among
  have fields := (Typed.modelOf_spec made).1.fields
  simp only [Typed.ofLinked, Result.bind_eq_ok, Result.pure_eq_ok] at read
  obtain ⟨records, read, rfl⟩ := read
  simp only [Typed.modelOf, Typed.toModel, Result.bind_eq_ok, Checked.orReject_eq_ok] at made
  obtain ⟨children, _, references, _, made⟩ := made
  refine ⟨_, _, ?_, made⟩
  refine (readFields_eq_ok.mpr ?_).symm
  rw [fields, List.forall₂_map_left_iff, List.forall₂_same]
  intro f held
  obtain ⟨entries, _, read⟩ := Result.exists_of_mem_mapM read held
  have named : f.fullName ≠ "" := by
    rw [(Typed.fieldOf_spec read).2.2]
    exact fun none => absurd (congrArg String.toList none) (by simp)
  rw [readField, Field.withFullName]
  simp [named]

theorem AcceptedWith.rules {m : Model} {entries : Entries} {given : GivenFields}
    (accepted : m.AcceptedWith entries given) : m.breach? = none := by
  obtain ⟨_, _, passed⟩ := accepted
  obtain ⟨_, _, ruled⟩ := Checked.andThen_eq_ok.mp passed
  exact (checkRules_eq_ok ruled).2

/-- However a model is accepted, it breaks no rule. -/
theorem Accepted.lawful {m : Model} (accepted : m.Accepted) : m.Lawful := by
  refine lawful_of_rules ?_
  cases accepted with
  | read read =>
      obtain ⟨_, _, _, _, accepted⟩ := acceptedWith_of_read read
      exact accepted.rules
  | readWithFields _ read => exact (acceptedWith_of_readGiven read).rules
  | loaded loaded member => exact (loadModels_loaded loaded member).rules

theorem Accepted.isIdentifier_of_mem {m : Model} (accepted : m.Accepted) {name : String}
    (among : name ∈ m.sqlNames) : isIdentifier name := by
  have every : isIdentifier m.schema ∧ isIdentifier m.table ∧
      ∀ f ∈ m.fields, isIdentifier f.column := by
    cases accepted with
    | read read =>
        obtain ⟨collection, given, _, items, accepted⟩ := acceptedWith_of_read read
        obtain ⟨schema, table, _⟩ := accepted.spec
        refine ⟨schema, (Value.readIdentifier_eq_ok.mp table).2,
          accepted.isIdentifier_column fun g record => ?_⟩
        obtain ⟨values, _, rfl⟩ := Option.map_eq_some_iff.mp items
        obtain ⟨_, _, value⟩ := List.mem_map.mp record
        cases value
    | @readWithFields _ fields each read =>
        have accepted := acceptedWith_of_readGiven read
        obtain ⟨schema, table, _⟩ := accepted.spec
        refine ⟨schema, (Value.readIdentifier_eq_ok.mp table).2,
          accepted.isIdentifier_column fun g record => ?_⟩
        obtain ⟨other, listed, same⟩ := List.mem_map.mp record
        cases same
        obtain ⟨given, read⟩ := each g listed
        exact Field.isIdentifier_of_read read
    | loaded loaded member =>
        have valid := loadModels_loaded loaded member
        exact ⟨valid.schema, valid.table, valid.columns⟩
  obtain ⟨schema, table, columns⟩ := every
  rcases List.mem_cons.mp among with rfl | among
  · exact schema
  · rcases List.mem_cons.mp among with rfl | among
    · exact table
    · obtain ⟨f, member, rfl⟩ := List.mem_map.mp among
      exact columns f member

end Model

/-! ## Names of files -/

theorem Parent.isIdentifier_of_ofEntries {entries : Entries} : ∀ p,
    ofEntries entries = .ok p → isIdentifier p.snakeName ∧ isIdentifier p.column := by
  simp only [ofEntries, Checked.forall_seqLeft_eq_ok, Checked.forall_seq_eq_ok,
    Checked.forall_map_eq_ok]
  intro _ _ snakeName readSnake _ _ column readColumn
  intros
  exact ⟨Entries.isIdentifier_of_required readSnake, Entries.isIdentifier_of_required readColumn⟩

namespace Model

theorem isMadeOf_of_ofEntries {entries : Entries} {fields : Checked (List Field)} {m : Model}
    (read : ofEntries entries fields = .ok m) : m.IsMadeOf entries (readParts entries fields) := by
  obtain ⟨built, parted, ruled⟩ := Checked.andThen_eq_ok.mp read
  obtain ⟨same, _⟩ := checkRules_eq_ok ruled
  exact same ▸ ofParts_spec built (Checked.seqLeft_eq_ok.mp parted).1

structure HasFileNames (m : Model) : Prop where
  moduleName : isIdentifier m.moduleName
  parents : ∀ p ∈ m.parents, isIdentifier p.snakeName

theorem isIdentifier_of_parent {entries : Entries} {fields : Checked (List Field)} {m : Model}
    (read : ofEntries entries fields = .ok m) {p : Parent} (held : p ∈ m.parents) :
    isIdentifier p.snakeName ∧ isIdentifier p.column := by
  obtain ⟨_, read⟩ := Entries.exists_of_optional_list (isMadeOf_of_ofEntries read).parents held
  exact Parent.isIdentifier_of_ofEntries p (Value.read_entries read)

theorem hasFileNames_of_ofEntries {entries : Entries} {fields : Checked (List Field)} {m : Model}
    (read : ofEntries entries fields = .ok m) : m.HasFileNames :=
  ⟨Entries.isIdentifier_of_required (isMadeOf_of_ofEntries read).moduleName,
    fun _ held => (isIdentifier_of_parent read held).1⟩

theorem Accepted.hasFileNames {m : Model} (accepted : m.Accepted) : m.HasFileNames := by
  cases accepted with
  | read read => exact hasFileNames_of_ofEntries (Value.read_entries read)
  | readWithFields _ read => exact hasFileNames_of_ofEntries (Value.read_entries read)
  | loaded loaded member =>
      refine ⟨(loadModels_loaded loaded member).moduleName, fun p held => ?_⟩
      obtain ⟨parent, among, _, named⟩ := (loadModels_loaded loaded member).parentModels p held
      rw [named]
      exact (loadModels_loaded loaded among).moduleName

end Model

end TenantSql
