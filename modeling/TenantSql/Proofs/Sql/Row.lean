import TenantSql.Sql.Statement

/-!
# What statements say of rows

A test passes a row if SQL finds it true there, not false and not null. That is
all that a conjunction, `EXISTS`, `bool_or` and `WHEN` depend on: it follows from
the three truth values that SQL computes with.
-/

namespace TenantSql.Sql

/-! ## Rows that pass -/

inductive Datum (ι : Type) where
  | id (i : ι)
  | text (s : String)
  deriving DecidableEq, Repr

abbrev Row (ι : Type) := String → Option (Datum ι)

structure Bound (ι : Type) where
  value : String → Option (Datum ι)
  array : String → List (Datum ι)

variable {ι : Type} [DecidableEq ι]

def sameDatum (a b : Option (Datum ι)) : Bool :=
  a.isSome && a == b

def Comparison.passes (bound : Bound ι) (row : Row ι) : Comparison String → Bool
  | .equals c (.column other) => sameDatum (row c.name) (row other.name)
  | .equals c (.param p) => sameDatum (row c.name) (bound.value p)
  | .inArray c p => (bound.array p).any fun value => sameDatum (row c.name) (some value)
  | .notInArray c p =>
      (bound.array p).all fun value => (row c.name).isSome && row c.name != some value
  | .oneOf c constants => constants.any fun s => sameDatum (row c.name) (some (.text s))

def Condition.passes (bound : Bound ι) (tables : TableName → List (Row ι)) (row : Row ι) :
    Condition String → Bool
  | .holds comparison => comparison.passes bound row
  | .someRow table comparisons =>
      (tables table).any fun other => comparisons.all (·.passes bound other)

def PermissionTest.passes (row : Row ι) : PermissionTest → Bool
  | .oneOf permissions =>
      permissions.any fun s => sameDatum (row "permission") (some (.text s))
  | .exactly permission => sameDatum (row "permission") (some (.text permission))

def TierLookup.answer (s : TierLookup String) (bound : Bound ι)
    (tables : TableName → List (Row ι)) : Option String :=
  let rows := (tables s.table).filter fun row => s.conditions.all (·.passes bound row)
  (s.tiers.find? fun tier => rows.any tier.1.passes).map (·.2)

theorem sameDatum_iff {a b : Option (Datum ι)} : sameDatum a b ↔ a.isSome ∧ a = b := by
  rw [sameDatum, Bool.and_eq_true, beq_iff_eq]

@[simp] theorem sameDatum_some_iff {a : Option (Datum ι)} {value : Datum ι} :
    sameDatum a (some value) ↔ a = some value := by
  cases a <;> simp [sameDatum]

/-! ## Truth values

A comparison with null is neither true nor false. -/

abbrev Truth := Option Bool

namespace Truth

def either : Truth → Truth → Truth
  | some true, _ | _, some true => some true
  | some false, some false => some false
  | _, _ => none

def both : Truth → Truth → Truth
  | some false, _ | _, some false => some false
  | some true, some true => some true
  | _, _ => none

def anyOf (truths : List Truth) : Truth :=
  truths.foldr either (some false)

def allOf (truths : List Truth) : Truth :=
  truths.foldr both (some true)

def boolOr (truths : List Truth) : Truth :=
  match truths.filterMap id with
  | [] => none
  | known => some (known.any id)

variable {truths : List Truth}

theorem either_eq_true {a b : Truth} : either a b = some true ↔ a = some true ∨ b = some true := by
  rcases a with _ | _ | _ <;> rcases b with _ | _ | _ <;> simp [either]

theorem both_eq_true {a b : Truth} : both a b = some true ↔ a = some true ∧ b = some true := by
  rcases a with _ | _ | _ <;> rcases b with _ | _ | _ <;> simp [both]

theorem anyOf_eq_true : anyOf truths = some true ↔ some true ∈ truths := by
  induction truths with
  | nil => simp [anyOf]
  | cons first others induction =>
      rw [anyOf, List.foldr_cons, either_eq_true, ← anyOf, induction, List.mem_cons]
      exact or_congr_left eq_comm

theorem allOf_eq_true : allOf truths = some true ↔ ∀ truth ∈ truths, truth = some true := by
  induction truths with
  | nil => simp [allOf]
  | cons first others induction =>
      rw [allOf, List.foldr_cons, both_eq_true, ← allOf, induction, List.forall_mem_cons]

theorem boolOr_eq_true : boolOr truths = some true ↔ some true ∈ truths := by
  have known : true ∈ truths.filterMap id ↔ some true ∈ truths := by simp
  rw [boolOr, ← known]
  split
  · rename_i none
    rw [none]
    simp
  · simp only [Option.some.injEq, List.any_eq_true, id_eq, exists_eq_right]

end Truth

def sameTruth (a b : Option (Datum ι)) : Truth :=
  match a, b with
  | some a, some b => some (a == b)
  | _, _ => none

theorem sameTruth_eq_true {a b : Option (Datum ι)} : sameTruth a b = some true ↔ sameDatum a b := by
  cases a <;> cases b <;> simp [sameTruth, sameDatum]

def Comparison.truth (bound : Bound ι) (row : Row ι) : Comparison String → Truth
  | .equals c (.column other) => sameTruth (row c.name) (row other.name)
  | .equals c (.param p) => sameTruth (row c.name) (bound.value p)
  | .inArray c p =>
      .anyOf ((bound.array p).map fun value => sameTruth (row c.name) (some value))
  | .notInArray c p =>
      .allOf ((bound.array p).map fun value => (sameTruth (row c.name) (some value)).map (!·))
  | .oneOf c constants =>
      .anyOf (constants.map fun s => sameTruth (row c.name) (some (.text s)))

theorem Comparison.truth_eq_true {bound : Bound ι} {row : Row ι} {comparison : Comparison String} :
    comparison.truth bound row = some true ↔ comparison.passes bound row := by
  cases comparison with
  | equals c value => cases value <;> exact sameTruth_eq_true
  | inArray c p =>
      simp only [truth, passes, Truth.anyOf_eq_true, List.mem_map, sameTruth_eq_true,
        List.any_eq_true]
  | notInArray c p =>
      simp only [truth, passes, Truth.allOf_eq_true, List.forall_mem_map, List.all_eq_true]
      refine forall₂_congr fun value _ => ?_
      cases row c.name <;> simp [sameTruth]
  | oneOf c constants =>
      simp only [truth, passes, Truth.anyOf_eq_true, List.mem_map, sameTruth_eq_true,
        List.any_eq_true]

def Condition.truth (bound : Bound ι) (tables : TableName → List (Row ι)) (row : Row ι) :
    Condition String → Truth
  | .holds comparison => comparison.truth bound row
  | .someRow table comparisons =>
      some ((tables table).any fun other =>
        Truth.allOf (comparisons.map (·.truth bound other)) == some true)

theorem Condition.truth_eq_true {bound : Bound ι} {tables : TableName → List (Row ι)} {row : Row ι}
    {condition : Condition String} :
    condition.truth bound tables row = some true ↔ condition.passes bound tables row := by
  cases condition with
  | holds comparison => exact Comparison.truth_eq_true
  | someRow table comparisons =>
      simp only [truth, passes, Option.some.injEq, List.any_eq_true, beq_iff_eq,
        Truth.allOf_eq_true, List.forall_mem_map, Comparison.truth_eq_true, List.all_eq_true]

def PermissionTest.truth (row : Row ι) : PermissionTest → Truth
  | .oneOf permissions =>
      .anyOf (permissions.map fun s => sameTruth (row "permission") (some (.text s)))
  | .exactly permission => sameTruth (row "permission") (some (.text permission))

theorem PermissionTest.truth_eq_true {row : Row ι} {test : PermissionTest} :
    test.truth row = some true ↔ test.passes row := by
  cases test with
  | oneOf permissions =>
      simp only [truth, passes, Truth.anyOf_eq_true, List.mem_map, sameTruth_eq_true,
        List.any_eq_true]
  | exactly permission => exact sameTruth_eq_true

def kept (bound : Bound ι) (conditions : List (Comparison String)) (rows : List (Row ι)) :
    List (Row ι) :=
  rows.filter fun row => Truth.allOf (conditions.map (·.truth bound row)) == some true

theorem kept_eq {bound : Bound ι} {conditions : List (Comparison String)} {rows : List (Row ι)} :
    kept bound conditions rows = rows.filter fun row => conditions.all (·.passes bound row) := by
  refine List.filter_congr fun row _ => ?_
  rw [Bool.eq_iff_iff, beq_iff_eq, Truth.allOf_eq_true, List.forall_mem_map, List.all_eq_true]
  exact forall₂_congr fun _ _ => Comparison.truth_eq_true

/-- The value of the query: of the tiers whose `bool_or` over the rows is true, the name of the first.
Null if there is none. -/
def TierLookup.value (s : TierLookup String) (bound : Bound ι)
    (tables : TableName → List (Row ι)) : Option String :=
  let rows := kept bound s.conditions (tables s.table)
  (s.tiers.find? fun tier => Truth.boolOr (rows.map tier.1.truth) == some true).map (·.2)

theorem TierLookup.value_eq_answer (s : TierLookup String) (bound : Bound ι)
    (tables : TableName → List (Row ι)) : s.value bound tables = s.answer bound tables := by
  simp only [value, answer, kept_eq]
  have tested (tier : PermissionTest × String) (rows : List (Row ι)) :
      (Truth.boolOr (rows.map tier.1.truth) == some true) = rows.any tier.1.passes := by
    rw [Bool.eq_iff_iff, beq_iff_eq, Truth.boolOr_eq_true, List.mem_map, List.any_eq_true]
    exact exists_congr fun row => and_congr_right fun _ => PermissionTest.truth_eq_true
  simp only [tested]

end TenantSql.Sql
