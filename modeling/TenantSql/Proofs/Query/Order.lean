import TenantSql.Proofs.Definition.Accepted
import TenantSql.Proofs.Query.Placeholder

/-!
# Requested orders

Which requests for an order are accepted, and which order each of them gives. A
hyphen in front always asks for the descending order, so a field whose name
begins with one cannot be asked for in the ascending order.
-/

namespace TenantSql

def beginsWithHyphen (s : String) : Bool :=
  s.toList.head? == some '-'

def orderRequest (name : String) (descending : Bool) : String :=
  if descending then "-" ++ name else name

theorem splitRequest_hyphen (name : String) : splitRequest ("-" ++ name) = (name, true) := by
  simp [splitRequest]

theorem splitRequest_plain {request : String} (plain : beginsWithHyphen request = false) :
    splitRequest request = (request, false) := by
  rw [splitRequest]
  split
  · rename_i spelled
    rw [beginsWithHyphen, spelled] at plain
    cases plain
  · rfl

theorem exists_of_beginsWithHyphen {s : String} (hyphen : beginsWithHyphen s) :
    ∃ name, s = "-" ++ name := by
  obtain ⟨rest, spelled⟩ := List.head?_eq_some_iff.mp (beq_iff_eq.mp hyphen)
  exact ⟨String.ofList rest, String.toList_inj.mp (by simp [spelled])⟩

theorem beginsWithHyphen_append (name : String) : beginsWithHyphen ("-" ++ name) := by
  simp [beginsWithHyphen]

/-- A request is taken apart into the name and the direction that it is made of, unless it asks for
the ascending order by a name that begins with a hyphen. -/
theorem splitRequest_eq_iff {request name : String} {descending : Bool} :
    splitRequest request = (name, descending) ↔
      request = orderRequest name descending ∧ (beginsWithHyphen request → descending) := by
  cases hyphen : beginsWithHyphen request with
  | true =>
      obtain ⟨named, rfl⟩ := exists_of_beginsWithHyphen hyphen
      rw [splitRequest_hyphen, Prod.mk.injEq]
      cases descending <;> simp [orderRequest, ← String.toList_inj]
  | false =>
      rw [splitRequest_plain hyphen, Prod.mk.injEq]
      cases descending with
      | false => simp [orderRequest]
      | true =>
          refine iff_of_false (fun both => by cases both.2) fun both => ?_
          have begins := beginsWithHyphen_append name
          rw [← show request = "-" ++ name from both.1, hyphen] at begins
          cases begins

namespace Model

variable {m : Model} {request : String} {order : OrderBy} {f : Field} {descending : Bool}

structure Offers (m : Model) (request : String) (f : Field) (descending : Bool) : Prop where
  held : f ∈ m.fields
  allowed : f.sortable.allows descending
  spelled : request = orderRequest f.name descending

def orderBy (f : Field) (descending : Bool) : OrderBy :=
  ⟨f.name, f.column, descending⟩

/-- The requests that are accepted are those for orders which the fields admit, and each of them
gives the order that it asks for. -/
def ReadsOrders (m : Model) : Prop :=
  ∀ request order, m.listOrder (some request) = .ok order ↔
    ∃ f descending, m.Offers request f descending ∧ order = some (orderBy f descending)

theorem mem_sortableFields_of_allows (held : f ∈ m.fields)
    (allowed : f.sortable.allows descending) : f ∈ m.sortableFields := by
  refine List.mem_filter.mpr ⟨held, bne_iff_ne.mpr fun none => ?_⟩
  rw [none] at allowed
  cases allowed

theorem find?_sortable (names : (m.fields.map Field.name).Nodup) (listed : f ∈ m.sortableFields) :
    m.sortableFields.find? (·.name == f.name) = some f :=
  find?_of_key (names.sublist (List.filter_sublist.map _)) listed

/-- The field and the direction of an order are those that the request is taken apart into. -/
theorem orderOf_eq_ok (names : (m.fields.map Field.name).Nodup) :
    m.orderOf request = .ok order ↔ ∃ f ∈ m.fields, ∃ descending,
      splitRequest request = (f.name, descending) ∧ f.sortable.allows descending ∧
        order = orderBy f descending := by
  constructor
  · intro admitted
    simp only [orderOf] at admitted
    split at admitted
    · cases admitted
    · rename_i f found
      split at admitted
      · rename_i allowed
        have named : f.name = (splitRequest request).1 := by simpa using List.find?_some found
        refine ⟨f, List.mem_of_mem_filter (List.mem_of_find?_eq_some found), _, ?_, allowed,
          (Except.ok.inj admitted).symm⟩
        rw [named]
      · cases admitted
  · rintro ⟨f, held, descending, asked, allowed, rfl⟩
    have found := find?_sortable names (mem_sortableFields_of_allows held allowed)
    simp only [orderOf, asked, found, allowed, if_true]
    rfl

theorem orderOf_eq_error {e : OrderError} (refused : m.orderOf request = .error e) :
    e.model = m.name ∧ e.field = (splitRequest request).1 ∧
      e.reason = if e.field ∈ m.sortableFields.map Field.name then .invalidDirection
        else .invalidField := by
  simp only [orderOf] at refused
  split at refused
  · rename_i missing
    cases refused
    refine ⟨rfl, rfl, (if_neg fun listed => ?_).symm⟩
    obtain ⟨f, among, named⟩ := List.mem_map.mp listed
    exact List.find?_eq_none.mp missing f among (beq_iff_eq.mpr named)
  · rename_i f found
    split at refused
    · cases refused
    · cases refused
      refine ⟨rfl, rfl, (if_pos ?_).symm⟩
      have named : f.name = (splitRequest request).1 := by simpa using List.find?_some found
      exact List.mem_map.mpr ⟨f, List.mem_of_find?_eq_some found, named⟩

theorem listOrder_some (m : Model) (request : String) :
    m.listOrder (some request) = some <$> m.orderOf request := by
  rw [listOrder, Option.some_or]

/-- The orders that are given are those that are offered, except that nothing with a hyphen in front
gives an ascending order. -/
theorem listOrder_eq_ok (names : (m.fields.map Field.name).Nodup) {result : Option OrderBy} :
    m.listOrder (some request) = .ok result ↔ ∃ f descending, m.Offers request f descending ∧
      (beginsWithHyphen request → descending) ∧ result = some (orderBy f descending) := by
  rw [listOrder_some, Result.map_eq_ok]
  simp only [orderOf_eq_ok names, splitRequest_eq_iff]
  constructor
  · rintro ⟨_, ⟨f, held, descending, ⟨spelled, hyphen⟩, allowed, rfl⟩, rfl⟩
    exact ⟨f, descending, ⟨held, allowed, spelled⟩, hyphen, rfl⟩
  · rintro ⟨f, descending, ⟨held, allowed, spelled⟩, hyphen, rfl⟩
    exact ⟨_, ⟨f, held, descending, ⟨spelled, hyphen⟩, allowed, rfl⟩, rfl⟩

/-- Every request is read as what it asks for if and only if no field that admits the ascending
order has a name that begins with a hyphen. -/
theorem readsOrders_of_names (names : (m.fields.map Field.name).Nodup) :
    m.ReadsOrders ↔
      ∀ f ∈ m.fields, f.sortable.allows false → beginsWithHyphen f.name = false := by
  constructor
  · intro reads f held allowed
    have offered : m.Offers f.name f false := ⟨held, allowed, rfl⟩
    obtain ⟨g, descending, _, hyphen, same⟩ :=
      (listOrder_eq_ok names).mp ((reads f.name _).mpr ⟨f, false, offered, rfl⟩)
    have ascends : false = descending := congrArg OrderBy.descending (Option.some.inj same)
    exact Bool.eq_false_iff.mpr fun begins => Bool.false_ne_true (ascends.trans (hyphen begins))
  · intro plain request result
    rw [listOrder_eq_ok names]
    refine exists₂_congr fun f descending => and_congr_right fun offered => ?_
    refine and_iff_right_of_imp fun _ begins => ?_
    cases descending with
    | true => rfl
    | false =>
        have named : request = f.name := offered.spelled
        rw [named, plain f offered.held offered.allowed] at begins
        cases begins

/-- A request in a list of an accepted model gives the order by a field that is so named, if the
field admits the direction; a hyphen in front always asks for the descending one. So the requests
are read as what they ask for if and only if no field that admits the ascending order has a name
that begins with a hyphen. Any other request is refused, and the refusal names what was asked for. -/
theorem readsOrders_iff (accepted : m.Accepted) :
    (m.ReadsOrders ↔
      ∀ f ∈ m.fields, f.sortable.allows false → beginsWithHyphen f.name = false) ∧
    (∀ request result, m.listOrder (some request) = .ok result ↔
      ∃ f descending, m.Offers request f descending ∧ (beginsWithHyphen request → descending) ∧
        result = some (orderBy f descending)) ∧
    ∀ request, (∀ f descending, ¬ m.Offers request f descending) →
      ∃ e, m.listOrder (some request) = .error e ∧ e.model = m.name ∧
        e.field = (splitRequest request).1 := by
  have names := accepted.lawful.names
  refine ⟨readsOrders_of_names names, fun request result => listOrder_eq_ok names,
    fun request none => ?_⟩
  cases refused : m.orderOf request with
  | ok order =>
      have given : m.listOrder (some request) = .ok (some order) := by
        rw [listOrder_some, refused]
        rfl
      obtain ⟨f, descending, offered, _⟩ := (listOrder_eq_ok names).mp given
      exact absurd offered (none f descending)
  | error e =>
      obtain ⟨model, field, _⟩ := orderOf_eq_error refused
      refine ⟨e, ?_, model, field⟩
      rw [listOrder_some, refused]
      rfl

end Model

theorem blog_readsOrders : ∃ models m, loadModels (blog "id") .default none = .ok models ∧
    m ∈ models ∧ m.Accepted ∧ m.ReadsOrders ∧
    m.listOrder (some "-created_at") = .ok (some ⟨"created_at", "created_at", true⟩) := by
  have plain : ∀ f ∈ (blogPost .id).fields,
      f.sortable.allows false → beginsWithHyphen f.name = false := by
    decide +kernel
  have loaded := loadModels_blog .id
  have member := blogPost_mem .id
  have accepted : (blogPost .id).Accepted := .loaded loaded member
  exact ⟨_, _, loaded, member, accepted, (Model.readsOrders_iff accepted).1.mpr plain,
    by decide +kernel⟩

def hyphenatedPosts : Entries := .ofFields [("models", .list [
  .ofFields [("name", .text "Post"), ("fields", .list [
    .ofFields [("name", .text "-title"), ("column", .text "title"),
      ("sortable", .text "ascending_only")]])]])]

/-- The order that the field admits cannot be asked for. -/
theorem hyphenatedPosts_misread : ∃ models m f, loadModels hyphenatedPosts .default none =
      .ok models ∧ m ∈ models ∧ m.Accepted ∧ m.Offers "-title" f false ∧
    m.listOrder (some "-title") = .error ⟨.invalidField, "Post", "title"⟩ ∧ ¬ m.ReadsOrders := by
  obtain ⟨models, m, loaded, member, checked⟩ := exists_loaded hyphenatedPosts
    (fun m _ => (m.field? "-title").any (fun f => f.sortable.allows false) &&
      decide (m.listOrder (some "-title") = .error ⟨.invalidField, "Post", "title"⟩))
    (by decide +kernel)
  simp only [Bool.and_eq_true, decide_eq_true_eq, Option.any_eq_true] at checked
  obtain ⟨⟨f, found, allowed⟩, refused⟩ := checked
  have named : f.name = "-title" := by simpa using List.find?_some found
  have offered : m.Offers "-title" f false := ⟨List.mem_of_find?_eq_some found, allowed, named.symm⟩
  refine ⟨models, m, f, loaded, member, .loaded loaded member, offered, refused, fun reads => ?_⟩
  have given := (reads "-title" _).mpr ⟨f, false, offered, rfl⟩
  rw [refused] at given
  cases given

end TenantSql
