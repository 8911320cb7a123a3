import Mathlib.Data.Set.Finite.List
import Mathlib.Order.WellFounded
import Mathlib.Data.Fintype.Card
import Mathlib.Logic.Relation
import TenantSql.Proofs.Migration.Order

/-!
# What every table waits for

A model is placed once all the models that it refers to are placed. The models
from which references lead into a circle are those that are never placed: they
follow in the end, in the order of declaration.
-/

namespace TenantSql.Migration

variable {edges : List Edge} {queue : List String} {t : String} {models : List Model} {m n : Model}

def Precedes {α : Type} (items : List α) (earlier later : α) : Prop :=
  ∃ front back, items = front ++ later :: back ∧ earlier ∈ front

def RefersTo (models : List Model) (m n : Model) : Prop :=
  n ∈ models ∧ n ≠ m ∧ ∃ f ∈ m.fields, f.references = some n.fullTable

/-- References lead from the model into a circle. -/
def Stuck (models : List Model) (m : Model) : Prop :=
  ∃ n, Relation.ReflTransGen (RefersTo models) m n ∧ Relation.TransGen (RefersTo models) n n

instance : Decidable (RefersTo models m n) :=
  inferInstanceAs (Decidable (_ ∧ _ ∧ _))

/-- A model is stuck if one that it refers to is. -/
theorem stuck_iff : Stuck models m ↔ ∃ n ∈ models, RefersTo models m n ∧ Stuck models n := by
  constructor
  · rintro ⟨n, leads, circle⟩
    rcases Relation.ReflTransGen.cases_head leads with rfl | ⟨next, refers, leads⟩
    · obtain ⟨next, refers, back⟩ := Relation.TransGen.head'_iff.mp circle
      exact ⟨next, refers.1, refers, m, back, circle⟩
    · exact ⟨next, refers.1, refers, n, leads, circle⟩
  · rintro ⟨next, _, refers, n, leads, circle⟩
    exact ⟨n, leads.head refers, circle⟩

theorem Precedes.cons {α : Type} {items : List α} {earlier later : α} (item : α)
    (before : Precedes items earlier later) : Precedes (item :: items) earlier later := by
  obtain ⟨front, back, rfl, member⟩ := before
  exact ⟨item :: front, back, rfl, List.mem_cons_of_mem item member⟩

theorem Precedes.append {α : Type} {items : List α} {earlier later : α} (more : List α)
    (before : Precedes items earlier later) : Precedes (items ++ more) earlier later := by
  obtain ⟨front, back, rfl, member⟩ := before
  exact ⟨front, back ++ more, List.append_assoc .., member⟩

theorem Precedes.mem {α : Type} {items : List α} {earlier later : α}
    (before : Precedes items earlier later) : earlier ∈ items := by
  obtain ⟨front, back, rfl, member⟩ := before
  exact List.mem_append_left _ member

theorem Precedes.idxOf_lt {items : List String} {earlier later : String} (apart : items.Nodup)
    (before : Precedes items earlier later) : items.idxOf earlier < items.idxOf later := by
  obtain ⟨front, back, rfl, member⟩ := before
  have absent : later ∉ front := fun again =>
    (List.nodup_append.mp apart).2.2 later again later List.mem_cons_self rfl
  rw [List.idxOf_append_of_mem member, List.idxOf_append_of_notMem absent, List.idxOf_cons_self]
  exact List.idxOf_lt_length_of_mem member

theorem mem_released_of_free {others : List Edge} (waits : ∃ edge ∈ edges, edge.after = t)
    (free : ∀ edge ∈ others, edge.after ≠ t) : t ∈ released others edges := by
  induction edges with
  | nil =>
      obtain ⟨edge, listed, _⟩ := waits
      cases listed
  | cons edge rest induction =>
      rw [released]
      by_cases more : ∃ later ∈ rest, later.after = t
      · split
        · exact induction more
        · exact List.mem_cons_of_mem _ (induction more)
      · obtain ⟨only, listed, after⟩ := waits
        rcases List.mem_cons.mp listed with rfl | later
        · have last : ¬ (rest ++ others).any (·.after == only.after) := by
            intro again
            obtain ⟨other, among, same⟩ := List.any_eq_true.mp again
            have ends : other.after = t := (beq_iff_eq.mp same).trans after
            rcases List.mem_append.mp among with later | elsewhere
            · exact more ⟨other, later, ends⟩
            · exact free other elsewhere ends
          rw [if_neg last, after]
          exact List.mem_cons_self
        · exact absurd ⟨only, later, after⟩ more

theorem queue_subset_place : queue ⊆ place queue edges := by
  induction queue, edges using place.induct with
  | case1 edges => exact List.nil_subset _
  | case2 edges table waiting induction =>
      rw [place]
      intro t member
      rcases List.mem_cons.mp member with rfl | waits
      · exact List.mem_cons_self
      · exact List.mem_cons_of_mem _ (induction (List.mem_append_left _ waits))

/-- A table that is placed comes after every table that it waits for. -/
theorem Ready.precedes_of_mem_place (ready : Ready queue edges) {edge : Edge} (listed : edge ∈ edges)
    (placed : edge.after ∈ place queue edges) :
    Precedes (place queue edges) edge.before edge.after := by
  induction queue, edges using place.induct with
  | case1 edges =>
      rw [place] at placed
      cases placed
  | case2 edges table waiting induction =>
      rw [place] at placed ⊢
      rcases List.mem_cons.mp placed with first | later
      · exact absurd (first ▸ List.mem_cons_self) (ready.free edge listed)
      · by_cases starts : edge.before = table
        · obtain ⟨front, back, split⟩ := List.append_of_mem later
          exact ⟨table :: front, back, by rw [split]; rfl, starts ▸ List.mem_cons_self⟩
        · have other : edge ∈ otherEdges edges table :=
            List.mem_filter.mpr ⟨listed, bne_iff_ne.mpr starts⟩
          exact (induction ready.next other later).cons table

/-- A table is placed once every table that it waits for is placed. -/
theorem mem_place_of_placed (waits : ∃ edge ∈ edges, edge.after = t)
    (placed : ∀ edge ∈ edges, edge.after = t → edge.before ∈ place queue edges) :
    t ∈ place queue edges := by
  induction queue, edges using place.induct with
  | case1 edges =>
      obtain ⟨edge, listed, after⟩ := waits
      have none := placed edge listed after
      rw [place] at none
      cases none
  | case2 edges table waiting induction =>
      rw [place] at placed ⊢
      apply List.mem_cons_of_mem
      by_cases more : ∃ edge ∈ otherEdges edges table, edge.after = t
      · refine induction more fun edge other after => ?_
        obtain ⟨listed, elsewhere⟩ := List.mem_filter.mp other
        exact (List.mem_cons.mp (placed edge listed after)).resolve_left (bne_iff_ne.mp elsewhere)
      · -- Only the table that was just placed was missing.
        obtain ⟨edge, listed, after⟩ := waits
        have starts : edge.before = table := by
          by_contra elsewhere
          exact more ⟨edge, List.mem_filter.mpr ⟨listed, bne_iff_ne.mpr elsewhere⟩, after⟩
        have free : ∀ edge ∈ otherEdges edges table, edge.after ≠ t :=
          fun other among same => more ⟨other, among, same⟩
        have next : t ∈ released (otherEdges edges table) (edgesFrom edges table) :=
          mem_released_of_free
            ⟨edge, List.mem_filter.mpr ⟨listed, beq_iff_eq.mpr starts⟩, after⟩ free
        exact queue_subset_place (List.mem_append_right waiting next)

theorem mem_edgesOf {edge : Edge} :
    edge ∈ edgesOf models ↔ edge.before ∈ models.map Model.fullTable ∧
      edge.before ≠ edge.after ∧ ∃ m ∈ models, m.fullTable = edge.after ∧
        ∃ f ∈ m.fields, f.references = some edge.before := by
  simp only [edgesOf, referredTables, List.mem_flatMap, List.mem_map, (Text.sorted_perm _).mem_iff,
    Text.mem_distinct, List.mem_filter, List.mem_filterMap, Bool.and_eq_true, List.contains_iff_mem,
    bne_iff_ne]
  constructor
  · rintro ⟨m, member, t, ⟨⟨f, field, refers⟩, listed, different⟩, rfl⟩
    exact ⟨listed, different, m, member, rfl, f, field, refers⟩
  · rintro ⟨listed, different, m, member, own, f, field, refers⟩
    refine ⟨m, member, edge.before, ⟨⟨f, field, refers⟩, listed, own ▸ different⟩, ?_⟩
    rw [own]

theorem refersTo_iff (apart : (models.map Model.fullTable).Nodup) (member : m ∈ models)
    (other : n ∈ models) :
    RefersTo models m n ↔ ⟨n.fullTable, m.fullTable⟩ ∈ edgesOf models := by
  rw [mem_edgesOf]
  constructor
  · rintro ⟨_, different, refers⟩
    refine ⟨List.mem_map_of_mem other, fun same => different ?_, m, member, rfl, refers⟩
    exact List.inj_on_of_nodup_map apart other member same
  · rintro ⟨_, different, owner, listed, own, refers⟩
    obtain rfl := List.inj_on_of_nodup_map apart listed member own
    exact ⟨other, fun same => different (same ▸ rfl), refers⟩

/-- The tables that are placed are those that only wait for tables that are placed. -/
theorem mem_placedTables_iff (apart : (models.map Model.fullTable).Nodup)
    (listed : t ∈ models.map Model.fullTable) :
    t ∈ placedTables models ↔
      ∀ edge ∈ edgesOf models, edge.after = t → edge.before ∈ placedTables models := by
  constructor
  · rintro placed edge waits rfl
    exact ((ready_firstTables apart).precedes_of_mem_place waits placed).mem
  · intro placed
    by_cases waits : ∃ edge ∈ edgesOf models, edge.after = t
    · exact mem_place_of_placed waits placed
    · have free : ∀ edge ∈ edgesOf models, edge.after ≠ t :=
        fun edge among same => waits ⟨edge, among, same⟩
      exact queue_subset_place (mem_firstTables.mpr ⟨listed, free⟩)

theorem RefersTo.precedes (apart : (models.map Model.fullTable).Nodup) (member : m ∈ models)
    (placed : m.fullTable ∈ placedTables models) (refers : RefersTo models m n) :
    Precedes (placedTables models) n.fullTable m.fullTable :=
  (ready_firstTables apart).precedes_of_mem_place
    ((refersTo_iff apart member refers.1).mp refers) placed

theorem idxOf_lt_of_transGen (apart : (models.map Model.fullTable).Nodup) (member : m ∈ models)
    (placed : m.fullTable ∈ placedTables models)
    (leads : Relation.TransGen (RefersTo models) m n) :
    n ∈ models ∧ n.fullTable ∈ placedTables models ∧
      (placedTables models).idxOf n.fullTable < (placedTables models).idxOf m.fullTable := by
  have distinct : (placedTables models).Nodup := (ready_firstTables apart).nodup_place
  induction leads with
  | single refers =>
      have before := refers.precedes apart member placed
      exact ⟨refers.1, before.mem, before.idxOf_lt distinct⟩
  | tail _ refers induction =>
      obtain ⟨listed, earlier, less⟩ := induction
      have before := refers.precedes apart listed earlier
      exact ⟨refers.1, before.mem, (before.idxOf_lt distinct).trans less⟩

/-- Where no circle can be reached, references run out, and so every table gets its place. -/
theorem placed_of_not_stuck (apart : (models.map Model.fullTable).Nodup) (member : m ∈ models)
    (free : ¬ Stuck models m) : m.fullTable ∈ placedTables models := by
  let Reached := { n // n ∈ models ∧ Relation.ReflTransGen (RefersTo models) m n }
  let leadsTo : Reached → Reached → Prop := fun a b => Relation.TransGen (RefersTo models) b.1 a.1
  have finite : Finite Reached := (models.finite_toSet.subset fun _ reached => reached.1).to_subtype
  have transitive : IsTrans Reached leadsTo := ⟨fun _ _ _ first second => second.trans first⟩
  have irreflexive : Std.Irrefl leadsTo := ⟨fun a circle => free ⟨a.1, a.2.2, circle⟩⟩
  have founded : WellFounded leadsTo := Finite.wellFounded_of_trans_of_irrefl leadsTo
  have placed (a : Reached) : a.1.fullTable ∈ placedTables models := by
    induction a using founded.induction with
    | _ a induction =>
        obtain ⟨o, listed, reached⟩ := a
        refine (mem_placedTables_iff apart (List.mem_map_of_mem listed)).mpr fun edge waits after => ?_
        obtain ⟨n, other, before⟩ := List.mem_map.mp (mem_edgesOf.mp waits).1
        have refers : RefersTo models o n := by
          rw [refersTo_iff apart listed other, before, ← after]
          exact waits
        rw [← before]
        exact induction ⟨n, other, reached.tail refers⟩ (.single refers)
  exact placed ⟨m, member, .refl⟩

theorem placed_iff (apart : (models.map Model.fullTable).Nodup) (member : m ∈ models) :
    m.fullTable ∈ placedTables models ↔ ¬ Stuck models m := by
  refine ⟨?_, placed_of_not_stuck apart member⟩
  rintro placed ⟨n, leads, circle⟩
  have reached : n ∈ models ∧ n.fullTable ∈ placedTables models := by
    rcases Relation.reflTransGen_iff_eq_or_transGen.mp leads with rfl | leads
    · exact ⟨member, placed⟩
    · obtain ⟨listed, earlier, _⟩ := idxOf_lt_of_transGen apart member placed leads
      exact ⟨listed, earlier⟩
  exact lt_irrefl _ (idxOf_lt_of_transGen apart reached.1 reached.2 circle).2.2

def placedModels (models : List Model) : List Model :=
  (placedTables models).filterMap fun table => models.reverse.find? (·.fullTable == table)

theorem mem_placedModels (apart : (models.map Model.fullTable).Nodup) :
    m ∈ placedModels models ↔ m ∈ models ∧ m.fullTable ∈ placedTables models := by
  rw [placedModels, List.mem_filterMap]
  constructor
  · rintro ⟨table, placed, found⟩
    have named : m.fullTable = table := by simpa using List.find?_some found
    exact ⟨List.mem_reverse.mp (List.mem_of_find?_eq_some found), named ▸ placed⟩
  · rintro ⟨member, placed⟩
    exact ⟨m.fullTable, placed, find?_reverse_of_key apart member⟩

theorem RefersTo.precedes_placedModels (apart : (models.map Model.fullTable).Nodup)
    (placed : m ∈ placedModels models) (refers : RefersTo models m n) :
    Precedes (placedModels models) n m := by
  obtain ⟨member, listed⟩ := (mem_placedModels apart).mp placed
  obtain ⟨front, back, split, earlier⟩ := refers.precedes apart member listed
  let found := fun table => models.reverse.find? (·.fullTable == table)
  refine ⟨front.filterMap found, back.filterMap found, ?_, ?_⟩
  · rw [placedModels, split, List.filterMap_append, List.filterMap_cons,
      find?_reverse_of_key apart member]
  · exact List.mem_filterMap.mpr ⟨n.fullTable, earlier, find?_reverse_of_key apart refers.1⟩

open scoped Classical in
/-- The models that get ready come first, and the others follow as they were declared. -/
theorem order_eq (apart : (models.map Model.fullTable).Nodup) :
    order models = placedModels models ++ models.filter (Stuck models ·) := by
  rw [order, tableOrder_eq apart, List.filterMap_append, ← placedModels, List.filter_map,
    List.filterMap_map]
  have rest : models.filter ((fun t => !(placedTables models).contains t) ∘ Model.fullTable) =
      models.filter (Stuck models ·) := by
    refine List.filter_congr fun m member => ?_
    have stuck : m.fullTable ∉ placedTables models ↔ Stuck models m :=
      (placed_iff apart member).not_left
    simp [← stuck]
  rw [rest]
  congr 1
  refine Eq.trans (List.filterMap_congr fun m listed => ?_) (List.filterMap_some (l := _))
  exact find?_reverse_of_key apart (List.mem_filter.mp listed).1

open scoped Classical in
theorem placedModels_perm (apart : (models.map Model.fullTable).Nodup) :
    (placedModels models).Perm (models.filter (¬ Stuck models ·)) := by
  have whole : (placedModels models ++ models.filter (Stuck models ·)).Perm
      (models.filter (¬ Stuck models ·) ++ models.filter (Stuck models ·)) := by
    rw [← order_eq apart]
    refine (order_perm apart).trans (List.perm_append_comm.trans ?_).symm
    simpa only [decide_not] using List.filter_append_perm (Stuck models ·) models
  exact (List.perm_append_right_iff _).mp whole

open scoped Classical in
/-- The order has every model once: first the models from which no circle is reached, each after
all that it refers to, then the others as they were declared. Without circles, every table is
created before the tables that refer to it. -/
theorem order_spec {models : List Model} (apart : (models.map Model.fullTable).Nodup) :
    (order models).Perm models ∧
      (∃ placed, order models = placed ++ models.filter (Stuck models ·) ∧
        placed.Perm (models.filter (¬ Stuck models ·)) ∧
        ∀ m ∈ placed, ∀ n, RefersTo models m n → Precedes placed n m) ∧
      ((∀ m, ¬ Relation.TransGen (RefersTo models) m m) →
        ∀ m ∈ models, ∀ n, RefersTo models m n → Precedes (order models) n m) := by
  refine ⟨order_perm apart, ⟨placedModels models, order_eq apart, placedModels_perm apart,
    fun m placed n refers => refers.precedes_placedModels apart placed⟩, ?_⟩
  intro free m member n refers
  have placed : m.fullTable ∈ placedTables models :=
    placed_of_not_stuck apart member fun ⟨o, _, circle⟩ => free o circle
  rw [order_eq apart]
  exact (refers.precedes_placedModels apart
    ((mem_placedModels apart).mpr ⟨member, placed⟩)).append _

def referring (table : String) (others : List String) : Model :=
  { (default : Model) with
    schema := "public"
    table
    fields := others.map fun t => { (default : Field) with references := some ("public." ++ t) } }

def cities : Model := referring "cities" ["countries"]
def countries : Model := referring "countries" []
def authors : Model := referring "authors" ["biographies"]
def biographies : Model := referring "biographies" ["authors"]
def reviews : Model := referring "reviews" ["authors"]

def circular : List Model := [cities, authors, biographies, reviews, countries]

theorem circular_order : (circular.map Model.fullTable).Nodup ∧
    Stuck circular authors ∧ Stuck circular biographies ∧ Stuck circular reviews ∧
    ∃ placed, order circular = placed ++ [authors, biographies, reviews] ∧
      placed.Perm [cities, countries] ∧ Precedes placed countries cities := by
  classical
  have back : RefersTo circular biographies authors := by decide
  have circle : Relation.TransGen (RefersTo circular) authors authors :=
    .head (show RefersTo circular authors biographies by decide) (.single back)
  have stuckAuthors : Stuck circular authors := ⟨authors, .refl, circle⟩
  have stuckBiographies : Stuck circular biographies := ⟨authors, .single back, circle⟩
  have stuckReviews : Stuck circular reviews := ⟨authors, .single (by decide), circle⟩
  have freeCountries : ¬ Stuck circular countries := by
    intro stuck
    obtain ⟨n, listed, refers, _⟩ := stuck_iff.mp stuck
    exact (show ∀ n ∈ circular, ¬ RefersTo circular countries n by decide) n listed refers
  have freeCities : ¬ Stuck circular cities := by
    intro stuck
    obtain ⟨n, listed, refers, later⟩ := stuck_iff.mp stuck
    have only : n = countries :=
      (show ∀ n ∈ circular, RefersTo circular cities n → n = countries by decide) n listed refers
    exact freeCountries (only ▸ later)
  have apart : (circular.map Model.fullTable).Nodup := by decide
  obtain ⟨_, ⟨placed, split, perm, before⟩, _⟩ := order_spec apart
  have last : [cities, authors, biographies, reviews, countries].filter (Stuck circular ·) =
      [authors, biographies, reviews] := by
    simp [stuckAuthors, stuckBiographies, stuckReviews, freeCities, freeCountries]
  have first : [cities, authors, biographies, reviews, countries].filter (¬ Stuck circular ·) =
      [cities, countries] := by
    simp [stuckAuthors, stuckBiographies, stuckReviews, freeCities, freeCountries]
  replace perm : placed.Perm [cities, countries] := perm.trans (.of_eq first)
  exact ⟨apart, stuckAuthors, stuckBiographies, stuckReviews, placed,
    split.trans (by rw [← last]; rfl),
    perm, before cities (perm.mem_iff.mpr List.mem_cons_self) countries (by decide)⟩

end TenantSql.Migration
