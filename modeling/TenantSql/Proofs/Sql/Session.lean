import Mathlib.Data.List.Nodup
import TenantSql.Proofs.Sql.Numbering
import TenantSql.Proofs.Sql.Written
import TenantSql.Proofs.Text.Distinct
import TenantSql.Sql.Session

/-!
# What builder sessions keep

However the actions of a session are mixed, and whichever of them fail, text and
bindings are only ever added to, every name keeps the number that it was given
first, and a finished builder stays as it was finished. A separated list that is
written to alone comes out as its items with the separator between them.
-/

namespace TenantSql.Sql

/-! ## Actions -/

def ListAction.writes : ListAction → Bool
  | .push _ | .pushUnseparated _ | .pushBinding _ | .pushBindingUnseparated _ => true
  | .setOpening _ | .askEmpty => false

namespace Action

def takesBuilder (lists : List Separated) : Action → Bool
  | .onList number action => number < lists.length && action.writes
  | _ => true

theorem takesBuilder_onList {lists : List Separated} {place : Nat} {action : ListAction} :
    (onList place action).takesBuilder lists ↔
      (∃ list, lists[place]? = some list) ∧ action.writes := by
  rw [takesBuilder, Bool.and_eq_true, decide_eq_true_eq, ← Option.isSome_iff_exists,
    Option.isSome_iff_ne_none, Ne, List.getElem?_eq_none_iff, Nat.not_le]

def boundName? : Action → Option String
  | .pushBinding name | .bind name | .bindPlaceholder name | .onList _ (.pushBinding name)
  | .onList _ (.pushBindingUnseparated name) => some name
  | _ => none

def ending? : Action → Option (String × List String)
  | .finish name => some (name, [])
  | .finishWithFields name fields => some (name, fields)
  | _ => none

end Action

/-! ## Steps -/

structure Draft.Grows (d later : Draft) : Prop where
  text : ∃ added, later.text = d.text ++ added
  bindings : d.bindings <+: later.bindings
  distinct : d.bindings.Nodup → later.bindings.Nodup

namespace Draft

theorem Grows.refl (d : Draft) : d.Grows d :=
  ⟨⟨"", String.append_empty.symm⟩, List.prefix_rfl, id⟩

theorem Grows.trans {d e f : Draft} (first : d.Grows e) (second : e.Grows f) : d.Grows f := by
  obtain ⟨added, text⟩ := first.text
  obtain ⟨more, further⟩ := second.text
  refine ⟨⟨added ++ more, ?_⟩, first.bindings.trans second.bindings,
    fun distinct => second.distinct (first.distinct distinct)⟩
  rw [further, text, String.append_assoc]

theorem grows_push (d : Draft) (text : String) : d.Grows (d.push text) :=
  ⟨⟨text, rfl⟩, List.prefix_rfl, id⟩

theorem grows_bind (d : Draft) (name : String) : d.Grows (d.bind name) :=
  ⟨⟨"", by simp⟩, d.bindings_prefix_bind name, fun distinct => nodup_bind distinct name⟩

theorem grows_pushBinding (d : Draft) (name : String) : d.Grows (d.pushBinding name) :=
  (d.grows_bind name).trans (grows_push _ _)

end Draft

inductive Builder.Moves (b : Builder) : Builder → Prop
  | stay : Moves b b
  | write {draft : Draft} (isOpen : b.finishedAs = none) (grows : b.draft.Grows draft) :
      Moves b { b with draft }
  | finish {name : String} (isOpen : b.finishedAs = none)
      (visible : Text.isAllBlank b.draft.text = false) : Moves b { b with finishedAs := some name }

structure Builder.Valid (b : Builder) : Prop where
  distinct : b.draft.bindings.Nodup
  visible : b.finishedAs ≠ none → Text.isAllBlank b.draft.text = false

theorem Builder.Moves.grows {b later : Builder} (moves : b.Moves later) :
    b.draft.Grows later.draft := by
  cases moves with
  | stay => exact .refl b.draft
  | write isOpen grows => exact grows
  | finish isOpen visible => exact .refl b.draft

theorem Builder.Moves.eq_of_finished {b later : Builder} (moves : b.Moves later) {name : String}
    (finished : b.finishedAs = some name) : later = b := by
  cases moves with
  | stay => rfl
  | write isOpen grows => rw [isOpen] at finished; cases finished
  | finish isOpen visible => rw [isOpen] at finished; cases finished

theorem Builder.Moves.valid {b later : Builder} (moves : b.Moves later) (valid : b.Valid) :
    later.Valid := by
  refine ⟨moves.grows.distinct valid.distinct, ?_⟩
  cases moves with
  | stay => exact valid.visible
  | write isOpen grows => exact fun finished => absurd isOpen finished
  | finish isOpen visible => exact fun _ => visible

namespace Session

variable {s : Session}

theorem change_of_open (isOpen : s.builder.finishedAs = none) (edit : Draft → Draft)
    (answer : Draft → Answer) :
    s.change edit answer = (.ok (answer (edit s.builder.draft)),
      { s with builder := { s.builder with draft := edit s.builder.draft } }) := by
  simp only [change, Builder.update, isOpen]

theorem change_of_finished {name : String} (finished : s.builder.finishedAs = some name)
    (edit : Draft → Draft) (answer : Draft → Answer) :
    s.change edit answer = (.error (.build (.consumed name)), s) := by
  simp only [change, Builder.update, finished]

theorem finish_of_finished {earlier : String} (finished : s.builder.finishedAs = some earlier)
    (name : String) (fields : List String) :
    s.finish name fields = (.error (.build (.consumed earlier)), s) := by
  simp only [finish, Builder.finish, finished]

theorem finish_of_blank (isOpen : s.builder.finishedAs = none)
    (blank : Text.isAllBlank s.builder.draft.text) (name : String) (fields : List String) :
    s.finish name fields = (.error (.build (.emptyQuery name)), s) := by
  simp only [finish, Builder.finish, isOpen, blank, if_true]

theorem finish_of_visible (isOpen : s.builder.finishedAs = none)
    (visible : Text.isAllBlank s.builder.draft.text = false) (name : String)
    (fields : List String) :
    s.finish name fields = (.ok (.query (s.builder.draft.query name fields)),
      { s with builder := { s.builder with finishedAs := some name } }) := by
  simp [finish, Builder.finish, isOpen, visible]

theorem change_moves {edit : Draft → Draft} (grows : ∀ d : Draft, d.Grows (edit d))
    (answer : Draft → Answer) : s.builder.Moves (s.change edit answer).2.builder := by
  cases state : s.builder.finishedAs with
  | none =>
      rw [change_of_open state]
      exact .write state (grows _)
  | some name =>
      rw [change_of_finished state]
      exact .stay

theorem finish_moves (name : String) (fields : List String) :
    s.builder.Moves (s.finish name fields).2.builder := by
  cases state : s.builder.finishedAs with
  | none =>
      cases blank : Text.isAllBlank s.builder.draft.text with
      | true =>
          rw [finish_of_blank state blank]
          exact .stay
      | false =>
          rw [finish_of_visible state blank]
          exact .finish state blank
  | some earlier =>
      rw [finish_of_finished state]
      exact .stay

theorem stepList_moves (number : Nat) (list : Separated) (action : ListAction) :
    s.builder.Moves (s.stepList number list action).2.builder := by
  -- Marking a list as begun touches the lists only, so the builder is still that of the session.
  cases action with
  | push text =>
      exact change_moves (s := s.setList number list.begun)
        (fun d => (d.grows_push list.lead).trans (Draft.grows_push _ text)) _
  | pushUnseparated text => exact change_moves (fun d => d.grows_push text) _
  | pushBinding name =>
      exact change_moves (s := s.setList number list.begun)
        (fun d => (d.grows_push list.lead).trans (Draft.grows_pushBinding _ name)) _
  | pushBindingUnseparated name => exact change_moves (fun d => d.grows_pushBinding name) _
  | setOpening text => exact .stay
  | askEmpty => exact .stay

theorem step_moves (action : Action) : s.builder.Moves (s.step action).2.builder := by
  cases action with
  | push text => exact change_moves (fun d => d.grows_push text) _
  | pushBinding name => exact change_moves (fun d => d.grows_pushBinding name) _
  | bind name => exact change_moves (fun d => d.grows_bind name) _
  | bindPlaceholder name => exact change_moves (fun d => d.grows_bind name) _
  | finish name => exact finish_moves name []
  | finishWithFields name fields => exact finish_moves name fields
  | openList separator =>
      cases state : s.builder.finishedAs with
      | none =>
          rw [step, change_of_open state]
          exact .stay
      | some name =>
          rw [step, change_of_finished state]
          exact .stay
  | onList number action =>
      rw [step]
      split
      · exact stepList_moves number _ action
      · exact .stay

/-! ## Runs -/

def after (s : Session) (actions : List Action) : Session :=
  actions.foldl (fun s action => (s.step action).2) s

theorem run_append (front back : List Action) :
    s.run (front ++ back) = s.run front ++ (s.after front).run back := by
  induction front generalizing s with
  | nil => rfl
  | cons action rest induction =>
      rw [List.cons_append, run, run, induction]
      rfl

theorem length_run (actions : List Action) : (s.run actions).length = actions.length := by
  induction actions generalizing s with
  | nil => rfl
  | cons action rest induction => rw [run, List.length_cons, List.length_cons, induction]

/-- What a run answers to an action is what the session answers that the actions before it leave. -/
theorem run_getElem? (front back : List Action) (action : Action) :
    (s.run (front ++ action :: back))[front.length]? = some ((s.after front).step action) := by
  rw [run_append, List.getElem?_append_right (Nat.le_of_eq (length_run front)), length_run,
    Nat.sub_self]
  rfl

theorem after_grows (actions : List Action) :
    s.builder.draft.Grows (s.after actions).builder.draft := by
  induction actions generalizing s with
  | nil => exact .refl _
  | cons action rest induction => exact (s.step_moves action).grows.trans induction

theorem after_valid (valid : s.builder.Valid) (actions : List Action) :
    (s.after actions).builder.Valid := by
  induction actions generalizing s with
  | nil => exact valid
  | cons action rest induction => exact induction ((s.step_moves action).valid valid)

theorem after_of_finished {name : String} (finished : s.builder.finishedAs = some name)
    (actions : List Action) : (s.after actions).builder = s.builder := by
  induction actions generalizing s with
  | nil => rfl
  | cons action rest induction =>
      have same : (s.step action).2.builder = s.builder :=
        (s.step_moves action).eq_of_finished finished
      exact (induction (same ▸ finished)).trans same

end Session

/-! ## Numbers -/

theorem Query.placeholder?_of_place {q : Query} (distinct : q.bindings.Nodup) {index : Nat}
    {name : String} (place : q.bindings[index]? = some name) :
    q.placeholder? name = some (placeholder (index + 1)) := by
  obtain ⟨inside, same⟩ := List.getElem?_eq_some_iff.mp place
  have first : q.bindings.idxOf? name = some index := by
    refine List.idxOf?_eq_some_iff.mpr ⟨inside, same, fun earlier before other => ?_⟩
    have equal : earlier = index := distinct.getElem_inj_iff.mp (other.trans same.symm)
    omega
  rw [Query.placeholder?, first]
  rfl

namespace Session

variable {s : Session}

def Tells (s : Session) (action : Action) (number : Nat) : Prop :=
  let before := s.builder.draft.text
  let (answer, next) := s.step action
  match action with
  | .bind _ => answer = .ok (.number number) ∧ next.builder.draft.text = before
  | .bindPlaceholder _ =>
      answer = .ok (.text (placeholder number)) ∧ next.builder.draft.text = before
  | .onList place (.pushBinding _) =>
      answer = .ok .done ∧ ∃ list ∈ s.lists[place]?,
        next.builder.draft.text = before ++ list.lead ++ placeholder number
  | _ => answer = .ok .done ∧ next.builder.draft.text = before ++ placeholder number

theorem tells_of_open (isOpen : s.builder.finishedAs = none) {action : Action}
    (takes : action.takesBuilder s.lists) {name : String} (bound : name ∈ action.boundName?) :
    name ∈ (s.step action).2.builder.draft.bindings ∧
      s.Tells action ((s.step action).2.builder.draft.position name) := by
  have member (d : Draft) : name ∈ (d.bind name).bindings :=
    Draft.mem_bindings_bind.mpr (.inr rfl)
  cases action with
  | push | finish | finishWithFields | openList => cases bound
  | pushBinding other =>
      cases bound
      simp only [Tells, step, change_of_open isOpen]
      exact ⟨member _, trivial, by simp [Draft.pushBinding, Draft.push, Draft.position]⟩
  | bind other =>
      cases bound
      simp only [Tells, step, change_of_open isOpen]
      exact ⟨member _, trivial, Draft.text_bind _ _⟩
  | bindPlaceholder other =>
      cases bound
      simp only [Tells, step, change_of_open isOpen]
      exact ⟨member _, trivial, Draft.text_bind _ _⟩
  | onList place action =>
      obtain ⟨⟨list, found⟩, _⟩ := Action.takesBuilder_onList.mp takes
      cases action with
      | push | pushUnseparated | setOpening | askEmpty => cases bound
      | pushBinding other =>
          cases bound
          have stillOpen : (s.setList place list.begun).builder.finishedAs = none := isOpen
          simp only [Tells, step, found, stepList, change_of_open stillOpen]
          refine ⟨member _, trivial, _, rfl, ?_⟩
          simp [setList, Separated.pushBinding, Draft.pushBinding, Draft.push, Draft.position]
      | pushBindingUnseparated other =>
          cases bound
          simp only [Tells, step, found, stepList, change_of_open isOpen]
          exact ⟨member _, trivial, by simp [Draft.pushBinding, Draft.push, Draft.position]⟩

/-! ## Endings -/

theorem step_of_finished {name : String} (finished : s.builder.finishedAs = some name)
    {action : Action} (takes : action.takesBuilder s.lists) :
    (s.step action).1 = .error (.build (.consumed name)) := by
  cases action with
  | push | pushBinding | bind | bindPlaceholder | openList =>
      simp only [step, change_of_finished finished]
  | finish | finishWithFields => simp only [step, finish_of_finished finished]
  | onList place action =>
      obtain ⟨⟨list, found⟩, writes⟩ := Action.takesBuilder_onList.mp takes
      have stillFinished : (s.setList place list.begun).builder.finishedAs = some name :=
        finished
      simp only [step, found]
      cases action with
      | push | pushBinding => simp only [stepList, change_of_finished stillFinished]
      | pushUnseparated | pushBindingUnseparated =>
          simp only [stepList, change_of_finished finished]
      | setOpening | askEmpty => cases writes

theorem step_of_ending {action : Action} {ending : String × List String}
    (ends : ending ∈ action.ending?) : s.step action = s.finish ending.1 ending.2 := by
  cases action with
  | finish | finishWithFields => cases ends; rfl
  | push | pushBinding | bind | bindPlaceholder | openList | onList => cases ends

theorem query_of_finish {name : String} {fields : List String} {q : Query}
    (answered : (s.finish name fields).1 = .ok (.query q)) :
    q = s.builder.draft.query name fields := by
  cases state : s.builder.finishedAs with
  | some earlier =>
      rw [finish_of_finished state] at answered
      cases answered
  | none =>
      cases blank : Text.isAllBlank s.builder.draft.text with
      | true =>
          rw [finish_of_blank state blank] at answered
          cases answered
      | false =>
          rw [finish_of_visible state blank] at answered
          cases answered
          rfl

/-- An open builder takes every action but the end of a query without visible text. -/
theorem step_of_open (isOpen : s.builder.finishedAs = none) {action : Action}
    (takes : action.takesBuilder s.lists) (lasts : action.ending? = none) :
    ∃ answer, (s.step action).1 = .ok answer := by
  cases action with
  | push | pushBinding | bind | bindPlaceholder | openList =>
      simp only [step, change_of_open isOpen]
      exact ⟨_, rfl⟩
  | finish | finishWithFields => cases lasts
  | onList place action =>
      obtain ⟨⟨list, found⟩, writes⟩ := Action.takesBuilder_onList.mp takes
      have stillOpen : (s.setList place list.begun).builder.finishedAs = none := isOpen
      simp only [step, found]
      cases action with
      | push | pushBinding =>
          simp only [stepList, change_of_open stillOpen]
          exact ⟨_, rfl⟩
      | pushUnseparated | pushBindingUnseparated =>
          simp only [stepList, change_of_open isOpen]
          exact ⟨_, rfl⟩
      | setOpening | askEmpty => cases writes

/-! ## The protocol -/

/-- What holds of an action in a session, and of everything that is done after it. -/
structure KeepsProtocol (s : Session) (action : Action) : Prop where
  distinct : (s.step action).2.builder.draft.bindings.Nodup
  grows : s.builder.draft.bindings <+: (s.step action).2.builder.draft.bindings
  accepts : s.builder.finishedAs = none → action.takesBuilder s.lists → action.ending? = none →
    ∃ answer, (s.step action).1 = .ok answer
  numbers : s.builder.finishedAs = none → action.takesBuilder s.lists →
    ∀ name ∈ action.boundName?, ∃ index, s.Tells action (index + 1) ∧ ∀ later : List Action,
      let t := (s.step action).2.after later
      t.builder.draft.bindings[index]? = some name ∧
        ∀ last ending q, last.ending? = some ending → (t.step last).1 = .ok (.query q) →
          q.placeholder? name = some (placeholder (index + 1))
  blank : Text.isAllBlank s.builder.draft.text →
    s.builder.finishedAs = none ∧
      ∀ ending ∈ action.ending?, s.step action = (.error (.build (.emptyQuery ending.1)), s)
  finished : s.builder.finishedAs = none → Text.isAllBlank s.builder.draft.text = false →
    ∀ ending ∈ action.ending?,
      (s.step action).1 = .ok (.query {
        name := ending.1
        text := s.builder.draft.text
        bindings := s.builder.draft.bindings
        fieldBindings := s.builder.draft.bindings.filter ending.2.contains }) ∧
      ∀ later : List Action,
        let t := (s.step action).2.after later
        t.builder.draft = s.builder.draft ∧ ∀ next : Action, next.takesBuilder t.lists →
          (t.step next).1 = .error (.build (.consumed ending.1)) ∧
            (t.step next).2.builder = t.builder

theorem keepsProtocol (valid : s.builder.Valid) (action : Action) : s.KeepsProtocol action := by
  have step := (s.step_moves action).grows
  constructor
  case distinct => exact step.distinct valid.distinct
  case grows => exact step.bindings
  case accepts => exact fun isOpen takes lasts => step_of_open isOpen takes lasts
  case numbers =>
    intro isOpen takes name bound
    obtain ⟨member, tells⟩ := tells_of_open isOpen takes bound
    refine ⟨_, tells, fun later => ?_⟩
    have grown := after_grows (s := (s.step action).2) later
    obtain ⟨added, extended⟩ := grown.bindings
    have place : ((s.step action).2.after later).builder.draft.bindings[
        (s.step action).2.builder.draft.bindings.idxOf name]? = some name := by
      rw [← extended, List.getElem?_append_left (List.idxOf_lt_length_of_mem member)]
      exact List.getElem?_idxOf member
    refine ⟨place, fun last ending q ends answered => ?_⟩
    rw [step_of_ending ends] at answered
    rw [query_of_finish answered]
    exact Query.placeholder?_of_place (grown.distinct (step.distinct valid.distinct)) place
  case blank =>
    intro blank
    have isOpen : s.builder.finishedAs = none := by
      refine Decidable.byContradiction fun finished => ?_
      rw [valid.visible finished] at blank
      cases blank
    refine ⟨isOpen, fun ending ends => ?_⟩
    rw [step_of_ending ends, finish_of_blank isOpen blank]
  case finished =>
    intro isOpen visible ending ends
    rw [step_of_ending ends, finish_of_visible isOpen visible]
    refine ⟨rfl, fun later => ?_⟩
    have kept := after_of_finished (s := { s with
      builder := { s.builder with finishedAs := some ending.1 } }) rfl later
    refine ⟨by rw [kept], fun next takes => ?_⟩
    have state := congrArg Builder.finishedAs kept
    exact ⟨step_of_finished state takes, (step_moves next).eq_of_finished state⟩

/-- Whatever is done with a builder whose first bindings are distinct, and with lists on it, every
action keeps the protocol in the session that the actions before it leave. -/
theorem start_keepsProtocol {bindings : List String} (distinct : bindings.Nodup) (text : String)
    (before : List Action) (action : Action) (later : List Action) :
    let s := (start text bindings).after before
    ((start text bindings).run (before ++ action :: later))[before.length]? =
        some (s.step action) ∧ s.KeepsProtocol action := by
  have valid : (start text bindings).builder.Valid := ⟨distinct, fun finished => absurd rfl finished⟩
  exact ⟨run_getElem? before later action, keepsProtocol (after_valid valid before) action⟩

theorem twoLists_keepProtocol :
    let before : List Action := [.openList ", ", .openList " AND ", .onList 0 (.pushBinding "title"),
      .push " WHERE ", .onList 1 (.pushBinding "id")]
    let s := (start "SET title = " ["id"]).after before
    ["id"].Nodup ∧ s.builder.draft = ⟨"SET title = $2 WHERE $1", ["id", "title"]⟩ ∧
      s.Tells (.bind "title") 2 ∧ s.KeepsProtocol (.bind "title") := by
  refine ⟨by decide, by decide +kernel, ⟨by decide +kernel, by decide +kernel⟩, ?_⟩
  exact (start_keepsProtocol (by decide) "SET title = " _ (.bind "title") []).2

end Session

/-! ## Separated lists -/

namespace ListAction

def separates : ListAction → Bool
  | .push _ | .pushBinding _ => true
  | .pushUnseparated _ | .pushBindingUnseparated _ | .setOpening _ | .askEmpty => false

def piece : ListAction → Piece String
  | .push text | .pushUnseparated text | .setOpening text => .fixed text
  | .pushBinding name | .pushBindingUnseparated name => .param name
  | .askEmpty => .fixed ""

/-- What is written before the first item, and the items: each goes on until the next one begins. -/
def grouped : List ListAction → Fragment String × List (Fragment String)
  | [] => ([], [])
  | action :: rest =>
      if action.separates then ([], (action.piece :: (grouped rest).1) :: (grouped rest).2)
      else (action.piece :: (grouped rest).1, (grouped rest).2)

theorem isEmpty_grouped (actions : List ListAction) :
    (grouped actions).2.isEmpty = actions.all (!·.separates) := by
  induction actions with
  | nil => rfl
  | cons action rest induction =>
      rw [grouped, List.all_cons, ← induction]
      cases action.separates <;> rfl

end ListAction

namespace Separated

open Fragment

def next (list : Separated) (action : ListAction) : Separated :=
  if action.separates then list.begun else list

def pieces (list : Separated) (action : ListAction) : Fragment String :=
  if action.separates then [.fixed list.lead, action.piece] else [action.piece]

def fragment (list : Separated) : List ListAction → Fragment String
  | [] => []
  | action :: rest => list.pieces action ++ (list.next action).fragment rest

theorem fragment_of_begun (separator opening : String) (actions : List ListAction) :
    (Separated.mk separator opening false).fragment actions =
      (ListAction.grouped actions).1 ++
        (ListAction.grouped actions).2.flatMap fun item => .fixed separator :: item := by
  induction actions with
  | nil => rfl
  | cons action rest induction =>
      have stays : (Separated.mk separator opening false).next action =
          Separated.mk separator opening false := by
        rw [next]
        split <;> rfl
      rw [fragment, stays, induction, ListAction.grouped, pieces]
      split
      · simp [lead]
      · rfl

theorem separated_cons (separator : String) (first : Fragment String)
    (items : List (Fragment String)) :
    separated separator (first :: items) =
      first ++ items.flatMap fun item => .fixed separator :: item := by
  induction items generalizing first with
  | nil => simp [separated]
  | cons second rest induction =>
      rw [separated, induction, List.flatMap_cons]
      · rfl
      · intro same
        cases same

/-- A list that has no item yet gets its items with the separator between them and the opening
before the first one. -/
theorem fragment_of_empty (separator opening : String) (actions : List ListAction) :
    (Separated.mk separator opening true).fragment actions =
      (ListAction.grouped actions).1 ++
        if (ListAction.grouped actions).2.isEmpty then []
        else .fixed opening :: separated separator (ListAction.grouped actions).2 := by
  induction actions with
  | nil => rfl
  | cons action rest induction =>
      rw [fragment, ListAction.grouped, pieces, next]
      cases begins : action.separates with
      | true =>
          rw [if_pos rfl, if_pos rfl, if_pos rfl, begun, fragment_of_begun, separated_cons]
          rfl
      | false =>
          rw [if_neg Bool.false_ne_true, if_neg Bool.false_ne_true, induction]
          rfl

theorem params_fragment (list : Separated) (actions : List ListAction) :
    (list.fragment actions).params = Fragment.params (actions.map ListAction.piece) := by
  induction actions generalizing list with
  | nil => rfl
  | cons action rest induction =>
      have own : (list.pieces action).params = Fragment.params [action.piece] := by
        rw [pieces]
        split <;> rfl
      rw [fragment, params_append, induction, own, ← params_append]
      rfl

end Separated

namespace Session

variable {s : Session}

theorem set_self_of_getElem? {number : Nat} {list : Separated}
    (found : s.lists[number]? = some list) : s.lists.set number list = s.lists := by
  obtain ⟨inside, same⟩ := List.getElem?_eq_some_iff.mp found
  rw [← same]
  exact List.set_getElem_self inside

theorem step_onList (isOpen : s.builder.finishedAs = none) {number : Nat} {list : Separated}
    (found : s.lists[number]? = some list) {action : ListAction} (writes : action.writes) :
    s.step (.onList number action) = (.ok .done,
      { builder := { s.builder with draft := s.builder.draft.append (list.pieces action) }
        lists := s.lists.set number (list.next action) }) := by
  have stillOpen : (s.setList number list.begun).builder.finishedAs = none := isOpen
  have unchanged := set_self_of_getElem? found
  rw [step, found]
  dsimp only
  cases action with
  | push text =>
      rw [stepList, change_of_open stillOpen]
      rfl
  | pushBinding name =>
      rw [stepList, change_of_open stillOpen]
      rfl
  | pushUnseparated text =>
      rw [stepList, change_of_open isOpen, Separated.next, ListAction.separates,
        if_neg Bool.false_ne_true, unchanged]
      rfl
  | pushBindingUnseparated name =>
      rw [stepList, change_of_open isOpen, Separated.next, ListAction.separates,
        if_neg Bool.false_ne_true, unchanged]
      rfl
  | setOpening | askEmpty => cases writes

/-- What is written to one of the lists of an open builder is added to the draft, and the list has
an item if one was begun. -/
theorem after_onList (isOpen : s.builder.finishedAs = none) {number : Nat} {list : Separated}
    (found : s.lists[number]? = some list) {actions : List ListAction}
    (writes : ∀ action ∈ actions, action.writes) :
    (∀ result ∈ s.run (actions.map (.onList number)), result.1 = .ok .done) ∧
      s.after (actions.map (.onList number)) =
        { builder := { s.builder with draft := s.builder.draft.append (list.fragment actions) }
          lists := s.lists.set number
            { list with isEmpty := list.isEmpty && (ListAction.grouped actions).2.isEmpty } } := by
  induction actions generalizing s list with
  | nil =>
      refine ⟨nofun, ?_⟩
      rw [ListAction.grouped, List.isEmpty_nil, Bool.and_true, set_self_of_getElem? found]
      rfl
  | cons action rest induction =>
      obtain ⟨first, others⟩ := List.forall_mem_cons.mp writes
      have stepped := step_onList isOpen found first
      have inside := (List.getElem?_eq_some_iff.mp found).1
      have stillOpen : (s.step (.onList number action)).2.builder.finishedAs = none := by
        rw [stepped]
        exact isOpen
      have foundNext : (s.step (.onList number action)).2.lists[number]? =
          some (list.next action) := by
        rw [stepped]
        exact List.getElem?_set_self inside
      obtain ⟨answers, ends⟩ := induction stillOpen foundNext others
      have state : { list.next action with isEmpty :=
            (list.next action).isEmpty && (ListAction.grouped rest).2.isEmpty } =
          { list with isEmpty :=
            list.isEmpty && (ListAction.grouped (action :: rest)).2.isEmpty } := by
        rw [Separated.next, ListAction.grouped]
        split
        · rw [List.isEmpty_cons, Bool.and_false]
          rfl
        · rfl
      constructor
      · rw [List.map_cons, run]
        exact List.forall_mem_cons.mpr ⟨congrArg Prod.fst stepped, answers⟩
      · rw [List.map_cons, after, List.foldl_cons, ← after, ends, state, stepped]
        rw [Separated.fragment, Draft.append, Draft.append, Draft.append, List.foldl_append,
          List.set_set]

theorem step_openList (isOpen : s.builder.finishedAs = none) (separator : String) :
    s.step (.openList separator) = (.ok (.number s.lists.length),
      { s with lists := s.lists ++ [⟨separator, "", true⟩] }) := by
  rw [step, change_of_open isOpen]
  rfl

theorem step_setOpening {number : Nat} {list : Separated}
    (found : s.lists[number]? = some list) (opening : String) :
    s.step (.onList number (.setOpening opening)) =
      (.ok .done, { s with lists := s.lists.set number { list with opening } }) := by
  rw [step, found]
  rfl

theorem step_askEmpty {number : Nat} {list : Separated} (found : s.lists[number]? = some list) :
    s.step (.onList number .askEmpty) = (.ok (.flag list.isEmpty), s) := by
  rw [step, found]
  rfl

/-- A separated list that is written to alone: after what is not separated from anything come, if
there are items at all, the opening and the items with the separator between them. -/
theorem after_openList (isOpen : s.builder.finishedAs = none) (separator opening : String)
    {actions : List ListAction} (writes : ∀ action ∈ actions, action.writes) :
    let number := s.lists.length
    let run := .openList separator :: .onList number (.setOpening opening) ::
      actions.map (.onList number)
    let later := s.after run
    let (front, items) := ListAction.grouped actions
    let write := Fragment.write (numbered later.builder.draft.bindings)
    (∀ result ∈ s.run run, ∃ answer, result.1 = .ok answer) ∧
      later.builder.draft.text = s.builder.draft.text ++ write front ++
        (if items.isEmpty then "" else opening ++ separator.intercalate (items.map write)) ∧
      later.builder.draft.bindings = Text.distinctAfter s.builder.draft.bindings
        (Fragment.params (actions.map ListAction.piece)) ∧
      later.step (.onList number .askEmpty) =
        (.ok (.flag (actions.all (!·.separates))), later) := by
  intro number run later
  have opens := step_openList isOpen separator
  have fresh : (s.step (.openList separator)).2.lists[number]? = some ⟨separator, "", true⟩ := by
    rw [opens]
    exact List.getElem?_concat_length ..
  have sets := step_setOpening fresh opening
  have ready : ((s.step (.openList separator)).2.step (.onList number (.setOpening opening))).2 =
      { s with lists := s.lists ++ [⟨separator, opening, true⟩] } := by
    rw [sets, opens]
    dsimp only
    rw [List.set_append_right _ _ (Nat.le_refl _), Nat.sub_self]
    rfl
  have stillOpen : ((s.step (.openList separator)).2.step
      (.onList number (.setOpening opening))).2.builder.finishedAs = none := by
    rw [ready]
    exact isOpen
  have found : ((s.step (.openList separator)).2.step
      (.onList number (.setOpening opening))).2.lists[number]? =
        some ⟨separator, opening, true⟩ := by
    rw [ready]
    exact List.getElem?_concat_length ..
  obtain ⟨answers, ends⟩ := after_onList stillOpen found writes
  have draft : later.builder.draft = s.builder.draft.append
      ((Separated.mk separator opening true).fragment actions) := by
    change (Session.after _ (actions.map (.onList number))).builder.draft = _
    rw [ends, ready]
  have last : later.lists[number]? =
      some ⟨separator, opening, (ListAction.grouped actions).2.isEmpty⟩ := by
    change (Session.after _ (actions.map (.onList number))).lists[number]? = _
    rw [ends]
    exact List.getElem?_set_self (List.getElem?_eq_some_iff.mp found).1
  refine ⟨?_, ?_, ?_, ListAction.isEmpty_grouped actions ▸ step_askEmpty last⟩
  · rw [Session.run, Session.run]
    refine List.forall_mem_cons.mpr ⟨⟨_, congrArg Prod.fst opens⟩, ?_⟩
    refine List.forall_mem_cons.mpr ⟨⟨_, congrArg Prod.fst sets⟩, ?_⟩
    exact fun result member => ⟨_, answers result member⟩
  · rw [draft, Draft.text_append, ← draft, Separated.fragment_of_empty, Fragment.write_append,
      String.append_assoc]
    split
    · rfl
    · have opened (items : Fragment String) :
          .fixed opening :: items = Fragment.words opening ++ items := rfl
      rw [opened, Fragment.write_append, Fragment.write_words, Fragment.write_separated]
  · rw [draft, Draft.bindings_append, Draft.bindings_foldl_bind, Separated.params_fragment]
    rfl

theorem clause_after_openList :
    let actions : List ListAction := [.pushUnseparated " ", .push "title = ",
      .pushBindingUnseparated "title", .pushBinding "id", .pushUnseparated " = owner"]
    let s := start "DELETE FROM posts" ["id"]
    let later := s.after (.openList " AND " :: .onList 0 (.setOpening "WHERE ") ::
      actions.map (.onList 0))
    s.builder.finishedAs = none ∧ (∀ action ∈ actions, action.writes) ∧
      later.builder.draft.text = "DELETE FROM posts WHERE title = $2 AND $1 = owner" ∧
      later.step (.onList 0 .askEmpty) = (.ok (.flag false), later) := by
  intro actions s later
  have isOpen : s.builder.finishedAs = none := rfl
  have writes : ∀ action ∈ actions, action.writes := by decide
  have separates : actions.all (!·.separates) = false := by decide
  have given : later = s.after (.openList " AND " ::
      .onList s.lists.length (.setOpening "WHERE ") :: actions.map (.onList s.lists.length)) := rfl
  obtain ⟨-, text, bindings, empty⟩ := after_openList isOpen " AND " "WHERE " writes
  rw [← given] at text bindings empty
  refine ⟨isOpen, writes, ?_, separates ▸ empty⟩
  rw [text, bindings]
  decide +kernel

end Session

end TenantSql.Sql
