import Mathlib
import TenantSql.Text.SnakeCase

/-!
# The local rule of snake case

Snake case is made by several passes over the whole text, where later ones merge and
remove what earlier ones put in. All the same whether there is an underscore between
two characters that are kept depends on these two, on what stands between them, and
on the one that follows: this is what a single scan writes that remembers the last
kept character and whether anything was left out since.
-/

namespace TenantSql.Text

/-! ## The rule -/

/-- A word starts at a capital after a small letter or a digit, and at a capital after another one
if a small letter follows. -/
def startsWord (last c : Char) (following : Option Char) : Bool :=
  (last.isLower || last.isDigit) && c.isUpper ||
    last.isUpper && c.isUpper && following.any Char.isLower

def keptFrom (start : Nat) (cs : List Char) : List (Char × Nat) :=
  (cs.zipIdx start).filter (·.1.isAlphanum)

/-- There is an underscore between two characters that are kept one after the other: something else
stands between them, or a word starts at the second one. -/
def isParted (cs : List Char) (first second : Char × Nat) : Bool :=
  first.2 + 1 < second.2 || startsWord first.1 second.1 cs[second.2 + 1]?

/-- The second of two characters that are kept one after the other, with what goes before it. -/
def spellNext (cs : List Char) (pair : (Char × Nat) × (Char × Nat)) : List Char :=
  if isParted cs pair.1 pair.2 then ['_', pair.2.1.toLower] else [pair.2.1.toLower]

def spelling (cs : List Char) : List Char :=
  let kept := keptFrom 0 cs
  (kept.take 1).map (·.1.toLower) ++ (kept.zip kept.tail).flatMap (spellNext cs)

def IsSnakeCase (cs : List Char) : Prop :=
  ∃ words : List (List Char), (∀ word ∈ words, word ≠ [] ∧ ∀ c ∈ word, c.isLower ∨ c.isDigit) ∧
    cs = ['_'].intercalate words

/-! ## The scan -/

def spellAfter (last : Char) (gap : Bool) : List Char → List Char
  | [] => []
  | c :: rest =>
      if c.isAlphanum then
        if gap || startsWord last c rest.head? then '_' :: c :: spellAfter c false rest
        else c :: spellAfter c false rest
      else spellAfter last true rest

def spellFrom : List Char → List Char
  | [] => []
  | c :: rest => if c.isAlphanum then c :: spellAfter c false rest else spellFrom rest

/-! ## Characters -/

variable {a b c last : Char} {cs rest : List Char} {gap : Bool}

theorem isAlphanum_iff : c.isAlphanum ↔ c.isUpper ∨ c.isLower ∨ c.isDigit := by
  simp [Char.isAlphanum, Char.isAlpha, or_assoc]

theorem not_isDigit_of_isUpper (capital : c.isUpper) : c.isDigit = false := by
  simp only [Char.isUpper, decide_eq_true_eq, ge_iff_le, UInt32.le_iff_toNat_le] at capital
  simp only [Char.isDigit, Bool.and_eq_false_iff, decide_eq_false_iff_not, ge_iff_le,
    UInt32.le_iff_toNat_le, Nat.not_le]
  exact .inr (Nat.lt_of_lt_of_le (by decide) capital.1)

theorem not_small_of_isUpper (capital : c.isUpper) : (c.isLower || c.isDigit) = false := by
  rw [not_isDigit_of_isUpper capital, Bool.or_false]
  exact eq_false_of_ne_true (Char.not_isLower_of_isUpper capital)

theorem small_toLower (kept : c.isAlphanum) : c.toLower.isLower ∨ c.toLower.isDigit := by
  rw [Char.isLower_toLower_eq_isAlpha]
  by_cases capital : c.isUpper = true
  · exact .inl (Bool.or_eq_true_iff.mpr (.inl capital))
  · rw [Char.toLower_eq_of_not_isUpper capital]
    exact Bool.or_eq_true_iff.mp kept

theorem isAlphanum_toLower (kept : c.isAlphanum) : c.toLower.isAlphanum :=
  isAlphanum_iff.mpr (.inr (small_toLower kept))

theorem underscore_of_isAlphanum (kept : c.isAlphanum) : (c == '_') = false := by
  refine beq_false_of_ne ?_
  rintro rfl
  cases kept

theorem isAlphanum_of_startsWord {following : Option Char} (starts : startsWord a b following) :
    a.isAlphanum ∧ b.isAlphanum := by
  simp only [startsWord, Bool.or_eq_true, Bool.and_eq_true] at starts
  rw [isAlphanum_iff, isAlphanum_iff]
  tauto

/-! ## Breaks -/

def breaksAfter (a : Char) : List Char → List Char
  | [] => []
  | b :: rest =>
      if startsWord a b rest.head? then '_' :: b :: breaksAfter b rest else b :: breaksAfter b rest

theorem breakCapitalRuns_cons (b : Char) (rest : List Char) :
    ∃ more, breakCapitalRuns (b :: rest) = b :: more := by
  match rest with
  | [] => exact ⟨_, rfl⟩
  | [_] => exact ⟨_, rfl⟩
  | c :: d :: rest =>
      rw [breakCapitalRuns]
      split <;> exact ⟨_, rfl⟩

theorem breakCapitalRuns_cons_cons (a b : Char) (rest : List Char) :
    breakCapitalRuns (a :: b :: rest) =
      if a.isUpper && b.isUpper && rest.head?.any Char.isLower then
        a :: '_' :: breakCapitalRuns (b :: rest)
      else a :: breakCapitalRuns (b :: rest) := by
  cases rest with
  | nil => simp [breakCapitalRuns]
  | cons c rest =>
      rw [breakCapitalRuns]
      rfl

theorem breakBeforeCapitals_cons (a b : Char) (rest : List Char) :
    breakBeforeCapitals (a :: b :: rest) =
      if (a.isLower || a.isDigit) && b.isUpper then a :: '_' :: breakBeforeCapitals (b :: rest)
      else a :: breakBeforeCapitals (b :: rest) := by
  rw [breakBeforeCapitals]

theorem breakBeforeCapitals_underscore (cs : List Char) :
    breakBeforeCapitals ('_' :: cs) = '_' :: breakBeforeCapitals cs := by
  cases cs with
  | nil => rfl
  | cons b rest =>
      rw [breakBeforeCapitals_cons]
      rfl

/-- Both kinds of breaks together are those where words start. -/
theorem breaks_eq (a : Char) (cs : List Char) :
    breakBeforeCapitals (breakCapitalRuns (a :: cs)) = a :: breaksAfter a cs := by
  induction cs generalizing a with
  | nil => rfl
  | cons b rest induction =>
      obtain ⟨more, same⟩ := breakCapitalRuns_cons b rest
      have below := induction b
      rw [same] at below
      rw [breakCapitalRuns_cons_cons, same, breaksAfter, startsWord]
      cases inRun : a.isUpper && b.isUpper && rest.head?.any Char.isLower with
      | true =>
          have noSmall : (a.isLower || a.isDigit) = false := by
            simp only [Bool.and_eq_true] at inRun
            exact not_small_of_isUpper inRun.1.1
          rw [if_pos rfl, Bool.or_true, if_pos rfl, breakBeforeCapitals_cons,
            noSmall, Bool.false_and, if_neg Bool.false_ne_true, breakBeforeCapitals_underscore,
            below]
      | false =>
          rw [if_neg Bool.false_ne_true, Bool.or_false, breakBeforeCapitals_cons, below]
          split <;> rfl

/-! ## One underscore for many -/

def tidyAfter (gap : Bool) : List Char → List Char
  | [] => []
  | c :: rest =>
      if c == '_' then tidyAfter true rest
      else if gap then '_' :: c :: tidyAfter false rest
      else c :: tidyAfter false rest

theorem rdropWhile_cons (p : Char → Bool) (c : Char) (cs : List Char) :
    (c :: cs).rdropWhile p =
      if (cs.rdropWhile p).isEmpty && p c then [] else c :: cs.rdropWhile p := by
  rw [List.rdropWhile, List.reverse_cons, List.dropWhile_append, List.rdropWhile]
  cases dropped : cs.reverse.dropWhile p with
  | nil => by_cases holds : p c <;> simp [holds]
  | cons d rest => simp

theorem squeezeUnderscores_cons_of_ne (kept : (a == '_') = false) (rest : List Char) :
    squeezeUnderscores (a :: rest) = a :: squeezeUnderscores rest := by
  cases rest with
  | nil => rfl
  | cons b rest => rw [squeezeUnderscores, kept, Bool.false_and, if_neg Bool.false_ne_true]

theorem squeezeUnderscores_underscore_of_ne (kept : (a == '_') = false) (rest : List Char) :
    squeezeUnderscores ('_' :: a :: rest) = '_' :: a :: squeezeUnderscores rest := by
  rw [squeezeUnderscores, kept, Bool.and_false, if_neg Bool.false_ne_true,
    squeezeUnderscores_cons_of_ne kept]

theorem squeezeUnderscores_underscore_underscore (rest : List Char) :
    squeezeUnderscores ('_' :: '_' :: rest) = squeezeUnderscores ('_' :: rest) := by
  rw [squeezeUnderscores]
  rfl

theorem dropWhile_squeezeUnderscores (cs : List Char) :
    (squeezeUnderscores cs).dropWhile (· == '_') =
      squeezeUnderscores (cs.dropWhile (· == '_')) := by
  induction cs with
  | nil => rfl
  | cons a rest induction =>
      cases first : a == '_' with
      | false =>
          rw [squeezeUnderscores_cons_of_ne first, List.dropWhile_cons_of_neg (by simp [first]),
            List.dropWhile_cons_of_neg (by simp [first]), squeezeUnderscores_cons_of_ne first]
      | true =>
          have drops : ('_' :: rest).dropWhile (· == '_') = rest.dropWhile (· == '_') := rfl
          rw [beq_iff_eq.mp first, drops, ← induction]
          cases rest with
          | nil => rfl
          | cons b rest =>
              cases second : b == '_' with
              | true =>
                  rw [beq_iff_eq.mp second, squeezeUnderscores_underscore_underscore]
              | false =>
                  rw [squeezeUnderscores_underscore_of_ne second,
                    squeezeUnderscores_cons_of_ne second, List.dropWhile_cons_of_pos rfl]

/-- The end of a squeezed text trimmed, where an underscore may or may not stand before it. -/
theorem rdropWhile_squeezeUnderscores (cs : List Char) :
    (squeezeUnderscores cs).rdropWhile (· == '_') = tidyAfter false cs ∧
      (squeezeUnderscores ('_' :: cs)).rdropWhile (· == '_') = tidyAfter true cs := by
  induction cs with
  | nil => exact ⟨rfl, rfl⟩
  | cons a rest induction =>
      obtain ⟨without, behind⟩ := induction
      rw [tidyAfter, tidyAfter]
      cases first : a == '_' with
      | true =>
          rw [beq_iff_eq.mp first, squeezeUnderscores_underscore_underscore]
          exact ⟨behind, behind⟩
      | false =>
          rw [squeezeUnderscores_cons_of_ne first, squeezeUnderscores_underscore_of_ne first,
            rdropWhile_cons, rdropWhile_cons, rdropWhile_cons, first, without]
          simp

theorem trim_squeeze_eq (cs : List Char) :
    trimUnderscores (squeezeUnderscores cs) = tidyAfter false (cs.dropWhile (· == '_')) := by
  rw [trimUnderscores, dropWhile_squeezeUnderscores, ← (rdropWhile_squeezeUnderscores _).1]
  rfl

/-! ## The passes together -/

theorem separators_cons (c : Char) (cs : List Char) :
    separatorsToUnderscores (c :: cs) =
      (if c.isAlphanum then c else '_') :: separatorsToUnderscores cs := rfl

/-- After a kept character the passes do what the scan does. If nothing was left out since, the
character that breaks depend on is the kept one. -/
theorem tidyAfter_breaksAfter (gap : Bool) (a last : Char) (same : gap = false → a = last)
    (cs : List Char) :
    tidyAfter gap (separatorsToUnderscores (breaksAfter a cs)) = spellAfter last gap cs := by
  induction cs generalizing gap a last with
  | nil => rfl
  | cons b rest induction =>
      have kept := induction false b b fun _ => rfl
      have leftOut := induction true b last nofun
      rw [breaksAfter, spellAfter]
      cases starts : startsWord a b rest.head? with
      | true =>
          have alphanum := (isAlphanum_of_startsWord starts).2
          have parted : (gap || startsWord last b rest.head?) = true := by
            cases gap with
            | true => rfl
            | false => rw [← same rfl, starts]; rfl
          rw [if_pos rfl, separators_cons, separators_cons, if_pos alphanum, if_pos alphanum,
            if_pos parted, tidyAfter, tidyAfter, underscore_of_isAlphanum alphanum, kept]
          rfl
      | false =>
          rw [if_neg Bool.false_ne_true, separators_cons, tidyAfter]
          by_cases alphanum : b.isAlphanum = true
          · have parted : (gap || startsWord last b rest.head?) = gap := by
              cases gap with
              | true => rfl
              | false => rw [← same rfl, starts]; rfl
            rw [if_pos alphanum, if_pos alphanum, parted, underscore_of_isAlphanum alphanum,
              if_neg Bool.false_ne_true, kept]
          · rw [if_neg alphanum, if_neg alphanum, if_pos (by decide)]
            exact leftOut

theorem passes_eq (cs : List Char) :
    trimUnderscores (squeezeUnderscores (separatorsToUnderscores
      (breakBeforeCapitals (breakCapitalRuns cs)))) = spellFrom cs := by
  induction cs with
  | nil => rfl
  | cons c rest induction =>
      rw [breaks_eq, separators_cons, spellFrom, trim_squeeze_eq]
      by_cases alphanum : c.isAlphanum = true
      · rw [if_pos alphanum, if_pos alphanum,
          List.dropWhile_cons_of_neg (by simp [underscore_of_isAlphanum alphanum]), tidyAfter,
          underscore_of_isAlphanum alphanum, if_neg Bool.false_ne_true, if_neg Bool.false_ne_true,
          tidyAfter_breaksAfter false c c fun _ => rfl]
      · rw [if_neg alphanum, if_neg alphanum, List.dropWhile_cons_of_pos rfl, ← induction,
          ← trim_squeeze_eq]
        cases rest with
        | nil => rfl
        | cons b rest =>
            have unstarted : startsWord c b rest.head? = false :=
              eq_false_of_ne_true fun starts => alphanum (isAlphanum_of_startsWord starts).1
            rw [breaks_eq, breaksAfter, unstarted, if_neg Bool.false_ne_true]

/-! ## The scan and the rule -/

theorem keptFrom_cons (start : Nat) (c : Char) (rest : List Char) :
    keptFrom start (c :: rest) =
      if c.isAlphanum then (c, start) :: keptFrom (start + 1) rest
      else keptFrom (start + 1) rest := by
  rw [keptFrom, List.zipIdx_cons, List.filter_cons]
  rfl

/-- The scan is in the middle of a text, behind a character that was kept. -/
theorem spellAfter_eq (front cs : List Char) (a : Char) {i : Nat} (before : i < front.length) :
    (((a, i) :: keptFrom front.length cs).zip (keptFrom front.length cs)).flatMap
        (spellNext (front ++ cs)) =
      (spellAfter a (i + 1 < front.length) cs).map Char.toLower := by
  induction cs generalizing front a i with
  | nil => rfl
  | cons c rest induction =>
      have further : front ++ c :: rest = (front ++ [c]) ++ rest := List.append_cons ..
      have next : front.length + 1 = (front ++ [c]).length := by simp
      have following : (front ++ c :: rest)[front.length + 1]? = rest.head? := by
        rw [further, next, List.getElem?_append_right (Nat.le_refl _), Nat.sub_self,
          List.head?_eq_getElem?]
      rw [keptFrom_cons, spellAfter]
      by_cases kept : c.isAlphanum = true
      · have below := induction (front ++ [c]) c (i := front.length) (by simp)
        rw [← further, ← next, decide_eq_false (Nat.lt_irrefl _)] at below
        rw [if_pos kept, if_pos kept, List.zip_cons_cons, List.flatMap_cons, below, spellNext,
          isParted, following]
        split <;> rfl
      · have below := induction (front ++ [c]) a (i := i) (by simp; omega)
        rw [← further, ← next, decide_eq_true (Nat.succ_lt_succ before)] at below
        rw [if_neg kept, if_neg kept, below]

theorem spellFrom_eq (front cs : List Char) :
    ((keptFrom front.length cs).take 1).map (·.1.toLower) ++
        ((keptFrom front.length cs).zip (keptFrom front.length cs).tail).flatMap
          (spellNext (front ++ cs)) =
      (spellFrom cs).map Char.toLower := by
  induction cs generalizing front with
  | nil => rfl
  | cons c rest induction =>
      have further : front ++ c :: rest = (front ++ [c]) ++ rest := List.append_cons ..
      have next : front.length + 1 = (front ++ [c]).length := by simp
      rw [keptFrom_cons, spellFrom, further, next]
      by_cases kept : c.isAlphanum = true
      · have below := spellAfter_eq (front ++ [c]) rest c (i := front.length) (by simp)
        rw [← next, decide_eq_false (Nat.lt_irrefl _)] at below
        rw [if_pos kept, if_pos kept, List.tail_cons, ← next, below]
        rfl
      · rw [if_neg kept, if_neg kept]
        exact induction (front ++ [c])

/-- The passes spell by the rule. -/
theorem snakeCaseChars_eq (cs : List Char) : snakeCaseChars cs = spelling cs := by
  rw [snakeCaseChars, passes_eq, ← spellFrom_eq [] cs]
  rfl

/-! ## What is written -/

theorem exists_words (cs : List Char) (last : Char) (gap : Bool) {c : Char}
    (small : c.isLower ∨ c.isDigit) :
    ∃ word words, (∀ w ∈ (c :: word) :: words, w ≠ [] ∧ ∀ c ∈ w, c.isLower ∨ c.isDigit) ∧
      c :: (spellAfter last gap cs).map Char.toLower =
        ['_'].intercalate ((c :: word) :: words) := by
  induction cs generalizing last gap c with
  | nil => exact ⟨[], [], by simpa using small, by simp [spellAfter]⟩
  | cons b rest induction =>
      rw [spellAfter]
      by_cases kept : b.isAlphanum = true
      · obtain ⟨word, words, valid, joined⟩ := induction b false (small_toLower kept)
        rw [if_pos kept]
        split
        · refine ⟨[], (b.toLower :: word) :: words, ?_, ?_⟩
          · exact List.forall_mem_cons.mpr ⟨by simpa using small, valid⟩
          · rw [List.map_cons, List.map_cons, joined, List.intercalate_cons_cons]
            rfl
        · obtain ⟨first, others⟩ := List.forall_mem_cons.mp valid
          refine ⟨b.toLower :: word, words, List.forall_mem_cons.mpr ⟨⟨nofun, ?_⟩, others⟩, ?_⟩
          · exact List.forall_mem_cons.mpr ⟨small, first.2⟩
          · rw [List.map_cons, joined]
            cases words with
            | nil => rw [List.intercalate_singleton, List.intercalate_singleton]
            | cons second more =>
                rw [List.intercalate_cons_cons, List.intercalate_cons_cons]
                rfl
      · rw [if_neg kept]
        exact induction last true small

theorem isSnakeCase_spellFrom (cs : List Char) : IsSnakeCase ((spellFrom cs).map Char.toLower) := by
  induction cs with
  | nil => exact ⟨[], nofun, rfl⟩
  | cons c rest induction =>
      rw [spellFrom]
      by_cases kept : c.isAlphanum = true
      · obtain ⟨word, words, valid, joined⟩ := exists_words rest c false (small_toLower kept)
        rw [if_pos kept]
        exact ⟨_, valid, joined⟩
      · rw [if_neg kept]
        exact induction

theorem spellAfter_toLower (kept : c.isAlphanum) (b : Char) (gap : Bool) (rest : List Char) :
    spellAfter b gap (c.toLower :: rest) =
      if gap then '_' :: c.toLower :: spellAfter c.toLower false rest
      else c.toLower :: spellAfter c.toLower false rest := by
  have unstarted : startsWord b c.toLower rest.head? = false := by
    simp [startsWord, Char.isUpper_toLower_eq_false c]
  rw [spellAfter, if_pos (isAlphanum_toLower kept), unstarted, Bool.or_false]

/-- What the scan wrote it writes again. -/
theorem spellAfter_spellAfter (cs : List Char) (a b : Char) (gap : Bool) :
    spellAfter b false ((spellAfter a gap cs).map Char.toLower) =
      (spellAfter a gap cs).map Char.toLower := by
  induction cs generalizing a b gap with
  | nil => rfl
  | cons c rest induction =>
      rw [spellAfter]
      by_cases kept : c.isAlphanum = true
      · have again := induction c c.toLower false
        rw [if_pos kept]
        split
        · change spellAfter b true (c.toLower :: _) = _
          rw [spellAfter_toLower kept, again]
          rfl
        · rw [List.map_cons, spellAfter_toLower kept, again]
          rfl
      · rw [if_neg kept]
        exact induction a b true

theorem spellFrom_spellFrom (cs : List Char) :
    spellFrom ((spellFrom cs).map Char.toLower) = (spellFrom cs).map Char.toLower := by
  induction cs with
  | nil => rfl
  | cons c rest induction =>
      rw [spellFrom]
      by_cases kept : c.isAlphanum = true
      · rw [if_pos kept, List.map_cons, spellFrom, if_pos (isAlphanum_toLower kept),
          spellAfter_spellAfter]
      · rw [if_neg kept]
        exact induction

/-- A name in snake case is spelled by the local rule, consists of words joined by single
underscores and stays as it is when it is put in snake case again. -/
theorem snakeCase_spec (name : String) :
    (snakeCase name).toList = spelling name.toList ∧ IsSnakeCase (snakeCase name).toList ∧
      snakeCase (snakeCase name) = snakeCase name := by
  have written : (snakeCase name).toList = (spellFrom name.toList).map Char.toLower := by
    rw [snakeCase, String.toList_ofList, snakeCaseChars, passes_eq]
  refine ⟨?_, ?_, String.toList_inj.mp ?_⟩
  · rw [snakeCase, String.toList_ofList, snakeCaseChars_eq]
  · rw [written]
    exact isSnakeCase_spellFrom name.toList
  · rw [snakeCase, String.toList_ofList, snakeCaseChars, passes_eq, written, spellFrom_spellFrom,
      List.map_map]
    exact List.map_congr_left fun c _ => Char.toLower_toLower_eq_toLower c

/-! ## Passes as replacements -/

abbrev Pattern := List Char → Option (List Char × Nat)

def replaceAll (pattern : Pattern) : List Char → List Char
  | [] => []
  | c :: rest =>
      match pattern (c :: rest) with
      | some (written, more) => written ++ replaceAll pattern (rest.drop more)
      | none => c :: replaceAll pattern rest
termination_by cs => cs.length
decreasing_by
  · rw [List.length_drop, List.length_cons]
    omega
  · exact Nat.lt_succ_self _

def capitalRunBehind (taken : Nat) (cs : List Char) : Option (List Char × Nat) :=
  match cs.drop taken with
  | b :: c :: _ =>
      if b.isUpper && c.isLower then some (cs.take taken ++ ['_', b, c], taken + 1) else none
  | _ => none

/-- Capitals, one more capital and a small letter. As many capitals as possible are taken at first,
and then one after the other is given back until the rest matches. -/
def capitalRun : Pattern := fun cs =>
  (List.range (cs.takeWhile Char.isUpper).length).reverse.findSome? fun fewer =>
    capitalRunBehind (fewer + 1) cs

def smallThenCapital : Pattern
  | a :: b :: _ =>
      if (a.isLower || a.isDigit) && b.isUpper then some ([a, '_', b], 1) else none
  | _ => none

def separator : Pattern
  | c :: _ => if c.isAlphanum then none else some (['_'], 0)
  | [] => none

def underscores : Pattern := fun cs =>
  let run := (cs.takeWhile (· == '_')).length
  if 2 ≤ run then some (['_'], run - 1) else none

theorem replaceAll_of_some {pattern : Pattern} {written : List Char} {more : Nat}
    (found : pattern (c :: rest) = some (written, more)) :
    replaceAll pattern (c :: rest) = written ++ replaceAll pattern (rest.drop more) := by
  rw [replaceAll, found]

theorem replaceAll_of_none {pattern : Pattern} (none : pattern (c :: rest) = none) :
    replaceAll pattern (c :: rest) = c :: replaceAll pattern rest := by
  rw [replaceAll, none]

theorem breakBeforeCapitals_of_isUpper (capital : c.isUpper) (rest : List Char) :
    breakBeforeCapitals (c :: rest) = c :: breakBeforeCapitals rest := by
  cases rest with
  | nil => rfl
  | cons b rest =>
      rw [breakBeforeCapitals_cons, not_small_of_isUpper capital, Bool.false_and,
        if_neg Bool.false_ne_true]

theorem replaceAll_smallThenCapital (cs : List Char) :
    replaceAll smallThenCapital cs = breakBeforeCapitals cs := by
  match cs with
  | [] => rw [replaceAll, breakBeforeCapitals]; exact nofun
  | [a] => rw [replaceAll_of_none rfl, replaceAll, breakBeforeCapitals]; exact nofun
  | a :: b :: rest =>
      rw [breakBeforeCapitals_cons]
      split
      · rename_i breaks
        have capital : b.isUpper := (Bool.and_eq_true_iff.mp breaks).2
        rw [replaceAll_of_some (if_pos breaks), List.drop_one, List.tail_cons,
          breakBeforeCapitals_of_isUpper capital, replaceAll_smallThenCapital rest]
        rfl
      · rename_i unbroken
        rw [replaceAll_of_none (if_neg unbroken), replaceAll_smallThenCapital (b :: rest)]

theorem squeezeUnderscores_underscore (cs : List Char) :
    squeezeUnderscores ('_' :: cs) = '_' :: squeezeUnderscores (cs.dropWhile (· == '_')) := by
  induction cs with
  | nil => rfl
  | cons a rest induction =>
      cases first : a == '_' with
      | true =>
          rw [beq_iff_eq.mp first, squeezeUnderscores_underscore_underscore, induction]
          rfl
      | false =>
          rw [List.dropWhile_cons_of_neg (by simp [first]),
            squeezeUnderscores_underscore_of_ne first, squeezeUnderscores_cons_of_ne first]

theorem drop_length_takeWhile (p : Char → Bool) (cs : List Char) :
    cs.drop (cs.takeWhile p).length = cs.dropWhile p := by
  have whole : cs.takeWhile p ++ cs.dropWhile p = cs := List.takeWhile_append_dropWhile
  calc cs.drop (cs.takeWhile p).length
      = (cs.takeWhile p ++ cs.dropWhile p).drop (cs.takeWhile p).length := by rw [whole]
    _ = cs.dropWhile p := List.drop_left

theorem replaceAll_underscores (cs : List Char) :
    replaceAll underscores cs = squeezeUnderscores cs := by
  match cs with
  | [] => rw [replaceAll, squeezeUnderscores]; exact nofun
  | a :: rest =>
      cases first : a == '_' with
      | false =>
          have unmatched : underscores (a :: rest) = none := by
            rw [underscores, List.takeWhile_cons_of_neg (by simp [first])]
            rfl
          rw [replaceAll_of_none unmatched, squeezeUnderscores_cons_of_ne first,
            replaceAll_underscores rest]
      | true =>
          have run : (('_' :: rest).takeWhile (· == '_')).length =
              (rest.takeWhile (· == '_')).length + 1 := rfl
          rw [beq_iff_eq.mp first, squeezeUnderscores_underscore]
          by_cases single : (rest.takeWhile (· == '_')).length = 0
          · have unmatched : underscores ('_' :: rest) = none := by
              rw [underscores, run, single]
              rfl
            have whole := drop_length_takeWhile (· == '_') rest
            rw [single, List.drop_zero] at whole
            rw [replaceAll_of_none unmatched, ← whole, replaceAll_underscores rest]
          · have found : underscores ('_' :: rest) =
                some (['_'], (rest.takeWhile (· == '_')).length) := by
              rw [underscores, run]
              exact if_pos (by omega)
            rw [replaceAll_of_some found, drop_length_takeWhile,
              replaceAll_underscores (rest.dropWhile _)]
            rfl
termination_by cs.length
decreasing_by
  · exact Nat.lt_succ_self _
  · exact Nat.lt_succ_self _
  · exact Nat.lt_succ_of_le (List.dropWhile_sublist _).length_le

theorem capitalRunBehind_cons (taken : Nat) (a : Char) (cs : List Char) :
    capitalRunBehind (taken + 1) (a :: cs) =
      (capitalRunBehind taken cs).map fun (written, more) => (a :: written, more + 1) := by
  rw [capitalRunBehind, capitalRunBehind, List.drop_succ_cons, List.take_succ_cons]
  match cs.drop taken with
  | [] | [_] => rfl
  | b :: c :: _ =>
      dsimp only
      split <;> rfl

/-- A run of capitals matches as it does behind its first capital, or right there. -/
theorem capitalRun_of_isUpper (capital : a.isUpper) (cs : List Char) :
    capitalRun (a :: cs) =
      ((capitalRun cs).map fun (written, more) => (a :: written, more + 1)).or
        (capitalRunBehind 1 (a :: cs)) := by
  rw [capitalRun, List.takeWhile_cons_of_pos capital, List.length_cons,
    List.range_succ_eq_map, List.reverse_cons, List.findSome?_append, ← List.map_reverse,
    List.findSome?_map, capitalRun, List.map_findSome?]
  congr 1
  · congr 1
    funext fewer
    exact capitalRunBehind_cons (fewer + 1) a cs
  · rw [List.findSome?_cons, List.findSome?_nil]
    cases capitalRunBehind 1 (a :: cs) <;> rfl

theorem capitalRunBehind_one (a b : Char) (rest : List Char) :
    capitalRunBehind 1 (a :: b :: rest) =
      if b.isUpper && rest.head?.any Char.isLower then
        some (a :: '_' :: b :: rest.take 1, 2)
      else none := by
  cases rest with
  | nil => simp [capitalRunBehind]
  | cons c rest => rfl

theorem capitalRun_of_not_isUpper (small : ¬a.isUpper) (cs : List Char) :
    capitalRun (a :: cs) = none := by
  rw [capitalRun, List.takeWhile_cons_of_neg small]
  rfl

theorem isUpper_of_capitalRun {written : List Char} {more : Nat}
    (found : capitalRun (a :: cs) = some (written, more)) : a.isUpper := by
  refine Decidable.byContradiction fun small => ?_
  rw [capitalRun_of_not_isUpper small] at found
  cases found

theorem exists_of_capitalRun {written : List Char} {more : Nat}
    (found : capitalRun (a :: cs) = some (written, more)) :
    ∃ b rest, cs = b :: rest ∧ b.isUpper := by
  rw [capitalRun_of_isUpper (isUpper_of_capitalRun found)] at found
  cases cs with
  | nil => cases found
  | cons b rest =>
      refine ⟨b, rest, rfl, ?_⟩
      cases behind : capitalRun (b :: rest) with
      | some found => exact isUpper_of_capitalRun behind
      | none =>
          rw [behind] at found
          rw [Option.map_none, Option.none_or, capitalRunBehind_one] at found
          split at found
          · rename_i matched
            exact (Bool.and_eq_true_iff.mp matched).1
          · cases found

theorem breakCapitalRuns_of_not_isUpper (small : ¬a.isUpper) (rest : List Char) :
    breakCapitalRuns (a :: rest) = a :: breakCapitalRuns rest := by
  cases rest with
  | nil => rfl
  | cons b rest =>
      rw [breakCapitalRuns_cons_cons, eq_false_of_ne_true small, Bool.false_and, Bool.false_and,
        if_neg Bool.false_ne_true]

theorem replaceAll_capitalRun (cs : List Char) :
    replaceAll capitalRun cs = breakCapitalRuns cs := by
  match cs with
  | [] => rw [replaceAll, breakCapitalRuns]; exact nofun
  | [a] =>
      have unmatched : capitalRun [a] = none := by
        by_cases capital : a.isUpper = true
        · rw [capitalRun_of_isUpper capital]
          rfl
        · exact capitalRun_of_not_isUpper capital []
      rw [replaceAll_of_none unmatched, replaceAll, breakCapitalRuns]
      exact nofun
  | a :: b :: rest =>
      have later := replaceAll_capitalRun (b :: rest)
      by_cases capital : a.isUpper = true
      · rw [breakCapitalRuns_cons_cons, capital, Bool.true_and]
        have found := capitalRun_of_isUpper capital (b :: rest)
        cases behind : capitalRun (b :: rest) with
        | some matched =>
            -- The match behind goes on with a capital, so there is no break here.
            obtain ⟨written, more⟩ := matched
            obtain ⟨c, others, rfl, capitalToo⟩ := exists_of_capitalRun behind
            have noSmall := (Bool.or_eq_false_iff.mp (not_small_of_isUpper capitalToo)).1
            rw [behind] at found
            rw [replaceAll_of_some behind] at later
            rw [replaceAll_of_some found, List.head?_cons, Option.any_some, noSmall, Bool.and_false,
              if_neg Bool.false_ne_true, ← later]
            rfl
        | none =>
            rw [behind, Option.map_none, Option.none_or, capitalRunBehind_one] at found
            split at found
            · rename_i matched
              rw [if_pos matched, replaceAll_of_some found]
              obtain ⟨-, follows⟩ := Bool.and_eq_true_iff.mp matched
              cases rest with
              | nil => cases follows
              | cons c rest =>
                  have small : ¬c.isUpper := fun capitalToo => by
                    have lower := (Bool.or_eq_false_iff.mp (not_small_of_isUpper capitalToo)).1
                    rw [List.head?_cons, Option.any_some, lower] at follows
                    cases follows
                  rw [breakCapitalRuns_cons_cons, eq_false_of_ne_true small, Bool.and_false,
                    Bool.false_and, if_neg Bool.false_ne_true,
                    breakCapitalRuns_of_not_isUpper small, ← replaceAll_capitalRun rest]
                  rfl
            · rename_i unmatched
              rw [if_neg unmatched, replaceAll_of_none found, later]
      · rw [replaceAll_of_none (capitalRun_of_not_isUpper capital _), later,
          breakCapitalRuns_of_not_isUpper capital]

theorem replaceAll_separator (cs : List Char) :
    replaceAll separator cs = separatorsToUnderscores cs := by
  induction cs with
  | nil =>
      rw [replaceAll]
      rfl
  | cons c rest induction =>
      rw [separators_cons]
      split
      · rename_i kept
        rw [replaceAll_of_none (if_pos kept), induction]
      · rename_i other
        rw [replaceAll_of_some (if_neg other), List.drop_zero, induction]
        rfl

/-- The passes are what replacing four patterns one after the other and trimming comes to. -/
theorem snakeCaseChars_eq_replaceAll (cs : List Char) :
    snakeCaseChars cs = (trimUnderscores <| replaceAll underscores <| replaceAll separator <|
      replaceAll smallThenCapital <| replaceAll capitalRun cs).map Char.toLower := by
  rw [replaceAll_capitalRun, replaceAll_smallThenCapital, replaceAll_separator,
    replaceAll_underscores]
  rfl

end TenantSql.Text
