import Mathlib.Data.List.Sort
import Agentcy.Library.OrderedMap

/-!
# The best by a score

Items are ranked by descending scores, where equal ones keep their order.  A
single pass which replaces its choice only by a strictly better item ends at
the first of that ranking, and so does a pass that keeps one choice for each
key.
-/

namespace Agentcy.Library

universe u v w

variable {α : Type u} {β : Type v} [LinearOrder β] (score : α → β)

/-- The items by descending scores. -/
def ranked (items : List α) : List α :=
  items.insertionSort fun first second => score second ≤ score first

/-- The choice after one more item, where `held` is what the pass compares of
the item that it has chosen before. -/
def better (held score : α → β) : Option α → α → Option α
  | none, item => some item
  | some current, item =>
      if held current < score item then some item else some current

def passBest (held score : α → β) (items : List α) : Option α :=
  items.foldl (better held score) none

def firstBest (items : List α) : Option α :=
  passBest score score items

theorem foldl_better_some (current : α) (items : List α) :
    items.foldl (better score score) (some current) =
      match firstBest score items with
      | none => some current
      | some best => better score score (some current) best := by
  induction items generalizing current with
  | nil =>
      rfl
  | cons item rest inductionHypothesis =>
      have tail := inductionHypothesis item
      unfold firstBest passBest
      rw [List.foldl_cons, List.foldl_cons]
      change
        rest.foldl (better score score)
            (better score score (some current) item) =
          match rest.foldl (better score score) (some item) with
          | none => some current
          | some best => better score score (some current) best
      rw [tail]
      by_cases beaten : score current < score item
      · rw [better, if_pos beaten, tail]
        cases firstBest score rest with
        | none =>
            simp [better, beaten]
        | some best =>
            by_cases later : score item < score best
            · simp [better, later, beaten.trans later]
            · simp [better, later, beaten]
      · rw [better, if_neg beaten, inductionHypothesis current]
        cases firstBest score rest with
        | none =>
            simp [better, beaten]
        | some best =>
            by_cases later : score item < score best
            · simp [better, later]
            · have notBest : ¬ score current < score best := fun less =>
                beaten (less.trans_le (not_lt.mp later))
              simp [better, later, beaten, notBest]

theorem firstBest_cons (item : α) (rest : List α) :
    firstBest score (item :: rest) =
      match firstBest score rest with
      | none => some item
      | some best => better score score (some item) best :=
  foldl_better_some score item rest

theorem passBest_concat
    (held : α → β) (items : List α) (item : α) :
    passBest held score (items ++ [item]) =
      better held score (passBest held score items) item := by
  unfold passBest
  rw [List.foldl_append]
  rfl

/-- The first of the ranking is what the pass chooses. -/
theorem head?_ranked (items : List α) :
    (ranked score items).head? = firstBest score items := by
  induction items with
  | nil =>
      rfl
  | cons item rest inductionHypothesis =>
      rw [firstBest_cons, ← inductionHypothesis]
      unfold ranked
      rw [List.insertionSort_cons]
      cases rest.insertionSort
          (fun first second => score second ≤ score first) with
      | nil =>
          rfl
      | cons best others =>
          rw [List.orderedInsert_cons]
          by_cases kept : score best ≤ score item
          · simp [better, kept, not_lt.mpr kept]
          · simp [better, kept, not_le.mp kept]

theorem ranked_pairwise (items : List α) :
    (ranked score items).Pairwise fun first second =>
      score second ≤ score first := by
  have total :
      Std.Total fun first second : α => score second ≤ score first :=
    ⟨fun first second => le_total (score second) (score first)⟩
  have transitive :
      IsTrans α fun first second => score second ≤ score first :=
    ⟨fun _ _ _ first second => second.trans first⟩
  exact List.pairwise_insertionSort _ items

theorem filter_orderedInsert_ranked
    (keep : α → Bool) (item : α) {items : List α}
    (sorted : items.Pairwise fun first second =>
      score second ≤ score first) :
    (items.orderedInsert
        (fun first second => score second ≤ score first) item).filter
          keep =
      if keep item then
        (items.filter keep).orderedInsert
          (fun first second => score second ≤ score first) item
      else items.filter keep := by
  induction items with
  | nil =>
      cases kept : keep item <;> simp [kept]
  | cons head rest inductionHypothesis =>
      obtain ⟨below, restSorted⟩ := List.pairwise_cons.mp sorted
      rw [List.orderedInsert_cons]
      by_cases first : score head ≤ score item
      · rw [if_pos first]
        cases kept : keep item with
        | false =>
            simp [kept]
        | true =>
            -- Whatever is left of the items still comes behind the new one.
            have behind : ∀ other ∈ (head :: rest).filter keep,
                score other ≤ score item := by
              intro other member
              rcases List.mem_cons.mp (List.mem_of_mem_filter member) with
                rfl | later
              · exact first
              · exact (below other later).trans first
            rw [List.filter_cons_of_pos kept, if_pos rfl]
            cases left : (head :: rest).filter keep with
            | nil =>
                rfl
            | cons next others =>
                rw [left] at behind
                rw [List.orderedInsert_cons,
                  if_pos (behind next List.mem_cons_self)]
      · rw [if_neg first, List.filter_cons, inductionHypothesis restSorted,
          List.filter_cons]
        cases keep head <;> cases keep item <;> simp [first]

/-- Leaving items out does not change the order of the others. -/
theorem ranked_filter (keep : α → Bool) (items : List α) :
    ranked score (items.filter keep) = (ranked score items).filter keep := by
  induction items with
  | nil =>
      rfl
  | cons item rest inductionHypothesis =>
      have inserted := filter_orderedInsert_ranked score keep item
        (ranked_pairwise score rest)
      unfold ranked at inductionHypothesis inserted ⊢
      rw [List.insertionSort_cons, inserted, ← inductionHypothesis,
        List.filter_cons]
      cases keep item <;> rfl

theorem firstBest_spec
    {items : List α} {best : α}
    (chosen : firstBest score items = some best) :
    best ∈ items ∧ ∀ item ∈ items, score item ≤ score best := by
  rw [← head?_ranked, List.head?_eq_some_iff] at chosen
  obtain ⟨others, first⟩ := chosen
  have sorted := ranked_pairwise score items
  rw [first, List.pairwise_cons] at sorted
  have sameMembers (item : α) : item ∈ best :: others ↔ item ∈ items := by
    rw [← first]
    exact List.mem_insertionSort _
  constructor
  · exact (sameMembers best).mp List.mem_cons_self
  · intro item member
    rcases List.mem_cons.mp ((sameMembers item).mpr member) with
      rfl | isOther
    · exact le_rfl
    · exact sorted.1 item isOther

theorem better_ne_none
    (held : α → β) (current : Option α) (item : α) :
    better held score current item ≠ none := by
  cases current with
  | none =>
      exact Option.some_ne_none item
  | some current =>
      rw [better]
      split
      · exact Option.some_ne_none item
      · exact Option.some_ne_none current

theorem passBest_eq_none_iff (held : α → β) (items : List α) :
    passBest held score items = none ↔ items = [] := by
  rcases List.eq_nil_or_concat' items with rfl | ⟨front, last, rfl⟩
  · exact iff_of_true rfl rfl
  · rw [passBest_concat]
    exact iff_of_false (better_ne_none score held _ last)
      (List.append_ne_nil_of_right_ne_nil _ (List.cons_ne_nil _ _))

theorem firstBest_eq_none_iff (items : List α) :
    firstBest score items = none ↔ items = [] :=
  passBest_eq_none_iff score score items

/-! ## A pass that holds another score -/

section Held

variable (held : α → β)

/-- The items with the greatest score. -/
def leaders (items : List α) : List α :=
  items.filter fun item =>
    decide (∀ other ∈ items, score other ≤ score item)

/-- What is held of an item tells it from the scores like its own score does,
but for scores that are equal to that. -/
def Separates (items : List α) : Prop :=
  ∀ current ∈ items, ∀ item ∈ items,
    (score item ≤ held current → score item ≤ score current) ∧
      (held current ≤ score item → score current ≤ score item)

variable {score held}

theorem mem_leaders {items : List α} {item : α} :
    item ∈ leaders score items ↔
      item ∈ items ∧ ∀ other ∈ items, score other ≤ score item := by
  rw [leaders, List.mem_filter, decide_eq_true_iff]

theorem leaders_concat_of_lt
    {items : List α} {best item : α} (isBest : best ∈ leaders score items)
    (less : score item < score best) :
    leaders score (items ++ [item]) = leaders score items := by
  have listed := (mem_leaders.mp isBest).1
  have notLeader : ¬ ∀ other ∈ items ++ [item],
      score other ≤ score item := fun most =>
    absurd (most best (List.mem_append_left _ listed)) (not_le.mpr less)
  unfold leaders
  rw [List.filter_append, List.filter_singleton,
    decide_eq_false notLeader, cond_false, List.append_nil]
  apply List.filter_congr
  intro other _
  rw [decide_eq_decide]
  constructor
  · exact fun most third isThird =>
      most third (List.mem_append_left _ isThird)
  · intro most third isThird
    rcases List.mem_append.mp isThird with before | last
    · exact most third before
    · rw [List.mem_singleton.mp last]
      exact less.le.trans (most best listed)

theorem leaders_concat_of_eq
    {items : List α} {best item : α} (isBest : best ∈ leaders score items)
    (same : score item = score best) :
    leaders score (items ++ [item]) = leaders score items ++ [item] := by
  obtain ⟨listed, most⟩ := mem_leaders.mp isBest
  have isLeader : ∀ other ∈ items ++ [item], score other ≤ score item := by
    intro other member
    rcases List.mem_append.mp member with before | last
    · exact (most other before).trans same.ge
    · rw [List.mem_singleton.mp last]
  unfold leaders
  rw [List.filter_append, List.filter_singleton, decide_eq_true isLeader,
    cond_true]
  congr 1
  apply List.filter_congr
  intro other _
  rw [decide_eq_decide]
  constructor
  · exact fun most third isThird =>
      most third (List.mem_append_left _ isThird)
  · intro greatest third isThird
    rcases List.mem_append.mp isThird with before | last
    · exact greatest third before
    · rw [List.mem_singleton.mp last, same]
      exact greatest best listed

theorem leaders_concat_of_gt
    {items : List α} {best item : α} (isBest : best ∈ leaders score items)
    (greater : score best < score item) :
    leaders score (items ++ [item]) = [item] := by
  obtain ⟨_, most⟩ := mem_leaders.mp isBest
  have isLeader : ∀ other ∈ items ++ [item], score other ≤ score item := by
    intro other member
    rcases List.mem_append.mp member with before | last
    · exact (most other before).trans greater.le
    · rw [List.mem_singleton.mp last]
  unfold leaders
  rw [List.filter_append, List.filter_singleton, decide_eq_true isLeader,
    cond_true, List.append_left_eq_self, List.filter_eq_nil_iff]
  intro other member
  rw [decide_eq_true_iff]
  intro greatest
  have reached := greatest item
    (List.mem_append_right _ (List.mem_singleton_self item))
  exact absurd (reached.trans (most other member)) (not_le.mpr greater)

/-- Only the items with the greatest score count for the pass. -/
theorem passBest_leaders
    {items : List α} (separates : Separates score held items) :
    passBest held score items =
        passBest held score (leaders score items) ∧
      ∀ best, passBest held score items = some best →
        best ∈ leaders score items := by
  induction items using List.reverseRecOn with
  | nil =>
      exact ⟨rfl, nofun⟩
  | append_singleton front last inductionHypothesis =>
      have ofFront : Separates score held front :=
        fun current isCurrent item isItem =>
          separates current (List.mem_append_left _ isCurrent) item
            (List.mem_append_left _ isItem)
      obtain ⟨same, leads⟩ := inductionHypothesis ofFront
      rw [passBest_concat]
      cases chosen : passBest held score front with
      | none =>
          obtain rfl := (passBest_eq_none_iff score held front).mp chosen
          have alone : leaders score ([] ++ [last]) = [last] := by
            simp [leaders]
          rw [alone]
          refine ⟨rfl, fun best isBest => ?_⟩
          rw [← Option.some.inj isBest]
          exact List.mem_singleton_self last
      | some best =>
          have isBest := leads best chosen
          have listed := (mem_leaders.mp isBest).1
          obtain ⟨low, high⟩ :=
            separates best (List.mem_append_left _ listed) last
              (List.mem_append_right _ (List.mem_singleton_self last))
          rw [better]
          rcases lt_trichotomy (score last) (score best) with
            less | equal | greater
          · have kept : ¬ held best < score last := fun beaten =>
              absurd (high beaten.le) (not_le.mpr less)
            rw [if_neg kept, leaders_concat_of_lt isBest less, ← same,
              chosen]
            refine ⟨rfl, fun other isOther => ?_⟩
            rw [← Option.some.inj isOther]
            exact isBest
          · rw [leaders_concat_of_eq isBest equal, passBest_concat, ← same,
              chosen, better]
            refine ⟨rfl, fun other isOther => ?_⟩
            rw [List.mem_append, List.mem_singleton]
            split at isOther
            · exact Or.inr (Option.some.inj isOther).symm
            · exact Or.inl (Option.some.inj isOther ▸ isBest)
          · have beaten : held best < score last := by
              by_contra kept
              exact absurd (low (not_lt.mp kept)) (not_le.mpr greater)
            rw [if_pos beaten, leaders_concat_of_gt isBest greater]
            refine ⟨rfl, fun other isOther => ?_⟩
            rw [← Option.some.inj isOther]
            exact List.mem_singleton_self last

/-- The first item is not held for less than its score, or all are and the
last one is the same as the first. -/
def KeepsFirst (held score : α → β) : List α → Prop
  | [] => True
  | first :: rest =>
      score first ≤ held first ∨
        (∀ item ∈ first :: rest, held item < score item) ∧
          (first :: rest).getLast? = some first

theorem foldl_better_of_held
    {current : α} {items : List α}
    (unbeaten : ∀ item ∈ items, score item ≤ held current) :
    items.foldl (better held score) (some current) = some current := by
  induction items with
  | nil =>
      rfl
  | cons item rest inductionHypothesis =>
      have kept := unbeaten item List.mem_cons_self
      rw [List.foldl_cons, better, if_neg (not_lt.mpr kept)]
      exact inductionHypothesis fun other member =>
        unbeaten other (List.mem_cons_of_mem _ member)

/-- Among items with one score, a pass ends at an item that is not held for
less, or at the last one. -/
theorem foldl_better_of_tie
    {most : β} {current : α} {items : List α}
    (tie : ∀ item ∈ current :: items, score item = most) :
    ∃ best ∈ current :: items,
      items.foldl (better held score) (some current) = some best ∧
        (most ≤ held best ∨
          (∀ item ∈ current :: items, held item < most) ∧
            (current :: items).getLast? = some best) := by
  induction items generalizing current with
  | nil =>
      refine ⟨current, List.mem_cons_self, rfl, ?_⟩
      rcases le_or_gt most (held current) with atLeast | less
      · exact Or.inl atLeast
      · refine Or.inr ⟨fun item member => ?_, rfl⟩
        rw [List.mem_singleton.mp member]
        exact less
  | cons item rest inductionHypothesis =>
      rcases le_or_gt most (held current) with atLeast | less
      · refine ⟨current, List.mem_cons_self, ?_, Or.inl atLeast⟩
        apply foldl_better_of_held
        intro other member
        rw [tie other (List.mem_cons_of_mem _ member)]
        exact atLeast
      · have next : score item = most :=
          tie item (List.mem_cons_of_mem _ List.mem_cons_self)
        obtain ⟨best, listed, ends, kind⟩ := inductionHypothesis
          fun other member => tie other (List.mem_cons_of_mem _ member)
        refine ⟨best, List.mem_cons_of_mem _ listed, ?_, ?_⟩
        · rw [List.foldl_cons, better, next, if_pos less]
          exact ends
        · rcases kind with atLeast | ⟨allLess, isLast⟩
          · exact Or.inl atLeast
          · refine Or.inr ⟨fun other member => ?_, ?_⟩
            · rcases List.mem_cons.mp member with rfl | later
              · exact less
              · exact allLess other later
            · rw [List.getLast?_cons_cons]
              exact isLast

theorem passBest_eq_head?_iff
    {items : List α}
    (tie : ∀ first ∈ items, ∀ second ∈ items,
      score first = score second) :
    passBest held score items = items.head? ↔
      KeepsFirst held score items := by
  cases items with
  | nil =>
      exact iff_of_true rfl trivial
  | cons first rest =>
      have equal : ∀ item ∈ first :: rest, score item = score first :=
        fun item member => tie item member first List.mem_cons_self
      obtain ⟨best, listed, ends, kind⟩ :=
        @foldl_better_of_tie α β _ score held _ first rest equal
      have pass : passBest held score (first :: rest) = some best := ends
      rw [pass, List.head?_cons, Option.some.injEq]
      constructor
      · rintro rfl
        refine kind.imp id fun ⟨allLess, isLast⟩ => ⟨?_, isLast⟩
        intro item member
        rw [equal item member]
        exact allLess item member
      · rintro (atLeast | ⟨allLess, isLast⟩)
        · have kept : passBest held score (first :: rest) = some first :=
            foldl_better_of_held fun item member => by
              rw [equal item (List.mem_cons_of_mem _ member)]
              exact atLeast
          exact Option.some.inj (pass.symm.trans kept)
        · rcases kind with atLeast | ⟨_, ends⟩
          · have less := allLess best listed
            rw [equal best listed] at less
            exact absurd less (not_lt.mpr atLeast)
          · exact Option.some.inj (ends.symm.trans isLast)

/-- The pass that holds another score agrees with the ranking exactly when it
keeps the first of the items with the greatest score. -/
theorem passBest_eq_head?_ranked_iff
    {items : List α} (separates : Separates score held items) :
    passBest held score items = (ranked score items).head? ↔
      KeepsFirst held score (leaders score items) := by
  have own : Separates score score items :=
    fun _ _ _ _ => ⟨id, id⟩
  have tie : ∀ first ∈ leaders score items,
      ∀ second ∈ leaders score items, score first = score second := by
    intro first isFirst second isSecond
    obtain ⟨firstListed, firstMost⟩ := mem_leaders.mp isFirst
    obtain ⟨secondListed, secondMost⟩ := mem_leaders.mp isSecond
    exact le_antisymm (secondMost first firstListed)
      (firstMost second secondListed)
  have unheld : KeepsFirst score score (leaders score items) := by
    cases leaders score items with
    | nil => trivial
    | cons first rest => exact Or.inl le_rfl
  have first : (ranked score items).head? =
      (leaders score items).head? := by
    rw [head?_ranked, firstBest, (passBest_leaders own).1]
    exact (passBest_eq_head?_iff tie).mpr unheld
  rw [first, (passBest_leaders separates).1]
  exact passBest_eq_head?_iff tie

end Held

/-! ## One choice for each key -/

section Keyed

variable {κ : Type w} [DecidableEq κ] (held : α → β) (key : α → κ)

def chooseForKey
    (best : OrderedMap κ α) (item : α) : OrderedMap κ α :=
  match best.get? (key item) with
  | none => best.set (key item) item
  | some current =>
      if held current < score item then best.set (key item) item
      else best

def passByKey (items : List α) : OrderedMap κ α :=
  items.foldl (chooseForKey score held key) .empty

def bestByKey (items : List α) : OrderedMap κ α :=
  passByKey score score key items

theorem get?_chooseForKey
    (best : OrderedMap κ α) (item : α) (tested : κ) :
    (chooseForKey score held key best item).get? tested =
      if key item = tested then better held score (best.get? tested) item
      else best.get? tested := by
  unfold chooseForKey
  by_cases same : key item = tested
  · subst same
    rw [if_pos rfl]
    cases found : best.get? (key item) with
    | none =>
        exact OrderedMap.get?_set_self best (key item) item
    | some current =>
        rw [better]
        by_cases beaten : held current < score item
        · simp [beaten]
        · simp [beaten, found]
  · rw [if_neg same]
    have other := Ne.symm same
    cases best.get? (key item) with
    | none =>
        exact OrderedMap.get?_set_other best item other
    | some current =>
        by_cases beaten : held current < score item
        · simpa [beaten] using OrderedMap.get?_set_other best item other
        · simp [beaten]

theorem get?_passByKey (items : List α) (tested : κ) :
    (passByKey score held key items).get? tested =
      passBest held score
        (items.filter fun item => decide (key item = tested)) := by
  induction items using List.reverseRecOn with
  | nil =>
      rfl
  | append_singleton front last inductionHypothesis =>
      unfold passByKey at inductionHypothesis ⊢
      rw [List.foldl_append, List.foldl_cons, List.foldl_nil,
        get?_chooseForKey, inductionHypothesis, List.filter_append]
      by_cases same : key last = tested
      · simp [same, passBest_concat]
      · simp [same]

theorem get?_bestByKey (items : List α) (tested : κ) :
    (bestByKey score key items).get? tested =
      firstBest score
        (items.filter fun item => decide (key item = tested)) :=
  get?_passByKey score score key items tested

end Keyed

end Agentcy.Library
