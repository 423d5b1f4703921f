import Agentcy.Agents.AgentUtils
import Agentcy.Library.BinaryFloat
import Agentcy.Library.PyJson
import Agentcy.Library.Ranking

/-!
# Selection and ranking of bids

The best bid for each task is found in one pass over the bids, the ranking of
the bids for each task by collecting and sorting them.  Both skip the same
bids, and the award takes the one result where a later failover takes the
other.  The pass does not convert the score of the bid that it holds, so an
integer that `float` would round up is beaten by its equals.
-/

namespace Agentcy.Cnp

open Agentcy.Agents
open Agentcy.Library

/-- The keyword arguments of `_best_bids` and `_ranked_bids`, and what
`float(text)` makes of a text.  Without minimum scores the map is empty. -/
structure BidFilter where
  parseFloat : String → Option ℚ
  allowedCfpIds : Option (List Json.Key) := none
  minScoreByCfp : OrderedMap Json.Key ℚ := .empty
  minScoreDefault : ℚ := 0

/-- `bid.get("bid_score", 0)`. -/
def scoreField (bid : Fields) : Json :=
  (OrderedMap.lookupEntries "bid_score" bid).getD (.int 0)

namespace BidFilter

variable (arguments : BidFilter)

/-- `float(value)`.  An integer is rounded to 53 bits, or is too large. -/
def toFloat : Json → Except PyError ℚ
  | .bool value => .ok (if value then 1 else 0)
  | .int value =>
      let rounded := roundInt 53 value
      if rounded.natAbs < 2 ^ 1024 then .ok rounded
      else .error .overflowError
  | .float value => .ok value
  | .str text =>
      match arguments.parseFloat text with
      | some value => .ok value
      | none => .error .valueError
  | _ => .error .typeError

/-- The score that a bid is filtered by. -/
def floatScore (bid : Fields) : Except PyError ℚ :=
  match arguments.toFloat (scoreField bid) with
  | .ok score => .ok score
  | .error .overflowError => .error .overflowError
  | .error _ => .ok 0

def scoreOf (bid : Fields) : ℚ :=
  (arguments.floatScore bid).toOption.getD 0

def isAllowed (bid : Fields) : Except PyError Bool :=
  match arguments.allowedCfpIds with
  | none => .ok true
  | some allowed => do
      let cfpId ← (bid.get "cfp_id").hash
      return decide (cfpId ∈ allowed)

def minScore (bid : Fields) : Except PyError ℚ :=
  if arguments.minScoreByCfp.entries.isEmpty then
    .ok arguments.minScoreDefault
  else do
    let cfpId ← (bid.get "cfp_id").hash
    return (arguments.minScoreByCfp.get? cfpId).getD
      arguments.minScoreDefault

/-- The task of a bid, unless the bid is skipped. -/
def taskOf (bid : Fields) : Except PyError (Option Json.Key) :=
  if (bid.get "task_id").truthy then do
    if ← arguments.isAllowed bid then
      let least ← arguments.minScore bid
      let score ← arguments.floatScore bid
      if score < least then return none
      else return some (← (bid.get "task_id").hash)
    else return none
  else .ok none

/-- The body of the loop of `_best_bids`.  The score of the bid that is kept
so far is not converted again. -/
def keepBetter (best : OrderedMap Json.Key Fields) (bid : Fields) :
    Except PyError (OrderedMap Json.Key Fields) := do
  match ← arguments.taskOf bid with
  | none => return best
  | some task =>
      match best.get? task with
      | none => return best.set task bid
      | some current =>
          match number? (scoreField current) with
          | none => .error .typeError
          | some score =>
              if score < arguments.scoreOf bid then
                return best.set task bid
              else return best

/-- `_best_bids`. -/
def bestBids (bids : List Fields) :
    Except PyError (OrderedMap Json.Key Fields) :=
  bids.foldlM arguments.keepBetter .empty

/-- The body of the loop of `_ranked_bids`. -/
def collect (byTask : OrderedMap Json.Key (List Fields)) (bid : Fields) :
    Except PyError (OrderedMap Json.Key (List Fields)) := do
  match ← arguments.taskOf bid with
  | none => return byTask
  | some task =>
      return byTask.set task ((byTask.get? task).getD [] ++ [bid])

def sortAll (byTask : OrderedMap Json.Key (List Fields)) :
    Except PyError (OrderedMap Json.Key (List Fields)) := do
  let _ ← byTask.values.mapM fun listed =>
    listed.mapM fun bid => arguments.toFloat (scoreField bid)
  return byTask.mapValues fun _ listed => ranked arguments.scoreOf listed

/-- `_ranked_bids`. -/
def rankedBids (bids : List Fields) :
    Except PyError (OrderedMap Json.Key (List Fields)) := do
  arguments.sortAll (← bids.foldlM arguments.collect .empty)

/-- The bids that are not skipped, unless the filter raises. -/
def admitted : List Fields → Except PyError (List Fields)
  | [] => .ok []
  | bid :: rest => do
      match ← arguments.taskOf bid with
      | none => admitted rest
      | some _ => return bid :: (← admitted rest)

/-- The key of the task that a bid names. -/
def taskKey (bid : Fields) : Json.Key :=
  ((bid.get "task_id").key?).getD .null

/-- The eligible bids for a task. -/
def eligibleFor (task : Json.Key) (bids : List Fields) : List Fields :=
  bids.filter fun bid =>
    decide ((arguments.taskOf bid).toOption = some (some task))

theorem taskOf_some
    {arguments : BidFilter} {bid : Fields} {task : Json.Key}
    (admits : arguments.taskOf bid = .ok (some task)) :
    taskKey bid = task ∧
      arguments.floatScore bid = .ok (arguments.scoreOf bid) := by
  unfold taskOf at admits
  split at admits
  · obtain ⟨allowed, _, admits⟩ := bind_eq_ok.mp admits
    cases allowed with
    | false =>
        cases admits
    | true =>
        rw [if_pos rfl] at admits
        obtain ⟨least, _, admits⟩ := bind_eq_ok.mp admits
        obtain ⟨score, isScore, admits⟩ := bind_eq_ok.mp admits
        split at admits
        · cases admits
        · obtain ⟨key, hashed, admits⟩ := bind_eq_ok.mp admits
          have same := Option.some.inj ((pure_eq_ok _ _).mp admits)
          rw [taskKey, hash_eq_ok_iff.mp hashed, same, scoreOf, isScore]
          exact ⟨rfl, rfl⟩
  · cases admits

/-- What is admitted are the eligible bids of all tasks. -/
theorem filter_admitted
    {arguments : BidFilter} {bids kept : List Fields}
    (admits : arguments.admitted bids = .ok kept) (task : Json.Key) :
    (kept.filter fun bid => decide (taskKey bid = task)) =
      arguments.eligibleFor task bids := by
  induction bids generalizing kept with
  | nil =>
      obtain rfl := Except.ok.inj admits
      rfl
  | cons bid rest inductionHypothesis =>
      rw [admitted] at admits
      obtain ⟨found, reads, admits⟩ := bind_eq_ok.mp admits
      have value : (arguments.taskOf bid).toOption = some found :=
        toOption_eq_some.mpr reads
      cases found with
      | none =>
          rw [eligibleFor, List.filter_cons, value]
          simpa [eligibleFor] using inductionHypothesis admits
      | some own =>
          obtain ⟨later, ofRest, same⟩ := bind_eq_ok.mp admits
          obtain rfl := (pure_eq_ok _ _).mp same
          rw [eligibleFor, List.filter_cons, List.filter_cons, value,
            (taskOf_some reads).1, inductionHypothesis ofRest, eligibleFor]
          simp [Option.some.injEq]

theorem taskOf_of_admitted
    {arguments : BidFilter} {bids kept : List Fields}
    (admits : arguments.admitted bids = .ok kept)
    {bid : Fields} (member : bid ∈ kept) :
    bid ∈ bids ∧ ∃ task, arguments.taskOf bid = .ok (some task) := by
  induction bids generalizing kept with
  | nil =>
      obtain rfl := Except.ok.inj admits
      cases member
  | cons first rest inductionHypothesis =>
      rw [admitted] at admits
      obtain ⟨found, reads, admits⟩ := bind_eq_ok.mp admits
      cases found with
      | none =>
          obtain ⟨listed, kind⟩ := inductionHypothesis admits member
          exact ⟨List.mem_cons_of_mem _ listed, kind⟩
      | some own =>
          obtain ⟨later, ofRest, same⟩ := bind_eq_ok.mp admits
          obtain rfl := (pure_eq_ok _ _).mp same
          rcases List.mem_cons.mp member with rfl | inLater
          · exact ⟨List.mem_cons_self, own, reads⟩
          · obtain ⟨listed, kind⟩ := inductionHypothesis ofRest inLater
            exact ⟨List.mem_cons_of_mem _ listed, kind⟩

/-- The filter raises exactly where it raises for one of the bids. -/
theorem admitted_error_iff
    (arguments : BidFilter) (bids : List Fields) :
    (∃ error, arguments.admitted bids = .error error) ↔
      ∃ bid ∈ bids, ∃ error, arguments.taskOf bid = .error error := by
  induction bids with
  | nil =>
      simp [admitted]
  | cons first rest inductionHypothesis =>
      rw [List.exists_mem_cons_iff, ← inductionHypothesis, admitted]
      cases reads : arguments.taskOf first with
      | error error =>
          exact iff_of_true ⟨error, rfl⟩ (Or.inl ⟨error, rfl⟩)
      | ok found =>
          have silent :
              ¬ ∃ error, (Except.ok found : Except PyError _) =
                .error error := by
            rintro ⟨error, isError⟩
            cases isError
          rw [or_iff_right silent]
          cases found with
          | none =>
              rfl
          | some own =>
              cases arguments.admitted rest with
              | error error =>
                  exact iff_of_true ⟨error, rfl⟩ ⟨error, rfl⟩
              | ok later =>
                  apply iff_of_false
                  · rintro ⟨error, isError⟩
                    cases isError
                  · rintro ⟨error, isError⟩
                    cases isError

/-! ## Both loops go over the admitted bids -/

/-- What a number in a document is decoded to. -/
def IsNumber : Json → Prop
  | .bool _ | .int _ => True
  | .float value => IsBinaryFloat 53 value
  | _ => False

/-- A bid whose score is a number. -/
def Numeric (bid : Fields) : Prop :=
  IsNumber (scoreField bid)

/-- The score of a bid as it is, which a later score is compared with. -/
def heldScore (bid : Fields) : ℚ :=
  (number? (scoreField bid)).getD 0

theorem Numeric.number?_eq {bid : Fields} (numeric : Numeric bid) :
    number? (scoreField bid) = some (heldScore bid) := by
  unfold Numeric at numeric
  unfold heldScore
  cases value : scoreField bid with
  | bool _ => rfl
  | int _ => rfl
  | float _ => rfl
  | null | str _ | list _ | dict _ =>
      rw [value] at numeric
      cases numeric

theorem Numeric.toFloat_eq
    {arguments : BidFilter} {bid : Fields} (numeric : Numeric bid)
    (isScore : arguments.floatScore bid = .ok (arguments.scoreOf bid)) :
    arguments.toFloat (scoreField bid) = .ok (arguments.scoreOf bid) := by
  unfold Numeric at numeric
  unfold floatScore at isScore
  split at isScore
  · rename_i score converted
    rw [converted, isScore]
  · cases isScore
  · -- A number is only too large.
    rename_i error notOverflow raised
    cases value : scoreField bid with
    | bool _ | float _ =>
        rw [value] at raised
        cases raised
    | int number =>
        rw [value, toFloat] at raised
        split at raised
        · cases raised
        · exact absurd (Except.error.inj raised).symm notOverflow
    | null | str _ | list _ | dict _ =>
        rw [value] at numeric
        cases numeric

theorem isBinaryFloat_one : IsBinaryFloat 53 1 :=
  ⟨1, 0, by norm_num, by norm_num⟩

theorem isBinaryFloat_zero : IsBinaryFloat 53 0 :=
  ⟨0, 0, by norm_num, by norm_num⟩

theorem Numeric.isBinaryFloat
    {arguments : BidFilter} {bid : Fields} (numeric : Numeric bid)
    (isScore : arguments.floatScore bid = .ok (arguments.scoreOf bid)) :
    IsBinaryFloat 53 (arguments.scoreOf bid) := by
  have converted := numeric.toFloat_eq isScore
  unfold Numeric at numeric
  cases value : scoreField bid with
  | bool truth =>
      rw [value, toFloat] at converted
      rw [← Except.ok.inj converted]
      cases truth
      · exact isBinaryFloat_zero
      · exact isBinaryFloat_one
  | int number =>
      rw [value, toFloat] at converted
      split at converted
      · rw [← Except.ok.inj converted]
        exact isBinaryFloat_roundInt number
      · cases converted
  | float number =>
      rw [value] at converted numeric
      rw [← Except.ok.inj converted]
      exact numeric
  | null | str _ | list _ | dict _ =>
      rw [value] at numeric
      cases numeric

/-- A score compares with the one that is held as with that one converted, but
for a tie. -/
theorem Numeric.separates
    {arguments : BidFilter} {current : Fields} (numeric : Numeric current)
    (isScore :
      arguments.floatScore current = .ok (arguments.scoreOf current))
    {score : ℚ} (isFloat : IsBinaryFloat 53 score) :
    (score ≤ heldScore current → score ≤ arguments.scoreOf current) ∧
      (heldScore current ≤ score → arguments.scoreOf current ≤ score) := by
  have converted := numeric.toFloat_eq isScore
  have held := numeric.number?_eq
  unfold Numeric at numeric
  cases value : scoreField current with
  | bool truth =>
      rw [value] at converted held
      rw [← Except.ok.inj converted, ← Option.some.inj held]
      exact ⟨id, id⟩
  | int number =>
      rw [value] at converted held
      rw [toFloat] at converted
      split at converted
      · rw [← Except.ok.inj converted, ← Option.some.inj held]
        exact ⟨le_roundInt (by decide) isFloat,
          roundInt_le (by decide) isFloat⟩
      · cases converted
  | float number =>
      rw [value] at converted held
      rw [← Except.ok.inj converted, ← Option.some.inj held]
      exact ⟨id, id⟩
  | null | str _ | list _ | dict _ =>
      rw [value] at numeric
      cases numeric

section Loops

variable {arguments : BidFilter} {bid : Fields} {task : Json.Key}

theorem keepBetter_none
    (best : OrderedMap Json.Key Fields)
    (skips : arguments.taskOf bid = .ok none) :
    arguments.keepBetter best bid = .ok best := by
  rw [keepBetter, skips]
  rfl

theorem keepBetter_some
    {best : OrderedMap Json.Key Fields}
    (kept : ∀ task bid, best.get? task = some bid → Numeric bid)
    (reads : arguments.taskOf bid = .ok (some task)) :
    arguments.keepBetter best bid =
      .ok (chooseForKey arguments.scoreOf heldScore taskKey best bid) := by
  rw [keepBetter, reads, chooseForKey, (taskOf_some reads).1]
  dsimp only [bind, Except.bind]
  cases found : best.get? task with
  | none =>
      rfl
  | some current =>
      dsimp only
      rw [(kept task current found).number?_eq]
      by_cases beaten : heldScore current < arguments.scoreOf bid
      · simp [beaten]
      · simp [beaten]

theorem numeric_chooseForKey
    {best : OrderedMap Json.Key Fields}
    (kept : ∀ task bid, best.get? task = some bid → Numeric bid)
    (numeric : Numeric bid) (tested : Json.Key) (found : Fields)
    (isFound :
      (chooseForKey arguments.scoreOf heldScore taskKey best bid).get?
        tested = some found) :
    Numeric found := by
  rw [get?_chooseForKey] at isFound
  split at isFound
  · cases before : best.get? tested with
    | none =>
        rw [before, better] at isFound
        exact Option.some.inj isFound ▸ numeric
    | some current =>
        rw [before, better] at isFound
        split at isFound
        · exact Option.some.inj isFound ▸ numeric
        · exact kept tested found (before.trans isFound)
  · exact kept tested found isFound

end Loops

/-- As long as all bids have numbers for scores, the first loop chooses by
keys. -/
theorem foldlM_keepBetter
    {arguments : BidFilter} {bids : List Fields}
    (numeric : ∀ bid ∈ bids, Numeric bid)
    {best : OrderedMap Json.Key Fields}
    (kept : ∀ task bid, best.get? task = some bid → Numeric bid) :
    bids.foldlM arguments.keepBetter best = do
      let admits ← arguments.admitted bids
      return admits.foldl
        (chooseForKey arguments.scoreOf heldScore taskKey) best := by
  induction bids generalizing best with
  | nil =>
      rfl
  | cons bid rest inductionHypothesis =>
      have ofRest : ∀ bid ∈ rest, Numeric bid := fun other member =>
        numeric other (List.mem_cons_of_mem _ member)
      rw [List.foldlM_cons, admitted]
      cases reads : arguments.taskOf bid with
      | error error =>
          rw [keepBetter, reads]
          rfl
      | ok found =>
          cases found with
          | none =>
              rw [keepBetter_none best reads]
              exact inductionHypothesis ofRest kept
          | some task =>
              have next :=
                inductionHypothesis ofRest
                  (@numeric_chooseForKey arguments bid best kept
                    (numeric bid List.mem_cons_self))
              rw [keepBetter_some kept reads]
              refine next.trans ?_
              cases arguments.admitted rest with
              | error error =>
                  rfl
              | ok later =>
                  rfl

theorem foldlM_collect
    {arguments : BidFilter} {bids : List Fields}
    {byTask : OrderedMap Json.Key (List Fields)} :
    bids.foldlM arguments.collect byTask = do
      let admits ← arguments.admitted bids
      return (admits.map fun bid => (taskKey bid, bid)).foldl
        (fun items entry =>
          items.set entry.1 ((items.get? entry.1).getD [] ++ [entry.2]))
        byTask := by
  induction bids generalizing byTask with
  | nil =>
      rfl
  | cons bid rest inductionHypothesis =>
      rw [List.foldlM_cons, collect, admitted]
      cases reads : arguments.taskOf bid with
      | error error =>
          rfl
      | ok found =>
          cases found with
          | none =>
              exact inductionHypothesis
          | some task =>
              rw [← (taskOf_some reads).1]
              refine inductionHypothesis.trans ?_
              cases arguments.admitted rest with
              | error error =>
                  rfl
              | ok later =>
                  rfl

/-! ## What the two loops return -/

/-- What the first loop makes of the bids that pass the filter. -/
def bestOf (arguments : BidFilter) (kept : List Fields) :
    OrderedMap Json.Key Fields :=
  passByKey arguments.scoreOf heldScore taskKey kept

/-- What the second loop makes of them. -/
def rankingOf (arguments : BidFilter) (kept : List Fields) :
    OrderedMap Json.Key (List Fields) :=
  (OrderedMap.gather
    (kept.map fun bid => (taskKey bid, bid))).mapValues
      fun _ listed => ranked arguments.scoreOf listed

theorem empty_numeric (task : Json.Key) (bid : Fields)
    (found : (OrderedMap.empty : OrderedMap Json.Key Fields).get? task =
      some bid) : Numeric bid := by
  cases found

theorem bestBids_of_admitted
    {arguments : BidFilter} {bids kept : List Fields}
    (numeric : ∀ bid ∈ bids, Numeric bid)
    (admits : arguments.admitted bids = .ok kept) :
    arguments.bestBids bids = .ok (arguments.bestOf kept) := by
  rw [bestBids, foldlM_keepBetter numeric empty_numeric, admits]
  rfl

theorem mem_of_mem_gather
    {kept listed : List Fields} {bid : Fields}
    (member :
      listed ∈ (OrderedMap.gather
        (kept.map fun bid => (taskKey bid, bid))).values)
    (inListed : bid ∈ listed) : bid ∈ kept := by
  obtain ⟨entry, inEntries, rfl⟩ := List.mem_map.mp member
  have read :=
    OrderedMap.getD_gather (kept.map fun bid => (taskKey bid, bid))
      entry.1
  rw [OrderedMap.get?_of_mem inEntries, Option.getD_some] at read
  rw [read, List.filter_map, List.map_map, List.mem_map] at inListed
  obtain ⟨other, inFilter, rfl⟩ := inListed
  exact (List.mem_filter.mp inFilter).1

theorem sortAll_ok
    {arguments : BidFilter}
    {byTask : OrderedMap Json.Key (List Fields)}
    (converts : ∀ listed ∈ byTask.values, ∀ bid ∈ listed,
      arguments.toFloat (scoreField bid) = .ok (arguments.scoreOf bid)) :
    arguments.sortAll byTask =
      .ok (byTask.mapValues fun _ listed =>
        ranked arguments.scoreOf listed) := by
  have keys : ∀ listed ∈ byTask.values,
      ∃ scores, (listed.mapM fun bid =>
        arguments.toFloat (scoreField bid)) = .ok scores ∧ True := by
    intro listed member
    have each : ∀ bid ∈ listed, ∃ score,
        arguments.toFloat (scoreField bid) = .ok score ∧ True :=
      fun bid inListed => ⟨_, converts listed member bid inListed, trivial⟩
    obtain ⟨scores, reads, _⟩ := mapM_of_all_ok each
    exact ⟨scores, reads, trivial⟩
  obtain ⟨scores, reads, _⟩ := mapM_of_all_ok keys
  rw [sortAll, reads]
  rfl

theorem rankedBids_of_admitted
    {arguments : BidFilter} {bids kept : List Fields}
    (numeric : ∀ bid ∈ bids, Numeric bid)
    (admits : arguments.admitted bids = .ok kept) :
    arguments.rankedBids bids = .ok (arguments.rankingOf kept) := by
  rw [rankedBids, foldlM_collect, admits]
  apply sortAll_ok
  intro listed member bid inListed
  obtain ⟨isBid, task, reads⟩ :=
    taskOf_of_admitted admits (mem_of_mem_gather member inListed)
  exact (numeric bid isBid).toFloat_eq (taskOf_some reads).2

section OneTask

variable {arguments : BidFilter} {bids kept : List Fields}

theorem get?_bestOf
    (admits : arguments.admitted bids = .ok kept) (task : Json.Key) :
    (arguments.bestOf kept).get? task =
      passBest heldScore arguments.scoreOf
        (arguments.eligibleFor task bids) := by
  rw [bestOf, get?_passByKey, filter_admitted admits]

theorem getD_rankingOf
    (admits : arguments.admitted bids = .ok kept) (task : Json.Key) :
    ((arguments.rankingOf kept).get? task).getD [] =
      ranked arguments.scoreOf (arguments.eligibleFor task bids) := by
  rw [rankingOf, OrderedMap.get?_mapValues]
  have gathered :=
    OrderedMap.getD_gather (kept.map fun bid => (taskKey bid, bid)) task
  rw [List.filter_map, List.map_map] at gathered
  have same :
      ((OrderedMap.gather (kept.map fun bid =>
        (taskKey bid, bid))).get? task).getD [] =
        arguments.eligibleFor task bids := by
    rw [gathered, ← filter_admitted admits]
    exact List.map_id _
  rw [← same]
  cases (OrderedMap.gather
      (kept.map fun bid => (taskKey bid, bid))).get? task with
  | none =>
      rfl
  | some listed =>
      rfl

theorem rankingOf_ne_nil
    {task : Json.Key} {listed : List Fields}
    (found : (arguments.rankingOf kept).get? task = some listed) :
    listed ≠ [] := by
  rw [rankingOf, OrderedMap.get?_mapValues,
    Option.map_eq_some_iff] at found
  obtain ⟨group, isGroup, rfl⟩ := found
  have nonempty := OrderedMap.ne_nil_of_get?_gather isGroup
  simpa [ranked, ← List.length_eq_zero_iff] using nonempty

/-- One result is without a task exactly if the other is. -/
theorem get?_bestOf_eq_none_iff
    (admits : arguments.admitted bids = .ok kept) (task : Json.Key) :
    (arguments.bestOf kept).get? task = none ↔
      (arguments.rankingOf kept).get? task = none := by
  have length : (ranked arguments.scoreOf
      (arguments.eligibleFor task bids)).length =
        (arguments.eligibleFor task bids).length :=
    List.length_insertionSort _ _
  rw [get?_bestOf admits task, passBest_eq_none_iff,
    ← List.length_eq_zero_iff, ← length, ← getD_rankingOf admits task,
    List.length_eq_zero_iff]
  cases found : (arguments.rankingOf kept).get? task with
  | none =>
      simp
  | some listed =>
      simp [rankingOf_ne_nil found]

theorem separates_eligible
    (numeric : ∀ bid ∈ bids, Numeric bid) (task : Json.Key) :
    Separates arguments.scoreOf heldScore
      (arguments.eligibleFor task bids) := by
  have read (bid : Fields) (member : bid ∈ arguments.eligibleFor task bids) :
      Numeric bid ∧
        arguments.floatScore bid = .ok (arguments.scoreOf bid) := by
    obtain ⟨listed, isEligible⟩ := List.mem_filter.mp member
    have reads := toOption_eq_some.mp (of_decide_eq_true isEligible)
    exact ⟨numeric bid listed, (taskOf_some reads).2⟩
  intro current isCurrent item isItem
  obtain ⟨currentNumeric, currentScore⟩ := read current isCurrent
  obtain ⟨itemNumeric, itemScore⟩ := read item isItem
  exact currentNumeric.separates currentScore
    (itemNumeric.isBinaryFloat itemScore)

/-- The best bid for a task heads its ranking exactly if the first of those
with the greatest score is kept. -/
theorem get?_bestOf_eq_head?_iff
    (numeric : ∀ bid ∈ bids, Numeric bid)
    (admits : arguments.admitted bids = .ok kept) (task : Json.Key) :
    (arguments.bestOf kept).get? task =
        ((arguments.rankingOf kept).get? task).bind List.head? ↔
      KeepsFirst heldScore arguments.scoreOf
        (leaders arguments.scoreOf
          (arguments.eligibleFor task bids)) := by
  have first :
      ((arguments.rankingOf kept).get? task).bind List.head? =
        (ranked arguments.scoreOf
          (arguments.eligibleFor task bids)).head? := by
    rw [← getD_rankingOf admits task]
    cases (arguments.rankingOf kept).get? task with
    | none =>
        rfl
    | some listed =>
        rfl
  rw [get?_bestOf admits task, first]
  exact passBest_eq_head?_ranked_iff (separates_eligible numeric task)

end OneTask

/-- The best bid for each task heads the ranking of its eligible bids, or both
loops raise the same error. -/
def SelectionAgrees (arguments : BidFilter) (bids : List Fields) : Prop :=
  (∃ best byTask,
    arguments.bestBids bids = .ok best ∧
    arguments.rankedBids bids = .ok byTask ∧
    (∀ task, best.get? task = (byTask.get? task).bind List.head?) ∧
    (∀ task, best.get? task = none ↔ byTask.get? task = none) ∧
    (best.entries = [] ↔ byTask.entries = []) ∧
    ∀ task,
      ((byTask.get? task).getD []).Pairwise (fun first second =>
        arguments.scoreOf second ≤ arguments.scoreOf first) ∧
      ((byTask.get? task).getD []).Perm
        (arguments.eligibleFor task bids)) ∨
  ∃ error,
    arguments.bestBids bids = .error error ∧
    arguments.rankedBids bids = .error error

/-- The filter raises for a bid, or for each task the first of the eligible
bids with the greatest `float` score is not rounded up to it, unless it is the
only one, or all of them are and the last is a copy of the first. -/
def FirstNotRoundedUp (arguments : BidFilter) (bids : List Fields) : Prop :=
  (∃ bid ∈ bids, ∃ error, arguments.taskOf bid = .error error) ∨
    ∀ task, KeepsFirst heldScore arguments.scoreOf
      (leaders arguments.scoreOf (arguments.eligibleFor task bids))

/-- For all bids with numbers for scores, selection and ranking agree exactly
when no first bid is rounded up to its equals. -/
theorem best_heads_ranking_iff
    (arguments : BidFilter) (bids : List Fields)
    (numeric : ∀ bid ∈ bids, Numeric bid) :
    arguments.SelectionAgrees bids ↔ arguments.FirstNotRoundedUp bids := by
  unfold SelectionAgrees FirstNotRoundedUp
  rw [← admitted_error_iff]
  cases admits : arguments.admitted bids with
  | error error =>
      refine iff_of_true (Or.inr ⟨error, ?_, ?_⟩) (Or.inl ⟨error, rfl⟩)
      · rw [bestBids, foldlM_keepBetter numeric empty_numeric, admits]
        rfl
      · rw [rankedBids, foldlM_collect, admits]
        rfl
  | ok kept =>
      have isBest := bestBids_of_admitted numeric admits
      have isRanking := rankedBids_of_admitted numeric admits
      have silent : ¬ ∃ error,
          (Except.ok kept : Except PyError _) = .error error := by
        rintro ⟨error, isError⟩
        cases isError
      rw [or_iff_right silent]
      constructor
      · rintro (⟨_, _, sameBest, sameRanking, agree, _⟩ | raises)
        · rw [isBest] at sameBest
          rw [isRanking] at sameRanking
          obtain rfl := Except.ok.inj sameBest
          obtain rfl := Except.ok.inj sameRanking
          exact fun task =>
            (get?_bestOf_eq_head?_iff numeric admits task).mp (agree task)
        · obtain ⟨error, raised, _⟩ := raises
          rw [isBest] at raised
          cases raised
      · intro keeps
        refine Or.inl ⟨_, _, isBest, isRanking,
          fun task =>
            (get?_bestOf_eq_head?_iff numeric admits task).mpr (keeps task),
          get?_bestOf_eq_none_iff admits, ?_, ?_⟩
        · rw [OrderedMap.entries_eq_nil_iff, OrderedMap.entries_eq_nil_iff]
          exact forall_congr' (get?_bestOf_eq_none_iff admits)
        · intro task
          rw [getD_rankingOf admits task]
          exact ⟨ranked_pairwise _ _, List.perm_insertionSort _ _⟩

/-- Scores that `float` does not raise are safe. -/
theorem firstNotRoundedUp_of_le
    {arguments : BidFilter} {bids : List Fields}
    (exact : ∀ bid ∈ bids, arguments.scoreOf bid ≤ heldScore bid) :
    arguments.FirstNotRoundedUp bids := by
  refine Or.inr fun task => ?_
  cases first : leaders arguments.scoreOf
      (arguments.eligibleFor task bids) with
  | nil =>
      trivial
  | cons bid rest =>
      have leads : bid ∈ leaders arguments.scoreOf
          (arguments.eligibleFor task bids) := by
        rw [first]
        exact List.mem_cons_self
      exact Or.inl (exact bid
        (List.mem_of_mem_filter (List.mem_of_mem_filter leads)))

end BidFilter

/-! ## A tie -/

/-- Two bids with the same score, and a better one on another call. -/
def tiedBids : List Fields :=
  [[("task_id", .str "t"), ("bidder_id", .str "a"), ("bid_score", .int (-1)),
      ("cfp_id", .str "c")],
    [("task_id", .str "t"), ("bidder_id", .str "b"),
      ("bid_score", .float (-1)), ("cfp_id", .str "c")],
    [("task_id", .str "t"), ("bidder_id", .str "d"), ("bid_score", .int 1),
      ("cfp_id", .str "other")]]

def tieFilter : BidFilter where
  parseFloat _ := none
  allowedCfpIds := some [.str "c"]
  minScoreDefault := -2

theorem tied_bids_agree : tieFilter.SelectionAgrees tiedBids := by
  have numeric : ∀ bid ∈ tiedBids, BidFilter.Numeric bid := by
    intro bid member
    simp only [tiedBids, List.mem_cons, List.not_mem_nil, or_false]
      at member
    rcases member with rfl | rfl | rfl
    · trivial
    · exact ⟨-1, 0, by norm_num, by norm_num⟩
    · trivial
  apply (BidFilter.best_heads_ranking_iff tieFilter tiedBids numeric).mpr
  apply BidFilter.firstNotRoundedUp_of_le
  decide +kernel

/-- Two bids with the same score, which is no number of 53 bits. -/
def largeBids : List Fields :=
  [[("task_id", .str "t"), ("bidder_id", .str "a"),
      ("bid_score", .int 9007199254740995)],
    [("task_id", .str "t"), ("bidder_id", .str "b"),
      ("bid_score", .int 9007199254740995)]]

def openFilter : BidFilter where
  parseFloat _ := none

/-- The second bid is selected, and the first one heads the ranking. -/
theorem large_bids_part :
    ¬ openFilter.SelectionAgrees largeBids := by
  have chosen :
      ((openFilter.bestBids largeBids).toOption.bind fun best =>
        (best.get? (.str "t")).map fun bid =>
          (bid.get "bidder_id").key?) = some (some (.str "b")) := by
    decide +kernel
  have heads :
      ((openFilter.rankedBids largeBids).toOption.bind fun byTask =>
        ((byTask.get? (.str "t")).bind List.head?).map fun bid =>
          (bid.get "bidder_id").key?) = some (some (.str "a")) := by
    decide +kernel
  rintro (⟨best, byTask, isBest, isRanking, agree, _⟩ | ⟨_, raised, _⟩)
  · rw [isBest] at chosen
    rw [isRanking] at heads
    have same := congrArg
      (Option.map fun bid => (Fields.get bid "bidder_id").key?)
      (agree (.str "t"))
    exact absurd (chosen.symm.trans (same.trans heads)) (by decide)
  · rw [raised] at chosen
    cases chosen

end Agentcy.Cnp
