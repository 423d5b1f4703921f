import Mathlib.Algebra.BigOperators.Group.List.Basic
import Mathlib.Data.Rat.Lemmas
import Mathlib.Algebra.Order.Ring.Rat
import Agentcy.Library.OrderedMap
import Agentcy.Library.Ranking

/-!
# Topology outcomes

The outcomes of a tenant are summed up per topology signature.  The generation
service keeps one summary for each skeleton, and so does
`get_performance_for_skeleton`: the one keeps the last of the ranking, the
other the first.
-/

namespace Agentcy.Topology

open Agentcy.Library

structure TopologyOutcome where
  skeletonId : String
  workflowClass : String
  topologySignature : String := ""
  success : Bool := false
  executionTimeSeconds : Option Rat := none
  taskCount : Int := 0
  retryCount : Int := 0
  coalitionUsageCount : Int := 0
  policyViolations : Int := 0
  humanEscalations : Int := 0
  costTotal : Rat := 0

structure TopologyPerformance where
  topologySignature : String
  skeletonId : String
  workflowClass : String
  sampleCount : Nat := 0
  successRate : Rat := 0
  meanLatencySeconds : Rat := 0
  latencyP95Seconds : Rat := 0
  meanCost : Rat := 0
  retryRate : Rat := 0
  coalitionUsageRate : Rat := 0
  policyIncidentRate : Rat := 0
  humanEscalationRate : Rat := 0
  deriving DecidableEq

/-- Python's `round(value, digits)`: to the nearest, halves to even. -/
def roundTo (digits : Nat) (value : Rat) : Rat :=
  let scaled := value * 10 ^ digits
  let low := scaled.floor
  let rest := scaled - low
  let nearest :=
    if rest < 1 / 2 then low
    else if 1 / 2 < rest then low + 1
    else if low % 2 = 0 then low
    else low + 1
  nearest / 10 ^ digits

/-- The share `round(total / count, 4)`, and 0 where there is nothing to
divide by. -/
def rate (total count : Int) : Rat :=
  if 0 < count then roundTo 4 (total / count) else 0

section Mean

-- What `sum(values) / len(values)` makes of floats in the order of the list:
-- their addition rounds, and Python 3.12 changed how `sum` adds them.
variable (mean : List Rat → Rat)

/-- The execution times that are there and not zero. -/
def latencies (items : List TopologyOutcome) : List Rat :=
  (items.filterMap TopologyOutcome.executionTimeSeconds).filter (· ≠ 0)

def meanLatency (items : List TopologyOutcome) : Rat :=
  roundTo 3 (if latencies items = [] then 0 else mean (latencies items))

def meanCostOf (items : List TopologyOutcome) : Rat :=
  roundTo 4 (mean (items.map TopologyOutcome.costTotal))

/-- The summary of the outcomes of one signature, of which there is at least
one. -/
def summarize
    (sig : String) (items : List TopologyOutcome) : TopologyPerformance :=
  let n := items.length
  let successes := items.countP TopologyOutcome.success
  let sortedLats := (latencies items).insertionSort (· ≤ ·)
  let totalTasks := (items.map TopologyOutcome.taskCount).sum
  { topologySignature := sig
    skeletonId := (items.head?.map TopologyOutcome.skeletonId).getD ""
    workflowClass :=
      (items.head?.map TopologyOutcome.workflowClass).getD ""
    sampleCount := n
    successRate := if 0 < n then successes / n else 0
    meanLatencySeconds := meanLatency mean items
    latencyP95Seconds :=
      roundTo 3 (sortedLats.getD (sortedLats.length * 95 / 100) 0)
    meanCost := if 0 < n then meanCostOf mean items else 0
    retryRate :=
      rate (items.map TopologyOutcome.retryCount).sum totalTasks
    coalitionUsageRate :=
      rate (items.map TopologyOutcome.coalitionUsageCount).sum totalTasks
    policyIncidentRate :=
      rate (items.map TopologyOutcome.policyViolations).sum n
    humanEscalationRate :=
      rate (items.map TopologyOutcome.humanEscalations).sum n }

/-- The outcomes by signature; those without one are skipped. -/
def groups
    (outcomes : List TopologyOutcome) :
    OrderedMap String (List TopologyOutcome) :=
  OrderedMap.gather
    ((outcomes.filter fun o => o.topologySignature ≠ "").map
      fun o => (o.topologySignature, o))

/-- `aggregate_topology_performance` on the outcomes the store lists. -/
def aggregateTopologyPerformance
    (outcomes : List TopologyOutcome) : List TopologyPerformance :=
  ranked TopologyPerformance.successRate
    ((groups outcomes).entries.map fun group =>
      summarize mean group.1 group.2)

/-- The variants of a skeleton, best first. -/
def variants
    (outcomes : List TopologyOutcome) (skeletonId : String) :
    List TopologyPerformance :=
  (aggregateTopologyPerformance mean outcomes).filter
    fun p => p.skeletonId = skeletonId

def getPerformanceForSkeleton
    (outcomes : List TopologyOutcome) (skeletonId : String) :
    Option TopologyPerformance :=
  (variants mean outcomes skeletonId).head?

/-- What `generate_system` hands to the ranking of the templates: later
entries of the list overwrite earlier ones of the same skeleton. -/
def performanceLookup
    (outcomes : List TopologyOutcome) :
    OrderedMap String TopologyPerformance :=
  OrderedMap.ofList
    ((aggregateTopologyPerformance mean outcomes).map
      fun p => (p.skeletonId, p))

/-- In a list without repetitions the first item is the last only if it is
the only one. -/
theorem length_le_one_of_head?_eq_getLast?
    {α : Type} {items : List α} (nodup : items.Nodup)
    (same : items.head? = items.getLast?) : items.length ≤ 1 := by
  cases items with
  | nil =>
      exact Nat.zero_le 1
  | cons first rest =>
      cases rest with
      | nil =>
          exact Nat.le_refl 1
      | cons second others =>
          have last : (second :: others).getLast? = some first := by
            rw [← List.getLast?_cons_cons, ← same]
            rfl
          have repeated := List.mem_of_getLast? last
          exact absurd repeated (List.nodup_cons.mp nodup).1

/-- Whatever the order of the outcomes is, their mean latency and their mean
cost are the same. -/
def MeansAlike (items : List TopologyOutcome) : Prop :=
  ∀ order : List TopologyOutcome, order.Perm items →
    meanLatency mean order = meanLatency mean items ∧
      meanCostOf mean order = meanCostOf mean items

variable {mean}

theorem meanCost_summarize
    (sig : String) {items : List TopologyOutcome}
    (nonempty : 0 < items.length) :
    (summarize mean sig items).meanCost = meanCostOf mean items :=
  if_pos nonempty

theorem summarize_eq_of_perm
    (sig : String) {first second : List TopologyOutcome}
    (same : first.Perm second) (alike : MeansAlike mean second)
    (skeleton : first.head?.map TopologyOutcome.skeletonId =
      second.head?.map TopologyOutcome.skeletonId)
    (workflow : first.head?.map TopologyOutcome.workflowClass =
      second.head?.map TopologyOutcome.workflowClass) :
    summarize mean sig first = summarize mean sig second := by
  have sameLatencies : (latencies first).Perm (latencies second) :=
    (same.filterMap _).filter _
  have sorted :
      (latencies first).insertionSort (· ≤ ·) =
        (latencies second).insertionSort (· ≤ ·) := by
    apply List.Perm.eq_of_sortedLE List.sortedLE_insertionSort
      List.sortedLE_insertionSort
    exact (List.perm_insertionSort _ _).trans
      (sameLatencies.trans (List.perm_insertionSort _ _).symm)
  obtain ⟨sameLatency, sameCost⟩ := alike first same
  unfold summarize
  simp only [sorted, skeleton, workflow, same.length_eq, same.countP_eq,
    sameLatency, sameCost,
    (same.map TopologyOutcome.taskCount).sum_eq,
    (same.map TopologyOutcome.retryCount).sum_eq,
    (same.map TopologyOutcome.coalitionUsageCount).sum_eq,
    (same.map TopologyOutcome.policyViolations).sum_eq,
    (same.map TopologyOutcome.humanEscalations).sum_eq]

/-! ## The summaries of a listing -/

def groupOf
    (sig : String) (outcomes : List TopologyOutcome) :
    List TopologyOutcome :=
  outcomes.filter fun o => o.topologySignature = sig

theorem groupOf_cons_of_eq
    {sig : String} {o : TopologyOutcome} (rest : List TopologyOutcome)
    (here : o.topologySignature = sig) :
    groupOf sig (o :: rest) = o :: groupOf sig rest :=
  List.filter_cons_of_pos (decide_eq_true here)

theorem groupOf_cons_of_ne
    {sig : String} {o : TopologyOutcome} (rest : List TopologyOutcome)
    (elsewhere : o.topologySignature ≠ sig) :
    groupOf sig (o :: rest) = groupOf sig rest :=
  List.filter_cons_of_neg (by simpa using elsewhere)

theorem getD_groups (outcomes : List TopologyOutcome) (sig : String) :
    ((groups outcomes).get? sig).getD [] =
      if sig = "" then [] else groupOf sig outcomes := by
  unfold groups groupOf
  rw [OrderedMap.getD_gather, List.filter_map, List.map_map,
    List.filter_filter]
  by_cases noSignature : sig = ""
  · subst noSignature
    simp
  · rw [if_neg noSignature]
    simp only [Function.comp_def, List.map_id']
    apply List.filter_congr
    intro o _
    by_cases here : o.topologySignature = sig
    · simp [here, noSignature]
    · simp [here]

theorem get?_groups_iff
    {outcomes : List TopologyOutcome} {sig : String}
    {items : List TopologyOutcome} :
    (groups outcomes).get? sig = some items ↔
      sig ≠ "" ∧ items = groupOf sig outcomes ∧ items ≠ [] := by
  have listed := getD_groups outcomes sig
  constructor
  · intro found
    have nonempty : items ≠ [] := OrderedMap.ne_nil_of_get?_gather found
    rw [found, Option.getD_some] at listed
    split_ifs at listed with noSignature
    · exact absurd listed nonempty
    · exact ⟨noSignature, listed, nonempty⟩
  · rintro ⟨signed, rfl, nonempty⟩
    rw [if_neg signed] at listed
    cases found : (groups outcomes).get? sig with
    | none =>
        rw [found] at listed
        exact absurd listed.symm nonempty
    | some items =>
        rw [found] at listed
        exact congrArg some listed

/-- The summaries are those of the signatures that have an outcome. -/
theorem mem_aggregate_iff
    {outcomes : List TopologyOutcome} {p : TopologyPerformance} :
    p ∈ aggregateTopologyPerformance mean outcomes ↔
      ∃ sig, sig ≠ "" ∧ groupOf sig outcomes ≠ [] ∧
        p = summarize mean sig (groupOf sig outcomes) := by
  unfold aggregateTopologyPerformance ranked
  rw [List.mem_insertionSort, List.mem_map]
  constructor
  · rintro ⟨⟨sig, items⟩, member, rfl⟩
    obtain ⟨signed, rfl, nonempty⟩ :=
      get?_groups_iff.mp (OrderedMap.get?_of_mem member)
    exact ⟨sig, signed, nonempty, rfl⟩
  · rintro ⟨sig, signed, nonempty, rfl⟩
    exact ⟨(sig, groupOf sig outcomes), OrderedMap.mem_of_get?
      (get?_groups_iff.mpr ⟨signed, rfl, nonempty⟩), rfl⟩

/-- Every signature has one summary. -/
theorem nodup_aggregate
    (mean : List Rat → Rat) (outcomes : List TopologyOutcome) :
    (aggregateTopologyPerformance mean outcomes).Nodup := by
  have signatures : (((groups outcomes).entries.map fun group =>
      summarize mean group.1 group.2).map
        TopologyPerformance.topologySignature).Nodup := by
    rw [List.map_map]
    exact (groups outcomes).keysNodup
  have distinct := List.Nodup.of_map _ signatures
  exact (List.perm_insertionSort _ _).nodup_iff.mpr distinct

theorem get?_performanceLookup
    (mean : List Rat → Rat) (outcomes : List TopologyOutcome)
    (skeletonId : String) :
    (performanceLookup mean outcomes).get? skeletonId =
      (variants mean outcomes skeletonId).getLast? := by
  unfold performanceLookup variants
  rw [OrderedMap.get?_ofList, List.filter_map, List.getLast?_map,
    Option.map_map]
  simp [Function.comp_def]

theorem mem_variants_iff
    {outcomes : List TopologyOutcome} {skeletonId : String}
    {p : TopologyPerformance} :
    p ∈ variants mean outcomes skeletonId ↔
      ∃ sig first rest, sig ≠ "" ∧
        groupOf sig outcomes = first :: rest ∧
          first.skeletonId = skeletonId ∧
            p = summarize mean sig (first :: rest) := by
  unfold variants
  rw [List.mem_filter, decide_eq_true_eq, mem_aggregate_iff]
  constructor
  · rintro ⟨⟨sig, signed, nonempty, rfl⟩, skeleton⟩
    obtain ⟨first, rest, shape⟩ := List.exists_cons_of_ne_nil nonempty
    rw [shape] at skeleton ⊢
    exact ⟨sig, first, rest, signed, shape, skeleton, rfl⟩
  · rintro ⟨sig, first, rest, signed, shape, skeleton, rfl⟩
    refine ⟨⟨sig, signed, ?_, ?_⟩, skeleton⟩
    · rw [shape]
      exact List.cons_ne_nil first rest
    · rw [shape]

theorem nodup_variants
    (mean : List Rat → Rat) (outcomes : List TopologyOutcome)
    (skeletonId : String) :
    (variants mean outcomes skeletonId).Nodup :=
  (nodup_aggregate mean outcomes).filter _

theorem mem_variants_of_first
    (mean : List Rat → Rat) {first : TopologyOutcome}
    (rest : List TopologyOutcome)
    (signed : first.topologySignature ≠ "") :
    summarize mean first.topologySignature
        (groupOf first.topologySignature (first :: rest)) ∈
      variants mean (first :: rest) first.skeletonId := by
  have shape := groupOf_cons_of_eq rest (rfl :
    first.topologySignature = first.topologySignature)
  refine mem_variants_iff.mpr ⟨first.topologySignature, first,
    groupOf first.topologySignature rest, signed, shape, rfl, ?_⟩
  rw [shape]

/-- Whatever the orders of two listings, the generation service uses for the
skeleton what `get_performance_for_skeleton` returns. -/
def UsesItsRecord
    (mean : List Rat → Rat) (outcomes : List TopologyOutcome)
    (skeletonId : String) : Prop :=
  ∀ used listed : List TopologyOutcome,
    used.Perm outcomes → listed.Perm outcomes →
      (performanceLookup mean used).get? skeletonId =
        getPerformanceForSkeleton mean listed skeletonId

/-- The signed outcomes of the skeleton are those of one signature, and they
agree on the workflow class. -/
def SingleVariant
    (outcomes : List TopologyOutcome) (skeletonId : String) : Prop :=
  ∀ o ∈ outcomes, o.topologySignature ≠ "" →
    o.skeletonId = skeletonId →
      ∀ other ∈ outcomes,
        (other.topologySignature ≠ "" → other.skeletonId = skeletonId →
          other.topologySignature = o.topologySignature) ∧
        (other.topologySignature = o.topologySignature →
          other.skeletonId = skeletonId ∧
            other.workflowClass = o.workflowClass)

/-- The means of the outcomes with a signature of the skeleton do not depend
on the order in which they are summed up. -/
def OrderlessMeans
    (mean : List Rat → Rat) (outcomes : List TopologyOutcome)
    (skeletonId : String) : Prop :=
  ∀ o ∈ outcomes, o.topologySignature ≠ "" →
    o.skeletonId = skeletonId →
      MeansAlike mean (groupOf o.topologySignature outcomes)

section Exactness

variable {outcomes : List TopologyOutcome} {skeletonId : String}

theorem exists_listing_from
    {o : TopologyOutcome} (member : o ∈ outcomes) :
    ∃ rest, (o :: rest).Perm outcomes := by
  obtain ⟨before, after, rfl⟩ := List.append_of_mem member
  exact ⟨before ++ after, List.perm_middle.symm⟩

/-- A listing for which both ways agree has at most one variant. -/
theorem UsesItsRecord.length_variants
    (right : UsesItsRecord mean outcomes skeletonId)
    {listing : List TopologyOutcome} (listed : listing.Perm outcomes) :
    (variants mean listing skeletonId).length ≤ 1 := by
  apply length_le_one_of_head?_eq_getLast? (nodup_variants _ _ _)
  have same := right listing listing listed listed
  rw [get?_performanceLookup] at same
  exact same.symm

theorem eq_of_mem_of_length_le_one
    {α : Type} {items : List α} {first second : α}
    (short : items.length ≤ 1) (inItems : first ∈ items)
    (otherInItems : second ∈ items) : first = second := by
  match items, short with
  | [item], _ =>
      rw [List.mem_singleton.mp inItems, List.mem_singleton.mp otherInItems]

theorem UsesItsRecord.sameSignature
    (right : UsesItsRecord mean outcomes skeletonId)
    {o other : TopologyOutcome} (member : o ∈ outcomes)
    (otherMember : other ∈ outcomes)
    (signed : o.topologySignature ≠ "")
    (otherSigned : other.topologySignature ≠ "")
    (skeleton : o.skeletonId = skeletonId)
    (otherSkeleton : other.skeletonId = skeletonId) :
    other.topologySignature = o.topologySignature := by
  by_contra different
  obtain ⟨rest, listed⟩ := exists_listing_from member
  have inRest : other ∈ rest := by
    rcases List.mem_cons.mp (listed.mem_iff.mpr otherMember) with
      rfl | later
    · exact absurd rfl different
    · exact later
  -- both signatures come first in a listing that starts with the two
  obtain ⟨others, reordered⟩ := exists_listing_from inRest
  have short := right.length_variants ((reordered.cons o).trans listed)
  have variant := mem_variants_of_first mean (other :: others) signed
  have otherShape : groupOf other.topologySignature
      (o :: other :: others) =
        other :: groupOf other.topologySignature others := by
    rw [groupOf_cons_of_ne _ (Ne.symm different), groupOf_cons_of_eq _ rfl]
  have otherVariant : summarize mean other.topologySignature
      (other :: groupOf other.topologySignature others) ∈
        variants mean (o :: other :: others) skeletonId :=
    mem_variants_iff.mpr ⟨other.topologySignature, other,
      groupOf other.topologySignature others, otherSigned, otherShape,
      otherSkeleton, rfl⟩
  rw [skeleton] at variant
  have same := eq_of_mem_of_length_le_one short otherVariant variant
  exact different (congrArg TopologyPerformance.topologySignature same)

theorem UsesItsRecord.sameSkeleton
    (right : UsesItsRecord mean outcomes skeletonId)
    {o other : TopologyOutcome} (member : o ∈ outcomes)
    (otherMember : other ∈ outcomes)
    (signed : o.topologySignature ≠ "")
    (skeleton : o.skeletonId = skeletonId)
    (sameSignature : other.topologySignature = o.topologySignature) :
    other.skeletonId = skeletonId ∧
      other.workflowClass = o.workflowClass := by
  obtain ⟨rest, listed⟩ := exists_listing_from member
  obtain ⟨others, otherListed⟩ := exists_listing_from otherMember
  have short := right.length_variants listed
  have variant := mem_variants_of_first mean rest signed
  rw [skeleton] at variant
  have used : (variants mean (o :: rest) skeletonId).getLast? =
      some (summarize mean o.topologySignature
        (groupOf o.topologySignature (o :: rest))) := by
    cases last : (variants mean (o :: rest) skeletonId).getLast? with
    | none =>
        rw [List.getLast?_eq_none_iff.mp last] at variant
        cases variant
    | some p =>
        rw [eq_of_mem_of_length_le_one short
          (List.mem_of_getLast? last) variant]
  have same := right (o :: rest) (other :: others) listed otherListed
  rw [get?_performanceLookup, used] at same
  obtain ⟨sig, first, tail, _, shape, firstSkeleton, equal⟩ :=
    mem_variants_iff.mp (List.mem_of_mem_head? same.symm)
  have sameSig : o.topologySignature = sig :=
    congrArg TopologyPerformance.topologySignature equal
  have firstOther : first = other := by
    rw [groupOf_cons_of_eq _ (sameSignature.trans sameSig)] at shape
    exact (List.cons.inj shape).1.symm
  subst firstOther
  have workflow := congrArg TopologyPerformance.workflowClass equal
  rw [groupOf_cons_of_eq rest rfl] at workflow
  exact ⟨firstSkeleton, workflow.symm⟩

/-- A property all items have in common is that of the first one. -/
theorem head?_map_of_forall
    {α β : Type} {items : List α} {property : α → β} {value : β}
    (nonempty : items ≠ [])
    (common : ∀ item ∈ items, property item = value) :
    items.head?.map property = some value := by
  obtain ⟨first, rest, rfl⟩ := List.exists_cons_of_ne_nil nonempty
  exact congrArg some (common first List.mem_cons_self)

theorem SingleVariant.of_perm
    (single : SingleVariant outcomes skeletonId)
    {listing : List TopologyOutcome} (listed : listing.Perm outcomes) :
    SingleVariant listing skeletonId :=
  fun o member signed skeleton other otherMember =>
    single o (listed.mem_iff.mp member) signed skeleton other
      (listed.mem_iff.mp otherMember)

theorem SingleVariant.variants_eq
    (single : SingleVariant outcomes skeletonId)
    {o : TopologyOutcome} (member : o ∈ outcomes)
    (signed : o.topologySignature ≠ "")
    (skeleton : o.skeletonId = skeletonId) :
    variants mean outcomes skeletonId =
      [summarize mean o.topologySignature
        (groupOf o.topologySignature outcomes)] := by
  have inGroup : o ∈ groupOf o.topologySignature outcomes :=
    List.mem_filter.mpr ⟨member, decide_eq_true rfl⟩
  obtain ⟨first, rest, shape⟩ :=
    List.exists_cons_of_ne_nil (List.ne_nil_of_mem inGroup)
  have group {sig : String} {head : TopologyOutcome}
      {tail : List TopologyOutcome}
      (grouped : groupOf sig outcomes = head :: tail) :
      head ∈ outcomes ∧ head.topologySignature = sig := by
    have inOutcomes : head ∈ groupOf sig outcomes := by
      rw [grouped]
      exact List.mem_cons_self
    simpa [groupOf] using inOutcomes
  apply List.perm_singleton.mp
  refine (List.perm_ext_iff_of_nodup (nodup_variants _ _ _)
    (List.nodup_singleton _)).mpr ?_
  intro p
  rw [mem_variants_iff, List.mem_singleton]
  constructor
  · rintro ⟨sig, head, tail, isSigned, grouped, ownSkeleton, rfl⟩
    obtain ⟨headMember, rfl⟩ := group grouped
    have sameSignature := (single o member signed skeleton head
      headMember).1 isSigned ownSkeleton
    rw [← grouped, sameSignature]
  · rintro rfl
    obtain ⟨firstMember, firstSignature⟩ := group shape
    have firstSkeleton := ((single o member signed skeleton first
      firstMember).2 firstSignature).1
    rw [shape]
    exact ⟨o.topologySignature, first, rest, signed, shape, firstSkeleton,
      rfl⟩

/-- Every order of the outcomes of a signature is that of some listing. -/
theorem exists_listing_of_order
    {sig : String} {order : List TopologyOutcome}
    (reordered : order.Perm (groupOf sig outcomes)) :
    ∃ listing : List TopologyOutcome,
      listing.Perm outcomes ∧ groupOf sig listing = order := by
  refine ⟨order ++ outcomes.filter fun o => ¬ o.topologySignature = sig,
    ?_, ?_⟩
  · have split := List.filter_append_perm
      (fun o : TopologyOutcome => decide (o.topologySignature = sig))
      outcomes
    simp only [← decide_not] at split
    exact (reordered.append_right _).trans split
  · have own : groupOf sig order = order := by
      apply List.filter_eq_self.mpr
      intro o member
      exact (List.mem_filter.mp (reordered.mem_iff.mp member)).2
    have others : groupOf sig
        (outcomes.filter fun o => ¬ o.topologySignature = sig) = [] := by
      apply List.filter_eq_nil_iff.mpr
      intro o member
      simpa using (List.mem_filter.mp member).2
    have both : groupOf sig
        (order ++ outcomes.filter fun o => ¬ o.topologySignature = sig) =
          groupOf sig order ++ groupOf sig
            (outcomes.filter fun o => ¬ o.topologySignature = sig) :=
      List.filter_append ..
    rw [both, own, others, List.append_nil]

theorem UsesItsRecord.orderlessMeans
    (right : UsesItsRecord mean outcomes skeletonId)
    (single : SingleVariant outcomes skeletonId) :
    OrderlessMeans mean outcomes skeletonId := by
  intro o member signed skeleton order reordered
  obtain ⟨listing, listed, group⟩ := exists_listing_of_order reordered
  have same := right listing outcomes listed (.refl _)
  rw [get?_performanceLookup, getPerformanceForSkeleton,
    (single.of_perm listed).variants_eq (listed.mem_iff.mpr member) signed
      skeleton, single.variants_eq member signed skeleton, group] at same
  have equal : summarize mean o.topologySignature order =
      summarize mean o.topologySignature
        (groupOf o.topologySignature outcomes) := Option.some.inj same
  have inGroup : o ∈ groupOf o.topologySignature outcomes :=
    List.mem_filter.mpr ⟨member, decide_eq_true rfl⟩
  have nonempty : 0 < (groupOf o.topologySignature outcomes).length :=
    List.length_pos_of_mem inGroup
  have orderNonempty : 0 < order.length := by
    rw [reordered.length_eq]
    exact nonempty
  refine ⟨congrArg TopologyPerformance.meanLatencySeconds equal, ?_⟩
  rw [← meanCost_summarize o.topologySignature orderNonempty, equal,
    meanCost_summarize o.topologySignature nonempty]

theorem SingleVariant.summarize_eq
    (single : SingleVariant outcomes skeletonId)
    (orderless : OrderlessMeans mean outcomes skeletonId)
    {o : TopologyOutcome} (member : o ∈ outcomes)
    (signed : o.topologySignature ≠ "")
    (skeleton : o.skeletonId = skeletonId)
    {used listed : List TopologyOutcome}
    (usedListing : used.Perm outcomes)
    (otherListing : listed.Perm outcomes) :
    summarize mean o.topologySignature (groupOf o.topologySignature used) =
      summarize mean o.topologySignature
        (groupOf o.topologySignature listed) := by
  have inGroup {listing : List TopologyOutcome}
      (isListing : listing.Perm outcomes) :
      groupOf o.topologySignature listing ≠ [] :=
    List.ne_nil_of_mem (List.mem_filter.mpr
      ⟨isListing.mem_iff.mpr member, decide_eq_true rfl⟩)
  have common {listing : List TopologyOutcome}
      (isListing : listing.Perm outcomes) :
      ∀ item ∈ groupOf o.topologySignature listing,
        item.skeletonId = skeletonId ∧
          item.workflowClass = o.workflowClass := by
    intro item inListing
    obtain ⟨itemMember, signature⟩ := List.mem_filter.mp inListing
    exact (single o member signed skeleton item
      (isListing.mem_iff.mp itemMember)).2 (of_decide_eq_true signature)
  have alike : MeansAlike mean (groupOf o.topologySignature listed) := by
    intro order reordered
    have grouped : (groupOf o.topologySignature listed).Perm
        (groupOf o.topologySignature outcomes) := otherListing.filter _
    have means := orderless o member signed skeleton
    exact ⟨(means order (reordered.trans grouped)).1.trans
        (means _ grouped).1.symm,
      (means order (reordered.trans grouped)).2.trans
        (means _ grouped).2.symm⟩
  have grouped : (groupOf o.topologySignature used).Perm
      (groupOf o.topologySignature listed) :=
    (usedListing.trans otherListing.symm).filter _
  apply summarize_eq_of_perm o.topologySignature grouped alike
  · rw [head?_map_of_forall (inGroup usedListing)
      fun item inListing => (common usedListing item inListing).1,
      head?_map_of_forall (inGroup otherListing)
      fun item inListing => (common otherListing item inListing).1]
  · rw [head?_map_of_forall (inGroup usedListing)
      fun item inListing => (common usedListing item inListing).2,
      head?_map_of_forall (inGroup otherListing)
      fun item inListing => (common otherListing item inListing).2]

end Exactness

/-- Exactly the skeletons with a single variant, whose means do not depend on
the order, are ranked with the record that `get_performance_for_skeleton`
returns. -/
theorem usesItsRecord_iff
    (mean : List Rat → Rat) (outcomes : List TopologyOutcome)
    (skeletonId : String) :
    UsesItsRecord mean outcomes skeletonId ↔
      SingleVariant outcomes skeletonId ∧
        OrderlessMeans mean outcomes skeletonId := by
  constructor
  · intro right
    have single : SingleVariant outcomes skeletonId := by
      intro o member signed skeleton other otherMember
      constructor
      · intro otherSigned otherSkeleton
        exact right.sameSignature member otherMember signed otherSigned
          skeleton otherSkeleton
      · intro sameSignature
        exact right.sameSkeleton member otherMember signed skeleton
          sameSignature
    exact ⟨single, right.orderlessMeans single⟩
  · rintro ⟨single, orderless⟩ used listed usedListing otherListing
    rw [get?_performanceLookup]
    unfold getPerformanceForSkeleton
    by_cases present : ∃ o ∈ outcomes,
        o.topologySignature ≠ "" ∧ o.skeletonId = skeletonId
    · obtain ⟨o, member, signed, skeleton⟩ := present
      rw [(single.of_perm usedListing).variants_eq
          (usedListing.mem_iff.mpr member) signed skeleton,
        (single.of_perm otherListing).variants_eq
          (otherListing.mem_iff.mpr member) signed skeleton,
        single.summarize_eq orderless member signed skeleton usedListing
          otherListing]
      rfl
    · have none {listing : List TopologyOutcome}
          (isListing : listing.Perm outcomes) :
          variants mean listing skeletonId = [] := by
        rw [List.eq_nil_iff_forall_not_mem]
        intro p member
        obtain ⟨sig, first, rest, signed, shape, skeleton, _⟩ :=
          mem_variants_iff.mp member
        have inGroup : first ∈ groupOf sig listing := by
          rw [shape]
          exact List.mem_cons_self
        obtain ⟨inListing, signature⟩ := List.mem_filter.mp inGroup
        rw [decide_eq_true_eq] at signature
        rw [← signature] at signed
        exact present ⟨first, isListing.mem_iff.mp inListing, signed,
          skeleton⟩
      rw [none usedListing, none otherListing]
      rfl

end Mean

/-- One skeleton with a variant that always succeeds and one that always
fails. -/
def twoVariants : List TopologyOutcome :=
  [{ skeletonId := "skel"
     workflowClass := "delivery"
     topologySignature := "skel"
     success := true },
    { skeletonId := "skel"
      workflowClass := "delivery"
      topologySignature := "skel::rule" }]

/-- The mean without any rounding. -/
def exactMean (values : List Rat) : Rat :=
  values.sum / values.length

/-- The templates are ranked with the failing variant, while the best one is
returned for the skeleton. -/
theorem worst_variant_is_used :
    ((performanceLookup exactMean twoVariants).get? "skel").map
          TopologyPerformance.successRate = some 0 ∧
      (getPerformanceForSkeleton exactMean twoVariants "skel").map
          TopologyPerformance.successRate = some 1 ∧
      ¬ UsesItsRecord exactMean twoVariants "skel" := by
  have used : ((performanceLookup exactMean twoVariants).get? "skel").map
      TopologyPerformance.successRate = some 0 := by
    decide +kernel
  have best : (getPerformanceForSkeleton exactMean twoVariants "skel").map
      TopologyPerformance.successRate = some 1 := by
    decide +kernel
  refine ⟨used, best, ?_⟩
  intro right
  have same := right twoVariants twoVariants (.refl _) (.refl _)
  rw [same, best] at used
  revert used
  decide

end Agentcy.Topology
