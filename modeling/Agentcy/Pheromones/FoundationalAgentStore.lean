import Agentcy.Library.Clamp
import Agentcy.Library.Decay
import Agentcy.Library.OrderedMap
import Agentcy.Library.TimedRun
import Mathlib.Analysis.SpecialFunctions.Pow.Real

/-!
# Pheromones of the foundational agents

The store keeps one document for a pipeline and a plan.  A reading lets the
stored intensity decay since the document was written, an update stores a new
intensity on top of such a reading.
-/

namespace Agentcy.Pheromones

open Agentcy.Library

universe u

section Store

variable {K : Type u} [Field K] [LinearOrder K]

structure PheromoneDocument (K : Type u) where
  pipelineId : String
  planId : String
  intensity : K
  updatedAt : Option K

/-- `hasPool` is `_pool is not None`, the documents are the collection that
the pool leads to. -/
structure FoundationalAgentStore (K : Type u) where
  hasPool : Bool
  documents : OrderedMap String (PheromoneDocument K)

def pheromoneKey (pipelineId planId : String) : String :=
  "pheromone::" ++ pipelineId ++ "::" ++ planId

def pheromoneMinValue : K :=
  1 / 100

def PheromoneDocument.valueAt
    (decay : Decay K) (now : K) (document : PheromoneDocument K) : K :=
  match document.updatedAt with
  | some last =>
      decay.reading pheromoneMinValue document.intensity (now - last)
  | none => document.intensity

def pheromoneGet
    (decay : Decay K) (now : K) (pipelineId planId : String)
    (store : FoundationalAgentStore K) : K :=
  if store.hasPool then
    match store.documents.get? (pheromoneKey pipelineId planId) with
    | some document => document.valueAt decay now
    | none => 0
  else
    0

def FoundationalAgentStore.upsert
    (store : FoundationalAgentStore K) (document : PheromoneDocument K) :
    FoundationalAgentStore K :=
  let key := pheromoneKey document.pipelineId document.planId
  { store with documents := store.documents.set key document }

/-- The call takes the time that it stores before it takes, within
`pheromone_get`, the time that it reads at. -/
def pheromoneUpdate
    (decay : Decay K) (now readAt : K) (pipelineId planId : String)
    (delta maxValue minValue : K) (store : FoundationalAgentStore K) :
    K × FoundationalAgentStore K :=
  if store.hasPool then
    let current := pheromoneGet decay readAt pipelineId planId store
    let newValue := clamp (current + delta) minValue maxValue
    (newValue,
      store.upsert
        { pipelineId := pipelineId
          planId := planId
          intensity := newValue
          updatedAt := some now })
  else
    (0, store)

def pheromoneSet
    (now : K) (pipelineId planId : String) (intensity : K)
    (store : FoundationalAgentStore K) : FoundationalAgentStore K :=
  if store.hasPool then
    store.upsert
      { pipelineId := pipelineId
        planId := planId
        intensity := clamp intensity 0 1
        updatedAt := some now }
  else
    store

/-- The calls that write. -/
inductive PheromoneCall (K : Type u) where
  | update (pipelineId planId : String) (delta maxValue minValue : K)
  | set (pipelineId planId : String) (intensity : K)

def performAt
    (decay : Decay K) (store : FoundationalAgentStore K)
    (timed : K × PheromoneCall K) : FoundationalAgentStore K :=
  match timed.2 with
  | .update pipelineId planId delta maxValue minValue =>
      (pheromoneUpdate decay timed.1 timed.1 pipelineId planId delta
        maxValue minValue store).2
  | .set pipelineId planId intensity =>
      pheromoneSet timed.1 pipelineId planId intensity store

/-- The store after calls at the given times. -/
def storeAfter
    (decay : Decay K) (hasPool : Bool)
    (calls : List (K × PheromoneCall K)) : FoundationalAgentStore K :=
  run (performAt decay) ⟨hasPool, OrderedMap.empty⟩ calls

/-- No bound that the caller passes is above one. -/
def PheromoneCall.Bounded : PheromoneCall K → Prop
  | .update _ _ _ maxValue minValue => maxValue ≤ 1 ∧ minValue ≤ 1
  | .set _ _ _ => True

/-- The longer sequence has, besides the calls of the other one, updates by
zero whose bounds leave the values between zero and one alone. -/
inductive WithIdleUpdates :
    List (K × PheromoneCall K) → List (K × PheromoneCall K) → Prop where
  | nil : WithIdleUpdates [] []
  | call (timed : K × PheromoneCall K) {calls longer}
      (rest : WithIdleUpdates calls longer) :
      WithIdleUpdates (timed :: calls) (timed :: longer)
  | idle (time : K) (pipelineId planId : String) {maxValue minValue : K}
      (above : 1 ≤ maxValue) (below : minValue ≤ 0) {calls longer}
      (rest : WithIdleUpdates calls longer) :
      WithIdleUpdates calls
        ((time, .update pipelineId planId 0 maxValue minValue) :: longer)

/-- The document of a call, if there is a pool to write it to. -/
def written
    (decay : Decay K) (store : FoundationalAgentStore K)
    (timed : K × PheromoneCall K) : PheromoneDocument K :=
  match timed.2 with
  | .update pipelineId planId delta maxValue minValue =>
      { pipelineId := pipelineId
        planId := planId
        intensity :=
          clamp (pheromoneGet decay timed.1 pipelineId planId store + delta)
            minValue maxValue
        updatedAt := some timed.1 }
  | .set pipelineId planId intensity =>
      { pipelineId := pipelineId
        planId := planId
        intensity := clamp intensity 0 1
        updatedAt := some timed.1 }

theorem performAt_eq
    (decay : Decay K) (store : FoundationalAgentStore K)
    (timed : K × PheromoneCall K) :
    performAt decay store timed =
      if store.hasPool then store.upsert (written decay store timed)
      else store := by
  obtain ⟨time, call⟩ := timed
  cases call with
  | update pipelineId planId delta maxValue minValue =>
      simp only [performAt, pheromoneUpdate, written]
      split <;> rfl
  | set pipelineId planId intensity => rfl

theorem written_updatedAt
    (decay : Decay K) (store : FoundationalAgentStore K)
    (timed : K × PheromoneCall K) :
    (written decay store timed).updatedAt = some timed.1 := by
  obtain ⟨time, call⟩ := timed
  cases call <;> rfl

theorem written_intensity_le_one
    [IsStrictOrderedRing K] (decay : Decay K)
    (store : FoundationalAgentStore K) {timed : K × PheromoneCall K}
    (bounded : timed.2.Bounded) :
    (written decay store timed).intensity ≤ 1 := by
  obtain ⟨time, call⟩ := timed
  cases call with
  | update pipelineId planId delta maxValue minValue =>
      exact max_le bounded.2 ((min_le_left _ _).trans bounded.1)
  | set pipelineId planId intensity =>
      exact clamp_le_high intensity zero_le_one

/-- A call reads of the store only the intensity that it changes. -/
theorem written_congr
    {decay : Decay K} {first second : FoundationalAgentStore K}
    {timed : K × PheromoneCall K}
    (same : ∀ pipelineId planId,
      pheromoneGet decay timed.1 pipelineId planId first =
        pheromoneGet decay timed.1 pipelineId planId second) :
    written decay first timed = written decay second timed := by
  obtain ⟨time, call⟩ := timed
  cases call with
  | update pipelineId planId delta maxValue minValue =>
      simp only [written, same]
  | set pipelineId planId intensity => rfl

theorem pheromoneGet_performAt
    (decay : Decay K) (now : K) (pipelineId planId : String)
    (store : FoundationalAgentStore K) (timed : K × PheromoneCall K) :
    pheromoneGet decay now pipelineId planId
        (performAt decay store timed) =
      if store.hasPool ∧ pheromoneKey pipelineId planId =
          pheromoneKey (written decay store timed).pipelineId
            (written decay store timed).planId then
        (written decay store timed).valueAt decay now
      else
        pheromoneGet decay now pipelineId planId store := by
  rw [performAt_eq]
  by_cases pool : store.hasPool
  · rw [if_pos pool]
    simp only [pheromoneGet, FoundationalAgentStore.upsert, pool, if_true,
      OrderedMap.get?_set, true_and]
    by_cases same :
        pheromoneKey pipelineId planId =
          pheromoneKey (written decay store timed).pipelineId
            (written decay store timed).planId
    · rw [if_pos same, if_pos same]
    · rw [if_neg same, if_neg same]
  · rw [if_neg pool, if_neg fun both => pool both.1]

/-! ## Stored intensities -/

/-- Each document carries a time up to the given one and an intensity up to
one. -/
def Stored (time : K) (store : FoundationalAgentStore K) : Prop :=
  ∀ key document, store.documents.get? key = some document →
    (∃ last ≤ time, document.updatedAt = some last) ∧
      document.intensity ≤ 1

theorem stored_empty (time : K) (hasPool : Bool) :
    Stored time (⟨hasPool, OrderedMap.empty⟩ : FoundationalAgentStore K) :=
  fun _ _ found => nomatch found

theorem Stored.mono
    {time later : K} {store : FoundationalAgentStore K}
    (stored : Stored time store) (past : time ≤ later) :
    Stored later store := by
  intro key document found
  obtain ⟨⟨last, lastPast, dated⟩, small⟩ := stored key document found
  exact ⟨⟨last, lastPast.trans past, dated⟩, small⟩

theorem Stored.performed
    {time : K}
    {store : FoundationalAgentStore K} (stored : Stored time store)
    (decay : Decay K) {timed : K × PheromoneCall K}
    (later : time ≤ timed.1)
    (bound : (written decay store timed).intensity ≤ 1) :
    Stored timed.1 (performAt decay store timed) := by
  have kept : Stored timed.1 store := stored.mono later
  rw [performAt_eq]
  split
  · intro key document found
    rw [FoundationalAgentStore.upsert, OrderedMap.get?_set] at found
    split at found
    · obtain rfl := Option.some.inj found
      exact ⟨⟨timed.1, le_rfl, written_updatedAt decay store timed⟩, bound⟩
    · exact kept key document found
  · exact kept

/-- From a time on, nobody who reads can tell the two stores apart. -/
structure Alike
    (decay : Decay K) (time : K) (first second : FoundationalAgentStore K) :
    Prop where
  hasPool : first.hasPool = second.hasPool
  readings : ∀ now, time ≤ now → ∀ pipelineId planId,
    pheromoneGet decay now pipelineId planId first =
      pheromoneGet decay now pipelineId planId second

theorem Alike.performed
    {decay : Decay K} {time : K} {first second : FoundationalAgentStore K}
    (alike : Alike decay time first second) {timed : K × PheromoneCall K}
    (later : time ≤ timed.1) :
    Alike decay timed.1 (performAt decay first timed)
      (performAt decay second timed) where
  hasPool := by
    rw [performAt_eq, performAt_eq, alike.hasPool]
    split
    · exact alike.hasPool
    · exact alike.hasPool
  readings := by
    intro now past pipelineId planId
    have same : written decay first timed = written decay second timed :=
      written_congr (alike.readings timed.1 later)
    rw [pheromoneGet_performAt, pheromoneGet_performAt, same,
      alike.hasPool, alike.readings now (later.trans past)]

variable [IsStrictOrderedRing K]

theorem pheromoneMinValue_pos : 0 < (pheromoneMinValue : K) :=
  div_pos one_pos (by norm_num)

theorem Stored.pheromoneGet_mem
    {time now : K} {store : FoundationalAgentStore K}
    (stored : Stored time store) (decay : Decay K) (past : time ≤ now)
    (pipelineId planId : String) :
    0 ≤ pheromoneGet decay now pipelineId planId store ∧
      pheromoneGet decay now pipelineId planId store ≤ 1 := by
  unfold pheromoneGet
  split
  · split
    · rename_i document found
      obtain ⟨⟨last, lastPast, dated⟩, small⟩ := stored _ document found
      have age : 0 ≤ now - last := sub_nonneg.mpr (lastPast.trans past)
      simp only [PheromoneDocument.valueAt, dated]
      exact
        ⟨decay.reading_nonneg pheromoneMinValue_pos _ _,
          decay.reading_le small zero_le_one age _⟩
    · exact ⟨le_rfl, zero_le_one⟩
  · exact ⟨le_rfl, zero_le_one⟩

/-- A reading of a reading is the reading of the document itself. -/
theorem Stored.reading_pheromoneGet
    {time between now : K} {store : FoundationalAgentStore K}
    (stored : Stored time store) (decay : Decay K)
    (past : time ≤ between) (later : between ≤ now)
    (pipelineId planId : String) :
    decay.reading pheromoneMinValue
        (pheromoneGet decay between pipelineId planId store)
        (now - between) =
      pheromoneGet decay now pipelineId planId store := by
  have empty :
      decay.reading pheromoneMinValue 0 (now - between) = (0 : K) := by
    rw [Decay.reading, zero_mul, cutOff, ite_self]
  unfold pheromoneGet
  split
  · split
    · rename_i document found
      obtain ⟨⟨last, lastPast, dated⟩, _⟩ := stored _ document found
      simp only [PheromoneDocument.valueAt, dated]
      rw [decay.reading_reading pheromoneMinValue_pos _
        (sub_nonneg.mpr (lastPast.trans past)) (sub_nonneg.mpr later),
        sub_add_sub_cancel']
    · exact empty
  · exact empty

/-- An update by zero stores what is read at its time. -/
theorem Stored.written_idle
    {time between : K} {store : FoundationalAgentStore K}
    (stored : Stored time store) (decay : Decay K) (past : time ≤ between)
    (pipelineId planId : String) {maxValue minValue : K}
    (above : 1 ≤ maxValue) (below : minValue ≤ 0) :
    (written decay store
        (between,
          .update pipelineId planId 0 maxValue minValue)).intensity =
      pheromoneGet decay between pipelineId planId store := by
  obtain ⟨nonneg, le_one⟩ :=
    stored.pheromoneGet_mem decay past pipelineId planId
  simp only [written, add_zero, clamp]
  rw [min_eq_right (le_one.trans above), max_eq_right (below.trans nonneg)]

theorem Alike.idle
    {decay : Decay K} {time between : K}
    {first second : FoundationalAgentStore K}
    (alike : Alike decay time first second) (stored : Stored time second)
    (later : time ≤ between) (pipelineId planId : String)
    {maxValue minValue : K} (above : 1 ≤ maxValue) (below : minValue ≤ 0) :
    Alike decay between first
      (performAt decay second
        (between, .update pipelineId planId 0 maxValue minValue)) where
  hasPool := by
    rw [performAt_eq, alike.hasPool]
    split
    · rfl
    · rfl
  readings := by
    intro now past readPipeline readPlan
    rw [alike.readings now (later.trans past), pheromoneGet_performAt]
    split
    · rename_i both
      rw [PheromoneDocument.valueAt, written_updatedAt,
        stored.written_idle decay later pipelineId planId above below,
        ← stored.reading_pheromoneGet decay later past]
      unfold pheromoneGet
      rw [both.2]
      rfl
    · rfl

/-- The step of the two runs: the calls in both act alike, the others do not
show. -/
theorem WithIdleUpdates.alike
    {decay : Decay K} {calls longer : List (K × PheromoneCall K)}
    (idle : WithIdleUpdates calls longer)
    (bounded : ∀ timed ∈ calls, timed.2.Bounded)
    {time now : K} {first second : FoundationalAgentStore K}
    (ordered : (time :: (longer.map Prod.fst ++ [now])).Pairwise (· ≤ ·))
    (alike : Alike decay time first second)
    (stored : Stored time second) :
    Alike decay now (run (performAt decay) first calls)
        (run (performAt decay) second longer) ∧
      Stored now (run (performAt decay) second longer) := by
  induction idle generalizing time first second with
  | nil =>
      have past : time ≤ now := by simpa using ordered
      refine ⟨⟨alike.hasPool, fun later after => ?_⟩, ?_⟩
      · exact alike.readings later (past.trans after)
      · exact stored.mono past
  | call timed rest inductionHypothesis =>
      obtain ⟨first, rest⟩ := List.pairwise_cons.mp ordered
      have later : time ≤ timed.1 := first _ (by simp)
      have bound := bounded timed (List.mem_cons_self ..)
      exact
        inductionHypothesis
          (fun other member =>
            bounded other (List.mem_cons_of_mem _ member))
          rest (alike.performed later)
          (stored.performed decay later
            (written_intensity_le_one decay _ bound))
  | idle between pipelineId planId above below rest inductionHypothesis =>
      obtain ⟨first, rest⟩ := List.pairwise_cons.mp ordered
      have later : time ≤ between := first _ (by simp)
      have reads := stored.written_idle decay later pipelineId planId
        above below
      have bound := (stored.pheromoneGet_mem decay later pipelineId
        planId).2
      exact
        inductionHypothesis bounded rest
          (alike.idle stored later pipelineId planId above below)
          (stored.performed decay later (reads.trans_le bound))

/-- With bounds up to one the values read lie between zero and one, and
further updates by zero change nothing that is read or returned later. -/
theorem idle_updates_unseen
    (decay : Decay K) (hasPool : Bool)
    {calls longer : List (K × PheromoneCall K)}
    (idle : WithIdleUpdates calls longer)
    (bounded : ∀ timed ∈ calls, timed.2.Bounded) {now : K}
    (ordered : (longer.map Prod.fst ++ [now]).Pairwise (· ≤ ·))
    (pipelineId planId : String) :
    (0 ≤ pheromoneGet decay now pipelineId planId
          (storeAfter decay hasPool longer) ∧
        pheromoneGet decay now pipelineId planId
          (storeAfter decay hasPool longer) ≤ 1) ∧
      pheromoneGet decay now pipelineId planId
          (storeAfter decay hasPool longer) =
        pheromoneGet decay now pipelineId planId
          (storeAfter decay hasPool calls) ∧
      ∀ delta maxValue minValue,
        (pheromoneUpdate decay now now pipelineId planId delta maxValue
            minValue (storeAfter decay hasPool longer)).1 =
          (pheromoneUpdate decay now now pipelineId planId delta maxValue
            minValue (storeAfter decay hasPool calls)).1 := by
  obtain ⟨start, isStart⟩ := exists_start ordered
  have begins :
      Alike decay start ⟨hasPool, OrderedMap.empty⟩
        ⟨hasPool, OrderedMap.empty⟩ :=
    ⟨rfl, fun _ _ _ _ => rfl⟩
  obtain ⟨alike, stored⟩ :=
    idle.alike bounded isStart begins (stored_empty start hasPool)
  have same := (alike.readings now le_rfl pipelineId planId).symm
  refine ⟨stored.pheromoneGet_mem decay le_rfl pipelineId planId, same, ?_⟩
  intro delta maxValue minValue
  unfold storeAfter at same ⊢
  rw [pheromoneUpdate, pheromoneUpdate, same, alike.hasPool]
  split
  · rfl
  · rfl

end Store

/-- The decay with the default half-life, in seconds. -/
noncomputable def defaultDecay : Decay ℝ :=
  halving 900 (by norm_num)

section

theorem two_atLeastTwo : Nat.AtLeastTwo 2 :=
  inferInstance

attribute [local instance] two_atLeastTwo

/-- A deposit, and a first reading after one half-life. -/
noncomputable def refreshed : List (ℝ × PheromoneCall ℝ) :=
  [(0, .update "p" "q" (1 / 2) 1 0), (900, .update "p" "q" 0 1 0)]

end

theorem refresh_unseen :
    (0 ≤ pheromoneGet defaultDecay 1800 "p" "q"
          (storeAfter defaultDecay true refreshed) ∧
        pheromoneGet defaultDecay 1800 "p" "q"
          (storeAfter defaultDecay true refreshed) ≤ 1) ∧
      pheromoneGet defaultDecay 1800 "p" "q"
          (storeAfter defaultDecay true refreshed) =
        pheromoneGet defaultDecay 1800 "p" "q"
          (storeAfter defaultDecay true
            [(0, .update "p" "q" (1 / 2) 1 0)]) ∧
      ∀ delta maxValue minValue,
        (pheromoneUpdate defaultDecay 1800 1800 "p" "q" delta maxValue
            minValue (storeAfter defaultDecay true refreshed)).1 =
          (pheromoneUpdate defaultDecay 1800 1800 "p" "q" delta maxValue
            minValue
            (storeAfter defaultDecay true
              [(0, .update "p" "q" (1 / 2) 1 0)])).1 :=
  idle_updates_unseen defaultDecay true
    (.call _ (.idle 900 "p" "q" le_rfl le_rfl .nil))
    (fun timed member => by
      obtain rfl := List.mem_singleton.mp member
      exact ⟨le_rfl, zero_le_one⟩)
    (by norm_num [refreshed]) "p" "q"

/-- With a larger upper bound a value above one is read, and an update by
zero with a lower bound above zero is seen. -/
theorem bounds_of_caller_show :
    1 < pheromoneGet defaultDecay 0 "p" "q"
        (storeAfter defaultDecay true [(0, .update "p" "q" 2 2 0)]) ∧
      pheromoneGet defaultDecay 0 "p" "q"
          (storeAfter defaultDecay true
            [(0, .update "p" "q" 0 1 (1 / 2))]) ≠
        pheromoneGet defaultDecay 0 "p" "q"
          (storeAfter defaultDecay true []) := by
  have absent :
      (OrderedMap.empty : OrderedMap String (PheromoneDocument ℝ)).get?
        (pheromoneKey "p" "q") = none :=
    rfl
  have factor : defaultDecay.factor 0 = 1 := defaultDecay.factor_zero
  constructor
  · norm_num [storeAfter, run, performAt, pheromoneUpdate, pheromoneGet,
      FoundationalAgentStore.upsert, OrderedMap.get?_set_self, absent,
      PheromoneDocument.valueAt, Decay.reading, factor, cutOff, clamp,
      pheromoneMinValue]
  · norm_num [storeAfter, run, performAt, pheromoneUpdate, pheromoneGet,
      FoundationalAgentStore.upsert, OrderedMap.get?_set_self, absent,
      PheromoneDocument.valueAt, Decay.reading, factor, cutOff, clamp,
      pheromoneMinValue]

end Agentcy.Pheromones
