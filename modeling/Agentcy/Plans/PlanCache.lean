import Agentcy.Library.IsoTime
import Agentcy.Library.JsonText
import Agentcy.Library.Sha256
import Agentcy.Plans.PlanDrafts

/-!
# The plan cache

The key of a valid plan is made from a hash of its graph, and then written
into the graph together with the time.  The next run hashes what the last one
wrote.
-/

namespace Agentcy.Plans

open Agentcy.Library
open Agentcy.Library.JsonText

/-- `isoformat()` of a time in UTC, which leaves out a fraction of zero. -/
def isoformat (time : UtcTime) : String :=
  let secondFormat : TimeFormat :=
    [(4, '-'), (2, '-'), (2, 'T'), (2, ':'), (2, ':'), (2, '+')]
  let microsecondFormat : TimeFormat :=
    [(4, '-'), (2, '-'), (2, 'T'), (2, ':'), (2, ':'), (2, '.'), (6, '+')]
  let digits :=
    if time.microsecond = 0 then render secondFormat time.moment
    else render microsecondFormat time.moment
  String.ofList (digits ++ ['0', '0', ':', '0', '0'])

section Service

-- `float.__repr__`
variable (floatRepr : Rat → List Char)

/-- The hash of a graph: of its text with sorted keys in UTF-8. -/
def graphDigest (graph : Fields) : List Char :=
  Sha256.hexdigest
    ((dumps floatRepr (.dict graph)).flatMap String.utf8EncodeChar)

/-- `_cache_key`. -/
def cacheKeyOf (draft : PlanDraft) : String :=
  draft.pipelineId ++ ":" ++ draft.planId ++ ":" ++
    String.ofList (graphDigest floatRepr draft.graphSpec)

def cacheEntry (cacheKey : String) (now : UtcTime) : Json :=
  .dict
    [("cache_key", .str cacheKey), ("cached_at", .str (isoformat now))]

def PlanDraft.writeCache
    (draft : PlanDraft) (cacheKey : String) (now : UtcTime) : PlanDraft :=
  { draft with
    cached := true
    graphSpec := draft.graphSpec.set "cache" (cacheEntry cacheKey now) }

/-- `cache_plan_draft` at a time: the draft that is stored after it, and the
key it returns.  A draft that is not valid is skipped. -/
def cachePlanDraft
    (draft : PlanDraft) (now : UtcTime) : PlanDraft × Option String :=
  if draft.isValid then
    let cacheKey := cacheKeyOf floatRepr draft
    (draft.writeCache cacheKey now, some cacheKey)
  else (draft, none)

/-- The stored draft after a number of runs; run `n` reads the clock at
`clock n`. -/
def afterRuns
    (clock : Nat → UtcTime) (draft : PlanDraft) : Nat → PlanDraft
  | 0 => draft
  | n + 1 => (cachePlanDraft floatRepr (afterRuns clock draft n) (clock n)).1

/-- The key that run `n` returns. -/
def keyOfRun
    (clock : Nat → UtcTime) (draft : PlanDraft) (n : Nat) : Option String :=
  (cachePlanDraft floatRepr (afterRuns floatRepr clock draft n) (clock n)).2

/-- All runs return one key. -/
def RunsAgree (draft : PlanDraft) : Prop :=
  ∀ clock n, keyOfRun floatRepr clock draft n =
    keyOfRun floatRepr clock draft 0

/-- The draft itself, or the draft with an entry as the service writes it. -/
def DiffersInEntry (draft variant : PlanDraft) : Prop :=
  variant = draft ∨
    ∃ cacheKey time, variant = draft.writeCache cacheKey time

/-- Drafts that differ only in the entry get one key. -/
def EntryIsIgnored (draft : PlanDraft) : Prop :=
  ∀ first second now later,
    DiffersInEntry draft first → DiffersInEntry draft second →
      (cachePlanDraft floatRepr first now).2 =
        (cachePlanDraft floatRepr second later).2

/-- Two graphs have one hash only if they have one text. -/
def ToldApart (first second : Fields) : Prop :=
  graphDigest floatRepr first = graphDigest floatRepr second →
    dumps floatRepr (.dict first) = dumps floatRepr (.dict second)

end Service

theorem escapeChar_digit (number : Nat) :
    escapeChar (Nat.digitChar (number % 10)) =
      [Nat.digitChar (number % 10)] := by
  have digits : ∀ digit : Fin 10,
      escapeChar (Nat.digitChar digit.val) = [Nat.digitChar digit.val] := by
    decide
  exact digits ⟨number % 10, Nat.mod_lt number (by decide)⟩

theorem escape_padded (width number : Nat) :
    (padded width number).flatMap escapeChar = padded width number := by
  induction width generalizing number with
  | zero =>
      rfl
  | succ width inductionHypothesis =>
      rw [padded, List.flatMap_append, inductionHypothesis,
        List.flatMap_singleton, escapeChar_digit]

theorem escape_render
    {format : TimeFormat} (numbers : List Nat)
    (marks : ∀ part ∈ format, escapeChar part.2 = [part.2]) :
    (render format numbers).flatMap escapeChar = render format numbers := by
  induction format generalizing numbers with
  | nil =>
      cases numbers with
      | nil => rfl
      | cons _ _ => rfl
  | cons part format inductionHypothesis =>
      obtain ⟨width, mark⟩ := part
      cases numbers with
      | nil =>
          rfl
      | cons number numbers =>
          have plain : escapeChar mark = [mark] :=
            marks (width, mark) List.mem_cons_self
          rw [render, List.flatMap_append, List.flatMap_cons,
            escape_padded, plain, inductionHypothesis numbers fun other
              member => marks other (List.mem_cons_of_mem _ member)]
          rfl

theorem escape_isoformat (time : UtcTime) :
    (isoformat time).toList.flatMap escapeChar =
      (isoformat time).toList := by
  unfold isoformat
  rw [String.toList_ofList, List.flatMap_append]
  split
  · rw [escape_render _ (by decide)]
    rfl
  · rw [escape_render _ (by decide)]
    rfl

variable {floatRepr : Rat → List Char}

/-- Entries of one key with one text carry one time. -/
theorem isoformat_of_dumps_cacheEntry
    {cacheKey : String} {first second : UtcTime}
    (same : dumps floatRepr (cacheEntry cacheKey first) =
      dumps floatRepr (cacheEntry cacheKey second)) :
    isoformat first = isoformat second := by
  have texts : dumps floatRepr (.str (isoformat first)) =
      dumps floatRepr (.str (isoformat second)) :=
    @dumps_of_dumps_set floatRepr [("cache_key", .str cacheKey)] "cached_at"
      _ _ same
  rw [dumps, dumps, quoted, quoted, escape_isoformat, escape_isoformat,
    List.cons_append, List.cons_append] at texts
  exact String.ext (List.append_cancel_right (List.cons.inj texts).2)

theorem cachePlanDraft_of_invalid
    {draft : PlanDraft} (invalid : draft.isValid = false) (now : UtcTime) :
    cachePlanDraft floatRepr draft now = (draft, none) := by
  rw [cachePlanDraft, invalid]
  rfl

theorem cachePlanDraft_of_valid
    {draft : PlanDraft} (valid : draft.isValid = true) (now : UtcTime) :
    cachePlanDraft floatRepr draft now =
      (draft.writeCache (cacheKeyOf floatRepr draft) now,
        some (cacheKeyOf floatRepr draft)) :=
  if_pos valid

/-- Drafts of one plan with one key have one hash. -/
theorem graphDigest_of_cacheKeyOf
    {draft other : PlanDraft}
    (samePipeline : draft.pipelineId = other.pipelineId)
    (samePlan : draft.planId = other.planId)
    (same : cacheKeyOf floatRepr draft = cacheKeyOf floatRepr other) :
    graphDigest floatRepr draft.graphSpec =
      graphDigest floatRepr other.graphSpec := by
  have lists := congrArg String.toList same
  unfold cacheKeyOf at lists
  simp only [samePipeline, samePlan, String.toList_append,
    String.toList_ofList] at lists
  exact List.append_cancel_left lists

/-- The second run of a valid draft returns the first key again only if the
hashes agree. -/
theorem graphDigest_of_runsAgree
    {draft : PlanDraft} (valid : draft.isValid = true)
    (agree : RunsAgree floatRepr draft) (time : UtcTime) :
    graphDigest floatRepr
        (draft.graphSpec.set "cache"
          (cacheEntry (cacheKeyOf floatRepr draft) time)) =
      graphDigest floatRepr draft.graphSpec := by
  have keys := agree (fun _ => time) 1
  have firstRun := @cachePlanDraft_of_valid floatRepr draft valid time
  have stored : afterRuns floatRepr (fun _ => time) draft 1 =
      draft.writeCache (cacheKeyOf floatRepr draft) time := by
    rw [afterRuns, afterRuns, firstRun]
  have stillValid : (draft.writeCache (cacheKeyOf floatRepr draft)
      time).isValid = true := valid
  rw [keyOfRun, keyOfRun, stored, afterRuns, firstRun,
    cachePlanDraft_of_valid stillValid] at keys
  have sameKey : cacheKeyOf floatRepr
      (draft.writeCache (cacheKeyOf floatRepr draft) time) =
        cacheKeyOf floatRepr draft :=
    Option.some.inj keys
  exact @graphDigest_of_cacheKeyOf floatRepr
    (draft.writeCache (cacheKeyOf floatRepr draft) time) draft rfl rfl
    sameKey

/-- A draft whose graphs with two different times are told apart by the hash
is cached idempotently only if it is not valid, and thus not cached at all. -/
theorem idempotent_iff_invalid
    (draft : PlanDraft) {first second : UtcTime}
    (differ : isoformat first ≠ isoformat second)
    (apart : ToldApart floatRepr
      (draft.graphSpec.set "cache"
        (cacheEntry (cacheKeyOf floatRepr draft) first))
      (draft.graphSpec.set "cache"
        (cacheEntry (cacheKeyOf floatRepr draft) second))) :
    RunsAgree floatRepr draft ∧ EntryIsIgnored floatRepr draft ↔
      draft.isValid = false := by
  constructor
  · rintro ⟨agree, _⟩
    rw [← Bool.not_eq_true]
    intro valid
    have sameHash :=
      (graphDigest_of_runsAgree valid agree first).trans
        (graphDigest_of_runsAgree valid agree second).symm
    have sameEntry := dumps_of_dumps_set (apart sameHash)
    exact differ (isoformat_of_dumps_cacheEntry sameEntry)
  · intro invalid
    constructor
    · intro clock n
      have unchanged : afterRuns floatRepr clock draft n = draft := by
        induction n with
        | zero =>
            rfl
        | succ n inductionHypothesis =>
            rw [afterRuns, inductionHypothesis,
              cachePlanDraft_of_invalid invalid]
      rw [keyOfRun, keyOfRun, unchanged,
        cachePlanDraft_of_invalid invalid, afterRuns,
        cachePlanDraft_of_invalid invalid]
    · have skipped {variant : PlanDraft}
          (differs : DiffersInEntry draft variant) (now : UtcTime) :
          (cachePlanDraft floatRepr variant now).2 = none := by
        have stillInvalid : variant.isValid = false := by
          rcases differs with rfl | ⟨cacheKey, time, rfl⟩
          · exact invalid
          · exact invalid
        rw [cachePlanDraft_of_invalid stillInvalid]
      intro variant other now later differs otherDiffers
      rw [skipped differs, skipped otherDiffers]

/-! ## A plan without tasks -/

def freshPlan : PlanDraft :=
  { planId := "p1", username := "u1", pipelineId := "pipe1", isValid := true }

def earlyReading : UtcTime :=
  ⟨2026, 3, 4, 12, 5, 10, 5, by decide, by decide, by decide, by decide,
    by decide, by decide, by decide⟩

def laterReading : UtcTime :=
  ⟨2026, 3, 4, 12, 5, 11, 5, by decide, by decide, by decide, by decide,
    by decide, by decide, by decide⟩

/-- The hash tells the graphs of two cached plans apart. -/
theorem freshPlan_is_not_idempotent :
    RunsAgree (fun _ => []) freshPlan ∧
        EntryIsIgnored (fun _ => []) freshPlan ↔
      freshPlan.isValid = false := by
  have differ : isoformat earlyReading ≠ isoformat laterReading := by
    decide +kernel
  have apart : ToldApart (fun _ => [])
      (freshPlan.graphSpec.set "cache"
        (cacheEntry (cacheKeyOf (fun _ => []) freshPlan) earlyReading))
      (freshPlan.graphSpec.set "cache"
        (cacheEntry (cacheKeyOf (fun _ => []) freshPlan) laterReading)) := by
    intro same
    revert same
    decide +kernel
  exact idempotent_iff_invalid freshPlan differ apart

/-- The second run in a row returns another key than the first one, and so do
the plan before and after it was cached. -/
theorem second_key_differs :
    keyOfRun (fun _ => []) (fun _ => earlyReading) freshPlan 1 ≠
        keyOfRun (fun _ => []) (fun _ => earlyReading) freshPlan 0 ∧
      ¬ RunsAgree (fun _ => []) freshPlan ∧
        ¬ EntryIsIgnored (fun _ => []) freshPlan := by
  have differ : keyOfRun (fun _ => []) (fun _ => earlyReading) freshPlan 1 ≠
      keyOfRun (fun _ => []) (fun _ => earlyReading) freshPlan 0 := by
    decide +kernel
  refine ⟨differ, fun agree => differ (agree _ 1), fun ignored => ?_⟩
  have cached : DiffersInEntry freshPlan
      (afterRuns (fun _ => []) (fun _ => earlyReading) freshPlan 1) :=
    .inr ⟨cacheKeyOf (fun _ => []) freshPlan, earlyReading, rfl⟩
  exact differ (ignored _ _ earlyReading earlyReading cached (.inl rfl))

end Agentcy.Plans
