import Agentcy.Registry.AgentLiveness

/-!
# The coverage of capabilities

Every listed agent comes with the numbers of agents that offer its
capabilities and its tags.  These count the agents of the unfiltered listing,
each of them once, however the listing itself is filtered.
-/

namespace Agentcy.Registry

open Agentcy.Library

universe u

theorem getD_foldl_count
    {texts : List String} (nodup : texts.Nodup)
    (counts : OrderedMap String Nat) (tested : String) :
    ((texts.foldl (fun counts text =>
        counts.set text ((counts.get? text).getD 0 + 1)) counts).get?
          tested).getD 0 =
      (counts.get? tested).getD 0 + if tested ∈ texts then 1 else 0 := by
  induction texts generalizing counts with
  | nil =>
      simp
  | cons text rest inductionHypothesis =>
      obtain ⟨apart, nodup⟩ := List.nodup_cons.mp nodup
      rw [List.foldl_cons, inductionHypothesis nodup]
      by_cases same : tested = text
      · subst same
        rw [OrderedMap.get?_set_self, if_neg apart,
          if_pos List.mem_cons_self]
        rfl
      · rw [OrderedMap.get?_set_other _ _ same]
        simp [same]

theorem getD_countTexts
    (counts : OrderedMap String Nat) (texts : List String)
    (tested : String) :
    ((countTexts counts texts).get? tested).getD 0 =
      (counts.get? tested).getD 0 +
        if tested ∈ strippedTexts texts then 1 else 0 := by
  unfold countTexts
  rw [getD_foldl_count (List.nodup_dedup _)]
  simp only [List.mem_dedup]

/-- The agents that count for a text. -/
def offering (config : RegistryPolicyConfig)
    (offered : RegistryEntry → List String) (text : String)
    (doc : EvaluatedEntry) : Bool :=
  decide (Counts config doc) &&
    decide (text ∈ strippedTexts (offered doc.entry))

theorem getD_coverageCounts
    (config : RegistryPolicyConfig) (offered : RegistryEntry → List String)
    (context : List EvaluatedEntry) (text : String) :
    ((coverageCounts config offered context).get? text).getD 0 =
      context.countP (offering config offered text) := by
  have folded : ∀ (docs : List EvaluatedEntry)
      (counts : OrderedMap String Nat),
      ((docs.foldl (fun counts doc => countTexts counts
          (offered doc.entry)) counts).get? text).getD 0 =
        (counts.get? text).getD 0 + docs.countP fun doc =>
          decide (text ∈ strippedTexts (offered doc.entry)) := by
    intro docs
    induction docs with
    | nil =>
        intro counts
        rfl
    | cons doc rest inductionHypothesis =>
        intro counts
        rw [List.foldl_cons, inductionHypothesis, getD_countTexts,
          List.countP_cons, Nat.add_assoc, Nat.add_comm (ite _ _ _)]
        simp only [decide_eq_true_eq]
  unfold coverageCounts
  rw [folded, List.countP_filter]
  refine (Nat.zero_add _).trans ?_
  refine List.countP_congr fun doc _ => ?_
  unfold offering
  rw [Bool.and_comm]

theorem get?_ownCounts
    (counts : OrderedMap String Nat) {texts : List String} {text : String}
    (among : text ∈ texts) :
    (ownCounts counts texts).get? text =
      some ((counts.get? text).getD 0) := by
  refine OrderedMap.get?_ofList_of_unique
    (List.mem_map.mpr ⟨text, among, rfl⟩) ?_
  intro other member
  obtain ⟨_, _, same⟩ := List.mem_map.mp member
  obtain ⟨rfl, rfl⟩ := Prod.mk.inj same
  rfl

theorem mem_underCovered_iff
    (counts : OrderedMap String Nat) {texts : List String} {text : String}
    (among : text ∈ texts) (least : Int) :
    text ∈ ((ownCounts counts texts).entries.filter fun held =>
        decide ((held.2 : Int) < least)).map Prod.fst ↔
      (((counts.get? text).getD 0 : Nat) : Int) < least := by
  have own := get?_ownCounts counts among
  rw [List.mem_map]
  constructor
  · rintro ⟨⟨held, count⟩, member, rfl⟩
    obtain ⟨isEntry, few⟩ := List.mem_filter.mp member
    rw [OrderedMap.get?_of_mem isEntry] at own
    rw [← Option.some.inj own]
    exact of_decide_eq_true few
  · intro few
    exact ⟨_, List.mem_filter.mpr ⟨OrderedMap.mem_of_get? own,
      decide_eq_true few⟩, rfl⟩

/-- Agents with this status count for the coverage. -/
def StatusCounts (config : RegistryPolicyConfig) (status : String) : Prop :=
  config.coverageStatusAllow = [] ∨ status ∈ config.coverageStatusAllow

instance (config : RegistryPolicyConfig) (status : String) :
    Decidable (StatusCounts config status) :=
  inferInstanceAs (Decidable (_ ∨ _))

namespace AgentRegistryStore

variable {ι : Type u} {config : RegistryPolicyConfig} {halfPower : ℚ → ℚ}
  {python : PyBuiltins} {queriedAt now : Int} {username : String}

/-- The agents of the unfiltered listing that offer a text, by their
capabilities or by their tags. -/
def countListed
    (config : RegistryPolicyConfig) (halfPower : ℚ → ℚ)
    (python : PyBuiltins) (store : AgentRegistryStore ι)
    (queriedAt now : Int) (username : String)
    (offered : RegistryEntry → List String) (text : String) : Nat :=
  (store.list config halfPower python queriedAt now username {}).countP
    fun doc =>
      decide (StatusCounts config (statusText doc.entry.status)) &&
        decide (text ∈ strippedTexts (offered doc.entry))

theorem counts_evaluateEntry_iff (entry : RegistryEntry) :
    Counts config (evaluateEntry config halfPower now entry) ↔
      (evaluateEntry config halfPower now entry).isStale = false ∧
        StatusCounts config (statusText entry.status) := by
  have unfolded : Counts config (evaluateEntry config halfPower now entry) ↔
      (evaluateEntry config halfPower now entry).isStale = false ∧
        StatusCounts config
          ((evaluateEntry config halfPower now entry).status
            ⟨fun _ => "", fun _ => .ok [], id, id⟩) := by
    constructor
    · rintro ⟨snapshot, isSnapshot, counts⟩
      obtain rfl := Option.some.inj isSnapshot
      exact counts
    · intro counts
      exact ⟨_, rfl, counts⟩
  rw [unfolded]
  refine and_congr_right fun fresh => ?_
  have alive : entry.lease.AliveAt (patience config) now := by
    by_contra dead
    rw [evaluateEntry_stale_iff.mpr dead] at fresh
    cases fresh
  rw [status_of_alive _ alive]

theorem countP_offering
    (enabled : config.enable = true) (filters : config.filterStale = true)
    (store : AgentRegistryStore ι) (offered : RegistryEntry → List String)
    (text : String) :
    (evaluateEntries config halfPower now
      (store.fetchAll queriedAt username)).countP
        (offering config offered text) =
      countListed config halfPower python store queriedAt now username
        offered text := by
  unfold countListed AgentRegistryStore.list applyRegistryPolicies
    evaluateEntries
  rw [enabled, filters]
  simp only [if_true, List.countP_filter, List.countP_map]
  refine List.countP_congr fun entry _ => ?_
  unfold offering
  simp only [Function.comp_apply, Bool.and_eq_true, decide_eq_true_eq,
    counts_evaluateEntry_iff, admits_all, and_true, Bool.true_and]
  constructor
  · rintro ⟨⟨fresh, allowed⟩, offers⟩
    exact ⟨⟨allowed, offers⟩, Bool.eq_false_iff.mp fresh⟩
  · rintro ⟨⟨allowed, offers⟩, fresh⟩
    exact ⟨⟨Bool.eq_false_iff.mpr fresh, allowed⟩, offers⟩

theorem coverage_of_listed
    (enabled : config.enable = true)
    {store : AgentRegistryStore ι} {query : AgentQuery}
    {doc : EvaluatedEntry}
    (listed : doc ∈ store.list config halfPower python queriedAt now
      username query) :
    doc.coverage = some (coverageOf config
      (coverageCounts config RegistryEntry.capabilities
        (evaluateEntries config halfPower now
          (store.fetchAll queriedAt username)))
      (coverageCounts config RegistryEntry.tags
        (evaluateEntries config halfPower now
          (store.fetchAll queriedAt username))) doc.entry) := by
  unfold AgentRegistryStore.list applyRegistryPolicies at listed
  rw [enabled] at listed
  simp only [if_true] at listed
  obtain ⟨evaluated, _, rfl⟩ := List.mem_map.mp (List.mem_of_mem_filter listed)
  rfl

/-- However a listing is filtered, what a listed agent offers is counted over
all agents that are listed without a filter and whose status counts, once for
each of them, and is under-covered where these are too few. -/
theorem coverage_counts_listed_agents
    (enabled : config.enable = true) (filters : config.filterStale = true)
    {store : AgentRegistryStore ι} {query : AgentQuery}
    {doc : EvaluatedEntry}
    (listed : doc ∈ store.list config halfPower python queriedAt now
      username query) :
    let count := countListed config halfPower python store queriedAt now
      username
    ∃ coverage, doc.coverage = some coverage ∧
      (∀ text ∈ strippedTexts doc.entry.capabilities,
        coverage.capabilityCounts.get? text =
            some (count RegistryEntry.capabilities text) ∧
          (text ∈ coverage.underCoveredCapabilities ↔
            (count RegistryEntry.capabilities text : Int) <
              config.coverageMinPerCap)) ∧
      ∀ text ∈ strippedTexts doc.entry.tags,
        coverage.tagCounts.get? text =
            some (count RegistryEntry.tags text) ∧
          (text ∈ coverage.underCoveredTags ↔
            (count RegistryEntry.tags text : Int) <
              config.coverageMinPerTag) := by
  intro count
  have counted : ∀ offered text,
      ((coverageCounts config offered
        (evaluateEntries config halfPower now
          (store.fetchAll queriedAt username))).get? text).getD 0 =
        count offered text := by
    intro offered text
    rw [getD_coverageCounts]
    exact countP_offering enabled filters store offered text
  refine ⟨_, coverage_of_listed enabled listed, ?_, ?_⟩
  · intro text among
    rw [← counted]
    exact ⟨get?_ownCounts _ among, mem_underCovered_iff _ among _⟩
  · intro text among
    rw [← counted]
    exact ⟨get?_ownCounts _ among, mem_underCovered_iff _ among _⟩

/-! ## A capability that is named twice -/

theorem planner_covered :
    ∃ doc ∈ (run (perform registrySettings) ({} : AgentRegistryStore Bool)
        [plannerRegistration]).list defaultPolicy id Cnp.plainPython 0 0
          "alice" { capability := some "plan" },
      ∃ coverage, doc.coverage = some coverage ∧
        coverage.capabilityCounts.get? "plan" = some 1 := by
  have once : countListed defaultPolicy id Cnp.plainPython
      (run (perform registrySettings) ({} : AgentRegistryStore Bool)
        [plannerRegistration]) 0 0 "alice" RegistryEntry.capabilities
        "plan" = 1 := by
    decide +kernel
  obtain ⟨doc, listed, isPlanner⟩ : ∃ doc ∈ (run
      (perform registrySettings) ({} : AgentRegistryStore Bool)
        [plannerRegistration]).list defaultPolicy id Cnp.plainPython 0 0
          "alice" { capability := some "plan" },
      doc.entry = plannerEntry := by
    refine (exists_listed_iff rfl rfl).mpr ⟨mem_fetchAll_of_getRaw ?_
      (belongsTo_docKey "alice" "planner"), by decide, by decide +kernel⟩
    rfl
  obtain ⟨coverage, isCoverage, capabilities, _⟩ :=
    coverage_counts_listed_agents rfl rfl listed
  have named : "plan" ∈ strippedTexts doc.entry.capabilities := by
    rw [isPlanner]
    decide +kernel
  refine ⟨doc, listed, coverage, isCoverage, ?_⟩
  rw [(capabilities "plan" named).1, once]

end AgentRegistryStore

end Agentcy.Registry
