import Mathlib.Data.List.Dedup
import Agentcy.Agents.AgentUtils
import Agentcy.Cnp.RegistryUpdates
import Agentcy.Library.TimedRun
import Agentcy.Library.PyText

/-!
# The policy of the agent registry

Whenever entries are listed, the policy looks at the time of their last
heartbeats, takes back the status of agents that have been silent for too
long, and counts for each capability and each tag the agents that offer it.
Times and durations are numbers of ticks of one clock.
-/

namespace Agentcy.Registry

open Agentcy.Cnp (AgentStatus RegistryDoc)
open Agentcy.Library
open Agentcy.Plans (orElse)

def statusText : AgentStatus → String
  | .online => "online"
  | .idle => "idle"
  | .busy => "busy"
  | .offline => "offline"
  | .unhealthy => "unhealthy"

/-- `AgentRegistryEntry`. -/
structure RegistryEntry extends RegistryDoc where
  agentId : String
  serviceName : String
  owner : Option String
  description : Option String
  capabilities : List String
  tags : List String
  policy : Fields
  registeredAt : Int

/-- What counts of an entry as a sign of life. -/
def RegistryEntry.lease (entry : RegistryEntry) : Lease Int where
  renewed := entry.lastHeartbeat
  expires := entry.expiresAt

/-- The environment variables of the policy. -/
structure PolicyEnv where
  enable : Bool := true
  filterStale : Bool := true
  includeCoverage : Bool := true
  freshnessWarnSeconds : Int := 60
  freshnessStaleSeconds : Int := 300
  freshnessOfflineSeconds : Int := 900
  decayHalfLifeSeconds : Int := 900
  decayMinFactor : ℚ := 1 / 5
  coverageMinPerCap : Int := 1
  coverageTargetPerCap : Int := 3
  coverageMinPerTag : Int := 1
  coverageTargetPerTag : Int := 3
  coverageStatusAllow : List String := ["online", "idle", "busy"]

/-- The thresholds never decrease from one to the next. -/
structure RegistryPolicyConfig where
  enable : Bool
  filterStale : Bool
  includeCoverage : Bool
  freshnessWarnSeconds : Int
  freshnessStaleSeconds : Int
  freshnessOfflineSeconds : Int
  decayHalfLifeSeconds : Int
  decayMinFactor : ℚ
  coverageMinPerCap : Int
  coverageTargetPerCap : Int
  coverageMinPerTag : Int
  coverageTargetPerTag : Int
  coverageStatusAllow : List String
  warn_nonneg : 0 ≤ freshnessWarnSeconds
  warn_le_stale : freshnessWarnSeconds ≤ freshnessStaleSeconds
  stale_le_offline : freshnessStaleSeconds ≤ freshnessOfflineSeconds

def loadRegistryPolicyConfig (env : PolicyEnv) : RegistryPolicyConfig :=
  let warn := max 0 env.freshnessWarnSeconds
  let stale := max warn env.freshnessStaleSeconds
  let offline := max stale env.freshnessOfflineSeconds
  { enable := env.enable
    filterStale := env.filterStale
    includeCoverage := env.includeCoverage
    freshnessWarnSeconds := warn
    freshnessStaleSeconds := stale
    freshnessOfflineSeconds := offline
    decayHalfLifeSeconds := max 0 env.decayHalfLifeSeconds
    decayMinFactor := max 0 (min 1 env.decayMinFactor)
    coverageMinPerCap := max 0 env.coverageMinPerCap
    coverageTargetPerCap := max 1 env.coverageTargetPerCap
    coverageMinPerTag := max 0 env.coverageMinPerTag
    coverageTargetPerTag := max 1 env.coverageTargetPerTag
    coverageStatusAllow := env.coverageStatusAllow
    warn_nonneg := le_max_left 0 env.freshnessWarnSeconds
    warn_le_stale := le_max_left warn env.freshnessStaleSeconds
    stale_le_offline := le_max_left stale env.freshnessOfflineSeconds }

inductive FreshnessState where
  | fresh
  | warn
  | stale
  | offline
  | expired
  deriving DecidableEq

section Freshness

variable (config : RegistryPolicyConfig)

/-- `_freshness_state`, with the flags for stale and for offline. -/
def freshnessState (ageSeconds : Int) : FreshnessState × Bool × Bool :=
  if config.freshnessOfflineSeconds ≠ 0 ∧
      config.freshnessOfflineSeconds ≤ ageSeconds then
    (.offline, true, true)
  else if config.freshnessStaleSeconds ≠ 0 ∧
      config.freshnessStaleSeconds ≤ ageSeconds then
    (.stale, true, false)
  else if config.freshnessWarnSeconds ≠ 0 ∧
      config.freshnessWarnSeconds ≤ ageSeconds then
    (.warn, false, false)
  else (.fresh, false, false)

/-- `_freshness_score`. -/
def freshnessScore (ageSeconds : Int) : ℚ :=
  if config.freshnessStaleSeconds ≤ 0 then 1
  else max 0 (min 1 (1 - ageSeconds / config.freshnessStaleSeconds))

/-- `_decay_factor`.  `halfPower` is `math.pow(0.5, ...)`. -/
def decayFactor (halfPower : ℚ → ℚ) (ageSeconds : Int) : ℚ :=
  if config.decayHalfLifeSeconds ≤ 0 then 1
  else
    max config.decayMinFactor
      (min 1 (halfPower (ageSeconds / config.decayHalfLifeSeconds)))

/-- How long an agent may be silent without being stale.  A threshold of zero
is none, and then the next one makes it stale. -/
def patience : Option Int :=
  if config.freshnessStaleSeconds ≠ 0 then
    some config.freshnessStaleSeconds
  else if config.freshnessOfflineSeconds ≠ 0 then
    some config.freshnessOfflineSeconds
  else none

theorem freshnessState_stale_iff (ageSeconds : Int) :
    (freshnessState config ageSeconds).2.1 = true ↔
      ∃ span ∈ patience config, span ≤ ageSeconds := by
  have ordered := config.stale_le_offline
  have warns := config.warn_nonneg
  have above := config.warn_le_stale
  unfold freshnessState patience
  split_ifs <;> simp <;> omega

theorem stale_of_offline {ageSeconds : Int}
    (offline : (freshnessState config ageSeconds).2.2 = true) :
    (freshnessState config ageSeconds).2.1 = true := by
  revert offline
  unfold freshnessState
  split_ifs <;> simp

end Freshness

/-- What an evaluation adds to the policy of an entry. -/
structure PolicySnapshot where
  evaluatedAt : Int
  effectiveStatus : String
  stale : Bool
  ageSeconds : Int
  score : ℚ
  state : FreshnessState
  factor : ℚ

structure Coverage where
  capabilityCounts : OrderedMap String Nat
  tagCounts : OrderedMap String Nat
  underCoveredCapabilities : List String
  underCoveredTags : List String
  capabilityScore : ℚ
  tagScore : ℚ
  score : ℚ
  minPerCapability : Int
  targetPerCapability : Int
  minPerTag : Int
  targetPerTag : Int

/-- An entry with what the policy makes of it. -/
structure EvaluatedEntry where
  entry : RegistryEntry
  snapshot : Option PolicySnapshot := none
  coverage : Option Coverage := none

section Evaluate

variable (config : RegistryPolicyConfig) (halfPower : ℚ → ℚ) (now : Int)

/-- One round of `_evaluate_entries`. -/
def evaluateEntry (entry : RegistryEntry) : EvaluatedEntry :=
  let ageSeconds := max 0 (now - entry.lastHeartbeat)
  let (state, isStale, isOffline) := freshnessState config ageSeconds
  let isExpired := entry.expiresAt.any fun limit => decide (limit ≤ now)
  { entry := entry
    snapshot := some {
      evaluatedAt := now
      effectiveStatus :=
        if isOffline || isExpired then statusText .offline
        else statusText entry.status
      stale := isStale || isExpired
      ageSeconds := ageSeconds
      score := freshnessScore config ageSeconds
      state := if isExpired then .expired else state
      factor := decayFactor config halfPower ageSeconds } }

def evaluateEntries (entries : List RegistryEntry) : List EvaluatedEntry :=
  entries.map (evaluateEntry config halfPower now)

end Evaluate

namespace EvaluatedEntry

/-- `_doc_status`.  Without a snapshot it is the policy of the entry itself
that is looked at. -/
def status (python : PyBuiltins) (doc : EvaluatedEntry) : String :=
  match doc.snapshot with
  | some snapshot => snapshot.effectiveStatus
  | none =>
      python.lower (PyText.strip ((orElse
        (Fields.get doc.entry.policy "effective_status")
        (.str (statusText doc.entry.status))).pyStr python))

/-- `_is_stale`. -/
def isStale (doc : EvaluatedEntry) : Bool :=
  match doc.snapshot with
  | some snapshot => snapshot.stale
  | none =>
      match Fields.get doc.entry.policy "stale" with
      | .bool stale => stale
      | _ => false

end EvaluatedEntry

/-! ## Coverage -/

/-- `_as_list` of a list of texts. -/
def strippedTexts (texts : List String) : List String :=
  (texts.map PyText.strip).filter (· ≠ "")

/-- One more for each of the texts; the order in which a set is gone through
does not matter. -/
def countTexts (counts : OrderedMap String Nat) (texts : List String) :
    OrderedMap String Nat :=
  (strippedTexts texts).dedup.foldl
    (fun counts text => counts.set text ((counts.get? text).getD 0 + 1))
    counts

/-- `_coverage_score`. -/
def coverageScore (counts : List Nat) (target : Int) : ℚ :=
  match (counts.map fun count : Nat => (count : ℚ) / target).min? with
  | none => 0
  | some least => if target ≤ 0 then 1 else max 0 (min 1 least)

section Coverage

variable (config : RegistryPolicyConfig)

/-- The agents that count for the coverage. -/
def Counts (doc : EvaluatedEntry) : Prop :=
  ∃ snapshot ∈ doc.snapshot, snapshot.stale = false ∧
    (config.coverageStatusAllow = [] ∨
      snapshot.effectiveStatus ∈ config.coverageStatusAllow)

instance : DecidablePred (Counts config) := fun doc =>
  inferInstanceAs (Decidable (∃ snapshot ∈ doc.snapshot, _ ∧ _))

/-- One of the two counts of `_coverage_counts`. -/
def coverageCounts
    (offered : RegistryEntry → List String)
    (context : List EvaluatedEntry) : OrderedMap String Nat :=
  (context.filter fun doc => Counts config doc).foldl
    (fun counts doc => countTexts counts (offered doc.entry)) .empty

/-- The counts for the texts of one entry. -/
def ownCounts (counts : OrderedMap String Nat) (texts : List String) :
    OrderedMap String Nat :=
  .ofList (texts.map fun text => (text, (counts.get? text).getD 0))

def coverageOf
    (capabilityCounts tagCounts : OrderedMap String Nat)
    (entry : RegistryEntry) : Coverage :=
  let capabilities := strippedTexts entry.capabilities
  let tags := strippedTexts entry.tags
  let capabilityMap := ownCounts capabilityCounts capabilities
  let tagMap := ownCounts tagCounts tags
  let capabilityScore :=
    coverageScore capabilityMap.values config.coverageTargetPerCap
  let tagScore := coverageScore tagMap.values config.coverageTargetPerTag
  { capabilityCounts := capabilityMap
    tagCounts := tagMap
    underCoveredCapabilities :=
      (capabilityMap.entries.filter fun held =>
        decide ((held.2 : Int) < config.coverageMinPerCap)).map Prod.fst
    underCoveredTags :=
      (tagMap.entries.filter fun held =>
        decide ((held.2 : Int) < config.coverageMinPerTag)).map Prod.fst
    capabilityScore := capabilityScore
    tagScore := tagScore
    score :=
      if capabilities ≠ [] ∧ tags ≠ [] then min capabilityScore tagScore
      else if capabilities ≠ [] then capabilityScore
      else if tags ≠ [] then tagScore
      else 0
    minPerCapability := config.coverageMinPerCap
    targetPerCapability := config.coverageTargetPerCap
    minPerTag := config.coverageMinPerTag
    targetPerTag := config.coverageTargetPerTag }

/-- `apply_registry_policies`, where the context of the coverage is given. -/
def applyRegistryPolicies
    (halfPower : ℚ → ℚ) (now : Int) (includeCoverage : Bool)
    (context entries : List RegistryEntry) : List EvaluatedEntry :=
  if config.enable then
    let evaluated := evaluateEntries config halfPower now entries
    if includeCoverage then
      let counted := evaluateEntries config halfPower now context
      let capabilityCounts :=
        coverageCounts config RegistryEntry.capabilities counted
      let tagCounts := coverageCounts config RegistryEntry.tags counted
      evaluated.map fun doc =>
        { doc with
          coverage :=
            some (coverageOf config capabilityCounts tagCounts doc.entry) }
    else evaluated
  else entries.map fun entry => { entry := entry }

end Coverage

end Agentcy.Registry
