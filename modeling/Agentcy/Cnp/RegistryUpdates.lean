import Mathlib.Algebra.BigOperators.Group.Finset.Basic
import Mathlib.Algebra.Order.Ring.Nat
import Agentcy.Cnp.AgentLoad
import Agentcy.Library.PyJson
import Agentcy.Library.SharedCell

/-!
# Updates of one registry entry

Heartbeats, awards and reported outcomes each read the registry entry of an
agent and write all of it back.  The store does not check that the entry is
still the one that was read, so that the entry is a cell which the callers
share.
-/

namespace Agentcy.Cnp

open Agentcy.Library
open Agentcy.Library.SharedCell

universe u

inductive AgentStatus where
  | online
  | idle
  | busy
  | offline
  | unhealthy
  deriving DecidableEq

/-- A value of the metadata: the counters under `cnp`, or anything else. -/
inductive MetaValue where
  | counters (cnp : CnpCounters)
  | other (value : Json)

abbrev Metadata := OrderedMap String MetaValue

/-- The fields of the entry that a heartbeat writes. -/
structure RegistryDoc where
  status : AgentStatus
  lastHeartbeat : Int
  expiresAt : Option Int
  metadata : Metadata

structure RegistrySettings where
  lmaxDefault : Int
  defaultTtl : Int

namespace RegistryDoc

/-- The entry as `agent_cnp_state` sees it. -/
def agent (doc : RegistryDoc) : AgentDoc where
  cnp :=
    match doc.metadata.get? "cnp" with
    | some (.counters cnp) => cnp
    | _ => {}

def load (settings : RegistrySettings) (doc : RegistryDoc) : Int :=
  (agentCnpState settings.lmaxDefault doc.agent).load

def maxLoad (settings : RegistrySettings) (doc : RegistryDoc) : Int :=
  (agentCnpState settings.lmaxDefault doc.agent).maxLoad

/-- `AgentRegistryStore.heartbeat`, from the entry that it read to the one
that it writes.  Metadata that is not given is the empty one. -/
def heartbeat
    (settings : RegistrySettings) (now : Int)
    (status : Option AgentStatus) (ttlSeconds : Option Int)
    (metadata : Metadata) (doc : RegistryDoc) : RegistryDoc :=
  let effectiveTtl := ttlSeconds.getD settings.defaultTtl
  { status := status.getD doc.status
    lastHeartbeat := now
    expiresAt :=
      if 0 < effectiveTtl then some (now + effectiveTtl)
      else if ttlSeconds.isSome then none
      else doc.expiresAt
    metadata := doc.metadata.update metadata }

/-- The metadata that an award or an outcome sends: all that it read, with
other counters. -/
def withCounters (doc : RegistryDoc) (counted : AgentDoc) : Metadata :=
  doc.metadata.set "cnp" (.counters counted.cnp)

end RegistryDoc

inductive RegistryUpdate where
  | heartbeat
      (status : Option AgentStatus) (ttlSeconds : Option Int)
      (metadata : Metadata)
  /-- `_increment_agent_load` of the graph builder. -/
  | award
  /-- `_update_agent_registry` of the pheromone engine. -/
  | outcome (success : Bool)

structure RegistryCall where
  now : Int
  update : RegistryUpdate

namespace RegistryCall

/-- The entry that a call writes, from the one that it has read.  An award
and an outcome read the entry once for its counters and once more in the
heartbeat; these are one read here. -/
def apply
    (settings : RegistrySettings) (call : RegistryCall)
    (doc : RegistryDoc) : RegistryDoc :=
  match call.update with
  | .heartbeat status ttlSeconds metadata =>
      doc.heartbeat settings call.now status ttlSeconds metadata
  | .award =>
      doc.heartbeat settings call.now none none
        (doc.withCounters (receivedTask settings.lmaxDefault doc.agent))
  | .outcome success =>
      doc.heartbeat settings call.now none none
        (doc.withCounters
          (updateCnpMetadata settings.lmaxDefault doc.agent success))

/-- The call sets this key of the metadata. -/
def Sets (call : RegistryCall) (key : String) : Prop :=
  match call.update with
  | .heartbeat _ _ metadata => key ∈ metadata.keys
  | .award => key = "cnp"
  | .outcome _ => key = "cnp"

/-- Only awards and outcomes come with counters. -/
def LeavesCounters (call : RegistryCall) : Prop :=
  match call.update with
  | .heartbeat _ _ metadata => "cnp" ∉ metadata.keys
  | .award => True
  | .outcome _ => True

def raises (call : RegistryCall) : Nat :=
  match call.update with
  | .award => 1
  | _ => 0

def lowers (call : RegistryCall) : Nat :=
  match call.update with
  | .outcome _ => 1
  | _ => 0

end RegistryCall

section

variable (settings : RegistrySettings) (doc : RegistryDoc)

theorem mem_keys_apply
    (call : RegistryCall) {key : String}
    (present : key ∈ doc.metadata.keys ∨ call.Sets key) :
    key ∈ (call.apply settings doc).metadata.keys := by
  obtain ⟨now, update⟩ := call
  cases update with
  | heartbeat status ttlSeconds metadata =>
      exact
        (OrderedMap.mem_keys_update_iff _ _ _).mpr present.symm
  | award =>
      apply (OrderedMap.mem_keys_update_iff _ _ _).mpr
      left
      exact (OrderedMap.mem_keys_set _ _ _ _).mpr present.symm
  | outcome success =>
      apply (OrderedMap.mem_keys_update_iff _ _ _).mpr
      left
      exact (OrderedMap.mem_keys_set _ _ _ _).mpr present.symm

theorem agent_heartbeat_of_absent
    (now : Int) (status : Option AgentStatus) (ttlSeconds : Option Int)
    {metadata : Metadata} (absent : "cnp" ∉ metadata.keys) :
    (doc.heartbeat settings now status ttlSeconds metadata).agent =
      doc.agent := by
  rw [OrderedMap.mem_keys_iff, Option.not_isSome_iff_eq_none] at absent
  unfold RegistryDoc.agent RegistryDoc.heartbeat
  dsimp only
  rw [OrderedMap.get?_update, absent, Option.none_or]

theorem agent_heartbeat_withCounters
    (now : Int) (counted : AgentDoc) :
    (doc.heartbeat settings now none none
      (doc.withCounters counted)).agent = counted := by
  unfold RegistryDoc.agent RegistryDoc.heartbeat RegistryDoc.withCounters
  dsimp only
  rw [OrderedMap.get?_update, OrderedMap.get?_set_self]
  rfl

theorem load_apply_award (now : Int) :
    (RegistryCall.apply settings ⟨now, .award⟩ doc).load settings =
      min (doc.load settings + 1) (doc.maxLoad settings) := by
  unfold RegistryDoc.load RegistryDoc.maxLoad RegistryCall.apply
  dsimp only
  rw [agent_heartbeat_withCounters, receivedTask_load]

theorem load_apply_outcome (now : Int) (success : Bool) :
    (RegistryCall.apply settings ⟨now, .outcome success⟩ doc).load
        settings =
      max (doc.load settings - 1) 0 := by
  unfold RegistryDoc.load RegistryCall.apply
  dsimp only
  rw [agent_heartbeat_withCounters, updateCnpMetadata_load]

theorem maxLoad_apply
    {call : RegistryCall} (leaves : call.LeavesCounters) :
    (call.apply settings doc).maxLoad settings =
      doc.maxLoad settings := by
  obtain ⟨now, update⟩ := call
  unfold RegistryDoc.maxLoad RegistryCall.apply
  cases update with
  | heartbeat status ttlSeconds metadata =>
      dsimp only
      rw [agent_heartbeat_of_absent settings doc _ _ _ leaves]
  | award =>
      dsimp only
      rw [agent_heartbeat_withCounters, receivedTask_maxLoad]
  | outcome success =>
      dsimp only
      rw [agent_heartbeat_withCounters, updateCnpMetadata_maxLoad]

/-- Within the bounds, the load moves by one for an award or an outcome. -/
theorem load_apply
    {call : RegistryCall} (leaves : call.LeavesCounters)
    (below : doc.load settings + call.raises ≤ doc.maxLoad settings)
    (above : call.lowers ≤ doc.load settings) :
    (call.apply settings doc).load settings =
      doc.load settings + call.raises - call.lowers := by
  obtain ⟨now, update⟩ := call
  cases update with
  | heartbeat status ttlSeconds metadata =>
      unfold RegistryDoc.load RegistryCall.apply
      dsimp only
      rw [agent_heartbeat_of_absent settings doc _ _ _ leaves]
      simp [RegistryCall.raises, RegistryCall.lowers]
  | award =>
      rw [load_apply_award]
      simp only [RegistryCall.raises, RegistryCall.lowers] at below ⊢
      omega
  | outcome success =>
      rw [load_apply_outcome]
      simp only [RegistryCall.raises, RegistryCall.lowers] at above ⊢
      omega

end

/-! ## Updates one after another -/

section

variable {ι : Type u}
variable (settings : RegistrySettings) (calls : ι → RegistryCall)

theorem mem_keys_applyAll
    (order : List ι) (doc : RegistryDoc) {key : String}
    (present : key ∈ doc.metadata.keys ∨
      ∃ client ∈ order, (calls client).Sets key) :
    key ∈
      (applyAll (fun client => (calls client).apply settings) doc
        order).metadata.keys := by
  induction order generalizing doc with
  | nil =>
      rcases present with stored | ⟨client, member, _⟩
      · exact stored
      · cases member
  | cons client rest inductionHypothesis =>
      apply inductionHypothesis
      rcases present with stored | ⟨setter, member, sets⟩
      · exact Or.inl (mem_keys_apply settings doc _ (Or.inl stored))
      · rcases List.mem_cons.mp member with rfl | later
        · exact Or.inl (mem_keys_apply settings doc _ (Or.inr sets))
        · exact Or.inr ⟨setter, later, sets⟩

theorem load_applyAll
    (leaves : ∀ client, (calls client).LeavesCounters)
    (order : List ι) (doc : RegistryDoc)
    (below :
      doc.load settings +
          (order.map fun client => (calls client).raises).sum ≤
        doc.maxLoad settings)
    (above :
      (order.map fun client => (calls client).lowers).sum ≤
        doc.load settings) :
    (applyAll (fun client => (calls client).apply settings) doc
        order).load settings =
      doc.load settings +
        (order.map fun client => (calls client).raises).sum -
        (order.map fun client => (calls client).lowers).sum := by
  induction order generalizing doc with
  | nil =>
      simp [applyAll]
  | cons client rest inductionHypothesis =>
      simp only [List.map_cons, List.sum_cons, Nat.cast_add]
        at below above ⊢
      have here :=
        load_apply settings doc (leaves client) (by omega) (by omega)
      have sameMax := maxLoad_apply settings doc (leaves client)
      have later :=
        inductionHypothesis ((calls client).apply settings doc)
          (by rw [here, sameMax]; omega) (by rw [here]; omega)
      rw [here] at later
      change
        (applyAll (fun client => (calls client).apply settings)
          ((calls client).apply settings doc) rest).load settings = _
      rw [later]
      omega

theorem load_applyAll_awards_le
    (order : List ι) (doc : RegistryDoc) :
    (applyAll
        (fun _ => RegistryCall.apply settings ⟨0, .award⟩) doc
        order).load settings ≤
      doc.load settings + order.length := by
  induction order generalizing doc with
  | nil =>
      simp [applyAll]
  | cons client rest inductionHypothesis =>
      have later :=
        inductionHypothesis (RegistryCall.apply settings ⟨0, .award⟩ doc)
      have here := load_apply_award settings doc 0
      change
        (applyAll (fun _ => RegistryCall.apply settings ⟨0, .award⟩)
          (RegistryCall.apply settings ⟨0, .award⟩ doc) rest).load
            settings ≤ _
      rw [List.length_cons]
      omega

end

/-- The final entry shows every call: it is what all calls together, one
after another in some order, make of the initial one.  In particular the load
counts the awards and the outcomes as long as no bound is reached, and each
key that a call sets is present. -/
structure ReflectsAll
    {ι : Type u} [Fintype ι] (settings : RegistrySettings)
    (calls : ι → RegistryCall) (initial final : RegistryDoc) : Prop where
  serial : ∃ order : List ι, order.Nodup ∧ (∀ client, client ∈ order) ∧
    final =
      applyAll (fun client => (calls client).apply settings) initial order
  load : (∀ client, (calls client).LeavesCounters) →
    initial.load settings + ∑ client, (calls client).raises ≤
        initial.maxLoad settings →
      ∑ client, (calls client).lowers ≤ initial.load settings →
        final.load settings =
          initial.load settings + ∑ client, (calls client).raises -
            ∑ client, (calls client).lowers
  keys : ∀ client key, (calls client).Sets key →
    key ∈ final.metadata.keys

section

variable {ι : Type u} [DecidableEq ι]

/-- The entry after a schedule of reads and writes. -/
def finalDoc
    (settings : RegistrySettings) (calls : ι → RegistryCall)
    (initial : RegistryDoc) (schedule : List (Access ι)) : RegistryDoc :=
  (run (Cell.step fun client => (calls client).apply settings)
    (Cell.initial initial) schedule).stored

theorem finalDoc_eq_applyAll
    (settings : RegistrySettings) (calls : ι → RegistryCall)
    (initial : RegistryDoc) (schedule : List (Access ι)) :
    finalDoc settings calls initial schedule =
      applyAll (fun client => (calls client).apply settings) initial
        (survivors schedule) := by
  unfold finalDoc
  rw [run_eq_map_history]
  rfl

variable [Fintype ι]

theorem reflectsAll_of_survive
    (settings : RegistrySettings) (calls : ι → RegistryCall)
    (initial : RegistryDoc) {schedule : List (Access ι)}
    (complete : Complete schedule)
    (everyone : ∀ client, client ∈ survivors schedule) :
    ReflectsAll settings calls initial
      (finalDoc settings calls initial schedule) := by
  have nodup := complete.nodup_survivors everyone
  have total (measure : ι → Nat) :
      ((survivors schedule).map measure).sum =
        ∑ client, measure client := by
    rw [← List.sum_toFinset measure nodup]
    congr 1
    apply Finset.eq_univ_of_forall
    intro client
    exact List.mem_toFinset.mpr (everyone client)
  rw [finalDoc_eq_applyAll]
  constructor
  · exact ⟨survivors schedule, nodup, everyone, rfl⟩
  · intro leaves below above
    rw [← total, ← total]
    rw [← total] at below above
    exact load_applyAll settings calls leaves _ initial below above
  · intro client key sets
    exact
      mem_keys_applyAll settings calls _ initial
        (Or.inr ⟨client, everyone client, sets⟩)

/-- An entry whose load is zero, and may rise to `maxLoad`. -/
def idleDoc (maxLoad : Int) : RegistryDoc where
  status := .idle
  lastHeartbeat := 0
  expiresAt := none
  metadata :=
    .ofList [("cnp", .counters { load := some 0, maxLoad := some maxLoad })]

/-- No update of any agent document is lost in a schedule of reads and writes
exactly when none of its writes falls between the read and the write of
another client. -/
theorem reflectsAll_iff_undisturbed
    (settings : RegistrySettings) (schedule : List (Access ι))
    (complete : Complete schedule) :
    (∀ (calls : ι → RegistryCall) (initial : RegistryDoc),
      ReflectsAll settings calls initial
        (finalDoc settings calls initial schedule)) ↔
      Undisturbed schedule := by
  constructor
  · intro always
    by_contra disturbed
    -- Awards to an agent with room for all of them count the survivors.
    have short := complete.length_survivors_lt_card disturbed
    have reflected :=
      always (fun _ => ⟨0, .award⟩) (idleDoc (Fintype.card ι))
    have counted :=
      load_applyAll_awards_le settings (survivors schedule)
        (idleDoc (Fintype.card ι))
    have loadZero : (idleDoc (Fintype.card ι)).load settings = 0 := rfl
    have room :
        (idleDoc (Fintype.card ι)).maxLoad settings =
          Fintype.card ι := rfl
    have loadCounted := reflected.load (fun _ => trivial)
    rw [finalDoc_eq_applyAll, loadZero, room] at loadCounted
    rw [loadZero] at counted
    simp only [RegistryCall.raises, RegistryCall.lowers,
      ← Finset.card_eq_sum_ones, Finset.sum_const_zero, Finset.card_univ,
      Nat.cast_zero, zero_add, sub_zero, le_refl, forall_const]
      at loadCounted
    omega
  · intro undisturbed calls initial
    exact
      reflectsAll_of_survive settings calls initial complete
        (complete.all_survive_iff.mpr undisturbed)

end

def twoAwards (_client : Bool) : RegistryCall :=
  ⟨0, .award⟩

def oneAfterAnother : List (Access Bool) :=
  [.read false, .replace false, .read true, .replace true]

theorem oneAfterAnother_complete : Complete oneAfterAnother := by
  intro client
  revert client
  decide +kernel

theorem updates_one_after_another_kept :
    ReflectsAll ⟨3, 300⟩ twoAwards (idleDoc 3)
      (finalDoc ⟨3, 300⟩ twoAwards (idleDoc 3) oneAfterAnother) :=
  (reflectsAll_iff_undisturbed ⟨3, 300⟩ oneAfterAnother
    oneAfterAnother_complete).mpr
    (oneAfterAnother_complete.all_survive_iff.mp (by decide +kernel))
    twoAwards (idleDoc 3)

def readsBeforeWrites : List (Access Bool) :=
  [.read false, .read true, .replace false, .replace true]

/-- Of two awards that both read the entry before either writes it, one is
not counted. -/
theorem overlapping_award_lost :
    Complete readsBeforeWrites ∧
      ¬ ReflectsAll ⟨3, 300⟩ twoAwards (idleDoc 3)
        (finalDoc ⟨3, 300⟩ twoAwards (idleDoc 3) readsBeforeWrites) := by
  constructor
  · intro client
    revert client
    decide +kernel
  · intro reflects
    have counted :=
      reflects.load (fun _ => trivial) (by decide +kernel)
        (by decide +kernel)
    revert counted
    decide +kernel

end Agentcy.Cnp
