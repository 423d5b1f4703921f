import Agentcy.Library.Run
import Agentcy.Pheromones.PathSeeder

/-!
# The range of the intensities

Four writers share the affordance markers: the seeder, the feedback and the
decay of the engine, and the deposits of the forwarder.  Each computes an
intensity in its own way, and the two last from what the others have stored.
All keep every intensity between zero and one.
-/

namespace Agentcy.Pheromones

open Agentcy.Agents
open Agentcy.Cnp (QueryOrder TaskSpec rowsUnder)
open Agentcy.Forwarder
open Agentcy.Library

inductive Write where
  | seeds (username : String) (env : SeederEnv)
      (specs : List (TaskSpec × String))
  | engine (username : String) (env : EngineEnv)
      (specs : OrderedMap String TaskSpec)
      (feedback : List (Fields × String))
  | deposit (env : DepositEnv) (toTask : String) (routed : Routed)
      (pass : Pass)
  -- the time of a marker is over
  | expires (key : String)

def Write.apply (markers : Markers) : Write → Markers
  | .seeds username env specs => (runSeeder env username markers specs).1
  | .engine username env specs feedback =>
      (runEngine env username specs markers feedback).1
  | .deposit env toTask routed pass =>
      depositMarker env toTask routed pass markers
  | .expires key => markers.erase key

structure EngineEnv.Bounded (env : EngineEnv) : Prop where
  minimum : 0 ≤ env.minIntensity
  ordered : env.minIntensity ≤ env.maxIntensity
  maximum : env.maxIntensity ≤ 1
  decays : 0 ≤ env.decayFactor ∧ env.decayFactor ≤ 1

/-- The settings under which a write is made are sensible.  What a feedback
reports is not restricted. -/
def Write.Bounded : Write → Prop
  | .seeds _ _ _ => True
  | .engine _ env _ _ => env.Bounded
  | .deposit env _ _ _ => 0 ≤ env.delta
  | .expires _ => True

def Intense (marker : AffordanceMarker) : Prop :=
  0 ≤ marker.intensity ∧ marker.intensity ≤ 1

def InRange (markers : Markers) : Prop :=
  ∀ entry ∈ markers.entries, Intense entry.2

theorem InRange.listed
    {markers : Markers} (inRange : InRange markers)
    {order : QueryOrder AffordanceMarker} {username : String}
    {taskId agentId : Option String} {marker : AffordanceMarker}
    (member :
      marker ∈
        listAffordanceMarkers order markers username taskId agentId) :
    Intense marker := by
  obtain ⟨⟨key, inRows⟩, _⟩ :=
    (mem_listAffordanceMarkers_iff _ _ _ _ _ _).mp member
  exact inRange _ (List.mem_filter.mp inRows).1

theorem strongest_le_one
    {listed : List AffordanceMarker}
    (inRange : ∀ marker ∈ listed, Intense marker) :
    strongest listed ≤ 1 := by
  refine le_of_not_gt fun above => ?_
  rcases (lt_foldl_max_iff _ 0 listed).mp above with less | found
  · exact absurd less (by norm_num)
  · obtain ⟨marker, member, exceeds⟩ := found
    exact absurd exceeds (not_lt.mpr (inRange marker member).2)

theorem InRange.pheromoneIntensity
    {markers : Markers} (inRange : InRange markers) (query : MarkerQuery)
    (username capability agentId : String) :
    0 ≤ pheromoneIntensity query markers username capability agentId ∧
      pheromoneIntensity query markers username capability agentId ≤
        1 := by
  unfold Forwarder.pheromoneIntensity
  split
  · norm_num
  · refine ⟨strongest_nonneg _, strongest_le_one fun marker member => ?_⟩
    exact inRange.listed (List.mem_filter.mp member).1

theorem InRange.add
    {markers : Markers} (inRange : InRange markers) (username : String)
    {marker : AffordanceMarker} (intense : Intense marker) :
    InRange (addAffordanceMarker markers username marker) := by
  intro entry member
  rcases OrderedMap.mem_entries_set member with rfl | old
  · exact intense
  · exact inRange entry old

theorem InRange.erase
    {markers : Markers} (inRange : InRange markers) (key : String) :
    InRange (markers.erase key) := fun entry member =>
  inRange entry (List.mem_filter.mp member).1

theorem of_validMarker
    {given marker : AffordanceMarker}
    (valid : validMarker given = .ok marker) : given = marker := by
  unfold validMarker at valid
  split at valid
  · exact Except.ok.inj valid
  · cases valid

theorem InRange.seedSpec
    {markers later : Markers} (inRange : InRange markers)
    {env : SeederEnv} {username : String} {item : TaskSpec × String}
    (seeds : seedSpec env username markers item = .ok later) :
    InRange later := by
  unfold Pheromones.seedSpec at seeds
  obtain ⟨⟨agentId, intensity⟩, seed, seeds⟩ := bind_eq_ok.mp seeds
  obtain ⟨marker, valid, seeds⟩ := bind_eq_ok.mp seeds
  obtain rfl := (pure_eq_ok _ _).mp seeds
  obtain rfl := of_validMarker valid
  exact inRange.add username (seedOf_mem seed)

theorem feedbackIntensity_mem
    {env : EngineEnv} (bounded : env.Bounded) (entry : Fields)
    (marker : Option AffordanceMarker) :
    0 ≤ feedbackIntensity env entry marker ∧
      feedbackIntensity env entry marker ≤ 1 := by
  unfold feedbackIntensity
  constructor
  · exact
      le_min (bounded.minimum.trans (le_max_right _ _))
        (bounded.minimum.trans bounded.ordered)
  · exact (min_le_right _ _).trans bounded.maximum

theorem markedByFeedback_intensity
    {env : EngineEnv} {specs : OrderedMap String TaskSpec}
    {entry : Fields} {ids : Cnp.EntryIds} {markerId : String}
    {marker : Option AffordanceMarker} {marked : AffordanceMarker}
    (marks :
      markedByFeedback env specs entry ids markerId marker = .ok marked) :
    marked.intensity = feedbackIntensity env entry marker := by
  unfold markedByFeedback at marks
  cases marker with
  | none =>
      obtain ⟨capability, _, valid⟩ := bind_eq_ok.mp marks
      obtain rfl := of_validMarker valid
      rfl
  | some marker =>
      obtain rfl := (pure_eq_ok _ _).mp marks
      rfl

theorem InRange.applyEntry
    {markers later : Markers} (inRange : InRange markers)
    {env : EngineEnv} (bounded : env.Bounded) {username : String}
    {specs : OrderedMap String TaskSpec} {item : Fields × String}
    (applied : applyEntry env username specs markers item = .ok later) :
    InRange later := by
  unfold Pheromones.applyEntry at applied
  cases named : Cnp.entryIds? env.python item.1 with
  | none =>
      rw [named] at applied
      obtain rfl := Except.ok.inj applied
      exact inRange
  | some ids =>
      rw [named] at applied
      obtain ⟨marker, marks, applied⟩ := bind_eq_ok.mp applied
      obtain rfl := (pure_eq_ok _ _).mp applied
      apply inRange.add
      unfold Intense
      rw [markedByFeedback_intensity marks]
      exact feedbackIntensity_mem bounded _ _

/-- Decay scales down, and what it scales down was at most one. -/
theorem decayedIntensity_mem
    {env : EngineEnv} (bounded : env.Bounded)
    {marker : AffordanceMarker} (intense : Intense marker) :
    0 ≤ decayedIntensity env marker ∧ decayedIntensity env marker ≤ 1 := by
  unfold decayedIntensity
  constructor
  · exact bounded.minimum.trans (le_max_left _ _)
  · apply max_le (bounded.ordered.trans bounded.maximum)
    exact mul_le_one₀ intense.2 bounded.decays.1 bounded.decays.2

theorem InRange.decayMarker
    {markers : Markers} (inRange : InRange markers)
    {env : EngineEnv} (bounded : env.Bounded) (username : String)
    {marker : AffordanceMarker} (intense : Intense marker) :
    InRange (decayMarker env username markers marker) := by
  unfold Pheromones.decayMarker
  dsimp only
  split
  · exact inRange
  · exact inRange.add username (decayedIntensity_mem bounded intense)

theorem mem_of_mem_sliceTo
    {α : Type} {limit : Int} {items : List α} {item : α}
    (member : item ∈ sliceTo limit items) : item ∈ items := by
  unfold sliceTo at member
  split at member <;> exact List.mem_of_mem_take member

theorem InRange.decayMarkers
    {markers : Markers} (inRange : InRange markers)
    {env : EngineEnv} (bounded : env.Bounded) (username : String) :
    InRange (decayMarkers env username markers) := by
  have decayed (listed : List AffordanceMarker)
      (intense : ∀ marker ∈ listed, Intense marker) :
      InRange
        (listed.foldl (Pheromones.decayMarker env username) markers) := by
    apply List.foldlRecOn
    · exact inRange
    · intro markers inRange marker member
      exact inRange.decayMarker bounded username (intense marker member)
  exact decayed _ fun marker member =>
    inRange.listed (mem_of_mem_sliceTo member)

theorem InRange.depositMarker
    {markers : Markers} (inRange : InRange markers)
    {env : DepositEnv} (toTask : String) (routed : Routed) (pass : Pass) :
    InRange (depositMarker env toTask routed pass markers) := by
  unfold Forwarder.depositMarker
  split
  · dsimp only
    split
    · exact inRange
    · rename_i accepted
      refine inRange.add _ ⟨?_, ?_⟩
      · exact not_lt.mp (not_or.mp accepted).2
      · exact min_le_right _ _
  · exact inRange

theorem InRange.apply
    {markers : Markers} (inRange : InRange markers) {write : Write}
    (bounded : write.Bounded) : InRange (write.apply markers) := by
  cases write with
  | seeds username env specs =>
      exact
        runUntilError_invariant InRange
          (fun _ _ _ before seeds => before.seedSpec seeds) specs inRange
  | engine username env specs feedback =>
      unfold Write.apply runEngine
      dsimp only
      split
      · exact inRange
      · split
        · exact inRange.decayMarkers bounded username
        · exact
            runUntilError_invariant InRange
              (fun _ _ _ before applied =>
                before.applyEntry bounded applied)
              feedback inRange
  | deposit env toTask routed pass =>
      exact inRange.depositMarker toTask routed pass
  | expires key =>
      exact inRange.erase key

theorem inRange_run
    {writes : List Write} (bounded : ∀ write ∈ writes, write.Bounded) :
    InRange (run Write.apply .empty writes) := by
  have nothing : InRange .empty := by
    intro entry member
    cases member
  have keeps : ∀ markers (write : Write),
      InRange markers → write.Bounded → InRange (write.apply markers) :=
    fun _ _ before bounded => before.apply bounded
  exact
    run_invariant InRange keeps nothing (everyStep_of_forall_mem _ bounded)

end Agentcy.Pheromones
