import Agentcy.Registry.AgentLiveness

/-!
# Agents that come back

A heartbeat that has read an entry writes it back even if the agent has been
deleted in between.  Nothing else brings a deleted agent back but to register
it again.
-/

namespace Agentcy.Registry

open Agentcy.Cnp (AgentStatus RegistrySettings)
open Agentcy.Library
open AgentRegistryStore

universe u

variable {ι : Type u}

/-- The event registers an agent under this key. -/
def RegistryEvent.Registers (key : String) (event : RegistryEvent ι) :
    Prop :=
  ∃ username entry ttlSeconds stamp,
    event.access = .upsert username entry ttlSeconds stamp ∧
      docKey username entry.agentId = key

/-- The event is the write of a heartbeat of this caller. -/
def RegistryEvent.WritesFor (client : ι) (event : RegistryEvent ι) : Prop :=
  ∃ status ttlSeconds metadata stamp,
    event.access = .write client status ttlSeconds metadata stamp

/-- Some caller, who holds the entry in this state, writes it back. -/
def WrittenBack (key : String) (store : AgentRegistryStore ι)
    (events : List (RegistryEvent ι)) : Prop :=
  ∃ client found before event after,
    events = before ++ event :: after ∧
      store.held client = some (key, found) ∧
      (∀ earlier ∈ before, earlier.Apart client) ∧
      event.WritesFor client

section Steps

variable {key : String} {store : AgentRegistryStore ι}
  {event : RegistryEvent ι} {rest : List (RegistryEvent ι)}

theorem writtenBack_now
    {client : ι} {found : RegistryEntry}
    (holds : store.held client = some (key, found))
    (writes : event.WritesFor client) :
    WrittenBack key store (event :: rest) :=
  ⟨client, found, [], event, rest, rfl, holds,
    fun _ none => absurd none List.not_mem_nil, writes⟩

variable {settings : RegistrySettings}

/-- Only registrations and writes of callers that hold the entry put one under
a key. -/
theorem exists_writer
    (unregistered : ¬ event.Registers key) {entry : RegistryEntry}
    (assigns : store.assigned settings key event = some (some entry)) :
    ∃ client found, store.held client = some (key, found) ∧
      event.WritesFor client := by
  obtain ⟨moment, access⟩ := event
  cases access with
  | upsert username written ttlSeconds stamp =>
      unfold assigned at assigns
      dsimp only at assigns
      split at assigns
      · rename_i own
        exact absurd ⟨username, written, ttlSeconds, stamp, rfl, own⟩
          unregistered
      · cases assigns
  | read client username agentId =>
      cases assigns
  | write client status ttlSeconds metadata stamp =>
      unfold assigned at assigns
      dsimp only at assigns
      cases isHeld : store.held client with
      | none =>
          rw [isHeld] at assigns
          cases assigns
      | some found =>
          obtain ⟨heldKey, entry⟩ := found
          rw [isHeld] at assigns
          dsimp only at assigns
          split at assigns
          · rename_i own
            rw [own] at isHeld
            exact ⟨client, entry, isHeld, status, ttlSeconds, metadata,
              stamp, rfl⟩
          · cases assigns
  | delete username agentId =>
      unfold assigned at assigns
      dsimp only at assigns
      split at assigns
      · cases assigns
      · cases assigns

theorem getRaw_of_absent
    (absent : store.held? key = none) (moment : Int) :
    store.getRaw moment key = none := by
  unfold held? at absent
  rw [Option.map_eq_none_iff] at absent
  unfold getRaw
  rw [absent]
  rfl

variable [DecidableEq ι]

/-- Without the entry, a caller holds it after an event exactly if it did
before and the event is somebody else's. -/
theorem held_perform_iff
    (absent : store.held? key = none) {client : ι}
    {found : RegistryEntry} :
    (store.perform settings event).held client = some (key, found) ↔
      store.held client = some (key, found) ∧ event.Apart client := by
  by_cases apart : event.Apart client
  · rw [held_perform_of_apart apart, and_iff_left apart]
  · refine iff_of_false ?_ fun both => apart both.2
    intro holds
    obtain ⟨moment, access⟩ := event
    cases access with
    | upsert username written ttlSeconds stamp =>
        exact apart trivial
    | read other username agentId =>
        obtain rfl : other = client := not_ne_iff.mp apart
        have isRead := (Function.update_self _ _ _).symm.trans holds
        obtain ⟨entry, isEntry, same⟩ := Option.map_eq_some_iff.mp isRead
        obtain rfl : docKey username agentId = key :=
          congrArg Prod.fst same
        rw [getRaw_of_absent absent] at isEntry
        cases isEntry
    | write other status ttlSeconds metadata stamp =>
        obtain rfl : other = client := not_ne_iff.mp apart
        unfold perform at holds
        dsimp only at holds
        cases isHeld : store.held other with
        | none =>
            rw [isHeld] at holds
            dsimp only at holds
            rw [isHeld] at holds
            cases holds
        | some before =>
            rw [isHeld] at holds
            dsimp only at holds
            rw [Function.update_self] at holds
            cases holds
    | delete username agentId =>
        exact apart trivial

/-- Where an event does not write the entry back itself, it leaves to the
later ones who does. -/
theorem writtenBack_cons_iff
    (absent : store.held? key = none)
    (keeps : ∀ client found, store.held client = some (key, found) →
      ¬ event.WritesFor client) :
    WrittenBack key store (event :: rest) ↔
      WrittenBack key (store.perform settings event) rest := by
  constructor
  · rintro ⟨client, found, before, last, after, whole, holds, apart,
      writes⟩
    cases before with
    | nil =>
        obtain ⟨rfl, rfl⟩ := List.cons.inj whole
        exact absurd writes (keeps client found holds)
    | cons first before =>
        obtain ⟨rfl, rfl⟩ := List.cons.inj whole
        obtain ⟨apartFirst, apart⟩ := List.forall_mem_cons.mp apart
        exact ⟨client, found, before, last, after, rfl,
          (held_perform_iff absent).mpr ⟨holds, apartFirst⟩, apart, writes⟩
  · rintro ⟨client, found, before, last, after, rfl, holds, apart, writes⟩
    obtain ⟨holds, apartFirst⟩ := (held_perform_iff absent).mp holds
    exact ⟨client, found, event :: before, last, after, rfl, holds,
      List.forall_mem_cons.mpr ⟨apartFirst, apart⟩, writes⟩

end Steps

section Returns

variable [DecidableEq ι] {settings : RegistrySettings} {key : String}

/-- The agent has an entry at some time during the events. -/
def Returns (settings : RegistrySettings) (key : String)
    (store : AgentRegistryStore ι) (events : List (RegistryEvent ι)) :
    Prop :=
  ¬ EveryState (perform settings) (fun state => state.held? key = none)
    store events

theorem returns_iff_of_absent
    {store : AgentRegistryStore ι} (absent : store.held? key = none)
    {events : List (RegistryEvent ι)}
    (unregistered : ∀ event ∈ events, ¬ event.Registers key) :
    Returns settings key store events ↔ WrittenBack key store events := by
  induction events generalizing store with
  | nil =>
      refine iff_of_false (not_not_intro absent) ?_
      rintro ⟨_, _, before, _, _, whole, _⟩
      exact absurd whole (by simp)
  | cons event rest inductionHypothesis =>
      obtain ⟨here, later⟩ := List.forall_mem_cons.mp unregistered
      have passes : Returns settings key store (event :: rest) ↔
          Returns settings key (store.perform settings event) rest := by
        refine not_congr ?_
        exact and_iff_right absent
      rw [passes]
      by_cases back : ∃ client found,
          store.held client = some (key, found) ∧ event.WritesFor client
      · -- the entry is there after this event
        obtain ⟨client, found, holds, writes⟩ := back
        refine iff_of_true ?_ (writtenBack_now holds writes)
        have present : (store.perform settings event).held? key ≠ none := by
          obtain ⟨status, ttlSeconds, metadata, stamp, isWrite⟩ := writes
          have assigns : store.assigned settings key event =
              some (some (found.beaten settings stamp status ttlSeconds
                metadata)) := by
            unfold assigned
            rw [isWrite]
            dsimp only
            rw [holds]
            exact if_pos rfl
          rw [held?_perform, assigns]
          exact Option.some_ne_none _
        intro always
        cases rest with
        | nil => exact present always
        | cons _ _ => exact present always.1
      · have keeps : ∀ client found,
            store.held client = some (key, found) →
              ¬ event.WritesFor client :=
          fun client found holds writes =>
            back ⟨client, found, holds, writes⟩
        have stays : (store.perform settings event).held? key = none := by
          rw [held?_perform]
          cases assigns : store.assigned settings key event with
          | none =>
              exact absent
          | some value =>
              cases value with
              | none =>
                  rfl
              | some entry =>
                  exact absurd (exists_writer here assigns) back
        rw [inductionHypothesis stays later,
          writtenBack_cons_iff absent keeps]

/-- A deleted agent that nobody registers again comes back exactly if a
heartbeat that had read its entry before the deletion writes it afterwards. -/
theorem deleted_agent_returns_iff
    {before after : List (RegistryEvent ι)} {moment : Int}
    {username agentId : String}
    (deleted : ((run (perform settings) ({} : AgentRegistryStore ι)
      before).getRaw moment (docKey username agentId)).isSome = true)
    (unregistered : ∀ event ∈ after,
      ¬ event.Registers (docKey username agentId)) :
    Returns settings (docKey username agentId)
        (run (perform settings) ({} : AgentRegistryStore ι)
          (before ++ [⟨moment, .delete username agentId⟩])) after ↔
      WrittenBack (docKey username agentId)
        (run (perform settings) ({} : AgentRegistryStore ι) before)
        after := by
  have sameHeld : ∀ client,
      (run (perform settings) ({} : AgentRegistryStore ι)
        (before ++ [⟨moment, .delete username agentId⟩])).held client =
      (run (perform settings) ({} : AgentRegistryStore ι)
        before).held client := by
    intro client
    rw [run_append, run_cons, run_nil]
    exact held_perform_of_apart (by trivial)
  have absent : (run (perform settings) ({} : AgentRegistryStore ι)
      (before ++ [⟨moment, .delete username agentId⟩])).held?
        (docKey username agentId) = none := by
    rw [run_append, run_cons, run_nil, held?_perform]
    unfold assigned
    dsimp only
    rw [if_pos ⟨rfl, deleted⟩]
    rfl
  rw [returns_iff_of_absent absent unregistered]
  unfold WrittenBack
  simp only [sameHeld]

end Returns

/-! ## A heartbeat that overlaps a deletion -/

def plannerRead : RegistryEvent Bool :=
  ⟨1, .read true "alice" "planner"⟩

def plannerWrite : RegistryEvent Bool :=
  ⟨3, .write true (some .idle) none .empty 3⟩

theorem overlapped_planner_returns :
    Returns registrySettings (docKey "alice" "planner")
      (run (perform registrySettings) ({} : AgentRegistryStore Bool)
        ([plannerRegistration, plannerRead] ++
          [⟨2, .delete "alice" "planner"⟩])) [plannerWrite] := by
  have unregistered : ∀ event ∈ [plannerWrite],
      ¬ event.Registers (docKey "alice" "planner") := by
    intro event member registers
    obtain ⟨_, _, _, _, isUpsert, _⟩ := registers
    rw [List.mem_singleton.mp member] at isUpsert
    cases isUpsert
  exact (deleted_agent_returns_iff (by decide +kernel) unregistered).mpr
    ⟨true, plannerEntry, [], plannerWrite, [], rfl, rfl,
      fun _ none => absurd none List.not_mem_nil, _, _, _, _, rfl⟩

end Agentcy.Registry
