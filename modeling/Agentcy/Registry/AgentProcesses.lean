import Agentcy.Registry.AgentLiveness

/-!
# A process that keeps its agent registered

`heartbeat_loop` sends heartbeats for as long as the process of an agent runs.
The server reads the entry of the agent and writes it back; where there is no
entry, the process registers the agent and sends the heartbeat again.  Other
callers write the same entry in between.  A process whose steps do not come
too late is never missing from the listings.
-/

namespace Agentcy.Registry

open Agentcy.Cnp (AgentStatus Metadata RegistrySettings)
open Agentcy.Library
open AgentRegistryStore

universe u

/-- `AgentRegistryConfig`, as far as it reaches the registry.  `host` is the
metadata of a registration. -/
structure AgentRegistryConfig where
  username : String
  agentId : String
  serviceName : String
  description : Option String
  capabilities : List String
  tags : List String
  ttlSeconds : Int
  host : Metadata

namespace AgentRegistryConfig

/-- `_entry`. -/
def entry (config : AgentRegistryConfig) (status : AgentStatus)
    (now : Int) : RegistryEntry where
  status := status
  lastHeartbeat := now
  expiresAt := none
  metadata := config.host
  agentId := config.agentId
  serviceName := config.serviceName
  owner := some config.username
  description := config.description
  capabilities := config.capabilities
  tags := config.tags
  policy := []
  registeredAt := now

def key (config : AgentRegistryConfig) : String :=
  docKey config.username config.agentId

end AgentRegistryConfig

/-- Where a process is in `AgentRegistryClient.heartbeat`: before the first
request, after an answer that the agent is unknown, or after it has been
registered again.  While the server holds the entry, it is in its first or
third phase. -/
inductive Phase where
  | resting
  | unknown
  | registered
  deriving DecidableEq

/-- The registry, and one process that sends heartbeats. -/
structure Supervised (ι : Type u) where
  store : AgentRegistryStore ι
  phase : Phase := .resting
  /-- The time of the last step of the process. -/
  lastStep : Int
  /-- The time of the last event. -/
  clock : Int
  steps : Nat := 0

/-- A step of the process, with what it sends, or one of somebody else. -/
inductive SupervisedEvent (ι : Type u) where
  | own (moment stamp : Int) (status : AgentStatus) (metadata : Metadata)
  | other (event : RegistryEvent ι)

namespace Supervised

variable {ι : Type u} (config : AgentRegistryConfig) (client : ι)

/-- What the process asks for next. -/
def request (state : Supervised ι) (stamp : Int) (status : AgentStatus)
    (metadata : Metadata) : RegistryAccess ι :=
  match state.store.held client, state.phase with
  | some _, _ =>
      .write client (some status) (some config.ttlSeconds) metadata stamp
  | none, .unknown =>
      .upsert config.username (config.entry status stamp)
        (some config.ttlSeconds) stamp
  | none, _ => .read client config.username config.agentId

/-- A second heartbeat that finds no entry fails. -/
def nextPhase (state : Supervised ι) (later : AgentRegistryStore ι) :
    Phase :=
  match state.store.held client, state.phase with
  | some _, _ => .resting
  | none, .unknown => .registered
  | none, .registered => .resting
  | none, .resting =>
      if (later.held client).isSome then .resting else .unknown

variable [DecidableEq ι] (settings : RegistrySettings)

def step (state : Supervised ι) :
    SupervisedEvent ι → Supervised ι
  | .own moment stamp status metadata =>
      let later := state.store.perform settings
        ⟨moment, state.request config client stamp status metadata⟩
      { store := later
        phase := state.nextPhase client later
        lastStep := moment
        clock := moment
        steps := state.steps + 1 }
  | .other event =>
      { state with
        store := state.store.perform settings event
        clock := event.moment }

end Supervised

/-- How the times of a run are bounded. -/
structure Timing where
  /-- The longest time between two steps of the process. -/
  pause : Nat
  /-- The longest time between the stamp of a document and its write. -/
  latency : Nat
  /-- The shortest time to live of a document. -/
  term : Nat

/-- The entry will not run out before its term is over. -/
def RegistryEntry.Lasts (term : Int) (entry : RegistryEntry) : Prop :=
  ∀ limit ∈ entry.expiresAt, entry.lastHeartbeat + term ≤ limit

section Entry

variable {settings : RegistrySettings} {stamp ttl term : Int}
  {entry : RegistryEntry}

theorem beaten_lasts
    (positive : 0 < ttl) (le : term ≤ ttl) (status : Option AgentStatus)
    (metadata : Metadata) :
    (entry.beaten settings stamp status (some ttl) metadata).Lasts
      term := by
  intro limit isLimit
  unfold RegistryEntry.beaten Cnp.RegistryDoc.heartbeat at isLimit
  dsimp only [Option.getD_some] at isLimit
  rw [if_pos positive] at isLimit
  obtain rfl := Option.some.inj isLimit
  exact add_le_add_right le stamp

theorem registered_lasts
    (positive : 0 < ttl) (le : term ≤ ttl) (username : String) :
    (entry.registered settings username stamp (some ttl)).Lasts term := by
  have expires : expiry settings (some ttl) = some ttl := if_pos positive
  intro limit isLimit
  unfold RegistryEntry.registered at isLimit
  rw [expires] at isLimit
  obtain rfl := Option.some.inj isLimit
  exact add_le_add_right le stamp

end Entry

namespace Supervised

variable {ι : Type u} (settings : RegistrySettings)
  (config : AgentRegistryConfig) (client : ι) (timing : Timing)

/-- The process takes its step in time, and what others write under its key,
if anything, is a recent entry that lasts; in particular nobody deletes it. -/
def Allowed (state : Supervised ι) : SupervisedEvent ι → Prop
  | .own moment stamp _ _ =>
      state.clock ≤ moment ∧ moment ≤ state.lastStep + timing.pause ∧
        moment - timing.latency ≤ stamp ∧ stamp ≤ moment
  | .other event =>
      state.clock ≤ event.moment ∧ event.Timely ∧ event.Apart client ∧
        ∀ value,
          state.store.assigned settings config.key event = some value →
            ∃ entry, value = some entry ∧ entry.Lasts timing.term ∧
              event.moment - timing.latency ≤ entry.lastHeartbeat

/-- There is an entry that lasts and has been stamped at most a pause before
the last step of the process, and after it unless the process is about to
write. -/
def Fresh (state : Supervised ι) : Prop :=
  ∃ entry, state.store.held? config.key = some entry ∧
    entry.Lasts timing.term ∧
    state.lastStep - timing.pause - timing.latency ≤ entry.lastHeartbeat ∧
    (state.store.held client = none → state.phase ≠ .unknown →
      state.lastStep - timing.latency ≤ entry.lastHeartbeat)

/-- The invariant of a run.  Before the second step of the process there need
not be an entry, but after the first one it knows what to write. -/
structure Kept (state : Supervised ι) : Prop where
  passed : state.lastStep ≤ state.clock
  late : state.store.DropsLate
  holds : ∀ found, state.store.held client = some found →
    found.1 = config.key
  stage : state.Fresh config client timing ∨
    (state.steps = 0 ∧ state.phase = .resting ∧
      state.store.held client = none) ∨
    (state.steps = 1 ∧
      (state.store.held client ≠ none ∨ state.phase = .unknown))

variable {settings config client timing}

theorem fresh_of_stamped
    {state : Supervised ι} {entry : RegistryEntry}
    (isEntry : state.store.held? config.key = some entry)
    (lasts : entry.Lasts timing.term)
    (recent : state.lastStep - timing.latency ≤ entry.lastHeartbeat) :
    state.Fresh config client timing :=
  ⟨entry, isEntry, lasts, by omega, fun _ _ => recent⟩

/-- An entry that lasts has not been dropped before its term is over. -/
theorem getRaw_of_lasts
    {store : AgentRegistryStore ι} (late : store.DropsLate) {key : String}
    {entry : RegistryEntry} (isEntry : store.held? key = some entry)
    {term : Int} (lasts : entry.Lasts term) {moment : Int}
    (within : moment < entry.lastHeartbeat + term) :
    store.getRaw moment key = some entry := by
  obtain ⟨stored, found, rfl⟩ := Option.map_eq_some_iff.mp isEntry
  have visible : stored.dropAt.all (moment < ·) = true := by
    cases drops : stored.dropAt with
    | none =>
        rfl
    | some drop =>
        obtain ⟨limit, isLimit, le⟩ := late key stored found drop drops
        have outlasts := lasts limit isLimit
        exact decide_eq_true (by omega)
  unfold getRaw
  rw [found]
  exact if_pos visible

theorem request_timely
    (state : Supervised ι) {moment stamp : Int} {status : AgentStatus}
    {metadata : Metadata} (stamped : stamp ≤ moment) :
    RegistryEvent.Timely
      ⟨moment, state.request config client stamp status metadata⟩ := by
  unfold request
  split
  · exact stamped
  · exact stamped
  · trivial

/-! ## Steps of others -/

variable [DecidableEq ι]

theorem Kept.other
    {state : Supervised ι}
    (kept : state.Kept config client timing) {event : RegistryEvent ι}
    (allowed : state.Allowed settings config client timing
      (.other event)) :
    (state.step config client settings (.other event)).Kept config client
      timing := by
  obtain ⟨passes, timely, apart, spares⟩ := allowed
  have sameHeld : (state.store.perform settings event).held client =
      state.store.held client := held_perform_of_apart apart
  have passed := kept.passed
  refine ⟨passed.trans passes, kept.late.perform timely, ?_, ?_⟩
  · intro found isHeld
    refine kept.holds found ?_
    rw [← sameHeld]
    exact isHeld
  · cases assigns : state.store.assigned settings config.key event with
    | none =>
        have sameEntry : (state.store.perform settings event).held?
            config.key = state.store.held? config.key := by
          rw [held?_perform, assigns]
          rfl
        unfold Fresh
        dsimp only [step]
        rw [sameHeld, sameEntry]
        exact kept.stage
    | some value =>
        obtain ⟨entry, rfl, lasts, recent⟩ := spares value assigns
        refine Or.inl (fresh_of_stamped ?_ lasts ?_)
        · exact (held?_perform _ _ _).trans (by rw [assigns]; rfl)
        · dsimp only [step]
          omega

section Own

variable {state : Supervised ι} (kept : state.Kept config client timing)
  (brief : 2 * timing.pause + timing.latency < timing.term)
  {moment stamp : Int} {status : AgentStatus} {metadata : Metadata}
  (allowed : state.Allowed settings config client timing
    (.own moment stamp status metadata))

include kept brief allowed

/-- The server writes the entry back. -/
theorem Kept.write
    (lives : (timing.term : Int) ≤ config.ttlSeconds)
    {found : String × RegistryEntry}
    (isHeld : state.store.held client = some found) :
    (state.step config client settings
      (.own moment stamp status metadata)).Kept config client timing := by
  obtain ⟨passes, punctual, recent, stamped⟩ := allowed
  obtain ⟨heldKey, entry⟩ := found
  obtain rfl : heldKey = config.key := kept.holds _ isHeld
  have asks : state.request config client stamp status metadata =
      .write client (some status) (some config.ttlSeconds) metadata
        stamp := by
    rw [request, isHeld]
  have written : (state.store.perform settings
      ⟨moment, state.request config client stamp status metadata⟩).held?
        config.key =
      some (entry.beaten settings stamp (some status)
        (some config.ttlSeconds) metadata) := by
    rw [held?_perform, asks, assigned]
    simp [isHeld]
  have released : (state.store.perform settings
      ⟨moment, state.request config client stamp status metadata⟩).held
        client = none := by
    rw [asks, perform]
    simp [isHeld]
  refine ⟨le_rfl, kept.late.perform (request_timely state stamped), ?_,
    Or.inl (fresh_of_stamped written ?_ recent)⟩
  · intro found isFound
    rw [show (state.step config client settings
      (.own moment stamp status metadata)).store.held client = none
        from released] at isFound
    cases isFound
  · exact beaten_lasts (by omega) lives _ _

/-- The process registers the agent. -/
theorem Kept.register
    (lives : (timing.term : Int) ≤ config.ttlSeconds)
    (idle : state.store.held client = none)
    (unknown : state.phase = .unknown) :
    (state.step config client settings
      (.own moment stamp status metadata)).Kept config client timing := by
  obtain ⟨passes, punctual, recent, stamped⟩ := allowed
  have asks : state.request config client stamp status metadata =
      .upsert config.username (config.entry status stamp)
        (some config.ttlSeconds) stamp := by
    rw [request, idle, unknown]
  have written : (state.store.perform settings
      ⟨moment, state.request config client stamp status metadata⟩).held?
        config.key =
      some ((config.entry status stamp).registered settings
        config.username stamp (some config.ttlSeconds)) := by
    rw [held?_perform, asks, assigned]
    exact congrArg (Option.getD · _) (if_pos rfl)
  refine ⟨le_rfl, kept.late.perform (request_timely state stamped), ?_,
    Or.inl (fresh_of_stamped written ?_ recent)⟩
  · intro found isFound
    refine kept.holds found ?_
    rw [← isFound]
    dsimp only [step]
    rw [asks]
    rfl
  · exact registered_lasts (by omega) lives _

/-- The server looks for the entry, and finds one that lasts. -/
theorem Kept.read
    (idle : state.store.held client = none)
    (known : state.phase ≠ .unknown) :
    (state.step config client settings
      (.own moment stamp status metadata)).Kept config client timing := by
  obtain ⟨passes, punctual, recent, stamped⟩ := allowed
  have asks : state.request config client stamp status metadata =
      .read client config.username config.agentId := by
    unfold request
    rw [idle]
    cases isPhase : state.phase with
    | resting => rfl
    | unknown => exact absurd isPhase known
    | registered => rfl
  have reads : (state.store.perform settings
      ⟨moment, state.request config client stamp status metadata⟩).held
        client =
      (state.store.getRaw moment config.key).map fun entry =>
        (config.key, entry) := by
    rw [asks]
    exact Function.update_self _ _ _
  have sameEntry : (state.store.perform settings
      ⟨moment, state.request config client stamp status metadata⟩).held?
        config.key = state.store.held? config.key := by
    rw [asks]
    rfl
  refine ⟨le_rfl, kept.late.perform (request_timely state stamped), ?_, ?_⟩
  · intro found isFound
    have isRead := reads.symm.trans isFound
    obtain ⟨_, _, rfl⟩ := Option.map_eq_some_iff.mp isRead
    rfl
  · rcases kept.stage with
      ⟨entry, isEntry, lasts, _, fresh⟩ | ⟨first, resting, _⟩ |
        ⟨_, holding | unknown⟩
    · have since := fresh idle known
      have found : state.store.getRaw moment config.key = some entry :=
        getRaw_of_lasts kept.late isEntry lasts (by omega)
      refine Or.inl ⟨entry, sameEntry.trans isEntry, lasts, ?_, ?_⟩
      · dsimp only [step]
        omega
      · intro nothing
        have holding := reads.symm.trans nothing
        rw [found] at holding
        cases holding
    · refine Or.inr (Or.inr ⟨?_, ?_⟩)
      · dsimp only [step]
        rw [first]
      · by_cases holding : (state.step config client settings
            (.own moment stamp status metadata)).store.held client = none
        · refine Or.inr ?_
          dsimp only [step] at holding ⊢
          rw [nextPhase, idle, resting]
          dsimp only
          rw [holding]
          rfl
        · exact Or.inl holding
    · exact absurd idle holding
    · exact absurd unknown known

end Own

theorem Kept.own
    {state : Supervised ι} (kept : state.Kept config client timing)
    (brief : 2 * timing.pause + timing.latency < timing.term)
    (lives : (timing.term : Int) ≤ config.ttlSeconds)
    {moment stamp : Int} {status : AgentStatus} {metadata : Metadata}
    (allowed : state.Allowed settings config client timing
      (.own moment stamp status metadata)) :
    (state.step config client settings
      (.own moment stamp status metadata)).Kept config client timing := by
  cases idle : state.store.held client with
  | some found =>
      exact kept.write brief allowed lives idle
  | none =>
      by_cases unknown : state.phase = .unknown
      · exact kept.register brief allowed lives idle unknown
      · exact kept.read brief allowed idle unknown

/-- The state in which a heartbeat begins, after any calls of any callers. -/
def started (settings : RegistrySettings)
    (schedule : List (RegistryEvent ι)) (begins : Int) : Supervised ι where
  store := run (perform settings) {} schedule
  lastStep := begins
  clock := begins

theorem kept_run
    (brief : 2 * timing.pause + timing.latency < timing.term)
    (lives : (timing.term : Int) ≤ config.ttlSeconds)
    {schedule : List (RegistryEvent ι)}
    (timely : ∀ event ∈ schedule, event.Timely)
    (idle : (run (perform settings) ({} : AgentRegistryStore ι)
      schedule).held client = none)
    {begins : Int} {events : List (SupervisedEvent ι)}
    (allowed : EveryStep (step config client settings)
      (Allowed settings config client timing)
      (started settings schedule begins) events) :
    (run (step config client settings) (started settings schedule begins)
      events).Kept config client timing := by
  refine run_invariant (Kept config client timing) ?_ ?_ allowed
  · intro state event kept allowed
    cases event with
    | own moment stamp status metadata =>
        exact kept.own brief lives allowed
    | other event =>
        exact kept.other allowed
  · refine ⟨le_rfl, dropsLate_run timely, ?_, ?_⟩
    · intro found isHeld
      rw [show (started settings schedule begins).store.held client = none
        from idle] at isHeld
      cases isHeld
    · exact Or.inr (Or.inl ⟨rfl, rfl, idle⟩)

/-- From the second step of a punctual process on, its agent is in every
listing whose filters its entry passes, whatever has been done to the registry
before, and whatever others do to it besides deleting the agent. -/
theorem punctual_agent_always_listed
    {policy : RegistryPolicyConfig} {halfPower : ℚ → ℚ}
    {python : PyBuiltins} (enabled : policy.enable = true)
    (patient : ∀ span ∈ patience policy, (timing.term : Int) ≤ span)
    (brief : 2 * timing.pause + timing.latency < timing.term)
    (lives : (timing.term : Int) ≤ config.ttlSeconds)
    {schedule : List (RegistryEvent ι)}
    (timely : ∀ event ∈ schedule, event.Timely)
    (idle : (run (perform settings) ({} : AgentRegistryStore ι)
      schedule).held client = none)
    {begins : Int} {events : List (SupervisedEvent ι)}
    (allowed : EveryStep (step config client settings)
      (Allowed settings config client timing)
      (started settings schedule begins) events)
    {queriedAt now : Int} :
    let reached := run (step config client settings)
      (started settings schedule begins) events
    2 ≤ reached.steps → queriedAt ≤ now →
      now ≤ reached.lastStep + timing.pause →
        ∃ entry, reached.store.held? config.key = some entry ∧
          ∀ query : AgentQuery,
            query.Admits python entry (statusText entry.status) →
              ∃ doc ∈ reached.store.list policy halfPower python queriedAt
                  now config.username query,
                doc.entry = entry := by
  intro reached begun queried soon
  have kept : reached.Kept config client timing :=
    kept_run brief lives timely idle allowed
  rcases kept.stage with
    ⟨entry, isEntry, lasts, recent, _⟩ | ⟨none, _⟩ | ⟨one, _⟩
  · have alive : entry.lease.AliveAt (patience policy) now :=
      Lease.aliveAt_of_term lasts patient
        (by dsimp only [RegistryEntry.lease]; omega)
    have found : reached.store.getRaw queriedAt config.key = some entry :=
      getRaw_of_lasts kept.late isEntry lasts (by omega)
    have belongs := belongsTo_docKey config.username config.agentId
    refine ⟨entry, isEntry, ?_⟩
    intro query admits
    exact exists_listed_of_alive enabled
      (mem_fetchAll_of_getRaw found belongs) alive admits
  · omega
  · omega

/-! ## A planner that sends heartbeats -/

def plannerConfig : AgentRegistryConfig where
  username := "alice"
  agentId := "planner"
  serviceName := "planner"
  description := none
  capabilities := ["plan"]
  tags := []
  ttlSeconds := 30
  host := .empty

/-- The agent is unknown and registers; then somebody else looks at its
entry. -/
def plannerSteps : List (SupervisedEvent Bool) :=
  [.own 0 0 .idle .empty, .own 10 10 .idle .empty,
    .other ⟨15, .read false "alice" "planner"⟩]

theorem plannerSteps_allowed :
    EveryStep (step plannerConfig true registrySettings)
      (Allowed registrySettings plannerConfig true ⟨10, 0, 30⟩)
      (started registrySettings [] 0) plannerSteps :=
  ⟨⟨by decide, by decide, by decide, by decide⟩,
    ⟨by decide, by decide, by decide, by decide⟩,
    ⟨by decide, trivial, Bool.false_ne_true,
      fun _ none => by cases none⟩, trivial⟩

theorem punctual_planner_listed :
    ∃ entry, (run (step plannerConfig true registrySettings)
        (started registrySettings [] 0) plannerSteps).store.held?
          plannerConfig.key = some entry ∧
      ∀ query : AgentQuery,
        query.Admits Cnp.plainPython entry (statusText entry.status) →
          ∃ doc ∈ (run (step plannerConfig true registrySettings)
              (started registrySettings [] 0) plannerSteps).store.list
                defaultPolicy id Cnp.plainPython 20 20 "alice" query,
            doc.entry = entry :=
  punctual_agent_always_listed rfl (by decide) (by decide) (by decide)
    (fun _ none => by cases none) rfl plannerSteps_allowed le_rfl le_rfl
    (by decide)

end Supervised

end Agentcy.Registry
