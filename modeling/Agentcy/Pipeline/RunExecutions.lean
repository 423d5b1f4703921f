import Agentcy.Pipeline.RunSimulation

/-!
# What the runs of a pipeline execute

A run always comes to an end, and no order of its steps gets it stuck before.
Which tasks have been executed by then, in which order, and how often each of
them at most, follows from the network of the pipeline: the processes run
nothing but the network and, if the process of every task listens, all of it.
-/

namespace Agentcy.Pipeline

open Agentcy.Bootstrap (EntryMessage BootAction Processes)
open Agentcy.Broker
open Agentcy.Consumer
open Agentcy.Forwarder
open Agentcy.Library
open Agentcy.Parser
open Agentcy.Runs

namespace LaunchedPipeline

variable {pipeline : LaunchedPipeline}

/-- An execution without a result. -/
instance : Inhabited Encounter :=
  ⟨{ worker := { stores := { runs := fun _ => none } }
     execution :=
      { attempts := fun _ => { logic := none, clock := ⟨0, 0, 0⟩ } }
     published := fun _ => rfl }⟩

theorem length_running_handleMessage
    (state : RunState) (left : List (String × Envelope))
    (service queue toTask : String) (message : Envelope) :
    (pipeline.handleMessage state left service queue toTask
      message).running.length ≤ state.running.length + 1 := by
  unfold handleMessage
  generalize defaultHandler (pipeline.serviceConfig service)
    (state.buffers service) ⟨some toTask, message⟩ = handled
  obtain ⟨store, call?⟩ := handled
  cases call? with
  | none =>
      exact Nat.le_succ _
  | some call =>
      exact le_of_eq List.length_append

/-- Steps that are left at most: each of the network, and the end of the call
that it may lead to. -/
def remaining
    (pipeline : LaunchedPipeline) (state : RunState)
    (marking : Marking String) : ℕ :=
  2 * pipeline.network.potential marking + state.running.length

section Forward

variable (named : WellNamed pipeline.tasks)

include named

/-- A step of the processes is a step of the network, or the end of a call,
which the network does not see. -/
theorem Simulates.step
    {state later : RunState} {marking : Marking String}
    (simulates : pipeline.Simulates state marking)
    (step : pipeline.Step state later) :
    ∃ after, pipeline.Simulates later after ∧
      (pipeline.network.Step marking after ∨ after = marking) ∧
      pipeline.remaining later after < pipeline.remaining state marking := by
  cases step with
  | @start entry toTask front back rest waits _ =>
      obtain ⟨isWaiting, simulated⟩ := simulates.start waits
      have taken : pipeline.network.Step marking _ := .start isWaiting
      refine ⟨_, simulated, Or.inl taken, ?_⟩
      have less := pipeline.network.potential_step taken
      have longer : (pipeline.startEntry state (front ++ rest :: back)
          front.length entry toTask).running.length =
            state.running.length + 1 :=
        List.length_append
      unfold remaining
      omega
  | @handle service queue info message front back _ consumes arrived _ _ =>
      obtain ⟨edge, sent, _, simulated⟩ :=
        simulates.handle named consumes arrived
      have taken : pipeline.network.Step marking _ := .deliver sent
      refine ⟨_, simulated, Or.inl taken, ?_⟩
      have less := pipeline.network.potential_step taken
      have longer := @length_running_handleMessage pipeline state
        (front ++ back) service queue info.toTask message
      unfold remaining
      omega
  | @finish running front back going encounter =>
      refine ⟨marking, simulates.finish named going encounter, Or.inr rfl,
        ?_⟩
      have shorter : (pipeline.finishCall state (front ++ back) running
          encounter).running.length = (front ++ back).length := rfl
      unfold remaining
      rw [shorter, going, List.length_append, List.length_append,
        List.length_cons]
      omega

theorem Simulates.steps
    {state later : RunState} {marking : Marking String}
    (simulates : pipeline.Simulates state marking)
    (run : Relation.ReflTransGen pipeline.Step state later) :
    ∃ after, pipeline.Simulates later after ∧
      Relation.ReflTransGen pipeline.network.Step marking after := by
  induction run with
  | refl =>
      exact ⟨marking, simulates, .refl⟩
  | tail _ step inductionHypothesis =>
      obtain ⟨before, simulated, before_run⟩ := inductionHypothesis
      obtain ⟨after, result, taken | rfl, _⟩ := simulated.step named step
      · exact ⟨after, result, before_run.tail taken⟩
      · exact ⟨_, result, before_run⟩

theorem exists_marking
    {state : RunState} (reachable : pipeline.Reachable state) :
    ∃ marking, pipeline.Simulates state marking ∧
      pipeline.network.Reachable marking :=
  simulates_initial.steps named reachable

end Forward

/-- The oldest message of a queue. -/
theorem exists_first
    {queued : List (String × Envelope)} {queue : String}
    {message : Envelope} (among : (queue, message) ∈ queued) :
    ∃ front oldest back, queued = front ++ (queue, oldest) :: back ∧
      ∀ earlier ∈ front, earlier.1 ≠ queue := by
  induction queued with
  | nil =>
      cases among
  | cons first rest inductionHypothesis =>
      obtain ⟨name, content⟩ := first
      by_cases same : name = queue
      · subst same
        exact ⟨[], content, rest, rfl, fun _ none => by cases none⟩
      · have later : (queue, message) ∈ rest := by
          rcases List.mem_cons.mp among with here | later
          · exact absurd (Prod.mk.inj here).1.symm same
          · exact later
        obtain ⟨front, oldest, back, split, apart⟩ :=
          inductionHypothesis later
        refine ⟨(name, content) :: front, oldest, back,
          congrArg (_ :: ·) split, ?_⟩
        intro earlier member
        rcases List.mem_cons.mp member with here | before
        · rw [here]
          exact same
        · exact apart earlier before

theorem exists_finish
    {state : RunState} (going : state.running ≠ []) :
    ∃ running rest, state.running = running :: rest ∧
      pipeline.Step state
        (pipeline.finishCall state rest running default) := by
  obtain ⟨running, rest, split⟩ := List.exists_cons_of_ne_nil going
  refine ⟨running, rest, split, ?_⟩
  exact @Step.finish pipeline state running [] rest split default

/-- An entry task that a listener has next, with nothing under way. -/
theorem exists_start
    {state : RunState} (idle : state.running = [])
    {front back : List (List (EntryMessage × String))}
    {entry : EntryMessage} {toTask : String}
    {rest : List (EntryMessage × String)}
    (waits : state.entries = front ++ ((entry, toTask) :: rest) :: back) :
    pipeline.Step state
      (pipeline.startEntry state (front ++ rest :: back) front.length entry
        toTask) := by
  refine .start waits ?_
  intro running member
  rw [idle] at member
  cases member

/-- A message for a process that listens, with nothing under way. -/
theorem exists_handle
    {state : RunState} (idle : state.running = [])
    {service queue : String} {message : Envelope} {info : ConsumerQueue}
    (listens : pipeline.Listens service)
    (consumes : (pipeline.consumed service).get? queue = some info)
    (among : (queue, message) ∈ state.queued) :
    ∃ front oldest back,
      state.queued = front ++ (queue, oldest) :: back ∧
      pipeline.Step state
        (pipeline.handleMessage state (front ++ back) service queue
          info.toTask oldest) := by
  obtain ⟨front, oldest, back, arrived, first⟩ := exists_first among
  refine ⟨front, oldest, back, arrived,
    .handle listens consumes arrived first ?_⟩
  intro running member
  rw [idle] at member
  cases member

/-- A run that is not finished goes on. -/
theorem exists_step_of_not_finished
    {state : RunState} (unfinished : ¬ pipeline.Finished state) :
    ∃ later, pipeline.Step state later := by
  by_cases idle : state.running = []
  · by_cases entries : state.entries.flatten = []
    · have left : ∃ message ∈ state.queued, ∃ service,
          pipeline.Listens service ∧
            (pipeline.consumed service).get? message.1 ≠ none := by
        by_contra nothing
        push Not at nothing
        exact unfinished ⟨entries, idle, nothing⟩
      obtain ⟨message, among, service, listens, some⟩ := left
      obtain ⟨info, consumes⟩ := Option.ne_none_iff_exists'.mp some
      obtain ⟨_, _, _, _, step⟩ :=
        exists_handle idle listens consumes among
      exact ⟨_, step⟩
    · obtain ⟨entries, isLine, some⟩ := List.flatten_ne_nil_iff.mp entries
      obtain ⟨front, back, split⟩ := List.append_of_mem isLine
      obtain ⟨⟨entry, toTask⟩, rest, rfl⟩ :=
        List.exists_cons_of_ne_nil some
      exact ⟨_, exists_start idle split⟩
  · obtain ⟨_, _, _, step⟩ := @exists_finish pipeline state idle
    exact ⟨_, step⟩

theorem exists_finished
    (named : WellNamed pipeline.tasks)
    {state : RunState} {marking : Marking String}
    (simulates : pipeline.Simulates state marking) :
    ∃ last, Relation.ReflTransGen pipeline.Step state last ∧
      pipeline.Finished last := by
  induction size : pipeline.remaining state marking using
    Nat.strong_induction_on generalizing state marking with
  | _ size inductionHypothesis =>
      by_cases finished : pipeline.Finished state
      · exact ⟨state, .refl, finished⟩
      · obtain ⟨later, step⟩ := exists_step_of_not_finished finished
        obtain ⟨after, simulated, _, less⟩ := simulates.step named step
        obtain ⟨last, run, isLast⟩ :=
          inductionHypothesis _ (size ▸ less) simulated rfl
        exact ⟨last, run.head step, isLast⟩

/-- Calls under way can be brought to their end. -/
theorem exists_idle
    (named : WellNamed pipeline.tasks)
    {state : RunState} {marking : Marking String}
    (simulates : pipeline.Simulates state marking) :
    ∃ later, Relation.ReflTransGen pipeline.Step state later ∧
      pipeline.Simulates later marking ∧ later.running = [] ∧
      later.entries = state.entries ∧ later.executed = state.executed := by
  induction size : state.running.length generalizing state with
  | zero =>
      exact ⟨state, .refl, simulates, List.eq_nil_of_length_eq_zero size,
        rfl, rfl⟩
  | succ count inductionHypothesis =>
      have going : state.running ≠ [] := by
        intro idle
        rw [idle] at size
        cases size
      obtain ⟨running, rest, split, step⟩ := exists_finish going
      have simulated := @Simulates.finish pipeline state marking named
        simulates running [] rest split default
      have shorter : rest.length = count := by
        rw [split] at size
        exact Nat.succ.inj size
      obtain ⟨later, run, result⟩ := inductionHypothesis simulated shorter
      exact ⟨later, run.head step, result⟩

/-- The process of every task listens. -/
def Attended (pipeline : LaunchedPipeline) : Prop :=
  ∀ taskId ∈ pipeline.ids, pipeline.Listens (pipeline.serviceOf taskId)

section Backward

variable (named : WellNamed pipeline.tasks) (attended : pipeline.Attended)

include named attended

theorem exists_consumer
    {queue : String} {edge : String × String}
    (isEdge : pipeline.edgeOf queue = some edge) :
    ∃ info, pipeline.Listens (pipeline.serviceOf edge.2) ∧
      (pipeline.consumed (pipeline.serviceOf edge.2)).get? queue =
        some info := by
  obtain ⟨isPair, rfl⟩ := (edgeOf_eq_some_iff named).mp isEdge
  obtain ⟨info, consumes, _⟩ := exists_consumed named isPair
  exact ⟨info, attended _ (pipeline.edge_inside isPair).2, consumes⟩

/-- With nothing under way, the processes can take every step of the
network. -/
theorem Simulates.follow
    {state : RunState} {marking after : Marking String}
    (simulates : pipeline.Simulates state marking)
    (idle : state.running = [])
    (step : pipeline.network.Step marking after) :
    ∃ later, pipeline.Step state later ∧
      pipeline.Simulates later after := by
  cases step with
  | @start netFront netBack taskId netRest waits =>
      rw [simulates.waiting] at waits
      obtain ⟨front, lines, split, rfl, sameLines⟩ :=
        List.map_eq_append_iff.mp waits
      obtain ⟨line, back, rfl, sameLine, rfl⟩ :=
        List.map_eq_cons_iff.mp sameLines
      obtain ⟨⟨entry, toTask⟩, rest, rfl, sameTask, rfl⟩ :=
        List.map_eq_cons_iff.mp sameLine
      obtain rfl : toTask = taskId := sameTask
      exact ⟨_, exists_start idle split, (simulates.start split).2⟩
  | @deliver edge sent =>
      have inQueues := sent
      rw [simulates.tokens] at inQueues
      unfold tokensOf at inQueues
      rw [idle, List.map_nil, List.sum_nil, add_zero] at inQueues
      obtain ⟨⟨queue, message⟩, among, isEdge⟩ :=
        List.mem_filterMap.mp (Multiset.mem_coe.mp inQueues)
      have isEdge : pipeline.edgeOf queue = some edge := isEdge
      obtain ⟨info, listens, consumes⟩ :=
        exists_consumer named attended isEdge
      obtain ⟨front, oldest, back, arrived, step⟩ :=
        exists_handle idle listens consumes among
      obtain ⟨other, _, alsoEdge, simulated⟩ :=
        simulates.handle named consumes arrived
      rw [isEdge] at alsoEdge
      cases alsoEdge
      exact ⟨_, step, simulated⟩

/-- Every marking that the network reaches is one that the processes reach,
with all calls at their end. -/
theorem exists_state
    {marking : Marking String}
    (reachable : pipeline.network.Reachable marking) :
    ∃ state, pipeline.Reachable state ∧ pipeline.Simulates state marking ∧
      state.running = [] := by
  induction reachable with
  | refl =>
      exact ⟨pipeline.initial, .refl, simulates_initial, rfl⟩
  | tail _ step inductionHypothesis =>
      obtain ⟨state, run, simulates, idle⟩ := inductionHypothesis
      obtain ⟨next, taken, simulated⟩ :=
        simulates.follow named attended idle step
      obtain ⟨later, ends, result, ended, _⟩ := exists_idle named simulated
      exact ⟨later, (run.tail taken).trans ends, result, ended⟩

theorem Simulates.finished
    {state : RunState} {marking : Marking String}
    (simulates : pipeline.Simulates state marking)
    (finished : pipeline.Finished state) : marking.Finished := by
  obtain ⟨entries, idle, unconsumed⟩ := finished
  have nothing : state.queued.filterMap
      (fun message => pipeline.edgeOf message.1) = [] := by
    rw [List.filterMap_eq_nil_iff]
    intro message among
    cases isEdge : pipeline.edgeOf message.1 with
    | none =>
        rfl
    | some edge =>
        obtain ⟨info, listens, consumes⟩ :=
          exists_consumer named attended isEdge
        rw [unconsumed message among _ listens] at consumes
        cases consumes
  refine ⟨?_, ?_⟩
  · rw [Marking.pending, simulates.waiting, ← List.map_flatten, entries]
    rfl
  · rw [simulates.tokens, tokensOf, nothing, idle]
    rfl

end Backward

theorem Simulates.finished_of_marking
    (named : WellNamed pipeline.tasks)
    {state : RunState} {marking : Marking String}
    (simulates : pipeline.Simulates state marking)
    (idle : state.running = []) (finished : marking.Finished) :
    pipeline.Finished state := by
  obtain ⟨noStarts, noTokens⟩ := finished
  refine ⟨?_, idle, ?_⟩
  · rw [Marking.pending, simulates.waiting, ← List.map_flatten] at noStarts
    exact List.map_eq_nil_iff.mp noStarts
  · intro message among service _
    cases consumes : (pipeline.consumed service).get? message.1 with
    | none =>
        rfl
    | some info =>
        obtain ⟨upstream, _, _, isEdge, _⟩ :=
          exists_edge named simulates consumes among
        have sent : (upstream, info.toTask) ∈ marking.tokens := by
          rw [simulates.tokens]
          exact Multiset.mem_add.mpr (Or.inl (Multiset.mem_coe.mpr
            (List.mem_filterMap.mpr ⟨message, among, isEdge⟩)))
        rw [noTokens] at sent
        exact absurd sent (Multiset.notMem_zero _)

/-- The processes execute the tasks in exactly the orders in which the network
fires its nodes. -/
theorem executed_iff_fired
    (named : WellNamed pipeline.tasks) (attended : pipeline.Attended)
    (taskIds : List String) :
    (∃ state, pipeline.Reachable state ∧ state.executed = taskIds) ↔
      ∃ marking, pipeline.network.Reachable marking ∧
        marking.fired = taskIds := by
  constructor
  · rintro ⟨state, reachable, rfl⟩
    obtain ⟨marking, simulates, netReachable⟩ :=
      exists_marking named reachable
    exact ⟨marking, netReachable, simulates.fired⟩
  · rintro ⟨marking, netReachable, rfl⟩
    obtain ⟨state, reachable, simulates, _⟩ :=
      exists_state named attended netReachable
    exact ⟨state, reachable, simulates.fired.symm⟩

/-- No task has been executed before one of its dependencies. -/
def InOrder (pipeline : LaunchedPipeline) (state : RunState) : Prop :=
  ∀ before taskId after, state.executed = before ++ taskId :: after →
    ∀ upstream, taskId ∈ downstream pipeline.tasks upstream →
      upstream ∈ before

theorem Simulates.inOrder_iff
    {state : RunState} {marking : Marking String}
    (simulates : pipeline.Simulates state marking) :
    pipeline.InOrder state ↔ pipeline.network.FiredInOrder marking := by
  unfold InOrder Network.FiredInOrder
  rw [simulates.fired]
  refine forall_congr' fun before => forall_congr' fun taskId =>
    forall_congr' fun after => imp_congr_right fun _ => ?_
  constructor
  · intro ordered upstream isInput
    exact List.mem_toFinset.mpr (ordered upstream (mem_inputs_iff.mp
      isInput))
  · intro ordered upstream edge
    exact List.mem_toFinset.mp (ordered (mem_inputs_iff.mpr edge))

/-- A listener may forward some of its entry tasks, each after the end of the
one before, while nothing else is done. -/
theorem exists_begun
    (named : WellNamed pipeline.tasks)
    {front back : List (List (EntryMessage × String))}
    (done left : List (EntryMessage × String))
    (isLine : pipeline.initial.entries =
      front ++ (done ++ left) :: back) :
    ∃ state, pipeline.Reachable state ∧
      state.executed = done.map Prod.snd := by
  have idle : ∃ state marking, pipeline.Reachable state ∧
      pipeline.Simulates state marking ∧ state.running = [] ∧
      state.entries = front ++ left :: back ∧
      state.executed = done.map Prod.snd := by
    induction done using List.reverseRecOn generalizing left with
    | nil =>
        exact ⟨pipeline.initial, pipeline.network.initial, .refl,
          simulates_initial, rfl, isLine, rfl⟩
    | append_singleton done entry inductionHypothesis =>
        obtain ⟨state, marking, reachable, simulates, idle, waits,
          executed⟩ := inductionHypothesis (entry :: left) (by
            rw [isLine, List.append_assoc done [entry] left]
            rfl)
        have step := @exists_start pipeline state idle front back entry.1
          entry.2 left waits
        obtain ⟨later, run, simulated, ended, same⟩ :=
          exists_idle named (simulates.start waits).2
        refine ⟨later, _, (reachable.tail step).trans run, simulated, ended,
          same.1, same.2.trans ?_⟩
        rw [List.map_append, ← executed]
        rfl
  obtain ⟨state, _, reachable, _, _, _, executed⟩ := idle
  exact ⟨state, reachable, executed⟩

/-- Every task is executed after its dependencies, in every run, exactly if
every listener forwards an entry task after the dependencies of the task. -/
theorem executed_in_order_iff (named : WellNamed pipeline.tasks) :
    (∀ state, pipeline.Reachable state → pipeline.InOrder state) ↔
      ∀ entries ∈ pipeline.initial.entries, ∀ before entry after,
        entries = before ++ entry :: after →
          ∀ upstream, entry.2 ∈ downstream pipeline.tasks upstream →
            ∃ earlier ∈ before, earlier.2 = upstream := by
  constructor
  · intro ordered entries isLine before entry after split upstream edge
    obtain ⟨front, back, whole⟩ := List.append_of_mem isLine
    -- the listener may forward these entry tasks before anything else is done
    obtain ⟨state, reachable, executed⟩ := exists_begun named
      (before ++ [entry]) after (by
        rw [List.append_assoc before [entry] after, whole, split]
        rfl)
    rw [List.map_append] at executed
    exact List.mem_map.mp
      (ordered state reachable _ entry.2 [] executed upstream edge)
  · intro inOrder state reachable
    obtain ⟨marking, simulates, netReachable⟩ :=
      exists_marking named reachable
    refine simulates.inOrder_iff.mpr
      (pipeline.network.firedInOrder_iff.mpr ?_ marking netReachable)
    intro line isLine netBefore taskId netAfter split upstream isInput
    obtain ⟨listener, among, rfl⟩ := List.mem_map.mp isLine
    obtain ⟨before, rest, whole, rfl, sameRest⟩ :=
      List.map_eq_append_iff.mp split
    obtain ⟨entry, after, rfl, rfl, _⟩ := List.map_eq_cons_iff.mp sameRest
    obtain ⟨earlier, isEarlier, same⟩ := inOrder _
      (List.mem_map.mpr ⟨listener, among, rfl⟩) before entry after whole
      upstream (mem_inputs_iff.mp isInput)
    exact List.mem_toFinset.mpr (List.mem_map.mpr ⟨earlier, isEarlier, same⟩)

/-! ## Every task -/

/-- No run executes a task more often than its network allows, and one run to
the end executes every task as often as that. -/
theorem executions_peak
    (named : WellNamed pipeline.tasks) (attended : pipeline.Attended) :
    (∀ state, pipeline.Reachable state → ∀ taskId ∈ pipeline.ids,
      state.executed.count taskId ≤ pipeline.network.peak taskId) ∧
      ∃ state, pipeline.Reachable state ∧ pipeline.Finished state ∧
        ∀ taskId ∈ pipeline.ids,
          state.executed.count taskId = pipeline.network.peak taskId := by
  refine ⟨?_, ?_⟩
  · intro state reachable taskId isTask
    obtain ⟨marking, simulates, netReachable⟩ :=
      exists_marking named reachable
    rw [← simulates.fired]
    exact (Network.Coherent.of_reachable netReachable).count_fired_le_peak
      (mem_nodes_iff.mpr isTask)
  · obtain ⟨marking, netReachable, finished, counts⟩ :=
      pipeline.network.exists_finished_at_peak
    obtain ⟨state, reachable, simulates, idle⟩ :=
      exists_state named attended netReachable
    refine ⟨state, reachable,
      simulates.finished_of_marking named idle finished, ?_⟩
    intro taskId isTask
    rw [← simulates.fired]
    exact counts taskId (mem_nodes_iff.mpr isTask)

end LaunchedPipeline

/-! ## A chain of two tasks -/

def chainDag : PipelineStore.DAGConfig where
  tasks :=
    [PipelineStore.shopTask "pack" [] false,
      PipelineStore.shopTask "ship" ["pack"] true]

def chainConfig : FinalConfig :=
  (parseGraph .ofDedup .ofDedup examplePipeline
    (Tracker.dagDump chainDag)).toOption.get (by decide +kernel)

def shopLaunch : Bootstrap.RunRef where
  username := "alice"
  pipelineId := "0"
  runId := "7"
  configId := "0"

theorem seven_nonempty : "7" ≠ "" := by
  decide

theorem seven_letters : ∀ letter ∈ "7".toList,
    letter.isDigit || ('a' ≤ letter && letter ≤ 'f') || letter == '-' :=
  List.all_eq_true.mp (by decide)

/-- The broadcast of the launch reaches the process of the shop. -/
def chainPipeline : LaunchedPipeline where
  keyOrder := .ofDedup
  parserOrder := .ofDedup
  configId := examplePipeline
  dag := chainDag
  config := chainConfig
  accepted := accepted_of_isSome (by decide +kernel)
  order := .ofDedup
  suffixed := true
  run :=
    { id := ⟨"7", seven_nonempty, seven_letters⟩
      fresh := by decide +kernel }
  launch := shopLaunch
  sameRun := rfl
  env := {}
  finalConfig := fun _ _ => some (Tracker.configDoc chainDag chainConfig)
  stored := rfl
  listeners := [⟨"shop", [shopLaunch.started]⟩]

theorem chain_wellNamed : WellNamed chainPipeline.tasks where
  nonempty := by decide +kernel
  ordinary := by decide +kernel
  trimmed := by
    have last : ∀ task ∈ chainPipeline.tasks,
        task.id.toList.getLast? = some 'k' ∨
          task.id.toList.getLast? = some 'p' := by
      decide +kernel
    rintro task member ⟨letter, isLast, space⟩
    rcases last task member with ends | ends
    · rw [ends] at isLast
      cases isLast
      exact absurd space (by decide)
    · rw [ends] at isLast
      cases isLast
      exact absurd space (by decide)
  undivided := noLaterDivision_of_plain (by decide +kernel)

theorem chain_attended : chainPipeline.Attended := by
  have service : ∀ taskId ∈ chainPipeline.ids,
      chainPipeline.serviceOf taskId = "shop" := by
    decide +kernel
  intro taskId isTask
  have delivered :
      ⟨"shop", shopLaunch.started⟩ ∈ chainPipeline.deliveries :=
    List.mem_singleton_self _
  rw [service taskId isTask]
  exact LaunchedPipeline.listens_of_delivered delivered
    (Bootstrap.bootedBy_started shopLaunch)

theorem chain_source (upstream : String) :
    "pack" ∉ downstream chainPipeline.tasks upstream := by
  intro edge
  obtain ⟨task, member, named, sameId⟩ := mem_downstream_iff.mp edge
  have source : ∀ task ∈ chainPipeline.tasks, task.id = "pack" →
      task.upstream = [] := by
    decide +kernel
  rw [source task member sameId] at named
  cases named

theorem chain_executes_pack :
    ∃ state, chainPipeline.Reachable state ∧ state.executed = ["pack"] := by
  refine (LaunchedPipeline.executed_iff_fired chain_wellNamed
    chain_attended ["pack"]).mpr ?_
  have lines : chainPipeline.lines = [["pack"]] := by
    decide +kernel
  have waits : chainPipeline.network.initial.waiting =
      [] ++ ["pack"] :: [] := lines
  exact ⟨_, .single (.start waits), rfl⟩

theorem chain_in_order :
    chainPipeline.initial.entries.flatten ≠ [] ∧
      ∀ state, chainPipeline.Reachable state →
        chainPipeline.InOrder state := by
  refine ⟨by decide +kernel, ?_⟩
  refine (LaunchedPipeline.executed_in_order_iff chain_wellNamed).mpr ?_
  intro entries isLine before entry after split upstream edge
  have first : ∀ entries ∈ chainPipeline.initial.entries,
      ∀ entry ∈ entries, entry.2 = "pack" := by
    decide +kernel
  rw [first entries isLine entry
    (split ▸ List.mem_append_right _ List.mem_cons_self)] at edge
  exact absurd edge (chain_source upstream)

theorem chain_peak :
    (∀ state, chainPipeline.Reachable state →
      ∀ taskId ∈ chainPipeline.ids,
        state.executed.count taskId ≤
          chainPipeline.network.peak taskId) ∧
      ∃ state, chainPipeline.Reachable state ∧
        chainPipeline.Finished state ∧
          ∀ taskId ∈ chainPipeline.ids,
            state.executed.count taskId =
              chainPipeline.network.peak taskId :=
  LaunchedPipeline.executions_peak chain_wellNamed chain_attended

end Agentcy.Pipeline
