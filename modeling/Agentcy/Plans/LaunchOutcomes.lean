import Agentcy.Plans.SystemExecutor
import Mathlib.Data.List.Perm.Basic

/-!
# Outcomes and start commands

The launch mode of the system executor with the errors that it can meet: the
first loop gives failed tasks an outcome and the others a start command, the
commands are published one after another, and the second loop gives an outcome
to every entry whose text has none yet.
-/

namespace Agentcy.Plans

open Agentcy.Library

/-- The broker of the start commands.  With a channel, the attempt to publish
a command may raise. -/
inductive StartBroker where
  | unconfigured
  | unreachable
  | channel (attempt : Nat → Option String)
  deriving Inhabited

structure LaunchSetup extends ExecutorSetup where
  /-- Whether `float(value)` succeeds. -/
  readsFloat : Json → Bool
  broker : StartBroker

inductive LaunchError where
  | python (error : PyError)
  | noChannel

structure LaunchResult where
  outcomes : List ExecutionOutcome
  published : List (StartTask × Option String)

/-- `overrides.get(name, {})`, where the code goes on to use a dict. -/
def overrideNamed (overrides : Overrides) (name : String) :
    Except PyError Fields :=
  match OrderedMap.lookupEntries name overrides.executionOverrides with
  | none => .ok []
  | some changes => changes.fields

/-- `overrides.get(task_id, {})`, which hashes its argument. -/
def taskOverride (overrides : Overrides) (taskId : Json) :
    Except PyError Fields := do
  match ← taskId.hash with
  | .str name => overrideNamed overrides name
  | _ => return []

/-- `(task.get("metadata") or {}).get("payload")`, for a task without a
payload of its own. -/
def readPayload (task : Fields) : Except PyError Unit :=
  if (task.get "payload").truthy || !(task.get "metadata").truthy then
    .ok ()
  else
    (task.get "metadata").fields.map fun _ => ()

namespace LaunchSetup

variable (setup : LaunchSetup) (overrides : Overrides)

/-- The conversions that building an outcome makes: of the duration to a
float, of the agent to an optional string, and the first capability. -/
def checkOutcome (task changes : Fields) : Except PyError Unit := do
  match OrderedMap.lookupEntries "duration_seconds" changes with
  | none => pure ()
  | some duration =>
      if setup.readsFloat duration then pure () else .error .valueError
  match task.get "assigned_agent" with
  | .null => pure ()
  | .str _ => pure ()
  | _ => .error .valueError
  let capabilities := task.get "required_capabilities"
  if capabilities.truthy then
    match capabilities with
    | .list _ => .ok ()
    | .str _ => .ok ()
    | .dict _ => .error .keyError
    | _ => .error .typeError
  else
    .ok ()

def failEntry (task changes : Fields) (error : String) :
    Except PyError (Option (ExecutionOutcome ⊕ StartTask)) := do
  setup.checkOutcome task changes
  return some (.inl (failedOutcome setup.python task error))

/-- The body of the first loop. -/
def launchEntry (task : Json) :
    Except PyError (Option (ExecutionOutcome ⊕ StartTask)) := do
  let task ← task.fields
  let taskId := task.get "task_id"
  if taskId.truthy then
    let changes ← taskOverride overrides taskId
    match setup.resolveServiceName task with
    | none => setup.failEntry task changes "service_name_unresolved"
    | some serviceName =>
        match resolveRuntimeAndArtifact setup.python task
            (setup.serviceDoc? serviceName) with
        | (_, .error reason) => setup.failEntry task changes reason
        | (runtime, .ok artifact) => do
            readPayload task
            if forceFails setup.python overrides task then
              setup.failEntry task changes "forced_failure"
            else
              return some (.inr
                { taskId := taskId.pyStr setup.python
                  serviceName := serviceName
                  runtime := orElse runtime (.str "python_plugin")
                  artifact := artifact })
  else
    return none

/-- The outcome that the second loop builds. -/
def finishEntry (publishErrors : String → Option String) (task : Fields) :
    Except PyError ExecutionOutcome := do
  let taskId := (task.get "task_id").pyStr setup.python
  let changes ← overrideNamed overrides taskId
  setup.checkOutcome task changes
  let error := publishErrors taskId
  return {
    taskId := taskId
    agentId := task.get "assigned_agent"
    success := error.isNone
    error := error }

def finishEntries (publishErrors : String → Option String) :
    List ExecutionOutcome → List Json →
      Except PyError (List ExecutionOutcome)
  | outcomes, [] => .ok outcomes
  | outcomes, task :: rest => do
      let task ← task.fields
      let taskId := (task.get "task_id").pyStr setup.python
      if outcomes.any fun outcome => decide (outcome.taskId = taskId) then
        finishEntries publishErrors outcomes rest
      else
        let outcome ← setup.finishEntry overrides publishErrors task
        finishEntries publishErrors (outcomes ++ [outcome]) rest

/-- `_publish_start_tasks`. -/
def publishStartTasks (commands : List StartTask) :
    Except LaunchError (List (StartTask × Option String)) :=
  match setup.broker with
  | .unconfigured =>
      .ok (commands.map fun command =>
        (command, some "rabbit_not_configured"))
  | .unreachable => .error .noChannel
  | .channel attempt =>
      .ok (commands.zipIdx.map fun command =>
        (command.1, (attempt command.2).map fun raised =>
          "start_task_publish_failed:" ++ raised))

/-- `publish_errors.get(task_id)`: of several errors the last one counts. -/
def publishErrors (published : List (StartTask × Option String))
    (taskId : String) : Option String :=
  ((published.filter fun item =>
    decide (item.1.taskId = taskId)).filterMap Prod.snd).getLast?

/-- The outcomes that the first loop gives to entries that fail, and the
commands for the others. -/
def failures (launched : List (Option (ExecutionOutcome ⊕ StartTask))) :
    List ExecutionOutcome :=
  launched.filterMap fun result => result.bind Sum.getLeft?

def commands (launched : List (Option (ExecutionOutcome ⊕ StartTask))) :
    List StartTask :=
  launched.filterMap fun result => result.bind Sum.getRight?

def launchPlan (tasks : List Json) : Except LaunchError LaunchResult := do
  let launched ←
    (tasks.mapM (setup.launchEntry overrides)).mapError .python
  let published ← setup.publishStartTasks (commands launched)
  let outcomes ←
    (setup.finishEntries overrides (publishErrors published)
      (failures launched) tasks).mapError .python
  return { outcomes := outcomes, published := published }

end LaunchSetup

/-- The text of the identifier of an entry. -/
def entryText (python : PyBuiltins) : Json → String
  | .dict task => (Fields.get task "task_id").pyStr python
  | _ => ""

/-- How many commands for a task were published without an error. -/
def LaunchResult.started (result : LaunchResult) (taskId : String) : Nat :=
  result.published.countP fun item =>
    item.2.isNone && decide (item.1.taskId = taskId)

/-- One outcome for each entry, a success exactly if one command for the
entry's task was published. -/
structure OutcomesMatch
    (python : PyBuiltins) (tasks : List Json) (result : LaunchResult) :
    Prop where
  onePerTask : (result.outcomes.map ExecutionOutcome.taskId).Perm
    (tasks.map (entryText python))
  success : ∀ outcome ∈ result.outcomes,
    outcome.success = true ↔ result.started outcome.taskId = 1

namespace LaunchSetup

variable (setup : LaunchSetup) (overrides : Overrides)

/-- The entry gets as far as a start command. -/
def Startable (task : Json) : Prop :=
  ∃ command, setup.launchEntry overrides task = .ok (some (.inr command))

/-- The entry has an identifier, and nothing is raised over it. -/
def EntryPasses (task : Json) : Prop :=
  ∃ fields launched, task = .dict fields ∧
    setup.launchEntry overrides task = .ok (some launched) ∧
      (launched.isRight = true →
        ∃ outcome,
          setup.finishEntry overrides (fun _ => none) fields =
            .ok outcome)

/-- A channel can be had, every entry passes, and an entry that is started
shares the text of its identifier with no other entry. -/
structure LaunchesCleanly (tasks : List Json) : Prop where
  reachable : setup.broker ≠ .unreachable
  passes : ∀ task ∈ tasks, setup.EntryPasses overrides task
  unshared : tasks.Pairwise fun first second =>
    entryText setup.python first = entryText setup.python second →
      ¬ setup.Startable overrides first ∧
        ¬ setup.Startable overrides second

end LaunchSetup

/-! ## The first loop -/

namespace LaunchSetup

variable {setup : LaunchSetup} {overrides : Overrides}

/-- What the first loop found out about an entry. -/
inductive EntryShape (setup : LaunchSetup) (fields : Fields) :
    Option (ExecutionOutcome ⊕ StartTask) → Prop where
  | unnamed (nameless : (fields.get "task_id").truthy = false) :
      EntryShape setup fields none
  | failed (error : String)
      (named : (fields.get "task_id").truthy = true) :
      EntryShape setup fields
        (some (.inl (failedOutcome setup.python fields error)))
  | command (command : StartTask)
      (named : (fields.get "task_id").truthy = true)
      (forTask : command.taskId =
        (fields.get "task_id").pyStr setup.python) :
      EntryShape setup fields (some (.inr command))

theorem failEntry_shape
    {task changes : Fields} {error : String}
    {launched : Option (ExecutionOutcome ⊕ StartTask)}
    (named : (task.get "task_id").truthy = true)
    (failed : setup.failEntry task changes error = .ok launched) :
    EntryShape setup task launched := by
  rw [failEntry, bind_eq_ok] at failed
  obtain ⟨_, _, failed⟩ := failed
  rw [pure_eq_ok] at failed
  rw [← failed]
  exact .failed error named

theorem launchEntry_shape
    {task : Json} {launched : Option (ExecutionOutcome ⊕ StartTask)}
    (entered : setup.launchEntry overrides task = .ok launched) :
    ∃ fields, task = .dict fields ∧ EntryShape setup fields launched := by
  rw [launchEntry, bind_eq_ok] at entered
  obtain ⟨fields, isDict, entered⟩ := entered
  refine ⟨fields, Json.dict_of_fields isDict, ?_⟩
  dsimp only at entered
  split at entered
  · rename_i named
    rw [bind_eq_ok] at entered
    obtain ⟨changes, _, entered⟩ := entered
    split at entered
    · exact failEntry_shape named entered
    · split at entered
      · exact failEntry_shape named entered
      · rw [bind_eq_ok] at entered
        obtain ⟨_, _, entered⟩ := entered
        split at entered
        · exact failEntry_shape named entered
        · rw [pure_eq_ok] at entered
          rw [← entered]
          exact .command _ named rfl
  · rename_i nameless
    rw [pure_eq_ok] at entered
    rw [← entered]
    exact .unnamed (Bool.not_eq_true _ ▸ nameless)

/-- Every entry adds its text to the outcomes, to the commands, or nowhere. -/
theorem exists_idle
    {tasks : List Json}
    {launched : List (Option (ExecutionOutcome ⊕ StartTask))}
    (entered : List.Forall₂ (fun task result =>
      setup.launchEntry overrides task = .ok result) tasks launched) :
    ∃ idle : List Json,
      (∀ task, task ∈ idle ↔ task ∈ tasks ∧
        setup.launchEntry overrides task = .ok none) ∧
      ∀ text, (tasks.map (entryText setup.python)).count text =
        ((failures launched).map ExecutionOutcome.taskId).count text +
          ((commands launched).map StartTask.taskId).count text +
            (idle.map (entryText setup.python)).count text := by
  induction entered with
  | nil =>
      exact ⟨[], by simp, by simp [failures, commands]⟩
  | @cons task result tasks launched here later inductionHypothesis =>
      obtain ⟨idle, isIdle, counts⟩ := inductionHypothesis
      obtain ⟨fields, rfl, shape⟩ := launchEntry_shape here
      cases shape with
      | unnamed nameless =>
          refine ⟨.dict fields :: idle, ?_, ?_⟩
          · intro task
            rw [List.mem_cons, List.mem_cons, isIdle]
            constructor
            · rintro (rfl | ⟨member, none⟩)
              · exact ⟨Or.inl rfl, here⟩
              · exact ⟨Or.inr member, none⟩
            · rintro ⟨rfl | member, none⟩
              · exact Or.inl rfl
              · exact Or.inr ⟨member, none⟩
          · intro text
            rw [List.map_cons, List.map_cons, List.count_cons,
              List.count_cons, counts text]
            exact Nat.add_assoc _ _ _
      | failed error named =>
          refine ⟨idle, ?_, ?_⟩
          · intro task
            rw [List.mem_cons, isIdle]
            constructor
            · rintro ⟨member, none⟩
              exact ⟨Or.inr member, none⟩
            · rintro ⟨rfl | member, none⟩
              · rw [here] at none
                cases none
              · exact ⟨member, none⟩
          · intro text
            have first : failures (some (.inl
                (failedOutcome setup.python fields error)) :: launched) =
                failedOutcome setup.python fields error ::
                  failures launched := rfl
            have second : commands (some (.inl
                (failedOutcome setup.python fields error)) :: launched) =
                  commands launched := rfl
            have same : (failedOutcome setup.python fields error).taskId =
                entryText setup.python (.dict fields) := rfl
            rw [first, second, List.map_cons, List.map_cons,
              List.count_cons, List.count_cons, counts text, same]
            omega
      | command command named forTask =>
          refine ⟨idle, ?_, ?_⟩
          · intro task
            rw [List.mem_cons, isIdle]
            constructor
            · rintro ⟨member, none⟩
              exact ⟨Or.inr member, none⟩
            · rintro ⟨rfl | member, none⟩
              · rw [here] at none
                cases none
              · exact ⟨member, none⟩
          · intro text
            have first : failures (some (.inr command) :: launched) =
                failures launched := rfl
            have second : commands (some (.inr command) :: launched) =
                command :: commands launched := rfl
            have same : command.taskId =
                entryText setup.python (.dict fields) := forTask
            rw [first, second, List.map_cons, List.map_cons,
              List.count_cons, List.count_cons, counts text, same]
            omega

/-- Without an error the first loop does with an entry what the executor's
total version does. -/
theorem launchEntry_eq_launchTask
    {fields : Fields} {launched : ExecutionOutcome ⊕ StartTask}
    (entered : setup.launchEntry overrides (.dict fields) =
      .ok (some launched)) :
    launched = setup.toExecutorSetup.launchTask overrides fields := by
  have failing : ∀ changes error,
      setup.failEntry fields changes error = .ok (some launched) →
        launched = .inl (failedOutcome setup.python fields error) := by
    intro changes error failed
    rw [failEntry, bind_eq_ok] at failed
    obtain ⟨_, _, failed⟩ := failed
    rw [pure_eq_ok] at failed
    exact (Option.some.inj failed).symm
  rw [launchEntry, bind_eq_ok] at entered
  obtain ⟨found, isDict, entered⟩ := entered
  obtain rfl : found = fields := (Except.ok.inj isDict).symm
  dsimp only at entered
  split at entered
  · rw [bind_eq_ok] at entered
    obtain ⟨changes, _, entered⟩ := entered
    rw [ExecutorSetup.launchTask]
    cases resolved : setup.resolveServiceName found with
    | none =>
        rw [resolved] at entered
        exact failing _ _ entered
    | some serviceName =>
        rw [resolved] at entered
        dsimp only at entered ⊢
        cases available :
            resolveRuntimeAndArtifact setup.python found
              (setup.serviceDoc? serviceName) with
        | mk runtime outcome =>
            rw [available] at entered
            cases outcome with
            | error reason =>
                exact failing _ _ entered
            | ok artifact =>
                dsimp only at entered ⊢
                rw [bind_eq_ok] at entered
                obtain ⟨_, _, entered⟩ := entered
                split at entered
                · rename_i forced
                  rw [if_pos forced]
                  exact failing _ _ entered
                · rename_i unforced
                  rw [pure_eq_ok] at entered
                  rw [if_neg unforced]
                  exact (Option.some.inj entered).symm
  · rw [pure_eq_ok] at entered
    cases entered

theorem mem_launched
    {tasks : List Json}
    {launched : List (Option (ExecutionOutcome ⊕ StartTask))}
    (entered : List.Forall₂ (fun task result =>
      setup.launchEntry overrides task = .ok result) tasks launched)
    {task : Json} (member : task ∈ tasks)
    {result : Option (ExecutionOutcome ⊕ StartTask)}
    (here : setup.launchEntry overrides task = .ok result) :
    result ∈ launched := by
  induction entered with
  | nil =>
      cases member
  | @cons first found tasks launched isFirst later inductionHypothesis =>
      rcases List.mem_cons.mp member with rfl | among
      · rw [isFirst] at here
        rw [Except.ok.inj here]
        exact List.mem_cons_self
      · exact List.mem_cons_of_mem _ (inductionHypothesis among)

theorem mem_commands_text
    {tasks : List Json}
    {launched : List (Option (ExecutionOutcome ⊕ StartTask))}
    (entered : List.Forall₂ (fun task result =>
      setup.launchEntry overrides task = .ok result) tasks launched)
    {task : Json} (member : task ∈ tasks)
    (startable : setup.Startable overrides task) :
    entryText setup.python task ∈
      (commands launched).map StartTask.taskId := by
  obtain ⟨command, isCommand⟩ := startable
  have among := mem_launched entered member isCommand
  obtain ⟨fields, rfl, shape⟩ := launchEntry_shape isCommand
  cases shape with
  | command _ named forTask =>
      refine List.mem_map.mpr ⟨command, ?_, forTask⟩
      exact List.mem_filterMap.mpr ⟨_, among, rfl⟩

theorem mem_failures_text
    {tasks : List Json}
    {launched : List (Option (ExecutionOutcome ⊕ StartTask))}
    (entered : List.Forall₂ (fun task result =>
      setup.launchEntry overrides task = .ok result) tasks launched)
    {task : Json} (member : task ∈ tasks)
    {outcome : ExecutionOutcome}
    (failed : setup.launchEntry overrides task =
      .ok (some (.inl outcome))) :
    entryText setup.python task ∈
      (failures launched).map ExecutionOutcome.taskId := by
  have among := mem_launched entered member failed
  obtain ⟨fields, rfl, shape⟩ := launchEntry_shape failed
  cases shape with
  | failed error named =>
      exact
        List.mem_map.mpr
          ⟨_, List.mem_filterMap.mpr ⟨_, among, rfl⟩, rfl⟩

theorem startable_of_mem_commands
    {tasks : List Json}
    {launched : List (Option (ExecutionOutcome ⊕ StartTask))}
    (entered : List.Forall₂ (fun task result =>
      setup.launchEntry overrides task = .ok result) tasks launched)
    {text : String}
    (member : text ∈ (commands launched).map StartTask.taskId) :
    ∃ task ∈ tasks, entryText setup.python task = text ∧
      setup.Startable overrides task := by
  induction entered with
  | nil =>
      cases member
  | @cons first result tasks launched here later inductionHypothesis =>
      have fromRest :
          text ∈ (commands launched).map StartTask.taskId →
            ∃ task ∈ first :: tasks,
              entryText setup.python task = text ∧
                setup.Startable overrides task := by
        intro inRest
        obtain ⟨task, among, named, startable⟩ :=
          inductionHypothesis inRest
        exact ⟨task, List.mem_cons_of_mem _ among, named, startable⟩
      cases result with
      | none => exact fromRest member
      | some launched =>
          cases launched with
          | inl outcome => exact fromRest member
          | inr command =>
              rcases List.mem_cons.mp member with rfl | inRest
              · obtain ⟨fields, rfl, shape⟩ := launchEntry_shape here
                cases shape with
                | command _ named forTask =>
                    exact
                      ⟨_, List.mem_cons_self, forTask.symm, command, here⟩
              · exact fromRest inRest

theorem failures_fail
    {tasks : List Json}
    {launched : List (Option (ExecutionOutcome ⊕ StartTask))}
    (entered : List.Forall₂ (fun task result =>
      setup.launchEntry overrides task = .ok result) tasks launched) :
    ∀ outcome ∈ failures launched, outcome.success = false := by
  induction entered with
  | nil =>
      intro outcome member
      cases member
  | @cons first result tasks launched here later inductionHypothesis =>
      obtain ⟨fields, _, shape⟩ := launchEntry_shape here
      cases shape with
      | unnamed nameless => exact inductionHypothesis
      | failed error named =>
          intro outcome member
          rcases List.mem_cons.mp member with rfl | among
          · rfl
          · exact inductionHypothesis outcome among
      | command command named forTask => exact inductionHypothesis

/-! ## Publishing -/

theorem publishStartTasks_ok_iff (sent : List StartTask) :
    (∃ published, setup.publishStartTasks sent = .ok published) ↔
      setup.broker ≠ .unreachable := by
  unfold publishStartTasks
  cases setup.broker with
  | unconfigured => simp
  | unreachable => simp
  | channel attempt => simp

theorem publishStartTasks_commands
    {sent : List StartTask} {published : List (StartTask × Option String)}
    (ended : setup.publishStartTasks sent = .ok published) :
    published.map Prod.fst = sent := by
  unfold publishStartTasks at ended
  split at ended
  · obtain rfl := Except.ok.inj ended
    rw [List.map_map]
    exact List.map_id _
  · cases ended
  · obtain rfl := Except.ok.inj ended
    rw [List.map_map]
    exact List.zipIdx_map_fst 0 sent

theorem length_filter_published
    {sent : List StartTask} {published : List (StartTask × Option String)}
    (ofCommands : published.map Prod.fst = sent) (text : String) :
    (published.filter fun item =>
      decide (item.1.taskId = text)).length =
        (sent.map StartTask.taskId).count text := by
  rw [← ofCommands, List.map_map, List.count_eq_countP, List.countP_map,
    List.countP_eq_length_filter]
  rfl

/-- No error and no command under a text that no command has. -/
theorem unpublished
    {sent : List StartTask} {published : List (StartTask × Option String)}
    (ofCommands : published.map Prod.fst = sent) {text : String}
    (nothing : (sent.map StartTask.taskId).count text = 0)
    (outcomes : List ExecutionOutcome) :
    publishErrors published text = none ∧
      LaunchResult.started ⟨outcomes, published⟩ text = 0 := by
  have length := length_filter_published ofCommands text
  rw [nothing, List.length_eq_zero_iff] at length
  constructor
  · rw [publishErrors, length]
    rfl
  · rw [LaunchResult.started, ← List.countP_filter, length]
    rfl

/-- The one command under a text fails or not, and is counted accordingly. -/
theorem published_once
    {sent : List StartTask} {published : List (StartTask × Option String)}
    (ofCommands : published.map Prod.fst = sent) {text : String}
    (once : (sent.map StartTask.taskId).count text = 1)
    (outcomes : List ExecutionOutcome) :
    (publishErrors published text).isNone = true ↔
      LaunchResult.started ⟨outcomes, published⟩ text = 1 := by
  have length := length_filter_published ofCommands text
  rw [once, List.length_eq_one_iff] at length
  obtain ⟨item, single⟩ := length
  rw [publishErrors, LaunchResult.started, ← List.countP_filter, single]
  cases error : item.2 with
  | none => simp [error]
  | some raised => simp [error]

theorem finishEntry_outcome
    {errors : String → Option String} {task : Fields}
    {outcome : ExecutionOutcome}
    (finished : setup.finishEntry overrides errors task = .ok outcome) :
    outcome.taskId = entryText setup.python (.dict task) ∧
      outcome.success = (errors outcome.taskId).isNone := by
  rw [finishEntry, bind_eq_ok] at finished
  obtain ⟨changes, _, finished⟩ := finished
  rw [bind_eq_ok] at finished
  obtain ⟨_, _, finished⟩ := finished
  rw [pure_eq_ok] at finished
  rw [← finished]
  exact ⟨rfl, rfl⟩

theorem finishEntry_ok_iff
    (errors : String → Option String) (task : Fields) :
    (∃ outcome,
        setup.finishEntry overrides errors task = .ok outcome) ↔
      ∃ changes,
        overrideNamed overrides (entryText setup.python (.dict task)) =
            .ok changes ∧
          setup.checkOutcome task changes = .ok () := by
  constructor
  · rintro ⟨outcome, finished⟩
    rw [finishEntry, bind_eq_ok] at finished
    obtain ⟨changes, named, finished⟩ := finished
    rw [bind_eq_ok] at finished
    obtain ⟨_, valid, _⟩ := finished
    exact ⟨changes, named, valid⟩
  · rintro ⟨changes, named, valid⟩
    have isNamed : overrideNamed overrides
        ((task.get "task_id").pyStr setup.python) = .ok changes := named
    rw [finishEntry, isNamed]
    simp only [bind, Except.bind]
    rw [valid]
    exact ⟨_, rfl⟩

theorem any_taskId_iff (outcomes : List ExecutionOutcome) (text : String) :
    (outcomes.any fun outcome => decide (outcome.taskId = text)) = true ↔
      text ∈ outcomes.map ExecutionOutcome.taskId := by
  simp

/-- The second loop adds one outcome for each text that has none. -/
theorem finishEntries_spec
    {errors : String → Option String}
    {outcomes final : List ExecutionOutcome} {tasks : List Json}
    (finished : setup.finishEntries overrides errors outcomes tasks =
      .ok final) :
    ∃ added, final = outcomes ++ added ∧
      (∀ text, (added.map ExecutionOutcome.taskId).count text =
        if text ∈ outcomes.map ExecutionOutcome.taskId then 0
        else if text ∈ tasks.map (entryText setup.python) then 1
        else 0) ∧
      ∀ outcome ∈ added,
        outcome.success = (errors outcome.taskId).isNone := by
  induction tasks generalizing outcomes with
  | nil =>
      obtain rfl := Except.ok.inj finished
      exact ⟨[], (List.append_nil _).symm, by simp, by simp⟩
  | cons task rest inductionHypothesis =>
      rw [finishEntries, bind_eq_ok] at finished
      obtain ⟨fields, isDict, finished⟩ := finished
      obtain rfl := Json.dict_of_fields isDict
      dsimp only at finished
      split at finished
      · rename_i known
        rw [any_taskId_iff] at known
        obtain ⟨added, whole, counts, errorless⟩ :=
          inductionHypothesis finished
        refine ⟨added, whole, ?_, errorless⟩
        intro text
        rw [counts, List.map_cons]
        by_cases inOutcomes :
            text ∈ outcomes.map ExecutionOutcome.taskId
        · rw [if_pos inOutcomes, if_pos inOutcomes]
        · have different :
              text ≠ entryText setup.python (.dict fields) := by
            rintro rfl
            exact inOutcomes known
          simp only [if_neg inOutcomes, List.mem_cons, different,
            false_or]
      · rename_i unknown
        rw [any_taskId_iff] at unknown
        rw [bind_eq_ok] at finished
        obtain ⟨outcome, ended, finished⟩ := finished
        obtain ⟨added, whole, counts, errorless⟩ :=
          inductionHypothesis finished
        obtain ⟨named, success⟩ := finishEntry_outcome ended
        refine ⟨outcome :: added, ?_, ?_, ?_⟩
        · rw [whole, List.append_assoc]
          rfl
        · intro text
          rw [List.map_cons, List.count_cons, counts, List.map_append,
            List.map_cons, List.map_nil, List.map_cons, named]
          by_cases same : text = entryText setup.python (.dict fields)
          · rw [same]
            have absent : entryText setup.python (.dict fields) ∉
                outcomes.map ExecutionOutcome.taskId := unknown
            simp [absent]
          · by_cases inOutcomes :
                text ∈ outcomes.map ExecutionOutcome.taskId
            · simp [inOutcomes, Ne.symm same]
            · simp [inOutcomes, same, Ne.symm same]
        · intro other member
          rcases List.mem_cons.mp member with rfl | among
          · exact success
          · exact errorless other among

theorem finishEntries_ok
    {errors : String → Option String}
    {outcomes : List ExecutionOutcome} {tasks : List Json}
    (passes : ∀ task ∈ tasks, ∃ fields, task = .dict fields ∧
      (entryText setup.python task ∉
          outcomes.map ExecutionOutcome.taskId →
        ∃ outcome,
          setup.finishEntry overrides errors fields = .ok outcome)) :
    ∃ final,
      setup.finishEntries overrides errors outcomes tasks = .ok final := by
  induction tasks generalizing outcomes with
  | nil =>
      exact ⟨outcomes, rfl⟩
  | cons task rest inductionHypothesis =>
      obtain ⟨fields, rfl, here⟩ := passes task List.mem_cons_self
      have later := fun other member =>
        passes other (List.mem_cons_of_mem _ member)
      rw [finishEntries, Json.fields]
      simp only [bind, Except.bind]
      split
      · exact inductionHypothesis later
      · rename_i unknown
        rw [any_taskId_iff] at unknown
        obtain ⟨outcome, ended⟩ := here unknown
        rw [ended]
        apply inductionHypothesis
        intro other member
        obtain ⟨fields, isDict, valid⟩ := later other member
        refine ⟨fields, isDict, ?_⟩
        intro absent
        apply valid
        intro before
        rw [List.map_append] at absent
        exact absent (List.mem_append_left _ before)

/-- Without an error the second loop gives the entries the outcomes that the
executor's total version gives them. -/
theorem finishEntries_eq_launchOutcomes
    {errors : String → Option String}
    {outcomes final : List ExecutionOutcome} {tasks : List Fields}
    (finished : setup.finishEntries overrides errors outcomes
      (tasks.map Json.dict) = .ok final) :
    final = setup.toExecutorSetup.launchOutcomes errors outcomes tasks := by
  induction tasks generalizing outcomes with
  | nil =>
      exact (Except.ok.inj finished).symm
  | cons task rest inductionHypothesis =>
      rw [List.map_cons, finishEntries, bind_eq_ok] at finished
      obtain ⟨fields, isDict, finished⟩ := finished
      obtain rfl : fields = task := (Except.ok.inj isDict).symm
      dsimp only at finished
      rw [ExecutorSetup.launchOutcomes]
      split at finished
      · rename_i known
        rw [if_pos known]
        exact inductionHypothesis finished
      · rename_i unknown
        rw [if_neg unknown]
        rw [bind_eq_ok] at finished
        obtain ⟨outcome, made, finished⟩ := finished
        rw [finishEntry, bind_eq_ok] at made
        obtain ⟨changes, _, made⟩ := made
        rw [bind_eq_ok] at made
        obtain ⟨_, _, made⟩ := made
        rw [pure_eq_ok] at made
        rw [inductionHypothesis finished, ← made]

/-- An entry whose text nothing else has is reached by the second loop. -/
theorem finishEntry_of_finishEntries
    {errors : String → Option String}
    {outcomes final : List ExecutionOutcome} {tasks : List Json}
    (finished : setup.finishEntries overrides errors outcomes tasks =
      .ok final)
    {fields : Fields} (member : .dict fields ∈ tasks)
    (absent : entryText setup.python (.dict fields) ∉
      outcomes.map ExecutionOutcome.taskId)
    (once : (tasks.map (entryText setup.python)).count
      (entryText setup.python (.dict fields)) = 1) :
    ∃ outcome,
      setup.finishEntry overrides errors fields = .ok outcome := by
  induction tasks generalizing outcomes with
  | nil =>
      cases member
  | cons task rest inductionHypothesis =>
      rw [finishEntries, bind_eq_ok] at finished
      obtain ⟨found, isDict, finished⟩ := finished
      obtain rfl := Json.dict_of_fields isDict
      dsimp only at finished
      rw [List.map_cons, List.count_cons] at once
      rcases List.mem_cons.mp member with same | among
      · obtain rfl := Json.dict.inj same
        split at finished
        · rename_i known
          rw [any_taskId_iff] at known
          exact absurd known absent
        · rw [bind_eq_ok] at finished
          obtain ⟨outcome, ended, _⟩ := finished
          exact ⟨outcome, ended⟩
      · have inRest : entryText setup.python (.dict fields) ∈
            rest.map (entryText setup.python) :=
          List.mem_map_of_mem among
        have positive := List.count_pos_iff.mpr inRest
        have different : entryText setup.python (.dict found) ≠
            entryText setup.python (.dict fields) := by
          intro same
          rw [same] at once
          simp at once
          omega
        have onceInRest : (rest.map (entryText setup.python)).count
            (entryText setup.python (.dict fields)) = 1 := by
          simpa [different] using once
        split at finished
        · exact inductionHypothesis finished among absent onceInRest
        · rw [bind_eq_ok] at finished
          obtain ⟨outcome, ended, finished⟩ := finished
          apply inductionHypothesis finished among _ onceInRest
          rw [List.map_append, List.mem_append, not_or]
          refine ⟨absent, ?_⟩
          rw [List.map_singleton, List.mem_singleton,
            (finishEntry_outcome ended).1]
          exact different.symm

/-! ## Both loops -/

theorem mapError_eq_ok
    {ε δ α : Type} {wrap : ε → δ} {computed : Except ε α} {value : α} :
    computed.mapError wrap = .ok value ↔ computed = .ok value := by
  cases computed with
  | error _ =>
      simp [Except.mapError]
  | ok _ =>
      simp [Except.mapError]

theorem launchPlan_eq_ok_iff
    {tasks : List Json} {result : LaunchResult} :
    setup.launchPlan overrides tasks = .ok result ↔
      ∃ launched,
        List.Forall₂ (fun task entered =>
          setup.launchEntry overrides task = .ok entered)
            tasks launched ∧
        setup.publishStartTasks (commands launched) =
          .ok result.published ∧
        setup.finishEntries overrides (publishErrors result.published)
          (failures launched) tasks = .ok result.outcomes := by
  rw [launchPlan, bind_eq_ok]
  simp only [mapError_eq_ok, mapM_eq_ok_iff, bind_eq_ok, pure_eq_ok]
  constructor
  · rintro ⟨launched, entered, published, sent, outcomes, finished, rfl⟩
    exact ⟨launched, entered, sent, finished⟩
  · rintro ⟨launched, entered, sent, finished⟩
    exact
      ⟨launched, entered, result.published, sent, result.outcomes,
        finished, rfl⟩

section Matching

variable
  {tasks : List Json}
  {launched : List (Option (ExecutionOutcome ⊕ StartTask))}
  {result : LaunchResult}

/-- How many outcomes a text has in the end. -/
theorem count_outcomes
    (finished : setup.finishEntries overrides
      (publishErrors result.published) (failures launched) tasks =
        .ok result.outcomes) (text : String) :
    (result.outcomes.map ExecutionOutcome.taskId).count text =
      if text ∈ (failures launched).map ExecutionOutcome.taskId then
        ((failures launched).map ExecutionOutcome.taskId).count text
      else if text ∈ tasks.map (entryText setup.python) then 1 else 0 := by
  obtain ⟨added, whole, counts, _⟩ := finishEntries_spec finished
  rw [whole, List.map_append, List.count_append, counts]
  by_cases failed :
      text ∈ (failures launched).map ExecutionOutcome.taskId
  · rw [if_pos failed, if_pos failed, Nat.add_zero]
  · rw [if_neg failed, if_neg failed, List.count_eq_zero.mpr failed,
      Nat.zero_add]

/-- An entry that is started has its text to itself. -/
theorem count_of_startable
    (unshared : tasks.Pairwise fun first second =>
      entryText setup.python first = entryText setup.python second →
        ¬ setup.Startable overrides first ∧
          ¬ setup.Startable overrides second)
    {task : Json} (member : task ∈ tasks)
    (startable : setup.Startable overrides task) :
    (tasks.map (entryText setup.python)).count
      (entryText setup.python task) = 1 := by
  induction tasks with
  | nil =>
      cases member
  | cons first rest inductionHypothesis =>
      rw [List.pairwise_cons] at unshared
      rw [List.map_cons, List.count_cons]
      rcases List.mem_cons.mp member with rfl | among
      · have nobody : entryText setup.python task ∉
            rest.map (entryText setup.python) := by
          intro again
          obtain ⟨other, inRest, same⟩ := List.mem_map.mp again
          exact (unshared.1 other inRest same.symm).1 startable
        rw [List.count_eq_zero.mpr nobody]
        simp
      · have different : entryText setup.python first ≠
            entryText setup.python task := fun same =>
          (unshared.1 task among same).2 startable
        rw [inductionHypothesis unshared.2 among]
        simp [different]

theorem entered_of_mem
    (entered : List.Forall₂ (fun task result =>
      setup.launchEntry overrides task = .ok result) tasks launched)
    {task : Json} (member : task ∈ tasks) :
    ∃ result, setup.launchEntry overrides task = .ok result := by
  induction entered with
  | nil =>
      cases member
  | cons here later inductionHypothesis =>
      rcases List.mem_cons.mp member with rfl | among
      · exact ⟨_, here⟩
      · exact inductionHypothesis among

theorem exists_entered
    (passes : ∀ task ∈ tasks, setup.EntryPasses overrides task) :
    ∃ launched, List.Forall₂ (fun task result =>
      setup.launchEntry overrides task = .ok result) tasks launched := by
  induction tasks with
  | nil =>
      exact ⟨[], .nil⟩
  | cons task rest inductionHypothesis =>
      obtain ⟨_, result, _, here, _⟩ := passes task List.mem_cons_self
      obtain ⟨later, entered⟩ := inductionHypothesis fun other member =>
        passes other (List.mem_cons_of_mem _ member)
      exact ⟨some result :: later, .cons here entered⟩

/-- If there is one outcome for each entry, every entry has an identifier. -/
theorem idle_eq_nil_of_match
    {idle : List Json}
    (isIdle : ∀ task, task ∈ idle ↔ task ∈ tasks ∧
      setup.launchEntry overrides task = .ok none)
    (counts : ∀ text, (tasks.map (entryText setup.python)).count text =
      ((failures launched).map ExecutionOutcome.taskId).count text +
        ((commands launched).map StartTask.taskId).count text +
          (idle.map (entryText setup.python)).count text)
    (sent : setup.publishStartTasks (commands launched) =
      .ok result.published)
    (finished : setup.finishEntries overrides
      (publishErrors result.published) (failures launched) tasks =
        .ok result.outcomes)
    (matching : OutcomesMatch setup.python tasks result) :
    idle = [] := by
  rw [List.eq_nil_iff_forall_not_mem]
  intro task isTask
  obtain ⟨member, _⟩ := (isIdle task).mp isTask
  have total := counts (entryText setup.python task)
  have perm := matching.onePerTask.count_eq (entryText setup.python task)
  have outcomes :=
    count_outcomes finished (entryText setup.python task)
  have inTasks : entryText setup.python task ∈
      tasks.map (entryText setup.python) := List.mem_map_of_mem member
  have idles : 0 < (idle.map (entryText setup.python)).count
      (entryText setup.python task) :=
    List.count_pos_iff.mpr (List.mem_map_of_mem isTask)
  rw [if_pos inTasks] at outcomes
  by_cases failed : entryText setup.python task ∈
      (failures launched).map ExecutionOutcome.taskId
  · rw [if_pos failed] at outcomes
    omega
  · rw [if_neg failed] at outcomes
    have noCommand : ((commands launched).map StartTask.taskId).count
        (entryText setup.python task) = 0 := by
      omega
    obtain ⟨noError, notStarted⟩ :=
      unpublished (publishStartTasks_commands sent) noCommand
        result.outcomes
    have inOutcomes : entryText setup.python task ∈
        result.outcomes.map ExecutionOutcome.taskId := by
      apply List.count_pos_iff.mp
      omega
    obtain ⟨outcome, isOutcome, named⟩ := List.mem_map.mp inOutcomes
    obtain ⟨added, whole, _, errorless⟩ := finishEntries_spec finished
    have isAdded : outcome ∈ added := by
      rw [whole] at isOutcome
      rcases List.mem_append.mp isOutcome with before | later
      · exact absurd (List.mem_map.mpr ⟨outcome, before, named⟩) failed
      · exact later
    have success : outcome.success = true := by
      rw [errorless outcome isAdded, named, noError]
      rfl
    have one := (matching.success outcome isOutcome).mp success
    rw [named] at one
    have zero : result.started (entryText setup.python task) = 0 :=
      notStarted
    omega

/-- A text under which a command is sent has one entry. -/
theorem once_of_match
    (counts : ∀ text, (tasks.map (entryText setup.python)).count text =
      ((failures launched).map ExecutionOutcome.taskId).count text +
        ((commands launched).map StartTask.taskId).count text)
    (finished : setup.finishEntries overrides
      (publishErrors result.published) (failures launched) tasks =
        .ok result.outcomes)
    (matching : OutcomesMatch setup.python tasks result)
    {text : String}
    (sent : text ∈ (commands launched).map StartTask.taskId) :
    text ∉ (failures launched).map ExecutionOutcome.taskId ∧
      (tasks.map (entryText setup.python)).count text = 1 := by
  have total := counts text
  have perm := matching.onePerTask.count_eq text
  have outcomes := count_outcomes finished text
  have positive := List.count_pos_iff.mpr sent
  have inTasks : text ∈ tasks.map (entryText setup.python) := by
    apply List.count_pos_iff.mp
    omega
  rw [if_pos inTasks] at outcomes
  by_cases failed :
      text ∈ (failures launched).map ExecutionOutcome.taskId
  · rw [if_pos failed] at outcomes
    omega
  · rw [if_neg failed] at outcomes
    exact ⟨failed, by omega⟩

theorem launchesCleanly_of_match
    (entered : List.Forall₂ (fun task result =>
      setup.launchEntry overrides task = .ok result) tasks launched)
    (sent : setup.publishStartTasks (commands launched) =
      .ok result.published)
    (finished : setup.finishEntries overrides
      (publishErrors result.published) (failures launched) tasks =
        .ok result.outcomes)
    (matching : OutcomesMatch setup.python tasks result) :
    setup.LaunchesCleanly overrides tasks := by
  obtain ⟨idle, isIdle, counts⟩ := exists_idle entered
  obtain rfl :=
    idle_eq_nil_of_match isIdle counts sent finished matching
  simp only [List.map_nil, List.count_nil, Nat.add_zero] at counts
  have once := fun {task : Json} (member : task ∈ tasks)
      (startable : setup.Startable overrides task) =>
    once_of_match counts finished matching
      (mem_commands_text entered member startable)
  refine ⟨(publishStartTasks_ok_iff _).mp ⟨_, sent⟩, ?_, ?_⟩
  · intro task member
    obtain ⟨entry, here⟩ := entered_of_mem entered member
    cases entry with
    | none =>
        exact absurd ((isIdle task).mpr ⟨member, here⟩) List.not_mem_nil
    | some launched =>
        obtain ⟨fields, rfl, _⟩ := launchEntry_shape here
        refine ⟨fields, launched, rfl, here, ?_⟩
        intro isCommand
        obtain ⟨command, rfl⟩ := Sum.isRight_iff.mp isCommand
        obtain ⟨absent, single⟩ := once member ⟨command, here⟩
        have reached :=
          finishEntry_of_finishEntries finished member absent single
        rw [finishEntry_ok_iff] at reached ⊢
        exact reached
  · rw [List.pairwise_iff_forall_sublist]
    intro first second sublist same
    have twice : 2 ≤ (tasks.map (entryText setup.python)).count
        (entryText setup.python first) := by
      have fewer := (sublist.map (entryText setup.python)).count_le
        (entryText setup.python first)
      rw [List.map_cons, List.map_cons, List.map_nil, ← same] at fewer
      simpa using fewer
    constructor
    · intro startable
      have single :=
        (once (sublist.subset List.mem_cons_self) startable).2
      omega
    · intro startable
      have isMember : second ∈ [first, second] :=
        List.mem_cons_of_mem _ List.mem_cons_self
      have single := (once (sublist.subset isMember) startable).2
      rw [← same] at single
      omega

theorem match_of_launchesCleanly
    (cleanly : setup.LaunchesCleanly overrides tasks) :
    ∃ result, setup.launchPlan overrides tasks = .ok result ∧
      OutcomesMatch setup.python tasks result := by
  obtain ⟨launched, entered⟩ := exists_entered cleanly.passes
  obtain ⟨idle, isIdle, counts⟩ := exists_idle entered
  have noneIdle : idle = [] := by
    rw [List.eq_nil_iff_forall_not_mem]
    intro task isTask
    obtain ⟨member, nothing⟩ := (isIdle task).mp isTask
    obtain ⟨_, _, _, something, _⟩ := cleanly.passes task member
    rw [nothing] at something
    cases something
  subst noneIdle
  simp only [List.map_nil, List.count_nil, Nat.add_zero] at counts
  -- a text with a command has one entry, which did not fail
  have once : ∀ text, text ∈ (commands launched).map StartTask.taskId →
      (tasks.map (entryText setup.python)).count text = 1 := by
    intro text isSent
    obtain ⟨task, member, rfl, startable⟩ :=
      startable_of_mem_commands entered isSent
    exact count_of_startable cleanly.unshared member startable
  obtain ⟨published, sent⟩ :=
    (publishStartTasks_ok_iff (commands launched)).mpr cleanly.reachable
  have finishing : ∃ outcomes,
      setup.finishEntries overrides (publishErrors published)
        (failures launched) tasks = .ok outcomes := by
    apply finishEntries_ok
    intro task member
    obtain ⟨fields, entry, rfl, here, valid⟩ :=
      cleanly.passes task member
    refine ⟨fields, rfl, ?_⟩
    intro absent
    cases entry with
    | inl outcome =>
        exact absurd (mem_failures_text entered member here) absent
    | inr command =>
        have reached := valid rfl
        rw [finishEntry_ok_iff] at reached ⊢
        exact reached
  obtain ⟨outcomes, finished⟩ := finishing
  refine ⟨⟨outcomes, published⟩,
    launchPlan_eq_ok_iff.mpr ⟨launched, entered, sent, finished⟩, ?_, ?_⟩
  · rw [List.perm_iff_count]
    intro text
    have total := counts text
    have added := @count_outcomes setup overrides tasks launched
      ⟨outcomes, published⟩ finished text
    dsimp only at added ⊢
    rw [added]
    by_cases failed :
        text ∈ (failures launched).map ExecutionOutcome.taskId
    · have positive := List.count_pos_iff.mpr failed
      rw [if_pos failed]
      by_cases isSent :
          text ∈ (commands launched).map StartTask.taskId
      · have single := once text isSent
        have another := List.count_pos_iff.mpr isSent
        omega
      · have nothing := List.count_eq_zero.mpr isSent
        omega
    · rw [if_neg failed]
      have nothing := List.count_eq_zero.mpr failed
      by_cases isSent :
          text ∈ (commands launched).map StartTask.taskId
      · have single := once text isSent
        have inTasks : text ∈ tasks.map (entryText setup.python) := by
          apply List.count_pos_iff.mp
          omega
        rw [if_pos inTasks, single]
      · have unsent := List.count_eq_zero.mpr isSent
        have notInTasks :
            text ∉ tasks.map (entryText setup.python) := by
          rw [← List.count_eq_zero]
          omega
        rw [if_neg notInTasks, List.count_eq_zero.mpr notInTasks]
  · intro outcome isOutcome
    obtain ⟨added, whole, addedCounts, errorless⟩ :=
      finishEntries_spec finished
    have ofCommands := publishStartTasks_commands sent
    have total := counts outcome.taskId
    dsimp only at isOutcome
    rw [whole] at isOutcome
    rcases List.mem_append.mp isOutcome with before | later
    · have failed : outcome.taskId ∈
          (failures launched).map ExecutionOutcome.taskId :=
        List.mem_map_of_mem before
      have positive := List.count_pos_iff.mpr failed
      have unsent : ((commands launched).map StartTask.taskId).count
          outcome.taskId = 0 := by
        rw [List.count_eq_zero]
        intro isSent
        have single := once _ isSent
        have another := List.count_pos_iff.mpr isSent
        omega
      rw [failures_fail entered outcome before,
        (unpublished ofCommands unsent outcomes).2]
      simp
    · have inAdded : outcome.taskId ∈
          added.map ExecutionOutcome.taskId :=
        List.mem_map_of_mem later
      have positive := List.count_pos_iff.mpr inAdded
      rw [addedCounts] at positive
      split at positive
      · omega
      · rename_i absent
        have nothing := List.count_eq_zero.mpr absent
        split at positive
        · rename_i inTasks
          have entries := List.count_pos_iff.mpr inTasks
          have isSent : outcome.taskId ∈
              (commands launched).map StartTask.taskId := by
            apply List.count_pos_iff.mp
            omega
          have single := once _ isSent
          rw [errorless outcome later]
          exact published_once ofCommands (by omega) outcomes
        · omega

end Matching

/-- Outcomes and start commands are in step exactly when a channel can be had,
nothing is raised over an entry, every entry has an identifier, and no entry
that is started shares its identifier. -/
theorem outcomesMatch_iff
    (setup : LaunchSetup) (overrides : Overrides) (tasks : List Json) :
    (∃ result, setup.launchPlan overrides tasks = .ok result ∧
        OutcomesMatch setup.python tasks result) ↔
      setup.LaunchesCleanly overrides tasks := by
  constructor
  · rintro ⟨result, ended, matching⟩
    obtain ⟨launched, entered, sent, finished⟩ :=
      launchPlan_eq_ok_iff.mp ended
    exact launchesCleanly_of_match entered sent finished matching
  · exact match_of_launchesCleanly

end LaunchSetup

/-! ## An entry without an identifier -/

def plainLaunch : LaunchSetup where
  python :=
    { strOther := fun _ => ""
      dictOther := fun _ => .error .typeError
      upper := fun text => text
      lower := fun text => text }
  readsFloat := fun _ => true
  broker := .channel fun _ => none

def noOverrides : Overrides where
  failTaskIds := []
  executionOverrides := []

/-- The first loop skips the entry, and the second one reports a success for a
task called `None`. -/
theorem nameless_entry_succeeds :
    ∃ result,
      plainLaunch.launchPlan noOverrides
          [.dict [("assigned_agent", .str "agent-1")]] = .ok result ∧
        result.published.isEmpty = true ∧
        (result.outcomes.map fun outcome =>
          (outcome.taskId, outcome.success)) = [("None", true)] ∧
        ¬ OutcomesMatch plainLaunch.python
          [.dict [("assigned_agent", .str "agent-1")]] result := by
  have computed :
      ((plainLaunch.launchPlan noOverrides
          [.dict [("assigned_agent", .str "agent-1")]]).toOption.map
        fun result => (result.published.isEmpty,
          result.outcomes.map fun outcome =>
            (outcome.taskId, outcome.success))) =
        some (true, [("None", true)]) := by
    decide +kernel
  obtain ⟨result, isResult, shape⟩ := Option.map_eq_some_iff.mp computed
  rw [Prod.mk.injEq] at shape
  obtain ⟨unsent, outcomes⟩ := shape
  refine ⟨result, ?_, unsent, outcomes, ?_⟩
  · cases launched : plainLaunch.launchPlan noOverrides
        [.dict [("assigned_agent", .str "agent-1")]] with
    | error error =>
        rw [launched] at isResult
        cases isResult
    | ok other =>
        rw [launched] at isResult
        exact congrArg Except.ok (Option.some.inj isResult)
  · intro matching
    obtain ⟨outcome, isOutcome, isSuccess⟩ :
        ∃ outcome ∈ result.outcomes, (outcome.taskId, outcome.success) =
          ("None", true) := by
      apply List.mem_map.mp
      rw [outcomes]
      exact List.mem_cons_self
    have one := (matching.success outcome isOutcome).mp
      (Prod.mk.inj isSuccess).2
    rw [LaunchResult.started, List.isEmpty_iff.mp unsent] at one
    cases one

end Agentcy.Plans
