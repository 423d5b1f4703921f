import Mathlib.Order.Nat
import Agentcy.Library.Run
import Agentcy.PipelineStore.Documents

/-!
# Updating a pipeline while it is read

`update` prepares both documents and then writes them by two plain upserts,
the pipeline document first.  It gives up atomicity on purpose.  Readers load
the two documents by separate calls at any time.
-/

namespace Agentcy.PipelineStore

open Agentcy.Library
open Agentcy.Broker

universe u

/-- The arguments of one call of `update`, and the time at which it runs. -/
structure UpdateCall where
  username : String
  pipelineId : String
  pdata : PipelineConfig
  now : String

/-- The answer to an upsert.  A call that raises may have written, when only
its acknowledgement was lost. -/
inductive UpsertAnswer where
  | stored
  | failed (written : Bool)
  deriving DecidableEq

inductive FailurePoint where
  | generation
  | pipelineUpsert (written : Bool)
  | configUpsert (written : Bool)
  deriving DecidableEq

/-- Where the call stands.  `update` is not a coroutine, so `with_backoff`
makes one attempt, and an exception ends it. -/
inductive Stage where
  | preparing
  | upsertingPipeline (document : PipelineDocument) (finalCfg : FinalConfig)
  | upsertingConfig (finalCfg : FinalConfig)
  | returned
  | raised (failure : FailurePoint)
  deriving DecidableEq

/-- The stored documents, the call of `update`, and what every reader has
loaded last. -/
structure System (ι : Type u) where
  stored : Collections
  stage : Stage := .preparing
  loadedPipeline : ι → Option (Option StoredPipeline) := fun _ => none
  loadedConfig : ι → Option (Option FinalConfig) := fun _ => none

/-- The answer matters only where the call upserts. -/
inductive Event (ι : Type u) where
  | proceed (answer : UpsertAnswer)
  | read (reader : ι)
  | getFinalConfig (reader : ι)
  deriving DecidableEq

def Event.isProceed {ι : Type u} : Event ι → Bool
  | .proceed _ => true
  | _ => false

section Update

variable (wire : DAGConfig → PipelineMeta → Option Wiring)

/-- `wire` stands for `parse_graph` and `generate_rabbitmq_config`; it is
`none` where one of them raises. -/
def generatePipelineConfig (pdata : PipelineConfig) : Option FinalConfig :=
  (wire pdata.dag pdata.toPipelineMeta).map fun wiring =>
    { toPipelineMeta := pdata.toPipelineMeta, toWiring := wiring }

/-- The two documents that the call writes. -/
def prepare (call : UpdateCall) :
    Option (PipelineDocument × FinalConfig) :=
  let pdata : PipelineConfig := { call.pdata with lastUpdated := call.now }
  match generatePipelineConfig wire pdata with
  | none => none
  | some finalCfg =>
      let finalIds :=
        if finalCfg.finalTaskIds = [] then deriveFinalTaskIds pdata.dag
        else finalCfg.finalTaskIds
      let pdata : PipelineConfig := { pdata with finalTaskIds := finalIds }
      let pipelineDoc : PipelineDocument :=
        { pdata with
          pipelineId := call.pipelineId
          version := 1
          rabbitmqConfigs := finalCfg.rabbitmqConfigs }
      some (pipelineDoc, { finalCfg with version := 1 })

def UpsertAnswer.written : UpsertAnswer → Bool
  | .stored => true
  | .failed written => written

variable (call : UpdateCall)

/-- The next step of the call. -/
def updateStep (stored : Collections) (answer : UpsertAnswer) :
    Stage → Collections × Stage
  | .preparing =>
      match prepare wire call with
      | none => (stored, .raised .generation)
      | some (document, finalCfg) =>
          (stored, .upsertingPipeline document finalCfg)
  | .upsertingPipeline document finalCfg =>
      let written :=
        if answer.written then
          stored.upsertPipeline
            (docKey call.username call.pipelineId) document
        else stored
      match answer with
      | .stored => (written, .upsertingConfig finalCfg)
      | .failed applied => (written, .raised (.pipelineUpsert applied))
  | .upsertingConfig finalCfg =>
      let written :=
        if answer.written then
          stored.upsertConfig
            (cfgKey call.username call.pipelineId) finalCfg
        else stored
      match answer with
      | .stored => (written, .returned)
      | .failed applied => (written, .raised (.configUpsert applied))
  | finished => (stored, finished)

variable {ι : Type u} [DecidableEq ι]

def System.step (system : System ι) : Event ι → System ι
  | .proceed answer =>
      let next :=
        updateStep wire call system.stored answer system.stage
      { system with stored := next.1, stage := next.2 }
  | .read reader =>
      { system with
        loadedPipeline :=
          Function.update system.loadedPipeline reader
            (some (system.stored.read call.username call.pipelineId)) }
  | .getFinalConfig reader =>
      { system with
        loadedConfig :=
          Function.update system.loadedConfig reader
            (some
              (system.stored.getFinalConfig call.username
                call.pipelineId)) }

/-- A call on the given documents, interleaved with readers. -/
def execute (old : Collections) (events : List (Event ι)) : System ι :=
  run (System.step wire call) { stored := old } events

/-- The documents of the pipeline that are stored now. -/
def System.pair (system : System ι) : DocumentPair :=
  system.stored.pair call.username call.pipelineId

/-- The pair a reader has put together from its last two loads. -/
def System.seen (system : System ι) (reader : ι) : Option DocumentPair :=
  match system.loadedPipeline reader, system.loadedConfig reader with
  | some pipeline, some config => some ⟨pipeline, config⟩
  | _, _ => none

def oldPair (old : Collections) : DocumentPair :=
  old.pair call.username call.pipelineId

def newPair? : Option DocumentPair :=
  (prepare wire call).map fun documents =>
    ⟨some (.full documents.1), some documents.2⟩

def Stage.written : Stage → Nat
  | .preparing => 0
  | .upsertingPipeline .. => 0
  | .upsertingConfig _ => 1
  | .returned => 2
  | .raised .generation => 0
  | .raised (.pipelineUpsert written) => written.toNat
  | .raised (.configUpsert written) => 1 + written.toNat

/-- The stored documents after the first writes of the call. -/
def afterWrites (old : Collections) (written : Nat) : Collections :=
  match prepare wire call, written with
  | none, _ => old
  | some _, 0 => old
  | some (document, _), 1 =>
      old.upsertPipeline (docKey call.username call.pipelineId) document
  | some (document, finalCfg), _ + 2 =>
      (old.upsertPipeline (docKey call.username call.pipelineId)
        document).upsertConfig (cfgKey call.username call.pipelineId)
          finalCfg

/-- What the call still has in hand is what it prepared. -/
def Stage.Prepared : Stage → Prop
  | .preparing => True
  | .upsertingPipeline document finalCfg =>
      prepare wire call = some (document, finalCfg)
  | .upsertingConfig finalCfg =>
      ∃ document, prepare wire call = some (document, finalCfg)
  | .raised .generation => prepare wire call = none
  | _ => (prepare wire call).isSome

/-- The documents of the pipeline after the first writes of the call. -/
def pairAfter (old : Collections) (written : Nat) : DocumentPair :=
  (afterWrites wire call old written).pair call.username call.pipelineId

/-- The pairs that are ever stored: never the old pipeline document with the
new configuration. -/
inductive StoredPair (old : Collections) : DocumentPair → Prop where
  | before : StoredPair old (oldPair call old)
  | halfway (new : DocumentPair)
      (prepared : newPair? wire call = some new) :
      StoredPair old ⟨new.pipeline, (oldPair call old).config⟩
  | after (new : DocumentPair)
      (prepared : newPair? wire call = some new) :
      StoredPair old new

/-- Each document is the old one or the new one as a whole. -/
structure WholeDocuments
    (old : Collections) (pair : DocumentPair) : Prop where
  pipeline : pair.pipeline = (oldPair call old).pipeline ∨
    ∃ new, newPair? wire call = some new ∧ pair.pipeline = new.pipeline
  config : pair.config = (oldPair call old).config ∨
    ∃ new, newPair? wire call = some new ∧ pair.config = new.config

/-- The store is where the writes of the call have brought it, and readers
hold documents of such moments. -/
structure Consistent (old : Collections) (system : System ι) : Prop where
  prepared : system.stage.Prepared wire call
  stored :
    system.stored = afterWrites wire call old system.stage.written
  pipelines : ∀ reader document,
    system.loadedPipeline reader = some document →
      ∃ written, document = (pairAfter wire call old written).pipeline
  configs : ∀ reader document,
    system.loadedConfig reader = some document →
      ∃ written, document = (pairAfter wire call old written).config

/-- The pair is the old one or the new one as a whole, and agrees unless the
old one did not. -/
structure AllOrNothing
    (old : Collections) (pair : DocumentPair) : Prop where
  whole : pair = oldPair call old ∨ newPair? wire call = some pair
  agrees : (oldPair call old).Agrees → pair.Agrees

/-- Nothing but whole pairs is seen, or stored after a failure. -/
def UpdatesAllOrNothing
    (old : Collections) (events : List (Event ι)) : Prop :=
  let final := execute wire call old events
  (∀ failure, final.stage = .raised failure →
      AllOrNothing wire call old (final.pair call)) ∧
    ∀ reader pair, final.seen reader = some pair →
      AllOrNothing wire call old pair

/-- The events end with two loads of the reader, one of each document, around
the events in between. -/
def LoadsAround
    (events : List (Event ι)) (reader : ι)
    (between : List (Event ι)) : Prop :=
  ∃ before,
    events =
        before ++
          Event.read reader ::
            (between ++ [Event.getFinalConfig reader]) ∨
      events =
        before ++
          Event.getFinalConfig reader :: (between ++ [Event.read reader])

/-- What one call guarantees at the end of any interleaving. -/
structure VisiblePairs
    (old : Collections) (events : List (Event ι))
    (final : System ι) : Prop where
  stored : StoredPair wire call old (final.pair call)
  documents : ∀ reader pair, final.seen reader = some pair →
    WholeDocuments wire call old pair
  sameMoment : ∀ reader between, LoadsAround events reader between →
    (∀ event ∈ between, event.isProceed = false) →
      final.seen reader = some (final.pair call)
  configFirst : ∀ before reader between,
    events =
        before ++
          Event.getFinalConfig reader ::
            (between ++ [Event.read reader]) →
      Event.getFinalConfig reader ∉ between →
        ∃ pair, final.seen reader = some pair ∧
          StoredPair wire call old pair
  failedEarly :
    final.stage = .raised .generation ∨
        final.stage = .raised (.pipelineUpsert false) →
      final.stored = old
  failedBetween :
    final.stage = .raised (.pipelineUpsert true) ∨
        final.stage = .raised (.configUpsert false) →
      ∃ new, newPair? wire call = some new ∧
        final.pair call = ⟨new.pipeline, (oldPair call old).config⟩
  complete :
    final.stage = .returned ∨
        final.stage = .raised (.configUpsert true) →
      newPair? wire call = some (final.pair call)
  newAgrees : ∀ new, newPair? wire call = some new → new.Agrees

variable {wire call}

omit [DecidableEq ι] in
theorem updateStep_afterWrites
    (old : Collections) {stage : Stage} (answer : UpsertAnswer)
    (prepared : stage.Prepared wire call) :
    ∃ next : Stage,
      updateStep wire call (afterWrites wire call old stage.written)
          answer stage =
        (afterWrites wire call old next.written, next) ∧
      next.Prepared wire call := by
  cases stage with
  | preparing =>
      cases documents : prepare wire call with
      | none =>
          refine ⟨.raised .generation, ?_, documents⟩
          simp [updateStep, documents, Stage.written]
      | some pair =>
          obtain ⟨document, finalCfg⟩ := pair
          refine
            ⟨.upsertingPipeline document finalCfg, ?_, documents⟩
          simp [updateStep, documents, Stage.written]
  | upsertingPipeline document finalCfg =>
      have documents : prepare wire call = some (document, finalCfg) :=
        prepared
      cases answer with
      | stored =>
          refine
            ⟨.upsertingConfig finalCfg, ?_, ⟨document, documents⟩⟩
          simp [updateStep, UpsertAnswer.written, afterWrites, documents,
            Stage.written]
      | failed written =>
          refine
            ⟨.raised (.pipelineUpsert written), ?_,
              by simp [Stage.Prepared, documents]⟩
          cases written with
          | false =>
              rfl
          | true =>
              simp [updateStep, UpsertAnswer.written, afterWrites,
                documents, Stage.written]
  | upsertingConfig finalCfg =>
      obtain ⟨document, documents⟩ := prepared
      cases answer with
      | stored =>
          refine
            ⟨.returned, ?_, by simp [Stage.Prepared, documents]⟩
          simp [updateStep, UpsertAnswer.written, afterWrites, documents,
            Stage.written]
      | failed written =>
          refine
            ⟨.raised (.configUpsert written), ?_,
              by simp [Stage.Prepared, documents]⟩
          cases written with
          | false =>
              rfl
          | true =>
              simp [updateStep, UpsertAnswer.written, afterWrites,
                documents, Stage.written]
  | returned =>
      exact ⟨.returned, rfl, prepared⟩
  | raised failure =>
      exact ⟨.raised failure, rfl, prepared⟩

theorem written_le_updateStep
    (stored : Collections) (answer : UpsertAnswer) (stage : Stage) :
    stage.written ≤
      (updateStep wire call stored answer stage).2.written := by
  cases stage with
  | preparing =>
      exact Nat.zero_le _
  | upsertingPipeline document finalCfg =>
      exact Nat.zero_le _
  | upsertingConfig finalCfg =>
      cases answer with
      | stored =>
          exact Nat.le_succ 1
      | failed written =>
          exact Nat.le_add_right 1 _
  | returned =>
      exact Nat.le_refl _
  | raised failure =>
      exact Nat.le_refl _

theorem afterWrites_zero (old : Collections) :
    afterWrites wire call old 0 = old := by
  cases prepares : prepare wire call with
  | none =>
      simp [afterWrites, prepares]
  | some documents =>
      simp [afterWrites, prepares]

theorem pairAfter_zero (old : Collections) :
    pairAfter wire call old 0 = oldPair call old := by
  rw [pairAfter, afterWrites_zero, oldPair]

theorem pairAfter_one
    {new : DocumentPair} (old : Collections)
    (prepared : newPair? wire call = some new) :
    pairAfter wire call old 1 =
      ⟨new.pipeline, (oldPair call old).config⟩ := by
  obtain ⟨documents, prepares, rfl⟩ := Option.map_eq_some_iff.mp prepared
  simp [pairAfter, afterWrites, prepares, Collections.pair,
    Collections.read, Collections.upsertPipeline,
    Collections.getFinalConfig, oldPair]

theorem pairAfter_two
    {new : DocumentPair} (old : Collections) (more : Nat)
    (prepared : newPair? wire call = some new) :
    pairAfter wire call old (more + 2) = new := by
  obtain ⟨documents, prepares, rfl⟩ := Option.map_eq_some_iff.mp prepared
  simp [pairAfter, afterWrites, prepares, Collections.pair,
    Collections.read, Collections.upsertPipeline,
    Collections.getFinalConfig, Collections.upsertConfig]

theorem pairAfter_of_none
    (old : Collections) (written : Nat)
    (fails : newPair? wire call = none) :
    pairAfter wire call old written = oldPair call old := by
  have prepares : prepare wire call = none := Option.map_eq_none_iff.mp fails
  simp [pairAfter, afterWrites, prepares, oldPair]

/-- A pipeline document of a later moment than the configuration. -/
theorem storedPair_of_le
    (old : Collections) {first second : Nat} (later : first ≤ second) :
    StoredPair wire call old
      ⟨(pairAfter wire call old second).pipeline,
        (pairAfter wire call old first).config⟩ := by
  cases prepared : newPair? wire call with
  | none =>
      rw [pairAfter_of_none old _ prepared,
        pairAfter_of_none old _ prepared]
      exact .before
  | some new =>
      match first, second, later with
      | 0, 0, _ =>
          rw [pairAfter_zero]
          exact .before
      | 0, 1, _ =>
          rw [pairAfter_zero, pairAfter_one old prepared]
          exact .halfway new prepared
      | 0, more + 2, _ =>
          rw [pairAfter_zero, pairAfter_two old more prepared]
          exact .halfway new prepared
      | 1, 1, _ =>
          rw [pairAfter_one old prepared]
          exact .halfway new prepared
      | 1, more + 2, _ =>
          rw [pairAfter_one old prepared, pairAfter_two old more prepared]
          exact .halfway new prepared
      | less + 2, more + 2, _ =>
          rw [pairAfter_two old less prepared,
            pairAfter_two old more prepared]
          exact .after new prepared

theorem StoredPair.wholeDocuments
    {old : Collections} {pair : DocumentPair}
    (stored : StoredPair wire call old pair) :
    WholeDocuments wire call old pair := by
  cases stored with
  | before =>
      exact ⟨Or.inl rfl, Or.inl rfl⟩
  | halfway new prepared =>
      exact ⟨Or.inr ⟨new, prepared, rfl⟩, Or.inl rfl⟩
  | after _ prepared =>
      exact
        ⟨Or.inr ⟨pair, prepared, rfl⟩, Or.inr ⟨pair, prepared, rfl⟩⟩

theorem newPair?_agrees
    {new : DocumentPair} (prepared : newPair? wire call = some new) :
    new.Agrees := by
  obtain ⟨documents, prepares, rfl⟩ := Option.map_eq_some_iff.mp prepared
  rw [prepare] at prepares
  cases generated : generatePipelineConfig wire
      { call.pdata with lastUpdated := call.now } with
  | none =>
      simp [generated] at prepares
  | some finalCfg =>
      simp only [generated, Option.some.injEq] at prepares
      subst prepares
      rfl

/-! ## Runs -/

variable (wire call)

theorem Consistent.step
    {old : Collections} {system : System ι}
    (consistent : Consistent wire call old system) (event : Event ι) :
    Consistent wire call old (system.step wire call event) := by
  have pair : system.pair call =
      pairAfter wire call old system.stage.written := by
    rw [System.pair, consistent.stored, pairAfter]
  cases event with
  | proceed answer =>
      obtain ⟨next, steps, prepared⟩ :=
        updateStep_afterWrites old answer consistent.prepared
      rw [System.step, consistent.stored, steps]
      exact ⟨prepared, rfl, consistent.pipelines, consistent.configs⟩
  | read reader =>
      refine
        ⟨consistent.prepared, consistent.stored, ?_, consistent.configs⟩
      intro tested document loaded
      by_cases same : tested = reader
      · subst same
        have now : document = (system.pair call).pipeline := by
          simpa [System.step, System.pair, Collections.pair] using
            loaded.symm
        rw [now, pair]
        exact ⟨_, rfl⟩
      · apply consistent.pipelines tested document
        simpa [System.step, same] using loaded
  | getFinalConfig reader =>
      refine
        ⟨consistent.prepared, consistent.stored, consistent.pipelines, ?_⟩
      intro tested document loaded
      by_cases same : tested = reader
      · subst same
        have now : document = (system.pair call).config := by
          simpa [System.step, System.pair, Collections.pair] using
            loaded.symm
        rw [now, pair]
        exact ⟨_, rfl⟩
      · apply consistent.configs tested document
        simpa [System.step, same] using loaded

theorem consistent_execute (old : Collections) (events : List (Event ι)) :
    Consistent wire call old (execute wire call old events) := by
  apply run_invariant_always (Consistent wire call old)
  · intro system event consistent
    exact consistent.step wire call event
  · refine ⟨trivial, ?_, ?_, ?_⟩
    · exact (afterWrites_zero old).symm
    · intro reader document loaded
      cases loaded
    · intro reader document loaded
      cases loaded

theorem pair_execute (old : Collections) (events : List (Event ι)) :
    (execute wire call old events).pair call =
      pairAfter wire call old
        (execute wire call old events).stage.written := by
  rw [System.pair, (consistent_execute wire call old events).stored, pairAfter]

theorem written_le_run (system : System ι) (events : List (Event ι)) :
    system.stage.written ≤
      (run (System.step wire call) system events).stage.written := by
  apply run_le fun current : System ι => current.stage.written
  intro current event
  cases event with
  | proceed answer =>
      exact written_le_updateStep current.stored answer current.stage
  | read reader =>
      exact Nat.le_refl _
  | getFinalConfig reader =>
      exact Nat.le_refl _

/-- Between two steps of the call the store does not change, so a document
that was just loaded stays the stored one. -/
theorem pipeline_current_of_reads
    (system : System ι) (reader : ι) {events : List (Event ι)}
    (reads : ∀ event ∈ events, event.isProceed = false)
    (current :
      system.loadedPipeline reader = some (system.pair call).pipeline) :
    let later := run (System.step wire call) system events
    later.loadedPipeline reader = some (later.pair call).pipeline := by
  apply run_invariant
    (fun later : System ι =>
      later.loadedPipeline reader = some (later.pair call).pipeline)
    ?_ current (everyStep_of_forall_mem system reads)
  intro later event holds isRead
  cases event with
  | proceed answer =>
      cases isRead
  | read other =>
      by_cases same : reader = other
      · subst same
        simp [System.step, System.pair, Collections.pair]
      · simpa [System.step, System.pair, same] using holds
  | getFinalConfig other =>
      exact holds

theorem config_current_of_reads
    (system : System ι) (reader : ι) {events : List (Event ι)}
    (reads : ∀ event ∈ events, event.isProceed = false)
    (current :
      system.loadedConfig reader = some (system.pair call).config) :
    let later := run (System.step wire call) system events
    later.loadedConfig reader = some (later.pair call).config := by
  apply run_invariant
    (fun later : System ι =>
      later.loadedConfig reader = some (later.pair call).config)
    ?_ current (everyStep_of_forall_mem system reads)
  intro later event holds isRead
  cases event with
  | proceed answer =>
      cases isRead
  | read other =>
      exact holds
  | getFinalConfig other =>
      by_cases same : reader = other
      · subst same
        simp [System.step, System.pair, Collections.pair]
      · simpa [System.step, System.pair, same] using holds

theorem config_kept
    {system : System ι} {reader : ι} {events : List (Event ι)}
    {document : Option FinalConfig}
    (noLoad : Event.getFinalConfig reader ∉ events)
    (held : system.loadedConfig reader = some document) :
    (run (System.step wire call) system events).loadedConfig reader =
      some document := by
  have others : ∀ event ∈ events, event ≠ .getFinalConfig reader := by
    rintro event member rfl
    exact noLoad member
  apply run_invariant
    (fun later : System ι => later.loadedConfig reader = some document)
    ?_ held (everyStep_of_forall_mem system others)
  intro later event holds other
  cases event with
  | proceed answer =>
      exact holds
  | read tested =>
      exact holds
  | getFinalConfig tested =>
      have different : reader ≠ tested := by
        rintro rfl
        exact other rfl
      simpa [System.step, different] using holds

theorem execute_around
    (old : Collections) (before between : List (Event ι))
    (first last : Event ι) :
    execute wire call old (before ++ first :: (between ++ [last])) =
      (run (System.step wire call)
        ((execute wire call old before).step wire call first)
        between).step wire call last := by
  simp [execute, run_append]

omit [DecidableEq ι] in
theorem seen_of_loaded
    {system : System ι} {reader : ι} {pair : DocumentPair}
    (pipeline : system.loadedPipeline reader = some pair.pipeline)
    (config : system.loadedConfig reader = some pair.config) :
    system.seen reader = some pair := by
  simp [System.seen, pipeline, config]

theorem seen_sameMoment
    (old : Collections) {events : List (Event ι)} {reader : ι}
    {between : List (Event ι)}
    (loads : LoadsAround events reader between)
    (reads : ∀ event ∈ between, event.isProceed = false) :
    (execute wire call old events).seen reader =
      some ((execute wire call old events).pair call) := by
  rcases loads with ⟨before, rfl | rfl⟩
  · rw [execute_around]
    have current :=
      pipeline_current_of_reads wire call
        ((execute wire call old before).step wire call (.read reader))
        reader reads
        (by simp [System.step, System.pair, Collections.pair])
    apply seen_of_loaded
    · exact current
    · simp [System.step, System.pair, Collections.pair]
  · rw [execute_around]
    have current :=
      config_current_of_reads wire call
        ((execute wire call old before).step wire call
          (.getFinalConfig reader))
        reader reads
        (by simp [System.step, System.pair, Collections.pair])
    apply seen_of_loaded
    · simp [System.step, System.pair, Collections.pair]
    · exact current

theorem seen_configFirst
    (old : Collections) (before : List (Event ι)) (reader : ι)
    {between : List (Event ι)}
    (noLoad : Event.getFinalConfig reader ∉ between) :
    ∃ pair,
      (execute wire call old
        (before ++
          Event.getFinalConfig reader ::
            (between ++ [Event.read reader]))).seen reader = some pair ∧
        StoredPair wire call old pair := by
  have atLoad := pair_execute wire call old before
  have atRead :=
    pair_execute wire call old
      (before ++ Event.getFinalConfig reader :: between)
  have later :=
    written_le_run wire call (execute wire call old before)
      (Event.getFinalConfig reader :: between)
  have sameRun :
      run (System.step wire call) (execute wire call old before)
          (Event.getFinalConfig reader :: between) =
        execute wire call old
          (before ++ Event.getFinalConfig reader :: between) := by
    simp [execute, run_append]
  rw [sameRun] at later
  refine ⟨_, ?_, storedPair_of_le old later⟩
  rw [execute_around]
  apply seen_of_loaded
  · rw [← atRead, ← sameRun]
    simp [System.step, System.pair, Collections.pair]
  · rw [← atLoad]
    apply config_kept wire call noLoad
    simp [System.step, System.pair, Collections.pair]

omit [DecidableEq ι] in
theorem wholeDocuments_of_seen
    {old : Collections} {system : System ι}
    (consistent : Consistent wire call old system)
    {reader : ι} {pair : DocumentPair}
    (seen : system.seen reader = some pair) :
    WholeDocuments wire call old pair := by
  have whole : ∀ written,
      WholeDocuments wire call old (pairAfter wire call old written) :=
    fun written =>
      (storedPair_of_le old (Nat.le_refl written)).wholeDocuments
  cases loadedPipeline : system.loadedPipeline reader with
  | none =>
      simp [System.seen, loadedPipeline] at seen
  | some pipeline =>
      cases loadedConfig : system.loadedConfig reader with
      | none =>
          simp [System.seen, loadedPipeline, loadedConfig] at seen
      | some config =>
          simp only [System.seen, loadedPipeline, loadedConfig,
            Option.some.injEq] at seen
          subst seen
          obtain ⟨first, rfl⟩ :=
            consistent.pipelines reader pipeline loadedPipeline
          obtain ⟨second, rfl⟩ :=
            consistent.configs reader config loadedConfig
          exact ⟨(whole first).pipeline, (whole second).config⟩

omit [DecidableEq ι] in
theorem newPair?_of_prepared
    {stage : Stage} (prepared : stage.Prepared wire call)
    (written : 0 < stage.written) :
    ∃ new, newPair? wire call = some new := by
  apply Option.isSome_iff_exists.mp
  rw [newPair?, Option.isSome_map]
  cases stage with
  | preparing =>
      cases written
  | upsertingPipeline document finalCfg =>
      cases written
  | upsertingConfig finalCfg =>
      obtain ⟨document, prepares⟩ := prepared
      simp [prepares]
  | returned =>
      exact prepared
  | raised failure =>
      cases failure with
      | generation =>
          cases written
      | pipelineUpsert applied =>
          exact prepared
      | configUpsert applied =>
          exact prepared

/-- For every generator, call, stored documents and interleaving of the call
with any readers, whatever each upsert is answered. -/
theorem update_visiblePairs
    (old : Collections) (events : List (Event ι)) :
    VisiblePairs wire call old events (execute wire call old events) := by
  have consistent := consistent_execute wire call old events
  have atEnd := pair_execute wire call old events
  refine ⟨?_, ?_, ?_, ?_, ?_, ?_, ?_, ?_⟩
  · rw [atEnd]
    exact storedPair_of_le old (Nat.le_refl _)
  · intro reader pair seen
    exact wholeDocuments_of_seen wire call consistent seen
  · intro reader between loads reads
    exact seen_sameMoment wire call old loads reads
  · rintro before reader between rfl noLoad
    exact seen_configFirst wire call old before reader noLoad
  · intro early
    rw [consistent.stored]
    rcases early with stage | stage
    · rw [stage]
      exact afterWrites_zero old
    · rw [stage]
      exact afterWrites_zero old
  · intro halfway
    have written :
        (execute wire call old events).stage.written = 1 := by
      rcases halfway with stage | stage
      · rw [stage]
        rfl
      · rw [stage]
        rfl
    obtain ⟨new, prepared⟩ :=
      newPair?_of_prepared wire call consistent.prepared (by omega)
    refine ⟨new, prepared, ?_⟩
    rw [atEnd, written]
    exact pairAfter_one old prepared
  · intro complete
    have written :
        (execute wire call old events).stage.written = 2 := by
      rcases complete with stage | stage
      · rw [stage]
        rfl
      · rw [stage]
        rfl
    obtain ⟨new, prepared⟩ :=
      newPair?_of_prepared wire call consistent.prepared (by omega)
    rw [atEnd, written, pairAfter_two old 0 prepared, prepared]
  · intro new prepared
    exact newPair?_agrees prepared

end Update

/-! ## A second upsert that fails -/

/-- The wiring of a chain of two tasks. -/
def chainWiring (dag : DAGConfig) (pipeline : PipelineMeta) :
    Option Wiring :=
  match dag.tasks with
  | [first, second] =>
      let queue := "queue_" ++ first.id ++ "_to_" ++ second.id
      let entryQueue := "pipeline_entry_queue_" ++ pipeline.pipelineId
      let entry (taskId exchange queue : String) : RabbitConfig :=
        ⟨taskId, some
          { exchange := exchange
            exchangeType := some "direct"
            queue := some queue
            routingKey := some queue }⟩
      some
        { rabbitmqConfigs :=
            [entry first.id ("exchange_" ++ first.id) queue,
              entry second.id ("exchange_" ++ second.id) queue,
              entry "entry" ("pipeline_entry_" ++ pipeline.pipelineId)
                entryQueue]
          rabbitmqTopology := "{}"
          rabbitmqYamlManifest := "" }
  | _ => none

def chainTo (last now : String) : UpdateCall where
  username := "u"
  pipelineId := "p"
  now := now
  pdata :=
    { pipelineId := "p"
      vhost := "/"
      name := "chain"
      pipelineName := "chain"
      lastUpdated := now
      errorHandling := ⟨⟨3, "exponential"⟩, "stop"⟩
      dag :=
        ⟨[{ id := "a", name := "a", availableServices := "svc-a"
            action := "run", isEntry := true, isFinalTask := false },
          { id := last, name := last, availableServices := "svc-b"
            action := "run", isEntry := false
            inputs := some ⟨some ["a"]⟩, isFinalTask := true }]⟩ }

/-- What an earlier call has stored. -/
def chainToB : Collections :=
  (execute chainWiring (chainTo "b" "monday")
    ⟨fun _ => none, fun _ => none⟩
    [(.proceed .stored : Event Unit), .proceed .stored,
      .proceed .stored]).stored

/-- The second upsert of the next call fails; before that a reader loads both
documents. -/
def tornUpdate : List (Event Unit) :=
  [.proceed .stored, .proceed .stored, .read (), .getFinalConfig (),
    .proceed (.failed false)]

theorem failed_upsert_tears_pair :
    ¬ UpdatesAllOrNothing chainWiring (chainTo "c" "tuesday") chainToB
      tornUpdate := by
  rintro ⟨remains, _⟩
  have torn := remains (.configUpsert false) (by decide +kernel)
  have agrees := torn.agrees (by decide +kernel)
  revert agrees
  decide +kernel

end Agentcy.PipelineStore
