import Agentcy.Cnp.BidderBatches
import Agentcy.Pheromones.Intensities

/-!
# Failure streaks

The context of a failure counts the failures of one kind in a row.  It stands
on one marker, the strongest that the engine finds, while a reader goes over
all markers of the agent.  A deposit adds a marker without a context, so that
the strongest marker may be one that knows nothing of the earlier failures.
-/

namespace Agentcy.Pheromones

open Agentcy.Cnp
open Agentcy.Forwarder
open Agentcy.GraphStore (listingPrefix MarkerKey)
open Agentcy.Library
open Agentcy.Plans (orElse)

/-- `list_failure_markers`, but for the order. -/
def listFailureMarkers
    (order : QueryOrder AffordanceMarker) (markers : Markers)
    (username agentId : String) (taskType : Option String) :
    List AffordanceMarker :=
  (listAffordanceMarkers order markers username none (some agentId)).filter
    fun marker =>
      match marker.failureContext with
      | none => false
      | some context => isWanted taskType (some context.taskType)

/-- The text of the error of an entry. -/
def errorTextOf (python : PyBuiltins) (entry : Fields) : Option String :=
  let errorRaw :=
    orElse
      (orElse (orElse (entry.get "error") (entry.get "error_message"))
        (entry.get "reason"))
      (.str "")
  if errorRaw.truthy then some (errorRaw.pyStr python) else none

def errorCategoryOf (python : PyBuiltins) (entry : Fields) : String :=
  classifyError python (errorTextOf python entry)

/-- The task type that a failure is filed under. -/
def failureTypeOf (entry : Fields) (taskType : Json) : Json :=
  orElse
    (orElse (orElse taskType (entry.get "task_type"))
      (entry.get "capability"))
    (.str "general")

/-- The failures of the same kind that the marker has counted. -/
def previousCount
    (existing : Option AffordanceMarker) (resolved : Json)
    (category : String) : Nat :=
  match existing.bind AffordanceMarker.failureContext with
  | none => 0
  | some context =>
      if (Json.str context.taskType).pyEq resolved ∧
          context.errorCategory = some category then
        context.count
      else 0

section Contexts

variable (python : PyBuiltins) (entry : Fields) (taskType : Json)
  (existing : Option AffordanceMarker)

theorem buildFailureContext_of_failure
    (failed : reportedSuccess python entry = some false) :
    ∃ context,
      buildFailureContext python entry taskType existing = some context ∧
        context.taskType =
          (failureTypeOf entry taskType).pyStr python ∧
        context.errorCategory = some (errorCategoryOf python entry) ∧
        context.count =
          previousCount existing (failureTypeOf entry taskType)
              (errorCategoryOf python entry) + 1 := by
  unfold buildFailureContext
  rw [failed]
  exact ⟨_, rfl, rfl, rfl, rfl⟩

theorem buildFailureContext_of_no_failure
    (notFailed : reportedSuccess python entry ≠ some false) :
    buildFailureContext python entry taskType existing = none := by
  unfold buildFailureContext
  split
  · rename_i failed
    exact absurd failed notFailed
  · rfl

end Contexts

/-- The two readings of an outcome that is no failure agree on whether it is a
success. -/
def ReadAlike (python : PyBuiltins) (entry : Fields) : Prop :=
  reportedSuccess python entry ≠ some false →
    (countedSuccess python entry = some true ↔
      reportedSuccess python entry = some true)

/-- What an entry leaves on the marker that was selected. -/
structure Marked
    (env : EngineEnv) (specs : OrderedMap String TaskSpec)
    (entry : Fields) (ids : EntryIds) (markerId : String)
    (selected : Option AffordanceMarker) (marked : AffordanceMarker) :
    Prop where
  markerId : marked.markerId =
    (selected.map AffordanceMarker.markerId).getD markerId
  taskId : marked.taskId =
    (selected.map AffordanceMarker.taskId).getD ids.taskId
  agentId : marked.agentId =
    (selected.map AffordanceMarker.agentId).getD ids.agentId
  cleared : reportedSuccess env.python entry = some true →
    marked.failureContext = none
  counted : reportedSuccess env.python entry = some false →
    ∃ context, marked.failureContext = some context ∧
      let resolved :=
        failureTypeOf entry (resolvedTaskType specs entry ids.taskId)
      let category := errorCategoryOf env.python entry
      context.taskType = resolved.pyStr env.python ∧
        context.errorCategory = some category ∧
        context.count = previousCount selected resolved category + 1
  kept : reportedSuccess env.python entry = none →
    marked.failureContext = selected.bind AffordanceMarker.failureContext

theorem failureContext_of_feedback
    {env : EngineEnv} {specs : OrderedMap String TaskSpec}
    {entry : Fields} {ids : EntryIds} {markerId : String}
    {selected : Option AffordanceMarker} {marked : AffordanceMarker}
    (marks :
      markedByFeedback env specs entry ids markerId selected =
        .ok marked) :
    marked.failureContext =
      (buildFailureContext env.python entry
        (resolvedTaskType specs entry ids.taskId) selected).or
        (if countedSuccess env.python entry = some true then none
          else selected.bind AffordanceMarker.failureContext) := by
  unfold markedByFeedback at marks
  cases selected with
  | none =>
      obtain ⟨capability, _, valid⟩ := bind_eq_ok.mp marks
      obtain rfl := of_validMarker valid
      simp
  | some marker =>
      obtain rfl := (pure_eq_ok _ _).mp marks
      cases buildFailureContext env.python entry
          (resolvedTaskType specs entry ids.taskId) (some marker) with
      | none => simp
      | some context => simp

theorem marked_of_feedback
    {env : EngineEnv} {specs : OrderedMap String TaskSpec}
    {entry : Fields} {ids : EntryIds} {markerId : String}
    {selected : Option AffordanceMarker} {marked : AffordanceMarker}
    (alike : ReadAlike env.python entry)
    (marks :
      markedByFeedback env specs entry ids markerId selected =
        .ok marked) :
    Marked env specs entry ids markerId selected marked := by
  have context := failureContext_of_feedback marks
  have sameIds :
      marked.markerId =
          (selected.map AffordanceMarker.markerId).getD markerId ∧
        marked.taskId =
          (selected.map AffordanceMarker.taskId).getD ids.taskId ∧
        marked.agentId =
          (selected.map AffordanceMarker.agentId).getD ids.agentId := by
    unfold markedByFeedback at marks
    cases selected with
    | none =>
        obtain ⟨capability, _, valid⟩ := bind_eq_ok.mp marks
        obtain rfl := of_validMarker valid
        exact ⟨rfl, rfl, rfl⟩
    | some marker =>
        obtain rfl := (pure_eq_ok _ _).mp marks
        exact ⟨rfl, rfl, rfl⟩
  obtain ⟨markerIds, taskIds, agentIds⟩ := sameIds
  refine ⟨markerIds, taskIds, agentIds, ?_, ?_, ?_⟩
  · intro succeeded
    have notFailed : reportedSuccess env.python entry ≠ some false := by
      simp [succeeded]
    rw [context, buildFailureContext_of_no_failure _ _ _ _ notFailed,
      Option.none_or, if_pos ((alike notFailed).mpr succeeded)]
  · intro failed
    obtain ⟨built, builds, type, category, count⟩ :=
      buildFailureContext_of_failure env.python entry
        (resolvedTaskType specs entry ids.taskId) selected failed
    rw [builds, Option.some_or] at context
    exact ⟨built, context, type, category, count⟩
  · intro neither
    have notFailed : reportedSuccess env.python entry ≠ some false := by
      simp [neither]
    have uncounted : countedSuccess env.python entry ≠ some true := by
      rw [Ne, alike notFailed, neither]
      simp
    rw [context, buildFailureContext_of_no_failure _ _ _ _ notFailed,
      Option.none_or, if_neg uncounted]

section Rows

variable (username task agent : String)

/-- The rows of the agent's markers. -/
def agentRows (markers : Markers) : List (String × AffordanceMarker) :=
  (rowsUnder markers
    (listingPrefix "marker::affordance" username [none])).filter
      fun row => isWanted (some agent) (some row.2.agentId)

/-- Those for the task. -/
def taskRows (markers : Markers) : List (String × AffordanceMarker) :=
  (agentRows username agent markers).filter fun row =>
    decide (row.2.taskId = task)

def taskPrefix : String :=
  listingPrefix "marker::affordance" username [some task]

def userPrefix : String :=
  listingPrefix "marker::affordance" username [none]

/-- The agent's markers stand under their own keys, and a listing for the task
finds no others than those for the task. -/
structure OwnRows (markers : Markers) : Prop where
  key : ∀ row ∈ agentRows username agent markers,
    row.1 = affordanceKey username row.2.taskId row.2.markerId
  task : ∀ row ∈ agentRows username agent markers,
    under (taskPrefix username task) row.1 = true →
      row.2.taskId = task

variable {username task agent}

theorem under_affordanceKey (markerId : String) :
    under (taskPrefix username task)
        (affordanceKey username task markerId) = true := by
  obtain ⟨more, begins⟩ :=
    taskPrefix_toList "marker::affordance" username task
  have split :
      (affordanceKey username task markerId).toList =
        (taskPrefix username task).toList ++
          (more ++ markerId.toList) := by
    rw [← List.append_assoc, taskPrefix, ← begins]
    simp [affordanceKey, MarkerKey.text, MarkerKey.kind,
      MarkerKey.components, MarkerKey.joined]
  rw [under, split]
  exact LikePattern.like_of_append _ _

theorem mem_rowsUnder_iff
    {markers : Markers} {keyPrefix : String}
    {row : String × AffordanceMarker} :
    row ∈ rowsUnder markers keyPrefix ↔
      row ∈ markers.entries ∧ under keyPrefix row.1 = true :=
  List.mem_filter

theorem mem_agentRows_iff
    {markers : Markers} {row : String × AffordanceMarker} :
    row ∈ agentRows username agent markers ↔
      (row ∈ markers.entries ∧
          under (userPrefix username) row.1 = true) ∧
        isWanted (some agent) (some row.2.agentId) = true := by
  rw [agentRows, List.mem_filter, mem_rowsUnder_iff]
  rfl

theorem mem_taskRows_iff
    {markers : Markers} {row : String × AffordanceMarker} :
    row ∈ taskRows username task agent markers ↔
      row ∈ agentRows username agent markers ∧ row.2.taskId = task := by
  rw [taskRows, List.mem_filter, decide_eq_true_iff]

/-- What a listing for the task and the agent returns. -/
theorem mem_listing_iff
    {markers : Markers} (own : OwnRows username task agent markers)
    (order : QueryOrder AffordanceMarker) (marker : AffordanceMarker) :
    marker ∈
        listAffordanceMarkers order markers username (some task)
          (some agent) ↔
      ∃ key, (key, marker) ∈ taskRows username task agent markers := by
  rw [mem_listAffordanceMarkers_iff]
  constructor
  · intro listed
    obtain ⟨⟨key, inRows⟩, wanted⟩ := listed
    obtain ⟨stored, underTask⟩ := mem_rowsUnder_iff.mp inRows
    have ofAgent : (key, marker) ∈ agentRows username agent markers :=
      mem_agentRows_iff.mpr
        ⟨⟨stored, under_taskPrefix underTask⟩, wanted⟩
    exact ⟨key, mem_taskRows_iff.mpr
      ⟨ofAgent, own.task _ ofAgent underTask⟩⟩
  · intro inTask
    obtain ⟨key, member⟩ := inTask
    obtain ⟨ofAgent, forTask⟩ := mem_taskRows_iff.mp member
    obtain ⟨⟨stored, _⟩, wanted⟩ := mem_agentRows_iff.mp ofAgent
    have ownKey := own.key _ ofAgent
    dsimp only at ownKey forTask wanted
    rw [forTask] at ownKey
    refine ⟨⟨key, mem_rowsUnder_iff.mpr ⟨stored, ?_⟩⟩, wanted⟩
    dsimp only
    rw [ownKey]
    exact under_affordanceKey marker.markerId

/-- What a reader of the failures of the agent finds for the task. -/
theorem mem_listFailureMarkers_iff
    {markers : Markers} (order : QueryOrder AffordanceMarker)
    (marker : AffordanceMarker) :
    marker ∈ listFailureMarkers order markers username agent none ∧
        marker.taskId = task ↔
      (∃ key, (key, marker) ∈ taskRows username task agent markers) ∧
        marker.failureContext.isSome = true := by
  have carries :
      (match marker.failureContext with
        | none => false
        | some context => isWanted none (some context.taskType)) =
          true ↔ marker.failureContext.isSome = true := by
    cases marker.failureContext with
    | none => exact Iff.rfl
    | some context => exact iff_of_true rfl rfl
  rw [listFailureMarkers, List.mem_filter, carries,
    mem_listAffordanceMarkers_iff]
  constructor
  · intro listed
    obtain ⟨⟨⟨⟨key, inRows⟩, wanted⟩, failed⟩, forTask⟩ := listed
    have stored := mem_rowsUnder_iff.mp inRows
    exact ⟨⟨key, mem_taskRows_iff.mpr
      ⟨mem_agentRows_iff.mpr ⟨stored, wanted⟩, forTask⟩⟩, failed⟩
  · intro inTask
    obtain ⟨⟨key, member⟩, failed⟩ := inTask
    obtain ⟨ofAgent, forTask⟩ := mem_taskRows_iff.mp member
    obtain ⟨stored, wanted⟩ := mem_agentRows_iff.mp ofAgent
    exact
      ⟨⟨⟨⟨key, mem_rowsUnder_iff.mpr stored⟩, wanted⟩, failed⟩, forTask⟩

/-- The key under which a marker for the task is added. -/
abbrev keyOf (username task : String) (marker : AffordanceMarker) :
    String :=
  affordanceKey username task marker.markerId

theorem mem_agentRows_add_iff
    {markers : Markers} {marker : AffordanceMarker}
    (forTask : marker.taskId = task)
    (wanted : isWanted (some agent) (some marker.agentId) = true)
    {row : String × AffordanceMarker} :
    row ∈ agentRows username agent
        (addAffordanceMarker markers username marker) ↔
      row = (keyOf username task marker, marker) ∨
        row ∈ agentRows username agent markers ∧
          row.1 ≠ keyOf username task marker := by
  have userKey :
      under (userPrefix username) (keyOf username task marker) = true :=
    under_taskPrefix (under_affordanceKey marker.markerId)
  rw [mem_agentRows_iff, mem_agentRows_iff, addAffordanceMarker, forTask,
    OrderedMap.mem_entries_set_iff]
  constructor
  · intro added
    obtain ⟨⟨new | old, underUser⟩, wantedRow⟩ := added
    · exact Or.inl new
    · exact Or.inr ⟨⟨⟨old.1, underUser⟩, wantedRow⟩, old.2⟩
  · intro either
    rcases either with new | ⟨⟨⟨stored, underUser⟩, wantedRow⟩, other⟩
    · rw [new]
      exact ⟨⟨Or.inl rfl, userKey⟩, wanted⟩
    · exact ⟨⟨Or.inr ⟨stored, other⟩, underUser⟩, wantedRow⟩

theorem mem_taskRows_add_iff
    {markers : Markers} {marker : AffordanceMarker}
    (forTask : marker.taskId = task)
    (wanted : isWanted (some agent) (some marker.agentId) = true)
    {row : String × AffordanceMarker} :
    row ∈ taskRows username task agent
        (addAffordanceMarker markers username marker) ↔
      row = (keyOf username task marker, marker) ∨
        row ∈ taskRows username task agent markers ∧
          row.1 ≠ keyOf username task marker := by
  rw [mem_taskRows_iff, mem_taskRows_iff,
    mem_agentRows_add_iff forTask wanted]
  constructor
  · intro added
    obtain ⟨new | old, sameTask⟩ := added
    · exact Or.inl new
    · exact Or.inr ⟨⟨old.1, sameTask⟩, old.2⟩
  · intro either
    rcases either with new | ⟨⟨old, sameTask⟩, other⟩
    · exact ⟨Or.inl new, new ▸ forTask⟩
    · exact ⟨Or.inr ⟨old, other⟩, sameTask⟩

theorem OwnRows.add
    {markers : Markers} (own : OwnRows username task agent markers)
    {marker : AffordanceMarker} (forTask : marker.taskId = task)
    (wanted : isWanted (some agent) (some marker.agentId) = true) :
    OwnRows username task agent
      (addAffordanceMarker markers username marker) := by
  constructor
  · intro row member
    rcases (mem_agentRows_add_iff forTask wanted).mp member with new | old
    · rw [new, ← forTask]
    · exact own.key row old.1
  · intro row member underTask
    rcases (mem_agentRows_add_iff forTask wanted).mp member with new | old
    · rw [new]
      exact forTask
    · exact own.task row old.1 underTask

end Rows

/-! ## Feedback and deposits -/

/-- The failures of one category in a row, as the history tells them. -/
structure Streak where
  category : String
  count : Nat

/-- The streak after an entry. -/
def streakAfter
    (python : PyBuiltins) (streak : Option Streak) (entry : Fields) :
    Option Streak :=
  match reportedSuccess python entry with
  | none => streak
  | some true => none
  | some false =>
      let category := errorCategoryOf python entry
      match streak with
      | none => some ⟨category, 1⟩
      | some before =>
          if before.category = category then
            some ⟨category, before.count + 1⟩
          else some ⟨category, 1⟩

/-- An entry of the feedback, with the specs that are known then, or the
deposit of a pass.  Each comes with the id of the marker that it may make. -/
inductive MarkerWrite where
  | feedback (specs : OrderedMap String TaskSpec) (entry : Fields)
      (markerId : String)
  | deposit (env : DepositEnv) (routed : Routed) (pass : Pass)

/-- The stored markers, and the streak of the entries so far. -/
structure Watched where
  markers : Markers
  streak : Option Streak := none

section Runs

variable (env : EngineEnv) (username task agent : String)

/-- An entry that raises leaves nothing. -/
def watchedStep (watched : Watched) : MarkerWrite → Watched
  | .feedback specs entry markerId =>
      match applyEntry env username specs watched.markers
          (entry, markerId) with
      | .error _ => watched
      | .ok markers =>
          ⟨markers, streakAfter env.python watched.streak entry⟩
  | .deposit deposits routed pass =>
      ⟨depositMarker deposits task routed pass watched.markers,
        watched.streak⟩

/-- The write is about the agent, the task and the task type, and the id that
it may use is new. -/
def MarkerWrite.About
    (taskType : String) (watched : Watched) : MarkerWrite → Prop
  | .feedback specs entry markerId =>
      entryIds? env.python entry = some ⟨agent, task⟩ ∧
        failureTypeOf entry (resolvedTaskType specs entry task) =
          .str taskType ∧
        watched.markers.get? (affordanceKey username task markerId) = none
  | .deposit deposits routed pass =>
      routed.payload.username = username ∧
        (∀ credited, pass.credited = some credited → credited = agent) ∧
        watched.markers.get?
          (affordanceKey username task deposits.markerId) = none

/-- Only the marker that the engine selects may carry the context of a
failure. -/
def OnlySelected (markers : Markers) : Prop :=
  let listed :=
    listAffordanceMarkers env.order markers username (some task)
      (some agent)
  ∀ marker ∈ listed, marker.failureContext.isSome = true →
    selectMarker listed = some marker

/-- The entry finds no other marker with a context than the selected one, and
is not read in two ways. -/
def MarkerWrite.Streaks (watched : Watched) : MarkerWrite → Prop
  | .feedback _ entry _ =>
      OnlySelected env username task agent watched.markers ∧
        ReadAlike env.python entry
  | .deposit _ _ _ => True

/-- The failure counts that a reader finds for the task. -/
def failureCounts (markers : Markers) : List Nat :=
  ((listFailureMarkers env.order markers username agent none).filter
    fun marker => decide (marker.taskId = task)).filterMap
      fun marker => marker.failureContext.map FailureContext.count

/-- Without a streak no marker carries a context; the count of a streak is the
largest of the failure counts. -/
def Shown (watched : Watched) : Prop :=
  match watched.streak with
  | none =>
      ∀ marker ∈ listAffordanceMarkers env.order watched.markers username
          (some task) (some agent),
        marker.failureContext = none
  | some streak =>
      streak.count ∈ failureCounts env username task agent
          watched.markers ∧
        ∀ count ∈ failureCounts env username task agent watched.markers,
          count ≤ streak.count

/-- What every state of a run knows: with a streak, a marker carries it, and
no count is larger. -/
structure Tracked (taskType : String) (watched : Watched) : Prop where
  own : OwnRows username task agent watched.markers
  calm : watched.streak = none →
    ∀ row ∈ taskRows username task agent watched.markers,
      row.2.failureContext = none
  carried : ∀ streak, watched.streak = some streak →
    ∃ row ∈ taskRows username task agent watched.markers,
      ∃ context, row.2.failureContext = some context ∧
        context.taskType = taskType ∧
        context.errorCategory = some streak.category ∧
        context.count = streak.count
  largest : ∀ streak, watched.streak = some streak →
    ∀ row ∈ taskRows username task agent watched.markers,
      ∀ context, row.2.failureContext = some context →
        context.count ≤ streak.count

variable {env username task agent}

theorem Tracked.shown
    {taskType : String} {watched : Watched}
    (tracked : Tracked username task agent taskType watched) :
    Shown env username task agent watched := by
  have counts (count : Nat) :
      count ∈ failureCounts env username task agent watched.markers ↔
        ∃ row ∈ taskRows username task agent watched.markers,
          ∃ context, row.2.failureContext = some context ∧
            context.count = count := by
    simp only [failureCounts, List.mem_filterMap, List.mem_filter,
      decide_eq_true_eq, Option.map_eq_some_iff,
      mem_listFailureMarkers_iff]
    constructor
    · intro found
      obtain ⟨marker, ⟨⟨key, member⟩, _⟩, context, carries, isCount⟩ :=
        found
      exact ⟨_, member, context, carries, isCount⟩
    · intro found
      obtain ⟨row, member, context, carries, isCount⟩ := found
      exact ⟨row.2, ⟨⟨row.1, member⟩, by simp [carries]⟩, context,
        carries, isCount⟩
  unfold Shown
  cases streak : watched.streak with
  | none =>
      intro marker listed
      obtain ⟨key, member⟩ := (mem_listing_iff tracked.own _ _).mp listed
      exact tracked.calm streak _ member
  | some current =>
      constructor
      · obtain ⟨row, member, context, carries, _, _, count⟩ :=
          tracked.carried current streak
        exact (counts _).mpr ⟨row, member, context, carries, count⟩
      · intro count isCount
        obtain ⟨row, member, context, carries, rfl⟩ :=
          (counts count).mp isCount
        exact tracked.largest current streak row member context carries

theorem mem_of_selectMarker
    {listed : List AffordanceMarker} {marker : AffordanceMarker}
    (selected : selectMarker listed = some marker) : marker ∈ listed := by
  rw [selectMarker, Option.filter_eq_some_iff] at selected
  exact
    (List.mem_insertionSort _).mp (List.mem_of_mem_head? selected.1)

/-- A new marker without a context changes nothing. -/
theorem Tracked.add_calm
    {taskType : String} {watched : Watched}
    (tracked : Tracked username task agent taskType watched)
    {marker : AffordanceMarker} (forTask : marker.taskId = task)
    (wanted : isWanted (some agent) (some marker.agentId) = true)
    (new : watched.markers.get? (keyOf username task marker) = none)
    (without : marker.failureContext = none) :
    Tracked username task agent taskType
      { watched with
        markers := addAffordanceMarker watched.markers username marker } := by
  refine ⟨tracked.own.add forTask wanted, ?_, ?_, ?_⟩
  · intro none row member
    rcases (mem_taskRows_add_iff forTask wanted).mp member with
      isNew | ⟨old, _⟩
    · rw [isNew]
      exact without
    · exact tracked.calm none row old
  · intro streak current
    obtain ⟨row, member, carries⟩ := tracked.carried streak current
    refine ⟨row, (mem_taskRows_add_iff forTask wanted).mpr
      (Or.inr ⟨member, ?_⟩), carries⟩
    intro same
    have stored := (mem_agentRows_iff.mp (mem_taskRows_iff.mp member).1).1.1
    have found :=
      (OrderedMap.mem_entries_iff watched.markers row.1 row.2).mp stored
    rw [same, new] at found
    cases found
  · intro streak current row member context carries
    rcases (mem_taskRows_add_iff forTask wanted).mp member with
      isNew | ⟨old, _⟩
    · rw [isNew, without] at carries
      cases carries
    · exact tracked.largest streak current row old context carries

/-- A deposit adds a marker without a context. -/
theorem Tracked.deposit
    {taskType : String} {watched : Watched}
    (tracked : Tracked username task agent taskType watched)
    {deposits : DepositEnv} {routed : Routed} {pass : Pass}
    (about : MarkerWrite.About env username task agent taskType watched
      (.deposit deposits routed pass)) :
    Tracked username task agent taskType
      (watchedStep env username task watched
        (.deposit deposits routed pass)) := by
  obtain ⟨sameUser, sameAgent, new⟩ := about
  unfold watchedStep depositMarker
  dsimp only
  split
  · rename_i sequence agentId _ credited
    rw [sameUser, sameAgent agentId credited]
    split
    · exact tracked
    · apply tracked.add_calm
      · rfl
      · exact (isWanted_some_iff agent agent).mpr (Or.inr rfl)
      · exact new
      · rfl
  · exact tracked

/-- A marker is added, and no other one carries a context. -/
theorem tracked_add_over
    {taskType : String} {markers : Markers} {streak : Option Streak}
    (own : OwnRows username task agent markers)
    {marker : AffordanceMarker} (forTask : marker.taskId = task)
    (wanted : isWanted (some agent) (some marker.agentId) = true)
    (others : ∀ row ∈ taskRows username task agent markers,
      row.1 ≠ keyOf username task marker → row.2.failureContext = none)
    (calm : streak = none → marker.failureContext = none)
    (carries : ∀ current, streak = some current →
      ∃ context, marker.failureContext = some context ∧
        context.taskType = taskType ∧
        context.errorCategory = some current.category ∧
        context.count = current.count) :
    Tracked username task agent taskType
      ⟨addAffordanceMarker markers username marker, streak⟩ := by
  refine ⟨own.add forTask wanted, ?_, ?_, ?_⟩
  · intro none row member
    rcases (mem_taskRows_add_iff forTask wanted).mp member with
      isNew | ⟨old, other⟩
    · rw [isNew]
      exact calm none
    · exact others row old other
  · intro current isCurrent
    exact ⟨_, (mem_taskRows_add_iff forTask wanted).mpr (Or.inl rfl),
      carries current isCurrent⟩
  · intro current isCurrent row member context found
    rcases (mem_taskRows_add_iff forTask wanted).mp member with
      isNew | ⟨old, other⟩
    · obtain ⟨carried, carriedIs, _, _, count⟩ := carries current isCurrent
      rw [isNew, carriedIs] at found
      cases found
      exact count.le
    · rw [others row old other] at found
      cases found

theorem applyEntry_ok
    {specs : OrderedMap String TaskSpec} {markers after : Markers}
    {entry : Fields} {markerId : String}
    (names : entryIds? env.python entry = some ⟨agent, task⟩)
    (applied :
      applyEntry env username specs markers (entry, markerId) =
        .ok after) :
    ∃ marked,
      markedByFeedback env specs entry ⟨agent, task⟩ markerId
          (selectMarker
            (listAffordanceMarkers env.order markers username (some task)
              (some agent))) = .ok marked ∧
        after = addAffordanceMarker markers username marked := by
  unfold applyEntry at applied
  rw [names] at applied
  obtain ⟨marked, marks, applied⟩ := bind_eq_ok.mp applied
  obtain rfl := (pure_eq_ok _ _).mp applied
  exact ⟨marked, marks, rfl⟩

section Selected

variable {taskType : String} {watched : Watched}

/-- The selected marker is one for the task, under its own key. -/
theorem Tracked.row_of_selected
    (tracked : Tracked username task agent taskType watched)
    {marker : AffordanceMarker}
    (selected :
      selectMarker
          (listAffordanceMarkers env.order watched.markers username
            (some task) (some agent)) = some marker) :
    ∃ key, (key, marker) ∈ taskRows username task agent watched.markers :=
  (mem_listing_iff tracked.own _ _).mp (mem_of_selectMarker selected)

/-- A row with a context is that of the selected marker. -/
theorem Tracked.selected_of_context
    (tracked : Tracked username task agent taskType watched)
    (only : OnlySelected env username task agent watched.markers)
    {row : String × AffordanceMarker}
    (member : row ∈ taskRows username task agent watched.markers)
    (carries : row.2.failureContext.isSome = true) :
    selectMarker
        (listAffordanceMarkers env.order watched.markers username
          (some task) (some agent)) = some row.2 :=
  only row.2 ((mem_listing_iff tracked.own _ _).mpr ⟨row.1, member⟩)
    carries

/-- Without a streak the selected marker has counted nothing; otherwise it
carries the streak. -/
theorem Tracked.selected_context
    (tracked : Tracked username task agent taskType watched)
    (only : OnlySelected env username task agent watched.markers) :
    let selected :=
      selectMarker
        (listAffordanceMarkers env.order watched.markers username
          (some task) (some agent))
    (watched.streak = none →
        selected.bind AffordanceMarker.failureContext = none) ∧
      ∀ streak, watched.streak = some streak →
        ∃ context,
          selected.bind AffordanceMarker.failureContext = some context ∧
            context.taskType = taskType ∧
            context.errorCategory = some streak.category ∧
            context.count = streak.count := by
  intro selected
  constructor
  · intro none
    cases isSelected : selected with
    | none => rfl
    | some marker =>
        obtain ⟨key, member⟩ := tracked.row_of_selected isSelected
        exact tracked.calm none _ member
  · intro streak current
    obtain ⟨row, member, context, carries, rest⟩ :=
      tracked.carried streak current
    have isSelected :=
      tracked.selected_of_context only member (by simp [carries])
    refine ⟨context, ?_, rest⟩
    rw [show selected = some row.2 from isSelected]
    exact carries

end Selected

/-- What the selected marker has counted goes on with the streak. -/
theorem streakAfter_failure
    {python : PyBuiltins} {entry : Fields} {taskType : String}
    {streak : Option Streak} {selected : Option AffordanceMarker}
    (failed : reportedSuccess python entry = some false)
    (calm : streak = none →
      selected.bind AffordanceMarker.failureContext = none)
    (carried : ∀ current, streak = some current →
      ∃ context,
        selected.bind AffordanceMarker.failureContext = some context ∧
          context.taskType = taskType ∧
          context.errorCategory = some current.category ∧
          context.count = current.count) :
    streakAfter python streak entry =
      some ⟨errorCategoryOf python entry,
        previousCount selected (.str taskType)
          (errorCategoryOf python entry) + 1⟩ := by
  unfold streakAfter previousCount
  rw [failed]
  cases streak with
  | none =>
      rw [calm rfl]
  | some current =>
      obtain ⟨context, found, type, category, count⟩ :=
        carried current rfl
      have sameType : (Json.str context.taskType).pyEq (.str taskType) =
          true := by
        simp [Json.pyEq, Json.key?, type]
      rw [found]
      simp only [sameType, category, count, true_and, Option.some.injEq]
      split
      · rfl
      · rfl

/-- A feedback goes on from the selected marker, and no other one knows of a
failure. -/
theorem Tracked.feedback
    {taskType : String} {watched : Watched}
    (tracked : Tracked username task agent taskType watched)
    {specs : OrderedMap String TaskSpec} {entry : Fields}
    {markerId : String}
    (about : MarkerWrite.About env username task agent taskType watched
      (.feedback specs entry markerId))
    (streaks : MarkerWrite.Streaks env username task agent watched
      (.feedback specs entry markerId)) :
    Tracked username task agent taskType
      (watchedStep env username task watched
        (.feedback specs entry markerId)) := by
  obtain ⟨names, typed, _⟩ := about
  obtain ⟨only, alike⟩ := streaks
  unfold watchedStep
  dsimp only
  split
  · exact tracked
  · rename_i after applied
    obtain ⟨marked, marks, rfl⟩ := applyEntry_ok names applied
    have result := marked_of_feedback alike marks
    obtain ⟨calm, carried⟩ := tracked.selected_context only
    have placed : marked.taskId = task ∧
        isWanted (some agent) (some marked.agentId) = true := by
      rw [result.taskId, result.agentId]
      cases selected : selectMarker
          (listAffordanceMarkers env.order watched.markers username
            (some task) (some agent)) with
      | none =>
          exact ⟨rfl, (isWanted_some_iff agent agent).mpr (Or.inr rfl)⟩
      | some marker =>
          obtain ⟨key, member⟩ := tracked.row_of_selected selected
          obtain ⟨ofAgent, forTask⟩ := mem_taskRows_iff.mp member
          exact ⟨forTask, (mem_agentRows_iff.mp ofAgent).2⟩
    have others : ∀ row ∈ taskRows username task agent watched.markers,
        row.1 ≠ keyOf username task marked →
          row.2.failureContext = none := by
      intro row member other
      by_contra carries
      have selected := tracked.selected_of_context only member
        (Option.isSome_iff_ne_none.mpr carries)
      obtain ⟨ofAgent, forTask⟩ := mem_taskRows_iff.mp member
      have sameId := result.markerId
      rw [selected] at sameId
      apply other
      rw [tracked.own.key row ofAgent, forTask, keyOf, sameId]
      rfl
    apply tracked_add_over tracked.own placed.1 placed.2 others
    · intro none
      cases reported : reportedSuccess env.python entry with
      | none =>
          rw [result.kept reported]
          apply calm
          rw [streakAfter, reported] at none
          exact none
      | some success =>
          cases success with
          | true => exact result.cleared reported
          | false =>
              rw [streakAfter_failure reported calm carried] at none
              cases none
    · intro current isCurrent
      cases reported : reportedSuccess env.python entry with
      | none =>
          rw [streakAfter, reported] at isCurrent
          rw [result.kept reported]
          exact carried current isCurrent
      | some success =>
          cases success with
          | true =>
              rw [streakAfter, reported] at isCurrent
              cases isCurrent
          | false =>
              rw [streakAfter_failure reported calm carried] at isCurrent
              cases isCurrent
              obtain ⟨context, found, type, category, count⟩ :=
                result.counted reported
              rw [typed] at type count
              exact ⟨context, found, type, category, count⟩

/-- In every run of feedback entries and deposits for one agent, task and task
type, from markers that carry no context, in which each entry finds no context
but on the marker that is selected and is not read in two ways: a success
leaves no context, and after failures of one category in a row the largest
count is their number. -/
theorem streaks_shown
    (env : EngineEnv) (username task agent taskType : String)
    (markers : Markers) (own : OwnRows username task agent markers)
    (calm : ∀ row ∈ taskRows username task agent markers,
      row.2.failureContext = none)
    (writes : List MarkerWrite)
    (about : EveryStep (watchedStep env username task)
      (MarkerWrite.About env username task agent taskType)
      { markers := markers } writes)
    (streaks : EveryStep (watchedStep env username task)
      (MarkerWrite.Streaks env username task agent)
      { markers := markers } writes) :
    EveryState (watchedStep env username task)
      (Shown env username task agent) { markers := markers } writes := by
  have start : Tracked username task agent taskType
      { markers := markers } := by
    refine ⟨own, fun _ => calm, ?_, ?_⟩
    · intro streak current
      cases current
    · intro streak current
      cases current
  have keeps : ∀ watched write,
      Tracked username task agent taskType watched →
        MarkerWrite.About env username task agent taskType watched write ∧
            MarkerWrite.Streaks env username task agent watched write →
          Tracked username task agent taskType
            (watchedStep env username task watched write) := by
    intro watched write tracked both
    cases write with
    | feedback specs entry markerId =>
        exact tracked.feedback both.1 both.2
    | deposit deposits routed pass =>
        exact tracked.deposit both.1
  have both : EveryStep (watchedStep env username task)
      (fun watched write =>
        MarkerWrite.About env username task agent taskType watched write ∧
          MarkerWrite.Streaks env username task agent watched write)
      { markers := markers } writes := by
    rw [everyStep_iff_split] at about streaks ⊢
    intro before write after split
    exact ⟨about before write after split,
      streaks before write after split⟩
  exact
    everyState_of_invariant _ keeps (fun _ tracked => tracked.shown) start
      both

end Runs

/-! ## One agent, one task -/

def plainEngine : EngineEnv where
  python := plainPython
  toFloat := fun _ => none
  order := .asStored

def timedOut : Fields :=
  [("task_id", .str "approve"), ("agent_id", .str "agent-c"),
    ("success", .bool false), ("error", .str "timeout"),
    ("task_type", .str "review")]

def passedReview : Fields :=
  [("task_id", .str "approve"), ("agent_id", .str "agent-c"),
    ("success", .bool true), ("task_type", .str "review")]

def reviewDeposit : MarkerWrite :=
  .deposit plainDeposits reviewRouted reviewPass

theorem ownRows_empty :
    OwnRows "alice" "approve" "agent-c" (.empty : Markers) := by
  constructor
  · intro row member
    cases member
  · intro row member
    cases member

/-- Two failures in a row, a success, and a deposit. -/
def failuresThenSuccess : List MarkerWrite :=
  [.feedback .empty timedOut "f1", .feedback .empty timedOut "f2",
    .feedback .empty passedReview "f3", reviewDeposit]

/-- A single marker that is valid is the one that is selected. -/
theorem onlySelected_of_single
    {env : EngineEnv} {username task agent : String} {markers : Markers}
    (single : (listAffordanceMarkers env.order markers username (some task)
      (some agent)).length = 1)
    (valid : ∀ marker ∈ listAffordanceMarkers env.order markers username
      (some task) (some agent), 0 ≤ marker.intensity) :
    OnlySelected env username task agent markers := by
  obtain ⟨only, isOnly⟩ := List.length_eq_one_iff.mp single
  intro marker member carries
  rw [isOnly] at member valid ⊢
  obtain rfl := List.mem_singleton.mp member
  exact if_pos (decide_eq_true (valid marker member))

theorem two_failures_and_success_shown :
    EveryState (watchedStep plainEngine "alice" "approve")
      (Shown plainEngine "alice" "approve" "agent-c")
      { markers := .empty } failuresThenSuccess := by
  have failed : ReadAlike plainEngine.python timedOut :=
    fun notFailed => absurd rfl notFailed
  have passed : ReadAlike plainEngine.python passedReview :=
    fun _ => iff_of_true rfl rfl
  apply streaks_shown plainEngine "alice" "approve" "agent-c" "review"
    .empty ownRows_empty
  · intro row member
    cases member
  · refine ⟨⟨rfl, rfl, rfl⟩, ⟨rfl, rfl, by decide +kernel⟩,
      ⟨rfl, rfl, by decide +kernel⟩, ⟨by decide +kernel, ?_,
        by decide +kernel⟩, trivial⟩
    intro credited isCredited
    have same : reviewPass.credited = some "agent-c" := by decide +kernel
    exact Option.some.inj (isCredited.symm.trans same)
  · refine ⟨⟨?_, failed⟩,
      ⟨onlySelected_of_single (by decide +kernel) (by decide +kernel),
        failed⟩,
      ⟨onlySelected_of_single (by decide +kernel) (by decide +kernel),
        passed⟩, trivial, trivial⟩
    intro marker listed
    cases listed

/-- The markers and the streak after a failure, a deposit and another
entry. -/
def afterDeposit (entry : Fields) : Watched :=
  run (watchedStep plainEngine "alice" "approve") { markers := .empty }
    [.feedback .empty timedOut "f1", reviewDeposit,
      .feedback .empty entry "f2"]

/-- The success clears the marker of the deposit and leaves the context of the
failure on the other; a second failure is counted as a first one there. -/
theorem deposit_hides_failure :
    ¬ Shown plainEngine "alice" "approve" "agent-c"
        (afterDeposit passedReview) ∧
      (afterDeposit timedOut).streak.map Streak.count = some 2 ∧
      failureCounts plainEngine "alice" "approve" "agent-c"
          (afterDeposit timedOut).markers = [1, 1] := by
  refine ⟨?_, by decide +kernel, by decide +kernel⟩
  intro shown
  have gone : (afterDeposit passedReview).streak.isNone = true := by
    decide +kernel
  have streak := Option.isNone_iff_eq_none.mp gone
  unfold Shown at shown
  rw [streak] at shown
  have hidden :
      (listAffordanceMarkers plainEngine.order
        (afterDeposit passedReview).markers "alice" (some "approve")
        (some "agent-c")).any (fun marker => marker.failureContext.isSome) =
      true := by
    decide +kernel
  obtain ⟨marker, listed, carries⟩ := List.any_eq_true.mp hidden
  rw [shown marker listed] at carries
  cases carries

end Agentcy.Pheromones
