import Mathlib.Data.List.Sort
import Agentcy.Cnp.CnpStore
import Agentcy.Library.LikePattern
import Agentcy.Library.SealedCell
import Agentcy.Runs.EphemeralStore

/-!
# The hot bucket and the archive of runs

A run document is inserted into the hot bucket when the run is launched and
replaced there by whoever handles the run.  When a process hears that the run
is over, it moves the document into the cold bucket, in one transaction that
looks at the status again.  Any number of processes do so, in any order, with
documents that they have read at any time.
-/

namespace Agentcy.Runs

open Agentcy.Cnp (UuidSource)
open Agentcy.Library

/-- Errors of the two buckets, and the one that aborts the transaction. -/
inductive ArchiveError where
  | documentNotFound
  | documentExists
  | notTerminal
  deriving DecidableEq

/-- The documents of both buckets, and the number of run ids drawn so far. -/
structure Archive where
  hot : OrderedMap String RunDoc := .empty
  cold : OrderedMap String RunDoc := .empty
  drawn : Nat := 0

/-- Statuses of runs that are moved from hot to cold. -/
def TERMINAL : List PipelineStatus :=
  [.completed, .failed]

def RunDoc.isTerminal (doc : RunDoc) : Bool :=
  TERMINAL.contains doc.run.status

namespace Archive

def createRun (archive : Archive) (key : String) (doc : RunDoc) :
    Except ArchiveError Archive :=
  if archive.hot.contains key then .error .documentExists
  else .ok { archive with hot := archive.hot.set key doc }

def readRun (archive : Archive) (key : String) :
    Except ArchiveError RunDoc :=
  match archive.hot.get? key with
  | none => .error .documentNotFound
  | some doc => .ok doc

def updateRun (archive : Archive) (key : String) (doc : RunDoc) :
    Except ArchiveError Archive :=
  if archive.hot.contains key then
    .ok { archive with hot := archive.hot.set key doc }
  else .error .documentNotFound

def finalizeRun (archive : Archive) (key : String) :
    Except ArchiveError Archive :=
  match archive.hot.get? key with
  | none => .error .documentNotFound
  | some body =>
      if body.isTerminal then
        if archive.cold.contains key then .error .documentExists
        else
          .ok
            { archive with
              hot := archive.hot.erase key
              cold := archive.cold.set key body }
      else .error .notTerminal

end Archive

/-- What the processes ask of the buckets: a launch draws a run id for its
document, an update may have been computed from an older document, and any
process may hear of an end. -/
inductive ArchiveCall where
  | launch (username pipelineId : String) (doc : RunDoc)
  | update (key : String) (doc : RunDoc)
  | finalize (key : String)

namespace Archive

variable (uuid : UuidSource)

/-- A call that is refused leaves the buckets as they are. -/
def perform (archive : Archive) (call : ArchiveCall) : Archive :=
  match call with
  | .launch username pipelineId doc =>
      let key := runKey username pipelineId (uuid.id archive.drawn)
      { (archive.createRun key doc).toOption.getD archive with
        drawn := archive.drawn + 1 }
  | .update key doc => (archive.updateRun key doc).toOption.getD archive
  | .finalize key => (archive.finalizeRun key).toOption.getD archive

def drawnAfter (drawn : Nat) : ArchiveCall → Nat
  | .launch _ _ _ => drawn + 1
  | _ => drawn

/-- What a call asks of the document under a key, after a number of ids has
been drawn. -/
def cellCall? (key : String) (drawn : Nat) :
    ArchiveCall → Option (CellCall RunDoc)
  | .launch username pipelineId doc =>
      if key = runKey username pipelineId (uuid.id drawn) then
        some (.create doc)
      else none
  | .update named doc => if key = named then some (.write doc) else none
  | .finalize named => if key = named then some .close else none

def cellCalls (key : String) :
    Nat → List ArchiveCall → List (CellCall RunDoc)
  | _, [] => []
  | drawn, call :: rest =>
      (cellCall? uuid key drawn call).toList ++
        cellCalls key (drawnAfter drawn call) rest

def keyPrefix (username pipelineId : String) : List Char :=
  "pipeline_run::".toList ++ (username.toList ++ "::".toList ++
    (pipelineId.toList ++ "::".toList))

theorem toList_runKey (username pipelineId runId : String) :
    (runKey username pipelineId runId).toList =
      keyPrefix username pipelineId ++ runId.toList := by
  unfold runKey keyPrefix
  simp only [String.toList_append, List.append_assoc]

theorem keyPrefix_append
    (username pipelineId : String) (rest : List Char) :
    keyPrefix username pipelineId ++ rest =
      ("pipeline_run::".toList ++ (username.toList ++ "::".toList ++
        (pipelineId.toList ++ [':']))) ++ ':' :: rest := by
  have colons : "::".toList = [':'] ++ [':'] := by
    decide
  unfold keyPrefix
  simp only [colons, List.append_assoc, List.cons_append,
    List.nil_append]

/-- The key of a run determines the id that was drawn for it. -/
theorem runKey_inj
    {username pipelineId otherName otherPipeline : String}
    {index other : Nat}
    (same : runKey username pipelineId (uuid.id index) =
      runKey otherName otherPipeline (uuid.id other)) : index = other := by
  have lists := congrArg String.toList same
  rw [toList_runKey, toList_runKey, keyPrefix_append,
    keyPrefix_append] at lists
  have parts := append_separator_inj (uuid.no_colon index)
    (uuid.no_colon other) lists
  exact uuid.id_injective (String.ext parts.2)

/-- All documents belong to ids that have been drawn, and no run is in both
buckets. -/
structure Sound (archive : Archive) : Prop where
  drawnKeys : ∀ key,
    archive.hot.get? key ≠ none ∨ archive.cold.get? key ≠ none →
      ∃ username pipelineId index, index < archive.drawn ∧
        key = runKey username pipelineId (uuid.id index)
  apart : ∀ key, archive.hot.get? key ≠ none →
    archive.cold.get? key = none

/-- The buckets hold a document as a sealed cell does. -/
def Holds (archive : Archive) (key : String) (cell : SealedCell RunDoc) :
    Prop :=
  archive.hot.get? key = cell.live? ∧ archive.cold.get? key = cell.closed?

section Steps

variable {uuid} {archive : Archive}

theorem Sound.fresh
    (sound : archive.Sound uuid) (username pipelineId : String) :
    archive.hot.get? (runKey username pipelineId (uuid.id archive.drawn)) =
        none ∧
      archive.cold.get?
        (runKey username pipelineId (uuid.id archive.drawn)) = none := by
  have undrawn : ¬ (archive.hot.get?
        (runKey username pipelineId (uuid.id archive.drawn)) ≠ none ∨
      archive.cold.get?
        (runKey username pipelineId (uuid.id archive.drawn)) ≠ none) := by
    intro stored
    obtain ⟨_, _, index, less, same⟩ := sound.drawnKeys _ stored
    rw [← runKey_inj uuid same] at less
    exact lt_irrefl _ less
  rw [not_or, not_not, not_not] at undrawn
  exact undrawn

theorem perform_launch
    (sound : archive.Sound uuid) (username pipelineId : String)
    (doc : RunDoc) :
    archive.perform uuid (.launch username pipelineId doc) =
      { hot := archive.hot.set
          (runKey username pipelineId (uuid.id archive.drawn)) doc
        cold := archive.cold
        drawn := archive.drawn + 1 } := by
  have absent : archive.hot.contains
      (runKey username pipelineId (uuid.id archive.drawn)) = false := by
    rw [OrderedMap.contains, (sound.fresh username pipelineId).1]
    rfl
  unfold perform createRun
  dsimp only
  rw [absent]
  rfl

theorem perform_update (archive : Archive) (key : String) (doc : RunDoc) :
    archive.perform uuid (.update key doc) =
      if archive.hot.contains key then
        { archive with hot := archive.hot.set key doc }
      else archive := by
  unfold perform updateRun
  dsimp only
  split
  · rfl
  · rfl

theorem perform_finalize
    (sound : archive.Sound uuid) (key : String) :
    archive.perform uuid (.finalize key) =
      match archive.hot.get? key with
      | none => archive
      | some body =>
          if body.isTerminal then
            { archive with
              hot := archive.hot.erase key
              cold := archive.cold.set key body }
          else archive := by
  unfold perform finalizeRun
  dsimp only
  cases stored : archive.hot.get? key with
  | none =>
      rfl
  | some body =>
      dsimp only
      split
      · have absent : archive.cold.contains key = false := by
          rw [OrderedMap.contains, sound.apart key (by simp [stored])]
          rfl
        rw [absent]
        rfl
      · rfl

theorem Sound.perform
    (sound : archive.Sound uuid) (call : ArchiveCall) :
    (archive.perform uuid call).Sound uuid := by
  cases call with
  | launch username pipelineId doc =>
      rw [perform_launch sound]
      refine ⟨?_, ?_⟩
      · intro key stored
        by_cases own :
            key = runKey username pipelineId (uuid.id archive.drawn)
        · exact ⟨username, pipelineId, archive.drawn, Nat.lt_succ_self _,
            own⟩
        · dsimp only at stored
          rw [OrderedMap.get?_set_other _ _ own] at stored
          obtain ⟨name, pipeline, index, less, same⟩ :=
            sound.drawnKeys key stored
          exact ⟨name, pipeline, index, Nat.lt_succ_of_lt less, same⟩
      · intro key stored
        by_cases own :
            key = runKey username pipelineId (uuid.id archive.drawn)
        · rw [own]
          exact (sound.fresh username pipelineId).2
        · dsimp only at stored
          rw [OrderedMap.get?_set_other _ _ own] at stored
          exact sound.apart key stored
  | update named doc =>
      rw [perform_update]
      split
      · rename_i present
        have wasThere : archive.hot.get? named ≠ none :=
          Option.isSome_iff_ne_none.mp present
        have there : ∀ key, (archive.hot.set named doc).get? key ≠ none →
            archive.hot.get? key ≠ none := by
          intro key stored
          by_cases own : key = named
          · rw [own]
            exact wasThere
          · rwa [OrderedMap.get?_set_other _ _ own] at stored
        exact
          ⟨fun key stored =>
            sound.drawnKeys key (stored.imp_left (there key)),
            fun key stored => sound.apart key (there key stored)⟩
      · exact sound
  | finalize named =>
      rw [perform_finalize sound]
      split
      · exact sound
      · rename_i body stored
        split
        · refine ⟨?_, ?_⟩
          · intro key either
            by_cases own : key = named
            · rw [own]
              exact sound.drawnKeys named (Or.inl (by simp [stored]))
            · dsimp only at either
              rw [OrderedMap.get?_erase, if_neg own,
                OrderedMap.get?_set_other _ _ own] at either
              exact sound.drawnKeys key either
          · intro key inHot
            dsimp only at inHot ⊢
            by_cases own : key = named
            · rw [own, OrderedMap.get?_erase_self] at inHot
              exact absurd rfl inHot
            · rw [OrderedMap.get?_erase, if_neg own] at inHot
              rw [OrderedMap.get?_set_other _ _ own]
              exact sound.apart key inHot
        · exact sound

theorem drawn_perform (archive : Archive) (call : ArchiveCall) :
    (archive.perform uuid call).drawn = drawnAfter archive.drawn call := by
  cases call with
  | launch _ _ _ =>
      rfl
  | update _ _ =>
      rw [perform_update]
      split
      · rfl
      · rfl
  | finalize key =>
      unfold perform finalizeRun
      dsimp only
      split
      · rfl
      · split
        · split
          · rfl
          · rfl
        · rfl

/-- A call does to the document under a key what it asks of the cell. -/
theorem Holds.perform
    (sound : archive.Sound uuid) {key : String} {cell : SealedCell RunDoc}
    (holds : archive.Holds key cell) (call : ArchiveCall) :
    (archive.perform uuid call).Holds key
      (run (SealedCell.step RunDoc.isTerminal) cell
        (cellCall? uuid key archive.drawn call).toList) := by
  obtain ⟨isHot, isCold⟩ := holds
  cases call with
  | launch username pipelineId doc =>
      rw [perform_launch sound]
      by_cases own :
          key = runKey username pipelineId (uuid.id archive.drawn)
      · have fresh := sound.fresh username pipelineId
        rw [← own, isHot, isCold] at fresh
        have unborn : cell = .unborn := by
          cases cell with
          | unborn => rfl
          | live _ => cases fresh.1
          | closed _ => cases fresh.2
        rw [cellCall?, if_pos own, unborn]
        refine ⟨?_, ?_⟩
        · rw [← own]
          exact OrderedMap.get?_set_self _ _ _
        · rw [isCold, unborn]
          rfl
      · rw [cellCall?, if_neg own]
        exact ⟨(OrderedMap.get?_set_other _ _ own).trans isHot, isCold⟩
  | update named doc =>
      rw [perform_update]
      by_cases own : key = named
      · rw [cellCall?, if_pos own, ← own, OrderedMap.contains, isHot]
        cases cell with
        | unborn => exact ⟨isHot, isCold⟩
        | live value =>
            exact ⟨OrderedMap.get?_set_self _ _ _, isCold⟩
        | closed value => exact ⟨isHot, isCold⟩
      · rw [cellCall?, if_neg own]
        split
        · exact ⟨(OrderedMap.get?_set_other _ _ own).trans isHot, isCold⟩
        · exact ⟨isHot, isCold⟩
  | finalize named =>
      rw [perform_finalize sound]
      by_cases own : key = named
      · rw [cellCall?, if_pos own, ← own, isHot]
        cases cell with
        | unborn => exact ⟨isHot, isCold⟩
        | live value =>
            dsimp only [SealedCell.live?]
            by_cases final : value.isTerminal = true
            · rw [if_pos final]
              have isClosed : run (SealedCell.step RunDoc.isTerminal)
                  (.live value) [.close] = .closed value := if_pos final
              rw [Option.toList_some, isClosed]
              exact ⟨OrderedMap.get?_erase_self _ _,
                OrderedMap.get?_set_self _ _ _⟩
            · rw [if_neg final]
              have stays : run (SealedCell.step RunDoc.isTerminal)
                  (.live value) [.close] = .live value := if_neg final
              rw [Option.toList_some, stays]
              exact ⟨isHot, isCold⟩
        | closed value => exact ⟨isHot, isCold⟩
      · rw [cellCall?, if_neg own]
        split
        · exact ⟨isHot, isCold⟩
        · split
          · refine ⟨?_, ?_⟩
            · exact ((OrderedMap.get?_erase _ _ _).trans
                (if_neg own)).trans isHot
            · exact (OrderedMap.get?_set_other _ _ own).trans isCold
          · exact ⟨isHot, isCold⟩

end Steps

/-! ## Runs of the buckets -/

variable {uuid}

theorem sound_run (calls : List ArchiveCall) :
    (run (perform uuid) {} calls).Sound uuid := by
  refine run_invariant_always (Sound uuid)
    (fun _ call sound => sound.perform call) calls ⟨?_, ?_⟩
  · rintro key (stored | stored)
    · exact absurd rfl stored
    · exact absurd rfl stored
  · exact fun _ _ => rfl

theorem Holds.run
    {archive : Archive} (sound : archive.Sound uuid) {key : String}
    {cell : SealedCell RunDoc} (holds : archive.Holds key cell)
    (calls : List ArchiveCall) :
    (Library.run (Archive.perform uuid) archive calls).Holds key
      (Library.run (SealedCell.step RunDoc.isTerminal) cell
        (cellCalls uuid key archive.drawn calls)) := by
  induction calls generalizing archive cell with
  | nil =>
      exact holds
  | cons call rest inductionHypothesis =>
      rw [run_cons, cellCalls, run_append, ← drawn_perform]
      exact inductionHypothesis (sound.perform call)
        (holds.perform sound call)

theorem holds_run (calls : List ArchiveCall) (key : String) :
    (Library.run (perform uuid) {} calls).Holds key
      (Library.run (SealedCell.step RunDoc.isTerminal) .unborn
        (cellCalls uuid key 0 calls)) := by
  have empty : ({} : Archive).Holds key .unborn := ⟨rfl, rfl⟩
  exact empty.run (sound_run []) calls

/-- Whatever the processes do and in whatever order, the document of a run is
a sealed cell: it lies in the hot bucket until a process finds it terminal and
moves it, and then in the cold bucket as it was.  Reads, updates and moves are
answered as the cell tells. -/
theorem run_is_sealed_cell (calls : List ArchiveCall) (key : String) :
    let archive := Library.run (perform uuid) {} calls
    let cell := Library.run (SealedCell.step RunDoc.isTerminal) .unborn
      (cellCalls uuid key 0 calls)
    archive.Holds key cell ∧
      (archive.readRun key).toOption = cell.live? ∧
      (∀ doc, (archive.updateRun key doc).isOk = cell.live?.isSome) ∧
      (archive.finalizeRun key).isOk = cell.live?.any RunDoc.isTerminal := by
  intro archive cell
  have holds : archive.Holds key cell := holds_run calls key
  have sound : archive.Sound uuid := sound_run calls
  refine ⟨holds, ?_, ?_, ?_⟩
  · rw [readRun, ← holds.1]
    cases archive.hot.get? key with
    | none => rfl
    | some _ => rfl
  · intro doc
    rw [updateRun, ← holds.1]
    unfold OrderedMap.contains
    cases archive.hot.get? key with
    | none => rfl
    | some _ => rfl
  · rw [finalizeRun, ← holds.1]
    cases stored : archive.hot.get? key with
    | none =>
        rfl
    | some body =>
        -- what is in the hot bucket is not in the cold one
        have absent : archive.cold.contains key = false := by
          rw [OrderedMap.contains, sound.apart key (by simp [stored])]
          rfl
        dsimp only
        rw [absent, Option.any_some]
        cases body.isTerminal with
        | true => rfl
        | false => rfl

theorem closed_of_cold
    {calls : List ArchiveCall} {key : String} {doc : RunDoc}
    (archived : (Library.run (perform uuid) {} calls).cold.get? key =
      some doc) :
    Library.run (SealedCell.step RunDoc.isTerminal) .unborn
      (cellCalls uuid key 0 calls) = .closed doc := by
  have holds := @holds_run uuid calls key
  unfold Holds at holds
  generalize Library.run (SealedCell.step RunDoc.isTerminal) .unborn
    (cellCalls uuid key 0 calls) = cell at holds ⊢
  rw [archived] at holds
  cases cell with
  | unborn => cases holds.2
  | live _ => cases holds.2
  | closed kept =>
      obtain rfl : doc = kept := Option.some.inj holds.2
      rfl

/-- An archived document stays in the cold bucket alone. -/
theorem holds_later
    {calls : List ArchiveCall} {key : String} {doc : RunDoc}
    (archived : (Library.run (perform uuid) {} calls).cold.get? key =
      some doc) (later : List ArchiveCall) :
    (Library.run (perform uuid) {} (calls ++ later)).Holds key
      (.closed doc) := by
  have before := @holds_run uuid calls key
  rw [closed_of_cold archived] at before
  have after := before.run (sound_run calls) later
  rw [SealedCell.run_closed, ← run_append] at after
  exact after

/-- An archived document is terminal and stays as it is, whatever is called
later: updates of the run, further moves and reads of it are refused. -/
theorem archived_forever
    {calls : List ArchiveCall} {key : String} {doc : RunDoc}
    (archived : (Library.run (perform uuid) {} calls).cold.get? key =
      some doc) :
    doc.isTerminal = true ∧ ∀ later,
      let archive := Library.run (perform uuid) {} (calls ++ later)
      archive.cold.get? key = some doc ∧
        archive.readRun key = .error .documentNotFound ∧
        archive.finalizeRun key = .error .documentNotFound ∧
        ∀ update, archive.updateRun key update =
          .error .documentNotFound := by
  obtain ⟨_, _, _, _, terminal⟩ :=
    SealedCell.exists_close (closed_of_cold archived)
  refine ⟨terminal, ?_⟩
  intro later archive
  have holds : archive.Holds key (.closed doc) := holds_later archived later
  have absent : archive.hot.get? key = none := holds.1
  refine ⟨holds.2, ?_, ?_, ?_⟩
  · rw [readRun, absent]
  · rw [finalizeRun, absent]
  · intro update
    rw [updateRun, OrderedMap.contains, absent]
    rfl

/-- The rows of one query: the document ids that begin with the prefix of the
pipeline, in their order. -/
def rows (bucket : OrderedMap String RunDoc) (username pipelineId : String) :
    List String :=
  (bucket.keys.filter fun id =>
    LikePattern.like (keyPrefix username pipelineId ++ ['%'])
      id.toList).insertionSort (· ≤ ·)

section Listing

variable
  {username pipelineId : String}
  (plainName : LikePattern.literal username.toList = true)
  (plainPipeline : LikePattern.literal pipelineId.toList = true)

include plainName plainPipeline

end Listing

/-! ## A run that ends while its pipeline is listed -/

def endedRun (status : PipelineStatus) : RunDoc where
  run :=
    { pipelineRunId := "0"
      pipelineId := "p"
      status := status
      tasks := .empty
      triggeredBy := "alice" }

def endedKey : String :=
  runKey "alice" "p" (Cnp.countedIds.id 0)

def endedCalls : List ArchiveCall :=
  [.launch "alice" "p" (endedRun .running),
    .update endedKey (endedRun .completed)]

theorem ended_run_stays_archived :
    (endedRun .completed).isTerminal = true ∧ ∀ later,
      let archive := Library.run (perform Cnp.countedIds) {}
        (endedCalls ++ [.finalize endedKey] ++ later)
      archive.cold.get? endedKey = some (endedRun .completed) ∧
        archive.readRun endedKey = .error .documentNotFound ∧
        archive.finalizeRun endedKey = .error .documentNotFound ∧
        ∀ update, archive.updateRun endedKey update =
          .error .documentNotFound :=
  archived_forever rfl

end Archive

end Agentcy.Runs
