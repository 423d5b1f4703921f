import Agentcy.Cnp.CfpLifecycle

/-!
# Batches of task specs

What a run of the bidder does for one spec depends on the other specs of the
batch in two ways.  The documents of a task are read by a pattern, which may
be that of another task too; and the first pipeline that is known is kept for
the specs that come later.
-/

namespace Agentcy.Cnp

open Agentcy.GraphStore
open Agentcy.Library

section Rows

variable {α : Type}

def under (keyPrefix key : String) : Bool :=
  LikePattern.like (keyPrefix.toList ++ ['%']) key.toList

theorem rowsUnder_set
    (docs : OrderedMap String α) (key : String) (value : α)
    (keyPrefix : String) :
    rowsUnder (docs.set key value) keyPrefix =
      if under keyPrefix key = true then
        OrderedMap.setEntries key value (rowsUnder docs keyPrefix)
      else rowsUnder docs keyPrefix :=
  OrderedMap.filter_setEntries (under keyPrefix) key value docs.entries

/-- No key is under both prefixes. -/
def Apart (first second : String) : Prop :=
  ∀ key, under first key = true → under second key = false

/-- A write under one prefix leaves the rows under the other. -/
theorem Apart.rowsUnder_set
    {first second : String} (apart : Apart first second)
    (docs : OrderedMap String α) {key : String} (value : α)
    (inFirst : under first key = true) :
    rowsUnder (docs.set key value) second = rowsUnder docs second := by
  rw [Cnp.rowsUnder_set, apart key inFirst]
  rfl

theorem under_taskPrefix
    {kind username taskId key : String}
    (inTask : under (listingPrefix kind username [some taskId]) key = true) :
    under (listingPrefix kind username []) key = true := by
  have longer :
      (listingPrefix kind username [some taskId]).toList =
        (listingPrefix kind username []).toList ++
          (narrowed [some taskId]).toList := by
    simp [listingPrefix, narrowed]
  rw [under, longer, List.append_assoc] at inTask
  exact LikePattern.like_of_like_more _ _ inTask

theorem under_cfpKey (username taskId cfpId : String) :
    under (listingPrefix "cfp" username [some taskId])
        (cfpKey username taskId cfpId) =
      true := by
  obtain ⟨more, begins⟩ := taskPrefix_toList "cfp" username taskId
  have split :
      (cfpKey username taskId cfpId).toList =
        (listingPrefix "cfp" username [some taskId]).toList ++
          (more ++ cfpId.toList) := by
    rw [← List.append_assoc, ← begins, cfpKey_toList]
    simp
  rw [under, split]
  exact LikePattern.like_of_append _ _

theorem under_bidKey (username taskId bidderId bidId : String) :
    under (listingPrefix "bid" username [some taskId])
        (bidKey username taskId bidderId bidId) =
      true := by
  obtain ⟨more, begins⟩ := taskPrefix_toList "bid" username taskId
  have split :
      (bidKey username taskId bidderId bidId).toList =
        (listingPrefix "bid" username [some taskId]).toList ++
          (more ++ (bidderId.toList ++ ("::".toList ++
            bidId.toList))) := by
    rw [← List.append_assoc, ← begins, bidKey_toList]
    simp
  rw [under, split]
  exact LikePattern.like_of_append _ _

end Rows

namespace BidderRun

variable {Agent : Type} (uuid : UuidSource) (bidder : BidderRun Agent)

def cfpPrefix (spec : TaskSpec) : String :=
  listingPrefix "cfp" bidder.username [some spec.taskId]

def bidPrefix (spec : TaskSpec) : String :=
  listingPrefix "bid" bidder.username [some spec.taskId]

/-- The stored calls and bids that are read for the spec. -/
def docsOf (store : CnpStore) (spec : TaskSpec) :
    List CfpRow × List (String × BlueprintBid) :=
  (rowsUnder store.cfps (bidder.cfpPrefix spec),
    rowsUnder store.bids (bidder.bidPrefix spec))

/-- The calls that are listed for the user lie at the keys that the user's
writes give them. -/
def Keyed (store : CnpStore) : Prop :=
  ∀ row ∈ rowsUnder store.cfps (listingPrefix "cfp" bidder.username []),
    CfpOf bidder.username row

/-- No key is read for both of two specs. -/
structure SpecsApart (other spec : TaskSpec) : Prop where
  cfps : Apart (bidder.cfpPrefix other) (bidder.cfpPrefix spec)
  bids : Apart (bidder.bidPrefix other) (bidder.bidPrefix spec)

/-- The run over a batch in which the spec comes after the first specs and
before the last ones. -/
def batch (front : List TaskSpec) (spec : TaskSpec) (back : List TaskSpec) :
    BidderRun Agent :=
  { bidder with specs := front ++ spec :: back }

/-- The store after a run over the first specs. -/
def afterFront (store : CnpStore) (front : List TaskSpec) : CnpStore :=
  (({ bidder with specs := front } : BidderRun Agent).run uuid store).store

/-- A run over the spec alone, in which the next ids to be drawn are those that
are next after the first specs. -/
def alone (store : CnpStore) (front : List TaskSpec) (spec : TaskSpec) :
    Bidding :=
  ({ bidder with specs := [spec] } : BidderRun Agent).run uuid
    { store with drawn := (bidder.afterFront uuid store front).drawn }

/-- The calls and bids of the spec are the same after the batch as after the
spec alone. -/
def Independent
    (store : CnpStore) (front : List TaskSpec) (spec : TaskSpec)
    (back : List TaskSpec) : Prop :=
  bidder.docsOf ((bidder.batch front spec back).run uuid store).store
      spec =
    bidder.docsOf (bidder.alone uuid store front spec).store spec

/-- A call is opened for the spec: none is open that has not run out, or
nobody responds to those that are, and there are rounds left. -/
def opensCfp (store : CnpStore) (spec : TaskSpec) : Bool :=
  let listed := bidder.listOpen store spec
  let stillOpen := listed.filter fun cfp => !bidder.isExpired cfp
  let closed :=
    bidder.closeAll "expired" store (listed.filter bidder.isExpired)
  stillOpen.isEmpty ||
    ((bidder.candidateEntries spec
          (bidder.activeStimulus spec stillOpen)).isEmpty &&
        bidder.settings.openNextRoundOnEmpty) &&
      decide
        ((bidder.currentRound closed spec : Int) <
          bidder.settings.maxRounds)

/-- The pipeline that is known after some specs. -/
def carried (front : List TaskSpec) : Option String :=
  front.foldl pipelineFor bidder.pipelineId

end BidderRun

namespace BidderRun

variable {Agent : Type} (uuid : UuidSource) {bidder : BidderRun Agent}
variable {store : CnpStore} {other spec : TaskSpec}

theorem Keyed.addCfp
    (keyed : bidder.Keyed store) (cfp : CallForProposal) :
    bidder.Keyed (store.addCfp bidder.username cfp) := by
  intro row member
  obtain ⟨stored, like⟩ := List.mem_filter.mp member
  rcases OrderedMap.mem_entries_set stored with rfl | old
  · rfl
  · exact keyed row (List.mem_filter.mpr ⟨old, like⟩)

theorem Keyed.closeAll
    (keyed : bidder.Keyed store) (reason : String)
    (cfps : List CallForProposal) :
    bidder.Keyed (bidder.closeAll reason store cfps) :=
  run_invariant_always bidder.Keyed
    (fun _ cfp keyed => keyed.addCfp (bidder.closed reason cfp)) cfps keyed

/-- The later store comes from the earlier one by writes at keys that are read
for the spec, and by drawing ids. -/
inductive Writes (bidder : BidderRun Agent) (spec : TaskSpec) :
    CnpStore → CnpStore → Prop where
  | none (store : CnpStore) : Writes bidder spec store store
  | draw {first later : CnpStore} (writes : Writes bidder spec first later)
      (count : Nat) : Writes bidder spec first (later.drawIds count)
  | cfp {first later : CnpStore} (writes : Writes bidder spec first later)
      {cfp : CallForProposal}
      (own :
        under (bidder.cfpPrefix spec)
            (cfpKey bidder.username cfp.taskId cfp.cfpId) =
          true) :
      Writes bidder spec first (later.addCfp bidder.username cfp)
  | bid {first later : CnpStore} (writes : Writes bidder spec first later)
      {bid : BlueprintBid}
      (own :
        under (bidder.bidPrefix spec)
            (bidKey bidder.username bid.taskId bid.bidderId bid.bidId) =
          true) :
      Writes bidder spec first (later.addBid bidder.username bid)

namespace Writes

theorem trans
    {first middle later : CnpStore}
    (before : Writes bidder spec first middle)
    (after : Writes bidder spec middle later) :
    Writes bidder spec first later := by
  induction after with
  | none => exact before
  | draw _ count inductionHypothesis => exact inductionHypothesis.draw count
  | cfp _ own inductionHypothesis => exact inductionHypothesis.cfp own
  | bid _ own inductionHypothesis => exact inductionHypothesis.bid own

theorem keyed
    {first later : CnpStore} (writes : Writes bidder spec first later)
    (keyed : bidder.Keyed first) : bidder.Keyed later := by
  induction writes with
  | none => exact keyed
  | draw _ _ inductionHypothesis => exact inductionHypothesis
  | bid _ _ inductionHypothesis => exact inductionHypothesis
  | cfp _ _ inductionHypothesis => exact inductionHypothesis.addCfp _

/-- What is written for one spec leaves the documents of another. -/
theorem docsOf_eq
    {first later : CnpStore} (writes : Writes bidder other first later)
    (apart : bidder.SpecsApart other spec) :
    bidder.docsOf later spec = bidder.docsOf first spec := by
  induction writes with
  | none => rfl
  | draw _ _ inductionHypothesis => exact inductionHypothesis
  | cfp _ own inductionHypothesis =>
      rw [← inductionHypothesis]
      exact congrArg (·, _) (apart.cfps.rowsUnder_set _ _ own)
  | bid _ own inductionHypothesis =>
      rw [← inductionHypothesis]
      exact congrArg (_, ·) (apart.bids.rowsUnder_set _ _ own)

end Writes

/-- The call lies at a key that is read for the spec. -/
def OwnKey
    (bidder : BidderRun Agent) (spec : TaskSpec) (cfp : CallForProposal) :
    Prop :=
  under (bidder.cfpPrefix spec)
      (cfpKey bidder.username cfp.taskId cfp.cfpId) =
    true

theorem ownKey_of_listed
    (keyed : bidder.Keyed store) {cfp : CallForProposal}
    (listed : cfp ∈ bidder.listOpen store spec) :
    OwnKey bidder spec cfp := by
  have arranged :=
    (bidder.cfpOrder.perm _).mem_iff.mp (List.mem_filter.mp listed).1
  obtain ⟨row, member, rfl⟩ := List.mem_map.mp arranged
  obtain ⟨stored, like⟩ := List.mem_filter.mp member
  have ofUser :=
    keyed row (List.mem_filter.mpr ⟨stored, under_taskPrefix like⟩)
  rw [OwnKey, ← ofUser]
  exact like

theorem writes_closeAll
    (reason : String) {cfps : List CallForProposal}
    (own : ∀ cfp ∈ cfps, OwnKey bidder spec cfp) :
    Writes bidder spec store (bidder.closeAll reason store cfps) := by
  induction cfps generalizing store with
  | nil =>
      exact .none store
  | cons cfp rest inductionHypothesis =>
      have first : Writes bidder spec store
          (store.addCfp bidder.username (bidder.closed reason cfp)) :=
        (Writes.none store).cfp (own cfp List.mem_cons_self)
      exact
        first.trans
          (inductionHypothesis fun later member =>
            own later (List.mem_cons_of_mem _ member))

theorem writes_openCfps
    (keyed : bidder.Keyed store) (pipelineId : Option String) :
    Writes bidder spec store
        (bidder.openCfps uuid store spec pipelineId).1 ∧
      ∀ cfp ∈ (bidder.openCfps uuid store spec pipelineId).2.1,
        OwnKey bidder spec cfp := by
  have listed : ∀ cfp ∈ bidder.listOpen store spec,
      OwnKey bidder spec cfp :=
    fun cfp member => ownKey_of_listed keyed member
  have closing : Writes bidder spec store
      (bidder.closeAll "expired" store
        ((bidder.listOpen store spec).filter bidder.isExpired)) :=
    writes_closeAll "expired" fun cfp member =>
      listed cfp (List.mem_filter.mp member).1
  unfold openCfps
  dsimp only
  split
  · have own := under_cfpKey bidder.username spec.taskId
      (uuid.id
        (bidder.closeAll "expired" store
          ((bidder.listOpen store spec).filter bidder.isExpired)).drawn)
    refine ⟨(closing.draw 1).cfp own, fun cfp member => ?_⟩
    rw [List.mem_singleton.mp member]
    exact own
  · exact ⟨closing, fun cfp member =>
      listed cfp (List.mem_filter.mp member).1⟩

theorem writes_reopen
    (keyed : bidder.Keyed store) (pipelineId : Option String)
    {cfps : List CallForProposal}
    (own : ∀ cfp ∈ cfps, OwnKey bidder spec cfp) :
    Writes bidder spec store
      (bidder.reopen uuid store spec pipelineId cfps).1 := by
  unfold reopen
  split
  · have closing : Writes bidder spec store
        (bidder.closeAll "no_bids" store
          (cfps.filter fun cfp => decide (cfp.status = "open"))) :=
      writes_closeAll "no_bids" fun cfp member =>
        own cfp (List.mem_filter.mp member).1
    exact
      closing.trans
        (writes_openCfps uuid (closing.keyed keyed) pipelineId).1
  · exact .none store

theorem writes_storeBid
    (cfp : CallForProposal) (entries : List (Entry × ℚ))
    (store : CnpStore) :
    Writes bidder spec store
      (entries.foldl (bidder.storeBid uuid spec cfp) store) := by
  induction entries generalizing store with
  | nil =>
      exact .none store
  | cons entry rest inductionHypothesis =>
      have first : Writes bidder spec store
          (bidder.storeBid uuid spec cfp store entry) :=
        ((Writes.none store).draw 1).bid
          (under_bidKey _ _ entry.1.agentId _)
      exact first.trans (inductionHypothesis _)

theorem writes_storeBids
    (existing : List BlueprintBid) (scored : List (Entry × ℚ))
    (cfps : List CallForProposal) (store : CnpStore) (count : Nat) :
    Writes bidder spec store
      (cfps.foldl (bidder.storeBids uuid existing scored spec)
        (store, count)).1 := by
  induction cfps generalizing store count with
  | nil =>
      exact .none store
  | cons cfp rest inductionHypothesis =>
      exact
        (writes_storeBid uuid cfp _ store).trans
          (inductionHypothesis _ _)

/-- A spec is served by writes at its own keys. -/
theorem writes_bidForSpec
    {state : Bidding} (keyed : bidder.Keyed state.store)
    (spec : TaskSpec) :
    Writes bidder spec state.store
      (bidder.bidForSpec uuid state spec).store := by
  have opened :
      Writes bidder spec state.store
          (bidder.openCfps uuid state.store spec
            (pipelineFor state.pipelineId spec)).1 ∧
        ∀ cfp ∈
            (bidder.openCfps uuid state.store spec
              (pipelineFor state.pipelineId spec)).2.1,
          OwnKey bidder spec cfp :=
    writes_openCfps uuid keyed _
  obtain ⟨opening, own⟩ := opened
  have again :=
    writes_reopen uuid (opening.keyed keyed)
      (pipelineFor state.pipelineId spec) own
  unfold bidForSpec
  dsimp only
  split
  · exact (opening.trans again).trans (writes_storeBids uuid _ _ _ _ _)
  · exact opening.trans (writes_storeBids uuid _ _ _ _ _)

/-! ## What the documents of a spec decide -/

/-- Two stores with the same documents of the spec, in which the same ids are
drawn next. -/
structure Alike
    (bidder : BidderRun Agent) (spec : TaskSpec)
    (first second : CnpStore) : Prop where
  cfps :
    rowsUnder first.cfps (bidder.cfpPrefix spec) =
      rowsUnder second.cfps (bidder.cfpPrefix spec)
  bids :
    rowsUnder first.bids (bidder.bidPrefix spec) =
      rowsUnder second.bids (bidder.bidPrefix spec)
  drawn : first.drawn = second.drawn

namespace Alike

variable {first second : CnpStore}

theorem drawIds (alike : Alike bidder spec first second) (count : Nat) :
    Alike bidder spec (first.drawIds count) (second.drawIds count) :=
  ⟨alike.cfps, alike.bids, congrArg (· + count) alike.drawn⟩

theorem addCfp
    (alike : Alike bidder spec first second) (cfp : CallForProposal) :
    Alike bidder spec (first.addCfp bidder.username cfp)
      (second.addCfp bidder.username cfp) := by
  refine ⟨?_, alike.bids, alike.drawn⟩
  exact (rowsUnder_set _ _ _ _).trans
    (alike.cfps ▸ (rowsUnder_set _ _ _ _).symm)

theorem addBid
    (alike : Alike bidder spec first second) (bid : BlueprintBid) :
    Alike bidder spec (first.addBid bidder.username bid)
      (second.addBid bidder.username bid) := by
  refine ⟨alike.cfps, ?_, alike.drawn⟩
  exact (rowsUnder_set _ _ _ _).trans
    (alike.bids ▸ (rowsUnder_set _ _ _ _).symm)

theorem closeAll
    (alike : Alike bidder spec first second) (reason : String)
    (cfps : List CallForProposal) :
    Alike bidder spec (bidder.closeAll reason first cfps)
      (bidder.closeAll reason second cfps) := by
  induction cfps generalizing first second with
  | nil =>
      exact alike
  | cons cfp rest inductionHypothesis =>
      exact inductionHypothesis (alike.addCfp (bidder.closed reason cfp))

theorem listCfps
    (alike : Alike bidder spec first second) (status : Option String) :
    first.listCfps bidder.cfpOrder bidder.username (some spec.taskId)
        status =
      second.listCfps bidder.cfpOrder bidder.username (some spec.taskId)
        status := by
  unfold CnpStore.listCfps
  rw [← cfpPrefix, alike.cfps]

theorem listOpen (alike : Alike bidder spec first second) :
    bidder.listOpen first spec = bidder.listOpen second spec :=
  alike.listCfps _

theorem listAll (alike : Alike bidder spec first second) :
    bidder.listAll first spec = bidder.listAll second spec :=
  alike.listCfps _

theorem listBids (alike : Alike bidder spec first second) :
    first.listBids bidder.bidOrder bidder.username (some spec.taskId) none
        none =
      second.listBids bidder.bidOrder bidder.username (some spec.taskId)
        none none := by
  unfold CnpStore.listBids
  rw [← bidPrefix, alike.bids]

theorem currentRound (alike : Alike bidder spec first second) :
    bidder.currentRound first spec = bidder.currentRound second spec := by
  unfold BidderRun.currentRound
  rw [alike.listAll]

theorem openCfps
    (alike : Alike bidder spec first second)
    (pipelineId : Option String) :
    Alike bidder spec (bidder.openCfps uuid first spec pipelineId).1
        (bidder.openCfps uuid second spec pipelineId).1 ∧
      (bidder.openCfps uuid first spec pipelineId).2 =
        (bidder.openCfps uuid second spec pipelineId).2 := by
  have closed :=
    alike.closeAll "expired"
      ((bidder.listOpen second spec).filter bidder.isExpired)
  have next :
      bidder.nextCfp uuid
          (bidder.closeAll "expired" first
            ((bidder.listOpen second spec).filter bidder.isExpired))
          spec pipelineId =
        bidder.nextCfp uuid
          (bidder.closeAll "expired" second
            ((bidder.listOpen second spec).filter bidder.isExpired))
          spec pipelineId := by
    unfold nextCfp
    rw [closed.listAll, closed.drawn]
  unfold BidderRun.openCfps openNext
  dsimp only
  rw [alike.listOpen, next]
  split
  · exact ⟨(closed.drawIds 1).addCfp _, rfl⟩
  · exact ⟨closed, rfl⟩

theorem reopen
    (alike : Alike bidder spec first second)
    (pipelineId : Option String) (cfps : List CallForProposal) :
    Alike bidder spec (bidder.reopen uuid first spec pipelineId cfps).1
        (bidder.reopen uuid second spec pipelineId cfps).1 ∧
      (bidder.reopen uuid first spec pipelineId cfps).2 =
        (bidder.reopen uuid second spec pipelineId cfps).2 := by
  unfold BidderRun.reopen
  rw [alike.currentRound]
  split
  · exact (alike.closeAll _ _).openCfps uuid pipelineId
  · exact ⟨alike, rfl⟩

theorem storeBid
    (alike : Alike bidder spec first second) (target : CallForProposal)
    (entries : List (Entry × ℚ)) :
    Alike bidder spec
      (entries.foldl (bidder.storeBid uuid spec target) first)
      (entries.foldl (bidder.storeBid uuid spec target) second) := by
  induction entries generalizing first second with
  | nil =>
      exact alike
  | cons entry rest inductionHypothesis =>
      refine inductionHypothesis ?_
      unfold BidderRun.storeBid bidOf
      rw [alike.drawn]
      exact (alike.drawIds 1).addBid _

theorem storeBids
    (alike : Alike bidder spec first second)
    (existing : List BlueprintBid) (scored : List (Entry × ℚ))
    (cfps : List CallForProposal) (count : Nat) :
    Alike bidder spec
      (cfps.foldl (bidder.storeBids uuid existing scored spec)
        (first, count)).1
      (cfps.foldl (bidder.storeBids uuid existing scored spec)
        (second, count)).1 := by
  induction cfps generalizing first second count with
  | nil =>
      exact alike
  | cons cfp rest inductionHypothesis =>
      exact inductionHypothesis (alike.storeBid uuid cfp _) _

/-- With the same pipeline, a spec is served alike. -/
theorem bidForSpec
    {state other : Bidding}
    (alike : Alike bidder spec state.store other.store)
    (samePipeline :
      pipelineFor state.pipelineId spec =
        pipelineFor other.pipelineId spec) :
    Alike bidder spec (bidder.bidForSpec uuid state spec).store
      (bidder.bidForSpec uuid other spec).store := by
  obtain ⟨opened, sameOpened⟩ :=
    alike.openCfps uuid (pipelineFor other.pipelineId spec)
  obtain ⟨again, sameAgain⟩ :=
    opened.reopen uuid (pipelineFor other.pipelineId spec)
      (bidder.openCfps uuid other.store spec
        (pipelineFor other.pipelineId spec)).2.1
  unfold BidderRun.bidForSpec
  dsimp only
  rw [samePipeline, sameOpened, alike.listBids]
  split
  · rw [sameAgain]
    exact again.storeBids uuid _ _ _ _
  · exact opened.storeBids uuid _ _ _ _

end Alike

theorem Alike.opensCfp
    {first second : CnpStore} (alike : Alike bidder spec first second) :
    bidder.opensCfp first spec = bidder.opensCfp second spec := by
  unfold BidderRun.opensCfp
  dsimp only
  rw [alike.listOpen, (alike.closeAll _ _).currentRound]

theorem openCfps_of_stillOpen
    {pipelineId : Option String}
    (some :
      ((bidder.listOpen store spec).filter fun cfp =>
        !bidder.isExpired cfp).isEmpty = false) :
    bidder.openCfps uuid store spec pipelineId =
      (bidder.closeAll "expired" store
          ((bidder.listOpen store spec).filter bidder.isExpired),
        (bidder.listOpen store spec).filter fun cfp =>
          !bidder.isExpired cfp,
        0) := by
  unfold openCfps
  dsimp only
  rw [if_neg (Bool.eq_false_iff.mp some)]

/-- Where no call is opened, the pipeline does not matter. -/
theorem bidForSpec_of_not_opens
    {state other : Bidding} (same : state.store = other.store)
    (notOpens : bidder.opensCfp state.store spec = false) :
    (bidder.bidForSpec uuid state spec).store =
      (bidder.bidForSpec uuid other spec).store := by
  unfold opensCfp at notOpens
  dsimp only at notOpens
  rw [Bool.or_eq_false_iff] at notOpens
  obtain ⟨some, noRounds⟩ := notOpens
  unfold bidForSpec
  dsimp only
  rw [← same, openCfps_of_stillOpen uuid some,
    openCfps_of_stillOpen uuid some]
  dsimp only
  cases nobody :
      (bidder.candidateEntries spec
            (bidder.activeStimulus spec
              ((bidder.listOpen state.store spec).filter fun cfp =>
                !bidder.isExpired cfp))).isEmpty &&
          bidder.settings.openNextRoundOnEmpty with
  | false =>
      rfl
  | true =>
      rw [nobody, Bool.true_and, decide_eq_false_iff_not] at noRounds
      simp only [if_true]
      rw [reopen, if_neg noRounds, reopen, if_neg noRounds]

/-! ## The pipeline of an opened call -/

/-- The call at the key has the pipeline. -/
def HasPipeline
    (key : String) (pipelineId : Option String) (store : CnpStore) :
    Prop :=
  ∃ cfp, store.cfps.get? key = some cfp ∧ cfp.pipelineId = pipelineId

section Opened

variable {key : String} {pipelineId : Option String}

theorem HasPipeline.closeAll
    (has : HasPipeline key pipelineId store) (reason : String)
    {cfps : List CallForProposal}
    (same : ∀ cfp ∈ cfps,
      cfpKey bidder.username cfp.taskId cfp.cfpId = key →
        cfp.pipelineId = pipelineId) :
    HasPipeline key pipelineId (bidder.closeAll reason store cfps) := by
  induction cfps generalizing store with
  | nil =>
      exact has
  | cons cfp rest inductionHypothesis =>
      refine inductionHypothesis ?_ fun later member =>
        same later (List.mem_cons_of_mem _ member)
      by_cases here :
          cfpKey bidder.username cfp.taskId cfp.cfpId = key
      · refine ⟨bidder.closed reason cfp, ?_,
          same cfp List.mem_cons_self here⟩
        rw [← here]
        exact OrderedMap.get?_set_self _ _ _
      · obtain ⟨current, found, isSame⟩ := has
        refine ⟨current, ?_, isSame⟩
        exact (OrderedMap.get?_set_other _ _ (Ne.symm here)).trans found

theorem mem_listOpen_iff {cfp : CallForProposal} :
    cfp ∈ bidder.listOpen store spec ↔
      ∃ key, (key, cfp) ∈
          rowsUnder store.cfps (bidder.cfpPrefix spec) ∧
        cfp.status = "open" := by
  unfold listOpen CnpStore.listCfps
  rw [List.mem_filter, (bidder.cfpOrder.perm _).mem_iff, List.mem_map,
    isWanted_some (by decide), decide_eq_true_iff, Option.some_inj]
  constructor
  · rintro ⟨⟨⟨key, _⟩, member, rfl⟩, isOpen⟩
    exact ⟨key, member, isOpen⟩
  · rintro ⟨key, member, isOpen⟩
    exact ⟨⟨(key, cfp), member, rfl⟩, isOpen⟩

/-- A listed call lies at its own key. -/
theorem get?_of_listed
    (keyed : bidder.Keyed store) {cfp : CallForProposal}
    (listed : cfp ∈ bidder.listOpen store spec) :
    store.cfps.get? (cfpKey bidder.username cfp.taskId cfp.cfpId) =
      some cfp := by
  obtain ⟨key, member, -⟩ := mem_listOpen_iff.mp listed
  obtain ⟨stored, like⟩ := List.mem_filter.mp member
  have ofUser :=
    keyed _ (List.mem_filter.mpr ⟨stored, under_taskPrefix like⟩)
  exact OrderedMap.get?_of_mem (ofUser ▸ stored)

theorem drawn_closeAll
    (reason : String) (cfps : List CallForProposal) :
    (bidder.closeAll reason store cfps).drawn = store.drawn := by
  induction cfps generalizing store with
  | nil => rfl
  | cons cfp rest inductionHypothesis => exact inductionHypothesis

theorem hasPipeline_openNext
    (bidder : BidderRun Agent) (store : CnpStore) (spec : TaskSpec)
    (pipelineId : Option String) :
    HasPipeline
      (cfpKey bidder.username spec.taskId (uuid.id store.drawn))
      pipelineId (bidder.openNext uuid store spec pipelineId).1 :=
  ⟨_, OrderedMap.get?_set_self _ _ _, rfl⟩

theorem openCfps_of_noneOpen
    {pipelineId : Option String}
    (noneOpen : bidder.listOpen store spec = []) :
    (bidder.openCfps uuid store spec pipelineId).1 =
      (bidder.openNext uuid store spec pipelineId).1 := by
  unfold openCfps
  rw [noneOpen]
  rfl

/-- A later call has another key. -/
theorem HasPipeline.openCfps
    {taskId : String} {index : Nat}
    (has :
      HasPipeline (cfpKey bidder.username taskId (uuid.id index))
        pipelineId store)
    (keyed : bidder.Keyed store) (below : index < store.drawn)
    (other : Option String) :
    HasPipeline (cfpKey bidder.username taskId (uuid.id index))
      pipelineId (bidder.openCfps uuid store spec other).1 := by
  have closed :
      HasPipeline (cfpKey bidder.username taskId (uuid.id index))
        pipelineId
        (bidder.closeAll "expired" store
          ((bidder.listOpen store spec).filter bidder.isExpired)) := by
    refine has.closeAll "expired" fun cfp member here => ?_
    have listed := (List.mem_filter.mp member).1
    obtain ⟨current, found, same⟩ := has
    rw [← here, get?_of_listed keyed listed] at found
    exact Option.some.inj found ▸ same
  unfold BidderRun.openCfps
  dsimp only
  split
  · obtain ⟨current, found, same⟩ := closed
    refine ⟨current, ?_, same⟩
    refine (OrderedMap.get?_set_other _ _ fun isNext => ?_).trans found
    have equal := cfpKey_id uuid isNext
    rw [drawn_closeAll] at equal
    omega
  · exact closed

/-- After some calls were closed, a call is closed, or was there before and is
none of these. -/
theorem get?_closeAll
    {reason : String} {cfps : List CallForProposal}
    {cfp : CallForProposal}
    (found :
      (bidder.closeAll reason store cfps).cfps.get? key = some cfp) :
    cfp.status = "closed" ∨
      store.cfps.get? key = some cfp ∧
        ∀ other ∈ cfps,
          cfpKey bidder.username other.taskId other.cfpId ≠ key := by
  induction cfps generalizing store with
  | nil =>
      exact
        Or.inr ⟨found, fun _ member => absurd member List.not_mem_nil⟩
  | cons first rest inductionHypothesis =>
      have later :
          (bidder.closeAll reason
              (store.addCfp bidder.username (bidder.closed reason first))
              rest).cfps.get? key =
            some cfp := found
      rcases inductionHypothesis later with isClosed | ⟨before, others⟩
      · exact Or.inl isClosed
      · by_cases here :
            cfpKey bidder.username first.taskId first.cfpId = key
        · have isFirst :
              (store.addCfp bidder.username
                  (bidder.closed reason first)).cfps.get? key =
                some (bidder.closed reason first) := by
            rw [← here]
            exact OrderedMap.get?_set_self _ _ _
          rw [isFirst] at before
          rw [← Option.some.inj before]
          exact Or.inl rfl
        · have isOther :
              (store.addCfp bidder.username
                  (bidder.closed reason first)).cfps.get? key =
                store.cfps.get? key :=
            OrderedMap.get?_set_other _ _ (Ne.symm here)
          rw [isOther] at before
          exact
            Or.inr ⟨before, List.forall_mem_cons.mpr ⟨here, others⟩⟩

/-- No call is open once all that were open have been closed. -/
theorem listOpen_closed (keyed : bidder.Keyed store) :
    bidder.listOpen
        (bidder.closeAll "no_bids"
          (bidder.closeAll "expired" store
            ((bidder.listOpen store spec).filter bidder.isExpired))
          (((bidder.listOpen store spec).filter fun cfp =>
              !bidder.isExpired cfp).filter fun cfp =>
            decide (cfp.status = "open")))
        spec =
      [] := by
  rw [List.eq_nil_iff_forall_not_mem]
  intro cfp listed
  obtain ⟨key, member, isOpen⟩ := mem_listOpen_iff.mp listed
  obtain ⟨stored, like⟩ := List.mem_filter.mp member
  have notClosed : cfp.status ≠ "closed" := by
    rw [isOpen]
    decide
  obtain ⟨atExpired, notOpen⟩ :=
    (get?_closeAll (OrderedMap.get?_of_mem stored)).resolve_left notClosed
  obtain ⟨atFirst, notExpired⟩ :=
    (get?_closeAll atExpired).resolve_left notClosed
  have row := OrderedMap.mem_of_get? atFirst
  have wasListed : cfp ∈ bidder.listOpen store spec :=
    mem_listOpen_iff.mpr
      ⟨key, List.mem_filter.mpr ⟨row, like⟩, isOpen⟩
  have ofUser :=
    keyed _ (List.mem_filter.mpr ⟨row, under_taskPrefix like⟩)
  cases expired : bidder.isExpired cfp with
  | true =>
      exact
        notExpired cfp (List.mem_filter.mpr ⟨wasListed, expired⟩)
          ofUser.symm
  | false =>
      refine notOpen cfp ?_ ofUser.symm
      simp [wasListed, expired, isOpen]

theorem cfps_storeBids
    (existing : List BlueprintBid) (scored : List (Entry × ℚ))
    (cfps : List CallForProposal) (stored : CnpStore × Nat) :
    (cfps.foldl (bidder.storeBids uuid existing scored spec)
        stored).1.cfps =
      stored.1.cfps := by
  have ofOne (cfp : CallForProposal) (entries : List (Entry × ℚ))
      (current : CnpStore) :
      (entries.foldl (bidder.storeBid uuid spec cfp) current).cfps =
        current.cfps := by
    induction entries generalizing current with
    | nil => rfl
    | cons entry rest inductionHypothesis => exact inductionHypothesis _
  induction cfps generalizing stored with
  | nil =>
      rfl
  | cons cfp rest inductionHypothesis =>
      exact (inductionHypothesis _).trans (ofOne cfp _ _)

theorem HasPipeline.reopen
    {taskId : String} {index : Nat}
    (has :
      HasPipeline (cfpKey bidder.username taskId (uuid.id index))
        pipelineId store)
    (keyed : bidder.Keyed store) (below : index < store.drawn)
    {cfps : List CallForProposal}
    (same : ∀ cfp ∈ cfps, cfp.pipelineId = pipelineId)
    (other : Option String) :
    HasPipeline (cfpKey bidder.username taskId (uuid.id index))
      pipelineId (bidder.reopen uuid store spec other cfps).1 := by
  unfold BidderRun.reopen
  split
  · have closed :
        HasPipeline (cfpKey bidder.username taskId (uuid.id index))
          pipelineId
          (bidder.closeAll "no_bids" store
            (cfps.filter fun cfp => decide (cfp.status = "open"))) :=
      has.closeAll "no_bids" fun cfp member _ =>
        same cfp (List.mem_filter.mp member).1
    refine closed.openCfps uuid (keyed.closeAll _ _) ?_ other
    rwa [drawn_closeAll]
  · exact has

/-- The first call that is opened has the pipeline. -/
theorem hasPipeline_of_opens
    (keyed : bidder.Keyed store) (pipelineId : Option String)
    (opens : bidder.opensCfp store spec = true) :
    let opened := bidder.openCfps uuid store spec pipelineId
    let current :=
      if (bidder.candidateEntries spec
            (bidder.activeStimulus spec opened.2.1)).isEmpty &&
          bidder.settings.openNextRoundOnEmpty then
        bidder.reopen uuid opened.1 spec pipelineId opened.2.1
      else
        (opened.1, opened.2.1, 0)
    HasPipeline
      (cfpKey bidder.username spec.taskId (uuid.id store.drawn))
      pipelineId current.1 := by
  dsimp only
  cases none :
      ((bidder.listOpen store spec).filter fun cfp =>
        !bidder.isExpired cfp).isEmpty with
  | true =>
      have next :
          bidder.openCfps uuid store spec pipelineId =
            ((bidder.openNext uuid
                (bidder.closeAll "expired" store
                  ((bidder.listOpen store spec).filter
                    bidder.isExpired))
                spec pipelineId).1,
              [bidder.nextCfp uuid
                (bidder.closeAll "expired" store
                  ((bidder.listOpen store spec).filter
                    bidder.isExpired))
                spec pipelineId], 1) := by
        unfold openCfps
        dsimp only
        rw [if_pos none]
        rfl
      have has :=
        hasPipeline_openNext uuid bidder
          (bidder.closeAll "expired" store
            ((bidder.listOpen store spec).filter bidder.isExpired))
          spec pipelineId
      rw [drawn_closeAll] at has
      rw [next]
      split
      · refine has.reopen uuid ((keyed.closeAll _ _).addCfp _) ?_ ?_ _
        · change store.drawn < (bidder.closeAll "expired" store _).drawn + 1
          rw [drawn_closeAll]
          exact Nat.lt_succ_self _
        · intro cfp member
          rw [List.mem_singleton.mp member]
          rfl
      · exact has
  | false =>
      unfold opensCfp at opens
      dsimp only at opens
      rw [none, Bool.false_or, Bool.and_eq_true, decide_eq_true_iff]
        at opens
      rw [openCfps_of_stillOpen uuid none]
      dsimp only
      rw [if_pos opens.1, reopen, if_pos opens.2,
        openCfps_of_noneOpen uuid (listOpen_closed keyed)]
      have has :=
        hasPipeline_openNext uuid bidder
          (bidder.closeAll "no_bids"
            (bidder.closeAll "expired" store
              ((bidder.listOpen store spec).filter bidder.isExpired))
            (((bidder.listOpen store spec).filter fun cfp =>
                !bidder.isExpired cfp).filter fun cfp =>
              decide (cfp.status = "open")))
          spec pipelineId
      rw [drawn_closeAll, drawn_closeAll] at has
      exact has

/-- Where a call is opened for a spec, the first one has the pipeline. -/
theorem bidForSpec_opens
    {state : Bidding} (keyed : bidder.Keyed state.store)
    (opens : bidder.opensCfp state.store spec = true) :
    HasPipeline
      (cfpKey bidder.username spec.taskId (uuid.id state.store.drawn))
      (pipelineFor state.pipelineId spec)
      (bidder.bidForSpec uuid state spec).store := by
  obtain ⟨cfp, found, same⟩ :=
    hasPipeline_of_opens uuid keyed (pipelineFor state.pipelineId spec)
      opens
  refine ⟨cfp, ?_, same⟩
  unfold bidForSpec
  dsimp only
  rw [cfps_storeBids]
  exact found

end Opened

/-! ## A spec in a batch -/

variable (bidder store spec)

/-- The spec is served alike after the first specs and alone exactly if no
call is opened for it, or the pipeline that is kept is its own. -/
theorem alike_bidForSpec_iff
    {first second : Bidding}
    (alike : Alike bidder spec first.store second.store)
    (keyedFirst : bidder.Keyed first.store)
    (keyedSecond : bidder.Keyed second.store) :
    bidder.docsOf (bidder.bidForSpec uuid first spec).store spec =
        bidder.docsOf (bidder.bidForSpec uuid second spec).store spec ↔
      (bidder.opensCfp second.store spec = true →
        pipelineFor first.pipelineId spec =
          pipelineFor second.pipelineId spec) := by
  constructor
  · intro same opens
    obtain ⟨cfp, found, isFirst⟩ :=
      bidForSpec_opens uuid keyedFirst (alike.opensCfp.trans opens)
    obtain ⟨other, atKey, isSecond⟩ :=
      bidForSpec_opens uuid keyedSecond opens
    rw [alike.drawn] at found
    have inFirst :
        (_, cfp) ∈ rowsUnder
          (bidder.bidForSpec uuid first spec).store.cfps
          (bidder.cfpPrefix spec) :=
      List.mem_filter.mpr
        ⟨OrderedMap.mem_of_get? found, under_cfpKey _ _ _⟩
    have rows := congrArg Prod.fst same
    dsimp only [docsOf] at rows
    rw [rows] at inFirst
    have atSecond :=
      OrderedMap.get?_of_mem (List.mem_filter.mp inFirst).1
    rw [atKey] at atSecond
    rw [← isFirst, ← isSecond, Option.some.inj atSecond]
  · intro pipelines
    cases opens : bidder.opensCfp second.store spec with
    | true =>
        have after := alike.bidForSpec uuid (pipelines opens)
        exact Prod.ext after.cfps after.bids
    | false =>
        have notOpens := alike.opensCfp.trans opens
        have after :
            Alike bidder spec
              (bidder.bidForSpec uuid
                { first with pipelineId := second.pipelineId } spec).store
              (bidder.bidForSpec uuid second spec).store :=
          Alike.bidForSpec uuid alike rfl
        have same :
            (bidder.bidForSpec uuid first spec).store =
              (bidder.bidForSpec uuid
                { first with pipelineId := second.pipelineId }
                spec).store :=
          bidForSpec_of_not_opens uuid rfl notOpens
        rw [same]
        exact Prod.ext after.cfps after.bids

theorem run_specs (specs : List TaskSpec) :
    ({ bidder with specs := specs } : BidderRun Agent).run uuid store =
      Library.run (bidder.bidForSpec uuid) (bidder.start store) specs :=
  rfl

theorem pipelineId_run (state : Bidding) (specs : List TaskSpec) :
    (Library.run (bidder.bidForSpec uuid) state specs).pipelineId =
      specs.foldl pipelineFor state.pipelineId := by
  induction specs generalizing state with
  | nil => rfl
  | cons first rest inductionHypothesis => exact inductionHypothesis _

/-- Other specs leave the documents of the spec. -/
theorem docsOf_run
    (state : Bidding) (keyed : bidder.Keyed state.store)
    {specs : List TaskSpec}
    (apart : ∀ other ∈ specs, bidder.SpecsApart other spec) :
    bidder.docsOf
          (Library.run (bidder.bidForSpec uuid) state specs).store spec =
        bidder.docsOf state.store spec ∧
      bidder.Keyed
        (Library.run (bidder.bidForSpec uuid) state specs).store := by
  induction specs generalizing state with
  | nil =>
      exact ⟨rfl, keyed⟩
  | cons first rest inductionHypothesis =>
      have writes := writes_bidForSpec uuid keyed first
      obtain ⟨docs, later⟩ :=
        inductionHypothesis (bidder.bidForSpec uuid state first)
          (writes.keyed keyed)
          fun other member => apart other (List.mem_cons_of_mem _ member)
      refine ⟨docs.trans ?_, later⟩
      exact writes.docsOf_eq (apart first List.mem_cons_self)

theorem cfps_closeAll
    {first second : CnpStore} (same : first.cfps = second.cfps)
    (reason : String) (cfps : List CallForProposal) :
    (bidder.closeAll reason first cfps).cfps =
      (bidder.closeAll reason second cfps).cfps := by
  induction cfps generalizing first second with
  | nil =>
      exact same
  | cons cfp rest inductionHypothesis =>
      exact inductionHypothesis (congrArg (OrderedMap.set · _ _) same)

theorem opensCfp_of_cfps
    {first second : CnpStore} (same : first.cfps = second.cfps) :
    bidder.opensCfp first spec = bidder.opensCfp second spec := by
  have lists {one other : CnpStore} (same : one.cfps = other.cfps)
      (status : Option String) :
      one.listCfps bidder.cfpOrder bidder.username (some spec.taskId)
          status =
        other.listCfps bidder.cfpOrder bidder.username (some spec.taskId)
          status := by
    unfold CnpStore.listCfps
    rw [same]
  unfold opensCfp currentRound listOpen listAll
  dsimp only
  rw [lists same, lists (cfps_closeAll bidder same _ _)]

/-- In a batch whose specs are read at different keys, a spec is served as it
is alone exactly if no call is opened for it, or the pipeline that is kept from
the specs before it is the one that it would get alone. -/
theorem independent_iff
    {front back : List TaskSpec} (keyed : bidder.Keyed store)
    (apart : ∀ other ∈ front ++ back, bidder.SpecsApart other spec) :
    bidder.Independent uuid store front spec back ↔
      (bidder.opensCfp store spec = true →
        pipelineFor (bidder.carried front) spec =
          pipelineFor bidder.pipelineId spec) := by
  unfold Independent batch alone afterFront
  rw [run_specs, run_specs, run_specs, run_append, run_cons, run_cons,
    run_nil]
  obtain ⟨docs, keyedFront⟩ :=
    docsOf_run uuid bidder spec (bidder.start store) keyed fun other member =>
      apart other (List.mem_append_left _ member)
  have carried :=
    pipelineId_run uuid bidder (bidder.start store) front
  generalize Library.run (bidder.bidForSpec uuid) (bidder.start store) front =
    state at docs keyedFront carried
  have here := writes_bidForSpec uuid keyedFront spec
  obtain ⟨after, -⟩ :=
    docsOf_run uuid bidder spec (bidder.bidForSpec uuid state spec)
      (here.keyed keyedFront) fun other member =>
        apart other (List.mem_append_right _ member)
  rw [after]
  have alike :
      Alike bidder spec state.store
        (bidder.start { store with drawn := state.store.drawn }).store :=
    ⟨congrArg Prod.fst docs, congrArg Prod.snd docs, rfl⟩
  rw [alike_bidForSpec_iff uuid bidder spec alike keyedFront keyed, carried]
  have opens :
      bidder.opensCfp
          (bidder.start { store with drawn := state.store.drawn }).store
          spec =
        bidder.opensCfp store spec :=
    opensCfp_of_cfps bidder spec rfl
  rw [opens]
  rfl

theorem pipelineFor_of_given
    {pipelineId : Option String} {known : String}
    (isGiven : given pipelineId = some known) (spec : TaskSpec) :
    pipelineFor pipelineId spec = some known := by
  rw [pipelineFor, isGiven]

/-- A run that is asked for a pipeline keeps to it. -/
theorem carried_of_given
    {known : String} (isGiven : given bidder.pipelineId = some known)
    (front : List TaskSpec) :
    pipelineFor (bidder.carried front) spec =
      pipelineFor bidder.pipelineId spec := by
  have nonempty : known ≠ "" :=
    of_decide_eq_true (Option.filter_eq_some_iff.mp isGiven).2
  have keep (pipelineId : Option String)
      (isKnown : given pipelineId = some known) :
      given (front.foldl pipelineFor pipelineId) = some known := by
    induction front generalizing pipelineId with
    | nil =>
        exact isKnown
    | cons first rest inductionHypothesis =>
        refine inductionHypothesis _ ?_
        rw [pipelineFor_of_given isKnown]
        exact given_some nonempty
  rw [carried, pipelineFor_of_given (keep _ isGiven),
    pipelineFor_of_given isGiven]

/-- So its specs are served as they are alone. -/
theorem independent_of_given
    {known : String} (isGiven : given bidder.pipelineId = some known)
    {front back : List TaskSpec} (keyed : bidder.Keyed store)
    (apart : ∀ other ∈ front ++ back, bidder.SpecsApart other spec) :
    bidder.Independent uuid store front spec back :=
  (independent_iff uuid bidder store spec keyed apart).mpr fun _ =>
    carried_of_given bidder spec isGiven front

end BidderRun

theorem apart_of_literal
    {first second : String}
    (plainFirst : LikePattern.literal first.toList = true)
    (plainSecond : LikePattern.literal second.toList = true)
    (notPrefix : ¬ first.toList <+: second.toList)
    (notLonger : ¬ second.toList <+: first.toList) :
    Apart first second := by
  intro key inFirst
  by_contra inSecond
  have begins := LikePattern.prefix_of_like plainFirst inFirst
  have alsoBegins :=
    LikePattern.prefix_of_like plainSecond
      (Bool.eq_true_of_not_eq_false inSecond)
  rcases List.prefix_or_prefix_of_prefix begins alsoBegins with
    isPrefix | isLonger
  · exact notPrefix isPrefix
  · exact notLonger isLonger

/-! ## Two specs -/

/-- A spec of a pipeline, or of none. -/
def specOf (taskId : String) (metadata : Fields) : TaskSpec :=
  { taskId := taskId, metadata := metadata }

def twoTasks : BidderRun String :=
  { bidOnTasks [] with pipelineId := some "pipe-1" }

/-- Specs of one run with a pipeline are served as they are alone. -/
theorem run_of_pipeline_is_independent :
    twoTasks.Independent countedIds {}
      [specOf "fetch" [("pipeline_id", .str "pipe-2")]]
      (specOf "clean" []) [] := by
  refine
    (BidderRun.independent_iff countedIds twoTasks {} (specOf "clean" [])
      ?_ ?_).mpr ?_
  · intro row member
    cases member
  · intro other member
    rw [List.mem_singleton.mp member]
    constructor
    · exact apart_of_literal (by decide) (by decide) (by decide) (by decide)
    · exact apart_of_literal (by decide) (by decide) (by decide) (by decide)
  · intro _
    rfl

/-- In a run without a pipeline, the spec that comes later gets the pipeline of
the one before it. -/
theorem pipeline_leaks_to_next_spec :
    ¬ (bidOnTasks []).Independent countedIds {}
      [specOf "fetch" [("pipeline_id", .str "pipe-1")]]
      (specOf "clean" []) [] := by
  intro same
  have pipelines :=
    congrArg
      (fun docs => docs.1.map fun row => row.2.pipelineId) same
  revert pipelines
  decide +kernel

end Agentcy.Cnp
