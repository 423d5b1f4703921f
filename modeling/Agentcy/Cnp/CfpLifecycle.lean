import Agentcy.Cnp.BlueprintBidder
import Agentcy.Cnp.CfpInvariant
import Agentcy.Cnp.GraphBuilder

/-!
# Runs of the bidder and of the graph builder

Both services read calls for proposals through listings by a key prefix, which
can return calls of other tasks and users.  As long as the open calls that are
listed are those that were asked for, the runs of both keep the lifecycle of
calls.
-/

namespace Agentcy.Cnp

open Agentcy.GraphStore
open Agentcy.Library

/-- The open calls that are listed for a task of a user are calls on this
task. -/
def OwnListing (store : CnpStore) (username taskId : String) : Prop :=
  ∀ row ∈ rowsUnder store.cfps
      (listingPrefix "cfp" username [some taskId]),
    row.2.status = "open" →
      CfpOf username row ∧ row.2.taskId = taskId

theorem given_some {text : String} (nonempty : text ≠ "") :
    given (some text) = some text := by
  unfold given
  rw [Option.filter_some, if_pos (decide_eq_true nonempty)]

theorem isWanted_some
    {wanted : String} (nonempty : wanted ≠ "") (found : Option String) :
    isWanted (some wanted) found = decide (found = some wanted) := by
  unfold isWanted
  rw [given_some nonempty]

theorem taskPrefix_toList (kind username taskId : String) :
    ∃ more, (kind ++ "::" ++ username ++ "::" ++ taskId ++ "::").toList =
      (listingPrefix kind username [some taskId]).toList ++ more := by
  by_cases empty : taskId = ""
  · subst empty
    have none : given (some "") = Option.none := by
      decide
    exact ⟨"::".toList, by simp [listingPrefix, narrowed, none]⟩
  · have some := given_some empty
    exact ⟨[], by simp [listingPrefix, narrowed, some]⟩

theorem mem_rowsUnder
    {α : Type} {docs : OrderedMap String α} {row : String × α}
    (member : row ∈ docs.entries) {keyPrefix : String}
    {rest : List Char} (begins : row.1.toList = keyPrefix.toList ++ rest) :
    row ∈ rowsUnder docs keyPrefix := by
  refine List.mem_filter.mpr ⟨member, ?_⟩
  rw [begins]
  exact LikePattern.like_of_append _ _

theorem own_cfp_listed
    {store : CnpStore} {username : String} {row : CfpRow}
    (member : row ∈ store.cfps.entries) (own : CfpOf username row) :
    row ∈ rowsUnder store.cfps
      (listingPrefix "cfp" username [some row.2.taskId]) := by
  obtain ⟨more, begins⟩ :=
    taskPrefix_toList "cfp" username row.2.taskId
  have split :
      row.1.toList =
        (listingPrefix "cfp" username [some row.2.taskId]).toList ++
          (more ++ row.2.cfpId.toList) := by
    rw [← List.append_assoc, ← begins, own, cfpKey_toList]
    simp
  exact mem_rowsUnder member split

theorem own_bid_listed
    {store : CnpStore} {username : String} {row : String × BlueprintBid}
    (member : row ∈ store.bids.entries)
    (own : row.1 =
      bidKey username row.2.taskId row.2.bidderId row.2.bidId) :
    row ∈ rowsUnder store.bids
      (listingPrefix "bid" username [some row.2.taskId]) := by
  obtain ⟨more, begins⟩ :=
    taskPrefix_toList "bid" username row.2.taskId
  have split :
      row.1.toList =
        (listingPrefix "bid" username [some row.2.taskId]).toList ++
          (more ++ (row.2.bidderId.toList ++ ("::".toList ++
            row.2.bidId.toList))) := by
    rw [← List.append_assoc, ← begins, own, bidKey_toList]
    simp
  exact mem_rowsUnder member split

namespace BidderRun

variable {Agent : Type} {uuid : UuidSource} (bidder : BidderRun Agent)
variable {store : CnpStore} {spec : TaskSpec}

theorem listOpen_perm (store : CnpStore) (spec : TaskSpec) :
    (bidder.listOpen store spec).Perm
      (((rowsUnder store.cfps
        (listingPrefix "cfp" bidder.username [some spec.taskId])).filter
          fun row => decide (row.2.status = "open")).map Prod.snd) := by
  unfold listOpen CnpStore.listCfps
  have arranged :=
    bidder.cfpOrder.perm
      ((rowsUnder store.cfps
        (listingPrefix "cfp" bidder.username [some spec.taskId])).map
          Prod.snd)
  refine (arranged.filter _).trans ?_
  rw [List.filter_map]
  apply List.Perm.of_eq
  congr 1
  apply List.filter_congr
  intro row _
  change isWanted (some "open") (some row.2.status) = _
  rw [isWanted_some (by decide)]
  exact decide_eq_decide.mpr Option.some_inj

/-- The open calls that are listed are the one open call on the task, if there
is one. -/
theorem listOpen_cases
    (invariant : CfpInvariant uuid store)
    (own : OwnListing store bidder.username spec.taskId) :
    (bidder.listOpen store spec = [] ∧
      ∀ row ∈ store.cfps.entries, CfpOf bidder.username row →
        row.2.taskId = spec.taskId → row.2.status ≠ "open") ∨
    ∃ row ∈ store.cfps.entries,
      bidder.listOpen store spec = [row.2] ∧
        CfpOf bidder.username row ∧ row.2.taskId = spec.taskId ∧
          row.2.status = "open" := by
  have listed := bidder.listOpen_perm store spec
  have isListed {row : CfpRow}
      (member : row ∈ (rowsUnder store.cfps
        (listingPrefix "cfp" bidder.username [some spec.taskId])).filter
          fun row => decide (row.2.status = "open")) :
      row ∈ store.cfps.entries ∧ CfpOf bidder.username row ∧
        row.2.taskId = spec.taskId ∧ row.2.status = "open" := by
    obtain ⟨isRow, isOpen⟩ := List.mem_filter.mp member
    rw [decide_eq_true_eq] at isOpen
    obtain ⟨ofUser, onTask⟩ := own row isRow isOpen
    exact ⟨(List.mem_filter.mp isRow).1, ofUser, onTask, isOpen⟩
  have distinct :
      ((rowsUnder store.cfps
        (listingPrefix "cfp" bidder.username [some spec.taskId])).filter
          fun row => decide (row.2.status = "open")).Nodup :=
    ((store.cfps.keysNodup.of_map _).filter _).filter _
  cases openRows :
      (rowsUnder store.cfps
        (listingPrefix "cfp" bidder.username [some spec.taskId])).filter
          fun row => decide (row.2.status = "open") with
  | nil =>
      left
      rw [openRows] at listed
      refine ⟨listed.eq_nil, ?_⟩
      intro row member ofUser onTask isOpen
      have isRow := own_cfp_listed member ofUser
      rw [onTask] at isRow
      have inOpen :
          row ∈ (rowsUnder store.cfps
            (listingPrefix "cfp" bidder.username
              [some spec.taskId])).filter
                fun row => decide (row.2.status = "open") :=
        List.mem_filter.mpr ⟨isRow, decide_eq_true isOpen⟩
      rw [openRows] at inOpen
      cases inOpen
  | cons row others =>
      right
      rw [openRows] at listed distinct isListed
      obtain ⟨member, ofUser, onTask, isOpen⟩ :=
        isListed List.mem_cons_self
      have alone : others = [] := by
        cases others with
        | nil =>
            rfl
        | cons second rest =>
            obtain ⟨isSecond, secondOf, secondOn, secondOpen⟩ :=
              isListed (List.mem_cons_of_mem _ List.mem_cons_self)
            have same :=
              invariant.open_unique member isSecond ofUser secondOf
                (onTask.trans secondOn.symm) isOpen secondOpen
            exact
              absurd (same ▸ List.mem_cons_self)
                (List.nodup_cons.mp distinct).1
      subst alone
      exact
        ⟨row, member, List.perm_singleton.mp listed, ofUser, onTask,
          isOpen⟩

end BidderRun

/-- No call on the task is open. -/
structure NoneOpen
    (uuid : UuidSource) (username taskId : String)
    (store closed : CnpStore) : Prop where
  invariant : CfpInvariant uuid closed
  own : OwnListing closed username taskId
  bids : closed.bids = store.bids
  noneOpen : ∀ row ∈ closed.cfps.entries, CfpOf username row →
    row.2.taskId = taskId → row.2.status ≠ "open"

/-- One call on the task is open, and it is at hand. -/
structure OneOpen
    (uuid : UuidSource) (username taskId : String)
    (store opened : CnpStore) (cfps : List CallForProposal) : Prop where
  invariant : CfpInvariant uuid opened
  own : OwnListing opened username taskId
  bids : opened.bids = store.bids
  current : ∃ row ∈ opened.cfps.entries,
    cfps = [row.2] ∧ CfpOf username row ∧ row.2.taskId = taskId ∧
      row.2.status = "open"

theorem le_foldr_max {rounds : List Nat} {round : Nat}
    (member : round ∈ rounds) : round ≤ rounds.foldr max 0 := by
  induction rounds with
  | nil =>
      cases member
  | cons first rest inductionHypothesis =>
      rcases List.mem_cons.mp member with rfl | later
      · exact le_max_left _ _
      · exact (inductionHypothesis later).trans (le_max_right _ _)

namespace BidderRun

variable {Agent : Type} {uuid : UuidSource} (bidder : BidderRun Agent)
variable {store : CnpStore} {spec : TaskSpec}

theorem noneOpen_closeAll
    (invariant : CfpInvariant uuid store)
    (own : OwnListing store bidder.username spec.taskId)
    {row : CfpRow} (member : row ∈ store.cfps.entries)
    (ofUser : CfpOf bidder.username row)
    (onTask : row.2.taskId = spec.taskId)
    (isOpen : row.2.status = "open") (reason : String) :
    NoneOpen uuid bidder.username spec.taskId store
      (bidder.closeAll reason store [row.2]) := by
  have stored :
      StoredFor store bidder.username (bidder.closed reason row.2) := by
    obtain ⟨current, found, same⟩ := StoredFor.of_mem member ofUser
    exact
      ⟨current, found, same.cfpId, same.taskId, same.round, same.maxBids⟩
  have notOpen : (bidder.closed reason row.2).status ≠ "open" := by
    change "closed" ≠ "open"
    decide
  obtain ⟨update, entries, _, changed⟩ := addCfp_entries stored notOpen
  -- A call that is still open was not written.
  have stillOpen : ∀ after ∈
      (bidder.closeAll reason store [row.2]).cfps.entries,
      after.2.status = "open" →
        after ∈ store.cfps.entries ∧ after.1 ≠ row.1 := by
    intro after isAfter afterOpen
    change after ∈
      (store.addCfp bidder.username
        (bidder.closed reason row.2)).cfps.entries at isAfter
    rw [entries] at isAfter
    obtain ⟨before, isBefore, rfl⟩ := List.mem_map.mp isAfter
    rcases changed before with ⟨_, isClosed⟩ | ⟨otherKey, same⟩
    · rw [isClosed] at afterOpen
      exact absurd afterOpen notOpen
    · rw [same]
      exact ⟨isBefore, fun sameKey => otherKey (sameKey.trans ofUser)⟩
  constructor
  · exact invariant.close stored notOpen
  · intro after isListed afterOpen
    obtain ⟨isAfter, like⟩ := List.mem_filter.mp isListed
    have before := (stillOpen after isAfter afterOpen).1
    exact own after (List.mem_filter.mpr ⟨before, like⟩) afterOpen
  · rfl
  · intro after isAfter afterOf afterOn afterOpen
    obtain ⟨before, otherKey⟩ := stillOpen after isAfter afterOpen
    have same :=
      invariant.open_unique before member afterOf ofUser
        (afterOn.trans onTask.symm) afterOpen isOpen
    exact otherKey (congrArg Prod.fst same)

theorem round_lt_next
    {row : CfpRow} (member : row ∈ store.cfps.entries)
    (ofUser : CfpOf bidder.username row)
    (onTask : row.2.taskId = spec.taskId) (pipelineId : Option String) :
    row.2.round < (bidder.nextCfp uuid store spec pipelineId).round := by
  apply Nat.lt_succ_of_le
  apply le_foldr_max
  apply List.mem_map_of_mem
  have listed := own_cfp_listed member ofUser
  rw [onTask] at listed
  unfold listAll CnpStore.listCfps
  refine List.mem_filter.mpr ⟨?_, rfl⟩
  exact
    (bidder.cfpOrder.perm _).mem_iff.mpr (List.mem_map_of_mem listed)

theorem oneOpen_openNext
    (positive : 0 < bidder.settings.cnpMaxBids) {closed : CnpStore}
    (none : NoneOpen uuid bidder.username spec.taskId store closed)
    (pipelineId : Option String) :
    OneOpen uuid bidder.username spec.taskId store
      (bidder.openNext uuid closed spec pipelineId).1
      (bidder.openNext uuid closed spec pipelineId).2 := by
  have invariant :
      CfpInvariant uuid (bidder.openNext uuid closed spec pipelineId).1 :=
    none.invariant.open rfl rfl positive fun row member ofUser onTask =>
      ⟨bidder.round_lt_next member ofUser onTask pipelineId,
        none.noneOpen row member ofUser onTask⟩
  constructor
  · exact invariant
  · intro row isListed isOpen
    obtain ⟨isRow, like⟩ := List.mem_filter.mp isListed
    rcases OrderedMap.mem_entries_set isRow with rfl | old
    · exact ⟨rfl, rfl⟩
    · exact
        none.own row (List.mem_filter.mpr ⟨old, like⟩) isOpen
  · exact none.bids
  · refine
      ⟨(cfpKey bidder.username spec.taskId (uuid.id closed.drawn),
          bidder.nextCfp uuid closed spec pipelineId), ?_, rfl, rfl, rfl,
        rfl⟩
    exact OrderedMap.mem_of_get? (OrderedMap.get?_set_self _ _ _)

theorem oneOpen_openCfps
    (positive : 0 < bidder.settings.cnpMaxBids)
    (invariant : CfpInvariant uuid store)
    (own : OwnListing store bidder.username spec.taskId)
    (pipelineId : Option String) :
    OneOpen uuid bidder.username spec.taskId store
      (bidder.openCfps uuid store spec pipelineId).1
      (bidder.openCfps uuid store spec pipelineId).2.1 := by
  unfold openCfps
  rcases bidder.listOpen_cases invariant own with
    ⟨empty, noneOpen⟩ | ⟨row, member, listed, ofUser, onTask, isOpen⟩
  · rw [empty]
    exact
      bidder.oneOpen_openNext positive
        ⟨invariant, own, rfl, noneOpen⟩ pipelineId
  · rw [listed]
    by_cases expired : bidder.isExpired row.2 = true
    · simp only [List.filter_cons, expired, Bool.not_true,
        Bool.false_eq_true, if_true, if_false, List.filter_nil,
        List.isEmpty_nil]
      exact
        bidder.oneOpen_openNext positive
          (bidder.noneOpen_closeAll invariant own member ofUser onTask
            isOpen "expired")
          pipelineId
    · rw [Bool.not_eq_true] at expired
      simp only [List.filter_cons, expired, Bool.not_false,
        Bool.false_eq_true, if_true, if_false, List.filter_nil,
        List.isEmpty_cons]
      exact
        ⟨invariant, own, rfl, row, member, rfl, ofUser, onTask, isOpen⟩

theorem oneOpen_reopen
    (positive : 0 < bidder.settings.cnpMaxBids)
    {opened : CnpStore} {cfps : List CallForProposal}
    (one : OneOpen uuid bidder.username spec.taskId store opened cfps)
    (pipelineId : Option String) :
    OneOpen uuid bidder.username spec.taskId store
      (bidder.reopen uuid opened spec pipelineId cfps).1
      (bidder.reopen uuid opened spec pipelineId cfps).2.1 := by
  unfold reopen
  by_cases more :
      (bidder.currentRound opened spec : Int) < bidder.settings.maxRounds
  · rw [if_pos more]
    obtain ⟨row, member, rfl, ofUser, onTask, isOpen⟩ := one.current
    have onlyOpen :
        ([row.2].filter fun cfp => decide (cfp.status = "open")) =
          [row.2] := by
      simp [isOpen]
    rw [onlyOpen]
    have closed :=
      bidder.noneOpen_closeAll one.invariant one.own member ofUser onTask
        isOpen "no_bids"
    have again :=
      bidder.oneOpen_openCfps positive closed.invariant closed.own
        pipelineId
    exact
      ⟨again.invariant, again.own,
        again.bids.trans (closed.bids.trans one.bids), again.current⟩
  · rw [if_neg more]
    exact one

/-! ## Who bids -/

theorem swapFirst_perm {α : Type} (position : Option Nat)
    (items : List α) : (swapFirst position items).Perm items := by
  cases position with
  | none =>
      exact .rfl
  | some index =>
      unfold swapFirst
      dsimp only
      cases atFirst : items[0]? with
      | none =>
          exact .rfl
      | some first =>
          cases atIndex : items[index]? with
          | none =>
              exact .rfl
          | some other =>
              obtain ⟨inFirst, rfl⟩ := List.getElem?_eq_some_iff.mp atFirst
              obtain ⟨inIndex, rfl⟩ := List.getElem?_eq_some_iff.mp atIndex
              exact List.set_set_perm inFirst inIndex

def agentIds (scored : List (Entry × ℚ)) : List String :=
  scored.map fun entry => entry.1.agentId

theorem agentIds_scoredEntries (spec : TaskSpec) (entries : List Entry) :
    (agentIds (bidder.scoredEntries spec entries)).Perm
      (entries.map Entry.agentId) := by
  unfold scoredEntries agentIds
  refine
    ((swapFirst_perm _ _).trans (List.perm_insertionSort _ _)).map _
      |>.trans ?_
  rw [List.map_map]
  exact .rfl

/-- No two of the registered agents have one id. -/
def AgentsOnce : Prop :=
  ((bidder.agents.map bidder.appraisal.agentId).filter fun agentId =>
    decide (agentId ≠ "")).Nodup

/-- The candidates of a task have names, and different ones. -/
structure Distinguished (entries : List Entry) : Prop where
  once : (entries.map Entry.agentId).Nodup
  named : ∀ entry ∈ entries, entry.agentId ≠ ""

theorem distinguished_candidateEntries
    (once : bidder.AgentsOnce) (spec : TaskSpec) (stimulus : ℚ) :
    Distinguished (bidder.candidateEntries spec stimulus) := by
  have named : ∀ entry : Entry,
      (decide (entry.agentId ≠ "") &&
          decide (entry.threshold ≤ stimulus) &&
            decide (entry.cost ≤ entry.capabilityValue)) = true →
        decide (entry.agentId ≠ "") = true := by
    intro entry isCandidate
    rw [Bool.and_eq_true, Bool.and_eq_true] at isCandidate
    exact isCandidate.1.1
  constructor
  · have fewer :=
      (List.monotone_filter_right
        (bidder.agents.map (bidder.entryOf spec)) named).map
          Entry.agentId
    have ids :
        ((bidder.agents.map (bidder.entryOf spec)).filter fun entry =>
          decide (entry.agentId ≠ "")).map Entry.agentId =
          (bidder.agents.map bidder.appraisal.agentId).filter
            fun agentId => decide (agentId ≠ "") := by
      rw [List.filter_map, List.map_map, List.filter_map]
      rfl
    rw [ids] at fewer
    exact fewer.nodup once
  · intro entry member
    exact of_decide_eq_true (named entry (List.mem_filter.mp member).2)

theorem distinguished_withFallback
    {entries : List Entry} (distinguished : Distinguished entries)
    (spec : TaskSpec) :
    Distinguished (bidder.withFallback spec entries) := by
  unfold withFallback
  split
  · constructor
    · exact List.nodup_singleton _
    · intro entry member
      rw [List.mem_singleton.mp member]
      change "system" ≠ ""
      decide
  · exact distinguished

/-- What the entries that bid on a call are. -/
structure Admitted
    (existing : List BlueprintBid) (scored bids : List (Entry × ℚ))
    (cfp : CallForProposal) : Prop where
  fewer : bids.Sublist scored
  new : ∀ entry ∈ bids,
    entry.1.agentId ∉ existingBidders existing (cfpKeyOf (some cfp.cfpId))
  room : ∀ maxBids, cfp.maxBids = some maxBids → maxBids ≠ 0 →
    bids = [] ∨
      ((existingBidders existing (cfpKeyOf (some cfp.cfpId))).length : Int)
        + bids.length ≤ maxBids

theorem admitted_bidding
    (existing : List BlueprintBid) (scored : List (Entry × ℚ))
    (cfp : CallForProposal) :
    Admitted existing scored (bidder.bidding existing scored cfp) cfp := by
  unfold bidding
  dsimp only
  split
  · exact
      ⟨List.nil_sublist _, fun _ member => absurd member List.not_mem_nil,
        fun _ _ _ => Or.inl rfl⟩
  · rename_i free
    constructor
    · exact
        (List.take_sublist _ _).trans
          (List.filter_sublist.trans List.filter_sublist)
    · intro entry member isBidder
      have kept := (List.mem_filter.mp (List.mem_of_mem_take member)).2
      rw [Bool.not_eq_true', List.contains_eq_mem,
        decide_eq_false_iff_not] at kept
      exact kept isBidder
    · intro maxBids isMax notZero
      right
      have isOwn : bidder.maxBidsOf cfp = maxBids := by
        unfold maxBidsOf
        rw [isMax]
        exact if_pos notZero
      rw [isOwn] at free ⊢
      have short := List.length_take_le
        (maxBids - ((existingBidders existing
          (cfpKeyOf (some cfp.cfpId))).length : Int)).toNat
        ((scored.filter fun entry =>
          decide (cfp.minScore.getD bidder.settings.minBidScore ≤
            entry.2)).filter fun entry =>
              !(existingBidders existing
                (cfpKeyOf (some cfp.cfpId))).contains entry.1.agentId)
      omega

theorem cfpKeyOf_some {cfpId : String} (nonempty : cfpId ≠ "") :
    cfpKeyOf (some cfpId) = cfpId := by
  unfold cfpKeyOf
  rw [given_some nonempty]
  rfl

/-- The bids that are listed for the task before the call is opened have the
bidders of the call. -/
theorem existingBidders_perm
    {opened : CnpStore} (invariant : CfpInvariant uuid opened)
    (bids : opened.bids = store.bids)
    {row : CfpRow} (member : row ∈ opened.cfps.entries)
    (ofUser : CfpOf bidder.username row)
    (onTask : row.2.taskId = spec.taskId) :
    (existingBidders
      (store.listBids bidder.bidOrder bidder.username (some spec.taskId)
        none none)
      (cfpKeyOf (some row.2.cfpId))).Perm
      ((opened.bidsOn row.2.cfpId).map BlueprintBid.bidderId) := by
  have named : row.2.cfpId ≠ "" := by
    obtain ⟨index, _, isId⟩ := invariant.drawn row member
    rw [isId]
    exact uuid.id_ne_empty index
  rw [cfpKeyOf_some named]
  unfold existingBidders CnpStore.listBids CnpStore.bidsOn
    OrderedMap.values rowsUnder
  rw [← bids]
  apply List.Perm.map
  have arranged :=
    bidder.bidOrder.perm
      ((opened.bids.entries.filter fun bid =>
        LikePattern.like
          ((listingPrefix "bid" bidder.username
            [some spec.taskId]).toList ++ ['%'])
          bid.1.toList).map Prod.snd)
  refine ((arranged.filter _).filter _).trans ?_
  rw [List.filter_map, List.filter_map, List.filter_map,
    List.filter_filter, List.filter_filter]
  apply List.Perm.of_eq
  congr 1
  apply List.filter_congr
  intro bid isBid
  rw [Bool.eq_iff_iff]
  simp only [Function.comp_apply, Bool.and_eq_true, decide_eq_true_eq]
  constructor
  · rintro ⟨⟨⟨_, sameKey⟩, _⟩, _⟩
    obtain ⟨index, _, isId⟩ := (invariant.drawnBids bid isBid).cfp
    rw [isId, cfpKeyOf_some (uuid.id_ne_empty index)] at sameKey
    rw [isId, sameKey]
  · intro onCall
    obtain ⟨sameTask, owner, own, isKey⟩ :=
      invariant.placed bid isBid row member onCall
    obtain rfl : owner = bidder.username :=
      cfpKey_user (own.symm.trans ofUser)
    have listed := own_bid_listed isBid isKey
    rw [sameTask, onTask] at listed
    have onWanted :
        isWanted (some spec.taskId) (some bid.2.taskId) = true := by
      rw [sameTask, onTask]
      by_cases empty : spec.taskId = ""
      · rw [empty]
        rfl
      · rw [isWanted_some empty]
        exact decide_eq_true rfl
    have sameKey : cfpKeyOf bid.2.cfpId = row.2.cfpId := by
      rw [onCall, cfpKeyOf_some named]
    exact
      ⟨⟨⟨(invariant.drawnBids bid isBid).named, sameKey⟩,
        ⟨onWanted, rfl⟩, rfl⟩, (List.mem_filter.mp listed).2⟩

/-- Bids of different new bidders are placed one after the other while there
is room. -/
theorem invariant_storeBids
    (bids : List (Entry × ℚ)) (invariant : CfpInvariant uuid store)
    {row : CfpRow} (member : row ∈ store.cfps.entries)
    (ofUser : CfpOf bidder.username row)
    (onTask : row.2.taskId = spec.taskId)
    (once : (agentIds bids).Nodup)
    (new : ∀ entry ∈ bids, entry.1.agentId ≠ "" ∧
      entry.1.agentId ∉
        (store.bidsOn row.2.cfpId).map BlueprintBid.bidderId)
    (room : ∀ maxBids, row.2.maxBids = some maxBids →
      ((store.bidsOn row.2.cfpId).length : Int) + bids.length ≤
        maxBids) :
    CfpInvariant uuid
      (bids.foldl (bidder.storeBid uuid spec row.2) store) := by
  induction bids generalizing store with
  | nil =>
      exact invariant
  | cons entry rest inductionHypothesis =>
      unfold agentIds at once
      rw [List.map_cons, List.nodup_cons] at once
      obtain ⟨named, newBidder⟩ := new entry List.mem_cons_self
      have roomForOne : ∀ maxBids, row.2.maxBids = some maxBids →
          ((store.bidsOn row.2.cfpId).length : Int) < maxBids := by
        intro maxBids isMax
        have within := room maxBids isMax
        rw [List.length_cons] at within
        omega
      have placed :
          CfpInvariant uuid
            (bidder.storeBid uuid spec row.2 store entry) :=
        invariant.bid member ofUser rfl rfl onTask.symm named newBidder
          roomForOne
      have bidsOn :
          (bidder.storeBid uuid spec row.2 store entry).bidsOn
              row.2.cfpId =
            store.bidsOn row.2.cfpId ++
              [bidOf uuid store spec row.2 entry] := by
        have added :=
          @CfpInvariant.bidsOn_addBid _ _ invariant bidder.username
            (bidOf uuid store spec row.2 entry) rfl row.2.cfpId rfl
            row.2.cfpId
        rwa [if_pos rfl] at added
      apply inductionHypothesis placed member once.2
      · intro other isOther
        obtain ⟨otherNamed, otherNew⟩ :=
          new other (List.mem_cons_of_mem _ isOther)
        refine ⟨otherNamed, ?_⟩
        rw [bidsOn, List.map_append, List.mem_append]
        rintro (before | isEntry)
        · exact otherNew before
        · rw [List.map_singleton, List.mem_singleton] at isEntry
          apply once.1
          change other.1.agentId = entry.1.agentId at isEntry
          rw [← isEntry]
          exact List.mem_map.mpr ⟨other, isOther, rfl⟩
      · intro maxBids isMax
        have within := room maxBids isMax
        rw [bidsOn, List.length_append, List.length_singleton]
        rw [List.length_cons] at within
        omega

/-! ## The loop over the specs -/

/-- What keeps the calls in order when the bidder takes up a task. -/
def Undisturbed (state : Bidding) (spec : TaskSpec) : Prop :=
  OwnListing state.store bidder.username spec.taskId

theorem invariant_bidForSpec
    (positive : 0 < bidder.settings.cnpMaxBids)
    (once : bidder.AgentsOnce) (state : Bidding) (spec : TaskSpec)
    (invariant : CfpInvariant uuid state.store)
    (own : bidder.Undisturbed state spec) :
    CfpInvariant uuid (bidder.bidForSpec uuid state spec).store := by
  unfold bidForSpec
  dsimp only
  generalize pipelineFor state.pipelineId spec = pipelineId
  have opened :=
    bidder.oneOpen_openCfps positive invariant own pipelineId
  generalize bidder.openCfps uuid state.store spec pipelineId = first
    at opened
  generalize isCandidates :
    bidder.candidateEntries spec
      (bidder.activeStimulus spec first.2.1) = candidates
  have distinguished :
      Distinguished (bidder.withFallback spec candidates) := by
    rw [← isCandidates]
    exact
      bidder.distinguished_withFallback
        (bidder.distinguished_candidateEntries once spec _) spec
  have current :
      OneOpen uuid bidder.username spec.taskId state.store
        (if candidates.isEmpty && bidder.settings.openNextRoundOnEmpty then
          bidder.reopen uuid first.1 spec pipelineId first.2.1
        else (first.1, first.2.1, 0)).1
        (if candidates.isEmpty && bidder.settings.openNextRoundOnEmpty then
          bidder.reopen uuid first.1 spec pipelineId first.2.1
        else (first.1, first.2.1, 0)).2.1 := by
    split
    · exact bidder.oneOpen_reopen positive opened pipelineId
    · exact opened
  generalize
    (if candidates.isEmpty && bidder.settings.openNextRoundOnEmpty then
      bidder.reopen uuid first.1 spec pipelineId first.2.1
    else (first.1, first.2.1, 0)) = second at current
  obtain ⟨row, member, only, ofUser, onTask, _⟩ := current.current
  have admitted :=
    bidder.admitted_bidding
      (state.store.listBids bidder.bidOrder bidder.username
        (some spec.taskId) none none)
      (bidder.scoredEntries spec (bidder.withFallback spec candidates))
      row.2
  have existing :=
    bidder.existingBidders_perm current.invariant current.bids member
      ofUser onTask
  have ids :=
    bidder.agentIds_scoredEntries spec
      (bidder.withFallback spec candidates)
  rw [only, List.foldl_cons, List.foldl_nil]
  apply
    bidder.invariant_storeBids _ current.invariant member ofUser onTask
  · exact (admitted.fewer.map _).nodup (ids.nodup_iff.mpr
      distinguished.once)
  · intro entry isEntry
    constructor
    · have isId :
          entry.1.agentId ∈
            (bidder.withFallback spec candidates).map Entry.agentId :=
        ids.mem_iff.mp
          (List.mem_map_of_mem (admitted.fewer.subset isEntry))
      obtain ⟨candidate, isCandidate, same⟩ := List.mem_map.mp isId
      rw [← same]
      exact distinguished.named candidate isCandidate
    · intro isBidder
      exact admitted.new entry isEntry (existing.mem_iff.mpr isBidder)
  · intro maxBids isMax
    obtain ⟨limit, isLimit, limitPositive, within⟩ :=
      (current.invariant.bounded row member).limited
    rw [isMax] at isLimit
    obtain rfl := Option.some.inj isLimit
    rcases admitted.room maxBids isMax limitPositive.ne' with
      none | room
    · rw [none]
      simpa using within
    · rw [existing.length_eq, List.length_map] at room
      exact room

theorem invariant_run
    (positive : 0 < bidder.settings.cnpMaxBids)
    (once : bidder.AgentsOnce)
    (invariant : CfpInvariant uuid store)
    (undisturbed : EveryStep (bidder.bidForSpec uuid) bidder.Undisturbed
      (bidder.start store) bidder.specs) :
    CfpInvariant uuid (bidder.run uuid store).store :=
  run_invariant (fun state => CfpInvariant uuid state.store)
    (bidder.invariant_bidForSpec positive once) invariant undisturbed

end BidderRun

namespace BuildCall

variable (python : PyBuiltins) {uuid : UuidSource} (call : BuildCall)
variable {store : CnpStore}

/-- The open calls that the graph builder lists are calls of its user. -/
def OwnOpenCfps (store : CnpStore) : Prop :=
  ∀ row ∈ rowsUnder store.cfps (listingPrefix "cfp" call.username [none]),
    row.2.status = "open" → CfpOf call.username row

/-- The award loop writes neither calls nor bids. -/
theorem foldl_awardSpec_docs
    (best : OrderedMap String BlueprintBid) (specs : List TaskSpec)
    (phase : AwardPhase) :
    (specs.foldl (call.awardSpec uuid best) phase).store.cfps =
        phase.store.cfps ∧
      (specs.foldl (call.awardSpec uuid best) phase).store.bids =
        phase.store.bids ∧
      phase.store.drawn ≤
        (specs.foldl (call.awardSpec uuid best) phase).store.drawn := by
  induction specs generalizing phase with
  | nil =>
      exact ⟨rfl, rfl, le_rfl⟩
  | cons spec rest inductionHypothesis =>
      rw [List.foldl_cons]
      obtain ⟨cfps, bids, later⟩ :=
        inductionHypothesis (call.awardSpec uuid best phase spec)
      have here :
          (call.awardSpec uuid best phase spec).store.cfps =
              phase.store.cfps ∧
            (call.awardSpec uuid best phase spec).store.bids =
              phase.store.bids ∧
            phase.store.drawn ≤
              (call.awardSpec uuid best phase spec).store.drawn := by
        unfold awardSpec
        cases best.get? spec.taskId with
        | none =>
            exact ⟨rfl, rfl, le_rfl⟩
        | some bid =>
            dsimp only
            split
            · exact ⟨rfl, rfl, le_rfl⟩
            · exact ⟨rfl, rfl, Nat.le_add_right _ 2⟩
      exact
        ⟨cfps.trans here.1, bids.trans here.2.1, here.2.2.trans later⟩

theorem foldl_saveSequence_docs
    (planId : String) (entries : List (String × List BlueprintBid))
    (saving : CnpStore) :
    (entries.foldl (call.saveSequence planId) saving).cfps =
        saving.cfps ∧
      (entries.foldl (call.saveSequence planId) saving).bids =
        saving.bids ∧
      (entries.foldl (call.saveSequence planId) saving).drawn =
        saving.drawn := by
  induction entries generalizing saving with
  | nil =>
      exact ⟨rfl, rfl, rfl⟩
  | cons entry rest inductionHypothesis =>
      rw [List.foldl_cons]
      obtain ⟨cfps, bids, drawn⟩ :=
        inductionHypothesis (call.saveSequence planId saving entry)
      rw [cfps, bids, drawn]
      unfold saveSequence
      split <;> exact ⟨rfl, rfl, rfl⟩

theorem invariant_closing
    (cfps : List CallForProposal) {closing : CnpStore}
    (invariant : CfpInvariant uuid closing)
    (stored : ∀ cfp ∈ cfps, StoredFor closing call.username cfp) :
    CfpInvariant uuid (cfps.foldl (call.closeCfp store) closing) := by
  induction cfps generalizing closing with
  | nil =>
      exact invariant
  | cons cfp rest inductionHypothesis =>
      rw [List.foldl_cons]
      have later : ∀ other ∈ rest,
          StoredFor closing call.username other := fun other member =>
        stored other (List.mem_cons_of_mem _ member)
      cases reason : call.closingReason store cfp with
      | none =>
          rw [closeCfp, reason]
          exact inductionHypothesis invariant later
      | some text =>
          rw [closeCfp, reason]
          obtain ⟨current, found, same⟩ := stored cfp List.mem_cons_self
          have isStored :
              StoredFor closing call.username
                { cfp with
                  status := "closed"
                  statusReason := some text
                  closesAt := some call.now } :=
            ⟨current, found, same.cfpId, same.taskId, same.round,
              same.maxBids⟩
          have notOpen : "closed" ≠ "open" := by
            decide
          exact
            inductionHypothesis (invariant.close isStored notOpen)
              fun other member => (later other member).addCfp isStored

theorem stored_of_openCfps
    (own : call.OwnOpenCfps store) {cfp : CallForProposal}
    (member : cfp ∈ call.openCfps store) :
    StoredFor store call.username cfp := by
  have listed := (List.mem_filter.mp member).1
  obtain ⟨arranged, isOpen⟩ := List.mem_filter.mp listed
  obtain ⟨row, isRow, rfl⟩ :=
    List.mem_map.mp ((call.cfpOrder.perm _).mem_iff.mp arranged)
  rw [isWanted_some (by decide), decide_eq_true_eq, Option.some_inj]
    at isOpen
  exact
    StoredFor.of_mem (List.mem_filter.mp isRow).1 (own row isRow isOpen)

theorem invariant_buildPlanDraft
    (invariant : CfpInvariant uuid store) (own : call.OwnOpenCfps store)
    (registry : Registry) :
    CfpInvariant uuid
      (call.buildPlanDraft python uuid store registry).store := by
  obtain ⟨cfps, bids, later⟩ :=
    @foldl_awardSpec_docs uuid call (call.bestBids store) call.specs
      ⟨store, call.earlierAwards store, registry⟩
  have awarded :
      CfpInvariant uuid (call.awardPhase uuid store registry).store :=
    invariant.keep cfps bids later
  have stored : ∀ cfp ∈ call.openCfps store,
      StoredFor (call.awardPhase uuid store registry).store call.username
        cfp := by
    intro cfp member
    obtain ⟨current, found, same⟩ := call.stored_of_openCfps own member
    rw [← cfps] at found
    exact ⟨current, found, same⟩
  have closed :=
    @invariant_closing uuid call store (call.openCfps store) _ awarded
      stored
  have saved (planId : String) :=
    call.foldl_saveSequence_docs planId (call.rankedBids store).entries
      (((call.openCfps store).foldl (call.closeCfp store)
        (call.awardPhase uuid store registry).store).drawIds 1)
  unfold buildPlanDraft
  dsimp only
  split
  · exact
      closed.keep (saved _).1 (saved _).2.1
        ((Nat.le_succ _).trans (saved _).2.2.ge)
  · exact
      closed.keep (saved _).1 (saved _).2.1
        ((Nat.le_succ _).trans (saved _).2.2.ge)

end BuildCall

/-! ## Runs of both -/

/-- A run of the bidder or of the graph builder, or the expiry of a bid. -/
inductive CnpRun (Agent : Type) where
  | bid (bidder : BidderRun Agent)
  | build (call : BuildCall) (registry : Registry)
  | expire (key : String)

section Runs

variable {Agent : Type} (python : PyBuiltins) (uuid : UuidSource)

def CnpStore.step (store : CnpStore) : CnpRun Agent → CnpStore
  | .bid bidder => (bidder.run uuid store).store
  | .build call registry =>
      (call.buildPlanDraft python uuid store registry).store
  | .expire key => { store with bids := store.bids.erase key }

/-- New calls take bids, no agent is listed twice, and the open calls that are
listed are those that were asked for. -/
def CnpRun.OwnCalls (store : CnpStore) : CnpRun Agent → Prop
  | .bid bidder =>
      0 < bidder.settings.cnpMaxBids ∧ bidder.AgentsOnce ∧
        EveryStep (bidder.bidForSpec uuid) bidder.Undisturbed
          (bidder.start store) bidder.specs
  | .build call _ => call.OwnOpenCfps store
  | .expire _ => True

theorem invariant_step
    (store : CnpStore) (cnpRun : CnpRun Agent)
    (invariant : CfpInvariant uuid store)
    (own : cnpRun.OwnCalls uuid store) :
    CfpInvariant uuid (store.step python uuid cnpRun) := by
  cases cnpRun with
  | bid bidder =>
      obtain ⟨positive, once, undisturbed⟩ := own
      exact bidder.invariant_run positive once invariant undisturbed
  | build call registry =>
      exact call.invariant_buildPlanDraft python invariant own registry
  | expire key =>
      exact invariant.eraseBid key

/-- The lifecycle of calls holds in every state of a sequence of runs, as long
as each of them works on its own calls. -/
theorem lifecycle_of_ownCalls
    (runs : List (CnpRun Agent))
    (own : EveryStep (CnpStore.step python uuid)
      (fun store cnpRun => cnpRun.OwnCalls uuid store) {} runs) :
    EveryState (CnpStore.step python uuid) CfpLifecycle {} runs :=
  everyState_of_invariant (CfpInvariant uuid)
    (invariant_step python uuid) (fun _ invariant => invariant.lifecycle)
    (CfpInvariant.empty uuid) own

end Runs

instance (username : String) (row : CfpRow) :
    Decidable (CfpOf username row) :=
  inferInstanceAs (Decidable (_ = _))

instance (store : CnpStore) (username taskId : String) :
    Decidable (OwnListing store username taskId) :=
  inferInstanceAs (Decidable (∀ _ ∈ _, _))

/-- The agents are known by their ids alone. -/
def plainAppraisal : Appraisal String where
  agentId := id
  params _ := {}
  entryOf _ _ := {}
  scoreOf _ _ _ := 1 / 2
  explore _ _ := none

def bidOnTasks (taskIds : List String) : BidderRun String where
  username := "jane"
  specs := taskIds.map fun taskId => { taskId := taskId }
  agents := ["solver"]
  appraisal := plainAppraisal

def planTasks : BuildCall where
  username := "jane"
  pipelineId := "pipe-1"
  specDocs := [{ taskId := "fetch" }, { taskId := "clean" }]

def bidPlanBid : List (CnpRun String) :=
  [.bid (bidOnTasks ["fetch", "clean"]), .build planTasks .empty,
    .bid (bidOnTasks ["clean", "fetch"])]

theorem separate_tasks_keep_lifecycle :
    EveryState (CnpStore.step plainPython countedIds) CfpLifecycle {}
      bidPlanBid := by
  apply lifecycle_of_ownCalls plainPython countedIds bidPlanBid
  have oneSolver (taskIds : List String) :
      (bidOnTasks taskIds).AgentsOnce := by
    change (["solver"].filter _).Nodup
    decide
  refine ⟨⟨by decide, oneSolver _, ?_, ?_, trivial⟩, ?_,
    ⟨by decide, oneSolver _, ?_, ?_, trivial⟩, trivial⟩
  · change OwnListing _ _ _
    decide +kernel
  · change OwnListing _ _ _
    decide +kernel
  · change ∀ row ∈ _, _
    decide +kernel
  · change OwnListing _ _ _
    decide +kernel
  · change OwnListing _ _ _
    decide +kernel

/-- The open call of one task is listed for another task whose id is like
it, and gets a second bid of the same agent. -/
theorem underscore_shares_call :
    ¬ EveryState (CnpStore.step plainPython countedIds) CfpLifecycle {}
      [CnpRun.bid (bidOnTasks ["fetch-data", "fetch_data"])] := by
  intro always
  have lifecycle := always.2
  have overfull :
      ((CnpStore.step plainPython countedIds {}
        (.bid (bidOnTasks ["fetch-data", "fetch_data"]))).cfps.values.map
          fun cfp => (cfp.cfpId, cfp.maxBids)) = [("0", some 1)] ∧
      ((CnpStore.step plainPython countedIds {}
        (.bid (bidOnTasks ["fetch-data", "fetch_data"]))).bidsOn
          "0").length = 2 := by
    decide +kernel
  obtain ⟨onlyCall, twoBids⟩ := overfull
  obtain ⟨cfp, member, same⟩ :=
    List.mem_map.mp (onlyCall ▸ List.mem_cons_self)
  rw [Prod.mk.injEq] at same
  have within := lifecycle.withinMaxBids cfp member 1 same.2
  rw [same.1, twoBids] at within
  omega

end Agentcy.Cnp
