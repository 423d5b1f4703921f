import Agentcy.Cnp.CnpStore
import Mathlib.Data.List.Pairwise

/-!
# The lifecycle of calls for proposals

Of the calls for proposals on one task only the last may be open, and each has
a higher round than those before it.  The bids on a call are by different
bidders, and not more than it takes.  This is kept by opening a call for a
task without an open one, by closing calls of the own user, and by placing a
bid of a new bidder on a call of the own task that has room.
-/

namespace Agentcy.Cnp

open Agentcy.GraphStore
open Agentcy.Library

theorem cfpKey_toList (username taskId cfpId : String) :
    (cfpKey username taskId cfpId).toList =
      "cfp::".toList ++ (username.toList ++ ("::".toList ++
        (taskId.toList ++ ("::".toList ++ cfpId.toList)))) := by
  simp [cfpKey, MarkerKey.text, MarkerKey.kind, MarkerKey.components,
    MarkerKey.joined]

theorem bidKey_toList (username taskId bidderId bidId : String) :
    (bidKey username taskId bidderId bidId).toList =
      "bid::".toList ++ (username.toList ++ ("::".toList ++
        (taskId.toList ++ ("::".toList ++ (bidderId.toList ++
          ("::".toList ++ bidId.toList)))))) := by
  simp [bidKey, MarkerKey.text, MarkerKey.kind, MarkerKey.components,
    MarkerKey.joined]

/-- The user of a key. -/
theorem cfpKey_user
    {username other taskId cfpId : String}
    (same : cfpKey username taskId cfpId = cfpKey other taskId cfpId) :
    username = other := by
  have lists := congrArg String.toList same
  rw [cfpKey_toList, cfpKey_toList, List.append_cancel_left_eq,
    List.append_cancel_right_eq] at lists
  exact String.ext lists

/-- The id that a key ends with. -/
theorem id_of_suffix
    (uuid : UuidSource) {first second : Nat} {front other : List Char}
    (same : front ++ ':' :: (uuid.id first).toList =
      other ++ ':' :: (uuid.id second).toList) :
    first = second := by
  have ids :=
    (append_separator_inj (uuid.no_colon first) (uuid.no_colon second)
      same).2
  exact uuid.id_injective (String.ext ids)

theorem cfpKey_id
    (uuid : UuidSource) {username other taskId task : String}
    {first second : Nat}
    (same : cfpKey username taskId (uuid.id first) =
      cfpKey other task (uuid.id second)) :
    first = second := by
  have lists := congrArg String.toList same
  rw [cfpKey_toList, cfpKey_toList] at lists
  have split :
      ("cfp::".toList ++ (username.toList ++ ("::".toList ++
          (taskId.toList ++ [':'])))) ++ ':' :: (uuid.id first).toList =
        ("cfp::".toList ++ (other.toList ++ ("::".toList ++
          (task.toList ++ [':'])))) ++ ':' :: (uuid.id second).toList := by
    simpa using lists
  exact id_of_suffix uuid split

theorem bidKey_id
    (uuid : UuidSource)
    {username other taskId task bidderId bidder : String}
    {first second : Nat}
    (same : bidKey username taskId bidderId (uuid.id first) =
      bidKey other task bidder (uuid.id second)) :
    first = second := by
  have lists := congrArg String.toList same
  rw [bidKey_toList, bidKey_toList] at lists
  have split :
      ("bid::".toList ++ (username.toList ++ ("::".toList ++
          (taskId.toList ++ ("::".toList ++ (bidderId.toList ++
            [':'])))))) ++ ':' :: (uuid.id first).toList =
        ("bid::".toList ++ (other.toList ++ ("::".toList ++
          (task.toList ++ ("::".toList ++ (bidder.toList ++
            [':'])))))) ++ ':' :: (uuid.id second).toList := by
    simpa using lists
  exact id_of_suffix uuid split

abbrev CfpRow := String × CallForProposal

/-- The row is at a key of the user. -/
def CfpOf (username : String) (row : CfpRow) : Prop :=
  row.1 = cfpKey username row.2.taskId row.2.cfpId

namespace CnpStore

variable (store : CnpStore)

/-- The calls on a task of a user, in the order they were opened in. -/
def cfpsOf (username taskId : String) : List CallForProposal :=
  (store.cfps.entries.filter fun row =>
    decide (row.1 = cfpKey username row.2.taskId row.2.cfpId) &&
      decide (row.2.taskId = taskId)).map Prod.snd

def bidsOn (cfpId : String) : List BlueprintBid :=
  store.bids.values.filter fun bid => decide (bid.cfpId = some cfpId)

end CnpStore

structure CfpLifecycle (store : CnpStore) : Prop where
  oneOpen : ∀ username taskId,
    ((store.cfpsOf username taskId).filter fun cfp =>
      decide (cfp.status = "open")).length ≤ 1
  roundsIncrease : ∀ username taskId,
    (store.cfpsOf username taskId).Pairwise fun first second =>
      first.round < second.round
  withinMaxBids : ∀ cfp ∈ store.cfps.values,
    ∀ maxBids, cfp.maxBids = some maxBids →
      ((store.bidsOn cfp.cfpId).length : Int) ≤ maxBids
  oneBidEach : ∀ cfp ∈ store.cfps.values,
    ((store.bidsOn cfp.cfpId).map BlueprintBid.bidderId).Nodup

/-- Two calls on one task of a user follow each other: the earlier one is of
a lower round, and not open any more. -/
def Precedes (first second : CfpRow) : Prop :=
  ∀ username, CfpOf username first → CfpOf username second →
    first.2.taskId = second.2.taskId →
      first.2.round < second.2.round ∧ first.2.status ≠ "open"

/-- A stored bid on a stored call is a bid of the same user on the same
task. -/
def PlacedOn (bid : String × BlueprintBid) (cfp : CfpRow) : Prop :=
  bid.2.cfpId = some cfp.2.cfpId →
    bid.2.taskId = cfp.2.taskId ∧
      ∃ username, CfpOf username cfp ∧
        bid.1 =
          bidKey username bid.2.taskId bid.2.bidderId bid.2.bidId

/-- The call has room for its bids, which are by different bidders. -/
structure Bounded (store : CnpStore) (cfp : CallForProposal) : Prop where
  limited : ∃ maxBids, cfp.maxBids = some maxBids ∧ 0 < maxBids ∧
    ((store.bidsOn cfp.cfpId).length : Int) ≤ maxBids
  distinct :
    ((store.bidsOn cfp.cfpId).map BlueprintBid.bidderId).Nodup

/-- A stored bid: its ids were drawn, and its bidder has a name. -/
structure DrawnBid
    (uuid : UuidSource) (store : CnpStore)
    (row : String × BlueprintBid) : Prop where
  key : ∃ username, ∃ index < store.drawn,
    row.1 = bidKey username row.2.taskId row.2.bidderId (uuid.id index)
  cfp : ∃ index < store.drawn, row.2.cfpId = some (uuid.id index)
  named : row.2.bidderId ≠ ""

structure CfpInvariant (uuid : UuidSource) (store : CnpStore) : Prop where
  keyed : ∀ row ∈ store.cfps.entries, ∃ username, CfpOf username row
  drawn : ∀ row ∈ store.cfps.entries,
    ∃ index < store.drawn, row.2.cfpId = uuid.id index
  once : ∀ first ∈ store.cfps.entries, ∀ second ∈ store.cfps.entries,
    first.2.cfpId = second.2.cfpId → first.1 = second.1
  ordered : store.cfps.entries.Pairwise Precedes
  bounded : ∀ row ∈ store.cfps.entries, Bounded store row.2
  drawnBids : ∀ row ∈ store.bids.entries, DrawnBid uuid store row
  placed : ∀ bid ∈ store.bids.entries, ∀ cfp ∈ store.cfps.entries,
    PlacedOn bid cfp

theorem CfpInvariant.empty (uuid : UuidSource) :
    CfpInvariant uuid {} where
  keyed _ member := absurd member List.not_mem_nil
  drawn _ member := absurd member List.not_mem_nil
  once _ member := absurd member List.not_mem_nil
  ordered := List.Pairwise.nil
  bounded _ member := absurd member List.not_mem_nil
  drawnBids _ member := absurd member List.not_mem_nil
  placed _ member := absurd member List.not_mem_nil

namespace CfpInvariant

variable {uuid : UuidSource} {store : CnpStore}

theorem pairwise_cfpsOf
    (invariant : CfpInvariant uuid store) (username taskId : String) :
    (store.cfpsOf username taskId).Pairwise fun first second =>
      first.round < second.round ∧ first.status ≠ "open" := by
  unfold CnpStore.cfpsOf
  rw [List.pairwise_map, List.pairwise_filter]
  apply invariant.ordered.imp
  intro first second precedes isFirst isSecond
  rw [Bool.and_eq_true, decide_eq_true_eq, decide_eq_true_eq]
    at isFirst isSecond
  exact
    precedes username isFirst.1 isSecond.1
      (isFirst.2.trans isSecond.2.symm)

theorem lifecycle (invariant : CfpInvariant uuid store) :
    CfpLifecycle store where
  oneOpen := by
    intro username taskId
    have notBefore :
        ((store.cfpsOf username taskId).filter fun cfp =>
          decide (cfp.status = "open")).Pairwise fun _ _ => False := by
      rw [List.pairwise_filter]
      apply (invariant.pairwise_cfpsOf username taskId).imp
      intro first second follows isOpen _
      exact follows.2 (of_decide_eq_true isOpen)
    generalize
      ((store.cfpsOf username taskId).filter fun cfp =>
        decide (cfp.status = "open")) = opened at notBefore
    cases notBefore with
    | nil =>
        exact Nat.zero_le 1
    | @cons first rest none _ =>
        cases rest with
        | nil =>
            exact le_refl 1
        | cons second others =>
            exact (none second List.mem_cons_self).elim
  roundsIncrease := by
    intro username taskId
    exact
      (invariant.pairwise_cfpsOf username taskId).imp fun follows =>
        follows.1
  withinMaxBids := by
    intro cfp member maxBids isMax
    obtain ⟨row, isRow, rfl⟩ := List.mem_map.mp member
    obtain ⟨limit, isLimit, _, within⟩ :=
      (invariant.bounded row isRow).limited
    rw [isMax] at isLimit
    obtain rfl := Option.some.inj isLimit
    exact within
  oneBidEach := by
    intro cfp member
    obtain ⟨row, isRow, rfl⟩ := List.mem_map.mp member
    exact (invariant.bounded row isRow).distinct

/-- A call is stored once. -/
theorem row_unique
    (invariant : CfpInvariant uuid store) {first second : CfpRow}
    (isFirst : first ∈ store.cfps.entries)
    (isSecond : second ∈ store.cfps.entries)
    (same : first.2.cfpId = second.2.cfpId) :
    first = second := by
  have sameKey := invariant.once first isFirst second isSecond same
  have found := OrderedMap.get?_of_mem isFirst
  rw [sameKey, OrderedMap.get?_of_mem isSecond] at found
  exact Prod.ext sameKey (Option.some.inj found).symm

/-- Two open calls of a user on one task are one. -/
theorem open_unique
    (invariant : CfpInvariant uuid store) {username : String}
    {first second : CfpRow}
    (isFirst : first ∈ store.cfps.entries)
    (isSecond : second ∈ store.cfps.entries)
    (ofFirst : CfpOf username first) (ofSecond : CfpOf username second)
    (sameTask : first.2.taskId = second.2.taskId)
    (firstOpen : first.2.status = "open")
    (secondOpen : second.2.status = "open") :
    first = second := by
  have apart :
      store.cfps.entries.Pairwise fun one other =>
        ¬ ((one = first ∧ other = second) ∨
          (one = second ∧ other = first)) := by
    apply invariant.ordered.imp
    rintro one other precedes (⟨rfl, rfl⟩ | ⟨rfl, rfl⟩)
    · exact (precedes username ofFirst ofSecond sameTask).2 firstOpen
    · exact
        (precedes username ofSecond ofFirst sameTask.symm).2 secondOpen
  have symmetric :
      Std.Symm fun one other : CfpRow =>
        ¬ ((one = first ∧ other = second) ∨
          (one = second ∧ other = first)) :=
    ⟨fun _ _ unlike like => unlike (like.symm.imp And.symm And.symm)⟩
  by_contra different
  exact
    apart.forall isFirst isSecond different (Or.inl ⟨rfl, rfl⟩)

/-! ## What other writes leave -/

/-- Other documents may change, and ids may be drawn. -/
theorem keep
    (invariant : CfpInvariant uuid store) {other : CnpStore}
    (cfps : other.cfps = store.cfps) (bids : other.bids = store.bids)
    (later : store.drawn ≤ other.drawn) :
    CfpInvariant uuid other where
  keyed := cfps ▸ invariant.keyed
  drawn := by
    intro row member
    rw [cfps] at member
    obtain ⟨index, below, isId⟩ := invariant.drawn row member
    exact ⟨index, below.trans_le later, isId⟩
  once := cfps ▸ invariant.once
  ordered := cfps ▸ invariant.ordered
  bounded := by
    intro row member
    rw [cfps] at member
    have bounded := invariant.bounded row member
    have sameBids (cfpId : String) :
        other.bidsOn cfpId = store.bidsOn cfpId := by
      unfold CnpStore.bidsOn
      rw [bids]
    constructor
    · rw [sameBids]
      exact bounded.limited
    · rw [sameBids]
      exact bounded.distinct
  drawnBids := by
    intro row member
    rw [bids] at member
    have drawnBid := invariant.drawnBids row member
    constructor
    · obtain ⟨username, index, below, isKey⟩ := drawnBid.key
      exact ⟨username, index, below.trans_le later, isKey⟩
    · obtain ⟨index, below, isId⟩ := drawnBid.cfp
      exact ⟨index, below.trans_le later, isId⟩
    · exact drawnBid.named
  placed := by
    intro bid isBid cfp isCfp
    rw [bids] at isBid
    rw [cfps] at isCfp
    exact invariant.placed bid isBid cfp isCfp

/-- A bid may expire. -/
theorem eraseBid
    (invariant : CfpInvariant uuid store) (key : String) :
    CfpInvariant uuid { store with bids := store.bids.erase key } := by
  have fewer (cfpId : String) :
      (CnpStore.bidsOn { store with bids := store.bids.erase key }
        cfpId).Sublist (store.bidsOn cfpId) :=
    (List.filter_sublist.map Prod.snd).filter _
  constructor
  · exact invariant.keyed
  · exact invariant.drawn
  · exact invariant.once
  · exact invariant.ordered
  · intro row member
    have bounded := invariant.bounded row member
    constructor
    · obtain ⟨maxBids, isMax, positive, within⟩ := bounded.limited
      have shorter := (fewer row.2.cfpId).length_le
      exact ⟨maxBids, isMax, positive, by omega⟩
    · exact
        ((fewer row.2.cfpId).map BlueprintBid.bidderId).nodup
          bounded.distinct
  · intro row member
    have drawnBid :=
      invariant.drawnBids row (List.mem_filter.mp member).1
    exact ⟨drawnBid.key, drawnBid.cfp, drawnBid.named⟩
  · intro bid isBid
    exact invariant.placed bid (List.mem_filter.mp isBid).1

end CfpInvariant

/-- What a write of a call must not change. -/
structure SameCall (first second : CallForProposal) : Prop where
  cfpId : second.cfpId = first.cfpId
  taskId : second.taskId = first.taskId
  round : second.round = first.round
  maxBids : second.maxBids = first.maxBids

/-- The call is stored for the user, possibly in another state. -/
def StoredFor
    (store : CnpStore) (username : String) (cfp : CallForProposal) :
    Prop :=
  ∃ current,
    store.cfps.get? (cfpKey username cfp.taskId cfp.cfpId) =
        some current ∧
      SameCall current cfp

theorem StoredFor.of_mem
    {store : CnpStore} {username : String} {row : CfpRow}
    (member : row ∈ store.cfps.entries) (own : CfpOf username row) :
    StoredFor store username row.2 := by
  refine ⟨row.2, ?_, ⟨rfl, rfl, rfl, rfl⟩⟩
  apply OrderedMap.get?_of_mem
  rw [← own]
  exact member

/-- A row before and after a call was closed. -/
structure RowUpdate (before after : CfpRow) : Prop where
  key : after.1 = before.1
  same : SameCall before.2 after.2
  closed : before.2.status ≠ "open" → after.2.status ≠ "open"

section Closing

variable {store : CnpStore} {username : String}
variable {cfp : CallForProposal}

/-- Closing a stored call updates its row and leaves the others. -/
theorem addCfp_entries
    (stored : StoredFor store username cfp)
    (notOpen : cfp.status ≠ "open") :
    ∃ update : CfpRow → CfpRow,
      (store.addCfp username cfp).cfps.entries =
          store.cfps.entries.map update ∧
        (∀ row ∈ store.cfps.entries, RowUpdate row (update row)) ∧
        ∀ row,
          row.1 = cfpKey username cfp.taskId cfp.cfpId ∧
              (update row).2 = cfp ∨
            row.1 ≠ cfpKey username cfp.taskId cfp.cfpId ∧
              update row = row := by
  obtain ⟨current, isCurrent, same⟩ := stored
  refine
    ⟨fun row =>
      if row.1 = cfpKey username cfp.taskId cfp.cfpId then
        (cfpKey username cfp.taskId cfp.cfpId, cfp)
      else row, ?_, ?_, ?_⟩
  · exact
      OrderedMap.entries_set_of_present _ _ _
        (Option.isSome_iff_exists.mpr ⟨current, isCurrent⟩)
  · intro row member
    by_cases here : row.1 = cfpKey username cfp.taskId cfp.cfpId
    · have isRow : row.2 = current := by
        have found := OrderedMap.get?_of_mem member
        rw [here, isCurrent] at found
        exact (Option.some.inj found).symm
      dsimp only
      rw [if_pos here]
      exact ⟨here.symm, isRow ▸ same, fun _ => notOpen⟩
    · dsimp only
      rw [if_neg here]
      exact ⟨rfl, ⟨rfl, rfl, rfl, rfl⟩, id⟩
  · intro row
    by_cases here : row.1 = cfpKey username cfp.taskId cfp.cfpId
    · exact Or.inl ⟨here, by dsimp only; rw [if_pos here]⟩
    · exact Or.inr ⟨here, if_neg here⟩

theorem RowUpdate.cfpOf
    {before after : CfpRow} (update : RowUpdate before after)
    (username : String) :
    CfpOf username after ↔ CfpOf username before := by
  unfold CfpOf
  rw [update.key, update.same.taskId, update.same.cfpId]

theorem CfpInvariant.close
    {uuid : UuidSource} (invariant : CfpInvariant uuid store)
    (stored : StoredFor store username cfp)
    (notOpen : cfp.status ≠ "open") :
    CfpInvariant uuid (store.addCfp username cfp) := by
  obtain ⟨update, entries, updates, _⟩ := addCfp_entries stored notOpen
  constructor
  · intro row member
    rw [entries] at member
    obtain ⟨before, isBefore, rfl⟩ := List.mem_map.mp member
    obtain ⟨owner, own⟩ := invariant.keyed before isBefore
    exact ⟨owner, ((updates before isBefore).cfpOf owner).mpr own⟩
  · intro row member
    rw [entries] at member
    obtain ⟨before, isBefore, rfl⟩ := List.mem_map.mp member
    rw [(updates before isBefore).same.cfpId]
    exact invariant.drawn before isBefore
  · intro first isFirst second isSecond same
    rw [entries] at isFirst isSecond
    obtain ⟨one, isOne, rfl⟩ := List.mem_map.mp isFirst
    obtain ⟨other, isOther, rfl⟩ := List.mem_map.mp isSecond
    rw [(updates one isOne).same.cfpId,
      (updates other isOther).same.cfpId] at same
    rw [(updates one isOne).key, (updates other isOther).key]
    exact invariant.once one isOne other isOther same
  · rw [entries, List.pairwise_map]
    apply invariant.ordered.imp_of_mem
    intro first second isFirst isSecond precedes owner ofFirst ofSecond
    have atFirst := updates first isFirst
    have atSecond := updates second isSecond
    rw [atFirst.same.taskId, atSecond.same.taskId, atFirst.same.round,
      atSecond.same.round]
    intro sameTask
    have before :=
      precedes owner ((atFirst.cfpOf owner).mp ofFirst)
        ((atSecond.cfpOf owner).mp ofSecond) sameTask
    exact ⟨before.1, atFirst.closed before.2⟩
  · intro row member
    rw [entries] at member
    obtain ⟨before, isBefore, rfl⟩ := List.mem_map.mp member
    have bounded := invariant.bounded before isBefore
    have atRow := (updates before isBefore).same
    constructor
    · rw [atRow.maxBids, atRow.cfpId]
      exact bounded.limited
    · rw [atRow.cfpId]
      exact bounded.distinct
  · intro row member
    have drawnBid := invariant.drawnBids row member
    exact ⟨drawnBid.key, drawnBid.cfp, drawnBid.named⟩
  · intro bid isBid row member
    rw [entries] at member
    obtain ⟨before, isBefore, rfl⟩ := List.mem_map.mp member
    have atRow := updates before isBefore
    intro onIt
    rw [atRow.same.cfpId] at onIt
    obtain ⟨sameTask, owner, own, isKey⟩ :=
      invariant.placed bid isBid before isBefore onIt
    rw [atRow.same.taskId]
    exact ⟨sameTask, owner, (atRow.cfpOf owner).mpr own, isKey⟩

/-- A stored call is still stored after another one was closed. -/
theorem StoredFor.addCfp
    {other : CallForProposal}
    (stored : StoredFor store username other)
    (closing : StoredFor store username cfp) :
    StoredFor (store.addCfp username cfp) username other := by
  obtain ⟨current, isCurrent, same⟩ := stored
  obtain ⟨closed, isClosed, sameClosed⟩ := closing
  unfold StoredFor CnpStore.addCfp
  by_cases here :
      cfpKey username other.taskId other.cfpId =
        cfpKey username cfp.taskId cfp.cfpId
  · rw [here] at isCurrent
    rw [isClosed] at isCurrent
    obtain rfl := Option.some.inj isCurrent
    refine ⟨cfp, ?_, ?_⟩
    · rw [here]
      exact OrderedMap.get?_set_self _ _ _
    · exact
        ⟨same.cfpId.trans sameClosed.cfpId.symm,
          same.taskId.trans sameClosed.taskId.symm,
          same.round.trans sameClosed.round.symm,
          same.maxBids.trans sameClosed.maxBids.symm⟩
  · exact ⟨current, by rwa [OrderedMap.get?_set_other _ _ here], same⟩

end Closing

/-! ## Opening a call -/

section Opening

variable {uuid : UuidSource} {store : CnpStore}

theorem CfpInvariant.bidsOn_next
    (invariant : CfpInvariant uuid store) :
    store.bidsOn (uuid.id store.drawn) = [] := by
  unfold CnpStore.bidsOn
  rw [List.filter_eq_nil_iff]
  intro bid member isOn
  rw [decide_eq_true_eq] at isOn
  obtain ⟨row, isRow, rfl⟩ := List.mem_map.mp member
  obtain ⟨index, below, isId⟩ := (invariant.drawnBids row isRow).cfp
  rw [isOn] at isId
  have same := uuid.id_injective (Option.some.inj isId)
  omega

theorem CfpInvariant.open
    (invariant : CfpInvariant uuid store)
    {username : String} {cfp : CallForProposal}
    (isNext : cfp.cfpId = uuid.id store.drawn)
    {maxBids : Int} (isMax : cfp.maxBids = some maxBids)
    (positive : 0 < maxBids)
    (last : ∀ row ∈ store.cfps.entries, CfpOf username row →
      row.2.taskId = cfp.taskId →
        row.2.round < cfp.round ∧ row.2.status ≠ "open") :
    CfpInvariant uuid ((store.drawIds 1).addCfp username cfp) := by
  have newId : ∀ row ∈ store.cfps.entries, row.2.cfpId ≠ cfp.cfpId := by
    intro row member same
    obtain ⟨index, below, isId⟩ := invariant.drawn row member
    rw [isNext, isId] at same
    have equal := uuid.id_injective same
    omega
  have absent :
      store.cfps.get? (cfpKey username cfp.taskId cfp.cfpId) = none := by
    cases found :
        store.cfps.get? (cfpKey username cfp.taskId cfp.cfpId) with
    | none =>
        rfl
    | some current =>
        have member := OrderedMap.mem_of_get? found
        obtain ⟨owner, own⟩ := invariant.keyed _ member
        obtain ⟨index, below, isId⟩ := invariant.drawn _ member
        unfold CfpOf at own
        dsimp only at own isId
        rw [isNext, isId] at own
        have equal := cfpKey_id uuid own
        omega
  have entries :
      ((store.drawIds 1).addCfp username cfp).cfps.entries =
        store.cfps.entries ++
          [(cfpKey username cfp.taskId cfp.cfpId, cfp)] :=
    OrderedMap.entries_set_of_absent _ _ _ absent
  have isRow {row : CfpRow}
      (member : row ∈
        ((store.drawIds 1).addCfp username cfp).cfps.entries) :
      row ∈ store.cfps.entries ∨
        row = (cfpKey username cfp.taskId cfp.cfpId, cfp) := by
    rw [entries] at member
    exact (List.mem_append.mp member).imp_right List.mem_singleton.mp
  constructor
  · intro row member
    rcases isRow member with old | rfl
    · exact invariant.keyed row old
    · exact ⟨username, rfl⟩
  · intro row member
    rcases isRow member with old | rfl
    · obtain ⟨index, below, isId⟩ := invariant.drawn row old
      exact ⟨index, Nat.lt_succ_of_lt below, isId⟩
    · exact ⟨store.drawn, Nat.lt_succ_self _, isNext⟩
  · intro first isFirst second isSecond same
    rcases isRow isFirst with oldFirst | rfl
    · rcases isRow isSecond with oldSecond | rfl
      · exact invariant.once first oldFirst second oldSecond same
      · exact absurd same (newId first oldFirst)
    · rcases isRow isSecond with oldSecond | rfl
      · exact absurd same.symm (newId second oldSecond)
      · rfl
  · rw [entries, List.pairwise_append]
    refine ⟨invariant.ordered, List.pairwise_singleton _ _, ?_⟩
    intro row member new isNew owner ofRow ofNew sameTask
    obtain rfl := List.mem_singleton.mp isNew
    obtain rfl := cfpKey_user ofNew
    exact last row member ofRow sameTask
  · intro row member
    rcases isRow member with old | rfl
    · exact
        ⟨(invariant.bounded row old).limited,
          (invariant.bounded row old).distinct⟩
    · have none :
          CnpStore.bidsOn ((store.drawIds 1).addCfp username cfp)
            cfp.cfpId = [] := by
        rw [isNext]
        exact invariant.bidsOn_next
      constructor
      · dsimp only
        rw [none]
        exact ⟨maxBids, isMax, positive, positive.le⟩
      · dsimp only
        rw [none]
        exact List.nodup_nil
  · intro row member
    have drawnBid := invariant.drawnBids row member
    constructor
    · obtain ⟨owner, index, below, isKey⟩ := drawnBid.key
      exact ⟨owner, index, Nat.lt_succ_of_lt below, isKey⟩
    · obtain ⟨index, below, isId⟩ := drawnBid.cfp
      exact ⟨index, Nat.lt_succ_of_lt below, isId⟩
    · exact drawnBid.named
  · intro bid isBid row member
    rcases isRow member with old | rfl
    · exact invariant.placed bid isBid row old
    · intro onIt
      obtain ⟨index, below, isId⟩ := (invariant.drawnBids bid isBid).cfp
      dsimp only at onIt
      rw [onIt, isNext] at isId
      have equal := uuid.id_injective (Option.some.inj isId)
      omega

theorem CfpInvariant.bids_addBid
    (invariant : CfpInvariant uuid store) (username : String)
    {bid : BlueprintBid} (isNext : bid.bidId = uuid.id store.drawn) :
    ((store.drawIds 1).addBid username bid).bids.entries =
      store.bids.entries ++
        [(bidKey username bid.taskId bid.bidderId bid.bidId, bid)] := by
  apply OrderedMap.entries_set_of_absent
  change
    store.bids.get?
      (bidKey username bid.taskId bid.bidderId bid.bidId) = none
  cases found :
      store.bids.get?
        (bidKey username bid.taskId bid.bidderId bid.bidId) with
  | none =>
      rfl
  | some current =>
      have member := OrderedMap.mem_of_get? found
      obtain ⟨owner, index, below, isKey⟩ :=
        (invariant.drawnBids _ member).key
      dsimp only at isKey
      rw [isNext] at isKey
      have equal := bidKey_id uuid isKey
      omega

theorem CfpInvariant.bidsOn_addBid
    (invariant : CfpInvariant uuid store) (username : String)
    {bid : BlueprintBid} (isNext : bid.bidId = uuid.id store.drawn)
    {target : String} (onTarget : bid.cfpId = some target)
    (cfpId : String) :
    ((store.drawIds 1).addBid username bid).bidsOn cfpId =
      store.bidsOn cfpId ++ if target = cfpId then [bid] else [] := by
  unfold CnpStore.bidsOn OrderedMap.values
  rw [invariant.bids_addBid username isNext, List.map_append,
    List.filter_append, List.map_singleton]
  congr 1
  by_cases here : target = cfpId
  · simp [here, onTarget]
  · simp [here, onTarget]

theorem CfpInvariant.bid
    (invariant : CfpInvariant uuid store)
    {username : String} {row : CfpRow} {bid : BlueprintBid}
    (isRow : row ∈ store.cfps.entries) (own : CfpOf username row)
    (isNext : bid.bidId = uuid.id store.drawn)
    (onRow : bid.cfpId = some row.2.cfpId)
    (sameTask : bid.taskId = row.2.taskId)
    (named : bid.bidderId ≠ "")
    (newBidder : bid.bidderId ∉
      (store.bidsOn row.2.cfpId).map BlueprintBid.bidderId)
    (room : ∀ maxBids, row.2.maxBids = some maxBids →
      ((store.bidsOn row.2.cfpId).length : Int) < maxBids) :
    CfpInvariant uuid ((store.drawIds 1).addBid username bid) := by
  have entries := invariant.bids_addBid username isNext
  have bidsOn := invariant.bidsOn_addBid username isNext onRow
  constructor
  · exact invariant.keyed
  · intro other member
    obtain ⟨index, below, isId⟩ := invariant.drawn other member
    exact ⟨index, Nat.lt_succ_of_lt below, isId⟩
  · exact invariant.once
  · exact invariant.ordered
  · intro other member
    have bounded := invariant.bounded other member
    by_cases here : row.2.cfpId = other.2.cfpId
    · obtain rfl := invariant.row_unique isRow member here
      constructor
      · obtain ⟨maxBids, isMax, positive, _⟩ := bounded.limited
        have below := room maxBids isMax
        refine ⟨maxBids, isMax, positive, ?_⟩
        rw [bidsOn, if_pos rfl, List.length_append,
          List.length_singleton]
        omega
      · rw [bidsOn, if_pos rfl, List.map_append, List.map_singleton,
          List.nodup_append]
        refine ⟨bounded.distinct, List.nodup_singleton _, ?_⟩
        rintro bidder isBidder new isNew rfl
        rw [List.mem_singleton.mp isNew] at isBidder
        exact newBidder isBidder
    · constructor
      · rw [bidsOn, if_neg here, List.append_nil]
        exact bounded.limited
      · rw [bidsOn, if_neg here, List.append_nil]
        exact bounded.distinct
  · intro other member
    rw [entries] at member
    rcases List.mem_append.mp member with old | new
    · have drawnBid := invariant.drawnBids other old
      constructor
      · obtain ⟨owner, index, below, isKey⟩ := drawnBid.key
        exact ⟨owner, index, Nat.lt_succ_of_lt below, isKey⟩
      · obtain ⟨index, below, isId⟩ := drawnBid.cfp
        exact ⟨index, Nat.lt_succ_of_lt below, isId⟩
      · exact drawnBid.named
    · obtain rfl := List.mem_singleton.mp new
      constructor
      · refine ⟨username, store.drawn, Nat.lt_succ_self _, ?_⟩
        dsimp only
        rw [isNext]
      · obtain ⟨index, below, isId⟩ := invariant.drawn row isRow
        exact
          ⟨index, Nat.lt_succ_of_lt below, onRow.trans (congrArg some isId)⟩
      · exact named
  · intro other isBid cfp isCfp
    rw [entries] at isBid
    rcases List.mem_append.mp isBid with old | new
    · exact invariant.placed other old cfp isCfp
    · obtain rfl := List.mem_singleton.mp new
      intro onIt
      dsimp only at onIt ⊢
      rw [onRow] at onIt
      obtain rfl :=
        invariant.row_unique isRow isCfp (Option.some.inj onIt)
      exact ⟨sameTask, username, own, rfl⟩

end Opening

end Agentcy.Cnp
