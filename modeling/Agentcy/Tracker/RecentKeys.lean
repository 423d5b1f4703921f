import Agentcy.Library.Recency
import Agentcy.Library.TimedRun
import Agentcy.Tracker.LRUSet
import Mathlib.Tactic.Linarith

/-!
# Which keys the tracker's set finds

The entries are the end of the list of all keys by their latest touch.  What
is missing at its front was touched too long ago, or as many other keys as the
set holds were touched after it.
-/

namespace Agentcy.Tracker

open Agentcy.Library

universe u

variable {κ : Type u}

inductive SetCall (κ : Type u) where
  | add (key : κ)
  | contains (key : κ)

/-- A call as it was made.  `found` is what `contains` returned. -/
structure SetEvent (κ : Type u) where
  time : ℚ
  call : SetCall κ
  found : Bool

/-- A key is touched when it is added or found. -/
def SetEvent.touch? (event : SetEvent κ) : Option (κ × ℚ) :=
  match event.call with
  | .add key => some (key, event.time)
  | .contains key => if event.found then some (key, event.time) else none

def touchesOf (events : List (SetEvent κ)) : List (κ × ℚ) :=
  events.filterMap SetEvent.touch?

/-- A touch in the record, and the touches after it. -/
theorem exists_event_of_touches
    {events : List (SetEvent κ)} {before after : List (κ × ℚ)} {key : κ}
    {time : ℚ} (split : touchesOf events = before ++ (key, time) :: after) :
    ∃ earlier event later, events = earlier ++ event :: later ∧
      event.touch? = some (key, time) ∧ touchesOf later = after := by
  obtain ⟨first, second, rfl, _, ofSecond⟩ :=
    List.filterMap_eq_append_iff.mp split
  obtain ⟨silent, event, later, rfl, _, touches, ofLater⟩ :=
    List.filterMap_eq_cons_iff.mp ofSecond
  exact
    ⟨first ++ silent, event, later, by rw [List.append_assoc], touches,
      ofLater⟩

theorem touch?_time
    {event : SetEvent κ} {key : κ} {time : ℚ}
    (touches : event.touch? = some (key, time)) : event.time = time := by
  unfold SetEvent.touch? at touches
  split at touches
  · exact (Prod.mk.inj (Option.some.inj touches)).2
  · split at touches
    · exact (Prod.mk.inj (Option.some.inj touches)).2
    · cases touches

namespace LRUSet

/-- The entries are in the order of their time stamps. -/
def StampsOrdered (items : LRUSet κ) : Prop :=
  (items.data.entries.map Prod.snd).Pairwise (· ≤ ·)

def WithinMax (items : LRUSet κ) : Prop :=
  items.data.entries.length ≤ items.maxItems

theorem entries_purgeExpired
    {items : LRUSet κ} (limited : 0 < items.ttlSeconds) (now : ℚ) :
    (items.purgeExpired now).data.entries =
      items.data.entries.dropWhile fun entry =>
        items.isExpired now entry.2 := by
  rw [purgeExpired, if_neg (not_le.mpr limited)]

theorem withinMax_purgeExpired
    {items : LRUSet κ} (within : items.WithinMax)
    (limited : 0 < items.ttlSeconds) (now : ℚ) :
    (items.purgeExpired now).WithinMax := by
  rw [WithinMax, entries_purgeExpired limited, purgeExpired_maxItems]
  exact (List.dropWhile_sublist _).length_le.trans within

theorem withinMax_evict (items : LRUSet κ) : items.evict.WithinMax := by
  rw [WithinMax, evict]
  dsimp only
  rw [List.length_drop]
  omega

/-- After a purge no stamp is too old. -/
theorem alive_of_mem_purgeExpired
    {items : LRUSet κ} (ordered : items.StampsOrdered)
    (limited : 0 < items.ttlSeconds) {now : ℚ} {entry : κ × ℚ}
    (member : entry ∈ (items.purgeExpired now).data.entries) :
    now - entry.2 ≤ items.ttlSeconds := by
  rw [entries_purgeExpired limited] at member
  have older : items.data.entries.Pairwise fun first second =>
      items.isExpired now second.2 = true →
        items.isExpired now first.2 = true := by
    refine (List.pairwise_map.mp ordered).imp fun {first second} le => ?_
    intro late
    have secondLate : items.ttlSeconds < now - second.2 :=
      of_decide_eq_true late
    exact decide_eq_true
      (lt_of_lt_of_le secondLate (sub_le_sub_left le now))
  have alive := not_of_mem_dropWhile older member
  exact not_lt.mp (of_decide_eq_false alive)

variable [DecidableEq κ]

def perform (items : LRUSet κ) (timed : ℚ × SetCall κ) :
    LRUSet κ × SetEvent κ :=
  match timed.2 with
  | .add key => (items.add key timed.1, ⟨timed.1, timed.2, false⟩)
  | .contains key =>
      let result := items.contains key timed.1
      (result.2, ⟨timed.1, timed.2, result.1⟩)

/-- The set and all that happened to it. -/
def record
    (recorded : LRUSet κ × List (SetEvent κ)) (timed : ℚ × SetCall κ) :
    LRUSet κ × List (SetEvent κ) :=
  let result := recorded.1.perform timed
  (result.1, recorded.2 ++ [result.2])

def afterCalls
    (maxItems : Nat) (ttlSeconds : ℚ) (calls : List (ℚ × SetCall κ)) :
    LRUSet κ × List (SetEvent κ) :=
  run record (⟨maxItems, ttlSeconds, .empty⟩, []) calls

def Expired (ttlSeconds now : ℚ) (entry : κ × ℚ) : Prop :=
  ttlSeconds < now - entry.2

/-- The set holds the end of the recency list of the touches. -/
structure Remembers
    (now : ℚ) (items : LRUSet κ) (touches : List (κ × ℚ)) : Prop where
  gone : ∃ gone, latest touches = gone ++ items.data.entries ∧
    Forgotten items.maxItems (Expired items.ttlSeconds now)
      items.data.entries gone
  ordered : (touches.map Prod.snd).Pairwise (· ≤ ·)
  past : ∀ touch ∈ touches, touch.2 ≤ now

theorem Remembers.stampsOrdered
    {now : ℚ} {items : LRUSet κ} {touches : List (κ × ℚ)}
    (remembers : items.Remembers now touches) : items.StampsOrdered := by
  obtain ⟨gone, whole, _⟩ := remembers.gone
  have held : items.data.entries.Sublist (latest touches) := by
    rw [whole]
    exact List.sublist_append_right _ _
  exact remembers.ordered.sublist
    ((held.trans (latest_sublist touches)).map Prod.snd)

theorem remembers_empty (maxItems : Nat) (ttlSeconds now : ℚ) :
    (⟨maxItems, ttlSeconds, .empty⟩ : LRUSet κ).Remembers now [] where
  gone := ⟨[], rfl, trivial⟩
  ordered := List.Pairwise.nil
  past := fun _ member => absurd member List.not_mem_nil

theorem entries_touch (items : LRUSet κ) (key : κ) (now : ℚ) :
    (items.touch key now).data.entries =
      others key items.data.entries ++ [(key, now)] :=
  OrderedMap.entries_set_of_absent _ key now
    (OrderedMap.get?_erase_self _ key)

theorem Remembers.mono
    {now later : ℚ} {items : LRUSet κ} {touches : List (κ × ℚ)}
    (remembers : items.Remembers now touches) (passes : now ≤ later) :
    items.Remembers later touches where
  gone := by
    obtain ⟨gone, whole, forgotten⟩ := remembers.gone
    refine ⟨gone, whole, forgotten.mono fun entry stale => ?_⟩
    exact lt_of_lt_of_le stale (sub_le_sub_right passes entry.2)
  ordered := remembers.ordered
  past := fun touch member => (remembers.past touch member).trans passes

theorem Remembers.purged
    {now : ℚ} {items : LRUSet κ} {touches : List (κ × ℚ)}
    (remembers : items.Remembers now touches)
    (limited : 0 < items.ttlSeconds) :
    (items.purgeExpired now).Remembers now touches where
  gone := by
    obtain ⟨gone, whole, forgotten⟩ := remembers.gone
    let drops := fun entry : κ × ℚ => items.isExpired now entry.2
    have parts :
        items.data.entries.takeWhile drops ++
          items.data.entries.dropWhile drops = items.data.entries :=
      List.takeWhile_append_dropWhile
    refine ⟨gone ++ items.data.entries.takeWhile drops, ?_, ?_⟩
    · rw [entries_purgeExpired limited, List.append_assoc, parts, whole]
    · rw [purgeExpired_maxItems, purgeExpired_ttlSeconds,
        entries_purgeExpired limited, forgotten_append, parts]
      refine ⟨forgotten, forgotten_of_stale fun entry member => ?_⟩
      have drop : drops entry = true := List.mem_takeWhile_imp member
      have late : items.ttlSeconds < now - entry.2 :=
        of_decide_eq_true drop
      exact late
  ordered := remembers.ordered
  past := remembers.past

theorem Remembers.touched
    {now : ℚ} {items : LRUSet κ} {touches : List (κ × ℚ)}
    (remembers : items.Remembers now touches) (key : κ) :
    (items.touch key now).Remembers now (touches ++ [(key, now)]) where
  gone := by
    obtain ⟨gone, whole, forgotten⟩ := remembers.gone
    have distinct : ((gone ++ items.data.entries).map Prod.fst).Nodup := by
      rw [← whole]
      exact nodup_keys_latest touches
    refine ⟨others key gone, ?_, ?_⟩
    · rw [latest_concat, whole, others_append, entries_touch,
        List.append_assoc]
    · rw [entries_touch]
      exact forgotten.touch distinct key now
  ordered := by
    rw [List.map_append, List.pairwise_append]
    refine ⟨remembers.ordered, List.pairwise_singleton _ _, ?_⟩
    intro earlier member last isLast
    obtain ⟨touch, inTouches, rfl⟩ := List.mem_map.mp member
    obtain rfl := List.mem_singleton.mp isLast
    exact remembers.past touch inTouches
  past := by
    intro touch member
    rcases List.mem_append.mp member with old | new
    · exact remembers.past touch old
    · obtain rfl := List.mem_singleton.mp new
      exact le_rfl

theorem Remembers.evicted
    {now : ℚ} {items : LRUSet κ} {touches : List (κ × ℚ)}
    (remembers : items.Remembers now touches) :
    items.evict.Remembers now touches where
  gone := by
    obtain ⟨gone, whole, forgotten⟩ := remembers.gone
    let excess := items.data.entries.length - items.maxItems
    have parts :
        items.data.entries.take excess ++ items.data.entries.drop excess =
          items.data.entries :=
      List.take_append_drop _ _
    refine ⟨gone ++ items.data.entries.take excess, ?_, ?_⟩
    · rw [evict, List.append_assoc, parts, whole]
    · rw [evict, forgotten_append, parts]
      refine ⟨forgotten, ?_⟩
      by_cases full : items.maxItems ≤ items.data.entries.length
      · refine forgotten_of_full ?_
        dsimp only
        rw [List.length_drop]
        omega
      · have none : excess = 0 := Nat.sub_eq_zero_of_le (not_le.mp full).le
        rw [none]
        trivial
  ordered := remembers.ordered
  past := remembers.past

/-! ## A call -/

/-- A key that is in the set leaves room for itself. -/
theorem withinMax_touch
    {items : LRUSet κ} (within : items.WithinMax) {key : κ}
    (inside : items.data.contains key = true) (now : ℚ) :
    (items.touch key now).WithinMax := by
  rw [WithinMax, entries_touch, List.length_append, List.length_singleton]
  refine le_trans (Nat.succ_le_of_lt ?_) within
  rw [OrderedMap.contains, ← OrderedMap.mem_keys_iff] at inside
  obtain ⟨entry, member, isKey⟩ := List.mem_map.mp inside
  exact List.length_filter_lt_length_iff_exists.mpr
    ⟨entry, member, by simp [isKey]⟩

/-- Time, settings and touches that a call leaves behind. -/
theorem Remembers.performed
    {now : ℚ} {items : LRUSet κ} {touches : List (κ × ℚ)}
    (remembers : items.Remembers now touches)
    (limited : 0 < items.ttlSeconds) (within : items.WithinMax)
    {timed : ℚ × SetCall κ} (passes : now ≤ timed.1) :
    (items.perform timed).1.Remembers timed.1
        (touches ++ touchesOf [(items.perform timed).2]) ∧
      (items.perform timed).1.WithinMax := by
  have purged := (remembers.mono passes).purged limited
  have withinPurged := withinMax_purgeExpired within limited timed.1
  obtain ⟨time, call⟩ := timed
  cases call with
  | add key =>
      exact ⟨(purged.touched key).evicted, withinMax_evict _⟩
  | contains key =>
      simp only [perform, contains]
      split
      · rename_i inside
        exact ⟨purged.touched key, withinMax_touch withinPurged inside _⟩
      · refine ⟨?_, withinPurged⟩
        rw [touchesOf, List.filterMap_cons_none rfl, List.filterMap_nil,
          List.append_nil]
        exact purged

theorem contains_fst_iff (items : LRUSet κ) (key : κ) (now : ℚ) :
    (items.contains key now).1 = true ↔
      key ∈ (items.purgeExpired now).data.keys := by
  rw [OrderedMap.mem_keys_iff, contains]
  split
  · rename_i inside
    exact iff_of_true rfl inside
  · rename_i outside
    exact iff_of_false Bool.false_ne_true outside

/-- A key is found if its last touch is not too long ago and fewer other keys
than the set can hold were touched after it. -/
theorem Remembers.found_iff
    {now later : ℚ} {items : LRUSet κ} {touches : List (κ × ℚ)}
    (remembers : items.Remembers now touches)
    (limited : 0 < items.ttlSeconds) (within : items.WithinMax)
    (passes : now ≤ later) (key : κ) :
    (items.contains key later).1 = true ↔
      ∃ before time after, touches = before ++ (key, time) :: after ∧
        key ∉ after.map Prod.fst ∧
        later - time ≤ items.ttlSeconds ∧
        (after.map Prod.fst).toFinset.card < items.maxItems := by
  have purged := (remembers.mono passes).purged limited
  have withinPurged := withinMax_purgeExpired within limited later
  rw [WithinMax, purgeExpired_maxItems] at withinPurged
  obtain ⟨gone, whole, forgotten⟩ := purged.gone
  rw [purgeExpired_maxItems, purgeExpired_ttlSeconds] at forgotten
  rw [contains_fst_iff]
  constructor
  · intro inside
    obtain ⟨⟨_, time⟩, member, rfl⟩ := List.mem_map.mp inside
    have alive :=
      alive_of_mem_purgeExpired remembers.stampsOrdered limited member
    obtain ⟨older, newer, split⟩ := List.append_of_mem member
    rw [split, ← List.append_assoc] at whole
    obtain ⟨before, after, isTouches, last, isNewer⟩ :=
      exists_split_of_latest whole
    refine ⟨before, time, after, isTouches, last, alive, ?_⟩
    rw [← length_latest, ← isNewer]
    rw [split, List.length_append, List.length_cons] at withinPurged
    omega
  · intro touched
    obtain ⟨before, time, after, rfl, last, alive, few⟩ := touched
    obtain ⟨older, split⟩ := latest_split before last
    by_contra missing
    have inGone : (key, time) ∈ gone := by
      have inWhole : (key, time) ∈
          gone ++ (items.purgeExpired later).data.entries := by
        rw [← whole, split]
        exact List.mem_append_right _ List.mem_cons_self
      rcases List.mem_append.mp inWhole with inGone | held
      · exact inGone
      · exact absurd (List.mem_map_of_mem held) missing
    obtain ⟨goneBefore, goneAfter, rfl⟩ := List.append_of_mem inGone
    have distinct : (older ++ (key, time) :: latest after).Nodup := by
      rw [← split]
      exact (nodup_keys_latest _).of_map
    obtain ⟨fresh, _⟩ := List.nodup_cons.mp (List.nodup_middle.mp distinct)
    rw [List.mem_append, not_or] at fresh
    rw [split, List.append_assoc, List.cons_append,
      List.append_cons_inj_of_notMem fresh.1 fresh.2] at whole
    obtain ⟨_, _, isAfter⟩ := whole
    rcases forgotten.entry with stale | full
    · exact absurd alive (not_le.mpr stale)
    · rw [← isAfter, length_latest] at full
      exact absurd few (not_lt.mpr full)

/-- What holds of the set and its record at a time. -/
structure Recorded
    (maxItems : Nat) (ttlSeconds now : ℚ)
    (recorded : LRUSet κ × List (SetEvent κ)) : Prop where
  remembers : recorded.1.Remembers now (touchesOf recorded.2)
  within : recorded.1.WithinMax
  maxItems_eq : recorded.1.maxItems = maxItems
  ttlSeconds_eq : recorded.1.ttlSeconds = ttlSeconds
  past : ∀ event ∈ recorded.2, event.time ≤ now

theorem perform_settings (items : LRUSet κ) (timed : ℚ × SetCall κ) :
    (items.perform timed).1.maxItems = items.maxItems ∧
      (items.perform timed).1.ttlSeconds = items.ttlSeconds := by
  obtain ⟨time, call⟩ := timed
  cases call with
  | add key =>
      exact ⟨purgeExpired_maxItems _ _, purgeExpired_ttlSeconds _ _⟩
  | contains key =>
      simp only [perform, contains]
      split
      · exact ⟨purgeExpired_maxItems _ _, purgeExpired_ttlSeconds _ _⟩
      · exact ⟨purgeExpired_maxItems _ _, purgeExpired_ttlSeconds _ _⟩

theorem perform_time (items : LRUSet κ) (timed : ℚ × SetCall κ) :
    (items.perform timed).2.time = timed.1 := by
  obtain ⟨time, call⟩ := timed
  cases call with
  | add key => rfl
  | contains key => rfl

theorem recorded_afterCalls
    (maxItems : Nat) {ttlSeconds : ℚ} (limited : 0 < ttlSeconds)
    {calls : List (ℚ × SetCall κ)} {now : ℚ}
    (ordered : (calls.map Prod.fst ++ [now]).Pairwise (· ≤ ·)) :
    Recorded maxItems ttlSeconds now
      (afterCalls maxItems ttlSeconds calls) := by
  refine timed_invariant (Recorded maxItems ttlSeconds) ?_ ?_ ?_ ordered
  · intro now recorded timed here passes
    have settings := perform_settings recorded.1 timed
    have positive : 0 < recorded.1.ttlSeconds := by
      rw [here.ttlSeconds_eq]
      exact limited
    obtain ⟨remembers, within⟩ :=
      here.remembers.performed positive here.within passes
    refine ⟨?_, within, settings.1.trans here.maxItems_eq,
      settings.2.trans here.ttlSeconds_eq, ?_⟩
    · rw [record, touchesOf, List.filterMap_append]
      exact remembers
    · intro event member
      rcases List.mem_append.mp member with old | new
      · exact (here.past event old).trans passes
      · obtain rfl := List.mem_singleton.mp new
        exact (perform_time recorded.1 timed).le
  · intro now later recorded here passes
    exact
      ⟨here.remembers.mono passes, here.within, here.maxItems_eq,
        here.ttlSeconds_eq,
        fun event member => (here.past event member).trans passes⟩
  · intro start
    exact
      ⟨remembers_empty maxItems ttlSeconds start, Nat.zero_le _, rfl, rfl,
        fun _ member => absurd member List.not_mem_nil⟩

/-- A touch of the key that is recent enough leads to the last one. -/
theorem exists_last_of_touch
    {touches before after : List (κ × ℚ)} {key : κ} {time : ℚ}
    (ordered : (touches.map Prod.snd).Pairwise (· ≤ ·))
    (split : touches = before ++ (key, time) :: after) :
    ∃ earlier last later, touches = earlier ++ (key, last) :: later ∧
      key ∉ later.map Prod.fst ∧ time ≤ last ∧
      (later.map Prod.fst).toFinset ⊆
        (after.map Prod.fst).toFinset.erase key := by
  by_cases again : key ∈ after.map Prod.fst
  · obtain ⟨between, last, later, rfl, final⟩ := exists_last_touch again
    refine ⟨before ++ (key, time) :: between, last, later, ?_, final, ?_,
      ?_⟩
    · rw [split, List.append_assoc, List.cons_append]
    · rw [split, List.map_append, List.pairwise_append] at ordered
      have follows := (List.pairwise_cons.mp ordered.2.1).1
      exact follows last (by simp)
    · intro other member
      rw [List.mem_toFinset] at member
      rw [Finset.mem_erase, List.mem_toFinset]
      constructor
      · rintro rfl
        exact final member
      · simp [member]
  · refine ⟨before, time, after, split, again, le_rfl, ?_⟩
    intro other member
    rw [Finset.mem_erase]
    refine ⟨?_, member⟩
    rintro rfl
    exact again (List.mem_toFinset.mp member)

/-- After calls at times that never decrease the stamps are in order, the set
keeps within its maximum, and exactly the keys are found that were touched at
most the time-to-live ago, with no purge in between that would have dropped
them and with fewer other keys touched since than the set can hold. -/
theorem found_iff_touched
    {maxItems : Nat} {ttlSeconds : ℚ} (limited : 0 < ttlSeconds)
    {calls : List (ℚ × SetCall κ)} {now : ℚ}
    (ordered : (calls.map Prod.fst ++ [now]).Pairwise (· ≤ ·)) :
    (afterCalls maxItems ttlSeconds calls).1.StampsOrdered ∧
      (afterCalls maxItems ttlSeconds calls).1.data.entries.length ≤
        maxItems ∧
      ∀ key,
        ((afterCalls maxItems ttlSeconds calls).1.contains key now).1 =
            true ↔
          ∃ before event after,
            (afterCalls maxItems ttlSeconds calls).2 =
              before ++ event :: after ∧
            event.touch? = some (key, event.time) ∧
            now - event.time ≤ ttlSeconds ∧
            (∀ later ∈ after, later.time - event.time ≤ ttlSeconds) ∧
            (((touchesOf after).map Prod.fst).toFinset.erase key).card <
              maxItems := by
  have recorded := recorded_afterCalls maxItems limited ordered
  generalize afterCalls maxItems ttlSeconds calls = state at recorded ⊢
  obtain ⟨items, events⟩ := state
  obtain ⟨remembers, within, rfl, rfl, past⟩ := recorded
  refine ⟨remembers.stampsOrdered, within, fun key => ?_⟩
  rw [remembers.found_iff limited within le_rfl]
  constructor
  · intro found
    obtain ⟨before, time, after, split, last, alive, few⟩ := found
    obtain ⟨earlier, event, later, rfl, touches, rfl⟩ :=
      exists_event_of_touches split
    obtain rfl := touch?_time touches
    refine ⟨earlier, event, later, rfl, touches, alive, ?_, ?_⟩
    · intro other member
      have passed : other.time ≤ now := past other (by simp [member])
      exact (sub_le_sub_right passed _).trans alive
    · rw [Finset.erase_eq_of_notMem]
      · exact few
      · rw [List.mem_toFinset]
        exact last
  · intro touched
    obtain ⟨before, event, after, rfl, touches, alive, _, few⟩ := touched
    have split : touchesOf (before ++ event :: after) =
        touchesOf before ++ (key, event.time) :: touchesOf after := by
      rw [touchesOf, List.filterMap_append,
        List.filterMap_cons_some touches]
      rfl
    obtain ⟨earlier, last, later, whole, final, notBefore, fewer⟩ :=
      exists_last_of_touch remembers.ordered split
    exact
      ⟨earlier, last, later, whole, final,
        (sub_le_sub_left notBefore now).trans alive,
        (Finset.card_le_card fewer).trans_lt few⟩

/-- The first key is found once, and again after the second one. -/
def fewCalls : List (ℚ × SetCall String) :=
  [(0, .add "t1:r1"), (4, .contains "t1:r1"), (6, .add "t2:r1")]

theorem few_calls_found_iff :
    (afterCalls 2 5 fewCalls).1.StampsOrdered ∧
      (afterCalls 2 5 fewCalls).1.data.entries.length ≤ 2 ∧
      ∀ key,
        ((afterCalls 2 5 fewCalls).1.contains key 9).1 = true ↔
          ∃ before event after,
            (afterCalls 2 5 fewCalls).2 = before ++ event :: after ∧
            event.touch? = some (key, event.time) ∧
            9 - event.time ≤ 5 ∧
            (∀ later ∈ after, later.time - event.time ≤ 5) ∧
            (((touchesOf after).map Prod.fst).toFinset.erase key).card <
              2 :=
  found_iff_touched (by norm_num) (by norm_num [fewCalls])

end LRUSet

end Agentcy.Tracker
