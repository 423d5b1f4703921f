import Mathlib.Data.Rat.Defs
import Mathlib.Algebra.Order.Ring.Rat
import Mathlib.Data.List.TakeWhile
import Agentcy.Library.OrderedMap

/-!
# The tracker's set of processed event keys

The set keeps its entries from the least to the most recently touched one and
drops entries from the old side, either because their time-to-live is over or
because the set has grown past its maximum.
-/

namespace Agentcy.Tracker

open Agentcy.Library

universe u

structure LRUSet (κ : Type u) where
  maxItems : Nat := 4096
  ttlSeconds : ℚ := 3600
  data : OrderedMap κ ℚ := .empty

namespace LRUSet

variable {κ : Type u}

def isExpired (items : LRUSet κ) (now stamp : ℚ) : Bool :=
  items.ttlSeconds < now - stamp

/-- Expired entries go one by one from the old side, up to the first entry
that is still alive. -/
def purgeExpired (items : LRUSet κ) (now : ℚ) : LRUSet κ :=
  if items.ttlSeconds ≤ 0 then
    items
  else
    { items with
      data :=
        ⟨items.data.entries.dropWhile fun entry =>
            items.isExpired now entry.2,
          items.data.keysNodup.sublist
            ((List.dropWhile_sublist _).map _)⟩ }

/-- Drop entries from the old side until at most `maxItems` are left. -/
def evict (items : LRUSet κ) : LRUSet κ :=
  { items with
    data :=
      ⟨items.data.entries.drop
          (items.data.entries.length - items.maxItems),
        items.data.keysNodup.sublist ((List.drop_sublist _ _).map _)⟩ }

variable [DecidableEq κ]

/-- Write the key with its new time stamp at the young end. -/
def touch (items : LRUSet κ) (key : κ) (now : ℚ) : LRUSet κ :=
  { items with data := (items.data.erase key).set key now }

/-- Whether the key is in the set; a hit refreshes it. -/
def contains (items : LRUSet κ) (key : κ) (now : ℚ) :
    Bool × LRUSet κ :=
  let purged := items.purgeExpired now
  if purged.data.contains key then
    (true, purged.touch key now)
  else
    (false, purged)

def add (items : LRUSet κ) (key : κ) (now : ℚ) : LRUSet κ :=
  ((items.purgeExpired now).touch key now).evict

omit [DecidableEq κ] in
@[simp]
theorem purgeExpired_maxItems (items : LRUSet κ) (now : ℚ) :
    (items.purgeExpired now).maxItems = items.maxItems := by
  rw [purgeExpired]
  split <;> rfl

omit [DecidableEq κ] in
@[simp]
theorem purgeExpired_ttlSeconds (items : LRUSet κ) (now : ℚ) :
    (items.purgeExpired now).ttlSeconds = items.ttlSeconds := by
  rw [purgeExpired]
  split <;> rfl

omit [DecidableEq κ] in
theorem purgeExpired_subset (items : LRUSet κ) (now : ℚ) :
    ∀ entry ∈ (items.purgeExpired now).data.entries,
      entry ∈ items.data.entries := by
  intro entry member
  rw [purgeExpired] at member
  split at member
  · exact member
  · exact List.dropWhile_subset _ member

theorem contains_snd_of_fresh
    (items : LRUSet κ) (key : κ) (now : ℚ)
    (fresh : (items.contains key now).1 = false) :
    (items.contains key now).2 = items.purgeExpired now := by
  rw [contains] at fresh ⊢
  split at fresh
  · exact absurd fresh.symm Bool.false_ne_true
  · rename_i outside
    rw [if_neg outside]

theorem entries_add
    (items : LRUSet κ) (key : κ) (now : ℚ)
    (room : 0 < items.maxItems) :
    ∃ older, (items.add key now).data.entries = older ++ [(key, now)] ∧
      ∀ entry ∈ older, entry ∈ items.data.entries := by
  let kept := (items.purgeExpired now).data.erase key
  have touched :
      ((items.purgeExpired now).touch key now).data.entries =
        kept.entries ++ [(key, now)] :=
    OrderedMap.entries_set_of_absent kept key now
      (OrderedMap.get?_erase_self _ key)
  have sameMax :
      ((items.purgeExpired now).touch key now).maxItems =
        items.maxItems :=
    purgeExpired_maxItems items now
  have drops :
      (kept.entries ++ [(key, now)]).length - items.maxItems ≤
        kept.entries.length := by
    rw [List.length_append, List.length_singleton]
    omega
  refine
    ⟨kept.entries.drop
      ((kept.entries ++ [(key, now)]).length - items.maxItems), ?_, ?_⟩
  · rw [add, evict]
    dsimp only
    rw [touched, sameMax, List.drop_append_of_le_length drops]
  · intro entry member
    have inKept := List.mem_of_mem_drop member
    exact purgeExpired_subset items now entry (List.mem_filter.mp inKept).1

theorem keys_touch (items : LRUSet κ) (key : κ) (now : ℚ) :
    ∀ entry ∈ (items.touch key now).data.entries,
      entry.1 = key ∨ ∃ old ∈ items.data.entries, old.1 = entry.1 := by
  intro entry member
  have inKeys : entry.1 ∈ ((items.data.erase key).set key now).keys :=
    List.mem_map.mpr ⟨entry, member, rfl⟩
  rw [OrderedMap.mem_keys_set] at inKeys
  rcases inKeys with same | older
  · exact Or.inl same
  · rcases List.mem_map.mp older with ⟨old, inErased, same⟩
    exact Or.inr ⟨old, (List.mem_filter.mp inErased).1, same⟩

theorem keys_contains (items : LRUSet κ) (key : κ) (now : ℚ) :
    ∀ entry ∈ (items.contains key now).2.data.entries,
      entry.1 = key ∨ ∃ old ∈ items.data.entries, old.1 = entry.1 := by
  intro entry member
  rw [contains] at member
  split at member
  · rcases keys_touch _ key now entry member with
      same | ⟨old, inPurged, sameOld⟩
    · exact Or.inl same
    · exact Or.inr
        ⟨old, purgeExpired_subset items now old inPurged, sameOld⟩
  · exact Or.inr ⟨entry, purgeExpired_subset items now entry member, rfl⟩

theorem keys_add (items : LRUSet κ) (key : κ) (now : ℚ) :
    ∀ entry ∈ (items.add key now).data.entries,
      entry.1 = key ∨ ∃ old ∈ items.data.entries, old.1 = entry.1 := by
  intro entry member
  rw [add, evict] at member
  rcases keys_touch _ key now entry (List.mem_of_mem_drop member) with
    same | ⟨old, inPurged, sameOld⟩
  · exact Or.inl same
  · exact Or.inr
      ⟨old, purgeExpired_subset items now old inPurged, sameOld⟩

/-- A key that was just added is found again as long as its time-to-live
lasts, and no longer. -/
theorem contains_add_iff
    (items : LRUSet κ) (key : κ) (added later : ℚ)
    (room : 0 < items.maxItems) (limited : 0 < items.ttlSeconds)
    (stamps : ∀ entry ∈ items.data.entries, entry.2 ≤ added) :
    ((items.add key added).contains key later).1 = true ↔
      later - added ≤ items.ttlSeconds := by
  obtain ⟨older, entries, fromItems⟩ := entries_add items key added room
  have sameTtl : (items.add key added).ttlSeconds = items.ttlSeconds :=
    purgeExpired_ttlSeconds items added
  have purged :
      ((items.add key added).purgeExpired later).data.entries =
        (older ++ [(key, added)]).dropWhile fun entry =>
          items.ttlSeconds < later - entry.2 := by
    rw [purgeExpired, if_neg (by rw [sameTtl]; exact not_le.mpr limited)]
    dsimp only [isExpired]
    rw [entries, sameTtl]
  have found :
      ((items.add key added).contains key later).1 = true ↔
        key ∈ ((items.add key added).purgeExpired later).data.keys := by
    rw [OrderedMap.mem_keys_iff, contains]
    split
    · rename_i inside
      exact iff_of_true rfl inside
    · rename_i outside
      exact iff_of_false Bool.false_ne_true outside
  rw [found, OrderedMap.keys, purged]
  by_cases alive : later - added ≤ items.ttlSeconds
  · have last : (key, added) ∈
        (older ++ [(key, added)]).dropWhile fun entry =>
          decide (items.ttlSeconds < later - entry.2) := by
      rw [List.dropWhile_append]
      split
      · simp [not_lt.mpr alive]
      · simp
    exact iff_of_true (List.mem_map_of_mem last) alive
  · have allExpired :
        ((older ++ [(key, added)]).dropWhile fun entry =>
          decide (items.ttlSeconds < later - entry.2)) = [] := by
      rw [List.dropWhile_eq_nil_iff]
      intro entry member
      have stamp : entry.2 ≤ added := by
        rcases List.mem_append.mp member with old | new
        · exact stamps entry (fromItems entry old)
        · rw [List.mem_singleton.mp new]
      have late := not_le.mp alive
      exact decide_eq_true
        (lt_of_lt_of_le late (sub_le_sub_left stamp later))
    rw [allExpired]
    exact iff_of_false (List.not_mem_nil) alive

end LRUSet

end Agentcy.Tracker
