import Mathlib.Data.List.Induction
import Mathlib.Data.List.Nodup

/-!
# Insertion-ordered finite maps

An association list with distinct keys, in which writing an old key keeps its
position and writing a new key appends it.  This is the order in which a
Python `dict` is iterated; `AList.insert` moves the written key to the front
and so cannot stand for it.
-/

namespace Agentcy.Library

universe u v w

/-- A finite map that remembers the order in which its keys were first
written. -/
structure OrderedMap (κ : Type u) (α : Type v) where
  entries : List (κ × α)
  keysNodup : (entries.map Prod.fst).Nodup

namespace OrderedMap

variable {κ : Type u} {α : Type v} {β : Type w}

def empty : OrderedMap κ α :=
  ⟨[], List.nodup_nil⟩

instance : Inhabited (OrderedMap κ α) :=
  ⟨empty⟩

def keys (items : OrderedMap κ α) : List κ :=
  items.entries.map Prod.fst

def values (items : OrderedMap κ α) : List α :=
  items.entries.map Prod.snd

def mapValues (change : κ → α → β) (items : OrderedMap κ α) :
    OrderedMap κ β :=
  ⟨items.entries.map fun entry => (entry.1, change entry.1 entry.2), by
    simpa [List.map_map, Function.comp_def] using items.keysNodup⟩

variable [DecidableEq κ]

def lookupEntries (key : κ) : List (κ × α) → Option α
  | [] => none
  | entry :: rest =>
      if entry.1 = key then some entry.2 else lookupEntries key rest

/-- Overwrite `key` in place, or append it. -/
def setEntries (key : κ) (value : α) : List (κ × α) → List (κ × α)
  | [] => [(key, value)]
  | entry :: rest =>
      if entry.1 = key then
        (key, value) :: rest
      else
        entry :: setEntries key value rest

private theorem mem_map_setEntries
    (tested key : κ) (value : α) (entries : List (κ × α)) :
    tested ∈ (setEntries key value entries).map Prod.fst ↔
      tested = key ∨ tested ∈ entries.map Prod.fst := by
  induction entries with
  | nil =>
      simp [setEntries]
  | cons entry rest inductionHypothesis =>
      by_cases same : entry.1 = key
      · simp [setEntries, same]
      · simp only [setEntries, if_neg same, List.map_cons,
          List.mem_cons, inductionHypothesis]
        exact or_left_comm

private theorem nodup_setEntries
    (key : κ) (value : α) {entries : List (κ × α)}
    (nodup : (entries.map Prod.fst).Nodup) :
    ((setEntries key value entries).map Prod.fst).Nodup := by
  induction entries with
  | nil =>
      simp [setEntries]
  | cons entry rest inductionHypothesis =>
      have parts := List.nodup_cons.mp nodup
      by_cases same : entry.1 = key
      · simpa [setEntries, same] using nodup
      · simp only [setEntries, if_neg same, List.map_cons]
        refine List.nodup_cons.mpr ⟨?_, inductionHypothesis parts.2⟩
        intro member
        rcases (mem_map_setEntries _ _ _ _).mp member with
          equal | old
        · exact same equal
        · exact parts.1 old

def get? (items : OrderedMap κ α) (key : κ) : Option α :=
  lookupEntries key items.entries

def contains (items : OrderedMap κ α) (key : κ) : Bool :=
  (items.get? key).isSome

def set (items : OrderedMap κ α) (key : κ) (value : α) :
    OrderedMap κ α :=
  ⟨setEntries key value items.entries,
    nodup_setEntries key value items.keysNodup⟩

def erase (items : OrderedMap κ α) (key : κ) : OrderedMap κ α :=
  ⟨items.entries.filter fun entry => entry.1 ≠ key,
    items.keysNodup.sublist (List.filter_sublist.map _)⟩

/-- Later values of a repeated key win. -/
def ofList (entries : List (κ × α)) : OrderedMap κ α :=
  entries.foldl (fun items entry => items.set entry.1 entry.2) empty

theorem lookupEntries_append
    (key : κ) (first second : List (κ × α)) :
    lookupEntries key (first ++ second) =
      (lookupEntries key first).or (lookupEntries key second) := by
  induction first with
  | nil =>
      rfl
  | cons entry rest inductionHypothesis =>
      rw [List.cons_append, lookupEntries, lookupEntries]
      split
      · rfl
      · exact inductionHypothesis

theorem lookupEntries_setEntries
    (tested key : κ) (value : α) (entries : List (κ × α)) :
    lookupEntries tested (setEntries key value entries) =
      if tested = key then some value
      else lookupEntries tested entries := by
  induction entries with
  | nil =>
      by_cases same : tested = key
      · simp [setEntries, lookupEntries, same]
      · simp [setEntries, lookupEntries, same, Ne.symm same]
  | cons entry rest inductionHypothesis =>
      by_cases atEntry : entry.1 = key
      · by_cases same : tested = key
        · simp [setEntries, lookupEntries, atEntry, same]
        · simp [setEntries, lookupEntries, atEntry, same, Ne.symm same]
      · by_cases found : entry.1 = tested
        · have different : tested ≠ key := found ▸ atEntry
          simp [setEntries, lookupEntries, found, different]
        · simp [setEntries, lookupEntries, atEntry, found,
            inductionHypothesis]

theorem get?_set (items : OrderedMap κ α) (tested key : κ) (value : α) :
    (items.set key value).get? tested =
      if tested = key then some value else items.get? tested :=
  lookupEntries_setEntries tested key value items.entries

@[simp]
theorem get?_set_self (items : OrderedMap κ α) (key : κ) (value : α) :
    (items.set key value).get? key = some value := by
  rw [get?_set, if_pos rfl]

theorem get?_set_other
    (items : OrderedMap κ α) {tested key : κ} (value : α)
    (different : tested ≠ key) :
    (items.set key value).get? tested = items.get? tested := by
  rw [get?_set, if_neg different]

@[simp]
theorem set_set_self
    (items : OrderedMap κ α) (key : κ) (first second : α) :
    (items.set key first).set key second = items.set key second := by
  have collapse : ∀ entries : List (κ × α),
      setEntries key second (setEntries key first entries) =
        setEntries key second entries := by
    intro entries
    induction entries with
    | nil =>
        simp [setEntries]
    | cons entry rest inductionHypothesis =>
        by_cases same : entry.1 = key
        · simp [setEntries, same]
        · simp [setEntries, same, inductionHypothesis]
  simp only [set, collapse]

private theorem lookupEntries_filter_ne
    (tested key : κ) (entries : List (κ × α)) :
    lookupEntries tested
        (entries.filter fun entry => entry.1 ≠ key) =
      if tested = key then none
      else lookupEntries tested entries := by
  induction entries with
  | nil =>
      simp [lookupEntries]
  | cons entry rest inductionHypothesis =>
      by_cases removed : entry.1 = key
      · rw [List.filter_cons_of_neg (by simpa using removed),
          inductionHypothesis]
        by_cases same : tested = key
        · simp [same]
        · have notHere : entry.1 ≠ tested := fun equal =>
            same (equal ▸ removed)
          simp [lookupEntries, same, notHere]
      · rw [List.filter_cons_of_pos (by simpa using removed)]
        by_cases found : entry.1 = tested
        · have different : tested ≠ key := found ▸ removed
          simp [lookupEntries, found, different]
        · simp only [lookupEntries, if_neg found, inductionHypothesis]

theorem get?_erase (items : OrderedMap κ α) (tested key : κ) :
    (items.erase key).get? tested =
      if tested = key then none else items.get? tested :=
  lookupEntries_filter_ne tested key items.entries

@[simp]
theorem get?_erase_self (items : OrderedMap κ α) (key : κ) :
    (items.erase key).get? key = none := by
  rw [get?_erase, if_pos rfl]

/-- Setting a key among the entries whose keys are kept. -/
theorem filter_setEntries
    (keep : κ → Bool) (key : κ) (value : α) (entries : List (κ × α)) :
    (setEntries key value entries).filter (fun entry => keep entry.1) =
      if keep key = true then
        setEntries key value (entries.filter fun entry => keep entry.1)
      else entries.filter fun entry => keep entry.1 := by
  induction entries with
  | nil =>
      by_cases kept : keep key = true
      · simp [setEntries, kept]
      · simp [setEntries, kept]
  | cons entry rest inductionHypothesis =>
      by_cases same : entry.1 = key
      · by_cases kept : keep key = true
        · simp [setEntries, same, kept]
        · simp [setEntries, same, kept]
      · rw [setEntries, if_neg same, List.filter_cons, List.filter_cons,
          inductionHypothesis]
        by_cases kept : keep key = true
        · rw [if_pos kept, if_pos kept]
          split
          · rw [setEntries, if_neg same]
          · rfl
        · rw [if_neg kept, if_neg kept]

theorem mem_entries_set
    {items : OrderedMap κ α} {key : κ} {value : α} {entry : κ × α}
    (member : entry ∈ (items.set key value).entries) :
    entry = (key, value) ∨ entry ∈ items.entries := by
  have scan : ∀ entries : List (κ × α),
      entry ∈ setEntries key value entries →
        entry = (key, value) ∨ entry ∈ entries := by
    intro entries
    induction entries with
    | nil =>
        intro inSingle
        exact Or.inl (List.mem_singleton.mp inSingle)
    | cons head rest inductionHypothesis =>
        intro inSet
        by_cases found : head.1 = key
        · rw [setEntries, if_pos found] at inSet
          rcases List.mem_cons.mp inSet with new | old
          · exact Or.inl new
          · exact Or.inr (List.mem_cons_of_mem _ old)
        · rw [setEntries, if_neg found] at inSet
          rcases List.mem_cons.mp inSet with atHead | later
          · exact Or.inr (atHead ▸ List.mem_cons_self)
          · exact
              (inductionHypothesis later).imp_right
                (List.mem_cons_of_mem _)
  exact scan items.entries member

/-- A new key goes to the end. -/
theorem entries_set_of_absent
    (items : OrderedMap κ α) (key : κ) (value : α)
    (absent : items.get? key = none) :
    (items.set key value).entries = items.entries ++ [(key, value)] := by
  have appended : ∀ entries : List (κ × α),
      lookupEntries key entries = none →
        setEntries key value entries = entries ++ [(key, value)] := by
    intro entries
    induction entries with
    | nil =>
        intro _
        rfl
    | cons entry rest inductionHypothesis =>
        intro missing
        by_cases found : entry.1 = key
        · simp [lookupEntries, found] at missing
        · rw [lookupEntries, if_neg found] at missing
          rw [setEntries, if_neg found, inductionHypothesis missing]
          rfl
  exact appended items.entries absent

/-- An old key is written where it is. -/
theorem entries_set_of_present
    (items : OrderedMap κ α) (key : κ) (value : α)
    (present : (items.get? key).isSome) :
    (items.set key value).entries =
      items.entries.map fun entry =>
        if entry.1 = key then (key, value) else entry := by
  have replaced : ∀ entries : List (κ × α),
      (entries.map Prod.fst).Nodup → (lookupEntries key entries).isSome →
        setEntries key value entries =
          entries.map fun entry =>
            if entry.1 = key then (key, value) else entry := by
    intro entries
    induction entries with
    | nil =>
        intro _ missing
        cases missing
    | cons entry rest inductionHypothesis =>
        intro nodup found
        rw [List.map_cons, List.nodup_cons] at nodup
        by_cases here : entry.1 = key
        · have later : ∀ other ∈ rest, other.1 ≠ key := by
            rintro other member rfl
            rw [here] at nodup
            exact nodup.1 (List.mem_map.mpr ⟨other, member, rfl⟩)
          rw [setEntries, if_pos here, List.map_cons, if_pos here]
          congr 1
          symm
          rw [List.map_congr_left fun other member =>
            if_neg (later other member)]
          exact List.map_id rest
        · rw [lookupEntries, if_neg here] at found
          rw [setEntries, if_neg here, List.map_cons, if_neg here,
            inductionHypothesis nodup.2 found]
  exact replaced items.entries items.keysNodup present

theorem mem_keys_iff (items : OrderedMap κ α) (key : κ) :
    key ∈ items.keys ↔ (items.get? key).isSome := by
  have scan : ∀ entries : List (κ × α),
      key ∈ entries.map Prod.fst ↔
        (lookupEntries key entries).isSome := by
    intro entries
    induction entries with
    | nil =>
        simp [lookupEntries]
    | cons entry rest inductionHypothesis =>
        by_cases found : entry.1 = key
        · simp [lookupEntries, found]
        · simp only [List.map_cons, List.mem_cons,
            inductionHypothesis, lookupEntries, if_neg found]
          exact or_iff_right (Ne.symm found)
  exact scan items.entries

theorem mem_keys_set
    (items : OrderedMap κ α) (tested key : κ) (value : α) :
    tested ∈ (items.set key value).keys ↔
      tested = key ∨ tested ∈ items.keys :=
  mem_map_setEntries tested key value items.entries

theorem get?_mapValues
    {β : Type*} (change : κ → α → β) (items : OrderedMap κ α) (key : κ) :
    (items.mapValues change).get? key =
      (items.get? key).map (change key) := by
  have scan : ∀ entries : List (κ × α),
      lookupEntries key (entries.map fun entry =>
        (entry.1, change entry.1 entry.2)) =
        (lookupEntries key entries).map (change key) := by
    intro entries
    induction entries with
    | nil =>
        rfl
    | cons entry rest inductionHypothesis =>
        rw [List.map_cons, lookupEntries, lookupEntries]
        by_cases here : entry.1 = key
        · rw [if_pos here, if_pos here, here]
          rfl
        · rw [if_neg here, if_neg here, inductionHypothesis]
  exact scan items.entries

theorem get?_of_mem
    {items : OrderedMap κ α} {key : κ} {value : α}
    (member : (key, value) ∈ items.entries) :
    items.get? key = some value := by
  have scan : ∀ entries : List (κ × α),
      (entries.map Prod.fst).Nodup → (key, value) ∈ entries →
        lookupEntries key entries = some value := by
    intro entries
    induction entries with
    | nil =>
        intro _ inNil
        exact absurd inNil List.not_mem_nil
    | cons entry rest inductionHypothesis =>
        intro nodup inEntries
        have parts := List.nodup_cons.mp nodup
        rcases List.mem_cons.mp inEntries with rfl | later
        · exact if_pos rfl
        · have different : entry.1 ≠ key := by
            rintro rfl
            exact parts.1 (List.mem_map.mpr ⟨_, later, rfl⟩)
          rw [lookupEntries, if_neg different]
          exact inductionHypothesis parts.2 later
  exact scan items.entries items.keysNodup member

theorem mem_of_get?
    {items : OrderedMap κ α} {key : κ} {value : α}
    (found : items.get? key = some value) :
    (key, value) ∈ items.entries := by
  have scan : ∀ entries : List (κ × α),
      lookupEntries key entries = some value →
        (key, value) ∈ entries := by
    intro entries
    induction entries with
    | nil =>
        intro inNil
        cases inNil
    | cons entry rest inductionHypothesis =>
        intro inEntries
        rw [lookupEntries] at inEntries
        split at inEntries
        · rename_i here
          cases inEntries
          rw [← here]
          exact List.mem_cons_self
        · exact List.mem_cons_of_mem _ (inductionHypothesis inEntries)
  exact scan items.entries found

theorem mem_entries_iff
    (items : OrderedMap κ α) (key : κ) (value : α) :
    (key, value) ∈ items.entries ↔ items.get? key = some value :=
  ⟨get?_of_mem, mem_of_get?⟩

theorem mem_entries_set_iff
    {items : OrderedMap κ α} {key : κ} {value : α} {entry : κ × α} :
    entry ∈ (items.set key value).entries ↔
      entry = (key, value) ∨ entry ∈ items.entries ∧ entry.1 ≠ key := by
  obtain ⟨tested, found⟩ := entry
  rw [mem_entries_iff, mem_entries_iff, get?_set, Prod.mk.injEq]
  by_cases same : tested = key
  · simp [same, eq_comm]
  · simp [same]

/-! ## Maps filled from a list -/

/-- `dict.update`. -/
def update (items given : OrderedMap κ α) : OrderedMap κ α :=
  given.entries.foldl (fun updated entry => updated.set entry.1 entry.2)
    items

theorem get?_update (items given : OrderedMap κ α) (key : κ) :
    (items.update given).get? key =
      (given.get? key).or (items.get? key) := by
  have scan : ∀ (entries : List (κ × α)) (updated : OrderedMap κ α),
      (entries.map Prod.fst).Nodup →
        (entries.foldl (fun updated entry => updated.set entry.1 entry.2)
            updated).get? key =
          (lookupEntries key entries).or (updated.get? key) := by
    intro entries
    induction entries with
    | nil =>
        intro updated _
        rfl
    | cons entry rest inductionHypothesis =>
        intro updated nodup
        rw [List.map_cons, List.nodup_cons] at nodup
        rw [List.foldl_cons, inductionHypothesis _ nodup.2, get?_set,
          lookupEntries]
        by_cases here : entry.1 = key
        · have absent : lookupEntries key rest = none := by
            rw [here] at nodup
            have notLater := mt (mem_keys_iff ⟨rest, nodup.2⟩ key).mpr
            exact Option.not_isSome_iff_eq_none.mp (notLater nodup.1)
          rw [if_pos here, if_pos here.symm, absent]
          rfl
        · rw [if_neg here, if_neg (Ne.symm here)]
  exact scan given.entries items given.keysNodup

theorem mem_keys_update_iff
    (items given : OrderedMap κ α) (key : κ) :
    key ∈ (items.update given).keys ↔
      key ∈ given.keys ∨ key ∈ items.keys := by
  rw [mem_keys_iff, get?_update, Option.isSome_or, Bool.or_eq_true,
    mem_keys_iff, mem_keys_iff]

theorem ofList_concat (entries : List (κ × α)) (entry : κ × α) :
    ofList (entries ++ [entry]) =
      (ofList entries).set entry.1 entry.2 := by
  rw [ofList, List.foldl_append]
  rfl

/-- Of several entries for a key the last one counts. -/
theorem get?_ofList (entries : List (κ × α)) (key : κ) :
    (ofList entries).get? key =
      ((entries.filter fun entry => decide (entry.1 = key)).getLast?).map
        Prod.snd := by
  induction entries using List.reverseRecOn with
  | nil =>
      rfl
  | append_singleton front last inductionHypothesis =>
      rw [ofList_concat, get?_set, inductionHypothesis, List.filter_append]
      by_cases here : key = last.1
      · subst here
        simp
      · have different : ¬ last.1 = key := fun same => here same.symm
        simp [here, different]

theorem mem_entries_ofList
    {entries : List (κ × α)} {entry : κ × α}
    (member : entry ∈ (ofList entries).entries) :
    entry ∈ entries := by
  induction entries using List.reverseRecOn with
  | nil =>
      cases member
  | append_singleton front last inductionHypothesis =>
      rw [ofList_concat] at member
      rcases mem_entries_set member with new | old
      · rw [new]
        exact List.mem_append_right front List.mem_cons_self
      · have inFront := inductionHypothesis old
        exact List.mem_append_left [last] inFront

theorem mem_keys_ofList_iff
    {entries : List (κ × α)} {key : κ} :
    key ∈ (ofList entries).keys ↔ key ∈ entries.map Prod.fst := by
  induction entries using List.reverseRecOn with
  | nil =>
      exact Iff.rfl
  | append_singleton front last inductionHypothesis =>
      rw [ofList_concat, mem_keys_set, inductionHypothesis,
        List.map_append, List.mem_append, List.map_singleton,
        List.mem_singleton]
      exact or_comm

/-- Distinct keys are written in the order of the list. -/
theorem entries_ofList_of_nodup
    {entries : List (κ × α)} (nodup : (entries.map Prod.fst).Nodup) :
    (ofList entries).entries = entries := by
  induction entries using List.reverseRecOn with
  | nil =>
      rfl
  | append_singleton front last inductionHypothesis =>
      rw [List.map_append] at nodup
      have parts := List.nodup_append.mp nodup
      have same := inductionHypothesis parts.1
      have absent : (ofList front).get? last.1 = none := by
        cases found : (ofList front).get? last.1 with
        | none =>
            rfl
        | some value =>
            have member := mem_entries_ofList (mem_of_get? found)
            have among : last.1 ∈ front.map Prod.fst :=
              List.mem_map.mpr ⟨_, member, rfl⟩
            exact absurd rfl
              (parts.2.2 last.1 among last.1 List.mem_cons_self)
      rw [ofList_concat, entries_set_of_absent _ _ _ absent, same]

/-- A key whose values in the list are all the same has that value. -/
theorem get?_ofList_of_unique
    {entries : List (κ × α)} {key : κ} {value : α}
    (member : (key, value) ∈ entries)
    (unique : ∀ other, (key, other) ∈ entries → other = value) :
    (ofList entries).get? key = some value := by
  induction entries using List.reverseRecOn with
  | nil =>
      cases member
  | append_singleton front last inductionHypothesis =>
      rw [ofList_concat, get?_set]
      by_cases here : key = last.1
      · rw [if_pos here]
        have same : last.2 = value := by
          apply unique
          rw [here]
          exact List.mem_append_right front List.mem_cons_self
        rw [same]
      · rw [if_neg here]
        apply inductionHypothesis
        · rcases List.mem_append.mp member with inFront | atLast
          · exact inFront
          · have equal := List.mem_singleton.mp atLast
            exact absurd (congrArg Prod.fst equal) here
        · intro other inFront
          exact unique other (List.mem_append_left [last] inFront)

/-- The values of each key in the order of the list, as in a
`defaultdict(list)` to which all of them were appended. -/
def gather (entries : List (κ × α)) : OrderedMap κ (List α) :=
  entries.foldl
    (fun items entry =>
      items.set entry.1 ((items.get? entry.1).getD [] ++ [entry.2]))
    empty

theorem gather_concat (entries : List (κ × α)) (last : κ × α) :
    gather (entries ++ [last]) =
      (gather entries).set last.1
        (((gather entries).get? last.1).getD [] ++ [last.2]) := by
  rw [gather, List.foldl_append]
  rfl

/-- Storing one value at several keys. -/
theorem get?_foldl_set
    (items : OrderedMap κ α) (keys : List κ) (value : α) (tested : κ) :
    (keys.foldl (fun stored key => stored.set key value) items).get?
        tested =
      if tested ∈ keys then some value else items.get? tested := by
  induction keys generalizing items with
  | nil =>
      simp
  | cons key rest inductionHypothesis =>
      rw [List.foldl_cons, inductionHypothesis, get?_set]
      by_cases later : tested ∈ rest
      · simp [later]
      · by_cases here : tested = key
        · simp [here]
        · simp [later, here]

theorem count_values_set
    [DecidableEq α] (items : OrderedMap κ (List α))
    (key : κ) (value : List α) (counted : α) :
    (items.set key value).values.flatten.count counted +
        ((items.get? key).getD []).count counted =
      items.values.flatten.count counted + value.count counted := by
  have scan : ∀ entries : List (κ × List α),
      ((setEntries key value entries).map Prod.snd).flatten.count counted +
          ((lookupEntries key entries).getD []).count counted =
        (entries.map Prod.snd).flatten.count counted +
          value.count counted := by
    intro entries
    induction entries with
    | nil =>
        simp [setEntries, lookupEntries]
    | cons entry rest inductionHypothesis =>
        by_cases here : entry.1 = key
        · simp [setEntries, lookupEntries, here]
          omega
        · simp [setEntries, lookupEntries, here] at inductionHypothesis ⊢
          omega
  exact scan items.entries

theorem getD_gather (entries : List (κ × α)) (key : κ) :
    ((gather entries).get? key).getD [] =
      (entries.filter fun entry => decide (entry.1 = key)).map
        Prod.snd := by
  induction entries using List.reverseRecOn with
  | nil =>
      rfl
  | append_singleton front last inductionHypothesis =>
      rw [gather_concat, get?_set, List.filter_append, List.map_append,
        ← inductionHypothesis]
      by_cases here : key = last.1
      · subst here
        simp
      · have different : ¬ last.1 = key := fun same => here same.symm
        simp [here, different]

/-- Gathering keeps all values. -/
theorem count_values_gather
    [DecidableEq α] (entries : List (κ × α)) (counted : α) :
    (gather entries).values.flatten.count counted =
      (entries.map Prod.snd).count counted := by
  induction entries using List.reverseRecOn with
  | nil =>
      rfl
  | append_singleton front last inductionHypothesis =>
      have stored := count_values_set (gather front) last.1
        (((gather front).get? last.1).getD [] ++ [last.2]) counted
      rw [List.count_append] at stored
      rw [gather_concat, List.map_append, List.count_append,
        ← inductionHypothesis]
      simp only [List.map_cons, List.map_nil]
      omega

/-- No key is there without a value. -/
theorem ne_nil_of_get?_gather
    {entries : List (κ × α)} {key : κ} {values : List α}
    (found : (gather entries).get? key = some values) : values ≠ [] := by
  induction entries using List.reverseRecOn generalizing values with
  | nil =>
      cases found
  | append_singleton front last inductionHypothesis =>
      rw [gather_concat, get?_set] at found
      split at found
      · rw [← Option.some.inj found]
        simp
      · exact inductionHypothesis found

/-- The values of a gathered key are those that the list has for it. -/
theorem mem_values_gather_iff
    {entries : List (κ × α)} {values : List α} :
    values ∈ (gather entries).values ↔
      ∃ key, values = (entries.filter fun entry =>
          decide (entry.1 = key)).map Prod.snd ∧ values ≠ [] := by
  unfold OrderedMap.values
  rw [List.mem_map]
  constructor
  · rintro ⟨⟨key, found⟩, member, rfl⟩
    have isFound := get?_of_mem member
    refine ⟨key, ?_, ne_nil_of_get?_gather isFound⟩
    rw [← getD_gather, isFound]
    rfl
  · rintro ⟨key, rfl, nonempty⟩
    rw [← getD_gather] at nonempty ⊢
    cases found : (gather entries).get? key with
    | none =>
        rw [found] at nonempty
        exact absurd rfl nonempty
    | some values =>
        exact ⟨(key, values), mem_of_get? found, rfl⟩

theorem pairwise_values
    {items : OrderedMap κ α} {related : α → α → Prop}
    (apart : ∀ {key other value otherValue}, key ≠ other →
      items.get? key = some value → items.get? other = some otherValue →
      related value otherValue) :
    items.values.Pairwise related := by
  have distinct : items.entries.Pairwise fun entry other =>
      entry.1 ≠ other.1 :=
    List.pairwise_map.mp items.keysNodup
  refine List.pairwise_map.mpr (distinct.imp_of_mem ?_)
  intro entry other member otherMember different
  exact apart different (get?_of_mem member) (get?_of_mem otherMember)

theorem entries_eq_nil_iff (items : OrderedMap κ α) :
    items.entries = [] ↔ ∀ key, items.get? key = none := by
  constructor
  · intro nothing key
    rw [get?, nothing]
    rfl
  · intro none
    rw [List.eq_nil_iff_forall_not_mem]
    intro entry member
    have found : items.get? entry.1 = some entry.2 := get?_of_mem member
    rw [none] at found
    cases found

end OrderedMap

end Agentcy.Library
