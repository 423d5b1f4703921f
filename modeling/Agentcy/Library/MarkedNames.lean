import Mathlib.Data.List.Induction
import Mathlib.Data.List.Nodup

/-!
# Names told apart by a mark

Every entry of a list asks for a name.  One that is already used gets the mark
of its index, and the marked name is not looked at again.  The names turn out
distinct unless a marked name had been asked for before.
-/

namespace Agentcy.Library

universe u v

variable {ι : Type u} {α : Type v} [DecidableEq α]

/-- The name for one more entry. -/
def markedName (mark : ι → α → α) (used : List α) (entry : ι × α) : α :=
  if entry.2 ∈ used then mark entry.1 entry.2 else entry.2

/-- The names in the order of the entries. -/
def markedNames (mark : ι → α → α) (entries : List (ι × α)) : List α :=
  entries.foldl
    (fun used entry => used ++ [markedName mark used entry]) []

/-- A name is taken when an entry has asked for it, or when it was made for an
entry that asked for a taken one. -/
inductive Taken (mark : ι → α → α) : List (ι × α) → α → Prop
  | asked {entries : List (ι × α)} {name : α} :
      name ∈ entries.map Prod.snd → Taken mark entries name
  | made {front back : List (ι × α)} {index : ι} {name : α} :
      Taken mark front name →
      Taken mark (front ++ (index, name) :: back) (mark index name)

/-- Some entry asks for a taken name, and its marked name was asked for
before. -/
def Clash (mark : ι → α → α) (entries : List (ι × α)) : Prop :=
  ∃ front index name back,
    entries = front ++ (index, name) :: back ∧
      Taken mark front name ∧ mark index name ∈ front.map Prod.snd

variable (mark : ι → α → α)

theorem markedNames_concat (front : List (ι × α)) (last : ι × α) :
    markedNames mark (front ++ [last]) =
      markedNames mark front ++
        [markedName mark (markedNames mark front) last] := by
  unfold markedNames
  rw [List.foldl_append]
  rfl

theorem markedNames_le_append (front back : List (ι × α)) :
    markedNames mark front <+: markedNames mark (front ++ back) := by
  induction back using List.reverseRecOn with
  | nil =>
      simp
  | append_singleton middle last inductionHypothesis =>
      rw [← List.append_assoc, markedNames_concat]
      exact inductionHypothesis.trans (List.prefix_append _ _)

/-- The name of an entry is among all of them. -/
theorem markedName_mem
    (front back : List (ι × α)) (entry : ι × α) :
    markedName mark (markedNames mark front) entry ∈
      markedNames mark (front ++ entry :: back) := by
  rw [List.append_cons]
  apply (markedNames_le_append mark (front ++ [entry]) back).subset
  rw [markedNames_concat]
  exact List.mem_append_right _ List.mem_cons_self

variable {mark}

omit [DecidableEq α] in
theorem Taken.append
    {front : List (ι × α)} {name : α} (taken : Taken mark front name)
    (back : List (ι × α)) : Taken mark (front ++ back) name := by
  cases taken with
  | asked member =>
      apply Taken.asked
      rw [List.map_append]
      exact List.mem_append_left _ member
  | made before =>
      rw [List.append_assoc, List.cons_append]
      exact .made before

theorem Taken.mem_markedNames
    {entries : List (ι × α)} {name : α} (taken : Taken mark entries name) :
    name ∈ markedNames mark entries := by
  induction taken with
  | @asked entries name member =>
      obtain ⟨⟨index, asked⟩, inEntries, rfl⟩ := List.mem_map.mp member
      obtain ⟨front, back, rfl⟩ := List.append_of_mem inEntries
      by_cases used : asked ∈ markedNames mark front
      · exact (markedNames_le_append mark front _).subset used
      · have own := markedName_mem mark front back (index, asked)
        rwa [markedName, if_neg used] at own
  | @made front back index name _ inductionHypothesis =>
      have own := markedName_mem mark front back (index, name)
      rwa [markedName, if_pos inductionHypothesis] at own

/-- The taken names are those that the entries got. -/
theorem taken_iff_mem_markedNames
    {entries : List (ι × α)} {name : α} :
    Taken mark entries name ↔ name ∈ markedNames mark entries := by
  constructor
  · exact Taken.mem_markedNames
  · intro member
    induction entries using List.reverseRecOn generalizing name with
    | nil =>
        cases member
    | append_singleton front last inductionHypothesis =>
        rw [markedNames_concat, List.mem_append, List.mem_singleton] at member
        rcases member with before | rfl
        · exact (inductionHypothesis before).append [last]
        · unfold markedName
          split_ifs with used
          · exact .made (inductionHypothesis used)
          · exact .asked (by simp)

/-- Marked names of different indices differ. -/
def MarksApart (mark : ι → α → α) : Prop :=
  ∀ first second name other,
    mark first name = mark second other → first = second

omit [DecidableEq α] in
/-- A name with the mark of a new index is taken only if it was asked for. -/
theorem taken_mark_iff
    (apart : MarksApart mark) {front : List (ι × α)} {index : ι} {name : α}
    (new : index ∉ front.map Prod.fst) :
    Taken mark front (mark index name) ↔
      mark index name ∈ front.map Prod.snd := by
  constructor
  · intro taken
    generalize marked : mark index name = target at taken
    cases taken with
    | asked member =>
        exact member
    | @made _ _ earlier other _ =>
        have same := apart index earlier name other marked
        exact absurd (by simp [same]) new
  · exact Taken.asked

omit [DecidableEq α] in
theorem clash_concat_iff
    (front : List (ι × α)) (index : ι) (name : α) :
    Clash mark (front ++ [(index, name)]) ↔
      Clash mark front ∨
        Taken mark front name ∧ mark index name ∈ front.map Prod.snd := by
  constructor
  · rintro ⟨before, other, asked, after, split, taken, member⟩
    rcases List.eq_nil_or_concat after with rfl | ⟨middle, last, rfl⟩
    · obtain ⟨rfl, same⟩ := List.append_inj' split rfl
      cases same
      exact .inr ⟨taken, member⟩
    · rw [List.concat_eq_append, ← List.cons_append,
        ← List.append_assoc] at split
      obtain ⟨rfl, _⟩ := List.append_inj' split rfl
      exact .inl ⟨before, other, asked, middle, rfl, taken, member⟩
  · rintro (⟨before, other, asked, after, rfl, taken, member⟩ |
      ⟨taken, member⟩)
    · exact ⟨before, other, asked, after ++ [(index, name)],
        by simp, taken, member⟩
    · exact ⟨front, index, name, [], rfl, taken, member⟩

/-- Exactly without a clash the names are distinct. -/
theorem nodup_markedNames_iff
    (apart : MarksApart mark) {entries : List (ι × α)}
    (indices : (entries.map Prod.fst).Nodup) :
    (markedNames mark entries).Nodup ↔ ¬ Clash mark entries := by
  induction entries using List.reverseRecOn with
  | nil =>
      simp [markedNames, Clash]
  | append_singleton front last inductionHypothesis =>
      obtain ⟨index, name⟩ := last
      rw [List.map_append, List.map_singleton,
        List.nodup_append_comm, List.singleton_append,
        List.nodup_cons] at indices
      rw [markedNames_concat, List.nodup_append_comm,
        List.singleton_append, List.nodup_cons,
        inductionHypothesis indices.2, clash_concat_iff, not_or, and_comm,
        ← taken_mark_iff apart indices.1, taken_iff_mem_markedNames,
        taken_iff_mem_markedNames]
      apply and_congr_right
      intro _
      unfold markedName
      by_cases used : name ∈ markedNames mark front
      · simp [used]
      · simp [used]

end Agentcy.Library
