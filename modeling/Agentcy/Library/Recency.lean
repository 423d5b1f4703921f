import Mathlib.Data.Finset.Card
import Mathlib.Data.List.Nodup
import Mathlib.Data.List.TakeWhile

/-!
# Recency lists

A recency list has one entry for each key that was ever touched, with its
latest touch, in the order of these touches.  A bounded memory holds an end
of this list and has forgotten the rest.
-/

namespace Agentcy.Library

universe u v

variable {κ : Type u} {τ : Type v}

section Latest

variable [DecidableEq κ]

def latest : List (κ × τ) → List (κ × τ)
  | [] => []
  | entry :: rest =>
      if entry.1 ∈ rest.map Prod.fst then latest rest
      else entry :: latest rest

theorem mem_keys_latest (touches : List (κ × τ)) (key : κ) :
    key ∈ (latest touches).map Prod.fst ↔
      key ∈ touches.map Prod.fst := by
  induction touches with
  | nil => rfl
  | cons entry rest inductionHypothesis =>
      rw [latest]
      split
      · rename_i again
        rw [inductionHypothesis, List.map_cons, List.mem_cons]
        constructor
        · exact Or.inr
        · intro found
          rcases found with rfl | later
          · exact again
          · exact later
      · rw [List.map_cons, List.map_cons, List.mem_cons, List.mem_cons,
          inductionHypothesis]

theorem nodup_keys_latest (touches : List (κ × τ)) :
    ((latest touches).map Prod.fst).Nodup := by
  induction touches with
  | nil => exact List.nodup_nil
  | cons entry rest inductionHypothesis =>
      rw [latest]
      split
      · exact inductionHypothesis
      · rename_i last
        rw [List.map_cons, List.nodup_cons, mem_keys_latest]
        exact ⟨last, inductionHypothesis⟩

theorem latest_sublist (touches : List (κ × τ)) :
    (latest touches).Sublist touches := by
  induction touches with
  | nil => exact List.Sublist.refl []
  | cons entry rest inductionHypothesis =>
      rw [latest]
      split
      · exact inductionHypothesis.cons entry
      · exact inductionHypothesis.cons_cons entry

theorem length_latest (touches : List (κ × τ)) :
    (latest touches).length = (touches.map Prod.fst).toFinset.card := by
  rw [← List.length_map (f := Prod.fst),
    ← List.toFinset_card_of_nodup (nodup_keys_latest touches)]
  congr 1
  ext key
  rw [List.mem_toFinset, List.mem_toFinset, mem_keys_latest]

theorem latest_append (first second : List (κ × τ)) :
    latest (first ++ second) =
      (latest first).filter (fun entry =>
        decide (entry.1 ∉ second.map Prod.fst)) ++ latest second := by
  induction first with
  | nil => rfl
  | cons entry rest inductionHypothesis =>
      rw [List.cons_append, latest, latest, inductionHypothesis]
      simp only [List.map_append, List.mem_append]
      by_cases inRest : entry.1 ∈ rest.map Prod.fst
      · rw [if_pos (Or.inl inRest), if_pos inRest]
      · by_cases inSecond : entry.1 ∈ second.map Prod.fst
        · rw [if_pos (Or.inr inSecond), if_neg inRest,
            List.filter_cons_of_neg (by simpa using inSecond)]
        · rw [if_neg (not_or.mpr ⟨inRest, inSecond⟩), if_neg inRest,
            List.filter_cons_of_pos (by simpa using inSecond)]
          rfl

/-- The entry of a key stands before those of the keys touched later. -/
theorem latest_split
    (before : List (κ × τ)) {after : List (κ × τ)} {key : κ} {time : τ}
    (last : key ∉ after.map Prod.fst) :
    ∃ older, latest (before ++ (key, time) :: after) =
      older ++ (key, time) :: latest after := by
  refine
    ⟨(latest before).filter fun entry =>
      decide (entry.1 ∉ ((key, time) :: after).map Prod.fst), ?_⟩
  rw [latest_append before ((key, time) :: after),
    latest.eq_2 (key, time) after, if_neg last]

theorem exists_split_of_latest
    {touches older newer : List (κ × τ)} {entry : κ × τ}
    (split : latest touches = older ++ entry :: newer) :
    ∃ before after, touches = before ++ entry :: after ∧
      entry.1 ∉ after.map Prod.fst ∧ newer = latest after := by
  induction touches generalizing older with
  | nil => simp [latest] at split
  | cons first rest inductionHypothesis =>
      rw [latest] at split
      split at split
      · obtain ⟨before, after, whole, last, isNewer⟩ :=
          inductionHypothesis split
        exact ⟨first :: before, after, by rw [whole]; rfl, last, isNewer⟩
      · rename_i final
        cases older with
        | nil =>
            obtain ⟨rfl, isNewer⟩ := List.cons.inj split
            exact ⟨[], rest, rfl, final, isNewer.symm⟩
        | cons oldest others =>
            obtain ⟨_, inRest⟩ := List.cons.inj split
            obtain ⟨before, after, whole, last, isNewer⟩ :=
              inductionHypothesis inRest
            exact
              ⟨first :: before, after, by rw [whole]; rfl, last, isNewer⟩

theorem exists_last_touch
    {touches : List (κ × τ)} {key : κ}
    (touched : key ∈ touches.map Prod.fst) :
    ∃ before time after, touches = before ++ (key, time) :: after ∧
      key ∉ after.map Prod.fst := by
  rw [← mem_keys_latest] at touched
  obtain ⟨⟨_, time⟩, member, rfl⟩ := List.mem_map.mp touched
  obtain ⟨older, newer, split⟩ := List.append_of_mem member
  obtain ⟨before, after, whole, last, _⟩ := exists_split_of_latest split
  exact ⟨before, time, after, whole, last⟩

end Latest

/-- Where a condition on an entry carries over to all older ones, dropping
stops only when none is left that meets it. -/
theorem not_of_mem_dropWhile
    {α : Type u} {dropped : α → Bool} {entries : List α}
    (older : entries.Pairwise fun first second =>
      dropped second = true → dropped first = true)
    {entry : α} (member : entry ∈ entries.dropWhile dropped) :
    dropped entry = false := by
  induction entries with
  | nil => cases member
  | cons first rest inductionHypothesis =>
      rw [List.pairwise_cons] at older
      by_cases drops : dropped first = true
      · rw [List.dropWhile_cons_of_pos drops] at member
        exact inductionHypothesis older.2 member
      · rw [List.dropWhile_cons_of_neg drops] at member
        refine Bool.eq_false_iff.mpr fun dropsEntry => drops ?_
        rcases List.mem_cons.mp member with rfl | later
        · exact dropsEntry
        · exact older.1 entry later dropsEntry

/-- Each entry that is gone is stale, or as many newer ones as the memory
can hold follow it. -/
def Forgotten
    (capacity : Nat) (stale : κ × τ → Prop) (held : List (κ × τ)) :
    List (κ × τ) → Prop
  | [] => True
  | entry :: rest =>
      (stale entry ∨ capacity ≤ (rest ++ held).length) ∧
        Forgotten capacity stale held rest

variable {capacity : Nat} {stale later : κ × τ → Prop}

theorem Forgotten.mono
    {held gone : List (κ × τ)}
    (forgotten : Forgotten capacity stale held gone)
    (implies : ∀ entry, stale entry → later entry) :
    Forgotten capacity later held gone := by
  induction gone with
  | nil => trivial
  | cons entry rest inductionHypothesis =>
      exact
        ⟨forgotten.1.imp_left (implies entry),
          inductionHypothesis forgotten.2⟩

theorem forgotten_append
    (held first second : List (κ × τ)) :
    Forgotten capacity stale held (first ++ second) ↔
      Forgotten capacity stale (second ++ held) first ∧
        Forgotten capacity stale held second := by
  induction first with
  | nil => exact (iff_of_eq (true_and _)).symm
  | cons entry rest inductionHypothesis =>
      rw [List.cons_append, Forgotten, Forgotten, inductionHypothesis,
        List.append_assoc, and_assoc]

theorem forgotten_of_stale
    {held gone : List (κ × τ)} (all : ∀ entry ∈ gone, stale entry) :
    Forgotten capacity stale held gone := by
  induction gone with
  | nil => trivial
  | cons entry rest inductionHypothesis =>
      exact
        ⟨Or.inl (all entry List.mem_cons_self),
          inductionHypothesis fun other member =>
            all other (List.mem_cons_of_mem _ member)⟩

theorem forgotten_of_full
    {held gone : List (κ × τ)} (full : capacity ≤ held.length) :
    Forgotten capacity stale held gone := by
  induction gone with
  | nil => trivial
  | cons entry rest inductionHypothesis =>
      refine ⟨Or.inr (full.trans ?_), inductionHypothesis⟩
      rw [List.length_append]
      exact Nat.le_add_left _ _

theorem Forgotten.entry
    {held before after : List (κ × τ)} {entry : κ × τ}
    (forgotten :
      Forgotten capacity stale held (before ++ entry :: after)) :
    stale entry ∨ capacity ≤ (after ++ held).length :=
  ((forgotten_append held before (entry :: after)).mp forgotten).2.1

variable [DecidableEq κ]

/-- The other entries, when a key is touched once more. -/
def others (key : κ) (entries : List (κ × τ)) : List (κ × τ) :=
  entries.filter fun entry => decide (entry.1 ≠ key)

theorem others_append (key : κ) (first second : List (κ × τ)) :
    others key (first ++ second) =
      others key first ++ others key second :=
  List.filter_append _ _

theorem others_cons_of_eq
    {key : κ} {entry : κ × τ} (same : entry.1 = key)
    (rest : List (κ × τ)) : others key (entry :: rest) = others key rest :=
  List.filter_cons_of_neg (by simpa using same)

theorem others_cons_of_ne
    {key : κ} {entry : κ × τ} (different : entry.1 ≠ key)
    (rest : List (κ × τ)) :
    others key (entry :: rest) = entry :: others key rest :=
  List.filter_cons_of_pos (by simpa using different)

theorem latest_concat (touches : List (κ × τ)) (key : κ) (time : τ) :
    latest (touches ++ [(key, time)]) =
      others key (latest touches) ++ [(key, time)] := by
  rw [latest_append, others]
  simp [latest]

theorem length_le_others
    (key : κ) {entries : List (κ × τ)}
    (distinct : (entries.map Prod.fst).Nodup) :
    entries.length ≤ (others key entries).length + 1 := by
  induction entries with
  | nil => exact Nat.zero_le _
  | cons entry rest inductionHypothesis =>
      rw [List.map_cons, List.nodup_cons] at distinct
      by_cases same : entry.1 = key
      · have kept : others key rest = rest := by
          refine List.filter_eq_self.mpr fun other member => ?_
          refine decide_eq_true fun isKey => distinct.1 ?_
          exact List.mem_map.mpr ⟨other, member, isKey.trans same.symm⟩
        rw [others_cons_of_eq same]
        exact Nat.succ_le_succ (Nat.le_of_eq (congrArg _ kept.symm))
      · rw [others_cons_of_ne same]
        exact Nat.succ_le_succ (inductionHypothesis distinct.2)

/-- A touch brings its key back and leaves the others forgotten. -/
theorem Forgotten.touch
    {held gone : List (κ × τ)}
    (forgotten : Forgotten capacity stale held gone)
    (distinct : ((gone ++ held).map Prod.fst).Nodup)
    (key : κ) (time : τ) :
    Forgotten capacity stale (others key held ++ [(key, time)])
      (others key gone) := by
  induction gone with
  | nil => trivial
  | cons entry rest inductionHypothesis =>
      rw [List.cons_append, List.map_cons, List.nodup_cons] at distinct
      have later := inductionHypothesis forgotten.2 distinct.2
      by_cases same : entry.1 = key
      · rw [others_cons_of_eq same]
        exact later
      · rw [others_cons_of_ne same]
        refine ⟨forgotten.1.imp_right fun full => full.trans ?_, later⟩
        calc
          (rest ++ held).length
              ≤ (others key (rest ++ held)).length + 1 :=
            length_le_others key distinct.2
          _ = (others key rest ++
                (others key held ++ [(key, time)])).length := by
            rw [others_append, List.length_append, List.length_append,
              List.length_append, List.length_singleton, Nat.add_assoc]

end Agentcy.Library
