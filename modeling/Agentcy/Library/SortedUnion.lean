import Agentcy.Library.PyJson
import Mathlib.Data.List.Sort

/-!
# Sorted unions of texts

`sorted(set(first) | set(second))` of two lists of texts is the one list that
rises strictly and has the members of both.
-/

namespace Agentcy.Library

/-- A text as an element of a set. -/
def textItem (text : String) : Json.Key × Json :=
  (.str text, .str text)

theorem itemsOrEmpty_texts (texts : List String) :
    (Json.list (texts.map .str)).itemsOrEmpty = .ok (texts.map .str) := by
  cases texts with
  | nil => rfl
  | cons text rest => rfl

theorem orEmptyList_texts (texts : List String) :
    (Json.list (texts.map .str)).orEmptyList = .list (texts.map .str) := by
  cases texts with
  | nil => rfl
  | cons text rest => rfl

theorem map_str_injective : Function.Injective (List.map Json.str) :=
  List.map_injective_iff.mpr fun _ _ same => Json.str.inj same

theorem distinctItems_texts (texts : List String) :
    ∃ distinct : List String,
      Json.distinctItems (texts.map .str) =
          .ok (distinct.map textItem) ∧
        distinct.Nodup ∧ ∀ text, text ∈ distinct ↔ text ∈ texts := by
  induction texts with
  | nil =>
      exact ⟨[], rfl, List.nodup_nil, fun _ => Iff.rfl⟩
  | cons text rest inductionHypothesis =>
      obtain ⟨distinct, items, nodup, members⟩ := inductionHypothesis
      refine ⟨text :: distinct.filter fun other => other ≠ text,
        ?_, ?_, ?_⟩
      · have hashed : (Json.str text).hash = .ok (.str text) := rfl
        have others : (distinct.map textItem).filter
              (fun other => decide (other.1 ≠ .str text)) =
            (distinct.filter fun other => other ≠ text).map textItem := by
          rw [List.filter_map]
          congr 1
          apply List.filter_congr
          intro other _
          simp [textItem]
        rw [List.map_cons, Json.distinctItems, hashed, items,
          List.map_cons, ← others]
        rfl
      · refine List.nodup_cons.mpr ⟨?_, nodup.filter _⟩
        simp
      · intro other
        rw [List.mem_cons, List.mem_cons, List.mem_filter, members]
        by_cases same : other = text
        · simp [same]
        · simp [same]

theorem sortItems_texts (texts : List String) :
    Json.sortItems (texts.map textItem) =
      .ok ((texts.insertionSort (· ≤ ·)).map .str) := by
  have strings : (texts.map textItem).all
      (fun item => item.1.isString) = true := by
    rw [List.all_map, List.all_eq_true]
    intro text _
    rfl
  have sorted : (texts.map textItem).insertionSort
        (fun first second => first.1.le second.1 = true) =
      (texts.insertionSort (· ≤ ·)).map textItem := by
    refine (List.map_insertionSort _ _ textItem texts ?_).symm
    intro first _ second _
    simp [textItem, Json.Key.le]
  rw [Json.sortItems, if_pos (Or.inr (Or.inl strings)), sorted,
    List.map_map]
  rfl

theorem sortedUnion_texts
    {first second : Json} {texts others : List String}
    (firstTexts : first.itemsOrEmpty = .ok (texts.map .str))
    (secondTexts : second.itemsOrEmpty = .ok (others.map .str)) :
    ∃ merged : List String,
      first.sortedUnion second = .ok (merged.map .str) ∧
        merged.Pairwise (· < ·) ∧
          ∀ text, text ∈ merged ↔ text ∈ texts ∨ text ∈ others := by
  obtain ⟨distinct, items, nodup, members⟩ :=
    distinctItems_texts (texts ++ others)
  refine ⟨distinct.insertionSort (· ≤ ·), ?_, ?_, ?_⟩
  · rw [Json.sortedUnion, firstTexts, secondTexts]
    change (Json.distinctItems (texts.map .str ++ others.map .str) >>=
      Json.sortItems) = _
    rw [← List.map_append, items]
    exact sortItems_texts distinct
  · have rises := List.pairwise_insertionSort (· ≤ ·) distinct
    have apart : (distinct.insertionSort (· ≤ ·)).Nodup :=
      (List.perm_insertionSort _ distinct).nodup_iff.mpr nodup
    exact (rises.and apart).imp fun both => lt_of_le_of_ne both.1 both.2
  · intro text
    rw [List.mem_insertionSort, members, List.mem_append]

/-- A union with texts that are already there is that list, as far as it rises
strictly. -/
theorem sortedUnion_of_subset
    {first second : Json} {texts others : List String}
    (firstTexts : first.itemsOrEmpty = .ok (texts.map .str))
    (secondTexts : second.itemsOrEmpty = .ok (others.map .str))
    (inside : ∀ text ∈ others, text ∈ texts) :
    first.sortedUnion second = .ok (texts.map .str) ↔
      texts.Pairwise (· < ·) := by
  obtain ⟨merged, union, rises, members⟩ :=
    sortedUnion_texts firstTexts secondTexts
  rw [union, Except.ok.injEq]
  constructor
  · intro same
    rwa [← map_str_injective same]
  · intro ordered
    refine congrArg _ (rises.eq_of_mem_iff ordered fun text => ?_)
    rw [members]
    exact or_iff_left_of_imp (inside text)

theorem pyEq_texts_iff (texts others : List String) :
    (Json.list (texts.map .str)).pyEq (.list (others.map .str)) = true ↔
      texts = others := by
  rw [Json.pyEq]
  induction texts generalizing others with
  | nil =>
      cases others with
      | nil => simp [Json.pyEqItems]
      | cons other later => simp [Json.pyEqItems]
  | cons text rest inductionHypothesis =>
      cases others with
      | nil => simp [Json.pyEqItems]
      | cons other later =>
          rw [List.map_cons, List.map_cons, Json.pyEqItems,
            Bool.and_eq_true, inductionHypothesis, List.cons.injEq]
          have head : (Json.str text).pyEq (.str other) = true ↔
              text = other := by
            simp [Json.pyEq, Json.key?, eq_comm]
          rw [head]

end Agentcy.Library
