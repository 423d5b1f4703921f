import Mathlib.Data.List.Basic
import Mathlib.Data.List.Infix

/-!
# SQL patterns

In a pattern `%` stands for any text, `_` for any character, and every other
character for itself.  A text can be continued to one that begins as a pattern
demands unless the two disagree somewhere before the first `%`.
-/

namespace Agentcy.Library.LikePattern

/-- `text LIKE pattern`. -/
def like : List Char → List Char → Bool
  | [], text => text.isEmpty
  | letter :: pattern, text =>
      if letter = '%' then text.tails.any (like pattern)
      else
        match text with
        | [] => false
        | next :: rest =>
            (decide (letter = '_') || decide (letter = next)) &&
              like pattern rest

/-- The pattern and the text agree as far as both go, or up to the first
`%`. -/
def overlaps : List Char → List Char → Bool
  | [], _ => true
  | _ :: _, [] => true
  | letter :: pattern, next :: text =>
      decide (letter = '%') ||
        (decide (letter = '_') || decide (letter = next)) &&
          overlaps pattern text

theorem like_percent (pattern text : List Char) :
    like ('%' :: pattern) text = true ↔
      ∃ rest, rest <:+ text ∧ like pattern rest = true := by
  have unfolded :
      like ('%' :: pattern) text = text.tails.any (like pattern) := by
    rw [like.eq_def]
    exact if_pos rfl
  rw [unfolded, List.any_eq_true]
  simp only [List.mem_tails]

theorem like_cons
    {letter : Char} (literal : letter ≠ '%') (pattern : List Char)
    (next : Char) (text : List Char) :
    like (letter :: pattern) (next :: text) = true ↔
      (letter = '_' ∨ letter = next) ∧ like pattern text = true := by
  rw [like, if_neg literal]
  simp

theorem not_like_nil
    {letter : Char} (literal : letter ≠ '%') (pattern : List Char) :
    like (letter :: pattern) [] = false := by
  rw [like, if_neg literal]

theorem like_any (text : List Char) : like ['%'] text = true :=
  (like_percent [] text).mpr ⟨[], List.nil_suffix, rfl⟩

/-- A text matches its own beginnings followed by `%`. -/
theorem like_of_append (front rest : List Char) :
    like (front ++ ['%']) (front ++ rest) = true := by
  induction front with
  | nil =>
      exact like_any rest
  | cons letter front inductionHypothesis =>
      rw [List.cons_append, List.cons_append]
      by_cases wild : letter = '%'
      · subst wild
        exact
          (like_percent _ _).mpr
            ⟨front ++ rest, List.suffix_cons _ _, inductionHypothesis⟩
      · exact
          (like_cons wild _ _ _).mpr ⟨Or.inr rfl, inductionHypothesis⟩

/-- Every pattern has a text. -/
theorem exists_like (pattern : List Char) :
    ∃ text, like pattern text = true := by
  induction pattern with
  | nil =>
      exact ⟨[], rfl⟩
  | cons letter pattern inductionHypothesis =>
      obtain ⟨text, matched⟩ := inductionHypothesis
      by_cases wild : letter = '%'
      · subst wild
        exact ⟨text,
          (like_percent pattern text).mpr ⟨text, List.suffix_rfl, matched⟩⟩
      · exact ⟨letter :: text,
          (like_cons wild pattern letter text).mpr ⟨Or.inr rfl, matched⟩⟩

/-- A common beginning without `%` matches itself. -/
theorem like_append_left
    {common : List Char} (literal : '%' ∉ common)
    (pattern text : List Char) :
    like (common ++ pattern) (common ++ text) = true ↔
      like pattern text = true := by
  induction common with
  | nil =>
      rfl
  | cons letter common inductionHypothesis =>
      have notWild : letter ≠ '%' := fun wild =>
        literal (wild ▸ List.mem_cons_self)
      have rest : '%' ∉ common := fun member =>
        literal (List.mem_cons_of_mem letter member)
      rw [List.cons_append, List.cons_append, like_cons notWild,
        inductionHypothesis rest]
      exact and_iff_right (Or.inr rfl)

theorem overlaps_cons_iff
    (letter next : Char) (pattern text : List Char) :
    overlaps (letter :: pattern) (next :: text) = true ↔
      letter = '%' ∨
        (letter = '_' ∨ letter = next) ∧ overlaps pattern text = true := by
  rw [overlaps]
  simp

/-- A pattern without wildcards. -/
def literal (pattern : List Char) : Bool :=
  pattern.all fun letter =>
    decide (letter ≠ '%') && decide (letter ≠ '_')

/-- What a pattern without wildcards matches, followed by `%`, begins with
it. -/
theorem prefix_of_like
    {front text : List Char} (plain : literal front = true)
    (matched : like (front ++ ['%']) text = true) :
    front <+: text := by
  induction front generalizing text with
  | nil =>
      exact List.nil_prefix
  | cons letter front inductionHypothesis =>
      rw [literal, List.all_cons, Bool.and_eq_true, Bool.and_eq_true,
        decide_eq_true_iff, decide_eq_true_iff] at plain
      obtain ⟨⟨notMany, notOne⟩, plainRest⟩ := plain
      rw [List.cons_append] at matched
      cases text with
      | nil =>
          rw [not_like_nil notMany] at matched
          cases matched
      | cons next text =>
          rw [like_cons notMany] at matched
          obtain ⟨isNext, later⟩ := matched
          rw [isNext.resolve_left notOne]
          exact
            List.prefix_cons_inj next |>.mpr
              (inductionHypothesis plainRest later)

/-- A pattern followed by `%` matches whatever a longer one does. -/
theorem like_of_like_more
    (front more : List Char) {text : List Char}
    (matched : like (front ++ (more ++ ['%'])) text = true) :
    like (front ++ ['%']) text = true := by
  induction front generalizing text with
  | nil =>
      exact like_any text
  | cons letter front inductionHypothesis =>
      rw [List.cons_append] at matched ⊢
      by_cases wild : letter = '%'
      · subst wild
        obtain ⟨rest, after, later⟩ := (like_percent _ _).mp matched
        exact (like_percent _ _).mpr
          ⟨rest, after, inductionHypothesis later⟩
      · cases text with
        | nil =>
            rw [not_like_nil wild] at matched
            cases matched
        | cons next text =>
            rw [like_cons wild] at matched ⊢
            exact ⟨matched.1, inductionHypothesis matched.2⟩

/-- A pattern overlaps a text exactly if some text that begins with the latter
matches the former followed by `%`. -/
theorem overlaps_iff (pattern text : List Char) :
    overlaps pattern text = true ↔
      ∃ rest, like (pattern ++ ['%']) (text ++ rest) = true := by
  induction pattern generalizing text with
  | nil =>
      exact iff_of_true (by rw [overlaps]) ⟨[], like_any _⟩
  | cons letter pattern inductionHypothesis =>
      cases text with
      | nil =>
          exact iff_of_true (by rw [overlaps])
            (exists_like (letter :: pattern ++ ['%']))
      | cons next text =>
          rw [overlaps_cons_iff]
          by_cases wild : letter = '%'
          · subst wild
            refine iff_of_true (Or.inl rfl) ?_
            obtain ⟨rest, matched⟩ := exists_like (pattern ++ ['%'])
            exact ⟨rest, (like_percent _ _).mpr
              ⟨rest, List.suffix_append _ rest, matched⟩⟩
          · rw [inductionHypothesis]
            simp only [wild, false_or, List.cons_append, like_cons wild]
            constructor
            · rintro ⟨same, rest, matched⟩
              exact ⟨rest, same, matched⟩
            · rintro ⟨rest, same, matched⟩
              exact ⟨same, rest, matched⟩

theorem overlaps_of_append
    {pattern text : List Char} (more rest : List Char)
    (overlap : overlaps (pattern ++ more) (text ++ rest) = true) :
    overlaps pattern text = true := by
  induction pattern generalizing text with
  | nil =>
      rw [overlaps]
  | cons letter pattern inductionHypothesis =>
      cases text with
      | nil =>
          rw [overlaps]
      | cons next text =>
          rw [List.cons_append, List.cons_append,
            overlaps_cons_iff] at overlap
          rw [overlaps_cons_iff]
          rcases overlap with wild | ⟨same, later⟩
          · exact Or.inl wild
          · exact Or.inr ⟨same, inductionHypothesis later⟩

/-- A common beginning without `%` does not decide anything. -/
theorem overlaps_append_left
    {common : List Char} (literal : '%' ∉ common)
    (pattern text : List Char) :
    overlaps (common ++ pattern) (common ++ text) = true ↔
      overlaps pattern text = true := by
  induction common with
  | nil =>
      rfl
  | cons letter common inductionHypothesis =>
      have notWild : letter ≠ '%' := fun wild =>
        literal (wild ▸ List.mem_cons_self)
      have rest : '%' ∉ common := fun member =>
        literal (List.mem_cons_of_mem letter member)
      rw [List.cons_append, List.cons_append, overlaps_cons_iff,
        inductionHypothesis rest]
      simp [notWild]

theorem overlaps_self (text : List Char) : overlaps text text = true := by
  induction text with
  | nil =>
      rfl
  | cons letter text inductionHypothesis =>
      exact (overlaps_cons_iff _ _ _ _).mpr
        (Or.inr ⟨Or.inr rfl, inductionHypothesis⟩)

end Agentcy.Library.LikePattern
