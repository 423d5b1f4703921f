import Mathlib.Data.List.Lex
import Mathlib.Data.Nat.Log
import Mathlib.Data.String.Basic

/-!
# Times as text

Numbers that are padded to a fixed width, each followed by a mark, compare as
text in the way in which the numbers compare one after another.  The text of a
UTC time with microseconds is of this form.
-/

namespace Agentcy.Library

/-- The last `width` decimal digits of a number. -/
def padded : Nat → Nat → List Char
  | 0, _ => []
  | width + 1, number =>
      padded width (number / 10) ++ [Nat.digitChar (number % 10)]

theorem length_padded (width number : Nat) :
    (padded width number).length = width := by
  induction width generalizing number with
  | zero =>
      rfl
  | succ width inductionHypothesis =>
      rw [padded, List.length_append, inductionHypothesis]
      rfl

/-- Lists of one length are compared before what follows them. -/
theorem append_lt_append_iff
    {α : Type*} [LinearOrder α] {first second rest other : List α}
    (same : first.length = second.length) :
    first ++ rest < second ++ other ↔
      first < second ∨ first = second ∧ rest < other := by
  induction first generalizing second with
  | nil =>
      have empty : second = [] := List.length_eq_zero_iff.mp same.symm
      subst empty
      simp
  | cons head tail inductionHypothesis =>
      cases second with
      | nil =>
          cases same
      | cons next later =>
          have lengths := Nat.succ.inj same
          rw [List.cons_append, List.cons_append, List.cons_lt_cons_iff,
            List.cons_lt_cons_iff, inductionHypothesis lengths,
            List.cons.injEq]
          tauto

theorem digitChar_lt_iff
    {first second : Nat} (small : first < 10) (other : second < 10) :
    Nat.digitChar first < Nat.digitChar second ↔ first < second := by
  have digits : ∀ left right : Fin 10,
      Nat.digitChar left < Nat.digitChar right ↔ left < right := by
    decide
  exact digits ⟨first, small⟩ ⟨second, other⟩

theorem padded_lt_iff
    {width first second : Nat}
    (small : first < 10 ^ width) (other : second < 10 ^ width) :
    (padded width first < padded width second ↔ first < second) ∧
      (padded width first = padded width second ↔ first = second) := by
  induction width generalizing first second with
  | zero =>
      rw [pow_zero] at small other
      have zeroFirst : first = 0 := by omega
      have zeroSecond : second = 0 := by omega
      subst zeroFirst zeroSecond
      simp [padded]
  | succ width inductionHypothesis =>
      rw [pow_succ] at small other
      obtain ⟨less, equal⟩ := inductionHypothesis
        (Nat.div_lt_of_lt_mul (by omega : first < 10 * 10 ^ width))
        (Nat.div_lt_of_lt_mul (by omega : second < 10 * 10 ^ width))
      have firstDigit := Nat.mod_lt first (by decide : 0 < 10)
      have secondDigit := Nat.mod_lt second (by decide : 0 < 10)
      have digits := digitChar_lt_iff firstDigit secondDigit
      have reversed := digitChar_lt_iff secondDigit firstDigit
      have sameDigit :
          Nat.digitChar (first % 10) = Nat.digitChar (second % 10) ↔
            first % 10 = second % 10 := by
        rw [← not_iff_not, ← ne_eq, ← ne_eq, ne_iff_lt_or_gt,
          ne_iff_lt_or_gt]
        exact or_congr digits reversed
      have lengths : (padded width (first / 10)).length =
          (padded width (second / 10)).length := by
        rw [length_padded, length_padded]
      constructor
      · rw [padded, padded, append_lt_append_iff lengths, less, equal,
          List.cons_lt_cons_iff, digits]
        simp only [List.not_lt_nil, and_false, or_false]
        omega
      · have parts : padded width (first / 10) ++
              [Nat.digitChar (first % 10)] =
            padded width (second / 10) ++
              [Nat.digitChar (second % 10)] ↔
            first / 10 = second / 10 ∧ first % 10 = second % 10 := by
          rw [← equal, ← sameDigit]
          constructor
          · intro same
            obtain ⟨front, back⟩ := List.append_inj same lengths
            exact ⟨front, List.singleton_inj.mp back⟩
          · rintro ⟨front, back⟩
            rw [front, back]
        rw [padded, padded, parts]
        omega

/-- The widths of the numbers of a text and the marks that follow them. -/
abbrev TimeFormat := List (Nat × Char)

def render : TimeFormat → List Nat → List Char
  | (width, mark) :: format, number :: numbers =>
      padded width number ++ mark :: render format numbers
  | _, _ => []

/-- The numbers fit into their widths. -/
def Fits (format : TimeFormat) (numbers : List Nat) : Prop :=
  List.Forall₂ (fun part number => number < 10 ^ part.1) format numbers

theorem render_lt_iff
    {format : TimeFormat} {first second : List Nat}
    (fits : Fits format first) (others : Fits format second) :
    render format first < render format second ↔ first < second := by
  unfold Fits at fits others
  induction fits generalizing second with
  | nil =>
      cases others
      simp [render]
  | @cons part number format numbers small _ inductionHypothesis =>
      cases others with
      | @cons _ other _ rest smallOther fitsOther =>
          obtain ⟨less, equal⟩ := padded_lt_iff small smallOther
          have lengths : (padded part.1 number).length =
              (padded part.1 other).length := by
            rw [length_padded, length_padded]
          rw [render, render, append_lt_append_iff lengths, less, equal,
            List.cons_lt_cons_iff, List.cons_lt_cons_iff,
            inductionHypothesis fitsOther]
          simp

/-- A `datetime` in UTC. -/
structure UtcTime where
  year : Nat
  month : Nat
  day : Nat
  hour : Nat
  minute : Nat
  second : Nat
  microsecond : Nat
  yearFits : year < 10000
  monthFits : month ≤ 12
  dayFits : day ≤ 31
  hourFits : hour < 24
  minuteFits : minute < 60
  secondFits : second < 60
  microsecondFits : microsecond < 1000000

namespace UtcTime

/-- The numbers of a time, the greater units first: of two times, the one with
the greater list is the later one. -/
def moment (time : UtcTime) : List Nat :=
  [time.year, time.month, time.day, time.hour, time.minute, time.second,
    time.microsecond]

def secondFormat : TimeFormat :=
  [(4, '-'), (2, '-'), (2, 'T'), (2, ':'), (2, ':'), (2, 'Z')]

def microsecondFormat : TimeFormat :=
  [(4, '-'), (2, '-'), (2, 'T'), (2, ':'), (2, ':'), (2, '.'), (6, 'Z')]

/-- The time as it is dumped to JSON; the fraction is left out if it is
zero. -/
def isoText (time : UtcTime) : String :=
  String.ofList
    (if time.microsecond = 0 then render secondFormat time.moment
    else render microsecondFormat time.moment)

theorem fits_moment (time : UtcTime) :
    Fits microsecondFormat time.moment := by
  have year := time.yearFits
  have month := time.monthFits
  have day := time.dayFits
  have hour := time.hourFits
  have minute := time.minuteFits
  have second := time.secondFits
  have microsecond := time.microsecondFits
  simp only [Fits, microsecondFormat, moment, List.forall₂_cons]
  refine ⟨?_, ?_, ?_, ?_, ?_, ?_, ?_, List.Forall₂.nil⟩ <;> omega

/-- Among times with a fraction the later one has the greater text. -/
theorem isoText_le_iff
    {first second : UtcTime} (fraction : first.microsecond ≠ 0)
    (other : second.microsecond ≠ 0) :
    first.isoText ≤ second.isoText ↔ first.moment ≤ second.moment := by
  have less := render_lt_iff second.fits_moment first.fits_moment
  rw [← not_lt, ← not_lt, ← less, String.lt_iff_toList_lt, isoText,
    isoText, if_neg fraction, if_neg other, String.toList_ofList,
    String.toList_ofList]

/-- A full second has a greater text than the fractions that follow it. -/
example :
    String.ofList (render microsecondFormat [2025, 1, 1, 0, 0, 0, 5]) <
      String.ofList (render secondFormat [2025, 1, 1, 0, 0, 0]) := by
  decide

end UtcTime

end Agentcy.Library
