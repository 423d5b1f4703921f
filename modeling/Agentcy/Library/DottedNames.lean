import Agentcy.Library.PyText

/-!
# Names that end in a random identifier

The text of a `uuid4` has neither dots nor white space in it.  Appended to a
name after a dot it can be read off again, so that names made from different
identifiers are different.
-/

namespace Agentcy.Library

open PyText

/-- The text of a `uuid4`. -/
@[ext]
structure Uuid where
  text : String
  nonempty : text ≠ ""
  letters : ∀ letter ∈ text.toList,
    letter.isDigit || ('a' ≤ letter && letter ≤ 'f') || letter == '-'
  deriving DecidableEq

/-- Nothing stands before the first separator of a list that begins with
it. -/
theorem nil_of_separator_cons
    {separator : Char} {between back rest : List Char}
    (free : separator ∉ back)
    (same : separator :: back = between ++ separator :: rest) :
    between = [] := by
  cases between with
  | nil =>
      rfl
  | cons letter later =>
      have inside : back = later ++ separator :: rest :=
        (List.cons.inj same).2
      have member : separator ∈ later ++ separator :: rest :=
        List.mem_append_right later List.mem_cons_self
      rw [← inside] at member
      exact absurd member free

/-- The last separator divides a list into its two parts. -/
theorem append_separator_inj
    {separator : Char} {front other back rest : List Char}
    (first : separator ∉ back) (second : separator ∉ rest)
    (same : front ++ separator :: back = other ++ separator :: rest) :
    front = other ∧ back = rest := by
  rcases List.append_eq_append_iff.mp same with
    ⟨between, split, tails⟩ | ⟨between, split, tails⟩
  · have empty := nil_of_separator_cons first tails
    rw [empty, List.append_nil] at split
    rw [empty] at tails
    exact ⟨split.symm, (List.cons.inj tails).2⟩
  · have empty := nil_of_separator_cons second tails
    rw [empty, List.append_nil] at split
    rw [empty] at tails
    exact ⟨split, (List.cons.inj tails).2.symm⟩

namespace Uuid

/-- `f".{id}"`. -/
def tail (id : Uuid) : String :=
  "." ++ id.text

/-- `f"{base}.{id}"`. -/
def dotted (base : String) (id : Uuid) : String :=
  base ++ "." ++ id.text

theorem no_dot (id : Uuid) : '.' ∉ id.text.toList := by
  intro member
  have allowed := id.letters '.' member
  revert allowed
  decide

theorem no_space
    (id : Uuid) {letter : Char} (member : letter ∈ id.text.toList) :
    isSpace letter = false := by
  have allowed := id.letters letter member
  simp only [Char.isDigit, Bool.or_eq_true, Bool.and_eq_true,
    decide_eq_true_eq, beq_iff_eq] at allowed
  have code : 45 = letter.toNat ∨ 48 ≤ letter.toNat ∧
      letter.toNat ≤ 57 ∨ 97 ≤ letter.toNat ∧ letter.toNat ≤ 102 := by
    rcases allowed with (digit | hexadecimal) | hyphen
    · exact Or.inr (Or.inl digit)
    · exact Or.inr (Or.inr hexadecimal)
    · rw [hyphen]
      exact Or.inl rfl
  simp only [isSpace, Bool.or_eq_false_iff, Bool.and_eq_false_iff,
    decide_eq_false_iff_not, beq_eq_false_iff_ne]
  omega

theorem toList_tail (id : Uuid) :
    id.tail.toList = '.' :: id.text.toList := by
  rw [tail, String.toList_append]
  rfl

theorem toList_dotted (base : String) (id : Uuid) :
    (dotted base id).toList =
      base.toList ++ '.' :: id.text.toList := by
  rw [dotted, String.toList_append, String.toList_append,
    List.append_assoc]
  rfl

theorem dotted_inj
    {base other : String} {id second : Uuid}
    (same : dotted base id = dotted other second) :
    base = other ∧ id = second := by
  have lists := congrArg String.toList same
  rw [toList_dotted, toList_dotted] at lists
  have parts := append_separator_inj id.no_dot second.no_dot lists
  refine ⟨String.ext parts.1, ?_⟩
  ext1
  exact String.ext parts.2

theorem endsWith_tail_iff
    (name : String) (id : Uuid) :
    endsWith name id.tail = true ↔ ∃ base, name = dotted base id := by
  rw [endsWith_iff, toList_tail]
  constructor
  · intro suffix
    rcases suffix with ⟨front, split⟩
    refine ⟨String.ofList front, ?_⟩
    apply String.ext
    rw [toList_dotted, String.toList_ofList, split]
  · intro shape
    rcases shape with ⟨base, same⟩
    rw [same, toList_dotted]
    exact List.suffix_append _ _

theorem endsWith_dotted (base : String) (id : Uuid) :
    endsWith (dotted base id) id.tail = true :=
  (endsWith_tail_iff _ _).mpr ⟨base, rfl⟩

theorem dotted_ne_empty (id : Uuid) (base : String) :
    dotted base id ≠ "" := by
  intro empty
  have parts := String.append_eq_empty_iff.mp empty
  exact id.nonempty parts.2

theorem ne_dotted (base : String) (id : Uuid) :
    base ≠ dotted base id := by
  intro same
  have lengths := congrArg List.length (congrArg String.toList same)
  rw [toList_dotted, List.length_append, List.length_cons] at lengths
  omega

/-- Text followed by an identifier does not end in white space. -/
theorem strip_append
    {text : String} {first : Char} {rest : List Char}
    (shape : text.toList = first :: rest)
    (letter : isSpace first = false) (id : Uuid) :
    strip (text ++ id.text) = text ++ id.text := by
  have whole :
      (text ++ id.text).toList = first :: (rest ++ id.text.toList) := by
    rw [String.toList_append, shape]
    rfl
  rw [strip_eq_self_iff whole letter]
  intro last isLast
  have nonempty : id.text.toList ≠ [] := by
    intro empty
    exact id.nonempty (String.ext empty)
  apply id.no_space
  rw [String.toList_append,
    List.getLast?_append_of_ne_nil _ nonempty] at isLast
  exact List.mem_of_getLast? isLast

end Uuid

end Agentcy.Library
