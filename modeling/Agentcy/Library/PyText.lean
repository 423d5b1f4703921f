import Mathlib.Data.List.Basic
import Mathlib.Data.List.DropRight
import Mathlib.Data.List.TakeWhile

/-!
# Python text

`str.strip` without arguments, which takes white space of all scripts off both
ends; `str.endswith`; `str.lower` as far as ASCII is concerned; the
substitution of a hyphen for every run of characters outside a class; and the
texts of numbers.
-/

namespace Agentcy.Library.PyText

/-- The characters of which `str.isspace` is true. -/
def isSpace (letter : Char) : Bool :=
  let code := letter.toNat
  (9 ≤ code && code ≤ 13) || (28 ≤ code && code ≤ 32) ||
    code == 0x85 || code == 0xA0 || code == 0x1680 ||
    (0x2000 ≤ code && code ≤ 0x200A) || code == 0x2028 ||
    code == 0x2029 || code == 0x202F || code == 0x205F || code == 0x3000

def stripChars (letters : List Char) : List Char :=
  ((letters.dropWhile isSpace).reverse.dropWhile isSpace).reverse

/-- `text.strip()`. -/
def strip (text : String) : String :=
  String.ofList (stripChars text.toList)

/-- The lower case of a character.  Outside ASCII only the Kelvin sign and the
dotted capital I have a lower case with ASCII in it; the others stay as they
are. -/
def lowerChar (letter : Char) : List Char :=
  if letter.toNat = 0x212A then ['k']
  else if letter.toNat = 0x130 then ['i', Char.ofNat 0x307]
  else [letter.toLower]

def lowerChars (letters : List Char) : List Char :=
  letters.flatMap lowerChar

/-- `re.sub("[^...]+", "-", text)`, where `keep` are the characters of the
class: a hyphen stands for the last character of each run. -/
def hyphenate (keep : Char → Bool) : List Char → List Char
  | [] => []
  | letter :: rest =>
      if keep letter then
        letter :: hyphenate keep rest
      else
        match rest.head? with
        | none => '-' :: hyphenate keep rest
        | some next =>
            if keep next then '-' :: hyphenate keep rest
            else hyphenate keep rest

/-- `text.endswith(tail)`. -/
def endsWith (text tail : String) : Bool :=
  tail.toList.isSuffixOf text.toList

theorem endsWith_iff {text tail : String} :
    endsWith text tail = true ↔ tail.toList <:+ text.toList :=
  List.isSuffixOf_iff_suffix

theorem stripChars_sublist (letters : List Char) :
    (stripChars letters).Sublist letters := by
  have back := (List.dropWhile_sublist isSpace
    (l := (letters.dropWhile isSpace).reverse)).reverse
  rw [List.reverse_reverse] at back
  exact back.trans (List.dropWhile_sublist isSpace)

theorem length_strip_le (text : String) :
    (strip text).toList.length ≤ text.toList.length := by
  rw [strip, String.toList_ofList]
  exact (stripChars_sublist text.toList).length_le

/-- Text that begins with a letter is stripped at its end only. -/
theorem strip_eq_self_iff
    {text : String} {first : Char} {rest : List Char}
    (shape : text.toList = first :: rest)
    (letter : isSpace first = false) :
    strip text = text ↔
      ∀ last, text.toList.getLast? = some last → isSpace last = false := by
  have front : text.toList.dropWhile isSpace = text.toList := by
    rw [shape, List.dropWhile_cons_of_neg (by simp [letter])]
  have unfolded :
      stripChars text.toList = List.rdropWhile isSpace text.toList := by
    rw [stripChars, front]
    rfl
  have asLists : strip text = text ↔
      stripChars text.toList = text.toList := by
    rw [strip]
    constructor
    · intro same
      have lists := congrArg String.toList same
      rwa [String.toList_ofList] at lists
    · intro same
      rw [same, String.ofList_toList]
  rw [asLists, unfolded, List.rdropWhile_eq_self_iff]
  have nonempty : text.toList ≠ [] := by
    rw [shape]
    exact List.cons_ne_nil first rest
  rw [List.getLast?_eq_some_getLast nonempty]
  constructor
  · intro kept last isLast
    rw [← Option.some.inj isLast]
    simpa using kept nonempty
  · intro kept _
    simp [kept _ rfl]

theorem not_mem_toString_nat
    {letter : Char} (noDigit : letter.isDigit = false) (number : Nat) :
    letter ∉ (toString number).toList := by
  intro member
  have isDigit := Nat.isDigit_of_mem_toDigits (b := 10) (n := number)
    (by decide) (by decide) (c := letter) ?_
  · rw [noDigit] at isDigit
    cases isDigit
  · simpa [toString, Nat.repr] using member

/-- The text of an integer has only digits and a sign. -/
theorem not_mem_toString_int
    {letter : Char} (noDigit : letter.isDigit = false)
    (noSign : letter ≠ '-') (number : Int) :
    letter ∉ (toString number).toList := by
  cases number with
  | ofNat size => exact not_mem_toString_nat noDigit size
  | negSucc size =>
      intro member
      change letter ∈ ("-" ++ toString (size + 1)).toList at member
      rw [String.toList_append] at member
      rcases List.mem_append.mp member with sign | inDigits
      · exact noSign (List.mem_singleton.mp sign)
      · exact not_mem_toString_nat noDigit (size + 1) inDigits

theorem toString_nat_inj
    {first second : Nat}
    (same : (toString first).toList = (toString second).toList) :
    first = second := by
  have digits : Nat.toDigits 10 first = Nat.toDigits 10 second := by
    simpa [toString, Nat.repr] using same
  have values := congrArg (fun number => Nat.ofDigitChars 10 number 0) digits
  simpa [Nat.ofDigitChars_toDigits] using values

theorem toString_int_inj
    {first second : Int}
    (same : (toString first).toList = (toString second).toList) :
    first = second := by
  have negative : ∀ size : Nat, (toString (Int.negSucc size)).toList =
      '-' :: (toString (size + 1)).toList :=
    fun size => String.toList_append
  have noSign := @not_mem_toString_nat '-' (by decide)
  cases first with
  | ofNat size =>
      cases second with
      | ofNat other => exact congrArg Int.ofNat (toString_nat_inj same)
      | negSucc other =>
          rw [negative] at same
          have signed : '-' ∈ (toString (Int.ofNat size)).toList :=
            same ▸ List.mem_cons_self
          exact absurd signed (noSign size)
  | negSucc size =>
      rw [negative] at same
      cases second with
      | ofNat other =>
          have signed : '-' ∈ (toString (Int.ofNat other)).toList :=
            same ▸ List.mem_cons_self
          exact absurd signed (noSign other)
      | negSucc other =>
          rw [negative] at same
          have sizes := toString_nat_inj (List.cons.inj same).2
          rw [Nat.succ_inj.mp sizes]

end Agentcy.Library.PyText
