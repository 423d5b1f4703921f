import Agentcy.Library.PyJson

/-!
# JSON as text

`json.dumps(value, sort_keys=True)`: the text of a JSON value in ASCII, with
the fields of every dict in the order of their names.  The value of one field
can be cut out of the text of a dict, whatever it is.
-/

namespace Agentcy.Library.JsonText

def backslash : Char := Char.ofNat 0x5c

def quote : Char := Char.ofNat 0x22

/-- Four digits in base 16 behind a backslash and a `u`. -/
def unicodeEscape (code : Nat) : List Char :=
  [backslash, 'u'] ++ (List.range 4).map fun index =>
    Nat.digitChar (code / 16 ^ (3 - index) % 16)

/-- A character beyond the first plane is written as two surrogates. -/
def escapeChar (letter : Char) : List Char :=
  let code := letter.toNat
  if code = 0x22 then [backslash, quote]
  else if code = 0x5c then [backslash, backslash]
  else if code = 0x0a then [backslash, 'n']
  else if code = 0x0d then [backslash, 'r']
  else if code = 0x09 then [backslash, 't']
  else if code = 0x0c then [backslash, 'f']
  else if code = 0x08 then [backslash, 'b']
  else if 0x20 ≤ code ∧ code ≤ 0x7e then [letter]
  else if code < 0x10000 then unicodeEscape code
  else
    unicodeEscape (0xd800 + (code - 0x10000) / 0x400) ++
      unicodeEscape (0xdc00 + (code - 0x10000) % 0x400)

def quoted (text : String) : List Char :=
  quote :: text.toList.flatMap escapeChar ++ [quote]

def commaSeparated (texts : List (List Char)) : List Char :=
  List.intercalate [',', ' '] texts

/-- The names of two fields are in order. -/
def inOrder {α : Type} (first second : String × α) : Prop :=
  first.1 ≤ second.1

instance {α : Type} : DecidableRel (@inOrder α) :=
  fun first second => inferInstanceAs (Decidable (first.1 ≤ second.1))

def fieldText (field : String × List Char) : List Char :=
  quoted field.1 ++ [':', ' '] ++ field.2

/-- A dict whose values are texts already. -/
def dictText (fields : List (String × List Char)) : List Char :=
  ['\x7b'] ++ commaSeparated ((fields.insertionSort inOrder).map fieldText) ++
    ['\x7d']

section Dumps

-- `float.__repr__`
variable (floatRepr : Rat → List Char)

mutual

def dumps : Json → List Char
  | .null => "null".toList
  | .bool true => "true".toList
  | .bool false => "false".toList
  | .int value => (toString value).toList
  | .float value => floatRepr value
  | .str text => quoted text
  | .list items => ['['] ++ commaSeparated (dumpsItems items) ++ [']']
  | .dict fields => dictText (dumpsFields fields)

def dumpsItems : List Json → List (List Char)
  | [] => []
  | item :: rest => dumps item :: dumpsItems rest

def dumpsFields : List (String × Json) → List (String × List Char)
  | [] => []
  | (name, value) :: rest => (name, dumps value) :: dumpsFields rest

end

end Dumps

/-- A list in which one field has a value that is left open. -/
def HasHole
    {α : Type} (name : String) (list : α → List (String × α)) : Prop :=
  ∃ before after, ∀ value, list value = before ++ (name, value) :: after

theorem hasHole_set (fields : Fields) (name : String) :
    HasHole name fun value => fields.set name value := by
  unfold HasHole Fields.set
  induction fields with
  | nil =>
      exact ⟨[], [], fun _ => rfl⟩
  | cons field rest inductionHypothesis =>
      by_cases here : field.1 = name
      · exact ⟨[], rest, fun _ => if_pos here⟩
      · obtain ⟨before, after, shape⟩ := inductionHypothesis
        refine ⟨field :: before, after, fun value => ?_⟩
        rw [List.cons_append, ← shape]
        exact if_neg here

variable {α : Type} {name : String}

theorem hasHole_orderedInsert_self (list : List (String × α)) :
    HasHole name fun value => list.orderedInsert inOrder (name, value) := by
  induction list with
  | nil =>
      exact ⟨[], [], fun _ => rfl⟩
  | cons head tail inductionHypothesis =>
      by_cases first : name ≤ head.1
      · exact ⟨[], head :: tail, fun value =>
          List.orderedInsert_cons_of_le inOrder (a := (name, value)) tail
            first⟩
      · obtain ⟨front, back, inserted⟩ := inductionHypothesis
        refine ⟨head :: front, back, fun value => ?_⟩
        have later : ¬ inOrder (name, value) head := first
        exact (List.orderedInsert_of_not_le inOrder tail later).trans
          (congrArg (List.cons head) (inserted value))

theorem hasHole_orderedInsert
    {list : α → List (String × α)} (hole : HasHole name list)
    (field : String × α) :
    HasHole name fun value => (list value).orderedInsert inOrder field := by
  obtain ⟨before, after, shape⟩ := hole
  unfold HasHole
  simp only [shape]
  clear shape
  induction before with
  | nil =>
      by_cases first : field.1 ≤ name
      · exact ⟨[field], after, fun value =>
          List.orderedInsert_cons_of_le inOrder (b := (name, value)) after
            first⟩
      · refine ⟨[], after.orderedInsert inOrder field, fun value => ?_⟩
        have later : ¬ inOrder field (name, value) := first
        exact List.orderedInsert_of_not_le inOrder after later
  | cons head tail inductionHypothesis =>
      by_cases first : inOrder field head
      · exact ⟨field :: head :: tail, after, fun value =>
          List.orderedInsert_cons_of_le inOrder _ first⟩
      · obtain ⟨front, back, inserted⟩ := inductionHypothesis
        refine ⟨head :: front, back, fun value => ?_⟩
        rw [List.cons_append, List.orderedInsert_of_not_le inOrder _ first,
          inserted]
        rfl

/-- Where a field comes to stand in the order does not depend on its value. -/
theorem hasHole_insertionSort
    {list : α → List (String × α)} (hole : HasHole name list) :
    HasHole name fun value => (list value).insertionSort inOrder := by
  obtain ⟨before, after, shape⟩ := hole
  unfold HasHole
  simp only [shape]
  clear shape
  induction before with
  | nil =>
      exact hasHole_orderedInsert_self (after.insertionSort inOrder)
  | cons head tail inductionHypothesis =>
      exact hasHole_orderedInsert inductionHypothesis head

theorem commaSeparated_cons_cons
    (first second : List Char) (rest : List (List Char)) :
    commaSeparated (first :: second :: rest) =
      first ++ ([',', ' '] ++ commaSeparated (second :: rest)) := by
  rw [commaSeparated, List.intercalate_cons_cons, List.append_assoc]
  rfl

theorem commaSeparated_append (texts others : List (List Char)) :
    ∃ left right, ∀ text, commaSeparated (texts ++ text :: others) =
      left ++ text ++ right := by
  induction texts with
  | nil =>
      cases others with
      | nil =>
          refine ⟨[], [], fun text => ?_⟩
          simp [commaSeparated]
      | cons other rest =>
          refine ⟨[], [',', ' '] ++ commaSeparated (other :: rest),
            fun text => ?_⟩
          exact commaSeparated_cons_cons text other rest
  | cons first rest inductionHypothesis =>
      obtain ⟨left, right, shape⟩ := inductionHypothesis
      refine ⟨first ++ ([',', ' '] ++ left), right, fun text => ?_⟩
      have separated : commaSeparated (first :: (rest ++ text :: others)) =
          first ++ ([',', ' '] ++
            commaSeparated (rest ++ text :: others)) := by
        cases rest with
        | nil => exact commaSeparated_cons_cons _ _ _
        | cons second later => exact commaSeparated_cons_cons _ _ _
      rw [List.cons_append, separated, shape]
      simp only [List.append_assoc]

/-- The text of a field of a dict stands between two texts that do not depend
on the value. -/
theorem dictText_of_hasHole
    {list : List Char → List (String × List Char)}
    (hole : HasHole name list) :
    ∃ left right, ∀ value, dictText (list value) =
      left ++ value ++ right := by
  obtain ⟨before, after, shape⟩ := hasHole_insertionSort hole
  obtain ⟨left, right, separated⟩ :=
    commaSeparated_append (before.map fieldText) (after.map fieldText)
  refine ⟨['\x7b'] ++ left ++ (quoted name ++ [':', ' ']),
    right ++ ['\x7d'], fun value => ?_⟩
  have sorted : (list value).insertionSort inOrder =
      before ++ (name, value) :: after := shape value
  rw [dictText, sorted, List.map_append, List.map_cons, separated,
    fieldText]
  simp only [List.append_assoc]

variable {floatRepr : Rat → List Char}

theorem dumpsFields_append (fields others : Fields) :
    dumpsFields floatRepr (fields ++ others) =
      dumpsFields floatRepr fields ++ dumpsFields floatRepr others := by
  induction fields with
  | nil =>
      rfl
  | cons field rest inductionHypothesis =>
      obtain ⟨name, value⟩ := field
      rw [List.cons_append, dumpsFields, inductionHypothesis, dumpsFields]
      rfl

theorem dumps_set
    (fields : Fields) (name : String) :
    ∃ left right, ∀ value,
      dumps floatRepr (.dict (fields.set name value)) =
        left ++ dumps floatRepr value ++ right := by
  obtain ⟨before, after, shape⟩ := hasHole_set fields name
  have hole : HasHole name fun text : List Char =>
      dumpsFields floatRepr before ++
        (name, text) :: dumpsFields floatRepr after :=
    ⟨_, _, fun _ => rfl⟩
  obtain ⟨left, right, cut⟩ := dictText_of_hasHole hole
  refine ⟨left, right, fun value => ?_⟩
  have fieldsOf : fields.set name value = before ++ (name, value) :: after :=
    shape value
  rw [dumps, fieldsOf, dumpsFields_append, dumpsFields]
  exact cut (dumps floatRepr value)

/-- Dicts that differ in one field have one text only if the values of the
field do. -/
theorem dumps_of_dumps_set
    {fields : Fields} {name : String} {first second : Json}
    (same : dumps floatRepr (.dict (fields.set name first)) =
      dumps floatRepr (.dict (fields.set name second))) :
    dumps floatRepr first = dumps floatRepr second := by
  obtain ⟨left, right, cut⟩ := @dumps_set floatRepr fields name
  rw [cut, cut] at same
  exact List.append_cancel_left (List.append_cancel_right same)

end Agentcy.Library.JsonText
