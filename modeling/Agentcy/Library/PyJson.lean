import Agentcy.Library.OrderedMap
import Mathlib.Algebra.Order.Ring.Rat
import Mathlib.Data.List.Sort
import Mathlib.Data.String.Basic

/-!
# JSON documents as Python sees them

The values that `json.loads` returns, with the built-in operations that code
without static types applies to them: truth, hashing, `dict.get`, iteration,
and the errors that each of them raises.
-/

namespace Agentcy.Library

/-- A decoded JSON value.  A number with a point is a `float`, here the
rational that it stands for. -/
inductive Json where
  | null
  | bool (value : Bool)
  | int (value : Int)
  | float (value : Rat)
  | str (text : String)
  | list (items : List Json)
  | dict (fields : List (String × Json))
  deriving Inhabited

abbrev Fields := List (String × Json)

inductive PyError where
  | attributeError
  | keyError
  | overflowError
  | typeError
  | valueError
  deriving Repr, DecidableEq

/-- A computation that may raise ends well exactly when its first part does
and the rest ends well from there. -/
theorem bind_eq_ok
    {ε α β : Type} {first : Except ε α}
    {next : α → Except ε β} {result : β} :
    (first >>= next) = .ok result ↔
      ∃ value, first = .ok value ∧ next value = .ok result := by
  cases first with
  | error _ =>
      simp [bind, Except.bind]
  | ok value =>
      simp [bind, Except.bind]

theorem bind_eq_error
    {ε α β : Type} {first : Except ε α}
    {next : α → Except ε β} {error : ε} :
    (first >>= next) = .error error ↔
      first = .error error ∨
        ∃ value, first = .ok value ∧ next value = .error error := by
  cases first with
  | error _ =>
      simp [bind, Except.bind]
  | ok value =>
      simp [bind, Except.bind]

@[simp]
theorem pure_eq_ok {ε α : Type} (value result : α) :
    (pure value : Except ε α) = .ok result ↔ value = result :=
  Except.ok.injEq value result ▸ Iff.rfl

theorem toOption_eq_some
    {α : Type} {computed : Except PyError α} {value : α} :
    computed.toOption = some value ↔ computed = .ok value := by
  cases computed with
  | error _ =>
      simp [Except.toOption]
  | ok _ =>
      simp [Except.toOption]

/-- A loop ends well exactly when every round of it does. -/
theorem mapM_eq_ok_iff
    {ε α β : Type} {read : α → Except ε β}
    {items : List α} {results : List β} :
    items.mapM read = .ok results ↔
      List.Forall₂ (fun item result => read item = .ok result)
        items results := by
  induction items generalizing results with
  | nil =>
      rw [List.mapM_nil, pure_eq_ok, List.forall₂_nil_left_iff]
      exact eq_comm
  | cons item rest inductionHypothesis =>
      rw [List.mapM_cons, bind_eq_ok, List.forall₂_cons_left_iff]
      constructor
      · rintro ⟨result, here, later⟩
        rw [bind_eq_ok] at later
        obtain ⟨others, ofRest, whole⟩ := later
        rw [pure_eq_ok] at whole
        exact
          ⟨result, others, here, inductionHypothesis.mp ofRest,
            whole.symm⟩
      · rintro ⟨result, others, here, ofRest, rfl⟩
        refine ⟨result, here, ?_⟩
        rw [bind_eq_ok]
        exact ⟨others, inductionHypothesis.mpr ofRest, rfl⟩

theorem exists_of_mem_mapM
    {ε α β : Type} {read : α → Except ε β}
    {items : List α} {results : List β}
    (all : items.mapM read = .ok results)
    {result : β} (member : result ∈ results) :
    ∃ item ∈ items, read item = .ok result := by
  have pairs := mapM_eq_ok_iff.mp all
  clear all
  induction pairs with
  | nil =>
      cases member
  | cons here _ inductionHypothesis =>
      rcases List.mem_cons.mp member with rfl | later
      · exact ⟨_, List.mem_cons_self, here⟩
      · obtain ⟨item, inRest, reads⟩ := inductionHypothesis later
        exact ⟨item, List.mem_cons_of_mem _ inRest, reads⟩

theorem getElem?_mapM_ok
    {ε α β : Type} {read : α → Except ε β}
    {items : List α} {results : List β}
    (all : items.mapM read = .ok results)
    {index : Nat} {item : α} (found : items[index]? = some item) :
    ∃ result, results[index]? = some result ∧ read item = .ok result := by
  have pairs := mapM_eq_ok_iff.mp all
  clear all
  induction pairs generalizing index with
  | nil =>
      cases found
  | cons here _ inductionHypothesis =>
      cases index with
      | zero =>
          obtain rfl := Option.some.inj found
          exact ⟨_, rfl, here⟩
      | succ index =>
          exact inductionHypothesis found

theorem exists_result_of_mapM
    {ε α β : Type} {read : α → Except ε β}
    {items : List α} {results : List β}
    (all : items.mapM read = .ok results)
    {item : α} (member : item ∈ items) :
    ∃ result ∈ results, read item = .ok result := by
  obtain ⟨index, found⟩ := List.mem_iff_getElem?.mp member
  obtain ⟨result, isResult, reads⟩ := getElem?_mapM_ok all found
  exact ⟨result, List.mem_of_getElem? isResult, reads⟩

/-- A loop over items that all succeed succeeds. -/
theorem mapM_of_all_ok
    {ε α β : Type} {read : α → Except ε β} {holds : β → Prop}
    {items : List α}
    (all : ∀ item ∈ items, ∃ result, read item = .ok result ∧
      holds result) :
    ∃ results, items.mapM read = .ok results ∧
      ∀ result ∈ results, holds result := by
  induction items with
  | nil =>
      exact ⟨[], rfl, fun _ member => absurd member List.not_mem_nil⟩
  | cons item rest inductionHypothesis =>
      obtain ⟨result, readItem, here⟩ := all item List.mem_cons_self
      obtain ⟨results, readRest, later⟩ :=
        inductionHypothesis fun other member =>
          all other (List.mem_cons_of_mem _ member)
      refine ⟨result :: results, ?_, ?_⟩
      · rw [List.mapM_cons, readItem, readRest]
        rfl
      · intro other member
        rcases List.mem_cons.mp member with rfl | isLater
        · exact here
        · exact later other isLater

/-- The built-ins whose results on unusual values are left open: `str` of
floats, lists and dicts, `dict` of values that are not dicts, and `str.upper`
and `str.lower`. -/
structure PyBuiltins where
  strOther : Json → String
  dictOther : Json → Except PyError Fields
  upper : String → String
  lower : String → String

namespace Json

/-- `bool(value)`. -/
def truthy : Json → Bool
  | .null => false
  | .bool value => value
  | .int value => decide (value ≠ 0)
  | .float value => decide (value ≠ 0)
  | .str text => decide (text ≠ "")
  | .list items => !items.isEmpty
  | .dict fields => !fields.isEmpty

/-- `str(value)`. -/
def pyStr (python : PyBuiltins) : Json → String
  | .null => "None"
  | .bool true => "True"
  | .bool false => "False"
  | .int value => toString value
  | .str text => text
  | value => python.strOther value

/-- A value as a key of a set or a dict: equal numbers are one key, and `True`
and `False` count as the numbers one and zero. -/
inductive Key where
  | null
  | number (value : Rat)
  | str (text : String)
  deriving DecidableEq

/-- The key that a value hashes to, unless it is a list or a dict. -/
def key? : Json → Option Key
  | .null => some .null
  | .bool value => some (.number (if value then 1 else 0))
  | .int value => some (.number value)
  | .float value => some (.number value)
  | .str text => some (.str text)
  | .list _ => none
  | .dict _ => none

/-- `hash(value)`, which raises on lists and dicts. -/
def hash (value : Json) : Except PyError Key :=
  match value.key? with
  | some key => .ok key
  | none => .error .typeError

/-- The receiver of `value.get`. -/
def fields : Json → Except PyError Fields
  | .dict fields => .ok fields
  | _ => .error .attributeError

theorem dict_of_fields
    {value : Json} {found : Fields} (isDict : value.fields = .ok found) :
    value = .dict found := by
  cases value with
  | dict other => exact congrArg Json.dict (Except.ok.inj isDict)
  | null => cases isDict
  | bool _ => cases isDict
  | int _ => cases isDict
  | float _ => cases isDict
  | str _ => cases isDict
  | list _ => cases isDict

/-- `dict(value)`. -/
def toDict (python : PyBuiltins) : Json → Except PyError Fields
  | .dict fields => .ok fields
  | value => python.dictOther value

/-- The items that `for item in value` visits. -/
def iterate : Json → Except PyError (List Json)
  | .list items => .ok items
  | .dict fields => .ok (fields.map fun field => .str field.1)
  | .str text =>
      .ok (text.toList.map fun letter => .str (String.singleton letter))
  | _ => .error .typeError

/-- `value or []`. -/
def orEmptyList (value : Json) : Json :=
  if value.truthy then value else .list []

/-- `list(value or [])`. -/
def itemsOrEmpty (value : Json) : Except PyError (List Json) :=
  if value.truthy then value.iterate else .ok []

/-- `first <= second` for two strings or two numbers. -/
def Key.le : Key → Key → Bool
  | .str first, .str second => decide (first ≤ second)
  | .number first, .number second => decide (first ≤ second)
  | _, _ => true

def Key.isString : Key → Bool
  | .str _ => true
  | _ => false

def Key.isNumber : Key → Bool
  | .number _ => true
  | _ => false

/-- The elements of `set(items)`, each with its key; of equal items the first
one stays. -/
def distinctItems : List Json → Except PyError (List (Key × Json))
  | [] => .ok []
  | item :: rest => do
      let key ← item.hash
      let later ← distinctItems rest
      return (key, item) :: later.filter fun other => decide (other.1 ≠ key)

/-- `sorted(items)`, which raises unless the items can be compared with one
another. -/
def sortItems (items : List (Key × Json)) : Except PyError (List Json) :=
  if items.length ≤ 1 ∨ items.all (fun item => item.1.isString) ∨
      items.all (fun item => item.1.isNumber) then
    .ok ((items.insertionSort fun first second =>
      first.1.le second.1 = true).map Prod.snd)
  else
    .error .typeError

/-- `sorted(set(first or []) | set(second or []))`. -/
def sortedUnion (first second : Json) : Except PyError (List Json) := do
  let items ← first.itemsOrEmpty
  let others ← second.itemsOrEmpty
  sortItems (← distinctItems (items ++ others))

mutual

/-- `first == second`. -/
def pyEq : Json → Json → Bool
  | .list items, .list others => pyEqItems items others
  | .dict fields, .dict others =>
      decide (fields.length = others.length) && pyEqFields fields others
  | .list _, _ => false
  | .dict _, _ => false
  | .null, other => decide (other.key? = some .null)
  | .bool value, other =>
      decide (other.key? = some (.number (if value then 1 else 0)))
  | .int value, other => decide (other.key? = some (.number value))
  | .float value, other => decide (other.key? = some (.number value))
  | .str text, other => decide (other.key? = some (.str text))

def pyEqItems : List Json → List Json → Bool
  | [], others => others.isEmpty
  | _ :: _, [] => false
  | item :: items, other :: others =>
      pyEq item other && pyEqItems items others

def pyEqFields : List (String × Json) → List (String × Json) → Bool
  | [], _ => true
  | (name, value) :: rest, others =>
      (match OrderedMap.lookupEntries name others with
        | none => false
        | some other => pyEq value other) &&
      pyEqFields rest others

end

end Json

/-! ## Hashing -/

theorem hash_eq_ok_iff
    {value : Json} {key : Json.Key} :
    value.hash = .ok key ↔ value.key? = some key := by
  unfold Json.hash
  cases value.key? with
  | none =>
      simp
  | some other =>
      simp

theorem key_eq_str_iff {value : Json} {text : String} :
    value.hash = .ok (.str text) ↔ value = .str text := by
  constructor
  · intro hashed
    cases value with
    | str found =>
        have same : Json.Key.str found = .str text :=
          Except.ok.inj hashed
        rw [Json.Key.str.inj same]
    | null => cases hashed
    | bool _ => cases hashed
    | int _ => cases hashed
    | float _ => cases hashed
    | list _ => cases hashed
    | dict _ => cases hashed
  · intro same
    rw [same]
    rfl

theorem mem_hashes
    {items : List Json} {keys : List Json.Key}
    (hashed : items.mapM Json.hash = .ok keys) (text : String) :
    Json.Key.str text ∈ keys ↔ Json.str text ∈ items := by
  induction items generalizing keys with
  | nil =>
      rw [List.mapM_nil, pure_eq_ok] at hashed
      rw [← hashed]
      simp
  | cons item rest inductionHypothesis =>
      rw [List.mapM_cons, bind_eq_ok] at hashed
      rcases hashed with ⟨key, here, hashed⟩
      rw [bind_eq_ok] at hashed
      rcases hashed with ⟨later, restHashed, hashed⟩
      rw [pure_eq_ok] at hashed
      have tail := inductionHypothesis restHashed
      rw [← hashed, List.mem_cons, List.mem_cons, tail]
      have head : Json.Key.str text = key ↔ Json.str text = item := by
        constructor
        · intro same
          rw [← same] at here
          exact (key_eq_str_iff.mp here).symm
        · intro same
          have found := key_eq_str_iff.mpr same.symm
          rw [here] at found
          exact (Except.ok.inj found).symm
      rw [head]

namespace Fields

/-- `fields.get(name)`. -/
def get (fields : Fields) (name : String) : Json :=
  (OrderedMap.lookupEntries name fields).getD .null

/-- `fields[name] = value`. -/
def set (fields : Fields) (name : String) (value : Json) : Fields :=
  OrderedMap.setEntries name value fields

/-- `fields.update(patch)`. -/
def update (fields patch : Fields) : Fields :=
  patch.foldl (fun changed field => set changed field.1 field.2) fields

@[simp]
theorem get_set_self (fields : Fields) (name : String) (value : Json) :
    (set fields name value).get name = value := by
  simp [get, set, OrderedMap.lookupEntries_setEntries]

theorem get_set_other
    (fields : Fields) {tested name : String} (value : Json)
    (different : tested ≠ name) :
    (set fields name value).get tested = fields.get tested := by
  simp [get, set, OrderedMap.lookupEntries_setEntries, different]

end Fields

end Agentcy.Library
