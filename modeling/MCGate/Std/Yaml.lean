import Mathlib.Algebra.Group.Nat.Defs
import MCGate.Std.Text

/-!
# YAML values

The tree `serde_yaml` parses a document into, and its accessors. The `as_*` accessors
look through tags, a `match` on the value does not. A mapping keeps its entries in
file order, and a key is found by comparing it with the whole key value, so a text key
is found only where the key is that very string.
-/
namespace MCGate.Yaml

inductive Number where
  | posInt (n : UInt64)
  | negInt (n : Int64)
  | float (x : Float)

inductive Value where
  | null
  | bool (b : Bool)
  | number (n : Number)
  | string (s : Text)
  | sequence (items : List Value)
  | mapping (entries : List (Value × Value))
  | tagged (tag : Text) (value : Value)

abbrev Mapping := List (Value × Value)

def Number.asI64 : Number → Option Int64
  | .posInt n => if n.toNat < 2 ^ 63 then some (Int64.ofNat n.toNat) else none
  | .negInt n => some n
  | .float _ => none

def Number.asF64 : Number → Float
  | .posInt n => Float.ofNat n.toNat
  | .negInt n => Float.ofInt n.toInt
  | .float x => x

namespace Value

def untag : Value → Value
  | .tagged _ value => untag value
  | value => value

def asStr (v : Value) : Option Text :=
  match v.untag with
  | .string s => some s
  | _ => none

def asBool (v : Value) : Option Bool :=
  match v.untag with
  | .bool b => some b
  | _ => none

def asI64 (v : Value) : Option Int64 :=
  match v.untag with
  | .number n => n.asI64
  | _ => none

def asF64 (v : Value) : Option Float :=
  match v.untag with
  | .number n => some n.asF64
  | _ => none

def asSequence (v : Value) : Option (List Value) :=
  match v.untag with
  | .sequence items => some items
  | _ => none

def asMapping (v : Value) : Option Mapping :=
  match v.untag with
  | .mapping entries => some entries
  | _ => none

/-- `v == Value::String(key)` -/
def isKey (key : Text) : Value → Bool
  | .string s => s = key
  | _ => false

/-- Assigning through `as_sequence_mut`: the tags around the value stay. -/
def modifySequence (f : List Value → List Value) : Value → Value
  | .tagged tag value => .tagged tag (modifySequence f value)
  | .sequence items => .sequence (f items)
  | value => value

/-- Assigning through `as_mapping_mut`. -/
def modifyMapping (f : Mapping → Mapping) : Value → Value
  | .tagged tag value => .tagged tag (modifyMapping f value)
  | .mapping entries => .mapping (f entries)
  | value => value

@[simp] theorem asSequence_modifySequence (f : List Value → List Value) (v : Value) :
    (v.modifySequence f).asSequence = v.asSequence.map f := by
  fun_induction modifySequence f v
  case case1 tag value ih => exact ih
  case case2 items => rfl
  case case3 value plain other =>
    cases value <;> first | rfl | exact absurd rfl (plain _ _) | exact absurd rfl (other _)

@[simp] theorem asMapping_modifyMapping (f : Mapping → Mapping) (v : Value) :
    (v.modifyMapping f).asMapping = v.asMapping.map f := by
  fun_induction modifyMapping f v
  case case1 tag value ih => exact ih
  case case2 entries => rfl
  case case3 value plain other =>
    cases value <;> first | rfl | exact absurd rfl (plain _ _) | exact absurd rfl (other _)

end Value

namespace Mapping

/-- `map.get(Value::String(key))` -/
def get (map : Mapping) (key : Text) : Option Value :=
  (map.find? fun entry => entry.1.isKey key).map Prod.snd

/-- Assigning through `map.get_mut(Value::String(key))`. -/
def modify (key : Text) (f : Value → Value) : Mapping → Mapping
  | [] => []
  | entry :: rest =>
    if entry.1.isKey key then (entry.1, f entry.2) :: rest else entry :: modify key f rest

/-- `map.insert` of a key that the map does not hold. -/
def push (map : Mapping) (key : Text) (value : Value) : Mapping := map ++ [(.string key, value)]

theorem isKey_eq {one two : Text} {v : Value} (first : v.isKey one) (second : v.isKey two) :
    one = two := by
  cases v <;> simp_all [Value.isKey]

@[simp] theorem get_modify_self (map : Mapping) (key : Text) (f : Value → Value) :
    get (modify key f map) key = (get map key).map f := by
  induction map with
  | nil => rfl
  | cons entry rest ih =>
    by_cases here : entry.1.isKey key
    · simp [modify, get, here]
    · simpa [modify, get, here] using ih

/-- Other keys keep their values. -/
theorem get_modify_of_ne {map : Mapping} {key other : Text} {f : Value → Value}
    (distinct : other ≠ key) : get (modify key f map) other = get map other := by
  induction map with
  | nil => rfl
  | cons entry rest ih =>
    by_cases here : entry.1.isKey key
    · have notOther : ¬ entry.1.isKey other := fun also => distinct (isKey_eq also here)
      simp [modify, get, here, notOther]
    · by_cases found : entry.1.isKey other
      · simp [modify, get, here, found]
      · simpa [modify, get, here, found] using ih

theorem get_push_self {map : Mapping} {key : Text} (value : Value) (absent : get map key = none) :
    get (push map key value) key = some value := by
  have notFound := Option.map_eq_none_iff.mp absent
  have here : (Value.string key).isKey key := by simp [Value.isKey]
  rw [get, push, List.find?_append, notFound, Option.none_or, List.find?_singleton, if_pos here]
  rfl

theorem get_push_of_ne {map : Mapping} {key other : Text} {value : Value}
    (distinct : other ≠ key) : get (push map key value) other = get map other := by
  have notOther : ¬ (Value.string key).isKey other := by simpa [Value.isKey] using distinct.symm
  rw [get, push, List.find?_append, List.find?_singleton, if_neg notOther, Option.or_none, get]

end Mapping

end MCGate.Yaml
