import Mathlib.Algebra.Group.Nat.Defs
import Mathlib.Data.List.Basic

/-!
# JSON values and the derived codecs

The data every message of the program is made of: `serde_json::Value`, and the
part of serde's derived `Deserialize` that the program's structs rely on.

A JSON text is not modelled: a message body is the value it parses to (the
parser is a parameter where it matters). Objects are association lists read by
`Value.get`; two values are the *same JSON data* (`Value.Same`) when they agree
up to the order of object members, which is how `serde_json` compares its maps.

Derived struct decoding (`structFields`) takes the members of an object by
name, ignoring the ones it does not know, or the elements of an array by
position. An `Option` field that is absent or null decodes to `None`
(`optionValue`).
-/

namespace Torpc

/-- `serde_json::Number`: `PosInt(u64)`, `NegInt(i64)` (always negative), or a
finite `Float(f64)`, here its bit pattern. -/
inductive Number where
  | posInt (n : UInt64)
  | negInt (n : Int64) (h : n < 0)
  | float (bits : UInt64)
  deriving DecidableEq, Repr

/-- `serde_json::Value`. -/
inductive Value where
  | null
  | bool (b : Bool)
  | number (n : Number)
  | string (s : String)
  | array (xs : List Value)
  | object (members : List (String × Value))
  deriving Repr, Inhabited

namespace Number

/-- `Number::as_i64`. -/
def asI64 : Number → Option Int64
  | .posInt n => if n.toNat < 2 ^ 63 then some n.toInt64 else none
  | .negInt n _ => some n
  | .float _ => none

/-- `Number::as_u64`. -/
def asU64 : Number → Option UInt64
  | .posInt n => some n
  | .negInt _ _ => none
  | .float _ => none

/-- `Number::from(i64)`. -/
def ofI64 (n : Int64) : Number :=
  if h : n < 0 then .negInt n h else .posInt n.toUInt64

/-- A number in the `i64` range is written back as it was read. -/
theorem ofI64_asI64 {m : Number} {n : Int64} (h : m.asI64 = some n) : ofI64 n = m := by
  cases m with
  | posInt k =>
    simp only [asI64, Option.ite_none_right_eq_some, Option.some.injEq] at h
    obtain ⟨hk, rfl⟩ := h
    have hnonneg : ¬ k.toInt64 < 0 := by
      have hint : k.toInt64.toInt = k.toNat :=
        BitVec.toInt_eq_toNat_of_lt (show 2 * k.toNat < 2 ^ 64 by omega)
      rw [Int64.lt_iff_toInt_lt, hint, Int64.toInt_zero]
      omega
    simp [ofI64, hnonneg]
  | negInt k hneg =>
    simp only [asI64, Option.some.injEq] at h
    subst h
    simp [ofI64, hneg]
  | float _ => simp [asI64] at h

end Number

namespace Value

/-- `Value::get` with a member name. -/
def get (key : String) : Value → Option Value
  | .object members => members.lookup key
  | _ => none

/-- `Value::as_str`. -/
def asStr : Value → Option String
  | .string s => some s
  | _ => none

/-- `Value::as_array`. -/
def asArray : Value → Option (List Value)
  | .array xs => some xs
  | _ => none

/-- `serde_json::json!(n)` for an unsigned literal. -/
def nat (n : UInt64) : Value := .number (.posInt n)

/-- The same JSON data: equal up to the order of object members. -/
inductive Same : Value → Value → Prop where
  | refl (v : Value) : Same v v
  | array (xs ys : List Value) (hlen : xs.length = ys.length)
      (h : ∀ (i : Nat) (x y : Value), xs[i]? = some x → ys[i]? = some y → Same x y) :
      Same (.array xs) (.array ys)
  | object (ms ns : List (String × Value))
      (hkeys : ∀ key, (ms.lookup key).isSome = (ns.lookup key).isSome)
      (h : ∀ key x y, ms.lookup key = some x → ns.lookup key = some y → Same x y) :
      Same (.object ms) (.object ns)

/-- Values that agree as JSON data have the same members. -/
theorem Same.get_isSome {v w : Value} (h : Same v w) (key : String) :
    (v.get key).isSome = (w.get key).isSome := by
  cases h with
  | refl => rfl
  | array => rfl
  | object ms ns hkeys _ => exact hkeys key

/-- Values that agree as JSON data have agreeing members. -/
theorem Same.get {v w x y : Value} (h : Same v w) {key : String}
    (hx : v.get key = some x) (hy : w.get key = some y) : Same x y := by
  cases h with
  | refl =>
    rw [hx] at hy
    obtain rfl := Option.some.inj hy
    exact .refl x
  | array xs ys _ _ => simp [Value.get] at hx
  | object ms ns _ hmem => exact hmem key x y hx hy

/-- Objects with agreeing members are the same JSON data. -/
theorem Same.of_get {ms ns : List (String × Value)}
    (h : ∀ key, Option.Rel Same (ms.lookup key) (ns.lookup key)) :
    Same (.object ms) (.object ns) := by
  refine .object ms ns (fun key => ?_) (fun key x y hx hy => ?_)
  · have hk := h key
    generalize ms.lookup key = a, ns.lookup key = b at hk
    cases hk <;> rfl
  · have hk := h key
    rw [hx, hy] at hk
    cases hk with
    | some hxy => exact hxy

end Value

-- ---------------------------------------------------------------------------
-- Derived struct codecs
-- ---------------------------------------------------------------------------

/-- What a derived struct decoder finds for the fields `names`: the members of
an object (`none` for an absent one), or the elements of an array with one
element for each field. -/
def structFields (names : List String) : Value → Option (List (Option Value))
  | .object members => some (names.map fun name => members.lookup name)
  | .array xs => if xs.length = names.length then some (xs.map some) else none
  | _ => none

/-- A field of type `Option<Value>`: absent and null both decode to `None`. -/
def optionValue : Option Value → Option Value
  | none => none
  | some .null => none
  | some v => some v

@[simp] theorem optionValue_none : optionValue none = none := rfl

@[simp] theorem optionValue_null : optionValue (some .null) = none := rfl

/-- A value other than null is decoded to itself when it is optional. -/
theorem optionValue_of_ne {v : Value} (h : v ≠ .null) : optionValue (some v) = some v := by
  cases v <;> simp_all [optionValue]

/-- A member written with `skip_serializing_if = "Option::is_none"`. -/
def skipNone (name : String) : Option Value → List (String × Value)
  | none => []
  | some v => [(name, v)]

/-- A member of type `Option<Value>` without that attribute: `None` is written as null. -/
def orNull : Option Value → Value
  | none => .null
  | some v => v

/-- A lookup looks at the first member, and goes on if that has another key. -/
theorem lookup_cons_if (key name : String) (v : Value) (ms : List (String × Value)) :
    ((name, v) :: ms).lookup key = if key = name then some v else ms.lookup key := by
  by_cases hk : key = name
  · simp [hk]
  · have hb : (key == name) = false := beq_false_of_ne hk
    simp [List.lookup_cons, hb, hk]

/-- A member that is left out when it is `None` is found just if it is there. -/
theorem lookup_skipNone (key name : String) (o : Option Value) :
    (skipNone name o).lookup key = if key = name then o else none := by
  cases o with
  | none => simp [skipNone]
  | some v => rw [skipNone, lookup_cons_if, List.lookup_nil]

/-- What is decoded as optional and encoded with null for `None` is the value again, null
included. -/
theorem orNull_optionValue (v : Value) : orNull (optionValue (some v)) = v := by
  cases v <;> rfl

end Torpc
