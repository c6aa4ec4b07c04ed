import Mathlib.Algebra.Group.Int.Defs
import Mathlib.Data.List.Nodup

/-!
# TOML tables read as records

What `serde` makes of a TOML table: a field is looked up by its name and read at
its type, a field with a default may be missing, one without may not, and what
no field asks for is ignored. Writing and parsing the text of a table are
inverse to each other, so a file is taken as the table it holds.
-/

namespace Toml

inductive Value where
  | string (s : String)
  | integer (n : Int)
  | boolean (b : Bool)
  /-- floats, dates, arrays and tables -/
  | other
  deriving DecidableEq, Repr

/-- A table: no key stands twice. -/
structure Table where
  fields : List (String × Value)
  nodup : (fields.map Prod.fst).Nodup

/-- How a field of some type is read. -/
abbrev Decoder (α : Type) := Value → Option α

def string : Decoder String
  | .string s => some s
  | _ => none

/-- `u16`. -/
def uint16 : Decoder UInt16
  | .integer n => if 0 ≤ n ∧ n < 2 ^ 16 then some (.ofNat n.toNat) else none
  | _ => none

/-- A type that is written as text, read by its `FromStr`. -/
def viaString {α : Type} (parse : String → Option α) : Decoder α := fun v => (string v).bind parse

namespace Table

variable {α : Type} {t : Table} {key : String} {d : Decoder α}

def get (t : Table) (key : String) : Option Value := t.fields.lookup key

/-- A field without a default. -/
def required (t : Table) (key : String) (d : Decoder α) : Option α := (t.get key).bind d

/-- A field with `#[serde(default)]`. -/
def withDefault (t : Table) (key : String) (d : Decoder α) (fallback : α) : Option α :=
  match t.get key with
  | none => some fallback
  | some v => d v

/-- A required key has a value that can be decoded. -/
theorem required_eq_some {a : α} :
    t.required key d = some a ↔ ∃ v, t.get key = some v ∧ d v = some a :=
  Option.bind_eq_some_iff

/-- A key that is there is decoded, and the fallback does not matter. -/
theorem withDefault_of_get {v : Value} (h : t.get key = some v) (fallback : α) :
    t.withDefault key d fallback = d v := by
  rw [withDefault, h]

/-- What is read of a field that has to be there is read with a default as well. -/
theorem withDefault_of_required {a : α} (h : t.required key d = some a) (fallback : α) :
    t.withDefault key d fallback = some a := by
  obtain ⟨v, hv, hd⟩ := required_eq_some.mp h
  rw [withDefault_of_get hv, hd]

end Table

end Toml
