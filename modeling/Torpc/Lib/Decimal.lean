import Torpc.Lib.HostPort

/-!
# Unsigned decimal numbers

`str::parse` for the unsigned integer types: an optional plus sign and at least
one decimal digit, leading zeros allowed, and the value in range. What a text of
digits spells is `decimalValue`, and the reader accepts it exactly when the type
can hold that (`parseUnsigned_digits`).
-/

namespace Net

/-- The number that decimal digits spell. -/
def decimalValue (digits : List Char) : Nat :=
  digits.foldl (fun acc c => acc * 10 + (digitVal 10 c).getD 0) 0

/-- At least one decimal digit and nothing else. -/
def IsDigits (cs : List Char) : Prop := cs ≠ [] ∧ ∀ c ∈ cs, (digitVal 10 c).isSome

instance (cs : List Char) : Decidable (IsDigits cs) :=
  decidable_of_iff (cs ≠ [] ∧ cs.all fun c => (digitVal 10 c).isSome)
    (and_congr_right fun _ => List.all_eq_true)

def dropPlus : List Char → List Char
  | '+' :: cs => cs
  | cs => cs

/-- `str::parse` for an unsigned type whose greatest value is `limit`. -/
def parseUnsigned (limit : Nat) (s : List Char) : Option Nat :=
  match readNumber 10 none true limit (dropPlus s) with
  | some (n, []) => some n
  | _ => none

/-- `str::parse::<u64>`. -/
def parseU64 (s : String) : Option UInt64 := (parseUnsigned (2 ^ 64 - 1) s.toList).map .ofNat

/-- `str::parse::<u16>`. -/
def parseU16 (s : List Char) : Option UInt16 := (parseUnsigned (2 ^ 16 - 1) s).map .ofNat

/-- There is no sign to drop in a text of digits. -/
theorem dropPlus_digits {cs : List Char} (h : IsDigits cs) : dropPlus cs = cs := by
  unfold dropPlus
  split
  · next cs =>
    have hplus := h.2 '+' List.mem_cons_self
    exact absurd hplus (by decide)
  · rfl

/-- All of a text of digits is read as one number, if the number is in range. -/
theorem readNumber_isDigits {cs : List Char} (h : IsDigits cs) (limit : Nat) :
    readNumber 10 none true limit cs =
      if limit < decimalValue cs then none else some (decimalValue cs, []) := by
  have hdigits : (cs.takeWhile fun c => (digitVal 10 c).isSome) = cs :=
    List.takeWhile_eq_self_iff.mpr h.2
  simp only [readNumber, hdigits, if_neg h.1, Option.any_none, Bool.false_eq_true, if_false,
    Bool.not_true, Bool.false_and, List.drop_length]
  rfl

/-- Digits are accepted just if the type can hold what they spell, and then they are read as
that; leading zeros do no harm. -/
theorem parseUnsigned_digits {cs : List Char} (h : IsDigits cs) (limit : Nat) :
    parseUnsigned limit cs = if limit < decimalValue cs then none else some (decimalValue cs) := by
  unfold parseUnsigned
  rw [dropPlus_digits h, readNumber_isDigits h]
  by_cases hlimit : limit < decimalValue cs
  · rw [if_pos hlimit, if_pos hlimit]
  · rw [if_neg hlimit, if_neg hlimit]

end Net
