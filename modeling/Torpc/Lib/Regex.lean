import Mathlib.Computability.RegularExpressions

/-!
# Regular expressions with character classes and counts

What patterns are written with, in terms of `RegularExpression`: a class `[...]`,
a sequence of classes, which is how a literal reads when letter case is ignored,
and `r{m}` and `r{m,n}`. Over classes the language of each is known in plain terms.
-/

namespace Regex

variable {α : Type}

/-- `[...]`: one of these characters. -/
def oneOf : List α → RegularExpression α
  | [] => 0
  | c :: cs => .char c + oneOf cs

/-- One character of each class. -/
def eachOf : List (List α) → RegularExpression α
  | [] => 1
  | cs :: css => oneOf cs * eachOf css

/-- `r?`. -/
def opt (r : RegularExpression α) : RegularExpression α := 1 + r

/-- `r+`. -/
def plus (r : RegularExpression α) : RegularExpression α := r * r.star

/-- `r{m,n}`. -/
def between (m n : Nat) (r : RegularExpression α) : RegularExpression α :=
  r ^ m * opt r ^ (n - m)

variable {cs w : List α}

/-- A single character matches itself alone. -/
theorem mem_char {c : α} : w ∈ (RegularExpression.char c).matches' ↔ w = [c] := Iff.rfl

/-- One of some characters matches each of them. -/
theorem mem_oneOf : w ∈ (oneOf cs).matches' ↔ ∃ c ∈ cs, w = [c] := by
  induction cs with
  | nil =>
    constructor
    · intro h
      exact absurd h (Language.notMem_zero w)
    · rintro ⟨c, hc, -⟩
      cases hc
  | cons c cs ih =>
    rw [oneOf, RegularExpression.matches'_add, Language.mem_add, mem_char, ih]
    simp only [List.mem_cons, exists_eq_or_imp]

/-- A character in front of a word of one more factor. -/
theorem mem_oneOf_mul {L : Language α} :
    w ∈ (oneOf cs).matches' * L ↔ ∃ c ∈ cs, ∃ v ∈ L, w = c :: v := by
  rw [Language.mem_mul]
  constructor
  · rintro ⟨u, hu, v, hv, rfl⟩
    obtain ⟨c, hc, rfl⟩ := mem_oneOf.mp hu
    exact ⟨c, hc, v, hv, rfl⟩
  · rintro ⟨c, hc, v, hv, rfl⟩
    exact ⟨[c], mem_oneOf.mpr ⟨c, hc, rfl⟩, v, hv, rfl⟩

/-- Repeated `n` times it matches the words of this length over them. -/
theorem mem_oneOf_pow {n : Nat} :
    w ∈ (oneOf cs ^ n).matches' ↔ w.length = n ∧ ∀ c ∈ w, c ∈ cs := by
  rw [RegularExpression.matches'_pow]
  induction n generalizing w with
  | zero =>
    rw [pow_zero, Language.mem_one, List.length_eq_zero_iff]
    constructor
    · rintro rfl
      exact ⟨rfl, fun _ => nofun⟩
    · exact And.left
  | succ n ih =>
    rw [pow_succ', mem_oneOf_mul]
    constructor
    · rintro ⟨c, hc, v, hv, rfl⟩
      obtain ⟨hlen, hall⟩ := ih.mp hv
      exact ⟨by rw [List.length_cons, hlen], List.forall_mem_cons.mpr ⟨hc, hall⟩⟩
    · rintro ⟨hlen, hall⟩
      cases w with
      | nil => cases hlen
      | cons c v =>
        obtain ⟨hc, hrest⟩ := List.forall_mem_cons.mp hall
        exact ⟨c, hc, v, ih.mpr ⟨Nat.succ.inj hlen, hrest⟩, rfl⟩

/-- Repeated up to `n` times it matches those of at most this length. -/
theorem mem_opt_pow {n : Nat} :
    w ∈ (opt (oneOf cs) ^ n).matches' ↔ w.length ≤ n ∧ ∀ c ∈ w, c ∈ cs := by
  rw [RegularExpression.matches'_pow]
  induction n generalizing w with
  | zero =>
    rw [pow_zero, Language.mem_one, Nat.le_zero, List.length_eq_zero_iff]
    constructor
    · rintro rfl
      exact ⟨rfl, fun _ => nofun⟩
    · exact And.left
  | succ n ih =>
    -- the first of the factors is left out or is a character
    rw [pow_succ', opt, RegularExpression.matches'_add, RegularExpression.matches'_epsilon,
      add_mul, one_mul, Language.mem_add, mem_oneOf_mul]
    rw [opt, RegularExpression.matches'_add, RegularExpression.matches'_epsilon] at ih
    constructor
    · rintro (hw | ⟨c, hc, v, hv, rfl⟩)
      · obtain ⟨hlen, hall⟩ := ih.mp hw
        exact ⟨by omega, hall⟩
      · obtain ⟨hlen, hall⟩ := ih.mp hv
        exact ⟨by rw [List.length_cons]; omega, List.forall_mem_cons.mpr ⟨hc, hall⟩⟩
    · rintro ⟨hlen, hall⟩
      cases w with
      | nil => exact .inl (ih.mpr ⟨Nat.zero_le _, hall⟩)
      | cons c v =>
        obtain ⟨hc, hrest⟩ := List.forall_mem_cons.mp hall
        rw [List.length_cons] at hlen
        exact .inr ⟨c, hc, v, ih.mpr ⟨by omega, hrest⟩, rfl⟩

/-- Between `m` and `n` of them match the words whose length is in the range. -/
theorem mem_between {m n : Nat} (hmn : m ≤ n) : w ∈ (between m n (oneOf cs)).matches' ↔
    (m ≤ w.length ∧ w.length ≤ n) ∧ ∀ c ∈ w, c ∈ cs := by
  rw [between, RegularExpression.matches'_mul, Language.mem_mul]
  constructor
  · rintro ⟨u, hu, v, hv, rfl⟩
    obtain ⟨hulen, huall⟩ := mem_oneOf_pow.mp hu
    obtain ⟨hvlen, hvall⟩ := mem_opt_pow.mp hv
    refine ⟨by rw [List.length_append]; omega, fun c hc => ?_⟩
    rcases List.mem_append.mp hc with hc | hc
    · exact huall c hc
    · exact hvall c hc
  · rintro ⟨⟨hlow, hhigh⟩, hall⟩
    refine ⟨w.take m, mem_oneOf_pow.mpr ⟨?_, ?_⟩, w.drop m, mem_opt_pow.mpr ⟨?_, ?_⟩,
      List.take_append_drop m w⟩
    · rw [List.length_take]
      omega
    · exact fun c hc => hall c (List.mem_of_mem_take hc)
    · rw [List.length_drop]
      omega
    · exact fun c hc => hall c (List.mem_of_mem_drop hc)

/-- At least one of them matches the words that are not empty. -/
theorem mem_plus : w ∈ (plus (oneOf cs)).matches' ↔ w ≠ [] ∧ ∀ c ∈ w, c ∈ cs := by
  have hstar : ∀ v, v ∈ (oneOf cs).star.matches' ↔ ∀ c ∈ v, c ∈ cs := by
    intro v
    rw [RegularExpression.matches'_star, Language.mem_kstar]
    constructor
    · rintro ⟨words, rfl, hwords⟩ c hc
      obtain ⟨word, hword, hc⟩ := List.mem_flatten.mp hc
      obtain ⟨d, hd, rfl⟩ := mem_oneOf.mp (hwords word hword)
      rwa [List.mem_singleton.mp hc]
    · intro hall
      have hsplit : (v.map fun c => [c]).flatten = v := by
        rw [← List.flatMap_def, List.flatMap_singleton']
      refine ⟨v.map fun c => [c], hsplit.symm, fun word hword => ?_⟩
      obtain ⟨c, hc, rfl⟩ := List.mem_map.mp hword
      exact mem_oneOf.mpr ⟨c, hall c hc, rfl⟩
  rw [plus, RegularExpression.matches'_mul, mem_oneOf_mul]
  constructor
  · rintro ⟨c, hc, v, hv, rfl⟩
    exact ⟨List.cons_ne_nil _ _, List.forall_mem_cons.mpr ⟨hc, (hstar v).mp hv⟩⟩
  · rintro ⟨hne, hall⟩
    cases w with
    | nil => exact absurd rfl hne
    | cons c v =>
      obtain ⟨hc, hv⟩ := List.forall_mem_cons.mp hall
      exact ⟨c, hc, v, (hstar v).mpr hv, rfl⟩

/-- One class of characters after the other matches the words that take a character of each,
in order. -/
theorem mem_eachOf {css : List (List α)} :
    w ∈ (eachOf css).matches' ↔ List.Forall₂ (· ∈ ·) w css := by
  induction css generalizing w with
  | nil =>
    rw [eachOf, RegularExpression.matches'_epsilon, Language.mem_one, List.forall₂_nil_right_iff]
  | cons cs css ih =>
    rw [eachOf, RegularExpression.matches'_mul, mem_oneOf_mul, List.forall₂_cons_right_iff]
    constructor
    · rintro ⟨c, hc, v, hv, rfl⟩
      exact ⟨c, v, hc, ih.mp hv, rfl⟩
    · rintro ⟨c, v, hc, hv, rfl⟩
      exact ⟨c, hc, v, ih.mpr hv, rfl⟩

end Regex
