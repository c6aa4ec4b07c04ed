import Mathlib.Data.List.Basic
import Mathlib.Tactic.IntervalCases

/-!
# Joined text

Text made of parts with a separator character between them, and when the parts
can be read back. One separator is the easy case (`join_inj`). A *doubled*
separator stands for a gap that the text does not spell out, and the point is
that it can only be read in one place (`doubled_inj`, `join_ne_doubled`).
The parts are usually numbers, so the digits are here too.

Main results:

* `split_first`, `split_last` — a separator that one side does not contain cuts
  the text in one way;
* `infix_parts` — a text that does not contain it occurs in one of the sides;
* `join_inj`, `doubled_inj`, `join_ne_doubled`;
* `toDigits_inj` — the digits of a number determine it.
-/

namespace Joined

-- ---------------------------------------------------------------------------
-- Cutting at a separator
-- ---------------------------------------------------------------------------

/-- Where neither text has the separator in it, what stands in front of the first separator
is determined, and so is what stands behind it. -/
theorem split_first {sep : Char} {a a' r r' : List Char} (ha : sep ∉ a) (ha' : sep ∉ a')
    (h : a ++ sep :: r = a' ++ sep :: r') : a = a' ∧ r = r' := by
  induction a generalizing a' with
  | nil =>
    cases a' with
    | nil => simpa using h
    | cons x a' =>
      simp only [List.nil_append, List.cons_append, List.cons.injEq] at h
      exact absurd (h.1 ▸ List.mem_cons_self) ha'
  | cons x a ih =>
    cases a' with
    | nil =>
      simp only [List.nil_append, List.cons_append, List.cons.injEq] at h
      exact absurd (h.1 ▸ List.mem_cons_self) ha
    | cons x' a' =>
      simp only [List.cons_append, List.cons.injEq] at h
      obtain ⟨rfl, hrest⟩ := h
      obtain ⟨rfl, hr⟩ := ih (fun hm => ha (List.mem_cons_of_mem _ hm))
        (fun hm => ha' (List.mem_cons_of_mem _ hm)) hrest
      exact ⟨rfl, hr⟩

/-- The same from the other end: the last separator determines both sides. -/
theorem split_last {sep : Char} {a a' r r' : List Char} (hr : sep ∉ r) (hr' : sep ∉ r')
    (h : a ++ sep :: r = a' ++ sep :: r') : a = a' ∧ r = r' := by
  -- reversed, the last separator is the first
  have hrev : r.reverse ++ sep :: a.reverse = r'.reverse ++ sep :: a'.reverse := by
    have := congrArg List.reverse h
    simpa using this
  obtain ⟨h₁, h₂⟩ := split_first (by simpa using hr) (by simpa using hr') hrev
  exact ⟨List.reverse_injective h₂, List.reverse_injective h₁⟩

/-- A text without the separator stands on one side of it. -/
theorem infix_parts {sep : Char} {w a r : List Char} (hw : sep ∉ w) :
    w <:+: a ++ sep :: r ↔ w <:+: a ∨ w <:+: r := by
  constructor
  · rintro ⟨s, t, hst⟩
    rcases List.append_eq_append_iff.mp hst with ⟨u, rfl, -⟩ | ⟨u, hu, hr⟩
    · exact .inl ⟨s, u, rfl⟩
    cases u with
    | nil => exact .inl ⟨s, [], by rw [hu, List.append_nil, List.append_nil]⟩
    | cons c u =>
      -- the separator is not inside the text, so it is in front of it
      obtain ⟨rfl, rfl⟩ := List.cons.inj hr
      rcases List.append_eq_append_iff.mp hu with ⟨v, rfl, hv⟩ | ⟨v, rfl, hv⟩
      · exact absurd (hv ▸ List.mem_append_right v List.mem_cons_self) hw
      · cases v with
        | nil =>
          subst hv
          exact absurd List.mem_cons_self hw
        | cons c' v =>
          obtain ⟨-, rfl⟩ := List.cons.inj hv
          exact .inr ⟨v, t, rfl⟩
  · rintro (hleft | hright)
    · exact hleft.trans (List.prefix_append _ _).isInfix
    · exact (hright.trans (List.suffix_cons _ _).isInfix).trans (List.suffix_append _ _).isInfix

-- ---------------------------------------------------------------------------
-- One separator
-- ---------------------------------------------------------------------------

/-- Parts joined by a separator character. -/
def join (sep : Char) : List (List Char) → List Char
  | [] => []
  | [x] => x
  | x :: y :: xs => x ++ sep :: join sep (y :: xs)

/-- Parts that can be told apart once joined: not empty, no separator inside. -/
def Separable (sep : Char) (xs : List (List Char)) : Prop := ∀ x ∈ xs, x ≠ [] ∧ sep ∉ x

/-- Without their first text the others can still be told apart. -/
theorem Separable.tail {sep : Char} {x : List Char} {xs : List (List Char)}
    (h : Separable sep (x :: xs)) : Separable sep xs :=
  fun y hy => h y (List.mem_cons_of_mem _ hy)

/-- A join of at least one text is not empty, since the texts are not. -/
theorem join_ne_nil {sep : Char} {x : List Char} {xs : List (List Char)}
    (h : Separable sep (x :: xs)) : join sep (x :: xs) ≠ [] := by
  have hx : x ≠ [] := (h x List.mem_cons_self).1
  cases xs with
  | nil => exact hx
  | cons y ys => simp [join]

/-- A part followed by anything does not begin with the separator. -/
theorem part_head_ne {sep : Char} {x : List Char} {xs : List (List Char)}
    (h : Separable sep (x :: xs)) (r r' : List Char) : x ++ r ≠ sep :: r' := by
  intro heq
  obtain ⟨hne, hsep⟩ := h x List.mem_cons_self
  obtain ⟨c, cs, rfl⟩ := List.exists_cons_of_ne_nil hne
  rw [List.cons_append, List.cons.injEq] at heq
  exact hsep (heq.1 ▸ List.mem_cons_self)

/-- No join begins with the separator. -/
theorem join_head_ne {sep : Char} {xs : List (List Char)} (h : Separable sep xs)
    (r : List Char) : join sep xs ≠ sep :: r := by
  cases xs with
  | nil => simp [join]
  | cons x xs =>
    cases xs with
    | nil => simpa [join] using part_head_ne h [] r
    | cons y ys => exact part_head_ne h _ r

/-- One part and no separator is not a join of two or more. -/
theorem part_ne_join {sep : Char} {x y z : List Char} {xs ys : List (List Char)}
    (h : Separable sep (x :: xs)) : x ≠ join sep (y :: z :: ys) := by
  intro heq
  refine (h x List.mem_cons_self).2 ?_
  rw [heq]
  simp [join]

/-- So a join can be taken apart again: it determines its texts. -/
theorem join_inj {sep : Char} {xs ys : List (List Char)} (hx : Separable sep xs)
    (hy : Separable sep ys) (h : join sep xs = join sep ys) : xs = ys := by
  induction xs generalizing ys with
  | nil =>
    cases ys with
    | nil => rfl
    | cons y ys => exact absurd h.symm (join_ne_nil hy)
  | cons x xs ih =>
    cases ys with
    | nil => exact absurd h (join_ne_nil hx)
    | cons y ys =>
      -- the number of parts agrees because a separator follows all but the last
      cases xs with
      | nil =>
        cases ys with
        | nil => simpa [join] using h
        | cons y' ys => exact absurd h (part_ne_join hx)
      | cons x' xs =>
        cases ys with
        | nil => exact absurd h.symm (part_ne_join hy)
        | cons y' ys =>
          obtain ⟨rfl, hrest⟩ :=
            split_first (hx x List.mem_cons_self).2 (hy y List.mem_cons_self).2 h
          rw [ih hx.tail hy.tail hrest]

-- ---------------------------------------------------------------------------
-- A doubled separator
-- ---------------------------------------------------------------------------

/-- Two joins with a doubled separator between them. -/
def doubled (sep : Char) (xs ys : List (List Char)) : List Char :=
  join sep xs ++ sep :: sep :: join sep ys

/-- The first text of a doubled join stands in front of a separator, with two of them in a
row if it is the last before the gap. -/
theorem doubled_cons (sep : Char) (x : List Char) (xs ys : List (List Char)) :
    doubled sep (x :: xs) ys =
      x ++ sep :: (if xs = [] then sep :: join sep ys else doubled sep xs ys) := by
  cases xs with
  | nil => simp [doubled, join]
  | cons x' xs => simp [doubled, join]

/-- With a part in front, the text does not begin with the separator. -/
theorem doubled_head_ne {sep : Char} {xs : List (List Char)} (hx : Separable sep xs)
    (hne : xs ≠ []) (ys : List (List Char)) (r : List Char) : doubled sep xs ys ≠ sep :: r := by
  cases xs with
  | nil => exact absurd rfl hne
  | cons x xs =>
    rw [doubled_cons]
    exact part_head_ne hx _ r

/-- The gap can be found as well, so a doubled join determines the texts on either side of
it. -/
theorem doubled_inj {sep : Char} {xs xs' ys ys' : List (List Char)} (hx : Separable sep xs)
    (hx' : Separable sep xs') (hy : Separable sep ys) (hy' : Separable sep ys')
    (h : doubled sep xs ys = doubled sep xs' ys') : xs = xs' ∧ ys = ys' := by
  induction xs generalizing xs' with
  | nil =>
    by_cases hn : xs' = []
    · subst hn
      simp only [doubled, join, List.nil_append, List.cons.injEq, true_and] at h
      exact ⟨rfl, join_inj hy hy' h⟩
    · exact absurd h.symm (doubled_head_ne hx' hn ys' _)
  | cons x xs ih =>
    cases xs' with
    | nil => exact absurd h (doubled_head_ne hx (List.cons_ne_nil x xs) ys _)
    | cons x' xs' =>
      rw [doubled_cons, doubled_cons] at h
      obtain ⟨rfl, hrest⟩ :=
        split_first (hx x List.mem_cons_self).2 (hx' x' List.mem_cons_self).2 h
      by_cases hn : xs = [] <;> by_cases hn' : xs' = []
      · rw [if_pos hn, if_pos hn', List.cons.injEq] at hrest
        exact ⟨by rw [hn, hn'], join_inj hy hy' hrest.2⟩
      -- one side goes on with a part, the other with the separator
      · rw [if_pos hn, if_neg hn'] at hrest
        exact absurd hrest.symm (doubled_head_ne hx'.tail hn' ys' _)
      · rw [if_neg hn, if_pos hn'] at hrest
        exact absurd hrest (doubled_head_ne hx.tail hn ys _)
      · rw [if_neg hn, if_neg hn'] at hrest
        obtain ⟨rfl, rfl⟩ := ih hx.tail hx'.tail hrest
        exact ⟨rfl, rfl⟩

/-- A plain join has no two separators in a row, and is no doubled one. -/
theorem join_ne_doubled {sep : Char} {xs xs' ys : List (List Char)} (hx : Separable sep xs)
    (hx' : Separable sep xs') : join sep xs ≠ doubled sep xs' ys := by
  induction xs' generalizing xs with
  | nil => exact join_head_ne hx _
  | cons x' xs' ih =>
    rw [doubled_cons]
    cases xs with
    | nil => simp [join]
    | cons x xs =>
      cases xs with
      | nil =>
        -- a single part would have to contain the separator
        intro h
        refine (hx x List.mem_cons_self).2 ?_
        rw [show x = _ from h]
        simp
      | cons y ys' =>
        intro h
        obtain ⟨-, hrest⟩ :=
          split_first (hx x List.mem_cons_self).2 (hx' x' List.mem_cons_self).2 h
        by_cases hn : xs' = []
        · -- past the last part in front of it, the doubled separator begins
          rw [if_pos hn] at hrest
          exact join_head_ne hx.tail _ hrest
        · rw [if_neg hn] at hrest
          exact ih hx.tail hx'.tail hrest

/-- A character of a join is the separator or stands in a part. -/
theorem mem_join {sep c : Char} {xs : List (List Char)} (hc : c ∈ join sep xs) :
    c = sep ∨ ∃ x ∈ xs, c ∈ x := by
  induction xs with
  | nil => simp [join] at hc
  | cons x xs ih =>
    cases xs with
    | nil => exact .inr ⟨x, List.mem_cons_self, hc⟩
    | cons y ys =>
      simp only [join, List.mem_append, List.mem_cons] at hc
      rcases hc with hc | hc | hc
      · exact .inr ⟨x, List.mem_cons_self, hc⟩
      · exact .inl hc
      · rcases ih hc with hc | ⟨z, hz, hc⟩
        · exact .inl hc
        · exact .inr ⟨z, List.mem_cons_of_mem _ hz, hc⟩

-- ---------------------------------------------------------------------------
-- Digits
-- ---------------------------------------------------------------------------

/-- Hexadecimal digits are different for different values. -/
theorem digitChar_inj {m n : Nat} (hm : m < 16) (hn : n < 16)
    (h : m.digitChar = n.digitChar) : m = n := by
  interval_cases m <;> interval_cases n <;> first | rfl | (revert h; decide)

/-- The base-`b` digits determine the number. -/
theorem toDigits_inj {b : Nat} (hb : 1 < b) (hb' : b ≤ 16) {m n : Nat}
    (h : Nat.toDigits b m = Nat.toDigits b n) : m = n := by
  induction m using Nat.strong_induction_on generalizing n with
  | _ m ih =>
    have hdigits : ∀ k, Nat.toDigits b k =
        if k < b then [k.digitChar] else Nat.toDigits b (k / b) ++ [(k % b).digitChar] :=
      fun k => Nat.toDigits_eq_if hb
    rw [hdigits m, hdigits n] at h
    have hpos : ∀ k, 0 < (Nat.toDigits b k).length := fun k =>
      List.length_pos_iff.mpr Nat.toDigits_ne_nil
    have hlen := congrArg List.length h
    by_cases hm : m < b <;> by_cases hn : n < b
    · rw [if_pos hm, if_pos hn] at h
      exact digitChar_inj (by omega) (by omega) (by simpa using h)
    -- one digit against at least two
    · rw [if_pos hm, if_neg hn, List.length_append, List.length_singleton,
        List.length_singleton] at hlen
      have := hpos (n / b)
      omega
    · rw [if_neg hm, if_pos hn, List.length_append, List.length_singleton,
        List.length_singleton] at hlen
      have := hpos (m / b)
      omega
    · rw [if_neg hm, if_neg hn] at h
      obtain ⟨hquot, hrem⟩ := List.append_inj' h rfl
      have hq : m / b = n / b := ih (m / b) (Nat.div_lt_self (by omega) hb) hquot
      have hr : m % b = n % b := by
        have hmb : m % b < b := Nat.mod_lt _ (by omega)
        have hnb : n % b < b := Nat.mod_lt _ (by omega)
        exact digitChar_inj (by omega) (by omega) (by simpa using hrem)
      rw [← Nat.div_add_mod m b, ← Nat.div_add_mod n b, hq, hr]

/-- A character that is no digit does not occur. -/
theorem notMem_toDigits {b : Nat} (hb : 1 < b) (hb' : b ≤ 16) {c : Char}
    (hc : ∀ d < 16, d.digitChar ≠ c) (n : Nat) : c ∉ Nat.toDigits b n := by
  induction n using Nat.strong_induction_on with
  | _ n ih =>
    rw [Nat.toDigits_eq_if hb]
    by_cases hn : n < b
    · rw [if_pos hn, List.mem_singleton]
      exact (hc n (by omega)).symm
    · have hlt : n % b < b := Nat.mod_lt _ (by omega)
      rw [if_neg hn, List.mem_append, List.mem_singleton]
      rintro (hquot | hrem)
      · exact ih (n / b) (Nat.div_lt_self (by omega) hb) hquot
      · exact hc (n % b) (by omega) hrem.symm

end Joined
