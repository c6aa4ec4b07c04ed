import Mathlib.Algebra.BigOperators.Ring.Finset
import Mathlib.Algebra.Order.BigOperators.Group.Finset
import Torpc.Lib.Census

/-!
# Effects — how often a program performs something

`Prog.AtMost counted n p`: whatever it is answered, `p` performs at most `n` of
the operations `counted`. The rules are those of a cost that is added up along a
path: `AtMost.bind` for a sequence, `atMost_zero` where there is nothing to
count, `AtMost.countP_le` for what a trace contains.

For a server this bounds what each thread does, and with it the whole run:
`totalOf_eq_countP` counts a run's labels by thread, and `countP_le_of_each`
carries a bound from each thread to the run.
-/

namespace Effects

variable {Op : Type} {Res : Op → Type} {α β : Type}

namespace Prog

/-- What an operation costs. -/
def cost (counted : Op → Bool) (o : Op) : Nat := if counted o then 1 else 0

/-- The program performs at most so many operations of a sort. -/
def AtMost (counted : Op → Bool) : Nat → Prog Op Res α → Prop
  | _, .pure _ => True
  | n, .op o k => cost counted o ≤ n ∧ ∀ r, AtMost counted (n - cost counted o) (k r)

variable {counted : Op → Bool} {n m : Nat}

/-- A program that keeps within `n` keeps within every larger number. -/
theorem AtMost.mono {p : Prog Op Res α} (h : p.AtMost counted n) (hnm : n ≤ m) :
    p.AtMost counted m := by
  induction p generalizing n m with
  | pure a => trivial
  | op o k ih =>
    obtain ⟨hcost, hrest⟩ := h
    exact ⟨Nat.le_trans hcost hnm, fun r => ih r (hrest r) (by omega)⟩

/-- The bind rule: one program after the other costs at most what both may cost together. -/
theorem AtMost.bind {p : Prog Op Res α} {f : α → Prog Op Res β} (hp : p.AtMost counted n)
    (hf : ∀ a, (f a).AtMost counted m) : (p >>= f).AtMost counted (n + m) := by
  induction p generalizing n with
  | pure a => exact (hf a).mono (by omega)
  | op o k ih =>
    obtain ⟨hcost, hrest⟩ := hp
    refine ⟨by omega, fun r => ?_⟩
    rw [show n + m - cost counted o = (n - cost counted o) + m by omega]
    exact ih r (hrest r)

/-- The same for programs that may fail: after a failure the second one costs nothing. -/
theorem AtMost.andThen {ε : Type} {p : Prog Op Res (Except ε α)}
    {f : α → Prog Op Res (Except ε β)} (hp : p.AtMost counted n)
    (hf : ∀ a, (f a).AtMost counted m) : (p.andThen f).AtMost counted (n + m) := by
  refine hp.bind fun r => ?_
  cases r with
  | ok a => exact hf a
  | error e => trivial

/-- A program without operations of the counted kind performs none of them. -/
theorem atMost_zero {p : Prog Op Res α} (h : p.Ops fun o => counted o = false) :
    p.AtMost counted 0 := by
  induction p with
  | pure a => trivial
  | op o k ih =>
    have hcost : cost counted o = 0 := by rw [cost, h.1]; rfl
    rw [AtMost, hcost]
    exact ⟨Nat.le_refl 0, fun r => ih r (h.2 r)⟩

/-- The first operation is counted, and no later one. -/
theorem atMost_op {o : Op} {k : Res o → Prog Op Res α} (h : ∀ r, (k r).AtMost counted n) :
    (Prog.op o k).AtMost counted (n + 1) := by
  have hcost : cost counted o ≤ 1 := by
    unfold cost
    split <;> omega
  exact ⟨by omega, fun r => (h r).mono (by omega)⟩

/-- An operation that is not counted leaves the rest of the program its whole budget. -/
theorem atMost_skip {o : Op} {k : Res o → Prog Op Res α} (ho : counted o = false)
    (h : ∀ r, (k r).AtMost counted n) : (Prog.op o k).AtMost counted n := by
  have hcost : cost counted o = 0 := by rw [cost, ho]; rfl
  rw [AtMost, hcost]
  exact ⟨Nat.zero_le n, h⟩

/-- No trace of a program contains more of the counted operations than the program may
perform. -/
theorem AtMost.countP_le {p q : Prog Op Res α} {tr : List (Event Op Res)}
    (h : p.AtMost counted n) (htr : Trace p tr q) :
    tr.countP (fun e => counted e.op) ≤ n := by
  induction htr generalizing n with
  | nil => exact Nat.zero_le n
  | @cons o k r tr q _ ih =>
    obtain ⟨hcost, hrest⟩ := h
    have htail := ih (hrest r)
    rw [List.countP_cons]
    have hhead : (if counted o = true then 1 else 0) = cost counted o := rfl
    simp only [hhead]
    omega

end Prog

namespace System

variable {S : System Op Res α}

/-- A label of the run is an event of this sort. -/
def Label.performs (counted : Event Op Res → Bool) : S.Label → Bool
  | .act _ e => counted e
  | _ => false

/-- The events of one sort in a run are those of its threads. -/
theorem totalOf_eq_countP {s : S.Shared} {ls : List S.Label} {c : S.Config}
    (h : Lts.Run (Step S) (S.start s) ls c) (counted : Event Op Res → Bool) :
    totalOf counted c.next ls = ls.countP (Label.performs counted) := by
  induction h with
  | nil => rfl
  | @snoc c c' ls l hrun hstep ih =>
    rw [List.countP_append]
    cases hstep with
    | spawn job hacc =>
      have hnew : (eventsOf c.next ls).countP counted = 0 := by
        rw [((run_known hrun c.next).unborn (Nat.le_refl _)).2, List.countP_nil]
      rw [totalOf_snoc (fun _ => rfl), totalOf, Finset.sum_range_succ, hnew, Nat.add_zero]
      exact ih
    | act i job o k r s' hi hex =>
      rw [totalOf_act (live_lt hrun hi), ih, List.countP_singleton]
      rfl
    | done i job a hi =>
      rw [totalOf_snoc (fun _ => rfl)]
      exact ih
    | cancel i job o k hi hc =>
      rw [totalOf_snoc (fun _ => rfl)]
      exact ih
    | env s' henv =>
      rw [totalOf_snoc (fun _ => rfl)]
      exact ih

/-- A bound of each thread is one of the run. -/
theorem countP_le_of_each {s : S.Shared} {ls : List S.Label} {c : S.Config}
    (h : Lts.Run (Step S) (S.start s) ls c) {counted paid : Event Op Res → Bool} {n : Nat}
    (heach : ∀ i < c.next,
      (eventsOf i ls).countP counted ≤ n * (eventsOf i ls).countP paid) :
    ls.countP (Label.performs counted) ≤ n * ls.countP (Label.performs paid) := by
  rw [← totalOf_eq_countP h, ← totalOf_eq_countP h, totalOf, totalOf, Finset.mul_sum]
  exact Finset.sum_le_sum fun i hi => heach i (Finset.mem_range.mp hi)

end System

end Effects
