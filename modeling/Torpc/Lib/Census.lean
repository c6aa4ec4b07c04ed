import Torpc.Lib.Interleave
import Mathlib.Algebra.BigOperators.Group.Finset.Basic
import Mathlib.Data.Set.Card

/-!
# Effects — counters that the threads share

A server keeps a counter, and some of its operations add one to it. Whatever the
interleaving, the counter is then the sum of what each thread has added, so an
account of the whole run is put together from accounts of single threads:

* `run_counter` — the counter as a sum over the thread ids handed out so far;
* `totalOf_eq_ncard` — such a sum as the number of the threads that count;
* `settled_trace` — a thread that is gone has performed a complete trace, or one
  up to an operation at which it could be dropped;
* `Prog.Sat.log_rest` — what a program has to show for the events of one sort
  that its traces can have.
-/

namespace Effects

open Lts

-- ---------------------------------------------------------------------------
-- A monitor that writes down
-- ---------------------------------------------------------------------------

section Log

variable {Op : Type} {Res : Op → Type} {α : Type}

/-- The monitor that writes down the events of one sort. -/
def noting (watched : Event Op Res → Bool) (log : List (Event Op Res)) (e : Event Op Res) :
    List (Event Op Res) :=
  if watched e then log ++ [e] else log

/-- The log that a program's run adds to is what it was, followed by the watched events of
the run. -/
theorem foldl_noting (watched : Event Op Res → Bool) (log tr : List (Event Op Res)) :
    tr.foldl (noting watched) log = log ++ tr.filter watched := by
  induction tr generalizing log with
  | nil => rw [List.foldl_nil, List.filter_nil, List.append_nil]
  | cons e tr ih =>
    rw [List.foldl_cons, ih, noting, List.filter_cons]
    split
    · rw [List.append_assoc, List.singleton_append]
    · rfl

/-- The events of one sort in a trace are what the monitor has written down. -/
theorem Prog.Sat.log_rest {watched : Event Op Res → Bool}
    {J : List (Event Op Res) → Op → Prop} {Q : α → List (Event Op Res) → Prop}
    {p q : Prog Op Res α} {tr : List (Event Op Res)} (hp : p.Sat (noting watched) J Q [])
    (h : Trace p tr q) : q.Sat (noting watched) J Q (tr.filter watched) := by
  have hrest := hp.rest h
  rw [foldl_noting, List.nil_append] at hrest
  exact hrest

end Log

namespace System

variable {Op : Type} {Res : Op → Type} {α : Type} {S : System Op Res α}

-- ---------------------------------------------------------------------------
-- The counter
-- ---------------------------------------------------------------------------

/-- What the threads have performed, counted by thread. -/
def totalOf (counted : Event Op Res → Bool) (n : Nat) (ls : List S.Label) : Nat :=
  ∑ i ∈ Finset.range n, (eventsOf i ls).countP counted

/-- A step that is no operation adds nothing. -/
theorem totalOf_snoc {l : S.Label} (h : ∀ i, eventsOf i [l] = []) (counted : Event Op Res → Bool)
    (n : Nat) (ls : List S.Label) : totalOf counted n (ls ++ [l]) = totalOf counted n ls := by
  refine Finset.sum_congr rfl fun i _ => ?_
  rw [eventsOf_append, h i, List.append_nil]

/-- An operation adds to its own thread. -/
theorem totalOf_act {i n : Nat} (hi : i < n) (counted : Event Op Res → Bool) (e : Event Op Res)
    (ls : List S.Label) : totalOf counted n (ls ++ [.act i e]) =
      totalOf counted n ls + if counted e then 1 else 0 := by
  have hterm : ∀ j, (eventsOf j (ls ++ [.act i e])).countP counted =
      (eventsOf j ls).countP counted + if j = i then (if counted e then 1 else 0) else 0 := by
    intro j
    rw [eventsOf_append, List.countP_append]
    by_cases hj : j = i
    · subst hj
      rw [if_pos rfl, eventsOf_act_self, List.countP_singleton]
    · rw [if_neg hj, eventsOf_act_ne (Ne.symm hj), List.countP_nil]
  unfold totalOf
  rw [Finset.sum_congr rfl fun j _ => hterm j, Finset.sum_add_distrib, Finset.sum_ite_eq',
    if_pos (Finset.mem_range.mpr hi)]

/-- **The counter.** Whatever the interleaving, it is the sum of what the threads
have added. -/
theorem run_counter {value : S.Shared → Nat} {counted : Event Op Res → Bool}
    (hexec : ∀ s o r s', S.exec s o r s' →
      value s' = value s + if counted ⟨o, r⟩ then 1 else 0)
    (henv : ∀ s s', S.env s s' → value s' = value s) {s : S.Shared} {ls : List S.Label}
    {c : S.Config} (h : Run (Step S) (S.start s) ls c) :
    value c.shared = value s + totalOf counted c.next ls := by
  induction h with
  | nil => rfl
  | @snoc c c' ls l hrun hstep ih =>
    cases hstep with
    | spawn job hacc =>
      -- the new thread has performed nothing
      have hnew : (eventsOf c.next ls).countP counted = 0 := by
        rw [((run_known hrun c.next).unborn (Nat.le_refl _)).2, List.countP_nil]
      rw [totalOf_snoc (fun _ => rfl), totalOf, Finset.sum_range_succ, hnew, Nat.add_zero]
      exact ih
    | act i job o k r s' hi hex =>
      rw [totalOf_act (live_lt hrun hi), ← Nat.add_assoc, ← ih]
      exact hexec _ _ _ _ hex
    | done i job a hi =>
      rw [totalOf_snoc (fun _ => rfl)]
      exact ih
    | cancel i job o k hi hc =>
      rw [totalOf_snoc (fun _ => rfl)]
      exact ih
    | env s' hstep =>
      rw [totalOf_snoc (fun _ => rfl)]
      exact (henv _ _ hstep).trans ih

/-- If each thread counts once or not at all, the total is a number of threads. -/
theorem totalOf_eq_ncard {counted : Event Op Res → Bool} {n : Nat} {ls : List S.Label}
    {P : Nat → Prop} (hlt : ∀ i, P i → i < n)
    (hcount : ∀ i, i < n → (P i ∧ (eventsOf i ls).countP counted = 1) ∨
      (¬ P i ∧ (eventsOf i ls).countP counted = 0)) :
    totalOf counted n ls = {i | P i}.ncard := by
  classical
  have hset : {i | P i} = ((Finset.range n).filter P : Set Nat) := by
    ext i
    simp only [Set.mem_ofPred_eq, Finset.coe_filter, Finset.mem_range]
    exact ⟨fun hi => ⟨hlt i hi, hi⟩, fun hi => hi.2⟩
  rw [hset, Set.ncard_coe_finset, Finset.card_filter]
  refine Finset.sum_congr rfl fun i hi => ?_
  rcases hcount i (Finset.mem_range.mp hi) with ⟨hP, hone⟩ | ⟨hP, hzero⟩
  · rw [if_pos hP, hone]
  · rw [if_neg hP, hzero]

/-- A number of threads is that of some of them if there are no others. -/
theorem ncard_eq_iff {P Q : Nat → Prop} {n : Nat} (hlt : ∀ i, Q i → i < n)
    (hsub : ∀ i, P i → Q i) : {i | P i}.ncard = {i | Q i}.ncard ↔ ∀ i, Q i → P i := by
  have hfinite : {i | Q i}.Finite := (Set.finite_lt_nat n).subset hlt
  constructor
  · intro heq i hi
    have hset : {i | P i} = {i | Q i} := Set.eq_of_subset_of_ncard_le hsub heq.ge hfinite
    exact hset.ge hi
  · intro hsup
    rw [Set.Subset.antisymm (a := {i | P i}) (b := {i | Q i}) hsub hsup]

/-- Who performs something has been started. -/
theorem lt_of_act {s : S.Shared} {ls : List S.Label} {c : S.Config}
    (h : Run (Step S) (S.start s) ls c) {i : Nat} {e : Event Op Res} (he : .act i e ∈ ls) :
    i < c.next := by
  by_contra hge
  have hnone := ((run_known h i).unborn (by omega)).2
  rw [← mem_eventsOf, hnone] at he
  cases he

-- ---------------------------------------------------------------------------
-- Threads that are gone
-- ---------------------------------------------------------------------------

/-- A thread that is gone has returned or was dropped. -/
theorem run_gone {s : S.Shared} {ls : List S.Label} {c : S.Config}
    (h : Run (Step S) (S.start s) ls c) {i : Nat} (hi : i < c.next) (hgone : c.threads i = none) :
    (∃ a, .done i a ∈ ls) ∨ .cancel i ∈ ls := by
  induction h with
  | nil => exact absurd hi (Nat.not_lt_zero i)
  | @snoc c c' ls l hrun hstep ih =>
    -- what has been seen of the thread before this step is still there
    have hkeep : (∃ a, .done i a ∈ ls) ∨ .cancel i ∈ ls →
        (∃ a, .done i a ∈ ls ++ [l]) ∨ .cancel i ∈ ls ++ [l] := by
      rintro (⟨a, ha⟩ | hc)
      · exact .inl ⟨a, List.mem_append_left _ ha⟩
      · exact .inr (List.mem_append_left _ hc)
    cases hstep with
    | spawn job hacc =>
      have hne : i ≠ c.next := by
        rintro rfl
        simp at hgone
      refine hkeep (ih (by simp only at hi; omega) ?_)
      simpa [Function.update_of_ne hne] using hgone
    | act j job o k r s' hj hex =>
      have hne : i ≠ j := by
        rintro rfl
        simp at hgone
      refine hkeep (ih hi ?_)
      simpa [Function.update_of_ne hne] using hgone
    | done j job a hj =>
      by_cases hij : i = j
      · subst hij
        exact .inl ⟨a, by simp⟩
      · refine hkeep (ih hi ?_)
        simpa [Function.update_of_ne hij] using hgone
    | cancel j job o k hj hc =>
      by_cases hij : i = j
      · subst hij
        exact .inr (by simp)
      · refine hkeep (ih hi ?_)
        simpa [Function.update_of_ne hij] using hgone
    | env s' henv => exact hkeep (ih hi hgone)

/-- A thread that has returned is gone. -/
theorem gone_of_done {s : S.Shared} {ls : List S.Label} {c : S.Config}
    (h : Run (Step S) (S.start s) ls c) {i : Nat} {a : α} (hdone : .done i a ∈ ls) :
    c.threads i = none := by
  obtain ⟨pre, post, rfl⟩ := List.append_of_mem hdone
  obtain ⟨m, m', hrun, hstep, hpost⟩ := h.at_label
  cases hstep with
  | done _ job a hj => exact (run_silent hpost (live_lt hrun hj) (by simp)).2.1

/-- Nothing is in flight if everything that was started has returned. -/
theorem quiet_of_done {s : S.Shared} {ls : List S.Label} {c : S.Config}
    (h : Run (Step S) (S.start s) ls c) (hall : ∀ i < c.next, ∃ a, .done i a ∈ ls) (i : Nat) :
    c.threads i = none := by
  by_cases hi : i < c.next
  · obtain ⟨a, hdone⟩ := hall i hi
    exact gone_of_done h hdone
  · exact ((run_known h i).unborn (Nat.le_of_not_lt hi)).1

/-- After a run with a single job that has come to its end nobody is left at work. -/
theorem quiet_of_one {s : S.Shared} {ls : List S.Label} {c : S.Config}
    (h : Run (Step S) (S.start s) ls c) (hnext : c.next = 1) {a : α} (hdone : .done 0 a ∈ ls) :
    ∀ i, c.threads i = none := by
  refine quiet_of_done h fun i hi => ⟨a, ?_⟩
  obtain rfl : i = 0 := by omega
  exact hdone

/-- A thread that is gone has performed a complete trace of its program, or one
that stops where it could be dropped. -/
theorem settled_trace {s : S.Shared} {ls : List S.Label} {c : S.Config}
    (h : Run (Step S) (S.start s) ls c) {i : Nat} {job : S.Job} (hjob : .spawn i job ∈ ls)
    (hgone : c.threads i = none) :
    (∃ a, .done i a ∈ ls ∧ Trace (S.prog job) (eventsOf i ls) (.pure a)) ∨
    ∃ o k m, Trace (S.prog job) (eventsOf i ls) (.op o k) ∧ S.mayCancel m job o := by
  rcases run_gone h (run_spawn_lt h hjob) hgone with ⟨a, hdone⟩ | hcancel
  · exact .inl ⟨a, hdone, done_trace h hjob hdone⟩
  · obtain ⟨pre, post, rfl⟩ := List.append_of_mem hcancel
    obtain ⟨job', o, k, m, hjob', htr, -, hmay⟩ := run_cancel h
    obtain rfl : job' = job := run_spawn_unique h (List.mem_append_left _ hjob') hjob
    rw [events_cancel h]
    exact .inr ⟨o, k, m.shared, htr, hmay⟩

end System

end Effects
