import Mathlib.Data.List.Induction

/-!
# Runs of a labelled transition system

`Run Step s ls t`: the steps labelled `ls`, in order, lead from `s` to `t`. The
label list is the observable history; claims about a run are claims about its
labels and about the states between them, which `Run.split` recovers.
-/

namespace Lts

variable {σ L : Type}

/-- A finite run of the relation `Step`, with the labels it went through. -/
inductive Run (Step : σ → L → σ → Prop) : σ → List L → σ → Prop where
  | nil (s : σ) : Run Step s [] s
  | snoc {s t u : σ} {ls : List L} {l : L} :
      Run Step s ls t → Step t l u → Run Step s (ls ++ [l]) u

variable {Step : σ → L → σ → Prop} {s t u : σ} {ls ls' : List L} {l : L}

/-- A run that ends with a step is a run up to there, and that step. -/
theorem run_snoc (h : Run Step s (ls ++ [l]) u) : ∃ t, Run Step s ls t ∧ Step t l u := by
  generalize hls : ls ++ [l] = ls' at h
  cases h with
  | nil => simp at hls
  | snoc hrun hstep =>
    obtain ⟨rfl, hl⟩ := List.append_inj' hls rfl
    obtain rfl := List.head_eq_of_cons_eq hl
    exact ⟨_, hrun, hstep⟩

/-- One step is a run. -/
theorem Run.single (h : Step s l t) : Run Step s [l] t :=
  (Run.nil s).snoc h

/-- A run that goes on where another has ended is one run with it. -/
theorem Run.append (h : Run Step s ls t) (h' : Run Step t ls' u) :
    Run Step s (ls ++ ls') u := by
  induction h' with
  | nil => simpa using h
  | snoc _ hstep ih =>
    rw [← List.append_assoc]
    exact ih.snoc hstep

/-- The state between two parts of a run. -/
theorem Run.split (h : Run Step s (ls ++ ls') u) : ∃ t, Run Step s ls t ∧ Run Step t ls' u := by
  induction ls' using List.reverseRecOn generalizing u with
  | nil =>
    rw [List.append_nil] at h
    exact ⟨u, h, .nil u⟩
  | append_singleton ls' l ih =>
    rw [← List.append_assoc] at h
    obtain ⟨t, hrun, hstep⟩ := run_snoc h
    obtain ⟨m, hm, hm'⟩ := ih hrun
    exact ⟨m, hm, hm'.snoc hstep⟩

/-- The step a run takes at a given place of its history. -/
theorem Run.at_label (h : Run Step s (ls ++ l :: ls') u) :
    ∃ t t', Run Step s ls t ∧ Step t l t' ∧ Run Step t' ls' u := by
  rw [show ls ++ l :: ls' = (ls ++ [l]) ++ ls' by simp] at h
  obtain ⟨t', h₁, h₂⟩ := h.split
  obtain ⟨t, hrun, hstep⟩ := run_snoc h₁
  exact ⟨t, t', hrun, hstep, h₂⟩

/-- What holds at the start and is preserved by every step holds at the end. -/
theorem Run.invariant {I : σ → Prop} (h : Run Step s ls t) (hs : I s)
    (hstep : ∀ s l t, I s → Step s l t → I t) : I t := by
  induction h with
  | nil => exact hs
  | snoc _ hst ih => exact hstep _ _ _ ih hst

/-- A run of a relation is a run of any larger one. -/
theorem Run.mono {Step' : σ → L → σ → Prop} (hsub : ∀ s l t, Step s l t → Step' s l t)
    (h : Run Step s ls t) : Run Step' s ls t := by
  induction h with
  | nil => exact .nil _
  | snoc _ hst ih => exact ih.snoc (hsub _ _ _ hst)

/-- A step together with the time at which it is made. -/
def Timed {T : Type} (now : σ → T) (Step : σ → L → σ → Prop) (s : σ) (l : T × L) (t : σ) : Prop :=
  now s = l.1 ∧ Step s l.2 t

section Timed

variable {T : Type} {now : σ → T}

/-- A run is one also when the times of its steps are left out. -/
theorem Run.untimed {ls : List (T × L)} (h : Run (Timed now Step) s ls t) :
    Run Step s (ls.map Prod.snd) t := by
  induction h with
  | nil => exact .nil _
  | snoc _ hst ih =>
    rw [List.map_append]
    exact ih.snoc hst.2

/-- Every run can be given the times of its steps, one after the other. -/
theorem Run.timed (now : σ → T) (h : Run Step s ls t) :
    ∃ tls, tls.map Prod.snd = ls ∧ Run (Timed now Step) s tls t := by
  induction h with
  | nil => exact ⟨[], rfl, .nil _⟩
  | @snoc t u ls l _ hst ih =>
    obtain ⟨tls, rfl, hrun⟩ := ih
    exact ⟨tls ++ [(now t, l)], by simp, hrun.snoc ⟨rfl, hst⟩⟩

end Timed

end Lts
