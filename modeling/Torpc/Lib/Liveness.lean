import Torpc.Lib.Lts

/-!
# What must happen

A behaviour goes on for ever; it may pause. Nothing makes it take a step, so a
system that is to get anywhere needs fairness: whoever can go on, and can for as
long as it takes, does. What that is for a system is its *duties*, each with the
steps that are its own.

* `Ranking.reached` — there is always a duty that helps, and helping leads down
  a rank: then the goal is reached, whatever the others do;
* `Behaviour.met_of_strong` — a duty that can be done again and again gets done;
* `exists_behaviour` — a run, and nothing after it.
-/

namespace Lts

variable {σ L D : Type} {Step : σ → L → σ → Prop}

/-- Steps and pauses, without end. -/
structure Behaviour (Step : σ → L → σ → Prop) where
  state : Nat → σ
  label : Nat → Option L
  step : ∀ n l, label n = some l → Step (state n) l (state (n + 1))
  pause : ∀ n, label n = none → state (n + 1) = state n

/-- One of the duty's own steps can be taken. -/
def Due (Step : σ → L → σ → Prop) (duty : σ → L → Prop) (s : σ) : Prop :=
  ∃ l t, duty s l ∧ Step s l t

namespace Behaviour

variable {x : Behaviour Step} {duty : σ → L → Prop}

/-- At `n` a step is taken that is one of these. -/
def Takes (x : Behaviour Step) (these : σ → L → Prop) (n : Nat) : Prop :=
  ∃ l, x.label n = some l ∧ these (x.state n) l

/-- What can be done from some moment on gets done. -/
def WeakFair (x : Behaviour Step) (duty : σ → L → Prop) : Prop :=
  ∀ n, (∀ m, n ≤ m → Due Step duty (x.state m)) → ∃ m, n ≤ m ∧ x.Takes duty m

/-- What can be done again and again gets done. -/
def StrongFair (x : Behaviour Step) (duty : σ → L → Prop) : Prop :=
  ∀ n, (∀ k, n ≤ k → ∃ m, k ≤ m ∧ Due Step duty (x.state m)) → ∃ m, n ≤ m ∧ x.Takes duty m

/-- What holds at the start and is kept by every step holds at every instant of a behaviour,
also while it rests. -/
theorem invariant {I : σ → Prop} (h : I (x.state 0)) (hstep : ∀ s l t, I s → Step s l t → I t)
    (n : Nat) : I (x.state n) := by
  induction n with
  | zero => exact h
  | succ n ih =>
    cases hl : x.label n with
    | none =>
      rw [x.pause n hl]
      exact ih
    | some l => exact hstep _ _ _ ih (x.step n l hl)

/-- What only the goal's steps end lasts until one of them is taken. -/
theorem kept {P : σ → Prop} {goal : σ → L → Prop} {n : Nat} (h : P (x.state n))
    (hno : ∀ m, n ≤ m → ¬ x.Takes goal m)
    (hstep : ∀ m l, n ≤ m → P (x.state m) → Step (x.state m) l (x.state (m + 1)) →
      goal (x.state m) l ∨ P (x.state (m + 1))) {m : Nat} (hm : n ≤ m) : P (x.state m) := by
  induction hm with
  | refl => exact h
  | @step m hm ih =>
    cases hl : x.label m with
    | none =>
      rw [x.pause m hl]
      exact ih
    | some l =>
      rcases hstep m l hm ih (x.step m l hl) with hgoal | hP
      · exact absurd ⟨l, hl, hgoal⟩ (hno m hm)
      · exact hP

/-- The first of a sort of steps, and what lasts until then. -/
theorem takes_or_kept {P : σ → Prop} {goal : σ → L → Prop} {n : Nat} (h : P (x.state n))
    (hstep : ∀ m l, n ≤ m → P (x.state m) → Step (x.state m) l (x.state (m + 1)) →
      goal (x.state m) l ∨ P (x.state (m + 1))) :
    (∃ m, n ≤ m ∧ P (x.state m) ∧ x.Takes goal m) ∨
      ∀ m, n ≤ m → P (x.state m) ∧ ¬ x.Takes goal m := by
  by_cases hsome : ∃ m, n ≤ m ∧ P (x.state m) ∧ x.Takes goal m
  · exact .inl hsome
  · have hnot : ∀ m, n ≤ m → ¬ x.Takes (fun s l => P s ∧ goal s l) m := by
      rintro m hm ⟨l, hl, hP, hgoal⟩
      exact hsome ⟨m, hm, hP, l, hl, hgoal⟩
    have hall : ∀ m, n ≤ m → P (x.state m) := fun m hm =>
      x.kept h hnot
        (fun m l hm hP hst => (hstep m l hm hP hst).imp_left fun hgoal => ⟨hP, hgoal⟩) hm
    exact .inr fun m hm => ⟨hall m hm, fun htakes => hsome ⟨m, hm, hall m hm, htakes⟩⟩

end Behaviour

/-- A rank that goes down whenever the duty is done that it names, and that
nothing else raises. -/
structure Ranking (Step : σ → L → σ → Prop) (duties : D → σ → L → Prop) (goal : σ → L → Prop)
    (I : σ → Prop) (Rank : Nat → D → σ → Prop) : Prop where
  due : ∀ n d s, I s → Rank n d s → Due Step (duties d) s
  step : ∀ n d s l t, I s → Rank n d s → Step s l t →
    goal s l ∨ (∃ m e, m < n ∧ Rank m e t) ∨ (Rank n d t ∧ ¬ duties d s l)

variable {duties : D → σ → L → Prop} {goal : σ → L → Prop} {I : σ → Prop}
  {Rank : Nat → D → σ → Prop}

/-- Then a step of the goal is taken. -/
theorem Ranking.reached (h : Ranking Step duties goal I Rank) {x : Behaviour Step}
    (hfair : ∀ d, x.WeakFair (duties d)) {n k : Nat} {d : D} (hI : ∀ m, k ≤ m → I (x.state m))
    (hrank : Rank n d (x.state k)) : ∃ m, k ≤ m ∧ x.Takes goal m := by
  induction n using Nat.strongRecOn generalizing d k with
  | _ n ih =>
    by_contra hno
    have hnot : ∀ m, k ≤ m → ¬ x.Takes goal m := fun m hm hgoal => hno ⟨m, hm, hgoal⟩
    -- the rank stays, or the goal is reached from the lower one
    have hlower : ∀ m, k ≤ m → ∀ n' e, n' < n → ¬ Rank n' e (x.state m) := by
      intro m hm n' e hlt hrank'
      obtain ⟨m', hm', hgoal⟩ := ih n' hlt (fun m' hm' => hI m' (by omega)) hrank'
      exact hnot m' (by omega) hgoal
    have hstep : ∀ m l, k ≤ m → Rank n d (x.state m) → x.label m = some l →
        Rank n d (x.state (m + 1)) ∧ ¬ duties d (x.state m) l := by
      intro m l hm hr hl
      rcases h.step n d _ l _ (hI m hm) hr (x.step m l hl) with hgoal | ⟨n', e, hlt, hr'⟩ | hkept
      · exact absurd ⟨l, hl, hgoal⟩ (hnot m hm)
      · exact absurd hr' (hlower (m + 1) (by omega) n' e hlt)
      · exact hkept
    have hstays : ∀ m, k ≤ m → Rank n d (x.state m) := by
      intro m hm
      induction hm with
      | refl => exact hrank
      | @step m hm ihm =>
        cases hl : x.label m with
        | none =>
          rw [x.pause m hl]
          exact ihm
        | some l => exact (hstep m l hm ihm hl).1
    obtain ⟨m, hm, l, hl, hduty⟩ := hfair d k fun m hm => h.due n d _ (hI m hm) (hstays m hm)
    exact (hstep m l hm (hstays m hm) hl).2 hduty

-- ---------------------------------------------------------------------------
-- A behaviour that comes to rest
-- ---------------------------------------------------------------------------

/-- Every run is the beginning of a behaviour in which nothing happens after it. -/
theorem exists_behaviour {s t : σ} {ls : List L} (h : Run Step s ls t) :
    ∃ x : Behaviour Step, x.state 0 = s ∧ (∀ n, x.label n = ls[n]?) ∧
      ∀ n, ls.length ≤ n → x.state n = t := by
  induction h with
  | nil =>
    refine ⟨⟨fun _ => s, fun _ => none, fun _ _ h => ?_, fun _ _ => rfl⟩, rfl, fun _ => rfl,
      fun _ _ => rfl⟩
    cases h
  | @snoc t u ls l _ hstep ih =>
    obtain ⟨x, hstart, hlabel, hrest⟩ := ih
    let state n := if n ≤ ls.length then x.state n else u
    have hbefore : ∀ n, n ≤ ls.length → state n = x.state n := fun n hn => if_pos hn
    have hafter : ∀ n, ls.length < n → state n = u := fun n hn => if_neg (by omega)
    refine ⟨⟨state, fun n => (ls ++ [l])[n]?, fun n l' hl' => ?_, fun n hn => ?_⟩, ?_,
      fun _ => rfl, fun n hn => ?_⟩
    · rcases Nat.lt_trichotomy n ls.length with hlt | rfl | hgt
      · rw [hbefore n (by omega), hbefore (n + 1) (by omega)]
        rw [List.getElem?_append_left hlt, ← hlabel] at hl'
        exact x.step n l' hl'
      · rw [hbefore _ (Nat.le_refl _), hafter _ (by omega), hrest _ (Nat.le_refl _)]
        rw [List.getElem?_concat_length] at hl'
        cases hl'
        exact hstep
      · rw [List.getElem?_eq_none (by rw [List.length_append, List.length_singleton]; omega)] at hl'
        cases hl'
    · have hlen := List.getElem?_eq_none_iff.mp hn
      rw [List.length_append, List.length_singleton] at hlen
      rw [hafter n (by omega), hafter (n + 1) (by omega)]
    · exact (hbefore 0 (by omega)).trans hstart
    · rw [List.length_append, List.length_singleton] at hn
      exact hafter n (by omega)

/-- Where nothing is due any more, a behaviour that has come to rest is fair. -/
theorem Behaviour.weakFair_of_rest {x : Behaviour Step} {duty : σ → L → Prop} {k : Nat} {s : σ}
    (hrest : ∀ n, k ≤ n → x.state n = s) (hnone : ¬ Due Step duty s) : x.WeakFair duty := by
  intro n hdue
  have hm := hdue (max n k) (Nat.le_max_left _ _)
  rw [hrest _ (Nat.le_max_right _ _)] at hm
  exact absurd hm hnone

/-- A behaviour that comes to rest where a duty is not due is fair to it, in the strong
sense too. -/
theorem Behaviour.strongFair_of_rest {x : Behaviour Step} {duty : σ → L → Prop} {k : Nat} {s : σ}
    (hrest : ∀ n, k ≤ n → x.state n = s) (hnone : ¬ Due Step duty s) : x.StrongFair duty := by
  intro n hdue
  obtain ⟨m, hm, hm'⟩ := hdue (max n k) (Nat.le_max_left _ _)
  rw [hrest m (Nat.le_trans (Nat.le_max_right _ _) hm)] at hm'
  exact absurd hm' hnone

end Lts
