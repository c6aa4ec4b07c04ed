import Torpc.Results.StaleTasks

/-!
# `start` and `stop` can wait for each other

Both take the status lock and then the handle's. But `stop` gives the status back
while it waits for the task it has aborted, keeps the handle, and takes the
status again at the end. An operation that takes the status in between waits for
the handle, with the status in its hands that `stop` is about to ask for
(`stop_blocks_start`). Neither ever returns (`entered_never_returns`). In the
runs in which nobody comes in between, no state is a deadlock (`no_deadlock`).
-/

namespace Torpc

namespace Controller

open Tasks Machine Lts

/-- An operation that has been called and has not returned. -/
def Task.IsCall : Task → Prop
  | .call _ _ => True
  | _ => False

instance : DecidablePred Task.IsCall
  | .call _ _ => isTrue trivial
  | .proxy _ _ | .connection _ | .discovery _ _ _ _ | .discoveryRequest _ _ => isFalse id

/-- A `stop` that has taken the handle and will ask for the status again. -/
def Task.isStopping : Task → Bool
  | .call _ (.stop (.join _)) => true
  | .call _ (.stop .setStopped) => true
  | _ => false

/-- A `start` or `stop` that is about to take the status. -/
def Task.isEntering : Task → Bool
  | .call _ (.start .lockStatus) => true
  | .call _ (.stop .lockStatus) => true
  | _ => false

/-- The state before a step lets nobody come in between: no `start` or `stop`
takes the status while a `stop` has taken the handle. -/
def clear (s : State) : Label → Bool
  | .act i _ _ => (s.tasks i).all (fun t => !t.isEntering) || everyTask s fun t => !t.isStopping
  | _ => true

/-- A step at which nobody comes in between. -/
def ClearStep (s : State) (l : Label) (s' : State) : Prop :=
  Step controller s l s' ∧ clear s l = true

/-- The tasks that the check takes for stopping are those that have taken the handle. -/
theorem isStopping_iff {t : Task} : t.isStopping = true ↔ t.HasTaken := by
  cases t with
  | call c pc =>
    cases pc with
    | stop pc => cases pc <;> simp [Task.isStopping, Task.HasTaken]
    | _ => simp [Task.isStopping, Task.HasTaken]
  | _ => simp [Task.isStopping, Task.HasTaken]

/-- It takes for entering the starts and stops that are about to take the status. -/
theorem isEntering_iff {t : Task} : t.isEntering = true ↔
    ∃ c, t = .call c (.start .lockStatus) ∨ t = .call c (.stop .lockStatus) := by
  constructor
  · intro h
    cases t with
    | call c pc =>
      cases pc with
      | start pc => cases pc <;> first | exact ⟨c, .inl rfl⟩ | cases h
      | stop pc => cases pc <;> first | exact ⟨c, .inr rfl⟩ | cases h
      | _ => cases h
    | _ => cases h
  · rintro ⟨c, rfl | rfl⟩ <;> rfl

/-- Whoever holds the status stands between its two locks. -/
theorem holds_status {t : Task} (h : t.holds .status ≠ none) :
    ∃ c, t = .call c (.start .lockHandle) ∨ t = .call c (.stop .lockHandle) := by
  cases t with
  | call c pc =>
    cases pc with
    | start pc => cases pc <;> first | exact ⟨c, .inl rfl⟩ | exact absurd rfl h
    | stop pc => cases pc <;> first | exact ⟨c, .inr rfl⟩ | exact absurd rfl h
    | _ => exact absurd rfl h
  | _ => exact absurd rfl h

/-- Whoever holds the handle is in the last part of `start` or `stop`. -/
theorem holds_handle {t : Task} (h : t.holds .handle ≠ none) :
    (∃ c, t = .call c (.start .readConfig)) ∨ t.HasTaken := by
  cases t with
  | call c pc =>
    cases pc with
    | start pc => cases pc <;> first | exact .inl ⟨c, rfl⟩ | exact absurd rfl h
    | stop pc => cases pc <;> first | exact .inr trivial | exact absurd rfl h
    | _ => exact absurd rfl h
  | _ => exact absurd rfl h

/-- The configuration is never held across an await. -/
theorem holds_config (t : Task) : t.holds .config = none := by
  cases t with
  | call c pc =>
    cases pc with
    | start pc => cases pc <;> rfl
    | stop pc => cases pc <;> rfl
    | _ => rfl
  | _ => rfl

section Act

variable {s : Shared} {tasks : Nat → Option Task} {next : Nat} {t : Task} {ch : Choice}
  {eff : Effect}

/-- Tasks that are no operations hold nothing. -/
theorem holds_of_not_call {t : Task} (h : ¬ t.IsCall) (lock : Lock) : t.holds lock = none := by
  cases t with
  | call c pc => exact absurd trivial h
  | _ => rfl

/-- Only a call takes the handle. -/
theorem not_taken_of_not_call {t : Task} (h : ¬ t.IsCall) : ¬ t.HasTaken := by
  cases t with
  | call c pc => exact absurd trivial h
  | _ => exact id

/-- Nothing that is no operation becomes one, and nothing spawned is one. -/
theorem act_call_kept (h : act s tasks next t ch = some eff) :
    (∀ t', eff.spawned = some t' → ¬ t'.IsCall) ∧
      (¬ t.IsCall → ∀ t', eff.task = some t' → ¬ t'.IsCall) := by
  have hdetached : ∀ t' : Task, t'.IsDetached → ¬ t'.IsCall := by
    intro t' ht'
    cases t' <;> first | exact id | exact ht'.elim
  have hother : t.IsDetached → (∀ t', eff.spawned = some t' → ¬ t'.IsCall) ∧
      (¬ t.IsCall → ∀ t', eff.task = some t' → ¬ t'.IsCall) := by
    intro ht
    have heff := act_detached h ht
    exact ⟨fun t' ht' => hdetached t' (heff.spawned t' ht').1,
      fun _ t' ht' => hdetached t' (heff.task t' ht').1⟩
  cases t with
  | call c pc =>
    have heff := callStep_effect (act_call h)
    refine ⟨fun t' ht' => ?_, fun hno => absurd trivial hno⟩
    rw [heff.spawned t' ht']
    exact id
  | proxy config pc =>
    have heff := proxyStep_effect (proxyStep_inv h)
    refine ⟨fun t' ht' => ?_, fun _ t' ht' => ?_⟩
    · rcases heff.spawned t' ht' with rfl | ⟨addr, token, rfl⟩ <;> exact id
    · obtain ⟨pc', rfl⟩ := heff.task t' ht'
      exact id
  | _ => exact hother trivial

/-- The status is taken at the first await alone, and the handle taken by a `stop`
that holds both. -/
theorem act_locks (h : act s tasks next t ch = some eff) {t' : Task} (ht' : eff.task = some t') :
    (t'.holds .status ≠ none → t.isEntering = true) ∧
      (t'.HasTaken → t.HasTaken ∨ ∃ c, t = .call c (.stop .lockHandle)) := by
  by_cases hcall : t.IsCall
  · cases t with
    | call c pc =>
      have hdone : ∀ s', (stopDone s' c).task = some t' →
          t'.holds .status = none ∧ ¬ t'.HasTaken := by
        intro s' hs'
        cases c <;> cases hs'
        exact ⟨rfl, id⟩
      cases act_call h with
      | startLock | stopLock => exact ⟨fun _ => rfl, by cases ht'; exact False.elim⟩
      | take => exact ⟨by cases ht'; exact fun h => absurd rfl h, fun _ => .inr ⟨c, rfl⟩⟩
      | joined => exact ⟨by cases ht'; exact fun h => absurd rfl h, fun _ => .inl trivial⟩
      | noHandle | stopped =>
        obtain ⟨hstatus, htaken⟩ := hdone _ ht'
        exact ⟨fun h => absurd hstatus h, fun h => absurd h htaken⟩
      | starting | restart | noRestart =>
        cases ht'
        exact ⟨fun h => absurd rfl h, False.elim⟩
      | store newConfig restart =>
        cases ht'
        cases restart <;> exact ⟨fun h => absurd rfl h, False.elim⟩
      | _ => cases ht'
    | _ => exact hcall.elim
  · have hno := (act_call_kept h).2 hcall t' ht'
    exact ⟨fun h => absurd (holds_of_not_call hno _) h,
      fun h => absurd h (not_taken_of_not_call hno)⟩

end Act

-- ---------------------------------------------------------------------------
-- With nobody in between
-- ---------------------------------------------------------------------------

/-- Whoever holds the status has waited for it. -/
theorem disciplined_status : Disciplined controller .status := by
  refine ⟨fun t => ?_, fun c => ?_, ?_⟩
  · intro h
    have hheld : t.holds .status ≠ none := by
      intro hnone
      rw [show controller.holds t .status = none from hnone] at h
      cases h
    obtain ⟨c, rfl | rfl⟩ := holds_status hheld <;> cases h
  · cases c <;> rfl
  · intro s tasks next t ch eff h
    refine ⟨fun t' ht' => holds_of_not_call ((act_call_kept h).1 t' ht') _,
      fun t' ht' hheld => .inr ?_⟩
    obtain ⟨c, rfl | rfl⟩ := isEntering_iff.mp ((act_locks h ht').1 hheld) <;> rfl

/-- While a `stop` has taken the handle, nobody holds the status. -/
structure Clear (s : State) : Prop where
  fresh : Fresh s
  exclusive : Exclusive s .status
  apart : ∀ i j (t t' : Task), s.tasks i = some t → s.tasks j = some t' → t.HasTaken →
    t'.holds .status = none

/-- At first nobody holds anything. -/
theorem clear_start (shared : Shared) : Clear (controller.start shared) where
  fresh := fresh_start shared
  exclusive := by
    intro i j t t' hi
    cases hi
  apart := by
    intro i j t t' hi
    cases hi

/-- A clear step leaves no task with the handle while another one holds the status. -/
theorem clear_step {s s' : State} {l : Label} (h : Clear s) (hstep : ClearStep s l s') :
    Clear s' := by
  obtain ⟨hstep, hclear⟩ := hstep
  refine ⟨fresh_step h.fresh hstep, exclusive_step disciplined_status h.fresh h.exclusive hstep, ?_⟩
  intro i j t t' hi hj htaken
  by_contra hheld
  cases hstep with
  | call c =>
    -- a new call has taken nothing and holds nothing
    have hnew : ¬ (enter c).HasTaken ∧ (enter c).holds .status = none := by
      cases c <;> exact ⟨id, rfl⟩
    rcases State.add_cases hi with ⟨-, rfl⟩ | ⟨-, hi⟩
    · exact hnew.1 htaken
    · rcases State.add_cases hj with ⟨-, rfl⟩ | ⟨-, hj⟩
      · exact hheld hnew.2
      · exact hheld (h.apart i j t t' hi hj htaken)
  | act k task ch eff hk hgrant hact =>
    have hspawned := (act_call_kept hact).1
    rcases State.apply_cases hi with ⟨rfl, hnext⟩ | ⟨-, hs⟩ | ⟨hik, hi⟩
    · -- the step itself takes the handle, or had taken it before
      rcases (act_locks hact hnext).2 htaken with hbefore | ⟨c, rfl⟩
      · rcases State.apply_cases hj with ⟨-, hnext'⟩ | ⟨-, hs⟩ | ⟨-, hj⟩
        · rw [hnext] at hnext'
          cases hnext'
          exact absurd (holds_status hheld) (by rintro ⟨c, rfl | rfl⟩ <;> exact htaken)
        · exact hheld (holds_of_not_call (hspawned t' hs) _)
        · exact hheld (h.apart i j task t' hk hj hbefore)
      · rcases State.apply_cases hj with ⟨-, hnext'⟩ | ⟨-, hs⟩ | ⟨hji, hj⟩
        · rw [hnext] at hnext'
          cases hnext'
          exact absurd (holds_status hheld) (by rintro ⟨c, rfl | rfl⟩ <;> exact htaken)
        · exact hheld (holds_of_not_call (hspawned t' hs) _)
        · -- it held the status until now, so nobody else does
          exact hji (h.exclusive j i t' _ hj hk hheld (Option.some_ne_none _))
    · exact not_taken_of_not_call (hspawned t hs) htaken
    · have hbefore : s.tasks i = some t := hi
      rcases State.apply_cases hj with ⟨rfl, hnext'⟩ | ⟨-, hs⟩ | ⟨-, hj⟩
      · -- whoever takes the status finds no `stop` that has taken the handle
        have hentering := (act_locks hact hnext').1 hheld
        simp only [clear, hk, Option.all_some, hentering, Bool.not_true, Bool.false_or] at hclear
        have hnot := (everyTask_iff h.fresh).mp hclear i t hbefore
        rw [isStopping_iff.mpr htaken] at hnot
        cases hnot
      · exact hheld (holds_of_not_call (hspawned t' hs) _)
      · exact hheld (h.apart i j t t' hi hj htaken)
  | cancel k task hk haborted =>
    exact hheld (h.apart i j t t' (State.remove_some hi).2 (State.remove_some hj).2 htaken)

/-- So does a run of clear steps. -/
theorem clear_run {shared : Shared} {s : State} {ls : List Label}
    (h : Run ClearStep (controller.start shared) ls s) : Clear s :=
  h.invariant (clear_start shared) fun _ _ _ => clear_step

/-- An operation that holds the handle waits for no one: it waits for the
configuration, for the task it has aborted, or for the status. -/
theorem Clear.handle_free {s : State} (h : Clear s) {i j : Nat} {t : Task}
    (hi : s.tasks i = some t) (hheld : t.holds .handle ≠ none) : ¬ s.WaitsFor i j := by
  rintro ⟨t₁, t', lock, mode, held, hi', hawaits, hj, hholds, -⟩
  obtain rfl := Option.some.inj (hi.symm.trans hi')
  rcases holds_handle hheld with ⟨c, rfl⟩ | htaken
  · cases hawaits
    rw [show controller.holds t' Lock.config = none from holds_config t'] at hholds
    cases hholds
  · have hnone := h.apart i j t t' hi hj htaken
    unfold Task.HasTaken at htaken
    split at htaken
    · cases hawaits
    · cases hawaits
      rw [show controller.holds t' Lock.status = none from hnone] at hholds
      cases hholds
    · exact htaken

/-- In the runs in which no `start` or `stop` comes between the two halves of
another `stop`, no state is a deadlock. -/
theorem no_deadlock {config : ProxyConfig} {discoveryAddr : Option Net.SocketAddr} {s : State}
    {ls : List Label}
    (h : Run ClearStep (controller.start (Controller.new config discoveryAddr)) ls s) :
    ¬ s.Deadlocked Task.IsCall := by
  have hclear := clear_run h
  rintro ⟨⟨i, t, hi, hcall⟩, hall⟩
  -- follow the locks from any unfinished operation to whoever holds what it wants
  obtain ⟨j, t', hj, hcall', hwait⟩ := hall i t hi hcall
  obtain ⟨k, t'', hk, hcall'', hwait'⟩ := hall j t' hj hcall'
  obtain ⟨m, t₃, hm, -, hwait''⟩ := hall k t'' hk hcall''
  obtain ⟨-, t₀, lock, -, held, -, -, hj₀, hholds, -⟩ := hwait
  obtain rfl := Option.some.inj (hj.symm.trans hj₀)
  have hheld : t'.holds lock ≠ none := by
    intro hnone
    rw [show controller.holds t' lock = none from hnone] at hholds
    cases hholds
  cases lock with
  | config => exact hheld (holds_config t')
  | handle => exact hclear.handle_free hj hheld hwait'
  | status =>
    -- it stands between its locks, so what it waits for is the handle
    obtain ⟨t₁, t₂, lock', mode', held', hj₁, hawaits, hk₂, hholds', -⟩ := hwait'
    obtain rfl := Option.some.inj (hj.symm.trans hj₁)
    obtain rfl := Option.some.inj (hk.symm.trans hk₂)
    have hlock : lock' = .handle := by
      obtain ⟨c, rfl | rfl⟩ := holds_status hheld <;> cases hawaits <;> rfl
    subst hlock
    refine hclear.handle_free hk (fun hnone => ?_) hwait''
    rw [show controller.holds t'' Lock.handle = none from hnone] at hholds'
    cases hholds'

-- ---------------------------------------------------------------------------
-- With somebody in between
-- ---------------------------------------------------------------------------

/-- A `stop` that has taken the handle, and an operation that holds the status. -/
structure Stuck (s : State) (i j : Nat) : Prop where
  taken : ∃ t : Task, s.tasks i = some t ∧ t.HasTaken
  entered : ∃ t : Task, s.tasks j = some t ∧ t.holds .status ≠ none

/-- The one in between does not get the handle. -/
theorem Stuck.not_granted {s : State} {i j : Nat} (h : Stuck s i j) (hfresh : Fresh s) {t : Task}
    (hj : s.tasks j = some t) : s.granted j t ≠ true := by
  intro hgrant
  obtain ⟨t₁, hi, htaken⟩ := h.taken
  obtain ⟨t₂, hj', hheld⟩ := h.entered
  obtain rfl := Option.some.inj (hj.symm.trans hj')
  obtain ⟨c, rfl | rfl⟩ := holds_status hheld
  · exact htaken.holds (State.not_held_of_granted hfresh hgrant rfl hi)
  · exact htaken.holds (State.not_held_of_granted hfresh hgrant rfl hi)

/-- And `stop` gets no further than to the end of the task it has aborted. -/
theorem Stuck.waits {s : State} {i j : Nat} (h : Stuck s i j) (hfresh : Fresh s) {t : Task}
    (hi : s.tasks i = some t) (hgrant : s.granted i t = true) {ch : Choice} {eff : Effect}
    (hact : act s.shared s.tasks s.next t ch = some eff) :
    eff.event = .progress ∧ ∃ t', eff.task = some t' ∧ t'.HasTaken := by
  obtain ⟨t₁, hi', htaken⟩ := h.taken
  obtain rfl := Option.some.inj (hi.symm.trans hi')
  obtain ⟨t₂, hj, hheld⟩ := h.entered
  unfold Task.HasTaken at htaken
  split at htaken
  · next c hd =>
    cases act_call hact with
    | joined => exact ⟨rfl, _, rfl, trivial⟩
  · exact absurd (State.not_held_of_granted hfresh hgrant rfl hj) hheld
  · exact htaken.elim

/-- As long as one task has taken the handle and another the status, no step lets go of
either. -/
theorem stuck_step {s s' : State} {l : Label} {i j : Nat} (hlife : Lifecycle s) (h : Stuck s i j)
    (hstep : Step controller s l s') : Stuck s' i j := by
  obtain ⟨t₁, hi, htaken⟩ := h.taken
  obtain ⟨t₂, hj, hheld⟩ := h.entered
  have hi_lt := hlife.fresh.lt hi
  have hj_lt := hlife.fresh.lt hj
  cases hstep with
  | call c =>
    refine ⟨⟨t₁, ?_, htaken⟩, t₂, ?_, hheld⟩
    · rw [s.add_ne (by omega)]
      exact hi
    · rw [s.add_ne (by omega)]
      exact hj
  | act k task ch eff hk hgrant hact =>
    have hkj : j ≠ k := by
      rintro rfl
      exact h.not_granted hlife.fresh hk hgrant
    have hj' : (s.apply k eff).tasks j = some t₂ := by
      rw [s.apply_ne hkj (by omega)]
      exact hj
    refine ⟨?_, t₂, hj', hheld⟩
    by_cases hik : i = k
    · subst hik
      obtain ⟨-, t', ht', htaken'⟩ := h.waits hlife.fresh hk hgrant hact
      exact ⟨t', (s.apply_self i eff).trans ht', htaken'⟩
    · exact ⟨t₁, (s.apply_ne hik (by omega) eff).trans hi, htaken⟩
  | cancel k task hk haborted =>
    -- only proxy tasks are ever aborted
    have hproxy := (hlife.handles k (.inr (List.contains_iff_mem.mp haborted))).2
    have hik : i ≠ k := by
      rintro rfl
      have hp := hproxy t₁ hi
      unfold Task.HasTaken at htaken
      split at htaken <;> first | exact hp | exact htaken
    have hjk : j ≠ k := by
      rintro rfl
      have hp := hproxy t₂ hj
      obtain ⟨c, rfl | rfl⟩ := holds_status hheld <;> exact hp
    refine ⟨⟨t₁, ?_, htaken⟩, t₂, ?_, hheld⟩
    · rw [s.remove_ne hik]
      exact hi
    · rw [s.remove_ne hjk]
      exact hj

/-- Once somebody has come in between, neither operation ever returns. -/
theorem entered_never_returns {config : ProxyConfig} {discoveryAddr : Option Net.SocketAddr}
    {s s' : State} {ls : List Label} {j : Nat} {e : Event} {spawned : Option Nat}
    (h : Run (Step controller) (controller.start (Controller.new config discoveryAddr)) ls s)
    (hstep : Step controller s (.act j e spawned) s')
    (hclear : clear s (.act j e spawned) = false) :
    ∃ i, ∀ {ls' : List Label} {s'' : State}, Run (Step controller) s' ls' s'' →
      ∀ answer spawned', .act i (Event.returned answer) spawned' ∉ ls' ∧
        .act j (Event.returned answer) spawned' ∉ ls' := by
  have hlife := lifecycle_run h
  obtain ⟨t, ch, eff, hj, -, hact, -, -, rfl⟩ := step_act hstep
  simp only [clear, hj, Option.all_some, Bool.or_eq_false_iff, Bool.not_eq_false'] at hclear
  obtain ⟨hentering, hevery⟩ := hclear
  -- a `stop` that has taken the handle, whatever its id
  obtain ⟨i, t₁, hi, htaken⟩ : ∃ i t₁, s.tasks i = some t₁ ∧ Task.HasTaken t₁ := by
    by_contra hnone
    have hall : everyTask s (fun t => !t.isStopping) = true := by
      refine (everyTask_iff hlife.fresh).mpr fun i t hi => ?_
      rw [Bool.not_eq_true']
      by_contra hstopping
      exact hnone ⟨i, t, hi, isStopping_iff.mp (by simpa using hstopping)⟩
    rw [hall] at hevery
    cases hevery
  have hij : i ≠ j := by
    rintro rfl
    obtain rfl := Option.some.inj (hi.symm.trans hj)
    obtain ⟨c, rfl | rfl⟩ := isEntering_iff.mp hentering <;> exact htaken
  have hstuck : Stuck (s.apply j eff) i j := by
    refine ⟨⟨t₁, ?_, htaken⟩, ?_⟩
    · rw [s.apply_ne hij (Nat.ne_of_lt (hlife.fresh.lt hi))]
      exact hi
    · refine (?_ : ∃ t', (s.apply j eff).tasks j = some t' ∧ _)
      rw [s.apply_self]
      obtain ⟨c, rfl | rfl⟩ := isEntering_iff.mp hentering
      · cases act_call hact with
        | startLock => exact ⟨_, rfl, Option.some_ne_none _⟩
      · cases act_call hact with
        | stopLock => exact ⟨_, rfl, Option.some_ne_none _⟩
  refine ⟨i, fun {ls' s''} hrun answer spawned' => ?_⟩
  have hlater : ∀ {ls₁ : List Label} {u : State}, Run (Step controller) (s.apply j eff) ls₁ u →
      Lifecycle u ∧ Stuck u i j := fun hrun =>
    hrun.invariant (I := fun u => Lifecycle u ∧ Stuck u i j) ⟨lifecycle_step hlife hstep, hstuck⟩
      fun _ _ _ hu hstep => ⟨lifecycle_step hu.1 hstep, stuck_step hu.1 hu.2 hstep⟩
  refine ⟨fun hmem => ?_, fun hmem => ?_⟩
  · obtain ⟨pre, post, rfl⟩ := List.append_of_mem hmem
    obtain ⟨u, u', hu, hret, -⟩ := hrun.at_label
    obtain ⟨hlife', hstuck'⟩ := hlater hu
    obtain ⟨task, ch', eff', hk, hgrant, hact', he, -, -⟩ := step_act hret
    rw [(hstuck'.waits hlife'.fresh hk hgrant hact').1] at he
    cases he
  · obtain ⟨pre, post, rfl⟩ := List.append_of_mem hmem
    obtain ⟨u, u', hu, hret, -⟩ := hrun.at_label
    obtain ⟨hlife', hstuck'⟩ := hlater hu
    obtain ⟨task, ch', eff', hk, hgrant, -, -, -, -⟩ := step_act hret
    exact hstuck'.not_granted hlife'.fresh hk hgrant

/-- A start, and a stop that has not come to its end. -/
theorem no_deadlock_stopping : ∃ (ls : List Label) (s : State),
    Run ClearStep (controller.start (Controller.new endpointA none)) ls s ∧
      (s.tasks 2).isSome = true ∧ ¬ s.Deadlocked Task.IsCall := by
  let actions : List controller.Action :=
    [.call Call.start, .act 0 Choice.ready, .act 0 Choice.ready, .act 0 Choice.ready,
      .act 1 Choice.ready, .act 1 Choice.ready, .call Call.stop, .act 2 Choice.ready,
      .act 2 Choice.ready, .cancel 1, .act 2 Choice.ready]
  have hrun : (performAll clear (controller.start (Controller.new endpointA none))
      actions).any (fun out => (out.2.tasks 2).isSome) = true := by
    decide +kernel
  obtain ⟨⟨ls, s⟩, hperform, hsome⟩ := Option.any_eq_true _ _ |>.mp hrun
  have hclear : Run ClearStep _ ls s := run_of_performAll hperform
  exact ⟨ls, s, hclear, hsome, no_deadlock hclear⟩

/-- A second `start` comes in while `stop` waits for the task of the first: `stop`
has the handle and waits for the status, `start` has the status and waits for
the handle, and there is no other operation. -/
theorem stop_blocks_start : ∃ (ls : List Label) (s : State),
    Run (Step controller) (controller.start (Controller.new endpointA none)) ls s ∧
      s.Deadlocked Task.IsCall := by
  let actions : List controller.Action :=
    [.call Call.start, .act 0 Choice.ready, .act 0 Choice.ready, .act 0 Choice.ready,
      .act 1 Choice.ready, .act 1 Choice.ready, .call Call.stop, .act 2 Choice.ready,
      .act 2 Choice.ready, .call Call.start, .act 3 Choice.ready, .cancel 1, .act 2 Choice.ready]
  let look (s : State) : Nat × List (Option Task) :=
    (s.next, [s.tasks 0, s.tasks 1, s.tasks 2, s.tasks 3])
  have hrun : (performAll (fun _ _ => true) (controller.start (Controller.new endpointA none))
      actions).map (fun out => look out.2) =
      some (4, [none, none, some (.call .stop (.stop .setStopped)),
        some (.call .start (.start .lockHandle))]) := by
    decide +kernel
  obtain ⟨⟨ls, s⟩, hperform, hout⟩ := Option.map_eq_some_iff.mp hrun
  have hstep : Run (Step controller) _ ls s :=
    (run_of_performAll hperform).mono fun _ _ _ h => h.1
  obtain ⟨hnext, htasks⟩ := Prod.mk.inj hout
  have hnext : s.next = 4 := hnext
  have hat (n : Nat) := congrArg (fun tasks : List (Option Task) => tasks[n]?) htasks
  have h0 : s.tasks 0 = none := Option.some.inj (hat 0)
  have h1 : s.tasks 1 = none := Option.some.inj (hat 1)
  have h2 : s.tasks 2 = some (Task.call .stop (.stop .setStopped)) := Option.some.inj (hat 2)
  have h3 : s.tasks 3 = some (Task.call .start (.start .lockHandle)) := Option.some.inj (hat 3)
  refine ⟨ls, s, hstep, ⟨2, _, h2, trivial⟩, fun i t hi _ => ?_⟩
  have hlt : i < s.next := (lifecycle_run hstep).fresh.lt hi
  have hcases : i = 0 ∨ i = 1 ∨ i = 2 ∨ i = 3 := by omega
  rcases hcases with rfl | rfl | rfl | rfl
  · rw [h0] at hi
    cases hi
  · rw [h1] at hi
    cases hi
  · exact ⟨3, _, h3, trivial, _, _, .status, .write, .write, h2, rfl, h3, rfl, nofun⟩
  · exact ⟨2, _, h2, trivial, _, _, .handle, .write, .write, h3, rfl, h2, rfl, nofun⟩

end Controller

end Torpc
