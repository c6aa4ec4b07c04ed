import Torpc.Results.Deadlock

/-!
# Between two operations

The status is written by `start`, by `stop` and by the proxy's task itself, and
a start is let through from Error while the old handle is still kept. Yet
whenever no operation is in progress the three agree: a status of Stopped or
Error means that no proxy task is alive, no handle means Stopped, and there is
one proxy task at most. What `stop` leaves behind when it returns is Stopped and
nobody (`lifecycle_coherent`).

The invariant that carries this says when there may be no handle: the status is
Stopped, or some operation holds the handle's lock (`HandleCoherent`). It is kept
by every step of every interleaving, so operations that overlap are covered too.
-/

namespace Torpc

namespace Controller

open Tasks Machine Lts

/-- No operation is in progress. -/
def NoCall (s : State) : Prop := ∀ i (t : Task), s.tasks i = some t → ¬ t.IsCall

/-- Some operation holds the handle. -/
def HandleHeld (s : State) : Prop :=
  ∃ j, ∃ t : Task, s.tasks j = some t ∧ t.holds .handle ≠ none

/-- The handle is missing while an operation is at it, and else only when stopped. -/
def HandleCoherent (s : State) : Prop :=
  s.shared.handle = none → s.shared.status = .stopped ∨ HandleHeld s

/-- A proxy is no call. -/
theorem not_call_of_proxy {t : Task} (h : t.IsProxy) : ¬ t.IsCall := by
  cases t with
  | call c pc => exact h.elim
  | _ => exact id

-- ---------------------------------------------------------------------------
-- Every step keeps it
-- ---------------------------------------------------------------------------

section Step

variable {s : State} {k : Nat} {t : Task} {eff : Effect}

/-- A step that leaves handle and status alone keeps them coherent. -/
theorem handleCoherent_aside (hlife : Lifecycle s) (h : HandleCoherent s)
    (hk : s.tasks k = some t) (ha : Aside s.shared t eff) : HandleCoherent (s.apply k eff) := by
  intro hnone
  have hnone : s.shared.handle = none := ha.handle.symm.trans hnone
  -- whoever holds the handle is not the one that steps aside
  have hheld : HandleHeld s → HandleHeld (s.apply k eff) := by
    rintro ⟨j, t', hj, hholds⟩
    have hjk : j ≠ k := by
      rintro rfl
      obtain rfl := Option.some.inj (hk.symm.trans hj)
      exact hholds ha.before
    exact ⟨j, t', (s.apply_ne hjk (Nat.ne_of_lt (hlife.fresh.lt hj)) eff).trans hj, hholds⟩
  rcases h hnone with hstopped | hbusy
  · rcases ha.status with hstatus | ⟨hproxy, -⟩
    · exact .inl (hstatus.trans hstopped)
    · -- a live proxy without a handle: a `stop` waits for it
      rcases hlife.owned k t hk hproxy with hown | ⟨j, c, hj⟩
      · rw [hnone] at hown
        cases hown
      · exact .inr (hheld ⟨j, _, hj, Option.some_ne_none _⟩)
  · exact .inr (hheld hbusy)

/-- A step of the task that holds the handle's lock leaves them coherent, since whoever
holds it answers for them. -/
theorem handleCoherent_turn (hturn : Turn s.shared s.tasks s.next t eff) :
    HandleCoherent (s.apply k eff) := by
  intro hnone
  cases hturn with
  | starting c | take c hd | joined c hd =>
    exact .inr ⟨k, _, s.apply_self k _, Option.some_ne_none _⟩
  | spawn c => cases hnone
  | stopped c =>
    left
    show (stopDone { s.shared with status := .stopped } c).shared.status = .stopped
    rw [(stopDone_spec _ c).1]

/-- Every step of the controller keeps handle and status coherent. -/
theorem handleCoherent_step {s' : State} {l : Label} (hlife : Lifecycle s)
    (h : HandleCoherent s) (hstep : Step controller s l s') : HandleCoherent s' := by
  cases hstep with
  | call c =>
    refine fun hnone => (h hnone).imp id ?_
    rintro ⟨j, t, hj, hholds⟩
    exact ⟨j, t, (s.add_ne (Nat.ne_of_lt (hlife.fresh.lt hj)) _).trans hj, hholds⟩
  | act i task ch eff hi hgrant hact =>
    rcases act_cases hact with haside | hturn
    · exact handleCoherent_aside hlife h hi haside
    · exact handleCoherent_turn hturn
  | cancel i task hi haborted =>
    refine fun hnone => (h hnone).imp id ?_
    rintro ⟨j, t, hj, hholds⟩
    -- what is aborted is a proxy and holds nothing
    have hproxy := (hlife.handles i (.inr (List.contains_iff_mem.mp haborted))).2
    have hji : j ≠ i := by
      rintro rfl
      exact hholds (holds_of_not_call (not_call_of_proxy (hproxy t hj)) _)
    exact ⟨j, t, (s.remove_ne hji).trans hj, hholds⟩

end Step

section Runs

variable {config : ProxyConfig} {discoveryAddr : Option Net.SocketAddr} {s : State}
  {ls : List Label}

/-- After every run of a new controller without a handle, the status says that it is
stopped, or somebody holds the handle's lock. -/
theorem handleCoherent_run
    (h : Run (Step controller) (controller.start (Controller.new config discoveryAddr)) ls s) :
    HandleCoherent s := by
  have hboth : Lifecycle s ∧ HandleCoherent s :=
    h.invariant (I := fun s => Lifecycle s ∧ HandleCoherent s)
      ⟨lifecycle_start config discoveryAddr, fun _ => .inl rfl⟩
      fun _ _ _ hs hstep => ⟨lifecycle_step hs.1 hstep, handleCoherent_step hs.1 hs.2 hstep⟩
  exact hboth.2

/-- While no operation is in progress, Stopped and Error mean that no proxy is alive. -/
theorem noProxy_of_noCall (hlife : Lifecycle s) (hquiet : NoCall s)
    (hstatus : s.shared.status = .stopped ∨ ∃ message, s.shared.status = .error message) :
    NoProxy s := by
  intro i t hi hproxy
  rcases hlife.owned i t hi hproxy with hown | ⟨j, c, hj⟩
  · -- its handle is kept, so it is Starting or Running
    rcases hlife.status i t hi hproxy hown with hs | hs <;> rw [hs] at hstatus
    · rcases hstatus with hstatus | ⟨message, hstatus⟩ <;> cases hstatus
    · rcases hstatus with hstatus | ⟨message, hstatus⟩ <;> cases hstatus
  · exact hquiet j _ hj trivial

/-- And no handle means Stopped. -/
theorem stopped_of_noCall (h : HandleCoherent s) (hquiet : NoCall s)
    (hnone : s.shared.handle = none) : s.shared.status = .stopped := by
  rcases h hnone with hstopped | ⟨j, t, hj, hholds⟩
  · exact hstopped
  · exact absurd (holds_of_not_call (hquiet j t hj) _) hholds

/-- The last step of a `stop` leaves Stopped behind, and no proxy. -/
theorem stopped_of_returned {pre : List Label} {i : Nat} {answer : Answer}
    {spawned : Option Nat}
    (h : Run (Step controller) (controller.start (Controller.new config discoveryAddr))
      (pre ++ [.act i (Event.returned answer) spawned]) s) (hcall : .call i Call.stop ∈ pre) :
    s.shared.status = .stopped ∧ NoProxy s := by
  obtain ⟨u, hpre, hstep⟩ := run_snoc h
  have hlife := lifecycle_run hpre
  obtain ⟨task, ch, eff, hi, hgrant, hact, he, -, rfl⟩ := step_act hstep
  obtain ⟨pc, rfl⟩ := (stop_task hpre hcall).2 task hi
  have hnone : NoProxy u := stop_finds_none hlife hi hgrant hact he
  cases act_call hact with
  | stopLock | take | joined => cases he
  | noHandle _ hhandle =>
    refine ⟨?_, noProxy_apply hnone rfl holds_none⟩
    rcases handleCoherent_run hpre hhandle with hstopped | ⟨j, t, hj, hholds⟩
    · exact hstopped
    · exact absurd (State.not_held_of_granted hlife.fresh hgrant rfl hj) hholds
  | stopped => exact ⟨rfl, noProxy_apply hnone rfl holds_none⟩

/-- **Coherence.** In every run there is one proxy task at most; whenever no
operation is in progress, Stopped and Error mean that there is none, and no
handle means Stopped; and when `stop` returns, the status is Stopped and the
proxy of every earlier start has ended. -/
theorem lifecycle_coherent
    (h : Run (Step controller) (controller.start (Controller.new config discoveryAddr)) ls s) :
    (∀ i j (t t' : Task), s.tasks i = some t → t.IsProxy → s.tasks j = some t' → t'.IsProxy →
      i = j) ∧
    (NoCall s →
      (s.shared.status = .stopped ∨ (∃ message, s.shared.status = .error message) →
        NoProxy s) ∧
      (s.shared.handle = none → s.shared.status = .stopped)) ∧
    ∀ pre i answer spawned, ls = pre ++ [.act i (Event.returned answer) spawned] →
      .call i Call.stop ∈ pre → s.shared.status = .stopped ∧ NoProxy s := by
  have hlife := lifecycle_run h
  refine ⟨fun i j t t' hi ht hj ht' => hlife.proxy_unique hi ht hj ht', fun hquiet => ?_, ?_⟩
  · exact ⟨noProxy_of_noCall hlife hquiet, stopped_of_noCall (handleCoherent_run h) hquiet⟩
  · rintro pre i answer spawned rfl hcall
    exact stopped_of_returned h hcall

end Runs

/-- A start whose port is taken, a second start from Error, and a stop. -/
theorem coherent_after_failed_bind : ∃ (ls : List Label) (s : State),
    Run (Step controller) (controller.start (Controller.new endpointA none)) ls s ∧
      ls.getLast? = some (.act 4 (Event.returned .unit) none) ∧
      s.shared.status = .stopped ∧ NoProxy s := by
  let actions : List controller.Action :=
    [.call Call.start, .act 0 Choice.ready, .act 0 Choice.ready, .act 0 Choice.ready,
      .act 1 Choice.ready, .act 1 Choice.ready, .act 1 (Choice.failed "in use"),
      .act 1 Choice.ready, .call Call.start, .act 2 Choice.ready, .act 2 Choice.ready,
      .act 2 Choice.ready, .act 3 Choice.ready, .act 3 Choice.ready, .call Call.stop,
      .act 4 Choice.ready, .act 4 Choice.ready, .cancel 3, .act 4 Choice.ready,
      .act 4 Choice.ready]
  have hrun : ((performAll (fun _ _ => true) (controller.start (Controller.new endpointA none))
      actions).map Prod.fst).any (fun ls => decide (ls.getLast? =
        some (.act 4 (Event.returned .unit) none) ∧ .call 4 Call.stop ∈ ls.dropLast)) = true := by
    decide +kernel
  obtain ⟨ls, hls, hends⟩ := Option.any_eq_true _ _ |>.mp hrun
  obtain ⟨⟨ls, s⟩, hperform, rfl⟩ := Option.map_eq_some_iff.mp hls
  obtain ⟨hlast, hcall⟩ := of_decide_eq_true hends
  have hsteps : Run (Step controller) (controller.start (Controller.new endpointA none)) ls s :=
    (run_of_performAll hperform).mono fun _ _ _ h => h.1
  have hsplit := List.dropLast_append_getLast? _ hlast
  exact ⟨ls, s, hsteps, hlast, (lifecycle_coherent hsteps).2.2 ls.dropLast 4 .unit none
    hsplit.symm hcall⟩

end Controller

end Torpc
