import Torpc.Model.Lifecycle

/-!
# What is left running after `stop` and `update_config`

`stop` aborts the one task it has a handle for. The connections that this task
has accepted, and the discovery server it has started, were spawned by it and
live on; and `update_config` restarts the proxy only if it finds it Running.
So a wallet whose connection was open before goes on talking to the endpoint
that the user has replaced (`request_after_stop`). In the runs in which nobody
is left behind (`Settled`), both operations do what they are for
(`stop_and_update_hold`).
-/

namespace Torpc

namespace Controller

open Tasks Machine Lts

abbrev Label := controller.Label

/-- Every live task has this property. -/
def everyTask (s : State) (p : Task → Bool) : Bool :=
  (List.range s.next).all fun j => (s.tasks j).all p

/-- The state before a step leaves nobody behind. When a `stop` returns, all
connections accepted so far have been closed and no discovery server is running;
when `update_config` stores a configuration, every proxy task and every open
connection has one with the same endpoint. -/
def settled (s : State) : Label → Bool
  | .act i (.returned _) _ =>
    match s.tasks i with
    | some (.call Call.stop _) => everyTask s fun t => !t.IsLeftover
    | _ => true
  | .act _ (.stored newConfig) _ =>
    everyTask s fun t => t.forwards.all fun c => c.onionEndpoint == newConfig.onionEndpoint
  | _ => true

/-- A step that leaves nobody behind. -/
def SettledStep (s : State) (l : Label) (s' : State) : Prop :=
  Step controller s l s' ∧ settled s l = true

/-- The task accepts a connection or forwards a request. -/
def Serves (i : Nat) (l : Label) : Prop :=
  ∃ e spawned, l = .act i e spawned ∧ (e = .accepted ∨ ∃ endpoint, e = .forwarded endpoint)

/-- Once a `stop` has returned, what had been spawned by then serves no more. -/
def StopHolds (ls : List Label) : Prop :=
  ∀ pre i answer spawned post, ls = pre ++ .act i (Event.returned answer) spawned :: post →
    .call i Call.stop ∈ pre → ∀ j, Spawned j pre → ∀ l ∈ post, ¬ Serves j l

/-- An `update_config` that has returned has stored its configuration, and
unless another one has been stored since, later requests go to its endpoint. -/
def UpdateHolds (ls : List Label) : Prop :=
  ∀ pre i newConfig answer spawned mid j endpoint spawned' post,
    ls = pre ++ .act i (Event.returned answer) spawned :: mid ++
      .act j (Event.forwarded endpoint) spawned' :: post →
    .call i (Call.updateConfig newConfig) ∈ pre →
    ∃ before after, pre = before ++ .act i (Event.stored newConfig) none :: after ∧
      ((∀ k c sp, .act k (Event.stored c) sp ∉ after ++ mid) →
        endpoint = newConfig.onionEndpoint)

/-- Looking at the tasks numbered so far is looking at all there are. -/
theorem everyTask_iff {s : State} (hfresh : Fresh s) {p : Task → Bool} :
    everyTask s p = true ↔ ∀ j (t : Task), s.tasks j = some t → p t = true := by
  simp only [everyTask, List.all_eq_true, List.mem_range]
  constructor
  · intro h j t hj
    have hall := h j (hfresh.lt hj)
    rwa [hj, Option.all_some] at hall
  · intro h j hlt
    cases hj : s.tasks j with
    | none => rfl
    | some t => exact h j t hj

-- ---------------------------------------------------------------------------
-- Who serves, and to which endpoint
-- ---------------------------------------------------------------------------

section Act

variable {s : Shared} {tasks : Nat → Option Task} {next : Nat} {t : Task} {ch : Choice}
  {eff : Effect}

/-- Neither a proxy, nor something that one leaves behind. -/
def Task.Idle (t : Task) : Prop := ¬ t.IsProxy ∧ t.IsLeftover = false

/-- An idle task never serves, and stays idle. -/
theorem act_idle (h : act s tasks next t ch = some eff) (ht : t.Idle) :
    (eff.event ≠ .accepted ∧ ∀ endpoint, eff.event ≠ .forwarded endpoint) ∧
      ∀ t', eff.task = some t' → t'.Idle := by
  cases t with
  | call c pc =>
    have heff := callStep_effect (act_call h)
    refine ⟨heff.quiet, fun t' ht' => ?_⟩
    obtain ⟨pc', rfl⟩ := heff.task t' ht'
    exact ⟨id, rfl⟩
  | discoveryRequest config token =>
    have heff := act_detached h trivial
    refine ⟨?_, fun t' ht' => ?_⟩
    · rcases heff.event with hev | ⟨-, hleft⟩ | ⟨c, hc, -⟩
      · rw [hev]
        exact ⟨nofun, nofun⟩
      · cases hleft
      · cases hc
    · obtain ⟨hdetached, -, hleft⟩ := heff.task t' ht'
      exact ⟨hdetached.not_proxy, hleft⟩
  | proxy config pc => exact absurd trivial ht.1
  | connection config => cases ht.2
  | discovery addr config token listening => cases ht.2

/-- What is no call goes on, accepts a connection or forwards a request. -/
theorem act_event (h : act s tasks next t ch = some eff) :
    (∃ c pc, t = .call c pc) ∨ eff.event = .progress ∨ eff.event = .accepted ∨
      ∃ c, t.forwards = some c ∧ eff.event = .forwarded c.onionEndpoint := by
  cases t with
  | call c pc => exact .inl ⟨c, pc, rfl⟩
  | proxy config pc =>
    rcases (proxyStep_effect (proxyStep_inv h)).event with hev | hev
    · exact .inr (.inl hev)
    · exact .inr (.inr (.inl hev))
  | _ =>
    rcases (act_detached h trivial).event with hev | ⟨hev, -⟩ | hfwd
    · exact .inr (.inl hev)
    · exact .inr (.inr (.inl hev))
    · exact .inr (.inr (.inr hfwd))

/-- A request is forwarded by a connection, to the endpoint it came with. -/
theorem act_forwarded (h : act s tasks next t ch = some eff) {endpoint : String}
    (he : eff.event = .forwarded endpoint) :
    ∃ c, t.forwards = some c ∧ endpoint = c.onionEndpoint := by
  rcases act_event h with ⟨c, pc, rfl⟩ | hev | hev | ⟨c, hc, hev⟩
  · exact absurd he ((callStep_effect (act_call h)).quiet.2 endpoint)
  · cases hev.symm.trans he
  · cases hev.symm.trans he
  · cases hev.symm.trans he
    exact ⟨c, hc, rfl⟩

/-- What is stored changes in a `stored` step alone. -/
theorem act_config (h : act s tasks next t ch = some eff) :
    eff.shared.config = s.config ∨ eff.event = .stored eff.shared.config := by
  cases t with
  | call c pc => exact (callStep_effect (act_call h)).config
  | proxy config pc => exact .inl (proxyStep_effect (proxyStep_inv h)).config
  | _ => exact .inl (congrArg Shared.config (act_detached h trivial).shared)

/-- And that is a step of an `update_config`. -/
theorem act_stored (h : act s tasks next t ch = some eff) {newConfig : ProxyConfig}
    (he : eff.event = .stored newConfig) :
    (∃ pc, t = .call (.updateConfig newConfig) pc) ∧ eff.shared.config = newConfig ∧
      eff.spawned = none := by
  rcases act_event h with ⟨c, pc, rfl⟩ | hev | hev | ⟨c, -, hev⟩
  · obtain ⟨rfl, hconfig, hspawned⟩ := (callStep_effect (act_call h)).stored newConfig he
    exact ⟨⟨pc, rfl⟩, hconfig, hspawned⟩
  all_goals cases hev.symm.trans he

/-- A configuration to forward to is handed on, or is the stored one. -/
theorem act_forwards (h : act s tasks next t ch = some eff) {t' : Task}
    (ht' : eff.task = some t' ∨ eff.spawned = some t') {c : ProxyConfig}
    (hc : t'.forwards = some c) : t.forwards = some c ∨ c = s.config := by
  have hdetached : t.IsDetached → t.forwards = some c := by
    intro ht
    have heff := act_detached h ht
    rcases ht' with ht' | ht'
    · exact (heff.task t' ht').2.1.symm.trans hc
    · rw [(heff.spawned t' ht').2] at hc
      cases hc
  cases t with
  | call c' pc =>
    have heff := callStep_effect (act_call h)
    rcases ht' with ht' | ht'
    · obtain ⟨pc', rfl⟩ := heff.task t' ht'
      cases hc
    · -- only `start` spawns, and its proxy gets what is stored
      obtain rfl := heff.spawned t' ht'
      cases hc
      exact .inr rfl
  | proxy config pc =>
    have heff := proxyStep_effect (proxyStep_inv h)
    rcases ht' with ht' | ht'
    · obtain ⟨pc', rfl⟩ := heff.task t' ht'
      exact .inl hc
    · rcases heff.spawned t' ht' with rfl | ⟨addr, token, rfl⟩
      · exact .inl hc
      · cases hc
  | _ => exact .inl (hdetached trivial)

end Act

-- ---------------------------------------------------------------------------
-- After `stop`
-- ---------------------------------------------------------------------------

/-- A run of settled steps is a run. -/
theorem run_of_settled {s s' : State} {ls : List Label} (h : Run SettledStep s ls s') :
    Run (Step controller) s ls s' :=
  h.mono fun _ _ _ hstep => hstep.1

/-- A task that is idle, or dead, serves no more. -/
theorem not_serves_of_idle {s s' : State} {ls : List Label} {j : Nat}
    (h : Run (Step controller) s ls s') (hlt : j < s.next)
    (hidle : ∀ t : Task, s.tasks j = some t → t.Idle) : ∀ l ∈ ls, ¬ Serves j l := by
  rintro l hl ⟨e, spawned, rfl, he⟩
  obtain ⟨pre, post, rfl⟩ := List.append_of_mem hl
  obtain ⟨u, u', hpre, hstep, -⟩ := h.at_label
  have hidle' := (run_kept hpre hlt hidle fun _ _ _ _ ht hact => (act_idle hact ht).2).2
  obtain ⟨task, ch, eff, hi, -, hact, rfl, -, -⟩ := step_act hstep
  obtain ⟨hacc, hfwd⟩ := (act_idle hact (hidle' task hi)).1
  rcases he with he | ⟨endpoint, he⟩
  · exact hacc he
  · exact hfwd endpoint he

/-- A `stop` has its own awaits only. -/
theorem stop_returns {s : Shared} {tasks : Nat → Option Task} {next : Nat} {pc : StopPc}
    {ch : Choice} {eff : Effect} (h : act s tasks next (.call .stop (.stop pc)) ch = some eff) :
    (∀ t', eff.task = some t' → ∃ pc', t' = .call .stop (.stop pc')) ∧
      (∀ answer, eff.event = .returned answer →
        (pc = .lockHandle ∧ s.handle = none) ∨ pc = .setStopped) := by
  cases act_call h with
  | stopLock | take | joined => exact ⟨holds_some ⟨_, rfl⟩, nofun⟩
  | noHandle _ hnone => exact ⟨holds_none, fun _ _ => .inl ⟨rfl, hnone⟩⟩
  | stopped => exact ⟨holds_none, fun _ _ => .inr rfl⟩

section Runs

variable {config : ProxyConfig} {discoveryAddr : Option Net.SocketAddr} {s s' : State}
  {ls : List Label} {i : Nat}

/-- The task of a `stop`, whenever it is looked at. -/
theorem stop_task (h : Run (Step controller) s ls s') (hcall : .call i Call.stop ∈ ls) :
    i < s'.next ∧ ∀ t : Task, s'.tasks i = some t → ∃ pc, t = .call .stop (.stop pc) := by
  refine run_called (P := fun t : Task => ∃ pc, t = .call .stop (.stop pc)) h hcall
    ⟨.lockStatus, rfl⟩ ?_
  rintro u t ch eff ⟨pc, rfl⟩ hact t' ht'
  exact (stop_returns hact).1 t' ht'

/-- A `stop` that returns leaves no proxy task alive. -/
theorem stop_finds_none (hlife : Lifecycle s) {pc : StopPc} {ch : Choice} {eff : Effect}
    (hi : s.tasks i = some (.call .stop (.stop pc)))
    (hgrant : s.granted i (Task.call .stop (.stop pc)) = true)
    (hact : act s.shared s.tasks s.next (.call .stop (.stop pc)) ch = some eff) {answer : Answer}
    (he : eff.event = .returned answer) : NoProxy s := by
  rcases (stop_returns hact).2 answer he with ⟨rfl, hhandle⟩ | rfl
  · exact hlife.no_proxy hgrant hhandle
  · exact hlife.alone i _ hi trivial

/-- In a run of settled steps no proxy goes on after the `stop` that it was told to end by.
-/
theorem stop_holds
    (h : Run SettledStep (controller.start (Controller.new config discoveryAddr)) ls s) :
    StopHolds ls := by
  rintro pre i answer spawned post rfl hcall j hj
  obtain ⟨u, u', hpre, ⟨hstep, hsettled⟩, hpost⟩ := h.at_label
  have hpre := run_of_settled hpre
  have hlife := lifecycle_run hpre
  have hlt := run_spawned_lt hpre hj
  have htask := (stop_task hpre hcall).2
  refine not_serves_of_idle (run_of_settled hpost) (Nat.lt_of_lt_of_le hlt
    (next_le_of_step hstep)) fun t ht => ?_
  obtain ⟨task, ch, eff, hk, hgrant, hact, he, -, rfl⟩ := step_act hstep
  obtain ⟨pc, rfl⟩ := htask task hk
  have hnone := stop_finds_none hlife hk hgrant hact he
  rcases State.apply_cases ht with ⟨rfl, hnext⟩ | ⟨rfl, -⟩ | ⟨-, ht⟩
  · obtain ⟨pc', rfl⟩ := (stop_returns hact).1 t hnext
    exact ⟨id, rfl⟩
  · exact absurd hlt (Nat.lt_irrefl _)
  · -- a task of before: the condition leaves out all that a proxy can leave behind
    simp only [settled, hk] at hsettled
    have hleft := (everyTask_iff hlife.fresh).mp hsettled j t ht
    exact ⟨hnone j t ht, by simpa using hleft⟩

-- ---------------------------------------------------------------------------
-- After `update_config`
-- ---------------------------------------------------------------------------

/-- Awaits of `update_config` after it has stored its configuration. -/
def CallPc.AfterStore : CallPc → Prop
  | .start _ | .finish => True
  | _ => False

/-- It passes through `stored` to get there, and returns from there alone. -/
theorem update_step {s : Shared} {tasks : Nat → Option Task} {next : Nat} {pc : CallPc}
    {newConfig : ProxyConfig} {ch : Choice} {eff : Effect}
    (h : act s tasks next (.call (.updateConfig newConfig) pc) ch = some eff) :
    (∀ t', eff.task = some t' → ∃ pc', t' = .call (.updateConfig newConfig) pc' ∧
      (pc'.AfterStore → pc.AfterStore ∨ (eff.event = .stored newConfig ∧ eff.spawned = none))) ∧
    ∀ answer, eff.event = .returned answer → pc.AfterStore := by
  cases act_call h with
  | startLock | starting => exact ⟨holds_some ⟨_, rfl, fun _ => .inl trivial⟩, nofun⟩
  | refused | spawn | finish => exact ⟨holds_none, fun _ _ => trivial⟩
  | stopLock | take | noHandle | joined | stopped | restart | noRestart =>
    exact ⟨holds_some ⟨_, rfl, False.elim⟩, nofun⟩
  | store => exact ⟨holds_some ⟨_, rfl, fun _ => .inr ⟨rfl, rfl⟩⟩, nofun⟩

/-- An `update_config` past its store has stored. -/
theorem stored_of_afterStore {newConfig : ProxyConfig} (h : Run (Step controller) s ls s')
    (hi : i < s.next)
    (hs : ∀ t : Task, s.tasks i = some t → t = enter (.updateConfig newConfig)) :
    ∀ t : Task, s'.tasks i = some t → ∃ pc, t = .call (.updateConfig newConfig) pc ∧
      (pc.AfterStore → (.act i (Event.stored newConfig) none : Label) ∈ ls) := by
  induction h with
  | nil =>
    intro t ht
    obtain rfl := hs t ht
    exact ⟨.readStatus, rfl, False.elim⟩
  | @snoc u u' ls l hrun hstep ih =>
    have hlt := Nat.lt_of_lt_of_le hi (run_next_le hrun)
    -- what an earlier step has made of it stays in the history
    have hkeep : ∀ t : Task, u.tasks i = some t → ∃ pc, t = .call (.updateConfig newConfig) pc ∧
        (pc.AfterStore → (.act i (Event.stored newConfig) none : Label) ∈ ls ++ [l]) := by
      intro t ht
      obtain ⟨pc, rfl, hmem⟩ := ih t ht
      exact ⟨pc, rfl, fun hafter => List.mem_append_left _ (hmem hafter)⟩
    intro t ht
    cases hstep with
    | call c =>
      rcases State.add_cases ht with ⟨rfl, -⟩ | ⟨-, ht⟩
      · exact absurd hlt (Nat.lt_irrefl _)
      · exact hkeep t ht
    | act k task ch eff hk hgrant hact =>
      rcases State.apply_cases ht with ⟨rfl, hnext⟩ | ⟨rfl, -⟩ | ⟨-, ht⟩
      · obtain ⟨pc, rfl, hmem⟩ := hkeep task hk
        obtain ⟨pc', rfl, hafter⟩ := (update_step hact).1 t hnext
        refine ⟨pc', rfl, fun h' => ?_⟩
        rcases hafter h' with h' | ⟨he, hspawned⟩
        · exact hmem h'
        · rw [he, hspawned]
          exact List.mem_append_right _ (List.mem_singleton_self _)
      · exact absurd hlt (Nat.lt_irrefl _)
      · exact hkeep t ht
    | cancel k task hk haborted => exact hkeep t (State.remove_some ht).2

/-- Only a step that stores a configuration changes the stored one. -/
theorem config_step {l : Label} (h : Step controller s l s')
    (hno : ∀ k c sp, l ≠ .act k (Event.stored c) sp) : s'.shared.config = s.shared.config := by
  cases h with
  | call c => rfl
  | act k task ch eff hk hgrant hact =>
    rcases act_config hact with hconfig | he
    · exact hconfig
    · rw [he] at hno
      exact absurd rfl (hno k _ _)
  | cancel k task hk haborted => rfl

/-- Without a store the stored configuration is the same. -/
theorem config_run (h : Run (Step controller) s ls s')
    (hno : ∀ k c sp, .act k (Event.stored c) sp ∉ ls) :
    s'.shared.config = s.shared.config := by
  induction h with
  | nil => rfl
  | snoc _ hstep ih =>
    have hlast := config_step hstep fun k c sp hl =>
      hno k c sp (List.mem_append_right _ (List.mem_singleton.mpr hl.symm))
    rw [hlast]
    exact ih fun k c sp hmem => hno k c sp (List.mem_append_left _ hmem)

/-- Whoever forwards requests has the endpoint that is stored. -/
def Current (s : State) : Prop :=
  ∀ j (t : Task) c, s.tasks j = some t → t.forwards = some c →
    c.onionEndpoint = s.shared.config.onionEndpoint

/-- After a settled step, too, whoever forwards requests has the endpoint that is stored. -/
theorem current_step {l : Label} (hfresh : Fresh s) (hcurrent : Current s)
    (h : SettledStep s l s') : Current s' := by
  obtain ⟨hstep, hsettled⟩ := h
  intro j t c hj hc
  cases hstep with
  | call c' =>
    rcases State.add_cases hj with ⟨-, rfl⟩ | ⟨-, hj⟩
    · cases c' <;> cases hc
    · exact hcurrent j t c hj hc
  | act k task ch eff hk hgrant hact =>
    -- the endpoints are those of before, or the stored one
    have hold : ∀ c', task.forwards = some c' ∨ c' = s.shared.config →
        c'.onionEndpoint = s.shared.config.onionEndpoint := by
      rintro c' (hc' | rfl)
      · exact hcurrent k task c' hk hc'
      · rfl
    rcases act_config hact with hconfig | he
    · have hgoal : c.onionEndpoint = s.shared.config.onionEndpoint := by
        rcases State.apply_cases hj with ⟨-, ht⟩ | ⟨-, ht⟩ | ⟨-, hj⟩
        · exact hold c (act_forwards hact (.inl ht) hc)
        · exact hold c (act_forwards hact (.inr ht) hc)
        · exact hcurrent j t c hj hc
      rw [hgoal, ← hconfig]
      rfl
    · obtain ⟨⟨pc, rfl⟩, -, hspawned⟩ := act_stored hact he
      rw [he] at hsettled
      rcases State.apply_cases hj with ⟨-, ht⟩ | ⟨-, ht⟩ | ⟨-, hj⟩
      · obtain ⟨pc', rfl, -⟩ := (update_step hact).1 t ht
        cases hc
      · rw [hspawned] at ht
        cases ht
      · have hsame := (everyTask_iff hfresh).mp hsettled j t hj
        rw [hc, Option.all_some] at hsame
        exact beq_iff_eq.mp hsame
  | cancel k task hk haborted => exact hcurrent j t c (State.remove_some hj).2 hc

/-- After a run of settled steps, too, nobody forwards requests to another endpoint than the
stored one. -/
theorem current_run
    (h : Run SettledStep (controller.start (Controller.new config discoveryAddr)) ls s) :
    Current s := by
  have hboth := h.invariant (I := fun s => Fresh s ∧ Current s)
    ⟨fresh_start _, fun j t c hj => by cases hj⟩
    fun t l t' ht hstep => ⟨fresh_step ht.1 hstep.1, current_step ht.1 ht.2 hstep⟩
  exact hboth.2

/-- After an update no proxy goes on with the configuration of before. -/
theorem update_holds
    (h : Run SettledStep (controller.start (Controller.new config discoveryAddr)) ls s) :
    UpdateHolds ls := by
  rintro pre i newConfig answer spawned mid j endpoint spawned' post rfl hcall
  obtain ⟨v, v', hv, ⟨hforward, -⟩, -⟩ := h.at_label
  have hcurrent := current_run hv
  obtain ⟨u, u', hu, hreturn, hmid⟩ := (run_of_settled hv).at_label
  -- the configuration has been stored by the time of the return
  have hstored : (.act i (Event.stored newConfig) none : Label) ∈ pre := by
    obtain ⟨p, q, rfl⟩ := List.append_of_mem hcall
    obtain ⟨w, w', -, hstep, hq⟩ := hu.at_label
    obtain ⟨rfl, rfl⟩ := step_call hstep
    have hnew : ∀ t : Task, (w.add (enter (.updateConfig newConfig))).tasks w.next = some t →
        t = enter (.updateConfig newConfig) := by
      intro t ht
      exact Option.some.inj (ht.symm.trans (w.add_next _))
    obtain ⟨task, ch, eff, hk, -, hact, he, -, -⟩ := step_act hreturn
    obtain ⟨pc, rfl, hmem⟩ := stored_of_afterStore hq (Nat.lt_succ_self _) hnew task hk
    have hpc := (update_step hact).2 answer he
    exact List.mem_append_right _ (List.mem_cons_of_mem _ (hmem hpc))
  obtain ⟨before, after, rfl⟩ := List.append_of_mem hstored
  refine ⟨before, after, rfl, fun hno => ?_⟩
  -- and has stayed until the request
  obtain ⟨x, x', -, hstore, hafter⟩ := hu.at_label
  have hx : x'.shared.config = newConfig := by
    obtain ⟨task, ch, eff, -, -, hact, he, -, rfl⟩ := step_act hstore
    exact (act_stored hact he).2.1
  have hv : v.shared.config = newConfig := by
    rw [config_run hmid fun k c sp hmem => hno k c sp (List.mem_append_right _ hmem),
      config_step hreturn nofun,
      config_run hafter fun k c sp hmem => hno k c sp (List.mem_append_left _ hmem), hx]
  obtain ⟨task, ch, eff, hk, -, hact, he, -, -⟩ := step_act hforward
  obtain ⟨c, hc, rfl⟩ := act_forwarded hact he
  rw [hcurrent j task c hk hc, hv]

/-- **Stop and update.** Both hold in every run of settled steps. -/
theorem stop_and_update_hold
    (h : Run SettledStep (controller.start (Controller.new config discoveryAddr)) ls s) :
    StopHolds ls ∧ UpdateHolds ls :=
  ⟨stop_holds h, update_holds h⟩

end Runs

def endpointA : ProxyConfig := ⟨.ofV4 127 0 0 1 8545, .ofV4 127 0 0 1 9050, "a.onion:80"⟩
def endpointB : ProxyConfig := ⟨.ofV4 127 0 0 1 8545, .ofV4 127 0 0 1 9050, "b.onion:80"⟩

/-- A new endpoint before the start, a request, and a stop once its connection
is closed: the labels of the run, from the initial state. -/
theorem settled_session : ∃ (ls : List Label) (s : State),
    Run SettledStep (controller.start (Controller.new endpointA none)) ls s ∧
      (.act 3 (Event.forwarded "b.onion:80") none : Label) ∈ ls ∧
      StopHolds ls ∧ UpdateHolds ls := by
  let actions : List controller.Action :=
    [.call (Call.updateConfig endpointB), .act 0 Choice.ready, .act 0 Choice.ready,
      .act 0 Choice.ready, .call Call.start, .act 1 Choice.ready, .act 1 Choice.ready,
      .act 1 Choice.ready, .act 2 Choice.ready, .act 2 Choice.ready, .act 2 Choice.ready,
      .act 2 Choice.ready, .act 3 Choice.ready, .act 3 Choice.closed, .call Call.stop,
      .act 4 Choice.ready, .act 4 Choice.ready, .cancel 2, .act 4 Choice.ready, .act 4 Choice.ready]
  have hrun : ((performAll settled (controller.start (Controller.new endpointA none))
      actions).map Prod.fst).any (fun ls => decide
        ((.act 3 (Event.forwarded "b.onion:80") none : Label) ∈ ls)) = true := by
    decide +kernel
  obtain ⟨ls, hls, hmem⟩ := Option.any_eq_true _ _ |>.mp hrun
  obtain ⟨⟨ls, s⟩, hperform, rfl⟩ := Option.map_eq_some_iff.mp hls
  have hsettled : Run SettledStep _ ls s := run_of_performAll hperform
  exact ⟨ls, s, hsettled, of_decide_eq_true hmem, stop_and_update_hold hsettled⟩

/-- The history of a wallet that keeps its connection open. -/
def keepAlive : List Label :=
  [.call 0 Call.start, .act 0 Event.progress none, .act 0 Event.progress none,
    .act 0 (Event.returned .unit) (some 1), .act 1 Event.progress none,
    .act 1 Event.progress none, .act 1 Event.progress none, .act 1 Event.accepted (some 2),
    .call 3 Call.stop,
    .act 3 Event.progress none, .act 3 Event.progress none, .cancel 1,
    .act 3 Event.progress none, .act 3 (Event.returned .unit) none,
    .call 4 (Call.updateConfig endpointB), .act 4 Event.progress none,
    .act 4 (Event.stored endpointB) none, .act 4 (Event.returned .unit) none,
    .act 2 (Event.forwarded "a.onion:80") none]

/-- After the stop and with the endpoint replaced, its requests go to the old one. -/
theorem request_after_stop : ∃ s : State,
    Run (Step controller) (controller.start (Controller.new endpointA none)) keepAlive s ∧
      ¬ StopHolds keepAlive ∧ ¬ UpdateHolds keepAlive := by
  let actions : List controller.Action :=
    [.call Call.start, .act 0 Choice.ready, .act 0 Choice.ready, .act 0 Choice.ready,
      .act 1 Choice.ready, .act 1 Choice.ready, .act 1 Choice.ready, .act 1 Choice.ready,
      .call Call.stop, .act 3 Choice.ready, .act 3 Choice.ready, .cancel 1, .act 3 Choice.ready,
      .act 3 Choice.ready, .call (Call.updateConfig endpointB), .act 4 Choice.ready,
      .act 4 Choice.ready, .act 4 Choice.ready, .act 2 Choice.ready]
  have hrun : (performAll (fun _ _ => true) (controller.start (Controller.new endpointA none))
      actions).map Prod.fst = some keepAlive := by
    decide +kernel
  obtain ⟨⟨ls, s⟩, hperform, hls⟩ := Option.map_eq_some_iff.mp hrun
  obtain rfl : ls = keepAlive := hls
  refine ⟨s, (run_of_performAll hperform).mono fun _ _ _ h => h.1, fun h => ?_, fun h => ?_⟩
  · exact h (keepAlive.take 13) 3 .unit none (keepAlive.drop 14) (by decide) (by decide) 2
      ⟨1, .accepted, by decide⟩ (.act 2 (Event.forwarded "a.onion:80") none) (by decide)
      ⟨_, _, rfl, .inr ⟨_, rfl⟩⟩
  · obtain ⟨before, after, hpre, hlast⟩ := h (keepAlive.take 17) 4 endpointB .unit none [] 2
      "a.onion:80" none [] (by decide) (by decide)
    -- nothing but this was stored
    have hplace : ∀ n < 17, (keepAlive.take 17)[n]? =
        some (.act 4 (Event.stored endpointB) none) → n = 16 := by decide
    have hlen : 17 = before.length + (after.length + 1) := by
      have hlen := congrArg List.length hpre
      rw [List.length_append, List.length_cons] at hlen
      exact hlen
    have hat : (keepAlive.take 17)[before.length]? =
        some (.act 4 (Event.stored endpointB) none) := by
      rw [hpre]
      simp
    have hlast' := hplace before.length (by omega) hat
    obtain rfl : after = [] := List.length_eq_zero_iff.mp (by omega)
    exact absurd (hlast fun _ _ _ => List.not_mem_nil) (by decide)

end Controller

end Torpc
