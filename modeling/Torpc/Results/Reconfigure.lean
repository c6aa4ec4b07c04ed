import Torpc.Results.Deadlock

/-!
# Which configuration the proxy runs with

The GUI calls the controller one operation at a time. `update_config` restarts
the proxy if it finds it Running, and otherwise only stores what it is given. But
a task that `start` has spawned and that has not been polled yet is Starting: it
has its configuration already, and goes on with it (`started_with_old`). This is
the only way: as long as no `update_config` brings something new while the status
is Starting, a proxy that is alive runs with what is stored
(`config_takes_effect`).
-/

namespace Torpc

namespace Controller

open Tasks Machine Lts

/-- Operations come one at a time: nothing is called before the last one has returned. -/
def serial (s : State) : Label → Bool
  | .call _ _ => everyTask s fun t => decide (¬ t.IsCall)
  | _ => true

/-- The state before a step is no Starting one in which an `update_config` that
looks at the status brings another configuration than the stored one. -/
def timely (s : State) : Label → Bool
  | .act i _ _ =>
    match s.tasks i with
    | some (.call (.updateConfig newConfig) .readStatus) =>
      decide (s.shared.status = .starting → newConfig = s.shared.config)
    | _ => true
  | _ => true

/-- A step of a controller that is used by one caller. -/
def SerialStep (s : State) (l : Label) (s' : State) : Prop :=
  Step controller s l s' ∧ serial s l = true

/-- A step at which a new configuration does not come too early. -/
def TimelyStep (s : State) (l : Label) (s' : State) : Prop :=
  Step controller s l s' ∧ (serial s l && timely s l) = true

/-- Every proxy that is alive runs with what `get_config` returns. -/
def InEffect (s : State) : Prop :=
  ∀ j config pc, s.tasks j = some (.proxy config pc) → config = s.shared.config

/-- An `update_config` has returned, and nothing has been stored since: its
configuration is the stored one, and that of every proxy there is. -/
def UpdateInEffect (ls : List Label) (s : State) : Prop :=
  ∀ pre i newConfig answer spawned post,
    ls = pre ++ .act i (Event.returned answer) spawned :: post →
    .call i (Call.updateConfig newConfig) ∈ pre →
    (∀ k c sp, .act k (Event.stored c) sp ∉ post) →
    s.shared.config = newConfig ∧
      ∀ j config pc, s.tasks j = some (.proxy config pc) → config = newConfig

-- ---------------------------------------------------------------------------
-- What one step does to the proxies
-- ---------------------------------------------------------------------------

/-- A proxy goes on with its configuration, or is new: then `start` has spawned it, with the
stored one. -/
theorem proxy_apply {s : State} {k : Nat} {t : Task} {ch : Choice} {eff : Effect}
    (hk : s.tasks k = some t) (hact : act s.shared s.tasks s.next t ch = some eff) {j : Nat}
    {config : ProxyConfig} {pc : ProxyPc} (hj : (s.apply k eff).tasks j = some (.proxy config pc)) :
    (∃ pc', s.tasks j = some (.proxy config pc')) ∨
      (config = s.shared.config ∧ (∃ c, t = .call c (.start .readConfig)) ∧ j = s.next ∧
        eff.spawned.isSome) := by
  have hdetached : t.IsDetached → ∀ t' : Task, eff.task = some t' ∨ eff.spawned = some t' →
      ¬ t'.IsProxy := by
    rintro ht t' (ht' | ht')
    · exact ((act_detached hact ht).task t' ht').1.not_proxy
    · exact ((act_detached hact ht).spawned t' ht').1.not_proxy
  have hown : eff.task = some (.proxy config pc) →
      ∃ pc', s.tasks k = some (.proxy config pc') := by
    intro hnext
    cases t with
    | call c pc₀ =>
      obtain ⟨pc', h⟩ := (callStep_effect (act_call hact)).task _ hnext
      cases h
    | proxy config₀ pc₀ =>
      obtain ⟨pc', h⟩ := (proxyStep_effect (proxyStep_inv hact)).task _ hnext
      cases h
      exact ⟨pc₀, hk⟩
    | _ => exact absurd trivial (hdetached trivial _ (.inl hnext))
  rcases State.apply_cases hj with ⟨rfl, hnext⟩ | ⟨rfl, hs⟩ | ⟨-, hj⟩
  · exact .inl (hown hnext)
  · cases t with
    | call c pc₀ =>
      obtain rfl := (act_call hact).spawned hs
      obtain ⟨rfl, -⟩ := Task.proxy.inj ((callStep_effect (act_call hact)).spawned _ hs)
      exact .inr ⟨rfl, ⟨c, rfl⟩, rfl, Option.isSome_of_eq_some hs⟩
    | proxy config₀ pc₀ =>
      rcases (proxyStep_effect (proxyStep_inv hact)).spawned _ hs with h | ⟨addr, token, h⟩ <;>
        cases h
    | _ => exact absurd trivial (hdetached trivial _ (.inr hs))
  · exact .inl ⟨pc, hj⟩

/-- Where an `update_config` stands after a step that brings it to its store. -/
theorem storing_origin {s : Shared} {tasks : Nat → Option Task} {next : Nat} {t : Task}
    {ch : Choice} {eff : Effect} (hact : act s tasks next t ch = some eff)
    {newConfig : ProxyConfig} {restart : Bool}
    (h : eff.task = some (.call (.updateConfig newConfig) (.writeConfig restart))) :
    (t = .call (.updateConfig newConfig) .readStatus ∧ s.status ≠ .running) ∨
      (t = .call (.updateConfig newConfig) (.stop .lockHandle) ∧ s.handle = none) ∨
      t = .call (.updateConfig newConfig) (.stop .setStopped) := by
  have hcall : t.IsCall := by
    by_contra hno
    exact (act_call_kept hact).2 hno _ h trivial
  cases t with
  | call c pc =>
    cases act_call hact with
    | noRestart newConfig' hstatus =>
      cases h
      exact .inl ⟨rfl, hstatus⟩
    | noHandle _ hhandle =>
      cases c <;> cases h
      exact .inr (.inl ⟨rfl, hhandle⟩)
    | stopped =>
      cases c <;> cases h
      exact .inr (.inr rfl)
    | store newConfig' restart' => cases restart' <;> cases h
    | _ => cases h
  | _ => exact hcall.elim

-- ---------------------------------------------------------------------------
-- One operation at a time
-- ---------------------------------------------------------------------------

/-- What holds of a controller whose configurations come in time. -/
structure InForce (s : State) : Prop where
  life : Lifecycle s
  single : ∀ i j (t t' : Task), s.tasks i = some t → s.tasks j = some t' → t.IsCall → t'.IsCall →
    i = j
  current : InEffect s
  /-- what is about to be stored is what the proxies have already -/
  storing : ∀ i newConfig restart,
    s.tasks i = some (.call (.updateConfig newConfig) (.writeConfig restart)) →
    ∀ j config pc, s.tasks j = some (.proxy config pc) → config = newConfig
  stored : ∀ i newConfig pc, s.tasks i = some (.call (.updateConfig newConfig) pc) →
    pc.AfterStore → s.shared.config = newConfig

/-- A new controller has no proxy that could run with another configuration. -/
theorem inForce_start (config : ProxyConfig) (discoveryAddr : Option Net.SocketAddr) :
    InForce (controller.start (Controller.new config discoveryAddr)) where
  life := lifecycle_start config discoveryAddr
  single := by
    intro i j t t' hi
    cases hi
  current := by
    intro j config pc hj
    cases hj
  storing := by
    intro i newConfig restart hi
    cases hi
  stored := by
    intro i newConfig pc hi
    cases hi

section Step

variable {s : State} {k : Nat} {t : Task} {ch : Choice} {eff : Effect}

/-- An operation after a step is one of before. -/
theorem call_apply (hk : s.tasks k = some t) (hact : act s.shared s.tasks s.next t ch = some eff)
    {i : Nat} {t' : Task} (hi : (s.apply k eff).tasks i = some t') (hcall : t'.IsCall) :
    ∃ t₀ : Task, s.tasks i = some t₀ ∧ t₀.IsCall ∧ (i = k → eff.task = some t') ∧
      (i ≠ k → t₀ = t') := by
  obtain ⟨hspawned, hkept⟩ := act_call_kept hact
  rcases State.apply_cases hi with ⟨rfl, hnext⟩ | ⟨-, hs⟩ | ⟨hik, hi⟩
  · refine ⟨t, hk, ?_, fun _ => hnext, fun h => absurd rfl h⟩
    by_contra hno
    exact hkept hno t' hnext hcall
  · exact absurd hcall (hspawned t' hs)
  · exact ⟨t', hi, hcall, fun h => absurd h hik, fun _ => rfl⟩

/-- A store is a step of the one operation there is, at its store. -/
theorem stored_step (hact : act s.shared s.tasks s.next t ch = some eff) {newConfig : ProxyConfig}
    (he : eff.event = .stored newConfig) :
    ∃ restart, t = .call (.updateConfig newConfig) (.writeConfig restart) := by
  obtain ⟨⟨pc, rfl⟩, -, -⟩ := act_stored hact he
  cases act_call hact with
  | store _ restart => exact ⟨restart, rfl⟩
  | _ => cases he

/-- A step keeps every proxy with the configuration that is in force. -/
theorem InForce.current_apply (h : InForce s) (hk : s.tasks k = some t)
    (hact : act s.shared s.tasks s.next t ch = some eff) : InEffect (s.apply k eff) := by
  intro j config pc hj
  show config = eff.shared.config
  rcases act_config hact with hconfig | he
  · rw [hconfig]
    rcases proxy_apply hk hact hj with ⟨pc', hj'⟩ | ⟨hnew, -⟩
    · exact h.current j config pc' hj'
    · exact hnew
  · obtain ⟨restart, rfl⟩ := stored_step hact he
    rcases proxy_apply hk hact hj with ⟨pc', hj'⟩ | ⟨-, ⟨c, hc⟩, -⟩
    · exact h.storing k _ restart hk j config pc' hj'
    · cases hc

/-- When an update comes to store its configuration, in a timely step, no proxy is left that
was started with another. -/
theorem InForce.storing_apply (h : InForce s) (hk : s.tasks k = some t)
    (hgrant : s.granted k t = true) (hact : act s.shared s.tasks s.next t ch = some eff)
    (htimely : timely s (.act k eff.event (eff.spawned.map fun _ => s.next)) = true)
    {i : Nat} {newConfig : ProxyConfig} {restart : Bool}
    (hi : (s.apply k eff).tasks i = some (.call (.updateConfig newConfig) (.writeConfig restart)))
    {j : Nat} {config : ProxyConfig} {pc : ProxyPc}
    (hj : (s.apply k eff).tasks j = some (.proxy config pc)) : config = newConfig := by
  obtain ⟨t₀, hi₀, hcall₀, hown, hother⟩ := call_apply hk hact hi trivial
  by_cases hik : i = k
  · subst hik
    rcases proxy_apply hk hact hj with ⟨pc', hj'⟩ | ⟨-, ⟨c, rfl⟩, -⟩
    · rcases storing_origin hact (hown rfl) with ⟨rfl, hstatus⟩ | ⟨rfl, hhandle⟩ | rfl
      · -- not Running, so the proxy there is has not been polled or waits for the status
        have hstarting : s.shared.status = .starting := by
          rcases h.life.owned j _ hj' trivial with hown' | ⟨m, c, hm⟩
          · exact (h.life.status j _ hj' trivial hown').resolve_right hstatus
          · obtain rfl := h.single m i _ _ hm hk trivial trivial
            rw [hk] at hm
            cases hm
        simp only [timely, hk, decide_eq_true_eq] at htimely
        rw [htimely hstarting]
        exact h.current j config pc' hj'
      · exact absurd trivial (h.life.no_proxy hgrant hhandle j _ hj')
      · exact absurd trivial (h.life.alone i _ hk trivial j _ hj')
    · rcases storing_origin hact (hown rfl) with ⟨hc, -⟩ | ⟨hc, -⟩ | hc <;> cases hc
  · obtain rfl := hother hik
    rcases proxy_apply hk hact hj with ⟨pc', hj'⟩ | ⟨-, ⟨c, rfl⟩, -⟩
    · exact h.storing i newConfig restart hi₀ j config pc' hj'
    · exact absurd (h.single i k _ _ hi₀ hk trivial trivial) hik

/-- A call that has stored its configuration finds it stored until it returns. -/
theorem InForce.stored_apply (h : InForce s) (hk : s.tasks k = some t)
    (hact : act s.shared s.tasks s.next t ch = some eff) {i : Nat} {newConfig : ProxyConfig}
    {pc : CallPc} (hi : (s.apply k eff).tasks i = some (.call (.updateConfig newConfig) pc))
    (hafter : pc.AfterStore) : eff.shared.config = newConfig := by
  obtain ⟨t₀, hi₀, hcall₀, hown, hother⟩ := call_apply hk hact hi trivial
  by_cases hik : i = k
  · subst hik
    obtain rfl := Option.some.inj (hk.symm.trans hi₀)
    -- the operation itself: it has just stored, or had stored before
    obtain ⟨pc₀, rfl⟩ : ∃ pc₀, t = .call (.updateConfig newConfig) pc₀ := by
      cases t with
      | call c pc₀ =>
        obtain ⟨pc', h'⟩ := (callStep_effect (act_call hact)).task _ (hown rfl)
        cases h'
        exact ⟨pc₀, rfl⟩
      | _ => exact hcall₀.elim
    rcases act_config hact with hconfig | he
    · obtain ⟨pc', hpc, hstored⟩ := (update_step hact).1 _ (hown rfl)
      cases hpc
      rcases hstored hafter with hbefore | ⟨he, -⟩
      · rw [hconfig]
        exact h.stored i newConfig pc₀ hk hbefore
      · exact (act_stored hact he).2.1
    · obtain ⟨⟨pc', hpc⟩, -, -⟩ := act_stored hact he
      cases hpc
      rfl
  · obtain rfl := hother hik
    rcases act_config hact with hconfig | he
    · rw [hconfig]
      exact h.stored i newConfig pc hi₀ hafter
    · obtain ⟨restart, rfl⟩ := stored_step hact he
      exact absurd (h.single i k _ _ hi₀ hk trivial trivial) hik

/-- A timely step keeps what is stored in force. -/
theorem inForce_step {s' : State} {l : Label} (h : InForce s) (hstep : TimelyStep s l s') :
    InForce s' := by
  obtain ⟨hstep, hcond⟩ := hstep
  obtain ⟨hserial, htimely⟩ := Bool.and_eq_true_iff.mp hcond
  have hlife := lifecycle_step h.life hstep
  cases hstep with
  | call c =>
    -- the one operation there is now is the new one
    have hidle : ∀ i (t : Task), s.tasks i = some t → ¬ t.IsCall := fun i t hi =>
      of_decide_eq_true ((everyTask_iff h.life.fresh).mp hserial i t hi)
    have hproxy : ∀ j config pc, (s.add (enter c)).tasks j = some (Task.proxy config pc) →
        s.tasks j = some (Task.proxy config pc) := by
      intro j config pc hj
      rcases State.add_cases hj with ⟨-, hnew⟩ | ⟨-, hj⟩
      · cases c <;> cases hnew
      · exact hj
    refine ⟨hlife, ?_, ?_, ?_, ?_⟩
    · intro i j t t' hi hj ht ht'
      rcases State.add_cases hi with ⟨rfl, -⟩ | ⟨-, hi⟩
      · rcases State.add_cases hj with ⟨rfl, -⟩ | ⟨-, hj⟩
        · rfl
        · exact absurd ht' (hidle j t' hj)
      · exact absurd ht (hidle i t hi)
    · intro j config pc hj
      exact h.current j config pc (hproxy j config pc hj)
    · intro i newConfig restart hi
      rcases State.add_cases hi with ⟨-, hnew⟩ | ⟨-, hi⟩
      · cases c <;> cases hnew
      · exact absurd trivial (hidle i _ hi)
    · intro i newConfig pc hi hafter
      rcases State.add_cases hi with ⟨-, hnew⟩ | ⟨-, hi⟩
      · cases c <;> cases hnew
        exact hafter.elim
      · exact absurd trivial (hidle i _ hi)
  | act k t ch eff hk hgrant hact =>
    refine ⟨hlife, ?_, h.current_apply hk hact, ?_, ?_⟩
    · intro i j t₁ t₂ hi hj ht₁ ht₂
      obtain ⟨t₁', hi', hcall, -⟩ := call_apply hk hact hi ht₁
      obtain ⟨t₂', hj', hcall', -⟩ := call_apply hk hact hj ht₂
      exact h.single i j t₁' t₂' hi' hj' hcall hcall'
    · intro i newConfig restart hi j config pc hj
      exact h.storing_apply hk hgrant hact htimely hi hj
    · intro i newConfig pc hi hafter
      exact h.stored_apply hk hact hi hafter
  | cancel k t hk haborted =>
    refine ⟨hlife, ?_, ?_, ?_, ?_⟩
    · intro i j t₁ t₂ hi hj
      exact h.single i j t₁ t₂ (State.remove_some hi).2 (State.remove_some hj).2
    · intro j config pc hj
      exact h.current j config pc (State.remove_some hj).2
    · intro i newConfig restart hi j config pc hj
      exact h.storing i newConfig restart (State.remove_some hi).2 j config pc
        (State.remove_some hj).2
    · intro i newConfig pc hi
      exact h.stored i newConfig pc (State.remove_some hi).2

end Step

section Runs

variable {config : ProxyConfig} {discoveryAddr : Option Net.SocketAddr} {s : State}
  {ls : List Label}

/-- So does a run of timely steps. -/
theorem inForce_run
    (h : Run TimelyStep (controller.start (Controller.new config discoveryAddr)) ls s) :
    InForce s :=
  h.invariant (inForce_start config discoveryAddr) fun _ _ _ => inForce_step

/-- If no `update_config` brings another configuration while the status is
Starting, every live proxy runs with the stored configuration, and after an
`update_config` with the one it has brought. -/
theorem config_takes_effect
    (h : Run TimelyStep (controller.start (Controller.new config discoveryAddr)) ls s) :
    InEffect s ∧ UpdateInEffect ls s := by
  have hcurrent := (inForce_run h).current
  refine ⟨hcurrent, ?_⟩
  rintro pre i newConfig answer spawned post rfl hcall hno
  have hconfig : s.shared.config = newConfig := by
    obtain ⟨u, u', hpre, ⟨hreturn, -⟩, hpost⟩ := h.at_label
    obtain ⟨task, ch, eff, hi, -, hact, he, -, -⟩ := step_act hreturn
    have hrun : Run (Step controller) _ pre u := hpre.mono fun _ _ _ hstep => hstep.1
    -- it returns from behind its store
    obtain ⟨pc, rfl⟩ : ∃ pc, task = .call (.updateConfig newConfig) pc := by
      refine (run_called (P := fun t : Task => ∃ pc, t = .call (.updateConfig newConfig) pc) hrun
        hcall ⟨_, rfl⟩ ?_).2 task hi
      rintro v t ch eff ⟨pc, rfl⟩ hact t' ht'
      obtain ⟨pc', rfl, -⟩ := (update_step hact).1 t' ht'
      exact ⟨pc', rfl⟩
    have hafter := (update_step hact).2 answer he
    have hu := (inForce_run hpre).stored i newConfig pc hi hafter
    rw [config_run (hpost.mono fun _ _ _ hstep => hstep.1) hno, config_step hreturn nofun, hu]
  refine ⟨hconfig, fun j config' pc hj => ?_⟩
  rw [← hconfig]
  exact hcurrent j config' pc hj

end Runs

/-- A new endpoint for a running proxy: it is restarted with it. -/
theorem config_takes_effect_restart : ∃ (ls : List Label) (s : State),
    Run TimelyStep (controller.start (Controller.new endpointA none)) ls s ∧
      s.tasks 3 = some (.proxy endpointB .bind) ∧ InEffect s ∧ UpdateInEffect ls s := by
  let actions : List controller.Action :=
    [.call Call.start, .act 0 Choice.ready, .act 0 Choice.ready, .act 0 Choice.ready,
      .act 1 Choice.ready, .act 1 Choice.ready, .call (Call.updateConfig endpointB),
      .act 2 Choice.ready, .act 2 Choice.ready, .act 2 Choice.ready, .cancel 1,
      .act 2 Choice.ready, .act 2 Choice.ready, .act 2 Choice.ready, .act 2 Choice.ready,
      .act 2 Choice.ready, .act 2 Choice.ready, .act 3 Choice.ready, .act 3 Choice.ready]
  let third (s : State) : Option Task := s.tasks 3
  have hrun : (performAll (fun s l => serial s l && timely s l)
      (controller.start (Controller.new endpointA none)) actions).any (fun out =>
        decide (third out.2 = some (.proxy endpointB .bind))) = true := by
    decide +kernel
  obtain ⟨⟨ls, s⟩, hperform, hthird⟩ := Option.any_eq_true _ _ |>.mp hrun
  have htimely : Run TimelyStep _ ls s := run_of_performAll hperform
  have hthird : third s = some (.proxy endpointB .bind) := of_decide_eq_true hthird
  exact ⟨ls, s, htimely, hthird, config_takes_effect htimely⟩

/-- A new endpoint after `start` has returned and before its task is polled: no
operation is in progress, the proxy becomes Running, and it has the old one. -/
theorem started_with_old : ∃ (ls : List Label) (s : State),
    Run SerialStep (controller.start (Controller.new endpointA none)) ls s ∧
      (∀ i (t : Task), s.tasks i = some t → ¬ t.IsCall) ∧ s.shared.status = .running ∧
      ¬ InEffect s ∧ ¬ UpdateInEffect ls s := by
  let actions : List controller.Action :=
    [.call Call.start, .act 0 Choice.ready, .act 0 Choice.ready, .act 0 Choice.ready,
      .call (Call.updateConfig endpointB), .act 2 Choice.ready, .act 2 Choice.ready,
      .act 2 Choice.ready, .act 1 Choice.ready, .act 1 Choice.ready]
  let history : List Label :=
    [.call 0 Call.start, .act 0 Event.progress none, .act 0 Event.progress none,
      .act 0 (Event.returned .unit) (some 1), .call 2 (Call.updateConfig endpointB),
      .act 2 Event.progress none, .act 2 (Event.stored endpointB) none,
      .act 2 (Event.returned .unit) none, .act 1 Event.progress none, .act 1 Event.progress none]
  let look (s : State) : Nat × Shared × List (Option Task) :=
    (s.next, s.shared, [s.tasks 0, s.tasks 1, s.tasks 2])
  have hrun : (performAll serial (controller.start (Controller.new endpointA none)) actions).map
      (fun out => (out.1, look out.2)) = some (history, 3,
        ⟨endpointB, .running, some 1, [], none, none⟩,
        [none, some (.proxy endpointA .bind), none]) := by
    decide +kernel
  obtain ⟨⟨ls, s⟩, hperform, hout⟩ := Option.map_eq_some_iff.mp hrun
  have hserial : Run SerialStep _ ls s := run_of_performAll hperform
  obtain ⟨rfl, hlook⟩ := Prod.mk.inj hout
  obtain ⟨hnext, hlook⟩ := Prod.mk.inj hlook
  obtain ⟨hshared, htasks⟩ := Prod.mk.inj hlook
  have hnext : s.next = 3 := hnext
  have hshared : s.shared = ⟨endpointB, .running, some 1, [], none, none⟩ := hshared
  have hat (n : Nat) := congrArg (fun tasks : List (Option Task) => tasks[n]?) htasks
  have h0 : s.tasks 0 = none := Option.some.inj (hat 0)
  have h1 : s.tasks 1 = some (Task.proxy endpointA .bind) := Option.some.inj (hat 1)
  have h2 : s.tasks 2 = none := Option.some.inj (hat 2)
  have hdiffer : endpointA ≠ endpointB := by decide
  refine ⟨_, s, hserial, fun i t hi => ?_, ?_, fun heffect => ?_, fun heffect => ?_⟩
  · have hlt : i < s.next :=
      (lifecycle_run (hserial.mono fun _ _ _ hstep => hstep.1)).fresh.lt hi
    have hcases : i = 0 ∨ i = 1 ∨ i = 2 := by omega
    rcases hcases with rfl | rfl | rfl
    · rw [h0] at hi
      cases hi
    · rw [h1] at hi
      cases hi
      exact id
    · rw [h2] at hi
      cases hi
  · rw [hshared]
  · have hsame := heffect 1 endpointA .bind h1
    rw [hshared] at hsame
    exact hdiffer hsame
  · have hlater : ∀ k c sp, (.act k (Event.stored c) sp : Label) ∉ history.drop 8 := by
      intro k c sp hmem
      simp only [history, List.drop_succ_cons, List.drop_zero, List.mem_cons, List.not_mem_nil,
        or_false] at hmem
      rcases hmem with hmem | hmem <;> cases hmem
    have hsame := (heffect (history.take 7) 2 endpointB .unit none (history.drop 8) rfl
      (by decide) hlater).2 1 endpointA .bind h1
    exact hdiffer hsame

end Controller

end Torpc
