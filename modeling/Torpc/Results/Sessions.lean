import Torpc.Results.EndpointGuard

/-!
# What holds of the GUI in every run

Whoever has the mutex makes the calls of its command and no others, one after
the other, and nobody else calls anything (`Settled.serial`). So what is stored
is changed by an `update_config` alone, to what it has brought, and has been
when it is done (`Settled.done`); and a proxy is started with what is stored, by
a command that may start one (`Settled.spawned`).
-/

namespace Torpc

open Effects Prog Tasks

namespace Gui

open Controller Machine Lts

/-- The calls of a command. -/
def Command.MayCall : Command → Call → Prop
  | .getStatus, c => c = .getStatus
  | .startProxy, c => c = .getConfig ∨ c = .start
  | .stopProxy, c | .trayStop, c | .trayQuit, c => c = .stop
  | .getConfig, c => c = .getConfig
  | .updateConfig config, c => c = .updateConfig config
  | .trayStart, c => c = .start

/-- A command makes those calls of the controller only that it may make. -/
theorem Command.ops_program (command : Command) : command.program.Ops command.MayCall := by
  cases command with
  | startProxy =>
    refine ⟨.inl rfl, fun config => ?_⟩
    show (if isBlank config.onionEndpoint then _ else _ : Program).Ops _
    split
    · trivial
    · exact ⟨.inr rfl, fun _ => trivial⟩
  | _ => exact ⟨rfl, fun _ => trivial⟩

/-- Only the command that updates the configuration makes that call, and with its own
argument. -/
theorem Command.updateConfig_of_mayCall {command : Command} {config : ProxyConfig}
    (h : command.MayCall (.updateConfig config)) : command = .updateConfig config := by
  cases command with
  | updateConfig config' => exact congrArg Command.updateConfig (Call.updateConfig.inj h).symm
  | startProxy => rcases h with h | h <;> cases h
  | _ => cases h

/-- The calls that come to start a proxy. -/
def Starts (c : Call) : Prop := c = .start ∨ ∃ newConfig, c = .updateConfig newConfig

structure Settled (s : State) : Prop where
  fresh : Fresh s.controller
  /-- the one call there is is the one that the session waits for -/
  serial : ∀ i c pc, s.controller.tasks i = some (.call c pc) →
    ∃ command k, s.session = some ⟨command, .op c k, some i⟩
  calls : ∀ command rest waiting, s.session = some ⟨command, rest, waiting⟩ →
    rest.Ops command.MayCall
  starts : ∀ i c pc, s.controller.tasks i = some (.call c (.start pc)) → Starts c
  stored : ∀ i newConfig pc, s.controller.tasks i = some (.call (.updateConfig newConfig) pc) →
    pc.AfterStore → s.controller.shared.config = newConfig
  done : ∀ config result waiting, s.session = some ⟨.updateConfig config, .pure result, waiting⟩ →
    s.controller.shared.config = config

/-- At launch there is no session, no call and no proxy. -/
theorem settled_start (config : ProxyConfig) (discoveryAddr : Option Net.SocketAddr) :
    Settled (start config discoveryAddr) where
  fresh := fresh_start _
  serial := nofun
  calls := nofun
  starts := nofun
  stored := nofun
  done := nofun

section Step

variable {s : Controller.State} {session : Option Session} {k : Nat} {t : Task} {ch : Choice}
  {eff : Controller.Effect}

/-- An answer is returned by a call, and by no other task. -/
theorem call_of_returned (hact : act s.shared s.tasks s.next t ch = some eff) {answer : Answer}
    (he : eff.event = .returned answer) : ∃ c pc, t = .call c pc := by
  rcases act_event hact with hcall | hev | hev | ⟨config, -, hev⟩
  · exact hcall
  all_goals cases hev.symm.trans he

/-- The command in whose session a call is made. -/
theorem Settled.caller (h : Settled ⟨s, session⟩) {i : Nat} {c : Call} {pc : CallPc}
    (hi : s.tasks i = some (.call c pc)) :
    ∃ command rest, session = some ⟨command, .op c rest, some i⟩ ∧ command.MayCall c := by
  obtain ⟨command, rest, hsession⟩ := h.serial i c pc hi
  exact ⟨command, rest, hsession, (h.calls command _ _ hsession).1⟩

/-- A step that stores is one of an `update_config` session. -/
theorem Settled.storing (h : Settled ⟨s, session⟩) (hk : s.tasks k = some t)
    (hact : act s.shared s.tasks s.next t ch = some eff) {config : ProxyConfig}
    (he : eff.event = .stored config) :
    ∃ rest, session = some ⟨.updateConfig config, rest, some k⟩ := by
  obtain ⟨⟨pc, rfl⟩, -, -⟩ := act_stored hact he
  obtain ⟨command, rest, hsession, hmay⟩ := h.caller hk
  obtain rfl := Command.updateConfig_of_mayCall hmay
  exact ⟨_, hsession⟩

/-- There is one call at most, since there is one session at a time and it waits for its
call. -/
theorem Settled.call_unique (h : Settled ⟨s, session⟩) {i j : Nat} {c c' : Call} {pc pc' : CallPc}
    (hi : s.tasks i = some (.call c pc)) (hj : s.tasks j = some (.call c' pc')) : i = j := by
  obtain ⟨command, rest, hsession⟩ := h.serial i c pc hi
  obtain ⟨command', rest', hsession'⟩ := h.serial j c' pc' hj
  rw [hsession] at hsession'
  exact Option.some.inj (Session.mk.inj (Option.some.inj hsession')).2.2

/-- A call after a step is one of before. -/
theorem call_kept (hk : s.tasks k = some t)
    (hact : act s.shared s.tasks s.next t ch = some eff) {i : Nat} {c : Call} {pc : CallPc}
    (hi : (s.apply k eff).tasks i = some (Task.call c pc)) :
    ∃ pc', s.tasks i = some (.call c pc') ∧
      ((i ≠ k ∧ pc' = pc) ∨ (i = k ∧ t = .call c pc' ∧ eff.task = some (.call c pc))) := by
  obtain ⟨t₀, hi₀, hcall₀, hown, hother⟩ := call_apply hk hact hi trivial
  by_cases hik : i = k
  · subst hik
    obtain rfl := Option.some.inj (hk.symm.trans hi₀)
    cases t with
    | call c₀ pc₀ =>
      obtain ⟨pc', hpc⟩ := (callStep_effect (act_call hact)).task _ (hown rfl)
      cases hpc
      exact ⟨pc₀, hk, .inr ⟨rfl, rfl, hown rfl⟩⟩
    | _ => exact hcall₀.elim
  · rw [hother hik] at hi₀
    exact ⟨pc, hi₀, .inl ⟨hik, rfl⟩⟩

/-- After a step of a task, a call that stands in `start` is one that comes to start a
proxy: the call itself, or an update. -/
theorem Settled.starts_apply (h : Settled ⟨s, session⟩) (hk : s.tasks k = some t)
    (hact : act s.shared s.tasks s.next t ch = some eff) {i : Nat} {c : Call} {pc : StartPc}
    (hi : (s.apply k eff).tasks i = some (Task.call c (.start pc))) : Starts c := by
  obtain ⟨pc₀, hi₀, ⟨-, rfl⟩ | ⟨rfl, rfl, hnext⟩⟩ := call_kept hk hact hi
  · exact h.starts i c pc hi₀
  · cases act_call hact with
    | startLock | starting => exact h.starts i c _ hk
    | store newConfig => exact .inr ⟨newConfig, rfl⟩
    | noHandle | stopped => cases c <;> cases hnext
    | _ => cases hnext

/-- A call that has stored its configuration finds it stored for as long as it lasts, since
no other call is under way. -/
theorem Settled.stored_apply (h : Settled ⟨s, session⟩) (hk : s.tasks k = some t)
    (hact : act s.shared s.tasks s.next t ch = some eff) {i : Nat} {newConfig : ProxyConfig}
    {pc : CallPc} (hi : (s.apply k eff).tasks i = some (Task.call (.updateConfig newConfig) pc))
    (hafter : pc.AfterStore) : eff.shared.config = newConfig := by
  obtain ⟨pc₀, hi₀, ⟨hik, rfl⟩ | ⟨rfl, rfl, hnext⟩⟩ := call_kept hk hact hi
  · -- whoever else steps is no call, and stores nothing
    rcases act_config hact with hconfig | he
    · rw [hconfig]
      exact h.stored i newConfig pc₀ hi₀ hafter
    · obtain ⟨⟨pc', rfl⟩, -, -⟩ := act_stored hact he
      exact absurd (h.call_unique hi₀ hk) hik
  · rcases act_config hact with hconfig | he
    · obtain ⟨pc', hpc, hstored⟩ := (update_step hact).1 _ hnext
      cases hpc
      rcases hstored hafter with hbefore | ⟨he, -⟩
      · rw [hconfig]
        exact h.stored i newConfig pc₀ hk hbefore
      · exact (act_stored hact he).2.1
    · obtain ⟨⟨pc', hpc⟩, -, -⟩ := act_stored hact he
      exact (Call.updateConfig.inj (Task.call.inj hpc).1).symm

end Step

/-- Every step keeps the account of the sessions: the calls are made one at a time, and only
those that the session's command asks for. -/
theorem settled_step {s s' : State} {l : Label} (h : Settled s) (hstep : Step s l s') :
    Settled s' := by
  cases hstep with
  | lock s command =>
    refine ⟨h.fresh, fun i c pc hi => ?_, ?_, h.starts, h.stored, ?_⟩
    · obtain ⟨_, _, hsession⟩ := h.serial i c pc hi
      cases hsession
    · rintro _ _ _ ⟨⟩
      exact command.ops_program
    · intro config result waiting hsession
      obtain ⟨rfl, hrest, -⟩ := Session.mk.inj (Option.some.inj hsession)
      cases hrest
  | unlock s command result =>
    refine ⟨h.fresh, fun i c pc hi => ?_, nofun, h.starts, h.stored, nofun⟩
    obtain ⟨_, _, hsession⟩ := h.serial i c pc hi
    cases hsession
  | calls s command c k =>
    -- the session waited for nobody, so this is the only call
    have hnone : ∀ i c pc, s.tasks i ≠ some (Task.call c pc) := by
      intro i c' pc hi
      obtain ⟨_, _, hsession⟩ := h.serial i c' pc hi
      cases hsession
    refine ⟨fresh_step h.fresh (.call s c), ?_, ?_, ?_, ?_, nofun⟩
    · intro i c' pc hi
      rcases State.add_cases hi with ⟨rfl, hnew⟩ | ⟨-, hi⟩
      · obtain rfl : c' = c := by cases c <;> cases hnew <;> rfl
        exact ⟨command, k, rfl⟩
      · exact absurd hi (hnone i c' pc)
    · rintro _ _ _ ⟨⟩
      exact h.calls command _ _ rfl
    · intro i c' pc hi
      rcases State.add_cases hi with ⟨-, hnew⟩ | ⟨-, hi⟩
      · cases c <;> cases hnew
        exact .inl rfl
      · exact absurd hi (hnone i c' _)
    · intro i newConfig pc hi hafter
      rcases State.add_cases hi with ⟨-, hnew⟩ | ⟨-, hi⟩
      · cases c <;> cases hnew
        exact hafter.elim
      · exact absurd hi (hnone i _ pc)
  | answered s s' command c k i answer spawned r hr hmachine =>
    have hfresh := fresh_step h.fresh hmachine
    obtain ⟨task, ch, eff, hi, -, hact, he, -, rfl⟩ := step_act hmachine
    -- the call that returns is the session's own: it is gone, and there was no other
    obtain ⟨c', pc, rfl⟩ := call_of_returned hact he
    have hended := (call_returned (act_call hact) he).1
    have hnone : ∀ j c' pc, (s.apply i eff).tasks j ≠ some (Task.call c' pc) := by
      intro j c' pc hj
      obtain ⟨pc', hj', -⟩ := call_kept hi hact hj
      obtain rfl := h.call_unique hj' hi
      rw [s.apply_self, hended] at hj
      cases hj
    refine ⟨hfresh, fun j c' pc hj => absurd hj (hnone j c' pc), ?_,
      fun j c' pc hj => absurd hj (hnone j c' _), fun j c' pc hj => absurd hj (hnone j _ pc), ?_⟩
    · rintro _ _ _ ⟨⟩
      exact (h.calls command _ _ rfl).2 r
    · intro config result waiting hsession
      obtain ⟨rfl, hrest, -⟩ := Session.mk.inj (Option.some.inj hsession)
      obtain ⟨_, _, hcaller, hmay⟩ := h.caller hi
      cases hcaller
      obtain rfl : c = .updateConfig config := hmay
      show eff.shared.config = config
      rcases act_config hact with hconfig | hstored
      · rw [hconfig]
        exact h.stored i config pc hi ((update_step hact).2 answer he)
      · rw [he] at hstored
        cases hstored
  | task s s' session l haside hmachine =>
    have hfresh := fresh_step h.fresh hmachine
    cases hmachine with
    | call c => exact haside.elim
    | act i task ch eff hi hgrant hact =>
      refine ⟨hfresh, fun j c pc hj => ?_, h.calls, fun j c pc => h.starts_apply hi hact,
        fun j newConfig pc => h.stored_apply hi hact, ?_⟩
      · obtain ⟨pc', hj', -⟩ := call_kept hi hact hj
        exact h.serial j c pc' hj'
      · intro config result waiting hsession
        show eff.shared.config = config
        rcases act_config hact with hconfig | he
        · rw [hconfig]
          exact h.done config result waiting hsession
        · -- what stores is a call, and a session that is done waits for none
          obtain ⟨⟨pc, rfl⟩, -, -⟩ := act_stored hact he
          obtain ⟨_, _, hcaller⟩ := h.serial i _ pc hi
          rw [hsession] at hcaller
          cases hcaller
    | cancel i task hi haborted =>
      exact ⟨hfresh, fun j c pc hj => h.serial j c pc (State.remove_some hj).2, h.calls,
        fun j c pc hj => h.starts j c pc (State.remove_some hj).2,
        fun j newConfig pc hj => h.stored j newConfig pc (State.remove_some hj).2, h.done⟩

/-- What is stored is changed by an `update_config`, to what it has brought. -/
theorem Settled.config_step {s s' : State} {l : Label} (h : Settled s) (hstep : Step s l s') :
    s'.controller.shared.config = s.controller.shared.config ∨ ∃ rest waiting,
      s.session = some ⟨.updateConfig s'.controller.shared.config, rest, waiting⟩ := by
  have hact : ∀ {c c' : Controller.State} {session : Option Session} {i : Nat} {e : Event}
      {spawned : Option Nat}, Settled ⟨c, session⟩ →
      Machine.Step controller c (.act i e spawned) c' →
      c'.shared.config = c.shared.config ∨
        ∃ rest waiting, session = some ⟨.updateConfig c'.shared.config, rest, waiting⟩ := by
    intro c c' session i e spawned h hstep
    obtain ⟨task, ch, eff, hi, -, hact, -, -, rfl⟩ := step_act hstep
    rcases act_config hact with hconfig | he
    · exact .inl hconfig
    · obtain ⟨rest, hsession⟩ := h.storing hi hact he
      exact .inr ⟨rest, some i, hsession⟩
  cases hstep with
  | lock | unlock | calls => exact .inl rfl
  | answered s s' command c k i answer spawned r hr hmachine => exact hact h hmachine
  | task s s' session l haside hmachine =>
    cases hmachine with
    | call c => exact haside.elim
    | act i task ch eff hi hgrant heff => exact hact h (.act s i task ch eff hi hgrant heff)
    | cancel => exact .inl rfl

/-- A `get_config` session has not asked yet, or has what is stored. -/
def Fetched (s : State) : Prop := ∀ rest waiting, s.session = some ⟨.getConfig, rest, waiting⟩ →
  rest = Command.getConfig.program ∨ rest = .pure (.ok (.config s.controller.shared.config))

/-- A session that has fetched the configuration has what is stored, since nothing is stored
while it has the mutex. -/
theorem fetched_step {s s' : State} {l : Label} (h : Settled s) (hfetched : Fetched s)
    (hstep : Step s l s') : Fetched s' := by
  -- nothing is stored while the session is there
  have hkept : ∀ rest waiting, s.session = some ⟨.getConfig, rest, waiting⟩ →
      s'.controller.shared.config = s.controller.shared.config := by
    intro rest waiting hsession
    rcases h.config_step hstep with hconfig | ⟨_, _, hupdate⟩
    · exact hconfig
    · rw [hsession] at hupdate
      cases hupdate
  cases hstep with
  | lock s command =>
    rintro _ _ ⟨⟩
    exact .inl rfl
  | unlock => exact nofun
  | calls s command c k =>
    intro rest waiting hsession
    obtain ⟨rfl, rfl, -⟩ := Session.mk.inj (Option.some.inj hsession)
    exact hfetched _ _ rfl
  | answered s s' command c k i answer spawned r hr hmachine =>
    intro rest waiting hsession
    obtain ⟨rfl, rfl, -⟩ := Session.mk.inj (Option.some.inj hsession)
    obtain ⟨task, ch, eff, hi, -, hact, he, -, rfl⟩ := step_act hmachine
    rw [hkept _ _ rfl]
    rcases hfetched _ _ rfl with hrest | hrest
    · have hprogram : Command.getConfig.program =
          .op .getConfig fun config => .pure (.ok (.config config)) := rfl
      rw [hprogram] at hrest
      cases hrest
      obtain ⟨c', pc, rfl⟩ := call_of_returned hact he
      rw [(call_returned (act_call hact) he).2 r hr]
      exact .inr rfl
    · cases hrest
  | task s s' session l haside hmachine =>
    intro rest waiting hsession
    have hconfig := hkept rest waiting hsession
    show rest = _ ∨ rest = .pure (.ok (.config s'.shared.config))
    rw [hconfig]
    exact hfetched rest waiting hsession

/-- The configuration that a step stores. -/
def Label.stored : Label → Option ProxyConfig
  | .task (.act _ (.stored config) _) => some config
  | _ => none

/-- A step changes the configuration in force only by storing another. -/
theorem config_stored {s s' : State} {l : Label} (hstep : Step s l s') :
    s'.controller.shared.config = l.stored.getD s.controller.shared.config := by
  cases hstep with
  | lock | unlock | calls => rfl
  | answered s s' command c k i answer spawned r hr hmachine =>
    exact Controller.config_step hmachine nofun
  | task s s' session l haside hmachine =>
    cases hmachine with
    | call c => exact haside.elim
    | act i task ch eff hi hgrant hact =>
      cases hevent : eff.event with
      | stored config => exact (act_stored hact hevent).2.1
      | _ =>
        rcases act_config hact with hconfig | he
        · exact hconfig
        · cases hevent.symm.trans he
    | cancel => rfl

/-- What has made task `i` spawn a proxy with these settings: a command that calls `start`, or
an `update_config` of these very settings. -/
def Orders (s : State) (i : Nat) (config : ProxyConfig) : Prop :=
  ∃ command rest, s.session = some ⟨command, rest, some i⟩ ∧
    (command.MayCall .start ∨ (command = .updateConfig config ∧
      s.controller.tasks i = some (.call (.updateConfig config) (.start .readConfig))))

/-- A step of the controller's, on behalf of whatever session there is: it keeps a proxy, or
spawns it with what is stored. -/
theorem Settled.spawned_act {s s' : Controller.State} {session : Option Session}
    (h : Settled ⟨s, session⟩) {i : Nat} {e : Event} {spawned : Option Nat}
    (hstep : Machine.Step controller s (.act i e spawned) s') {j : Nat} {config : ProxyConfig}
    {pc : ProxyPc} (hj : s'.tasks j = some (.proxy config pc)) :
    (∃ pc', s.tasks j = some (.proxy config pc')) ∨
      (config = s.shared.config ∧ spawned = some j ∧ Orders ⟨s, session⟩ i config) := by
  obtain ⟨task, ch, eff, hi, -, hact, -, hspawned, rfl⟩ := step_act hstep
  rcases proxy_apply hi hact hj with hkept | ⟨rfl, ⟨c, rfl⟩, rfl, hsome⟩
  · exact .inl hkept
  · obtain ⟨t, ht⟩ := Option.isSome_iff_exists.mp hsome
    rw [ht] at hspawned
    obtain ⟨command, rest, hsession, hmay⟩ := h.caller hi
    refine .inr ⟨rfl, hspawned.symm, command, _, hsession, ?_⟩
    rcases h.starts i c _ hi with rfl | ⟨newConfig, rfl⟩
    · exact .inl hmay
    · -- an `update_config` starts a proxy with what it has stored
      have hstored : s.shared.config = newConfig := h.stored i newConfig _ hi trivial
      rw [hstored]
      exact .inr ⟨Command.updateConfig_of_mayCall hmay, hi⟩

/-- A proxy that a step brings runs with what is stored, and the session's command is one
that starts a proxy. -/
theorem Settled.spawned {s s' : State} {l : Label} (h : Settled s) (hstep : Step s l s')
    {j : Nat} {config : ProxyConfig} {pc : ProxyPc}
    (hj : s'.controller.tasks j = some (.proxy config pc)) :
    (∃ pc', s.controller.tasks j = some (.proxy config pc')) ∨
      (config = s.controller.shared.config ∧
        ∃ i e, l = .task (.act i e (some j)) ∧ Orders s i config) := by
  cases hstep with
  | lock | unlock => exact .inl ⟨pc, hj⟩
  | calls s command c k =>
    rcases State.add_cases hj with ⟨-, hnew⟩ | ⟨-, hj⟩
    · cases c <;> cases hnew
    · exact .inl ⟨pc, hj⟩
  | answered s s' command c k i answer spawned r hr hmachine =>
    rcases h.spawned_act hmachine hj with hkept | ⟨hconfig, rfl, horders⟩
    · exact .inl hkept
    · exact .inr ⟨hconfig, i, _, rfl, horders⟩
  | task s s' session l haside hmachine =>
    cases hmachine with
    | call c => exact haside.elim
    | act i task ch eff hi hgrant hact =>
      rcases h.spawned_act (.act s i task ch eff hi hgrant hact) hj with
        hkept | ⟨hconfig, hspawned, horders⟩
      · exact .inl hkept
      · exact .inr ⟨hconfig, i, eff.event, by rw [hspawned], horders⟩
    | cancel i task hi haborted => exact .inl ⟨pc, (State.remove_some hj).2⟩

/-- Where an `update_config` stands that has found the proxy running, and restarts it. -/
def Restarting : CallPc → Prop
  | .stop _ | .writeConfig true | .start _ => True
  | _ => False

/-- It gets there from its look at the status alone. -/
theorem restarting_step {s : Controller.Shared} {tasks : Nat → Option Task} {next : Nat}
    {config : ProxyConfig} {pc pc' : CallPc} {eff : Controller.Effect}
    (h : CallStep s tasks next (.updateConfig config) pc eff)
    (htask : eff.task = some (.call (.updateConfig config) pc')) (hpc' : Restarting pc') :
    Restarting pc ∨ (pc = .readStatus ∧ s.status = .running) := by
  cases h with
  | restart _ hrunning => exact .inr ⟨rfl, hrunning⟩
  | noRestart =>
    cases htask
    exact hpc'.elim
  | store _ restart =>
    cases restart with
    | true => exact .inl trivial
    | false =>
      cases htask
      exact hpc'.elim
  | finish => cases htask
  | startLock | refused | starting | spawn | stopLock | take | noHandle | joined | stopped =>
    exact .inl trivial

/-- So an `update_config` that restarts a proxy after a step has done so before, or has just
found it running. -/
theorem restarting_origin {s s' : State} {l : Label} (hstep : Step s l s') {i : Nat}
    {config : ProxyConfig} {pc : CallPc}
    (hi : s'.controller.tasks i = some (.call (.updateConfig config) pc)) (hpc : Restarting pc) :
    ∃ pc', s.controller.tasks i = some (.call (.updateConfig config) pc') ∧
      (Restarting pc' ∨ (pc' = .readStatus ∧ s.controller.shared.status = .running)) := by
  have hact : ∀ {c c' : Controller.State} {k : Nat} {e : Event} {spawned : Option Nat},
      Machine.Step controller c (.act k e spawned) c' →
      c'.tasks i = some (.call (.updateConfig config) pc) →
      ∃ pc', c.tasks i = some (.call (.updateConfig config) pc') ∧
        (Restarting pc' ∨ (pc' = .readStatus ∧ c.shared.status = .running)) := by
    intro c c' k e spawned hstep hi
    obtain ⟨task, ch, eff, hk, -, hact, -, -, rfl⟩ := step_act hstep
    obtain ⟨pc', hi', ⟨-, rfl⟩ | ⟨rfl, rfl, hnext⟩⟩ := call_kept hk hact hi
    · exact ⟨_, hi', .inl hpc⟩
    · exact ⟨pc', hi', restarting_step (act_call hact) hnext hpc⟩
  cases hstep with
  | lock | unlock => exact ⟨pc, hi, .inl hpc⟩
  | calls s command c k =>
    rcases State.add_cases hi with ⟨-, hnew⟩ | ⟨-, hi⟩
    · cases c <;> cases hnew
      exact hpc.elim
    · exact ⟨pc, hi, .inl hpc⟩
  | answered s s' command c k i answer spawned r hr hmachine => exact hact hmachine hi
  | task s s' session l haside hmachine =>
    cases hmachine with
    | call c => exact haside.elim
    | act k task ch eff hk hgrant heff => exact hact (.act s k task ch eff hk hgrant heff) hi
    | cancel k task hk haborted => exact ⟨pc, (State.remove_some hi).2, .inl hpc⟩

-- ---------------------------------------------------------------------------
-- A GUI in which nobody starts a proxy
-- ---------------------------------------------------------------------------

/-- Where a call can stand while there has been no proxy. -/
def IdlePc : Call → CallPc → Prop
  | .updateConfig _, .readStatus => True
  | .updateConfig _, .writeConfig restart => restart = false
  | .updateConfig _, .finish => True
  | .stop, .stop .lockStatus => True
  | .stop, .stop .lockHandle => True
  | .isRunning, .readStatus => True
  | .getStatus, .readStatus => True
  | .getConfig, .readConfig => True
  | _, _ => False

def IdleTask (t : Task) : Prop := ∃ c pc, t = .call c pc ∧ IdlePc c pc

structure Idle (s : State) : Prop where
  status : s.controller.shared.status = .stopped
  handle : s.controller.shared.handle = none
  tasks : ∀ i t, s.controller.tasks i = some t → IdleTask t
  calls : ∀ command rest waiting, s.session = some ⟨command, rest, waiting⟩ →
    rest.Ops fun c => c ≠ .start

/-- At launch no proxy has been started. -/
theorem idle_start (config : ProxyConfig) (discoveryAddr : Option Net.SocketAddr) :
    Idle (start config discoveryAddr) where
  status := rfl
  handle := rfl
  tasks := nofun
  calls := nofun

/-- A call that finds nothing running sets nothing going. -/
theorem idle_callStep {s : Controller.Shared} {tasks : Nat → Option Task} {next : Nat} {c : Call}
    {pc : CallPc} {eff : Controller.Effect} (hstatus : s.status = .stopped)
    (hhandle : s.handle = none) (hpc : IdlePc c pc) (h : CallStep s tasks next c pc eff) :
    eff.shared.status = .stopped ∧ eff.shared.handle = none ∧ eff.spawned = none ∧
      ∀ t, eff.task = some t → IdleTask t := by
  cases h with
  | startLock | refused | starting | spawn | joined | stopped => cases c <;> exact hpc.elim
  | stopLock =>
    cases c with
    | stop => exact ⟨hstatus, hhandle, rfl, holds_some ⟨_, _, rfl, trivial⟩⟩
    | _ => exact hpc.elim
  | take _ hd hsome =>
    rw [hhandle] at hsome
    cases hsome
  | noHandle =>
    cases c with
    | stop => exact ⟨hstatus, hhandle, rfl, holds_none⟩
    | _ => exact hpc.elim
  | restart newConfig hrunning =>
    rw [hstatus] at hrunning
    cases hrunning
  | noRestart => exact ⟨hstatus, hhandle, rfl, holds_some ⟨_, _, rfl, rfl⟩⟩
  | store newConfig restart =>
    obtain rfl : restart = false := hpc
    exact ⟨hstatus, hhandle, rfl, holds_some ⟨_, _, rfl, trivial⟩⟩
  | finish | isRunning | getStatus | getConfig => exact ⟨hstatus, hhandle, rfl, holds_none⟩

/-- Every call but `start` begins where it starts nothing. -/
theorem idle_enter {c : Call} (h : c ≠ .start) : IdleTask (enter c) := by
  cases c with
  | start => exact absurd rfl h
  | _ => exact ⟨_, _, rfl, trivial⟩

/-- A step of a call that has found nothing running leaves it so: no status, no handle, no
other kind of task. -/
theorem Idle.act {s s' : Controller.State} {session : Option Session} {i : Nat} {e : Event}
    {spawned : Option Nat} (h : Idle ⟨s, session⟩)
    (hstep : Machine.Step controller s (.act i e spawned) s') :
    s'.shared.status = .stopped ∧ s'.shared.handle = none ∧
      ∀ j t, s'.tasks j = some t → IdleTask t := by
  obtain ⟨task, ch, eff, hi, -, hact, -, -, rfl⟩ := step_act hstep
  obtain ⟨c, pc, rfl, hpc⟩ := h.tasks i task hi
  obtain ⟨hstatus, hhandle, hspawned, htask⟩ :=
    idle_callStep h.status h.handle hpc (act_call hact)
  refine ⟨hstatus, hhandle, fun j t hj => ?_⟩
  rcases State.apply_cases hj with ⟨-, hnext⟩ | ⟨-, hs⟩ | ⟨-, hj⟩
  · exact htask t hnext
  · rw [hspawned] at hs
    cases hs
  · exact h.tasks j t hj

/-- A command that starts a proxy. -/
def Command.Starts (command : Command) : Prop := command = .startProxy ∨ command = .trayStart

/-- There is no proxy as long as nobody takes the mutex for a command that may start one. -/
theorem idle_step {s s' : State} {l : Label} (h : Idle s)
    (hl : ∀ command, l = .locked command → ¬ command.Starts) (hstep : Step s l s') : Idle s' := by
  cases hstep with
  | lock s command =>
    refine ⟨h.status, h.handle, h.tasks, ?_⟩
    rintro _ _ _ ⟨⟩
    have hquiet := hl command rfl
    refine command.ops_program.mono fun c hmay => ?_
    rintro rfl
    cases command with
    | startProxy => exact hquiet (.inl rfl)
    | trayStart => exact hquiet (.inr rfl)
    | _ => cases hmay
  | unlock => exact ⟨h.status, h.handle, h.tasks, nofun⟩
  | calls s command c k =>
    have hops := h.calls command _ _ rfl
    refine ⟨h.status, h.handle, fun i t hi => ?_, ?_⟩
    · rcases State.add_cases hi with ⟨-, rfl⟩ | ⟨-, hi⟩
      · exact idle_enter hops.1
      · exact h.tasks i t hi
    · rintro _ _ _ ⟨⟩
      exact hops
  | answered s s' command c k i answer spawned r hr hmachine =>
    obtain ⟨hstatus, hhandle, htasks⟩ := h.act hmachine
    refine ⟨hstatus, hhandle, htasks, ?_⟩
    rintro _ _ _ ⟨⟩
    exact (h.calls command _ _ rfl).2 r
  | task s s' session l haside hmachine =>
    cases hmachine with
    | call c => exact haside.elim
    | act i task ch eff hi hgrant hact =>
      obtain ⟨hstatus, hhandle, htasks⟩ := h.act (.act s i task ch eff hi hgrant hact)
      exact ⟨hstatus, hhandle, htasks, h.calls⟩
    | cancel i task hi haborted =>
      exact ⟨h.status, h.handle, fun j t hj => h.tasks j t (State.remove_some hj).2, h.calls⟩

end Gui

end Torpc
