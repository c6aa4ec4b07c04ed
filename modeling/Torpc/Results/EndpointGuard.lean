import Torpc.Model.Gui
import Torpc.Results.Reconfigure

/-!
# Starting without an endpoint

The GUI's `start_proxy` looks at the stored configuration and refuses to start
without an endpoint. Nobody changes the configuration between its look and the
start, because the mutex is held. The other ways to a start do not look: the
tray's start, the restart inside `update_config`, and the CLI, which only asks
whether the text is empty. In the runs in which these three are not given a
blank endpoint, no proxy is ever run with one (`no_blank_proxy`).
-/

namespace Torpc

open Effects Prog Tasks

namespace Controller

open Machine Lts

/-- There is something in the endpoint besides whitespace. -/
def Named (config : ProxyConfig) : Prop := Gui.isBlank config.onionEndpoint = false

/-- A call that goes on to start a proxy has seen to it that it gets a named endpoint. -/
def CallNamed (config : ProxyConfig) : Call → CallPc → Prop
  | .updateConfig newConfig, .stop _ => Named newConfig
  | .updateConfig newConfig, .writeConfig true => Named newConfig
  | .updateConfig newConfig, .start _ => Named newConfig ∧ config = newConfig
  | .start, .start .readConfig => Named config
  | .start, _ => True
  | _, .start _ => False
  | _, _ => True

section Step

variable {s : Shared} {tasks : Nat → Option Task} {next : Nat} {c : Call} {pc : CallPc}
  {eff : Effect}

/-- A step of a call keeps this, if a start that passes its check finds a named
endpoint, and so does an `update_config` that is about to restart the proxy. -/
theorem callNamed_step (h : CallStep s tasks next c pc eff) (hnamed : CallNamed s.config c pc)
    (hstart : c = .start → pc = .start .lockHandle → s.status ≠ .running →
      s.status ≠ .starting → Named s.config)
    (hrestart : ∀ newConfig, c = .updateConfig newConfig → pc = .readStatus →
      s.status = .running → Named newConfig) {pc' : CallPc}
    (hnext : eff.task = some (.call c pc')) : CallNamed eff.shared.config c pc' := by
  cases h with
  | startLock | stopLock | take | joined =>
    cases hnext
    cases c <;> exact hnamed
  | starting _ hrunning hstarting =>
    cases hnext
    cases c with
    | start => exact hstart rfl rfl hrunning hstarting
    | updateConfig newConfig => exact hnamed
    | _ => exact hnamed.elim
  | noHandle | stopped =>
    cases c with
    | updateConfig newConfig =>
      cases hnext
      exact hnamed
    | _ => cases hnext
  | restart newConfig hrunning =>
    cases hnext
    exact hrestart newConfig rfl rfl hrunning
  | noRestart =>
    cases hnext
    trivial
  | store newConfig restart =>
    cases hnext
    cases restart with
    | false => trivial
    | true => exact ⟨hnamed, rfl⟩
  | refused | spawn | finish | isRunning | getStatus | getConfig => cases hnext

/-- A call that is named where it stands starts a named proxy only. -/
theorem CallNamed.spawned (h : CallStep s tasks next c pc eff) (hnamed : CallNamed s.config c pc)
    {config : ProxyConfig} {pc' : ProxyPc} (hspawn : eff.spawned = some (.proxy config pc')) :
    Named config := by
  cases (callStep_effect h).spawned _ hspawn
  obtain rfl := h.spawned hspawn
  cases c with
  | start => exact hnamed
  | updateConfig newConfig => exact hnamed.2 ▸ hnamed.1
  | _ => exact hnamed.elim

/-- What a call returns is the last thing it does, and `get_config` returns what
is stored. -/
theorem call_returned (h : CallStep s tasks next c pc eff) {answer : Answer}
    (he : eff.event = .returned answer) : eff.task = none ∧
      ∀ config, answer.toRes .getConfig = some config → config = s.config := by
  cases h with
  | startLock | starting | stopLock | take | joined | restart | noRestart | store => cases he
  | noHandle | stopped =>
    cases c <;> cases he <;> exact ⟨rfl, nofun⟩
  | getConfig =>
    cases he
    exact ⟨rfl, fun config hconfig => (Option.some.inj hconfig).symm⟩
  | refused | spawn | finish | isRunning | getStatus =>
    cases he
    exact ⟨rfl, nofun⟩

end Step

end Controller

namespace Gui

open Controller Machine Lts

-- ---------------------------------------------------------------------------
-- Where a session stands
-- ---------------------------------------------------------------------------

/-- The part of `start_proxy` that is left once the endpoint has been looked at. -/
def clearedStart : Program := do
  ask .start
  return .ok .unit

/-- Where a session stands while the stored configuration is `config`. -/
inductive Stands (config : ProxyConfig) : Command → Program → Prop where
  | asking : Stands config .startProxy startProxy
  | cleared (h : Named config) : Stands config .startProxy clearedStart
  | trayStart : Stands config .trayStart clearedStart
  | other (command : Command) (rest : Program) (h : rest.Ops fun c => c ≠ .start) :
      Stands config command rest

/-- A command stands well at its beginning. -/
theorem stands_program (config : ProxyConfig) (command : Command) :
    Stands config command command.program := by
  cases command with
  | startProxy => exact .asking
  | trayStart => exact .trayStart
  | _ => exact .other _ _ ⟨nofun, fun _ => trivial⟩

/-- A session that starts the proxy is one of the tray, or has found a named endpoint. -/
theorem Stands.start {config : ProxyConfig} {command : Command}
    {k : Call.Res .start → Program} (h : Stands config command (.op .start k)) :
    command = .trayStart ∨ Named config := by
  cases h with
  | cleared hnamed => exact .inr hnamed
  | trayStart => exact .inl rfl
  | other _ _ hops => exact absurd rfl hops.1

/-- What is stored matters to a session only while it waits for a start. -/
theorem Stands.stored {config config' : ProxyConfig} {command : Command} {c : Call}
    {k : c.Res → Program} (h : Stands config command (.op c k))
    (hkept : c = .start → config' = config) : Stands config' command (.op c k) := by
  cases h with
  | asking => exact .asking
  | cleared hnamed => exact .cleared (hkept rfl ▸ hnamed)
  | trayStart => exact .trayStart
  | other _ _ hops => exact .other _ _ hops

/-- When its call is answered, a session goes on; only `update_config` has changed
what is stored meanwhile. -/
theorem Stands.answered {config config' : ProxyConfig} {command : Command} {c : Call}
    {k : c.Res → Program} (h : Stands config command (.op c k)) {answer : Answer} {r : c.Res}
    (hr : answer.toRes c = some r)
    (hread : ∀ stored, answer.toRes .getConfig = some stored → stored = config)
    (hkept : (∀ newConfig, c ≠ .updateConfig newConfig) → config' = config) :
    Stands config' command (k r) := by
  cases h with
  | asking =>
    obtain rfl : r = config := hread r hr
    obtain rfl : config' = r := hkept nofun
    show Stands config' .startProxy (if isBlank config'.onionEndpoint then _ else _)
    split
    · exact .other _ _ trivial
    · next hnamed => exact .cleared (Bool.eq_false_of_not_eq_true hnamed)
  | cleared => exact .other _ _ trivial
  | trayStart => exact .other _ _ trivial
  | other _ _ hops => exact .other _ _ (hops.2 r)

-- ---------------------------------------------------------------------------
-- The condition and the invariant
-- ---------------------------------------------------------------------------

/-- The state before a step lets no start go unguarded. When a start from the tray
passes its check of the status, the stored endpoint is no blank one; and when an
`update_config` finds the proxy Running, it does not bring a blank one. -/
def guarded (s : State) : Label → Bool
  | .task (.act i _ _) =>
    match s.controller.tasks i, s.session with
    | some (.call .start (.start .lockHandle)), some ⟨.trayStart, _, _⟩ =>
      s.controller.shared.status == .running || s.controller.shared.status == .starting ||
        !isBlank s.controller.shared.config.onionEndpoint
    | some (.call (.updateConfig newConfig) .readStatus), _ =>
      s.controller.shared.status != .running || !isBlank newConfig.onionEndpoint
    | _, _ => true
  | _ => true

def GuardedStep (s : State) (l : Label) (s' : State) : Prop :=
  Step s l s' ∧ guarded s l = true

/-- No proxy is run with a blank endpoint. -/
def NoBlankProxy (s : State) : Prop :=
  ∀ i config pc, s.controller.tasks i = some (.proxy config pc) → Named config

structure Guarded (s : State) : Prop where
  fresh : Fresh s.controller
  proxies : NoBlankProxy s
  /-- the one call there is is the one that the session waits for -/
  serial : ∀ i c pc, s.controller.tasks i = some (.call c pc) →
    ∃ command k, s.session = some ⟨command, .op c k, some i⟩
  calls : ∀ i c pc, s.controller.tasks i = some (.call c pc) →
    CallNamed s.controller.shared.config c pc
  stands : ∀ command rest waiting, s.session = some ⟨command, rest, waiting⟩ →
    Stands s.controller.shared.config command rest

/-- At launch there is no proxy, no call and no session. -/
theorem guarded_start (config : ProxyConfig) (discoveryAddr : Option Net.SocketAddr) :
    Guarded (start config discoveryAddr) where
  fresh := fresh_start _
  proxies := nofun
  serial := nofun
  calls := nofun
  stands := nofun

-- ---------------------------------------------------------------------------
-- Every step keeps it
-- ---------------------------------------------------------------------------

section Step

variable {s : Controller.State} {session : Option Session} {k : Nat} {t : Task} {ch : Choice}
  {eff : Controller.Effect}

/-- A call is the session's, so there is no other. -/
theorem Guarded.call_unique (h : Guarded ⟨s, session⟩) {i j : Nat} {c c' : Call} {pc pc' : CallPc}
    (hi : s.tasks i = some (.call c pc)) (hj : s.tasks j = some (.call c' pc')) : i = j := by
  obtain ⟨command, rest, hsession⟩ := h.serial i c pc hi
  obtain ⟨command', rest', hsession'⟩ := h.serial j c' pc' hj
  rw [hsession] at hsession'
  exact Option.some.inj (Session.mk.inj (Option.some.inj hsession')).2.2

/-- A start that passes its check, and an `update_config` that will restart. -/
theorem Guarded.step_named (h : Guarded ⟨s, session⟩) {c : Call} {pc : CallPc}
    (hk : s.tasks k = some (.call c pc)) {e : Event} {spawned : Option Nat}
    (hguard : guarded ⟨s, session⟩ (.task (.act k e spawned)) = true) :
    (c = .start → pc = .start .lockHandle → s.shared.status ≠ .running →
      s.shared.status ≠ .starting → Named s.shared.config) ∧
    ∀ newConfig, c = .updateConfig newConfig → pc = .readStatus → s.shared.status = .running →
      Named newConfig := by
  obtain ⟨command, rest, hsession⟩ := h.serial k c pc hk
  obtain rfl : session = some ⟨command, .op c rest, some k⟩ := hsession
  constructor
  · rintro rfl rfl hrunning hstarting
    rcases (h.stands command _ _ rfl).start with rfl | hnamed
    · simp only [guarded, hk, Bool.or_eq_true, beq_iff_eq, hrunning, hstarting, false_or,
        Bool.not_eq_eq_eq_not, Bool.not_true] at hguard
      exact hguard
    · exact hnamed
  · rintro newConfig rfl rfl hrunning
    simp only [guarded, hk, hrunning, bne_self_eq_false, Bool.false_or,
      Bool.not_eq_eq_eq_not, Bool.not_true] at hguard
    exact hguard

/-- A step leaves no proxy without an endpoint, and every call as it has to be. -/
theorem Guarded.apply (h : Guarded ⟨s, session⟩) (hk : s.tasks k = some t)
    (hact : act s.shared s.tasks s.next t ch = some eff) {spawned : Option Nat}
    (hguard : guarded ⟨s, session⟩ (.task (.act k eff.event spawned)) = true) :
    (∀ i config pc, (s.apply k eff).tasks i = some (Task.proxy config pc) → Named config) ∧
    ∀ i c pc, (s.apply k eff).tasks i = some (Task.call c pc) →
      CallNamed eff.shared.config c pc ∧ ∃ pc', s.tasks i = some (.call c pc') := by
  by_cases hcall : t.IsCall
  · cases t with
    | call c pc =>
      obtain ⟨hstart, hrestart⟩ := h.step_named hk hguard
      have hstep := act_call hact
      have hnamed := h.calls k c pc hk
      have heff := callStep_effect hstep
      constructor
      · intro i config pc' hi
        rcases State.apply_cases hi with ⟨-, hnext⟩ | ⟨-, hs⟩ | ⟨-, hi⟩
        · obtain ⟨pc'', hpc⟩ := heff.task _ hnext
          cases hpc
        · exact hnamed.spawned hstep hs
        · exact h.proxies i config pc' hi
      · intro i c' pc' hi
        rcases State.apply_cases hi with ⟨rfl, hnext⟩ | ⟨-, hs⟩ | ⟨hik, hi⟩
        · obtain ⟨pc'', hpc⟩ := heff.task _ hnext
          cases hpc
          exact ⟨callNamed_step hstep hnamed hstart hrestart hnext, pc, hk⟩
        · cases heff.spawned _ hs
        · exact absurd (h.call_unique hi hk) hik
    | _ => exact hcall.elim
  · -- what is no call stores nothing and starts no proxy
    have hconfig : eff.shared.config = s.shared.config := by
      rcases act_config hact with hconfig | he
      · exact hconfig
      · obtain ⟨⟨pc, rfl⟩, -, -⟩ := act_stored hact he
        exact absurd trivial hcall
    constructor
    · intro i config pc hi
      rcases proxy_apply hk hact hi with ⟨pc', hi'⟩ | ⟨-, ⟨c, rfl⟩, -⟩
      · exact h.proxies i config pc' hi'
      · exact absurd trivial hcall
    · intro i c pc hi
      obtain ⟨t₀, hi₀, hcall₀, -, hother⟩ := call_apply hk hact hi trivial
      have hik : i ≠ k := by
        rintro rfl
        obtain rfl := Option.some.inj (hk.symm.trans hi₀)
        exact hcall hcall₀
      obtain rfl := hother hik
      rw [hconfig]
      exact ⟨h.calls i c pc hi₀, pc, hi₀⟩

/-- The session's own call has returned. -/
theorem Guarded.answered (h : Guarded ⟨s, session⟩) {command : Command} {c : Call}
    {rest : c.Res → Program} (hsession : session = some ⟨command, .op c rest, some k⟩)
    {answer : Answer} {r : c.Res} (hr : answer.toRes c = some r) (hk : s.tasks k = some t)
    (hact : act s.shared s.tasks s.next t ch = some eff) (he : eff.event = .returned answer) :
    eff.task = none ∧ Stands eff.shared.config command (rest r) := by
  subst hsession
  -- nobody but a call returns
  obtain ⟨c', pc, rfl⟩ : ∃ c' pc, t = .call c' pc := by
    rcases act_event hact with hcall | hev | hev | ⟨config, -, hev⟩
    · exact hcall
    all_goals cases hev.symm.trans he
  obtain ⟨command', rest', hsession⟩ := h.serial k c' pc hk
  cases hsession
  have hstep := act_call hact
  obtain ⟨hended, hread⟩ := call_returned hstep he
  refine ⟨hended, (h.stands command _ _ rfl).answered hr hread fun hother => ?_⟩
  have heff := callStep_effect hstep
  rcases heff.config with hconfig | hstored
  · exact hconfig
  · exact absurd (heff.stored _ hstored).1 (hother _)

end Step

/-- A guarded step keeps every proxy and every call named. -/
theorem guarded_step {s s' : State} {l : Label} (h : Guarded s) (hstep : GuardedStep s l s') :
    Guarded s' := by
  obtain ⟨hstep, hguard⟩ := hstep
  cases hstep with
  | lock s command =>
    refine ⟨h.fresh, h.proxies, fun i c pc hi => ?_, h.calls, ?_⟩
    · obtain ⟨_, _, hsession⟩ := h.serial i c pc hi
      cases hsession
    · rintro _ _ _ ⟨⟩
      exact stands_program _ command
  | unlock s command result =>
    refine ⟨h.fresh, h.proxies, fun i c pc hi => ?_, h.calls, nofun⟩
    obtain ⟨_, _, hsession⟩ := h.serial i c pc hi
    cases hsession
  | calls s command c k =>
    -- the session waited for nobody, so this is the only call
    have hnone : ∀ i c pc, s.tasks i ≠ some (Task.call c pc) := by
      intro i c' pc hi
      obtain ⟨_, _, hsession⟩ := h.serial i c' pc hi
      cases hsession
    refine ⟨fresh_step h.fresh (.call s c), ?_, ?_, ?_, ?_⟩
    · intro i config pc hi
      rcases State.add_cases hi with ⟨-, hnew⟩ | ⟨-, hi⟩
      · cases c <;> cases hnew
      · exact h.proxies i config pc hi
    · intro i c' pc hi
      rcases State.add_cases hi with ⟨rfl, hnew⟩ | ⟨-, hi⟩
      · obtain rfl : c' = c := by cases c <;> cases hnew <;> rfl
        exact ⟨command, k, rfl⟩
      · exact absurd hi (hnone i c' pc)
    · intro i c' pc hi
      rcases State.add_cases hi with ⟨-, hnew⟩ | ⟨-, hi⟩
      · cases c <;> cases hnew <;> trivial
      · exact absurd hi (hnone i c' pc)
    · rintro _ _ _ ⟨⟩
      exact h.stands command _ _ rfl
  | answered s s' command c k i answer spawned r hr hmachine =>
    have hfresh := fresh_step h.fresh hmachine
    obtain ⟨task, ch, eff, hi, -, hact, he, -, rfl⟩ := step_act hmachine
    obtain ⟨hended, hstands⟩ := h.answered rfl hr hi hact he
    rw [← he] at hguard
    obtain ⟨hproxies, hcalls⟩ := h.apply hi hact hguard
    -- the call is gone, and there was no other
    have hnone : ∀ j c' pc, (s.apply i eff).tasks j ≠ some (Task.call c' pc) := by
      intro j c' pc hj
      obtain ⟨-, pc', hj'⟩ := hcalls j c' pc hj
      obtain ⟨_, _, hsession⟩ := h.serial j c' pc' hj'
      cases hsession
      rw [s.apply_self, hended] at hj
      cases hj
    refine ⟨hfresh, hproxies, fun j c' pc hj => absurd hj (hnone j c' pc),
      fun j c' pc hj => absurd hj (hnone j c' pc), ?_⟩
    rintro _ _ _ ⟨⟩
    exact hstands
  | task s s' session l haside hmachine =>
    have hfresh := fresh_step h.fresh hmachine
    cases hmachine with
    | call c => exact haside.elim
    | act i task ch eff hi hgrant hact =>
      obtain ⟨hproxies, hcalls⟩ := h.apply hi hact hguard
      refine ⟨hfresh, hproxies, fun j c pc hj => ?_, fun j c pc hj => (hcalls j c pc hj).1, ?_⟩
      · obtain ⟨-, pc', hj'⟩ := hcalls j c pc hj
        exact h.serial j c pc' hj'
      · intro command rest waiting hsession
        rcases act_config hact with hconfig | he
        · show Stands eff.shared.config command rest
          rw [hconfig]
          exact h.stands command rest waiting hsession
        · -- what stores is the session's `update_config`
          obtain ⟨⟨pc, rfl⟩, -, -⟩ := act_stored hact he
          obtain ⟨command', k, hsession'⟩ := h.serial i _ pc hi
          obtain rfl : session = some ⟨command', .op _ k, some i⟩ := hsession'
          cases hsession
          exact (h.stands command _ _ rfl).stored nofun
    | cancel i task hi haborted =>
      refine ⟨hfresh, ?_, ?_, ?_, h.stands⟩
      · intro j config pc hj
        exact h.proxies j config pc (State.remove_some hj).2
      · intro j c pc hj
        exact h.serial j c pc (State.remove_some hj).2
      · intro j c pc hj
        exact h.calls j c pc (State.remove_some hj).2

/-- So does a run of guarded steps. -/
theorem guarded_run {config : ProxyConfig} {discoveryAddr : Option Net.SocketAddr} {s : State}
    {ls : List Label} (h : Run GuardedStep (start config discoveryAddr) ls s) : Guarded s :=
  h.invariant (guarded_start config discoveryAddr) fun _ _ _ => guarded_step

/-- **No start without an endpoint.** From any configuration, in every run of the
GUI whose starts are guarded, no proxy is run with a blank endpoint; and the CLI
runs none if and only if what it is given is not whitespace alone. -/
theorem no_blank_proxy (config : ProxyConfig) (discoveryAddr : Option Net.SocketAddr)
    (file : Option Toml.Table) (o : Overrides) :
    (∀ (ls : List Label) (s : State), Run GuardedStep (start config discoveryAddr) ls s →
      NoBlankProxy s) ∧
    ((∀ p, Torpc.startProxy file o = .ok p → Named p) ↔
      ∀ config, startConfig file o = some config →
        config.onionEndpoint = "" ∨ isBlank config.onionEndpoint = false) := by
  refine ⟨fun ls s h => (guarded_run h).proxies, ?_⟩
  simp only [startProxy_ok_iff]
  constructor
  · intro hnamed config hconfig
    by_cases hempty : config.onionEndpoint = ""
    · exact .inl hempty
    · have hp : Named ⟨_, _, config.onionEndpoint⟩ := hnamed _ ⟨config, hconfig, hempty, rfl⟩
      exact .inr hp
  · rintro hgiven p ⟨config, hconfig, hempty, rfl⟩
    exact (hgiven config hconfig).resolve_left hempty

/-- A start from the window with an endpoint, up to the live proxy. -/
theorem no_blank_proxy_named : ∃ (ls : List Label) (s : State),
    Run GuardedStep (start endpointA none) ls s ∧ NoBlankProxy s ∧
      s.controller.tasks 2 = some (.proxy endpointA .spawned) := by
  have hrun : Run GuardedStep (start endpointA none) _ _ :=
    ((((((((Run.nil _).snoc ⟨.lock _ .startProxy, rfl⟩).snoc ⟨.calls _ _ .getConfig _, rfl⟩).snoc
      ⟨.answered _ _ _ .getConfig _ 0 (.config endpointA) none endpointA rfl
        (step_of_perform (a := .act 0 Choice.ready) rfl), rfl⟩).snoc
      ⟨.calls _ _ .start _, rfl⟩).snoc
      ⟨.task _ _ _ (.act 1 Event.progress none) trivial
        (step_of_perform (a := .act 1 Choice.ready) rfl), rfl⟩).snoc
      ⟨.task _ _ _ (.act 1 Event.progress none) trivial
        (step_of_perform (a := .act 1 Choice.ready) rfl), rfl⟩).snoc
      ⟨.answered _ _ _ .start _ 1 .unit (some 2) () rfl
        (step_of_perform (a := .act 1 Choice.ready) rfl), rfl⟩)
  exact ⟨_, _, hrun, (no_blank_proxy endpointA none none .none).1 _ _ hrun, rfl⟩

/-- The tray's start, right after the first launch; and the CLI with a blank for
an endpoint. -/
theorem tray_starts_blank :
    (∃ (ls : List Label) (s : State), Run Step (start defaultConfig none) ls s ∧
      s.controller.tasks 1 = some (.proxy defaultConfig .spawned) ∧ ¬ NoBlankProxy s) ∧
    ∃ p, Torpc.startProxy none { Overrides.none with onion := some " " } = .ok p ∧ ¬ Named p := by
  constructor
  · have hrun : Run Step (start defaultConfig none) _ _ :=
      (((((Run.nil _).snoc (.lock _ .trayStart)).snoc (.calls _ _ .start _)).snoc
        (.task _ _ _ (.act 0 Event.progress none) trivial
          (step_of_perform (a := .act 0 Choice.ready) rfl))).snoc
        (.task _ _ _ (.act 0 Event.progress none) trivial
          (step_of_perform (a := .act 0 Choice.ready) rfl))).snoc
        (.answered _ _ _ .start _ 0 .unit (some 1) () rfl
          (step_of_perform (a := .act 0 Choice.ready) rfl))
    refine ⟨_, _, hrun, rfl, fun hnamed => ?_⟩
    have hblank : isBlank "" = false := hnamed 1 defaultConfig .spawned rfl
    revert hblank
    decide
  · refine ⟨_, rfl, fun hnamed => ?_⟩
    have hblank : isBlank " " = false := hnamed
    revert hblank
    decide

end Gui

end Torpc
