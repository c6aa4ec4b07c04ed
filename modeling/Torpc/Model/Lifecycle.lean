import Torpc.Model.Controller

/-!
# What holds of a controller in every run

Every live proxy task is known to the controller: its handle is kept, or a
`stop` is waiting for it. So there is at most one, and an operation that finds
no handle, or has waited for the task it took, finds none alive
(`Lifecycle.no_proxy`). The connections and the discovery server are known to
nobody.
-/

namespace Torpc

namespace Controller

open Tasks Machine

/-- The task that runs the proxy. -/
def Task.IsProxy : Task → Prop
  | .proxy _ _ => True
  | _ => False

/-- A `stop` that has taken the handle. -/
def Task.HasTaken : Task → Prop
  | .call _ (.stop (.join _)) => True
  | .call _ (.stop .setStopped) => True
  | _ => False

/-- A `start` or `stop` that has made sure that no proxy task is alive. -/
def Task.FoundNone : Task → Prop
  | .call _ (.start .readConfig) => True
  | .call _ (.stop .setStopped) => True
  | _ => False

/-- A `stop` that has taken the handle still holds the handle's lock. -/
theorem Task.HasTaken.holds {t : Task} (h : t.HasTaken) : t.holds .handle ≠ none := by
  cases t with
  | call c pc =>
    cases pc with
    | stop pc => cases pc <;> first | exact h.elim | exact Option.some_ne_none _
    | _ => exact h.elim
  | _ => exact h.elim

/-- So does whoever has made sure that no proxy is alive. -/
theorem Task.FoundNone.holds {t : Task} (h : t.FoundNone) : t.holds .handle ≠ none := by
  cases t with
  | call c pc =>
    cases pc with
    | start pc => cases pc <;> first | exact h.elim | exact Option.some_ne_none _
    | stop pc => cases pc <;> first | exact h.elim | exact Option.some_ne_none _
    | _ => exact h.elim
  | _ => exact h.elim

/-- What holds of a task holds of whatever a step goes on as, if that is the task. -/
theorem holds_some {P : Task → Prop} {t : Task} (h : P t) : ∀ t', some t = some t' → P t' := by
  rintro _ ⟨⟩
  exact h

/-- And there is nothing to show where a step goes on as nothing. -/
theorem holds_none {P : Task → Prop} : ∀ t', none = some t' → P t' := by
  rintro _ ⟨⟩

-- ---------------------------------------------------------------------------
-- What one step can do
-- ---------------------------------------------------------------------------

variable {s : Shared} {tasks : Nat → Option Task} {next : Nat} {t : Task} {ch : Choice}
  {eff : Effect}

/-- The steps of a call, branch by branch. -/
inductive CallStep (s : Shared) (tasks : Nat → Option Task) (next : Nat) :
    Call → CallPc → Effect → Prop where
  | startLock (c : Call) :
      CallStep s tasks next c (.start .lockStatus) (goto s c (.start .lockHandle))
  | refused (c : Call) (h : s.status = .running ∨ s.status = .starting) :
      CallStep s tasks next c (.start .lockHandle) (returns s .unit)
  | starting (c : Call) (hrunning : s.status ≠ .running) (hstarting : s.status ≠ .starting) :
      CallStep s tasks next c (.start .lockHandle)
        (goto { s with status := .starting } c (.start .readConfig))
  | spawn (c : Call) :
      CallStep s tasks next c (.start .readConfig)
        ⟨{ s with handle := some next }, none, some (.proxy s.config .spawned), .returned .unit⟩
  | stopLock (c : Call) :
      CallStep s tasks next c (.stop .lockStatus) (goto s c (.stop .lockHandle))
  | take (c : Call) (h : Nat) (hhandle : s.handle = some h) :
      CallStep s tasks next c (.stop .lockHandle)
        (goto { s with handle := none, status := .stopping, aborted := h :: s.aborted } c
          (.stop (.join h)))
  | noHandle (c : Call) (hhandle : s.handle = none) :
      CallStep s tasks next c (.stop .lockHandle) (stopDone s c)
  | joined (c : Call) (h : Nat) (hdead : tasks h = none) :
      CallStep s tasks next c (.stop (.join h)) (goto s c (.stop .setStopped))
  | stopped (c : Call) :
      CallStep s tasks next c (.stop .setStopped) (stopDone { s with status := .stopped } c)
  | restart (newConfig : ProxyConfig) (h : s.status = .running) :
      CallStep s tasks next (.updateConfig newConfig) .readStatus
        (goto s (.updateConfig newConfig) (.stop .lockStatus))
  | noRestart (newConfig : ProxyConfig) (h : s.status ≠ .running) :
      CallStep s tasks next (.updateConfig newConfig) .readStatus
        (goto s (.updateConfig newConfig) (.writeConfig false))
  | store (newConfig : ProxyConfig) (restart : Bool) :
      CallStep s tasks next (.updateConfig newConfig) (.writeConfig restart)
        ⟨{ s with config := newConfig },
          some (.call (.updateConfig newConfig) (if restart then .start .lockStatus else .finish)),
          none, .stored newConfig⟩
  | finish (newConfig : ProxyConfig) :
      CallStep s tasks next (.updateConfig newConfig) .finish (returns s .unit)
  | isRunning : CallStep s tasks next .isRunning .readStatus
      (returns s (.running (decide (s.status = .running))))
  | getStatus : CallStep s tasks next .getStatus .readStatus (returns s (.status s.status))
  | getConfig : CallStep s tasks next .getConfig .readConfig (returns s (.config s.config))

/-- What a call does in one step is one of the branches. -/
theorem callStep_inv {c : Call} {pc : CallPc} (h : callStep s tasks next c pc = some eff) :
    CallStep s tasks next c pc eff := by
  cases pc with
  | start pc =>
    cases h
    cases pc with
    | lockStatus => exact .startLock c
    | lockHandle =>
      simp only [startStep]
      split
      · next hs => exact .refused c hs
      · next hs =>
        rw [not_or] at hs
        exact .starting c hs.1 hs.2
    | readConfig => exact .spawn c
  | stop pc =>
    have h : stopStep s tasks c pc = some eff := h
    cases pc with
    | lockStatus =>
      cases h
      exact .stopLock c
    | lockHandle =>
      simp only [stopStep] at h
      split at h
      · next hd hhandle =>
        cases h
        exact .take c hd hhandle
      · next hhandle =>
        cases h
        exact .noHandle c hhandle
    | join hd =>
      simp only [stopStep] at h
      split at h
      · cases h
      · next halive =>
        cases h
        exact .joined c hd (by simpa using halive)
    | setStopped =>
      cases h
      exact .stopped c
  | readStatus =>
    cases c with
    | updateConfig newConfig =>
      cases h
      split
      · next hs => exact .restart newConfig hs
      · next hs => exact .noRestart newConfig hs
    | isRunning =>
      cases h
      exact .isRunning
    | getStatus =>
      cases h
      exact .getStatus
    | _ => cases h
  | readConfig =>
    cases c <;> cases h
    exact .getConfig
  | writeConfig restart =>
    cases c <;> cases h
    exact .store _ restart
  | finish =>
    cases c <;> cases h
    exact .finish _

/-- The same for a step of the machine, when the task that acts is a call. -/
theorem act_call {c : Call} {pc : CallPc} (h : act s tasks next (.call c pc) ch = some eff) :
    CallStep s tasks next c pc eff := by
  cases ch with
  | ready => exact callStep_inv h
  | _ => cases h

/-- The steps of a proxy task, branch by branch. -/
inductive ProxyStep (s : Shared) (config : ProxyConfig) : ProxyPc → Effect → Prop where
  | polled : ProxyStep s config .spawned ⟨s, some (.proxy config .setRunning), none, .progress⟩
  | running (hdiscovery : s.discoveryAddr = none) :
      ProxyStep s config .setRunning
        ⟨{ s with status := .running }, some (.proxy config .bind), none, .progress⟩
  | discovery (addr : Net.SocketAddr) (token : String) (persisted : Bool)
      (hdiscovery : s.discoveryAddr = some addr) :
      ProxyStep s config .setRunning
        ⟨{ s with
            status := .running
            tokenFile := if persisted then some token else s.tokenFile },
          some (.proxy config .bind), some (.discovery addr config token false), .progress⟩
  | bound : ProxyStep s config .bind ⟨s, some (.proxy config .accept), none, .progress⟩
  | accepted : ProxyStep s config .accept
      ⟨s, some (.proxy config .accept), some (.connection config), .accepted⟩
  | failed (pc : ProxyPc) (message : String) :
      ProxyStep s config pc ⟨s, some (.proxy config (.setError message)), none, .progress⟩
  | ended (message : String) :
      ProxyStep s config (.setError message)
        ⟨{ s with status := .error message }, none, none, .progress⟩

/-- What the task that runs the proxy does in one step is one of its branches. -/
theorem proxyStep_inv {config : ProxyConfig} {pc : ProxyPc}
    (h : proxyStep s tasks next config pc ch = some eff) : ProxyStep s config pc eff := by
  cases pc with
  | spawned =>
    cases ch with
    | ready =>
      cases h
      exact .polled
    | _ => cases h
  | setRunning =>
    simp only [proxyStep] at h
    split at h
    · next hdiscovery =>
      cases h
      exact .running hdiscovery
    · next addr token persisted hdiscovery =>
      cases h
      exact .discovery addr token persisted hdiscovery
    · cases h
  | bind =>
    cases ch with
    | ready =>
      simp only [proxyStep] at h
      split at h <;> cases h
      exact .bound
    | failed message =>
      cases h
      exact .failed .bind _
    | _ => cases h
  | accept =>
    cases ch with
    | ready =>
      cases h
      exact .accepted
    | failed message =>
      cases h
      exact .failed .accept message
    | _ => cases h
  | setError message =>
    cases ch with
    | ready =>
      cases h
      exact .ended message
    | _ => cases h

/-- A step that leaves the handle alone, starts no proxy, and changes the status
only on behalf of a live proxy. -/
structure Aside (s : Shared) (t : Task) (eff : Effect) : Prop where
  handle : eff.shared.handle = s.handle
  aborted : eff.shared.aborted = s.aborted
  before : t.holds .handle = none
  after : ∀ t', eff.task = some t' → t'.holds .handle = none
  proxy : ∀ t', eff.task = some t' → t'.IsProxy → t.IsProxy
  kept : ∀ t', eff.task = some t' → t.IsProxy → t'.IsProxy
  spawned : ∀ t', eff.spawned = some t' → ¬ t'.IsProxy ∧ t'.holds .handle = none
  status : eff.shared.status = s.status ∨
    (t.IsProxy ∧ (eff.shared.status = .running ∨ eff.task = none))

/-- A step of a call is aside if it leaves handle, status and what has been aborted, and the
call holds the handle's lock neither before nor after. -/
theorem aside_call {c : Call} {pc : CallPc} {t' : Option Task} {e : Event} {s' : Shared}
    (hhandle : s'.handle = s.handle) (haborted : s'.aborted = s.aborted)
    (hstatus : s'.status = s.status) (hbefore : (Task.call c pc).holds .handle = none)
    (hafter : ∀ t, t' = some t → ∃ pc', t = .call c pc' ∧ t.holds .handle = none) :
    Aside s (.call c pc) ⟨s', t', none, e⟩ where
  handle := hhandle
  aborted := haborted
  before := hbefore
  after := by
    intro t ht
    obtain ⟨pc', -, hholds⟩ := hafter t ht
    exact hholds
  proxy := by
    intro t ht hproxy
    obtain ⟨pc', rfl, -⟩ := hafter t ht
    exact hproxy
  kept := fun _ _ hproxy => hproxy.elim
  spawned := holds_none
  status := .inl hstatus

/-- So is one that only moves the call on, from a place without the lock to another. -/
theorem aside_goto {c : Call} {pc pc' : CallPc} (hbefore : (Task.call c pc).holds .handle = none)
    (hafter : (Task.call c pc').holds .handle = none) : Aside s (.call c pc) (goto s c pc') :=
  aside_call rfl rfl rfl hbefore (holds_some ⟨pc', rfl, hafter⟩)

/-- So is one with which the call returns. -/
theorem aside_returns {c : Call} {pc : CallPc} {answer : Answer}
    (hbefore : (Task.call c pc).holds .handle = none) :
    Aside s (.call c pc) (returns s answer) :=
  aside_call rfl rfl rfl hbefore holds_none

/-- And so is the end of a `stop` that has found no handle. -/
theorem aside_stopDone {c : Call} {pc : CallPc} (hbefore : (Task.call c pc).holds .handle = none) :
    Aside s (.call c pc) (stopDone s c) := by
  cases c with
  | updateConfig newConfig => exact aside_goto hbefore rfl
  | _ => exact aside_returns hbefore

/-- The steps that are not aside: `start` from its check to the spawn, and `stop`
from taking the handle to the end. -/
inductive Turn (s : Shared) (tasks : Nat → Option Task) (next : Nat) : Task → Effect → Prop where
  | starting (c : Call) (hrunning : s.status ≠ .running) (hstarting : s.status ≠ .starting) :
      Turn s tasks next (.call c (.start .lockHandle))
        (goto { s with status := .starting } c (.start .readConfig))
  | spawn (c : Call) :
      Turn s tasks next (.call c (.start .readConfig))
        ⟨{ s with handle := some next }, none, some (.proxy s.config .spawned), .returned .unit⟩
  | take (c : Call) (h : Nat) (hhandle : s.handle = some h) :
      Turn s tasks next (.call c (.stop .lockHandle))
        (goto { s with handle := none, status := .stopping, aborted := h :: s.aborted } c
          (.stop (.join h)))
  | joined (c : Call) (h : Nat) (hdead : tasks h = none) :
      Turn s tasks next (.call c (.stop (.join h))) (goto s c (.stop .setStopped))
  | stopped (c : Call) :
      Turn s tasks next (.call c (.stop .setStopped)) (stopDone { s with status := .stopped } c)

/-- Each step of a call is aside or one of the turns at the handle. -/
theorem callStep_cases {c : Call} {pc : CallPc} (h : CallStep s tasks next c pc eff) :
    Aside s (.call c pc) eff ∨ Turn s tasks next (.call c pc) eff := by
  cases h with
  | startLock | stopLock | restart | noRestart => exact .inl (aside_goto rfl rfl)
  | refused | finish | isRunning | getStatus | getConfig => exact .inl (aside_returns rfl)
  | noHandle => exact .inl (aside_stopDone rfl)
  | store newConfig restart =>
    refine .inl (aside_call rfl rfl rfl rfl (holds_some ⟨_, rfl, ?_⟩))
    cases restart <;> rfl
  | starting _ hrunning hstarting => exact .inr (.starting c hrunning hstarting)
  | spawn => exact .inr (.spawn c)
  | take _ hd hhandle => exact .inr (.take c hd hhandle)
  | joined _ hd hdead => exact .inr (.joined c hd hdead)
  | stopped => exact .inr (.stopped c)

/-- A step of a live proxy is aside: it may report itself as running, and may spawn
connections and the discovery server, but no proxy. -/
theorem aside_proxy {config : ProxyConfig} {pc : ProxyPc} {q : Option ProxyPc} {s' : Shared}
    {spawned : Option Task} {e : Event} (hhandle : s'.handle = s.handle)
    (haborted : s'.aborted = s.aborted)
    (hspawned : ∀ t, spawned = some t → ¬ t.IsProxy ∧ t.holds .handle = none)
    (hstatus : s'.status = s.status ∨ s'.status = .running ∨ q = none) :
    Aside s (.proxy config pc) ⟨s', q.map (.proxy config), spawned, e⟩ where
  handle := hhandle
  aborted := haborted
  before := rfl
  after := by
    intro t ht
    obtain ⟨pc'', -, rfl⟩ := Option.map_eq_some_iff.mp ht
    rfl
  proxy := fun _ _ _ => trivial
  kept := by
    intro t ht _
    obtain ⟨pc'', -, rfl⟩ := Option.map_eq_some_iff.mp ht
    trivial
  spawned := hspawned
  status := hstatus.imp id fun h => ⟨trivial, h.imp id fun hnone => by rw [hnone]; rfl⟩

/-- All the steps of the task that runs the proxy are such ones. -/
theorem proxyStep_aside {config : ProxyConfig} {pc : ProxyPc}
    (h : ProxyStep s config pc eff) : Aside s (.proxy config pc) eff := by
  cases h with
  | polled => exact aside_proxy (q := some .setRunning) rfl rfl holds_none (.inl rfl)
  | running => exact aside_proxy (q := some .bind) rfl rfl holds_none (.inr (.inl rfl))
  | discovery addr token persisted =>
    exact aside_proxy (q := some .bind) rfl rfl (holds_some ⟨id, rfl⟩) (.inr (.inl rfl))
  | bound => exact aside_proxy (q := some .accept) rfl rfl holds_none (.inl rfl)
  | accepted => exact aside_proxy (q := some .accept) rfl rfl (holds_some ⟨id, rfl⟩) (.inl rfl)
  | failed _ message =>
    exact aside_proxy (q := some (.setError message)) rfl rfl holds_none (.inl rfl)
  | ended => exact aside_proxy (q := none) rfl rfl holds_none (.inr (.inr rfl))

/-- Tasks that nobody waits for: they neither know the handle nor become a proxy. -/
def Task.IsDetached : Task → Prop
  | .connection _ | .discovery _ _ _ _ | .discoveryRequest _ _ => True
  | _ => False

/-- A detached task runs no proxy. -/
theorem Task.IsDetached.not_proxy {t : Task} (h : t.IsDetached) : ¬ t.IsProxy := by
  cases t <;> first | exact h.elim | exact id

/-- And it never has the handle's lock. -/
theorem Task.IsDetached.not_holds {t : Task} (h : t.IsDetached) : t.holds .handle = none := by
  cases t <;> first | exact h.elim | rfl

/-- A step of a detached task is aside if it goes on and spawns as detached tasks do. -/
theorem aside_detached {task spawned : Option Task} {e : Event} (ht : t.IsDetached)
    (htask : ∀ t', task = some t' → t'.IsDetached)
    (hspawned : ∀ t', spawned = some t' → t'.IsDetached) : Aside s t ⟨s, task, spawned, e⟩ where
  handle := rfl
  aborted := rfl
  before := ht.not_holds
  after := fun t' h => (htask t' h).not_holds
  proxy := fun t' h hproxy => absurd hproxy (htask t' h).not_proxy
  kept := fun _ _ hproxy => absurd hproxy ht.not_proxy
  spawned := fun t' h => ⟨(hspawned t' h).not_proxy, (hspawned t' h).not_holds⟩
  status := .inl rfl

/-- A connection that may still send requests, or the discovery server. -/
def Task.IsLeftover : Task → Bool
  | .connection _ => true
  | .discovery _ _ _ _ => true
  | _ => false

/-- A detached task changes nothing that is shared, and goes on as what it is. -/
structure DetachedEffect (s : Shared) (t : Task) (eff : Effect) : Prop where
  shared : eff.shared = s
  task : ∀ t', eff.task = some t' → t'.IsDetached ∧ t'.forwards = t.forwards ∧
    t'.IsLeftover = t.IsLeftover
  spawned : ∀ t', eff.spawned = some t' → t'.IsDetached ∧ t'.forwards = none
  event : eff.event = .progress ∨ (eff.event = .accepted ∧ t.IsLeftover = true) ∨
    ∃ c, t.forwards = some c ∧ eff.event = .forwarded c.onionEndpoint

/-- Whatever a detached task does changes nothing that is shared; it may pass a request on
to its own endpoint. -/
theorem act_detached (h : act s tasks next t ch = some eff) (ht : t.IsDetached) :
    DetachedEffect s t eff := by
  cases t with
  | call c pc => exact ht.elim
  | proxy config pc => exact ht.elim
  | connection config =>
    cases ch <;> cases h
    · exact ⟨rfl, holds_some ⟨trivial, rfl, rfl⟩, holds_none, .inr (.inr ⟨config, rfl, rfl⟩)⟩
    · exact ⟨rfl, holds_none, holds_none, .inl rfl⟩
  | discoveryRequest config token =>
    cases ch <;> cases h
    · exact ⟨rfl, holds_some ⟨trivial, rfl, rfl⟩, holds_none, .inl rfl⟩
    · exact ⟨rfl, holds_none, holds_none, .inl rfl⟩
  | discovery addr config token listening =>
    cases listening with
    | false =>
      cases ch with
      | ready =>
        simp only [act, discoveryStep] at h
        split at h
        · cases h
          exact ⟨rfl, holds_some ⟨trivial, rfl, rfl⟩, holds_none, .inl rfl⟩
        · cases h
      | failed message =>
        cases h
        exact ⟨rfl, holds_none, holds_none, .inl rfl⟩
      | _ => cases h
    | true =>
      cases ch with
      | ready =>
        cases h
        exact ⟨rfl, holds_some ⟨trivial, rfl, rfl⟩, holds_some ⟨trivial, rfl⟩,
          .inr (.inl ⟨rfl, rfl⟩)⟩
      | failed message =>
        cases h
        exact ⟨rfl, holds_some ⟨trivial, rfl, rfl⟩, holds_none, .inl rfl⟩
      | _ => cases h

/-- A step is aside or one of the five of `start` and `stop`. -/
theorem act_cases (h : act s tasks next t ch = some eff) :
    Aside s t eff ∨ Turn s tasks next t eff := by
  cases t with
  | call c pc => exact callStep_cases (act_call h)
  | proxy config pc => exact .inl (proxyStep_aside (proxyStep_inv h))
  | _ =>
    have heff := act_detached h trivial
    obtain ⟨s', task, spawned, e⟩ := eff
    cases heff.shared
    exact .inl (aside_detached trivial (fun t' ht' => (heff.task t' ht').1)
      fun t' ht' => (heff.spawned t' ht').1)

-- ---------------------------------------------------------------------------
-- Who goes on as what
-- ---------------------------------------------------------------------------

/-- A call stays the same call. It spawns nothing but a proxy with the stored
configuration, and stores nothing but what `update_config` brings. -/
structure CallEffect (s : Shared) (c : Call) (eff : Effect) : Prop where
  task : ∀ t', eff.task = some t' → ∃ pc, t' = .call c pc
  spawned : ∀ t', eff.spawned = some t' → t' = .proxy s.config .spawned
  config : eff.shared.config = s.config ∨ eff.event = .stored eff.shared.config
  stored : ∀ newConfig, eff.event = .stored newConfig →
    c = .updateConfig newConfig ∧ eff.shared.config = newConfig ∧ eff.spawned = none
  quiet : eff.event ≠ .accepted ∧ ∀ endpoint, eff.event ≠ .forwarded endpoint

/-- A call that moves on without a change to the configuration is still the same call, and
has spawned nothing. -/
theorem callEffect_goto {c : Call} {pc : CallPc} {s' : Shared} (hconfig : s'.config = s.config) :
    CallEffect s c (goto s' c pc) :=
  ⟨holds_some ⟨pc, rfl⟩, holds_none, .inl hconfig, nofun, nofun, nofun⟩

/-- A call that returns goes on as nothing. -/
theorem callEffect_returns {c : Call} {answer : Answer} {s' : Shared}
    (hconfig : s'.config = s.config) : CallEffect s c (returns s' answer) :=
  ⟨holds_none, holds_none, .inl hconfig, nofun, nofun, nofun⟩

/-- The end of a `stop` is the end of its call, or brings an `update_config` to its store.
-/
theorem callEffect_stopDone {c : Call} {s' : Shared} (hconfig : s'.config = s.config) :
    CallEffect s c (stopDone s' c) := by
  cases c with
  | updateConfig newConfig => exact callEffect_goto hconfig
  | _ => exact callEffect_returns hconfig

/-- So is every step of a call: it stays the call it is, spawns nothing but a proxy with
what is stored, and stores nothing but what it has brought. -/
theorem callStep_effect {c : Call} {pc : CallPc} (h : CallStep s tasks next c pc eff) :
    CallEffect s c eff := by
  cases h with
  | startLock | starting | stopLock | take | joined | restart | noRestart =>
    exact callEffect_goto rfl
  | refused | finish | isRunning | getStatus | getConfig => exact callEffect_returns rfl
  | noHandle | stopped => exact callEffect_stopDone rfl
  | spawn => exact ⟨holds_none, holds_some rfl, .inl rfl, nofun, nofun, nofun⟩
  | store newConfig restart =>
    refine ⟨holds_some ⟨_, rfl⟩, holds_none, .inr rfl, ?_, nofun, nofun⟩
    rintro _ ⟨⟩
    exact ⟨rfl, rfl, rfl⟩

/-- The one step of a call that spawns is the last one of a start. -/
theorem CallStep.spawned {c : Call} {pc : CallPc} (h : CallStep s tasks next c pc eff)
    {t' : Task} (hspawn : eff.spawned = some t') : pc = .start .readConfig := by
  cases h with
  | spawn => rfl
  | noHandle | stopped => cases c <;> cases hspawn
  | _ => cases hspawn

/-- A proxy stays the same proxy, and hands its configuration on. -/
structure ProxyEffect (s : Shared) (config : ProxyConfig) (eff : Effect) : Prop where
  task : ∀ t', eff.task = some t' → ∃ pc, t' = .proxy config pc
  spawned : ∀ t', eff.spawned = some t' → t' = .connection config ∨
    ∃ addr token, t' = .discovery addr config token false
  config : eff.shared.config = s.config
  event : eff.event = .progress ∨ eff.event = .accepted

/-- A step of the proxy hands on the configuration that the proxy was started with, to its
connections and to the discovery server. -/
theorem proxyStep_effect {config : ProxyConfig} {pc : ProxyPc}
    (h : ProxyStep s config pc eff) : ProxyEffect s config eff := by
  cases h with
  | polled | running | bound | failed => exact ⟨holds_some ⟨_, rfl⟩, holds_none, rfl, .inl rfl⟩
  | discovery =>
    exact ⟨holds_some ⟨_, rfl⟩, holds_some (.inr ⟨_, _, rfl⟩), rfl, .inl rfl⟩
  | accepted => exact ⟨holds_some ⟨_, rfl⟩, holds_some (.inl rfl), rfl, .inr rfl⟩
  | ended => exact ⟨holds_none, holds_none, rfl, .inl rfl⟩

-- ---------------------------------------------------------------------------
-- The invariant
-- ---------------------------------------------------------------------------

abbrev State := controller.State

/-- An id that was given to a proxy task. -/
def IsProxyId (s : State) (i : Nat) : Prop :=
  i < s.next ∧ ∀ t : Task, s.tasks i = some t → t.IsProxy

/-- No proxy task is alive. -/
def NoProxy (s : State) : Prop := ∀ i (t : Task), s.tasks i = some t → ¬ t.IsProxy

structure Lifecycle (s : State) : Prop where
  fresh : Fresh s
  exclusive : Exclusive s .handle
  /-- The handle, and what has been aborted, are proxy tasks. -/
  handles : ∀ i, s.shared.handle = some i ∨ i ∈ s.shared.aborted → IsProxyId s i
  /-- A live proxy task can be reached: through the handle, or a `stop` waits for it. -/
  owned : ∀ i (t : Task), s.tasks i = some t → t.IsProxy →
    s.shared.handle = some i ∨ ∃ j c, s.tasks j = some (.call c (.stop (.join i)))
  status : ∀ i (t : Task), s.tasks i = some t → t.IsProxy → s.shared.handle = some i →
    s.shared.status = .starting ∨ s.shared.status = .running
  taken : ∀ j (t : Task), s.tasks j = some t → t.HasTaken → s.shared.handle = none
  starting : ∀ j c, s.tasks j = some (.call c (.start .readConfig)) →
    s.shared.status = .starting
  alone : ∀ j (t : Task), s.tasks j = some t → t.FoundNone → NoProxy s

/-- A state without proxies and without operations that hold the handle. -/
theorem Lifecycle.of_idle {s : State} (hfresh : Fresh s)
    (hhandles : ∀ i, s.shared.handle = some i ∨ i ∈ s.shared.aborted → IsProxyId s i)
    (hnone : NoProxy s)
    (hidle : ∀ j (t : Task), s.tasks j = some t → t.holds .handle = none) : Lifecycle s where
  fresh := hfresh
  exclusive := fun i _ t _ hi _ hheld => absurd (hidle i t hi) hheld
  handles := hhandles
  owned := fun i t hi hproxy => absurd hproxy (hnone i t hi)
  status := fun i t hi hproxy => absurd hproxy (hnone i t hi)
  taken := fun j t hj htaken => absurd (hidle j t hj) htaken.holds
  starting := fun j _ hj => absurd (hidle j _ hj) (Option.some_ne_none _)
  alone := fun _ _ _ _ => hnone

/-- At the start there is neither a handle nor a task. -/
theorem lifecycle_start (config : ProxyConfig) (discoveryAddr : Option Net.SocketAddr) :
    Lifecycle (controller.start (Controller.new config discoveryAddr)) := by
  refine .of_idle (fresh_start _) ?_ ?_ ?_
  · rintro i (h | h) <;> cases h
  · rintro i t ⟨⟩
  · rintro i t ⟨⟩

/-- Nobody comes to hold the handle's lock without having waited for it, and nobody holds it
for reading. -/
theorem disciplined_handle : Disciplined controller .handle := by
  refine ⟨fun t => ?_, fun c => ?_, ?_⟩
  · intro h
    cases t with
    | call c pc =>
      cases pc with
      | start pc => cases pc <;> cases h
      | stop pc => cases pc <;> cases h
      | _ => cases h
    | _ => cases h
  · cases c <;> rfl
  · intro s tasks next t ch eff h
    rcases act_cases h with haside | hturn
    · exact ⟨fun t' ht' => (haside.spawned t' ht').2,
        fun t' ht' hheld => absurd (haside.after t' ht') hheld⟩
    · cases hturn with
      | starting c hrunning hstarting =>
        exact ⟨holds_none, fun _ _ _ => .inr rfl⟩
      | spawn c => exact ⟨holds_some rfl, fun _ _ _ => .inl (Option.some_ne_none _)⟩
      | take c hd hhandle => exact ⟨holds_none, fun _ _ _ => .inr rfl⟩
      | joined c hd hdead => exact ⟨holds_none, fun _ _ _ => .inl (Option.some_ne_none _)⟩
      | stopped c =>
        refine ⟨?_, fun _ _ _ => .inl (Option.some_ne_none _)⟩
        cases c <;> exact holds_none

-- ---------------------------------------------------------------------------
-- Every step keeps it
-- ---------------------------------------------------------------------------

section Step

variable {s : State} {k : Nat} {t : Task} {eff : Effect}

/-- A number that was given to a proxy stays such a number, since no other task becomes a
proxy's. -/
theorem isProxyId_apply {i : Nat} (h : IsProxyId s i) (hk : s.tasks k = some t)
    (hkept : ∀ t', eff.task = some t' → t.IsProxy → t'.IsProxy) :
    IsProxyId (s.apply k eff) i := by
  refine ⟨Nat.lt_of_lt_of_le h.1 (s.next_le_apply k eff), fun t' ht' => ?_⟩
  rcases State.apply_cases ht' with ⟨rfl, he⟩ | ⟨rfl, -⟩ | ⟨-, ht'⟩
  · exact hkept t' he (h.2 t hk)
  · exact absurd h.1 (Nat.lt_irrefl _)
  · exact h.2 t' ht'

/-- A step aside keeps the invariant: neither the handle nor the proxies it speaks of have
changed. -/
theorem lifecycle_aside (h : Lifecycle s) (hk : s.tasks k = some t) (ha : Aside s.shared t eff)
    (hfresh : Fresh (s.apply k eff)) (hexclusive : Exclusive (s.apply k eff) .handle) :
    Lifecycle (s.apply k eff) := by
  -- the proxies and the holders of the handle are the same as before
  have hproxy : ∀ i (t' : Task), (s.apply k eff).tasks i = some t' → t'.IsProxy →
      ∃ t₀ : Task, s.tasks i = some t₀ ∧ t₀.IsProxy ∧ (i = k → eff.task = some t') := by
    intro i t' hi hp
    rcases State.apply_cases hi with ⟨rfl, he⟩ | ⟨-, hs⟩ | ⟨hik, hi⟩
    · exact ⟨t, hk, ha.proxy t' he hp, fun _ => he⟩
    · exact absurd hp (ha.spawned t' hs).1
    · exact ⟨t', hi, hp, fun hik' => absurd hik' hik⟩
  have hholder : ∀ j (t' : Task), (s.apply k eff).tasks j = some t' → t'.holds .handle ≠ none →
      s.tasks j = some t' := by
    intro j t' hj hheld
    rcases State.apply_cases hj with ⟨rfl, he⟩ | ⟨-, hs⟩ | ⟨-, hj⟩
    · exact absurd (ha.after t' he) hheld
    · exact absurd (ha.spawned t' hs).2 hheld
    · exact hj
  have hnone : ∀ {i}, NoProxy s → ∀ t' : Task, (s.apply k eff).tasks i = some t' →
      ¬ t'.IsProxy := by
    intro i hno t' hi hp
    obtain ⟨t₀, hi₀, hp₀, -⟩ := hproxy i t' hi hp
    exact hno i t₀ hi₀ hp₀
  refine
    { fresh := hfresh
      exclusive := hexclusive
      handles := fun i hi => ?_
      owned := fun i t' hi hp => ?_
      status := fun i t' hi hp hhandle => ?_
      taken := fun j t' hj htaken => ?_
      starting := fun j c hj => ?_
      alone := fun j t' hj hfound i => ?_ }
  · refine isProxyId_apply (h.handles i (hi.imp (fun hh => ?_) fun hab => ?_)) hk ha.kept
    · rw [← ha.handle]
      exact hh
    · rw [← ha.aborted]
      exact hab
  · obtain ⟨t₀, hi₀, hp₀, -⟩ := hproxy i t' hi hp
    rcases h.owned i t₀ hi₀ hp₀ with hhandle | ⟨j, c, hj⟩
    · exact .inl (ha.handle.trans hhandle)
    · refine .inr ⟨j, c, ?_⟩
      -- whoever waits for the proxy holds the handle, and this step does not
      have hjk : j ≠ k := by
        rintro rfl
        rw [hj] at hk
        cases hk
        exact absurd ha.before (Option.some_ne_none _)
      exact (s.apply_ne hjk (Nat.ne_of_lt (h.fresh.lt hj)) eff).trans hj
  · obtain ⟨t₀, hi₀, hp₀, htask⟩ := hproxy i t' hi hp
    have hhandle : s.shared.handle = some i := ha.handle.symm.trans hhandle
    rcases ha.status with hs | ⟨hpt, hs | hended⟩
    · have hold := h.status i t₀ hi₀ hp₀ hhandle
      rw [← hs] at hold
      exact hold
    · exact .inr hs
    · -- the task that has ended was the only proxy
      rcases h.owned k t hk hpt with hown | ⟨j, c, hj⟩
      · have hik : i = k := Option.some.inj (hhandle.symm.trans hown)
        have hsome := htask hik
        rw [hended] at hsome
        cases hsome
      · have htaken := h.taken j _ hj trivial
        rw [hhandle] at htaken
        cases htaken
  · exact ha.handle.trans (h.taken j t' (hholder j t' hj htaken.holds) htaken)
  · have hj₀ := hholder j _ hj (Option.some_ne_none _)
    rcases ha.status with hs | ⟨hpt, -⟩
    · exact hs.trans (h.starting j c hj₀)
    · exact absurd hpt (h.alone j _ hj₀ trivial k t hk)
  · exact hnone (h.alone j t' (hholder j t' hj hfound.holds) hfound)

/-- The end of a `stop` leaves the shared state to its last step, spawns nothing, and goes
on at most to the store of an `update_config`. -/
theorem stopDone_spec (s : Shared) (c : Call) : (stopDone s c).shared = s ∧
    (stopDone s c).spawned = none ∧ ∀ t', (stopDone s c).task = some t' →
      ∃ c', t' = .call c' (.writeConfig true) := by
  cases c with
  | updateConfig newConfig => exact ⟨rfl, rfl, holds_some ⟨_, rfl⟩⟩
  | _ => exact ⟨rfl, rfl, holds_none⟩

/-- The tasks after a step that spawns nothing and goes on as no proxy. -/
theorem noProxy_apply (h : NoProxy s) (hspawned : eff.spawned = none)
    (htask : ∀ t', eff.task = some t' → ¬ t'.IsProxy) : NoProxy (s.apply k eff) := by
  intro i t' hi
  rcases State.apply_cases hi with ⟨-, he⟩ | ⟨-, hs⟩ | ⟨-, hi⟩
  · exact htask t' he
  · rw [hspawned] at hs
    cases hs
  · exact h i t' hi

/-- The step by which `start` gets past its check, and takes the status, keeps the life of
the tasks in order. -/
theorem lifecycle_starting (h : Lifecycle s) {c : Call}
    (hk : s.tasks k = some (.call c (.start .lockHandle)))
    (hfree : ∀ j (t : Task), s.tasks j = some t → t.holds .handle = none)
    (hrunning : s.shared.status ≠ .running) (hstarting : s.shared.status ≠ .starting)
    (heff : eff = goto { s.shared with status := .starting } c (.start .readConfig))
    (hfresh : Fresh (s.apply k eff)) (hexclusive : Exclusive (s.apply k eff) .handle) :
    Lifecycle (s.apply k eff) := by
  subst heff
  -- a live proxy would be Starting or Running, or somebody would wait for it
  have hnone : NoProxy s := by
    intro i t' hi hp
    rcases h.owned i t' hi hp with hhandle | ⟨j, c, hj⟩
    · exact (h.status i t' hi hp hhandle).elim hstarting hrunning
    · exact absurd (hfree j _ hj) (Option.some_ne_none _)
  have hnone' : NoProxy (s.apply k
      (goto { s.shared with status := .starting } c (.start .readConfig))) :=
    noProxy_apply hnone rfl (holds_some id)
  refine
    { fresh := hfresh
      exclusive := hexclusive
      handles := fun i hi => isProxyId_apply (h.handles i hi) hk fun _ _ hp => hp.elim
      owned := fun i t' hi hp => absurd hp (hnone' i t' hi)
      status := fun i t' hi hp => absurd hp (hnone' i t' hi)
      taken := fun j t' hj htaken => ?_
      starting := fun j c hj => rfl
      alone := fun _ _ _ _ => hnone' }
  rcases State.apply_cases hj with ⟨-, he⟩ | ⟨-, hs⟩ | ⟨-, hj⟩
  · cases he
    exact htaken.elim
  · cases hs
  · exact absurd (hfree j t' hj) htaken.holds

/-- `start` spawns the proxy and keeps its handle. -/
theorem lifecycle_spawn (h : Lifecycle s) {c : Call}
    (hk : s.tasks k = some (.call c (.start .readConfig)))
    (hother : ∀ j (t : Task), j ≠ k → s.tasks j = some t → t.holds .handle = none)
    (heff : eff = ⟨{ s.shared with handle := some s.next }, none,
      some (.proxy s.shared.config .spawned), .returned .unit⟩)
    (hfresh : Fresh (s.apply k eff)) (hexclusive : Exclusive (s.apply k eff) .handle) :
    Lifecycle (s.apply k eff) := by
  subst heff
  have hnone : NoProxy s := h.alone k _ hk trivial
  -- with this call gone, nobody holds the handle any more
  have hidle : ∀ j (t' : Task), (s.apply k ⟨{ s.shared with handle := some s.next }, none,
      some (.proxy s.shared.config .spawned), .returned .unit⟩).tasks j = some t' →
      t'.holds .handle = none := by
    intro j t' hj
    rcases State.apply_cases hj with ⟨-, he⟩ | ⟨-, hs⟩ | ⟨hjk, hj⟩
    · cases he
    · cases hs
      rfl
    · exact hother j t' hjk hj
  refine
    { fresh := hfresh
      exclusive := hexclusive
      handles := fun i hi => ?_
      owned := fun i t' hi hp => ?_
      status := fun i t' hi hp hhandle => .inl (h.starting k c hk)
      taken := fun j t' hj htaken => absurd (hidle j t' hj) htaken.holds
      starting := fun j c hj => absurd (hidle j _ hj) (Option.some_ne_none _)
      alone := fun j t' hj hfound => absurd (hidle j t' hj) hfound.holds }
  · rcases hi with hi | hi
    · -- the new handle is the proxy that has just been spawned
      cases hi
      refine ⟨Nat.lt_succ_self _, fun t' ht' => ?_⟩
      rcases State.apply_cases ht' with ⟨-, he⟩ | ⟨-, hs⟩ | ⟨-, ht'⟩
      · cases he
      · cases hs
        trivial
      · exact absurd (h.fresh.lt ht') (Nat.lt_irrefl _)
    · exact isProxyId_apply (h.handles i (.inr hi)) hk fun _ _ hp => hp.elim
  · rcases State.apply_cases hi with ⟨-, he⟩ | ⟨rfl, -⟩ | ⟨-, hi⟩
    · cases he
    · exact .inl rfl
    · exact absurd hp (hnone i t' hi)

/-- `stop` takes the handle and aborts its task. -/
theorem lifecycle_take (h : Lifecycle s) {c : Call} {hd : Nat}
    (hk : s.tasks k = some (.call c (.stop .lockHandle)))
    (hfree : ∀ j (t : Task), s.tasks j = some t → t.holds .handle = none)
    (hhandle : s.shared.handle = some hd)
    (heff : eff = goto
      { s.shared with handle := none, status := .stopping, aborted := hd :: s.shared.aborted } c
      (.stop (.join hd)))
    (hfresh : Fresh (s.apply k eff)) (hexclusive : Exclusive (s.apply k eff) .handle) :
    Lifecycle (s.apply k eff) := by
  subst heff
  refine
    { fresh := hfresh
      exclusive := hexclusive
      handles := fun i hi => ?_
      owned := fun i t' hi hp => ?_
      status := fun i t' hi hp hhandle' => by cases hhandle'
      taken := fun _ _ _ _ => rfl
      starting := fun j c' hj => ?_
      alone := fun j t' hj hfound => ?_ }
  · refine isProxyId_apply (h.handles i ?_) hk fun _ _ hp => hp.elim
    rcases hi with hi | hi
    · cases hi
    · rcases List.mem_cons.mp hi with rfl | hi
      · exact .inl hhandle
      · exact .inr hi
  · rcases State.apply_cases hi with ⟨-, he⟩ | ⟨-, hs⟩ | ⟨-, hi⟩
    · cases he
      exact hp.elim
    · cases hs
    · rcases h.owned i t' hi hp with hown | ⟨j, c', hj⟩
      · -- from now on this `stop` waits for it
        obtain rfl : hd = i := Option.some.inj (hhandle.symm.trans hown)
        exact .inr ⟨k, c, s.apply_self k _⟩
      · exact absurd (hfree j _ hj) (Option.some_ne_none _)
  · rcases State.apply_cases hj with ⟨-, he⟩ | ⟨-, hs⟩ | ⟨-, hj⟩
    · cases he
    · cases hs
    · exact absurd (hfree j _ hj) (Option.some_ne_none _)
  · rcases State.apply_cases hj with ⟨-, he⟩ | ⟨-, hs⟩ | ⟨-, hj⟩
    · cases he
      exact hfound.elim
    · cases hs
    · exact absurd (hfree j t' hj) hfound.holds

/-- The task that `stop` waits for has ended. -/
theorem lifecycle_joined (h : Lifecycle s) {c : Call} {hd : Nat}
    (hk : s.tasks k = some (.call c (.stop (.join hd))))
    (hother : ∀ j (t : Task), j ≠ k → s.tasks j = some t → t.holds .handle = none)
    (hdead : s.tasks hd = none) (heff : eff = goto s.shared c (.stop .setStopped))
    (hfresh : Fresh (s.apply k eff)) (hexclusive : Exclusive (s.apply k eff) .handle) :
    Lifecycle (s.apply k eff) := by
  subst heff
  have hhandle : s.shared.handle = none := h.taken k _ hk trivial
  have hnone : NoProxy s := by
    intro i t' hi hp
    rcases h.owned i t' hi hp with hown | ⟨j, c', hj⟩
    · rw [hhandle] at hown
      cases hown
    · -- the one that waits is this one, and its task is dead
      by_cases hjk : j = k
      · subst hjk
        rw [hk] at hj
        cases hj
        rw [hdead] at hi
        cases hi
      · exact absurd (hother j _ hjk hj) (Option.some_ne_none _)
  have hnone' : NoProxy (s.apply k (goto s.shared c (.stop .setStopped))) :=
    noProxy_apply hnone rfl (holds_some id)
  refine
    { fresh := hfresh
      exclusive := hexclusive
      handles := fun i hi => isProxyId_apply (h.handles i hi) hk fun _ _ hp => hp.elim
      owned := fun i t' hi hp => absurd hp (hnone' i t' hi)
      status := fun i t' hi hp => absurd hp (hnone' i t' hi)
      taken := fun _ _ _ _ => hhandle
      starting := fun j c' hj => ?_
      alone := fun _ _ _ _ => hnone' }
  rcases State.apply_cases hj with ⟨-, he⟩ | ⟨-, hs⟩ | ⟨hjk, hj⟩
  · cases he
  · cases hs
  · exact absurd (hother j _ hjk hj) (Option.some_ne_none _)

/-- So does the step by which a `stop` is done. -/
theorem lifecycle_stopped (h : Lifecycle s) {c : Call}
    (hk : s.tasks k = some (.call c (.stop .setStopped)))
    (hother : ∀ j (t : Task), j ≠ k → s.tasks j = some t → t.holds .handle = none)
    (heff : eff = stopDone { s.shared with status := .stopped } c)
    (hfresh : Fresh (s.apply k eff)) (hexclusive : Exclusive (s.apply k eff) .handle) :
    Lifecycle (s.apply k eff) := by
  subst heff
  have hnone : NoProxy s := h.alone k _ hk trivial
  -- `stop` leaves nothing behind, wherever `update_config` goes on from here
  obtain ⟨hshared, hspawned, htask⟩ := stopDone_spec { s.shared with status := .stopped } c
  refine .of_idle hfresh (fun i hi => ?_) (noProxy_apply hnone hspawned fun t' ht' => ?_) ?_
  · have hi : (stopDone { s.shared with status := .stopped } c).shared.handle = some i ∨
        i ∈ (stopDone { s.shared with status := .stopped } c).shared.aborted := hi
    rw [hshared] at hi
    exact isProxyId_apply (h.handles i hi) hk fun _ _ hp => hp.elim
  · obtain ⟨c', rfl⟩ := htask t' ht'
    exact id
  · intro j t' hj
    rcases State.apply_cases hj with ⟨-, he⟩ | ⟨-, hs⟩ | ⟨hjk, hj⟩
    · obtain ⟨c', rfl⟩ := htask t' he
      rfl
    · rw [hspawned] at hs
      cases hs
    · exact hother j t' hjk hj

/-- The turns at the handle keep the invariant: `start` spawns when no proxy is alive and
puts the new one into the handle, `stop` takes it out and waits for its end. -/
theorem lifecycle_turn (h : Lifecycle s) (hk : s.tasks k = some t)
    (hgrant : s.granted k t = true) (hturn : Turn s.shared s.tasks s.next t eff)
    (hfresh : Fresh (s.apply k eff)) (hexclusive : Exclusive (s.apply k eff) .handle) :
    Lifecycle (s.apply k eff) := by
  -- a call that holds the handle is the only one, and one that gets it finds none
  have hother : t.holds .handle ≠ none → ∀ j (t' : Task), j ≠ k → s.tasks j = some t' →
      t'.holds .handle = none := by
    intro hheld j t' hjk hj
    by_contra hheld'
    exact hjk (h.exclusive j k t' t hj hk hheld' hheld)
  have hfree : t.awaits = some (.handle, .write) → ∀ j (t' : Task), s.tasks j = some t' →
      t'.holds .handle = none :=
    fun hawaits j t' hj => State.not_held_of_granted h.fresh hgrant hawaits hj
  cases hturn with
  | starting c hrunning hstarting =>
    exact lifecycle_starting h hk (hfree rfl) hrunning hstarting rfl hfresh hexclusive
  | spawn c =>
    exact lifecycle_spawn h hk (hother (Option.some_ne_none _)) rfl hfresh hexclusive
  | take c hd hhandle => exact lifecycle_take h hk (hfree rfl) hhandle rfl hfresh hexclusive
  | joined c hd hdead =>
    exact lifecycle_joined h hk (hother (Option.some_ne_none _)) hdead rfl hfresh hexclusive
  | stopped c =>
    exact lifecycle_stopped h hk (hother (Option.some_ne_none _)) rfl hfresh hexclusive

/-- A new call keeps it, since it has done nothing yet. -/
theorem lifecycle_call (h : Lifecycle s) (c : Call) (hfresh : Fresh (s.add (enter c)))
    (hexclusive : Exclusive (s.add (enter c)) .handle) : Lifecycle (s.add (enter c)) := by
  -- a call enters as no proxy and holds nothing
  have hproxy : ∀ i (t : Task), (s.add (enter c)).tasks i = some t → t.IsProxy →
      s.tasks i = some t := by
    intro i t hi hp
    rcases State.add_cases hi with ⟨-, rfl⟩ | ⟨-, hi⟩
    · cases c <;> exact hp.elim
    · exact hi
  have hholder : ∀ j (t : Task), (s.add (enter c)).tasks j = some t → t.holds .handle ≠ none →
      s.tasks j = some t := by
    intro j t hj hheld
    rcases State.add_cases hj with ⟨-, rfl⟩ | ⟨-, hj⟩
    · cases c <;> exact absurd rfl hheld
    · exact hj
  refine
    { fresh := hfresh
      exclusive := hexclusive
      handles := fun i hi => ?_
      owned := fun i t hi hp => ?_
      status := fun i t hi hp => h.status i t (hproxy i t hi hp) hp
      taken := fun j t hj ht => h.taken j t (hholder j t hj ht.holds) ht
      starting := fun j c' hj => h.starting j c' (hholder j _ hj (Option.some_ne_none _))
      alone := fun j t hj ht i t' hi hp =>
        h.alone j t (hholder j t hj ht.holds) ht i t' (hproxy i t' hi hp) hp }
  · obtain ⟨hlt, hp⟩ := h.handles i hi
    refine ⟨Nat.lt_succ_of_lt hlt, fun t ht => ?_⟩
    rcases State.add_cases ht with ⟨rfl, -⟩ | ⟨-, ht⟩
    · exact absurd hlt (Nat.lt_irrefl _)
    · exact hp t ht
  · refine (h.owned i t (hproxy i t hi hp) hp).imp id fun ⟨j, c', hj⟩ => ⟨j, c', ?_⟩
    exact (s.add_ne (Nat.ne_of_lt (h.fresh.lt hj)) _).trans hj

/-- What is aborted is a proxy task: no operation is lost. -/
theorem lifecycle_cancel (h : Lifecycle s) (hk : k ∈ s.shared.aborted)
    (hfresh : Fresh (s.remove k)) (hexclusive : Exclusive (s.remove k) .handle) :
    Lifecycle (s.remove k) where
  fresh := hfresh
  exclusive := hexclusive
  handles := fun i hi =>
    ⟨(h.handles i hi).1, fun t ht => (h.handles i hi).2 t (State.remove_some ht).2⟩
  owned := by
    intro i t hi hp
    refine (h.owned i t (State.remove_some hi).2 hp).imp id fun ⟨j, c, hj⟩ => ⟨j, c, ?_⟩
    -- an operation is no proxy, so it is not the one that is aborted
    have hjk : j ≠ k := by
      rintro rfl
      exact (h.handles j (.inr hk)).2 _ hj
    exact (s.remove_ne hjk).trans hj
  status := fun i t hi => h.status i t (State.remove_some hi).2
  taken := fun j t hj => h.taken j t (State.remove_some hj).2
  starting := fun j c hj => h.starting j c (State.remove_some hj).2
  alone := fun j t hj ht i t' hi => h.alone j t (State.remove_some hj).2 ht i t'
    (State.remove_some hi).2

/-- So every step keeps the invariant, whoever makes it. -/
theorem lifecycle_step {s' : State} {l : controller.Label} (h : Lifecycle s)
    (hstep : Step controller s l s') : Lifecycle s' := by
  have hfresh := fresh_step h.fresh hstep
  have hexclusive := exclusive_step disciplined_handle h.fresh h.exclusive hstep
  cases hstep with
  | call c => exact lifecycle_call h c hfresh hexclusive
  | act i task ch eff hi hgrant hact =>
    rcases act_cases hact with haside | hturn
    · exact lifecycle_aside h hi haside hfresh hexclusive
    · exact lifecycle_turn h hi hgrant hturn hfresh hexclusive
  | cancel i task hi haborted =>
    exact lifecycle_cancel h (List.contains_iff_mem.mp haborted) hfresh hexclusive

end Step

/-- And so it holds in every run of the controller, whatever its calls and tasks are and in
whatever order they go. -/
theorem lifecycle_run {config : ProxyConfig} {discoveryAddr : Option Net.SocketAddr} {s : State}
    {ls : List controller.Label}
    (h : Lts.Run (Step controller) (controller.start (Controller.new config discoveryAddr)) ls s) :
    Lifecycle s :=
  h.invariant (lifecycle_start config discoveryAddr) fun _ _ _ => lifecycle_step

/-- At most one proxy task is alive. -/
theorem Lifecycle.proxy_unique {s : State} (h : Lifecycle s) {i j : Nat} {t t' : Task}
    (hi : s.tasks i = some t) (ht : t.IsProxy) (hj : s.tasks j = some t') (ht' : t'.IsProxy) :
    i = j := by
  -- each has its handle kept, or a `stop` that waits for it, never both
  rcases h.owned i t hi ht with hown | ⟨m, c, hm⟩ <;>
    rcases h.owned j t' hj ht' with hown' | ⟨m', c', hm'⟩
  · exact Option.some.inj (hown.symm.trans hown')
  · have hnone := h.taken m' _ hm' trivial
    rw [hown] at hnone
    cases hnone
  · have hnone := h.taken m _ hm trivial
    rw [hown'] at hnone
    cases hnone
  · obtain rfl := h.exclusive m m' _ _ hm hm' (Option.some_ne_none _) (Option.some_ne_none _)
    rw [hm] at hm'
    cases hm'
    rfl

/-- An operation that has the handle's lock and finds no handle, or has waited
for the task it took, finds no proxy task alive. -/
theorem Lifecycle.no_proxy {s : State} (h : Lifecycle s) {k : Nat} {c : Call}
    (hgrant : s.granted k (Task.call c (.stop .lockHandle)) = true)
    (hhandle : s.shared.handle = none) : NoProxy s := by
  intro i t hi hp
  rcases h.owned i t hi hp with hown | ⟨j, c', hj⟩
  · rw [hhandle] at hown
    cases hown
  · have hheld : (Task.call c' (.stop (.join i))).holds .handle = none :=
      State.not_held_of_granted h.fresh hgrant rfl hj
    exact absurd hheld (Option.some_ne_none _)

end Controller

end Torpc
