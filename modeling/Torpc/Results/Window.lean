import Torpc.Results.ProbeVerdict
import Torpc.Results.Settings

/-!
# What the window starts has been tested

`startProxy` of the page asks for the configuration, tests its endpoint through
its Tor proxy, and only then invokes `start_proxy`, which starts whatever is
stored by then. So what the window starts runs with the configuration that has
passed the test, or with one that has been saved in between and that nobody has
tested. The tray starts without a test, and so does a save that finds the proxy
running and restarts it. A proxy comes in no other way (`started_tested`).
-/

namespace Torpc

open Effects Prog Lts

namespace Desktop

variable {x : Surroundings}

-- ---------------------------------------------------------------------------
-- What a history says
-- ---------------------------------------------------------------------------

/-- What a handler knows of the configuration that it has asked for. -/
structure Seen where
  config : Option ProxyConfig
  /-- its endpoint has passed the test -/
  passed : Bool
  /-- what has been stored since, the last one first -/
  stored : List ProxyConfig

/-- A test of these texts passes the configuration. -/
def Seen.tests (m : Seen) (onionEndpoint torProxy : List Char) : Bool :=
  m.config.any fun c =>
    (toPage c).onionEndpoint = onionEndpoint && (toPage c).torProxy = torProxy

/-- What handler `i` has learnt after one more label. -/
def Seen.read (i : Nat) (m : Seen) : Label → Seen
  | .unlocked (some j) .getConfig (.ok (.config c)) _ => if j = i then ⟨some c, false, []⟩ else m
  | .tested j onionEndpoint torProxy (.ok _) =>
    if j = i then { m with passed := m.tests onionEndpoint torProxy } else m
  | .inside l => { m with stored := l.stored.toList ++ m.stored }
  | _ => m

def seen (i : Nat) (ls : List Label) : Seen := ls.foldl (Seen.read i) ⟨none, false, []⟩

/-- Whoever has the mutex: what for, and which call he has made last. -/
structure InHand where
  owner : Option Nat
  command : Gui.Command
  call : Option Nat

def holding (held : Option InHand) : Label → Option InHand
  | .locked owner command => some ⟨owner, command, none⟩
  | .inside (.calls i _) => held.map fun h => { h with call := some i }
  | .unlocked _ _ _ _ => none
  | _ => held

def holder (ls : List Label) : Option InHand := ls.foldl holding none

/-- What a handler has seen after one more step is what it had seen before, with that step
read. -/
theorem seen_snoc (i : Nat) (ls : List Label) (l : Label) :
    seen i (ls ++ [l]) = (seen i ls).read i l := by
  rw [seen, List.foldl_append]
  rfl

/-- Who holds the proxy's mutex is read off the past, one step at a time. -/
theorem holder_snoc (ls : List Label) (l : Label) :
    holder (ls ++ [l]) = holding (holder ls) l := by
  rw [holder, List.foldl_append]
  rfl

/-- The handler has asked for a configuration and it has passed the test; `config` is
that one, or has been saved since. -/
def Tested (m : Seen) (config : ProxyConfig) : Prop :=
  ∃ c, m.config = some c ∧ m.passed = true ∧ (config = c ∨ config ∈ m.stored)

/-- What is stored after a history that has begun with `config`. -/
def storedBy (config : ProxyConfig) (ls : List Label) : ProxyConfig :=
  ls.foldl (fun c l => match l with
    | .inside l => l.stored.getD c
    | _ => c) config

/-- The last configuration stored is still the last one, unless the step stores another. -/
theorem storedBy_snoc (config : ProxyConfig) (ls : List Label) (l : Label) :
    storedBy config (ls ++ [l]) = match l with
      | .inside l => l.stored.getD (storedBy config ls)
      | _ => storedBy config ls := by
  rw [storedBy, List.foldl_append]
  rfl

/-- Call `i` has come to save these settings and has found the proxy running, at some moment
of the history. -/
def FoundRunning (x : Surroundings) (file : SettingsFile) (discoveryAddr : Option Net.SocketAddr)
    (ls : List Label) (i : Nat) (config : ProxyConfig) : Prop :=
  ∃ pre s post, ls = pre ++ post ∧ Run (Step x) (launch file discoveryAddr) pre s ∧
    s.gui.controller.tasks i = some (.call (.updateConfig config) .readStatus) ∧
    s.gui.controller.shared.status = .running

/-- Why task `i` starts a proxy after the history `ls`, when `config` is what is stored: it is
the call of the session that has the mutex. -/
inductive Cause (x : Surroundings) (file : SettingsFile) (discoveryAddr : Option Net.SocketAddr)
    (ls : List Label) (i : Nat) (config : ProxyConfig) : Prop where
  /-- somebody has chosen Start in the tray -/
  | tray (hsession : holder ls = some ⟨none, .trayStart, some i⟩)
  /-- a handler has tested what it has asked for, and goes on to the start -/
  | window (k : Nat) (hsession : holder ls = some ⟨some k, .startProxy, some i⟩)
      (htested : Tested (seen k ls) config)
  /-- a handler saves while a proxy runs -/
  | restart (k : Nat) (hsession : holder ls = some ⟨some k, .updateConfig config, some i⟩)
      (hrunning : FoundRunning x file discoveryAddr ls i config)

/-- A step of task `i` of the controller's has spawned task `j`. -/
def Label.Spawns (i j : Nat) (l : Label) : Prop := ∃ e, l = .inside (.task (.act i e (some j)))

/-- Task `j` has been spawned when `config` was what was stored, and there was a cause. -/
def Started (x : Surroundings) (file : SettingsFile) (discoveryAddr : Option Net.SocketAddr)
    (ls : List Label) (j : Nat) (config : ProxyConfig) : Prop :=
  ∃ pre l post i, ls = pre ++ l :: post ∧ l.Spawns i j ∧
    storedBy (launchConfig file) pre = config ∧ Cause x file discoveryAddr pre i config

section History

variable {file : SettingsFile} {discoveryAddr : Option Net.SocketAddr} {ls : List Label}
  {config : ProxyConfig}

/-- What has started a task stays its start. -/
theorem Started.append {j : Nat} (h : Started x file discoveryAddr ls j config)
    (ls' : List Label) : Started x file discoveryAddr (ls ++ ls') j config := by
  obtain ⟨pre, l, post, i, rfl, hl, hstored, hcause⟩ := h
  exact ⟨pre, l, post ++ ls', i, by rw [List.append_assoc, List.cons_append], hl, hstored, hcause⟩

/-- A call that has found the proxy running has found it running, whatever has happened
since. -/
theorem FoundRunning.append {i : Nat} (h : FoundRunning x file discoveryAddr ls i config)
    (ls' : List Label) : FoundRunning x file discoveryAddr (ls ++ ls') i config := by
  obtain ⟨pre, s, post, rfl, hrest⟩ := h
  exact ⟨pre, s, post ++ ls', List.append_assoc .., hrest⟩

end History

-- ---------------------------------------------------------------------------
-- A handler by itself
-- ---------------------------------------------------------------------------

/-- What a handler has got, as the page sees it: a configuration, and whether it has
passed. -/
abbrev PageSeen := Option SettingsForm.Config × Bool

def PageSeen.read (m : PageSeen) : Effects.Event PageOp PageOp.Res → PageSeen
  | ⟨.invoke .getConfig, .ok c⟩ => (some c, false)
  | ⟨.testConnection onionEndpoint torProxy, .ok _⟩ =>
    (m.1, m.1.any fun c => c.onionEndpoint = onionEndpoint && c.torProxy = torProxy)
  | _ => m

/-- `start_proxy` is invoked for what has passed. -/
def Careful (m : PageSeen) (o : PageOp) : Prop := o = .invoke .startProxy → m.2 = true

/-- The handler starts nothing that has not passed. -/
abbrev IsCareful (p : Page) (m : PageSeen) : Prop := p.Sat PageSeen.read Careful (fun _ _ => True) m

/-- A handler that asks for no start anywhere is careful with whatever it has seen so far.
-/
theorem careful_of_ops {p : Page} (h : p.Ops fun o => o ≠ .invoke .startProxy) (m : PageSeen) :
    IsCareful p m := by
  induction p generalizing m with
  | pure a => trivial
  | op o k ih => exact ⟨fun ho => absurd ho h.1, fun r => ih r (h.2 r) _⟩

/-- Anything but the start. -/
abbrev NoStart (p : Page) : Prop := p.Ops fun o => o ≠ .invoke .startProxy

/-- Showing a notice asks for no start. -/
theorem noStart_notify (n : Notice) : NoStart (notify n) := ⟨nofun, fun _ => trivial⟩

/-- Asking for the status and showing it asks for no start. -/
theorem noStart_updateStatus : NoStart updateStatus := by
  refine ⟨nofun, fun status => ?_⟩
  cases status with
  | error e => exact noStart_notify _
  | ok status =>
    refine ⟨nofun, fun config => ?_⟩
    cases config with
    | error e => exact noStart_notify _
    | ok config => exact noStart_notify _

/-- Telling the user that the start failed asks for no start. -/
theorem noStart_startFailed (error : String) : NoStart (startFailed error) :=
  ⟨nofun, fun _ => noStart_notify _⟩

/-- The second half of the start button's handler is careful, once a connection test has
passed for the configuration that the handler has read. -/
theorem careful_startVerified (c : Option SettingsForm.Config) :
    IsCareful startVerified (c, true) := by
  refine ⟨nofun, fun _ => ⟨nofun, fun _ => ⟨nofun, fun _ => ⟨fun _ => rfl, fun result => ?_⟩⟩⟩⟩
  refine careful_of_ops ?_ _
  cases result with
  | error e => exact noStart_startFailed e
  | ok u =>
    exact noStart_updateStatus.bind fun _ =>
      ⟨nofun, fun _ => ⟨nofun, fun _ => noStart_notify _⟩⟩

/-- Whatever it has known before, the handler asks and tests first. -/
theorem careful_startProxy (m : PageSeen) : IsCareful startProxy m := by
  refine ⟨nofun, fun config => ?_⟩
  cases config with
  | error e => exact careful_of_ops (noStart_startFailed e) _
  | ok c =>
    show IsCareful (if Text.trim SettingsForm.isSpace c.onionEndpoint = [] then _ else _)
      (some c, false)
    split
    · exact careful_of_ops (noStart_notify _) _
    · refine ⟨nofun, fun _ => ⟨nofun, fun _ => ⟨nofun, fun result => ?_⟩⟩⟩
      cases result with
      | error e =>
        refine careful_of_ops ?_ _
        exact ⟨nofun, fun _ => ⟨nofun, fun _ => noStart_notify _⟩⟩
      | ok text =>
        have hpassed : PageSeen.read (some c, false)
            ⟨.testConnection c.onionEndpoint c.torProxy, .ok text⟩ = (some c, true) := by
          simp [PageSeen.read]
        show IsCareful startVerified (PageSeen.read (some c, false)
          ⟨.testConnection c.onionEndpoint c.torProxy, .ok text⟩)
        rw [hpassed]
        exact careful_startVerified (some c)

/-- The handler that the page attaches to an event is careful from its first operation on.
-/
theorem careful_handler (parseIntText : List Char → List Char) (e : Event) (m : PageSeen) :
    IsCareful (e.handler parseIntText) m := by
  have hstatus := noStart_updateStatus
  cases e with
  | domContentLoaded =>
    refine careful_of_ops ?_ m
    have hload : NoStart loadConfig := by
      refine ⟨nofun, fun config => ?_⟩
      cases config with
      | error e => exact noStart_notify _
      | ok c => exact noStart_notify _
    exact hload.bind fun _ => hstatus
  | interval => exact careful_of_ops hstatus m
  | submit inputs =>
    refine careful_of_ops ?_ m
    show NoStart (saveConfig parseIntText inputs)
    unfold saveConfig
    split
    · exact noStart_notify _
    · exact ⟨nofun, fun _ => noStart_notify _⟩
  | startClick => exact careful_startProxy m
  | stopClick =>
    refine careful_of_ops ?_ m
    refine ⟨nofun, fun _ => ⟨nofun, fun result => ?_⟩⟩
    cases result with
    | error e => exact ⟨nofun, fun _ => noStart_notify _⟩
    | ok u => exact ⟨nofun, fun _ => noStart_notify _⟩

-- ---------------------------------------------------------------------------
-- All of them together
-- ---------------------------------------------------------------------------

/-- What the page makes of it. -/
def Seen.page (m : Seen) : PageSeen := (m.config.map toPage, m.passed)

/-- What the stored configuration is, for a handler that has asked. -/
def Seen.Current (m : Seen) (config : ProxyConfig) : Prop :=
  (m.passed = true → m.config ≠ none) ∧ ∀ c, m.config = some c → config = m.stored.head?.getD c

/-- What is known of a run of the application. -/
structure Honest (x : Surroundings) (file : SettingsFile) (discoveryAddr : Option Net.SocketAddr)
    (ls : List Label) (s : State) : Prop where
  run : Run (Step x) (launch file discoveryAddr) ls s
  sound : Sound s
  fetched : Gui.Fetched s.gui
  holder : ∀ session, s.gui.session = some session → ∃ call,
    holder ls = some ⟨s.owner, session.command, call⟩ ∧
      ∀ i, session.waiting = some i → call = some i
  careful : ∀ i p, s.handlers i = some p → IsCareful p (seen i ls).page
  current : ∀ i, (seen i ls).Current s.gui.controller.shared.config
  stored : s.gui.controller.shared.config = storedBy (launchConfig file) ls
  restarting : ∀ i config pc, s.gui.controller.tasks i = some (.call (.updateConfig config) pc) →
    Gui.Restarting pc → FoundRunning x file discoveryAddr ls i config
  started : ∀ j config pc, s.gui.controller.tasks j = some (.proxy config pc) →
    Started x file discoveryAddr ls j config

/-- At launch nothing has happened yet: no handler and no session, no proxy, and the
configuration is the one that the file gives. -/
theorem honest_launch (file : SettingsFile) (discoveryAddr : Option Net.SocketAddr) :
    Honest x file discoveryAddr [] (launch file discoveryAddr) where
  run := .nil _
  sound := sound_launch file discoveryAddr
  fetched := nofun
  holder := nofun
  careful := nofun
  current := fun _ => ⟨nofun, nofun⟩
  stored := rfl
  restarting := nofun
  started := nofun

section Step

variable {file : SettingsFile} {discoveryAddr : Option Net.SocketAddr} {s s' : State} {l : Label}
  {ls : List Label}

/-- The history tells who has the mutex, for which command, and by which call: whoever has last
taken it, until he lets go. -/
theorem Honest.holder_step (h : Honest x file discoveryAddr ls s) (hstep : Step x s l s')
    (session : Gui.Session) (hsession : s'.gui.session = some session) : ∃ call,
    Desktop.holder (ls ++ [l]) = some ⟨s'.owner, session.command, call⟩ ∧
      ∀ i, session.waiting = some i → call = some i := by
  rw [holder_snoc]
  obtain ⟨g, owner, file', handlers, next⟩ := s
  cases hstep with
  | event | notify | refuse | test | ended => exact h.holder session hsession
  | lock | tray =>
    cases hsession
    exact ⟨none, rfl, nofun⟩
  | answer | trayDone => cases hsession
  | inside l gui hl hinside =>
    cases hinside with
    | lock | unlock => exact hl.elim
    | calls controller command c k =>
      obtain ⟨call, hcall, -⟩ := h.holder _ rfl
      cases hsession
      exact ⟨some controller.next, by rw [hcall]; rfl, fun _ hi => hi⟩
    | answered controller controller' command c k i answer spawned r hr hmachine =>
      obtain ⟨call, hcall, -⟩ := h.holder _ rfl
      cases hsession
      exact ⟨call, hcall, nofun⟩
    | task => exact h.holder session hsession

/-- An answer is news to the handler that has asked for the configuration alone. -/
theorem read_unlocked (m : Seen) (i : Nat) (owner : Option Nat) (command : Gui.Command)
    (result : Except String Controller.Answer) (write : Option Write) :
    m.read i (.unlocked owner command result write) = m ∨
      (owner = some i ∧ command = .getConfig ∧ ∃ c, result = .ok (.config c) ∧
        m.read i (.unlocked owner command result write) = ⟨some c, false, []⟩) := by
  cases owner with
  | none => exact .inl rfl
  | some j =>
    by_cases hj : j = i
    · subst hj
      cases command with
      | getConfig =>
        cases result with
        | error e => exact .inl rfl
        | ok answer =>
          cases answer with
          | config c => exact .inr ⟨rfl, rfl, c, rfl, if_pos rfl⟩
          | _ => exact .inl rfl
      | _ => exact .inl rfl
    · refine .inl ?_
      unfold Seen.read
      split
      · next h => cases h; exact if_neg hj
      · next h => cases h
      · next h => cases h
      · rfl

/-- What a handler learns from its own answer. -/
theorem page_read_answer {r : Request} {command : Gui.Command} (hr : r.command = some command)
    {result : Except String Controller.Answer} {value : Except String r.Res}
    (hvalue : r.result result = some value) (m : Seen) (i : Nat) (write : Option Write) :
    (m.read i (.unlocked (some i) command result write)).page =
      m.page.read ⟨.invoke r, value⟩ := by
  cases r with
  | getConfig =>
    obtain rfl := Option.some.inj hr
    cases result with
    | error e =>
      obtain rfl := Option.some.inj hvalue
      rfl
    | ok answer =>
      obtain ⟨c, hc, rfl⟩ := Option.map_eq_some_iff.mp hvalue
      cases answer with
      | config config =>
        obtain rfl := Option.some.inj hc
        show (if i = i then (⟨some config, false, []⟩ : Seen) else m).page = _
        rw [if_pos rfl]
        rfl
      | _ => cases hc
  | updateConfig page =>
    obtain ⟨config, -, rfl⟩ := Option.map_eq_some_iff.mp hr
    rfl
  | _ =>
    obtain rfl := Option.some.inj hr
    rfl

/-- A handler learns from its own connection test whether it has passed. -/
theorem page_read_tested (m : Seen) (i : Nat) (onionEndpoint torProxy : List Char)
    (result : Except String String) :
    (m.read i (.tested i onionEndpoint torProxy result)).page =
      m.page.read ⟨.testConnection onionEndpoint torProxy, result⟩ := by
  cases result with
  | error e => rfl
  | ok text =>
    show (if i = i then { m with passed := m.tests onionEndpoint torProxy } else m).page = _
    rw [if_pos rfl]
    obtain ⟨config, passed, stored⟩ := m
    cases config <;> rfl

/-- The result of another handler's connection test tells a handler nothing. -/
theorem read_tested_ne {i j : Nat} (hij : j ≠ i) (m : Seen) (onionEndpoint torProxy : List Char)
    (result : Except String String) :
    m.read i (.tested j onionEndpoint torProxy result) = m := by
  cases result with
  | error e => rfl
  | ok text => exact if_neg hij

/-- The handlers after one of them has gone on. -/
theorem goesOn_cases {i j : Nat} {p q : Page} (h : (s.goesOn j q).handlers i = some p) :
    (i = j ∧ p = q) ∨ (i ≠ j ∧ s.handlers i = some p) := by
  have h : Function.update s.handlers j (some q) i = some p := h
  by_cases hij : i = j
  · subst hij
    rw [Function.update_self] at h
    exact .inl ⟨rfl, (Option.some.inj h).symm⟩
  · rw [Function.update_of_ne hij] at h
    exact .inr ⟨hij, h⟩

/-- A handler stays careful over any step: its own steps go on in its program, and those of
others change neither what it has seen nor what it has left. -/
theorem Honest.careful_step (h : Honest x file discoveryAddr ls s) (hstep : Step x s l s')
    (i : Nat) (p : Page) (hp : s'.handlers i = some p) : IsCareful p (seen i (ls ++ [l])).page := by
  rw [seen_snoc]
  cases hstep with
  | event e =>
    have hp : Function.update s.handlers s.next (some (e.handler x.parseIntText)) i = some p := hp
    by_cases hi : i = s.next
    · subst hi
      rw [Function.update_self] at hp
      obtain rfl := Option.some.inj hp
      exact careful_handler _ e _
    · rw [Function.update_of_ne hi] at hp
      exact h.careful i p hp
  | notify j n k hj =>
    rcases goesOn_cases hp with ⟨rfl, rfl⟩ | ⟨-, hp⟩
    · exact (h.careful i _ hj).2 ()
    · exact h.careful i p hp
  | refuse j r k message hj hr =>
    rcases goesOn_cases hp with ⟨rfl, rfl⟩ | ⟨-, hp⟩
    · have hrest := (h.careful i _ hj).2 (.error message)
      cases r <;> exact hrest
    · exact h.careful i p hp
  | test j onionEndpoint torProxy k net hnet hj =>
    rcases goesOn_cases hp with ⟨rfl, rfl⟩ | ⟨hij, hp⟩
    · rw [page_read_tested]
      exact (h.careful i _ hj).2 _
    · rw [read_tested_ne (Ne.symm hij)]
      exact h.careful i p hp
  | lock | tray | trayDone => exact h.careful i p hp
  | inside l gui hl hinside => exact h.careful i p hp
  | answer j r k command result value write file howner hj hsession hvalue hfile =>
    rcases goesOn_cases hp with ⟨rfl, rfl⟩ | ⟨hij, hp⟩
    · obtain ⟨r', k', hj', hr'⟩ := h.sound.page _ _ _ i hsession howner
      obtain rfl : r = r' := by
        rw [hj] at hj'
        cases hj'
        rfl
      rw [page_read_answer hr' hvalue]
      exact (h.careful i _ hj).2 value
    · rcases read_unlocked (seen i ls) i (some j) command result write with hsame | ⟨hown, -⟩
      · rw [hsame]
        exact h.careful i p hp
      · exact absurd (Option.some.inj hown).symm hij
  | ended j hj =>
    have hp : Function.update s.handlers j none i = some p := hp
    by_cases hij : i = j
    · subst hij
      rw [Function.update_self] at hp
      cases hp
    · rw [Function.update_of_ne hij] at hp
      exact h.careful i p hp

/-- The configuration that a handler has read is the one in force, as long as nobody has
stored another since. -/
theorem Honest.current_step (h : Honest x file discoveryAddr ls s) (hstep : Step x s l s')
    (i : Nat) : (seen i (ls ++ [l])).Current s'.gui.controller.shared.config := by
  rw [seen_snoc]
  have hcurrent := h.current i
  cases hstep with
  | event | notify | refuse | lock | tray | trayDone | ended => exact hcurrent
  | test j onionEndpoint torProxy k net hnet hj =>
    by_cases hij : j = i
    · subst hij
      generalize testConnection net (String.ofList onionEndpoint) (String.ofList torProxy) = result
      cases result with
      | error e => exact hcurrent
      | ok text =>
        show (if j = j then { seen j ls with passed := (seen j ls).tests onionEndpoint torProxy }
          else seen j ls).Current _
        rw [if_pos rfl]
        refine ⟨fun hpassed hnone => ?_, hcurrent.2⟩
        have hnone : (seen j ls).config = none := hnone
        have hpassed : (seen j ls).tests onionEndpoint torProxy = true := hpassed
        rw [Seen.tests, hnone] at hpassed
        cases hpassed
    · rw [read_tested_ne hij]
      exact hcurrent
  | inside l gui hl hinside =>
    refine ⟨hcurrent.1, fun c hc => ?_⟩
    show gui.controller.shared.config = (l.stored.toList ++ (seen i ls).stored).head?.getD c
    rw [Gui.config_stored hinside, hcurrent.2 c hc]
    cases l.stored <;> rfl
  | answer j r k command result value write file howner hj hsession hvalue hfile =>
    rcases read_unlocked (seen i ls) i (some j) command result write with
      hsame | ⟨-, rfl, c, rfl, hnew⟩
    · rw [hsame]
      exact hcurrent
    · rw [hnew]
      refine ⟨nofun, ?_⟩
      rintro _ ⟨⟩
      -- the answer is what is stored
      rcases h.fetched _ _ hsession with hrest | hrest
      · cases hrest
      · cases hrest
        rfl

/-- The configuration in force is the last one stored, or the one of the launch. -/
theorem Honest.stored_step (h : Honest x file discoveryAddr ls s) (hstep : Step x s l s') :
    s'.gui.controller.shared.config = storedBy (launchConfig file) (ls ++ [l]) := by
  rw [storedBy_snoc]
  cases hstep with
  | inside l gui hl hinside =>
    show gui.controller.shared.config = l.stored.getD (storedBy (launchConfig file) ls)
    rw [Gui.config_stored hinside, h.stored]
  | _ => exact h.stored

/-- Only a step of the GUI's tasks changes them. -/
theorem tasks_step (hstep : Step x s l s') :
    s'.gui.controller.tasks = s.gui.controller.tasks ∨
      ∃ l', l = .inside l' ∧ Gui.Step s.gui l' s'.gui := by
  cases hstep with
  | inside l gui hl hinside => exact .inr ⟨l, rfl, hinside⟩
  | _ => exact .inl rfl

/-- An update that is on its way to a restart has found the proxy running at some moment of
the past, when it looked at the status. -/
theorem Honest.restarting_step (h : Honest x file discoveryAddr ls s) (hstep : Step x s l s')
    {i : Nat} {config : ProxyConfig} {pc : Controller.CallPc}
    (hi : s'.gui.controller.tasks i = some (.call (.updateConfig config) pc))
    (hpc : Gui.Restarting pc) : FoundRunning x file discoveryAddr (ls ++ [l]) i config := by
  rcases tasks_step hstep with hsame | ⟨l', rfl, hinside⟩
  · rw [hsame] at hi
    exact (h.restarting i config pc hi hpc).append [l]
  · obtain ⟨pc', hi', hbefore | ⟨rfl, hrunning⟩⟩ := Gui.restarting_origin hinside hi hpc
    · exact (h.restarting i config pc' hi' hbefore).append _
    · exact ⟨ls, s, _, rfl, h.run, hi', hrunning⟩

/-- What a handler that goes on to `start_proxy` starts has passed its test, or has been
stored since. -/
theorem Honest.tested (h : Honest x file discoveryAddr ls s) {i : Nat}
    {k : Except String Unit → Page} (hi : s.handlers i = some (.op (.invoke .startProxy) k)) :
    Tested (seen i ls) s.gui.controller.shared.config := by
  obtain ⟨hpassed, -⟩ := h.careful i _ hi
  have hpassed : (seen i ls).passed = true := hpassed rfl
  obtain ⟨hsome, hcurrent⟩ := h.current i
  obtain ⟨c, hc⟩ := Option.ne_none_iff_exists'.mp (hsome hpassed)
  refine ⟨c, hc, hpassed, ?_⟩
  rw [hcurrent c hc]
  cases (seen i ls).stored with
  | nil => exact .inl rfl
  | cons c' stored => exact .inr List.mem_cons_self

/-- The session in which a proxy is spawned has its cause. -/
theorem Honest.cause (h : Honest x file discoveryAddr ls s) {i : Nat}
    (horders : Gui.Orders s.gui i s.gui.controller.shared.config) :
    Cause x file discoveryAddr ls i s.gui.controller.shared.config := by
  obtain ⟨command, rest, hsession, hmay⟩ := horders
  obtain ⟨call, hholder, hcall⟩ := h.holder _ hsession
  obtain rfl := hcall i rfl
  cases howner : s.owner with
  | none =>
    rw [howner] at hholder
    rcases h.sound.tray _ _ _ hsession howner with rfl | rfl | rfl
    · exact .tray hholder
    · rcases hmay with hmay | ⟨heq, -⟩
      · cases hmay
      · cases heq
    · rcases hmay with hmay | ⟨heq, -⟩
      · cases hmay
      · cases heq
  | some k =>
    rw [howner] at hholder
    rcases hmay with hmay | ⟨rfl, hi⟩
    · obtain ⟨r, next, hk, hr⟩ := h.sound.page _ _ _ k hsession howner
      -- the page invokes nothing else that starts a proxy
      cases r with
      | startProxy =>
        obtain rfl := Option.some.inj hr
        exact .window k hholder (h.tested hk)
      | updateConfig page =>
        obtain ⟨config', -, heq⟩ := Option.map_eq_some_iff.mp hr
        rw [← heq] at hmay
        cases hmay
      | getStatus | stopProxy | getConfig =>
        obtain rfl := Option.some.inj hr
        cases hmay
    · exact .restart k hholder (h.restarting i _ _ hi trivial)

/-- Behind every proxy task there is a session that has spawned it, with one of the three
causes: the tray, a passed test in the window, or a proxy that was found running. -/
theorem Honest.started_step (h : Honest x file discoveryAddr ls s) (hstep : Step x s l s')
    {j : Nat} {config : ProxyConfig} {pc : Controller.ProxyPc}
    (hj : s'.gui.controller.tasks j = some (.proxy config pc)) :
    Started x file discoveryAddr (ls ++ [l]) j config := by
  rcases tasks_step hstep with hsame | ⟨l', rfl, hinside⟩
  · rw [hsame] at hj
    exact (h.started j config pc hj).append [l]
  rcases h.sound.gui.spawned hinside hj with ⟨pc', hj'⟩ | ⟨rfl, i, e, rfl, horders⟩
  · exact (h.started j config pc' hj').append _
  · exact ⟨ls, _, [], i, rfl, ⟨e, rfl⟩, h.stored.symm, h.cause horders⟩

/-- One step of the desktop keeps the whole account of who started what. -/
theorem honest_step (h : Honest x file discoveryAddr ls s) (hstep : Step x s l s') :
    Honest x file discoveryAddr (ls ++ [l]) s' where
  run := h.run.snoc hstep
  sound := sound_step h.sound hstep
  fetched := by
    rcases step_gui hstep with hsame | ⟨l', hl', -⟩
    · rw [hsame]
      exact h.fetched
    · exact Gui.fetched_step h.sound.gui h.fetched hl'
  holder := h.holder_step hstep
  careful := h.careful_step hstep
  current := h.current_step hstep
  stored := h.stored_step hstep
  restarting := fun _ _ _ => h.restarting_step hstep
  started := fun _ _ _ => h.started_step hstep

end Step

/-- The account of who started what holds after every run from a launch. -/
theorem honest_run {file : SettingsFile} {discoveryAddr : Option Net.SocketAddr}
    {ls : List Label} {s : State} (h : Run (Step x) (launch file discoveryAddr) ls s) :
    Honest x file discoveryAddr ls s := by
  induction h with
  | nil => exact honest_launch file discoveryAddr
  | snoc _ hstep ih => exact honest_step ih hstep

/-- **What the window starts has been tested**, or has been saved since its handler asked. Every
proxy task has been spawned in a step of the history, with what was stored then: by the
tray's start, by a start of the window's after its test, or by a save that has found the
proxy running. -/
theorem started_tested {file : SettingsFile} {discoveryAddr : Option Net.SocketAddr}
    {ls : List Label} {s : State} (h : Run (Step x) (launch file discoveryAddr) ls s) {j : Nat}
    {config : ProxyConfig} {pc : Controller.ProxyPc}
    (hj : s.gui.controller.tasks j = some (.proxy config pc)) :
    Started x file discoveryAddr ls j config :=
  (honest_run h).started j config pc hj

-- ---------------------------------------------------------------------------
-- A save between the test and the start
-- ---------------------------------------------------------------------------

/-- A network in which a daemon answers as the test wants it. -/
def helpful : Surroundings := ⟨fun digits => digits, fun net => net = delivers daemonReply⟩

/-- The settings of a former session. -/
def formerFile : SettingsFile := .table (Torpc.saveConfig Controller.endpointA)

/-- The daemon's own answer to the probe passes the connection test, when the network
delivers it. -/
theorem passes_daemonReply : testConnection (delivers daemonReply)
    (String.ofList (toPage Controller.endpointA).onionEndpoint)
    (String.ofList (toPage Controller.endpointA).torProxy) =
      .ok "Connection successful: reached a TorPC daemon and got a valid JSON-RPC reply." := by
  have htor : String.ofList (toPage Controller.endpointA).torProxy = "127.0.0.1:9050" := by decide
  rw [htor, testConnection_delivers]
  decide +kernel

/-- The step of a task that has the lock it waits for. -/
theorem perform_ready {s s' : Controller.State} {i : Nat} {e : Controller.Event}
    {spawned : Option Nat}
    (h : Tasks.Machine.perform s (.act i Controller.Choice.ready) =
      some (.act i e spawned, s')) : Tasks.Machine.Step controller s (.act i e spawned) s' :=
  Tasks.Machine.step_of_perform h

/-- The window starts what has been saved while it tested something else. -/
theorem started_tested_saved : ∃ (ls : List Label) (s : State),
    Run (Step helpful) (launch formerFile none) ls s ∧
      s.gui.controller.tasks 4 = some (.proxy (resaved otherHost) .spawned) ∧
      (∀ i torProxy result,
        .tested i (toPage (resaved otherHost)).onionEndpoint torProxy result ∉ ls) ∧
      Started helpful formerFile none ls 4 (resaved otherHost) := by
  have hlaunch : launch formerFile none =
      ⟨Gui.start Controller.endpointA none, none, formerFile, fun _ => none, 0⟩ := by
    rw [launch, formerFile, launchConfig_saveConfig ⟨rfl, rfl⟩]
  -- the click: the page asks for the configuration and tests it
  have hasked : Run (Step helpful)
      ⟨Gui.start Controller.endpointA none, none, formerFile, fun _ => none, 0⟩ _ _ :=
    ((((Run.nil _).snoc (.event _ .startClick)).snoc
      (.lock _ 0 .getConfig _ .getConfig rfl rfl rfl)).snoc
      (.inside _ _ _ (by exact trivial) (.calls _ _ .getConfig _))).snoc
      (.inside _ _ _ (by exact trivial) (.answered _ _ _ .getConfig _ 0
        (.config Controller.endpointA) none Controller.endpointA rfl (perform_ready rfl)))
  have hasked := hasked.snoc
    (.answer _ 0 .getConfig _ .getConfig _ _ _ _ rfl rfl rfl rfl (.other _ _ nofun))
  have htested := ((hasked.snoc (.notify _ 0 _ _ rfl)).snoc (.notify _ 0 _ _ rfl)).snoc
    (.test _ 0 _ _ _ (delivers daemonReply) rfl rfl)
  rw [passes_daemonReply] at htested
  -- the form is saved
  have hclicked := htested.snoc (submit_step
    (saveConfig_loaded (fun _ => rfl) acceptable_otherHost) _)
  have hwritten : Written otherHost := ⟨rfl, rfl⟩
  have hcommand := updateConfig_command (written_resaved hwritten)
  have hsaved := ((((hclicked.snoc (.lock _ 1 _ _ _ rfl hcommand rfl)).snoc
    (.inside _ _ _ (by exact trivial) (.calls _ _ (.updateConfig (resaved otherHost)) _))).snoc
    (.inside _ _ _ (by exact trivial)
      (.task _ _ _ (.act 1 Controller.Event.progress none) trivial (perform_ready rfl)))).snoc
    (.inside _ _ _ (by exact trivial)
      (.task _ _ _ (.act 1 (Controller.Event.stored (resaved otherHost)) none) trivial
        (perform_ready rfl)))).snoc
    (.inside _ _ _ (by exact trivial) (.answered _ _ _ (.updateConfig (resaved otherHost)) _ 1
      .unit none () rfl (perform_ready rfl)))
  have hsaved := hsaved.snoc
    (.answer _ 1 _ _ _ _ (.ok ()) _ _ rfl rfl rfl rfl (.update _ _ .saved))
  -- the test has passed, and the page goes on to the start
  have hstarting := (((((hsaved.snoc (.notify _ 0 _ _ rfl)).snoc (.notify _ 0 _ _ rfl)).snoc
    (.notify _ 0 _ _ rfl)).snoc
    (.lock _ 0 .startProxy _ .startProxy rfl rfl rfl)).snoc
    (.inside _ _ _ (by exact trivial) (.calls _ _ .getConfig _))).snoc
    (.inside _ _ _ (by exact trivial) (.answered _ _ _ .getConfig _ 2
      (.config (resaved otherHost)) none (resaved otherHost) rfl (perform_ready rfl)))
  have hstarted := (((hstarting.snoc
    (.inside _ _ _ (by exact trivial) (.calls _ _ .start _))).snoc
    (.inside _ _ _ (by exact trivial)
      (.task _ _ _ (.act 3 Controller.Event.progress none) trivial (perform_ready rfl)))).snoc
    (.inside _ _ _ (by exact trivial)
      (.task _ _ _ (.act 3 Controller.Event.progress none) trivial (perform_ready rfl)))).snoc
    (.inside _ _ _ (by exact trivial) (.answered _ _ _ .start _ 3 .unit (some 4) () rfl
      (perform_ready rfl)))
  have hother : (toPage (resaved otherHost)).onionEndpoint ≠
      (toPage Controller.endpointA).onionEndpoint := by
    decide +kernel
  obtain ⟨ls, s, hrun, hproxy, huntested⟩ : ∃ ls s,
      Run (Step helpful) (launch formerFile none) ls s ∧
        s.gui.controller.tasks 4 = some (.proxy (resaved otherHost) .spawned) ∧
        ∀ i torProxy result,
          .tested i (toPage (resaved otherHost)).onionEndpoint torProxy result ∉ ls := by
    rw [hlaunch]
    refine ⟨_, _, hstarted, rfl, fun i torProxy result hmem => ?_⟩
    simp only [List.mem_append, List.mem_singleton, List.not_mem_nil, reduceCtorEq, false_or,
      or_false, Label.tested.injEq] at hmem
    exact hother hmem.2.1
  exact ⟨ls, s, hrun, hproxy, huntested, started_tested hrun hproxy⟩

end Desktop

end Torpc
