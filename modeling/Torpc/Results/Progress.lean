import Torpc.Lib.Budget
import Torpc.Lib.Liveness
import Torpc.Lib.Queues
import Torpc.Results.Sessions

/-!
# The mutex is let go of

`start` and `stop` can block each other for ever when both are under way. Under
the GUI's mutex only one call is, and it always gets on: it holds what nobody but
a call asks for, in the queue of the status at most one proxy is before it, and a
`stop` waits for a task that it has told to end. So whoever has the mutex comes
to its end (`mutex_released`), if only

* a task that has its turn at a lock, or has nothing to wait for, runs on, and
* a task that is aborted is dropped at some time.

Nothing is asked of the outside: a proxy may wait for a connection for ever, and
a bind may take as long as it likes.
-/

namespace Torpc

open Effects Tasks

namespace Controller

open Machine

variable {s : Shared} {tasks : Nat → Option Task} {next : Nat} {c : Call} {pc : CallPc}
  {eff : Effect}

/-- Where a call can be. -/
def Fits : Call → CallPc → Prop
  | .start, .start _ => True
  | .stop, .stop _ => True
  | .updateConfig _, pc => pc ≠ .readConfig
  | .isRunning, .readStatus => True
  | .getStatus, .readStatus => True
  | .getConfig, .readConfig => True
  | _, _ => False

/-- A call is entered at a point of its own program. -/
theorem fits_enter (c : Call) : ∃ pc, enter c = .call c pc ∧ Fits c pc := by
  cases c with
  | updateConfig newConfig => exact ⟨_, rfl, nofun⟩
  | _ => exact ⟨_, rfl, trivial⟩

/-- A call that may start a proxy may be at any point of the start. -/
theorem Fits.start {pc pc' : StartPc} (h : Fits c (.start pc)) : Fits c (.start pc') := by
  cases c with
  | start => trivial
  | updateConfig newConfig => exact nofun
  | _ => exact h.elim

/-- A call that may stop the proxy may be at any point of the stop. -/
theorem Fits.stop {pc pc' : StopPc} (h : Fits c (.stop pc)) : Fits c (.stop pc') := by
  cases c with
  | stop => trivial
  | updateConfig newConfig => exact nofun
  | _ => exact h.elim

/-- The steps that are left of a call, at most. -/
def CallPc.stepsLeft : CallPc → Nat
  | .finish | .readConfig | .start .readConfig => 1
  | .start .lockHandle => 2
  | .start .lockStatus => 3
  | .writeConfig _ => 4
  | .stop .setStopped => 5
  | .stop (.join _) => 6
  | .stop .lockHandle => 7
  | .stop .lockStatus => 8
  | .readStatus => 9

/-- From any point a call has between one and nine steps left. -/
theorem CallPc.stepsLeft_bounds (pc : CallPc) : 1 ≤ pc.stepsLeft ∧ pc.stepsLeft ≤ 9 := by
  unfold CallPc.stepsLeft
  split <;> omega

/-- A step of a call: it goes on and has fewer left, or it returns an answer to what
has been called. -/
def Advances (c : Call) (pc : CallPc) (eff : Effect) : Prop :=
  (∃ pc', eff.task = some (.call c pc') ∧ Fits c pc' ∧ pc'.stepsLeft < pc.stepsLeft ∧
    ∀ answer, eff.event ≠ .returned answer) ∨
  ∃ answer r, eff.task = none ∧ eff.event = .returned answer ∧ answer.toRes c = some r

/-- Going on to a point with fewer steps left is an advance. -/
theorem advances_goto {s' : Shared} {pc' : CallPc} (hfits : Fits c pc')
    (hless : pc'.stepsLeft < pc.stepsLeft) : Advances c pc (goto s' c pc') :=
  .inl ⟨pc', rfl, hfits, hless, nofun⟩

/-- Returning is one, for a call that starts or stops a proxy. -/
theorem advances_unit (h : (∃ pc, Fits c (.start pc)) ∨ ∃ pc, Fits c (.stop pc)) {s' : Shared}
    {spawned : Option Task} : Advances c pc ⟨s', none, spawned, .returned .unit⟩ := by
  refine .inr ⟨.unit, ?_⟩
  cases c with
  | start | stop | updateConfig => exact ⟨(), rfl, rfl, rfl⟩
  | _ => rcases h with ⟨pc', h⟩ | ⟨pc', h⟩ <;> exact h.elim

/-- So is the end of a stop, which an update goes on from with its start. -/
theorem advances_stopDone {s' : Shared} {stopPc : StopPc} (hfits : Fits c (.stop stopPc))
    (hpc : 4 < pc.stepsLeft) : Advances c pc (stopDone s' c) := by
  cases c with
  | updateConfig newConfig => exact advances_goto nofun hpc
  | _ => exact advances_unit (.inr ⟨stopPc, hfits⟩)

/-- Every step of a call brings it nearer to its end: by induction on nothing but the points
of the source, since none of them goes back. -/
theorem call_advances (h : CallStep s tasks next c pc eff) (hfits : Fits c pc) :
    Advances c pc eff := by
  cases h with
  | startLock | starting => exact advances_goto hfits.start (by decide)
  | refused => exact advances_unit (.inl ⟨_, hfits⟩)
  | spawn => exact advances_unit (.inl ⟨_, hfits⟩)
  | stopLock => exact advances_goto hfits.stop (by decide)
  | take _ hd => exact advances_goto hfits.stop (by simp [CallPc.stepsLeft])
  | joined _ hd => exact advances_goto hfits.stop (by simp [CallPc.stepsLeft])
  | noHandle => exact advances_stopDone hfits (by decide)
  | stopped => exact advances_stopDone hfits (by decide)
  | restart | noRestart => exact advances_goto nofun (by decide)
  | store newConfig restart =>
    refine .inl ⟨_, rfl, ?_, ?_, nofun⟩
    · cases restart <;> exact nofun
    · cases restart <;> simp [CallPc.stepsLeft]
  | finish => exact .inr ⟨.unit, (), rfl, rfl, rfl⟩
  | isRunning => exact .inr ⟨_, _, rfl, rfl, rfl⟩
  | getStatus => exact .inr ⟨_, _, rfl, rfl, rfl⟩
  | getConfig => exact .inr ⟨_, _, rfl, rfl, rfl⟩

/-- A call that does not wait for a task can go on. -/
theorem act_of_fits (hfits : Fits c pc) (hjoin : ∀ h, pc = .stop (.join h) → tasks h = none) :
    ∃ eff, act s tasks next (.call c pc) .ready = some eff := by
  cases pc with
  | start pc => exact ⟨_, rfl⟩
  | stop pc =>
    cases pc with
    | join h =>
      refine ⟨goto s c (.stop .setStopped), ?_⟩
      show stopStep s tasks c (.join h) = _
      rw [stopStep, hjoin h rfl]
      rfl
    | lockHandle =>
      cases hhandle : s.handle with
      | none => exact ⟨stopDone s c, by simp [act, callStep, stopStep, hhandle]⟩
      | some h => exact ⟨_, by simp [act, callStep, stopStep, hhandle]; rfl⟩
    | _ => exact ⟨_, rfl⟩
  | readStatus => cases c <;> first | exact ⟨_, rfl⟩ | exact hfits.elim
  | readConfig => cases c <;> first | exact ⟨_, rfl⟩ | exact hfits.elim | exact absurd rfl hfits
  | writeConfig restart => cases c <;> first | exact ⟨_, rfl⟩ | exact hfits.elim
  | finish => cases c <;> first | exact ⟨_, rfl⟩ | exact hfits.elim

/-- Once told to stop, told for good. -/
theorem act_aborted {t : Task} {ch : Choice} (h : act s tasks next t ch = some eff) {i : Nat}
    (hi : i ∈ s.aborted) : i ∈ eff.shared.aborted := by
  rcases act_cases h with haside | hturn
  · rw [haside.aborted]
    exact hi
  · cases hturn with
    | starting | spawn | joined => exact hi
    | take => exact List.mem_cons_of_mem _ hi
    | stopped =>
      rw [(stopDone_spec _ _).1]
      exact hi

/-- A `stop` waits for a task that has been told to stop. -/
def Joins (s : State) : Prop :=
  ∀ i c h, s.tasks i = some (.call c (.stop (.join h))) → h ∈ s.shared.aborted

/-- Whoever waits for a task has told it to stop, and that stays so. -/
theorem joins_step {s s' : State} {l : controller.Label} (h : Joins s)
    (hstep : Step controller s l s') : Joins s' := by
  intro i c hd hi
  cases hstep with
  | call c' =>
    rcases State.add_cases hi with ⟨-, hnew⟩ | ⟨-, hi⟩
    · obtain ⟨pc, henter, -⟩ := fits_enter c'
      cases c' <;> cases hnew
    · exact h i c hd hi
  | act k t ch eff hk hgrant hact =>
    obtain ⟨pc, hi', ⟨-, rfl⟩ | ⟨rfl, rfl, htask⟩⟩ := Gui.call_kept hk hact hi
    · exact act_aborted hact (h i c hd hi')
    · have hcall := act_call hact
      cases hcall with
      | take _ h' hhandle =>
        cases htask
        exact List.mem_cons_self
      | noHandle | stopped => cases c <;> cases htask
      | store _ restart => cases restart <;> cases htask
      | _ => cases htask
  | cancel k t hk haborted => exact h i c hd (State.remove_some hi).2

/-- Besides calls, only proxies wait for a lock, and only for the status. -/
theorem proxy_of_awaits {t : Task} {lock : Lock} {mode : Mode} (h : t.awaits = some (lock, mode))
    (hcall : ∀ c pc, t ≠ .call c pc) :
    t.IsProxy ∧ ∀ (s : Shared) tasks next, ∃ ch eff, act s tasks next t ch = some eff ∧
      eff.event = .progress := by
  cases t with
  | call c pc => exact absurd rfl (hcall c pc)
  | proxy config pc =>
    refine ⟨trivial, fun s tasks next => ?_⟩
    cases pc with
    | setRunning =>
      cases hdiscovery : s.discoveryAddr with
      | none =>
        refine ⟨.ready,
          ⟨{ s with status := .running }, some (.proxy config .bind), none, .progress⟩, ?_, rfl⟩
        simp only [act, proxyStep, hdiscovery]
      | some addr =>
        refine ⟨.token "" false, ⟨{ s with status := .running }, some (.proxy config .bind),
          some (.discovery addr config "" false), .progress⟩, ?_, rfl⟩
        simp [act, proxyStep, hdiscovery]
    | setError message => exact ⟨.ready, _, rfl, rfl⟩
    | _ => cases h
  | _ => cases h

/-- A call does not hold what it waits for. -/
theorem holds_of_awaits {lock : Lock} {mode : Mode}
    (h : (Task.call c pc).awaits = some (lock, mode)) : (Task.call c pc).holds lock = none := by
  cases pc with
  | start pc => cases pc <;> cases h <;> rfl
  | stop pc => cases pc <;> cases h <;> rfl
  | _ => rfl

end Controller

namespace Gui

open Controller Machine Lts

-- ---------------------------------------------------------------------------
-- Where a command stands
-- ---------------------------------------------------------------------------

/-- No command makes more than two calls. -/
theorem Command.program_short (command : Command) : command.program.AtMost (fun _ => true) 2 := by
  cases command with
  | startProxy =>
    refine Prog.atMost_op fun config => ?_
    show (if isBlank config.onionEndpoint then _ else _ : Program).AtMost _ 1
    split
    · trivial
    · exact Prog.atMost_op fun _ => trivial
  | _ => exact Prog.atMost_op fun _ => trivial

/-- The answers to a command. -/
def Command.Answers (command : Command) : Except String Answer → Prop
  | .error _ => True
  | .ok answer =>
    match command, answer with
    | .getStatus, .status _ => True
    | .getConfig, .config _ => True
    | .getStatus, _ | .getConfig, _ => False
    | _, .unit => True
    | _, _ => False

/-- A command's program ends with an answer of the kind that the command gives. -/
theorem Command.program_yields (command : Command) : command.program.Yields command.Answers := by
  cases command with
  | startProxy =>
    intro config
    show (if isBlank config.onionEndpoint then _ else _ : Program).Yields _
    split
    · trivial
    · exact fun _ => trivial
  | _ => exact fun _ => trivial

structure Live (s : State) : Prop where
  settled : Settled s
  life : Lifecycle s.controller
  queued : Queued s.controller
  joins : Joins s.controller
  short : ∀ command rest waiting, s.session = some ⟨command, rest, waiting⟩ →
    rest.AtMost (fun _ => true) 2
  yields : ∀ command rest waiting, s.session = some ⟨command, rest, waiting⟩ →
    rest.Yields command.Answers
  /-- the call that the session waits for is under way -/
  waits : ∀ command rest i, s.session = some ⟨command, rest, some i⟩ →
    ∃ c k pc, rest = .op c k ∧ s.controller.tasks i = some (.call c pc) ∧ Fits c pc

/-- At launch there is no session that could wait. -/
theorem live_start (config : ProxyConfig) (discoveryAddr : Option Net.SocketAddr) :
    Live (start config discoveryAddr) where
  settled := settled_start config discoveryAddr
  life := lifecycle_start config discoveryAddr
  queued := queued_start _
  joins := nofun
  short := nofun
  yields := nofun
  waits := nofun

/-- What a step is to the controller. -/
theorem step_controller {s s' : State} {l : Label} (h : Step s l s') :
    s'.controller = s.controller ∨
      ∃ l', Machine.Step controller s.controller l' s'.controller := by
  cases h with
  | lock | unlock => exact .inl rfl
  | calls s command c k => exact .inr ⟨_, .call s c⟩
  | answered s s' command c k i answer spawned r hr h => exact .inr ⟨_, h⟩
  | task s s' session l haside h => exact .inr ⟨_, h⟩

/-- The call that the session waits for goes on until it returns. -/
theorem Live.waits_task {s s' : Controller.State} {session : Option Session}
    (h : Live ⟨s, session⟩) {l : controller.Label} (haside : Aside session l)
    (hstep : Machine.Step controller s l s') (command : Command) (rest : Program) (i : Nat)
    (hsession : session = some ⟨command, rest, some i⟩) :
    ∃ c k pc, rest = .op c k ∧ s'.tasks i = some (.call c pc) ∧ Fits c pc := by
  obtain ⟨c, k, pc, rfl, hi, hfits⟩ := h.waits command rest i hsession
  have hi : s.tasks i = some (.call c pc) := hi
  have hlt : i < s.next := h.settled.fresh.lt hi
  cases hstep with
  | call => exact haside.elim
  | act j t ch eff hj hgrant hact =>
    by_cases hij : i = j
    · subst hij
      obtain rfl := Option.some.inj (hi.symm.trans hj)
      rcases call_advances (act_call hact) hfits with
        ⟨pc', htask, hfits', -⟩ | ⟨answer, -, -, he, -⟩
      · exact ⟨c, k, pc', rfl, (s.apply_self i eff).trans htask, hfits'⟩
      · rw [he] at haside
        exact absurd rfl (haside _ hsession)
    · exact ⟨c, k, pc, rfl, by rw [s.apply_ne hij (Nat.ne_of_lt hlt), hi], hfits⟩
  | cancel j t hj haborted =>
    by_cases hij : i = j
    · subst hij
      have hproxy := (h.life.handles i (.inr (List.contains_iff_mem.mp haborted))).2 _ hi
      exact hproxy.elim
    · exact ⟨c, k, pc, rfl, by rw [s.remove_ne hij, hi], hfits⟩

/-- Every step keeps what the progress of a session rests on. -/
theorem live_step {s s' : State} {l : Label} (h : Live s) (hstep : Step s l s') : Live s' := by
  have hsettled := settled_step h.settled hstep
  have hlife : Lifecycle s'.controller ∧ Queued s'.controller ∧ Joins s'.controller := by
    rcases step_controller hstep with heq | ⟨l', hmachine⟩
    · rw [heq]
      exact ⟨h.life, h.queued, h.joins⟩
    · exact ⟨lifecycle_step h.life hmachine, queued_step h.queued h.settled.fresh hmachine,
        joins_step h.joins hmachine⟩
  refine ⟨hsettled, hlife.1, hlife.2.1, hlife.2.2, ?_, ?_, ?_⟩
  · cases hstep with
    | lock s command =>
      rintro _ _ _ ⟨⟩
      exact command.program_short
    | unlock => nofun
    | calls s command c k =>
      rintro _ _ _ ⟨⟩
      exact h.short _ _ _ rfl
    | answered s s' command c k i answer spawned r =>
      rintro _ _ _ ⟨⟩
      exact ((h.short _ _ _ rfl).2 r).mono (by omega)
    | task => exact h.short
  · cases hstep with
    | lock s command =>
      rintro _ _ _ ⟨⟩
      exact command.program_yields
    | unlock => nofun
    | calls s command c k =>
      rintro _ _ _ ⟨⟩
      exact h.yields _ _ _ rfl
    | answered s s' command c k i answer spawned r =>
      rintro _ _ _ ⟨⟩
      exact h.yields _ _ _ rfl r
    | task => exact h.yields
  · cases hstep with
    | lock | unlock | answered => nofun
    | calls s command c k =>
      rintro _ _ _ ⟨⟩
      obtain ⟨pc, henter, hfits⟩ := fits_enter c
      exact ⟨c, k, pc, rfl, by rw [← henter]; exact s.add_next _, hfits⟩
    | task s s' session l haside hmachine => exact h.waits_task haside hmachine

-- ---------------------------------------------------------------------------
-- Who has to do something
-- ---------------------------------------------------------------------------

inductive Duty where
  /-- the command goes on to its next call or lets go of the mutex -/
  | session
  /-- the task takes its turn -/
  | task (i : Nat)
  /-- the task is dropped -/
  | cancel (i : Nat)

/-- A task that depends on nobody outside: a call, or one that waits for a lock. -/
def Prompt (t : Task) : Prop := (∃ c pc, t = .call c pc) ∨ t.awaits ≠ none

def duties : Duty → State → Label → Prop
  | .session, _, .calls _ _ => True
  | .session, _, .unlocked _ => True
  | .task i, s, .task (.act j _ _) => j = i ∧ ∃ t, s.controller.tasks i = some t ∧ Prompt t
  | .cancel i, _, .task (.cancel j) => j = i
  | _, _, _ => False

/-- Nothing is in the way of a call. -/
structure Unblocked (s : Controller.State) (i : Nat) (c : Call) (pc : CallPc) : Prop where
  next : ∀ lock mode, (Task.call c pc).awaits = some (lock, mode) → s.Next i lock mode
  joined : ∀ h, pc = .stop (.join h) → s.tasks h = none

/-- The duty that brings `command` on, and how many there are left, at most. -/
inductive Owes (command : Command) (s : State) : Nat → Duty → Prop where
  | unlock (result : Except String Answer)
      (hsession : s.session = some ⟨command, .pure result, none⟩) : Owes command s 0 .session
  | call (c : Call) (k : c.Res → Program) (n : Nat)
      (hsession : s.session = some ⟨command, .op c k, none⟩)
      (hk : ∀ r, (k r).AtMost (fun _ => true) n) : Owes command s (20 * (n + 1)) .session
  | turn (c : Call) (k : c.Res → Program) (n i : Nat) (pc : CallPc)
      (hsession : s.session = some ⟨command, .op c k, some i⟩)
      (hk : ∀ r, (k r).AtMost (fun _ => true) n) (hi : s.controller.tasks i = some (.call c pc))
      (hfree : Unblocked s.controller i c pc) : Owes command s (20 * n + 2 * pc.stepsLeft) (.task i)
  | behind (c : Call) (k : c.Res → Program) (n i : Nat) (pc : CallPc) (lock : Lock) (mode : Mode)
      (j : Nat) (mode' : Mode) (hsession : s.session = some ⟨command, .op c k, some i⟩)
      (hk : ∀ r, (k r).AtMost (fun _ => true) n) (hi : s.controller.tasks i = some (.call c pc))
      (hawaits : (Task.call c pc).awaits = some (lock, mode))
      (hbefore : s.controller.before i lock = [(j, mode')]) :
      Owes command s (20 * n + 2 * pc.stepsLeft + 1) (.task j)
  | join (c : Call) (k : c.Res → Program) (n i h : Nat)
      (hsession : s.session = some ⟨command, .op c k, some i⟩)
      (hk : ∀ r, (k r).AtMost (fun _ => true) n)
      (hi : s.controller.tasks i = some (.call c (.stop (.join h))))
      (halive : s.controller.tasks h ≠ none) : Owes command s (20 * n + 13) (.cancel h)

section Waiting

variable {s : State} {i : Nat} {c : Call} {pc : CallPc}

/-- Nobody holds the lock that the session's call waits for. -/
theorem Live.free (h : Live s) (hi : s.controller.tasks i = some (.call c pc)) {lock : Lock}
    {mode : Mode} (hawaits : (Task.call c pc).awaits = some (lock, mode)) (mode' : Mode) :
    s.controller.free lock mode' = true := by
  refine State.free_of_not_held fun j t hj => ?_
  by_cases hcall : t.IsCall
  · obtain ⟨c', pc', rfl⟩ : ∃ c' pc', t = .call c' pc' := by
      cases t <;> first | exact ⟨_, _, rfl⟩ | exact hcall.elim
    obtain rfl := h.settled.call_unique hi hj
    cases hi.symm.trans hj
    exact holds_of_awaits hawaits
  · exact holds_of_not_call hcall lock

/-- Whoever else waits for it is a proxy. -/
theorem Live.other (h : Live s) (hi : s.controller.tasks i = some (.call c pc)) {j : Nat} {t : Task}
    (hj : s.controller.tasks j = some t) (hji : j ≠ i) (c' : Call) (pc' : CallPc) :
    t ≠ .call c' pc' := by
  rintro rfl
  exact hji (h.settled.call_unique hj hi)

/-- A call that nothing is in the way of gets the lock that it asks for next. -/
theorem Live.granted (h : Live s) (hi : s.controller.tasks i = some (.call c pc))
    (hfree : Unblocked s.controller i c pc) : s.controller.granted i (.call c pc) = true := by
  cases hawaits : (Task.call c pc).awaits with
  | none =>
    unfold State.granted
    rw [show controller.awaits (.call c pc) = none from hawaits]
  | some w =>
    obtain ⟨lock, mode⟩ := w
    exact (h.queued.granted_iff hi hawaits).mpr
      ⟨hfree.next lock mode hawaits, h.free hi hawaits mode⟩

/-- At most one is before a call in the queue of any lock, since there is one session at a
time. -/
theorem Live.before_le_one (h : Live s) (hi : s.controller.tasks i = some (.call c pc))
    (lock : Lock) : (s.controller.before i lock).length ≤ 1 := by
  refine h.queued.before_le_one fun j j' t t' mode mode' hj hj' hawaits hawaits' hne hne' => ?_
  have hproxy := (proxy_of_awaits hawaits (h.other hi hj hne)).1
  have hproxy' := (proxy_of_awaits hawaits' (h.other hi hj' hne')).1
  exact h.life.proxy_unique hj hproxy hj' hproxy'

end Waiting

variable {command : Command} {s s' : State} {i n : Nat} {d : Duty}

/-- Where a call waits, somebody has a duty. -/
theorem Live.owes_waiting (h : Live s) {c : Call} {k : c.Res → Program} {pc : CallPc}
    (hsession : s.session = some ⟨command, .op c k, some i⟩)
    (hk : ∀ r, (k r).AtMost (fun _ => true) n) (hi : s.controller.tasks i = some (.call c pc)) :
    ∃ d b, b ≤ 1 ∧ Owes command s (20 * n + 2 * pc.stepsLeft + b) d := by
  have hturn : Unblocked s.controller i c pc →
      ∃ d b, b ≤ 1 ∧ Owes command s (20 * n + 2 * pc.stepsLeft + b) d :=
    fun hfree => ⟨_, 0, Nat.zero_le _, .turn c k n i pc hsession hk hi hfree⟩
  cases hawaits : (Task.call c pc).awaits with
  | some w =>
    obtain ⟨lock, mode⟩ := w
    have hjoin : ∀ hd, pc ≠ .stop (.join hd) := by
      rintro hd rfl
      cases hawaits
    match hbefore : s.controller.before i lock with
    | [] =>
      refine hturn ⟨fun lock' mode' heq waiter hmem => ?_, fun hd heq => absurd heq (hjoin hd)⟩
      obtain ⟨rfl, rfl⟩ := Prod.mk.inj (Option.some.inj (hawaits.symm.trans heq))
      rw [hbefore] at hmem
      cases hmem
    | [(j, mode')] =>
      exact ⟨_, 1, Nat.le_refl _,
        .behind c k n i pc lock mode j mode' hsession hk hi hawaits hbefore⟩
    | _ :: _ :: _ =>
      have hle := h.before_le_one hi lock
      rw [hbefore] at hle
      exact absurd hle (by simp)
  | none =>
    by_cases hjoin : ∃ hd, pc = .stop (.join hd) ∧ s.controller.tasks hd ≠ none
    · obtain ⟨hd, rfl, halive⟩ := hjoin
      exact ⟨_, 1, Nat.le_refl _, .join c k n i hd hsession hk hi halive⟩
    · refine hturn ⟨fun lock mode heq => ?_, fun hd heq => ?_⟩
      · cases hawaits.symm.trans heq
      · by_contra halive
        exact hjoin ⟨hd, heq, halive⟩

/-- Where it waits for nobody, the command has. -/
theorem owes_idle {rest : Program} (hsession : s.session = some ⟨command, rest, none⟩)
    (hrest : rest.AtMost (fun _ => true) n) : ∃ m, m ≤ 20 * n ∧ Owes command s m .session := by
  cases rest with
  | pure result => exact ⟨0, Nat.zero_le _, .unlock result hsession⟩
  | op c k =>
    obtain ⟨hcost, hk⟩ := hrest
    have hcost : 1 ≤ n := hcost
    refine ⟨20 * ((n - 1) + 1), by omega, .call c k (n - 1) hsession hk⟩

/-- So somebody always has, while the command has the mutex. -/
theorem Live.owes (h : Live s) {session : Session} (hsession : s.session = some session) :
    ∃ n d, Owes session.command s n d := by
  obtain ⟨command, rest, waiting⟩ := session
  have hshort := h.short command rest waiting hsession
  cases waiting with
  | none =>
    obtain ⟨m, -, howes⟩ := owes_idle hsession hshort
    exact ⟨m, _, howes⟩
  | some i =>
    obtain ⟨c, k, pc, rfl, hi, -⟩ := h.waits command rest i hsession
    obtain ⟨d, b, -, howes⟩ := h.owes_waiting hsession hshort.2 hi
    exact ⟨_, d, howes⟩

-- ---------------------------------------------------------------------------
-- Who has to can
-- ---------------------------------------------------------------------------

/-- A step of a task by which nothing returns is no step of the session. -/
theorem aside_act {session : Option Session} {e : Event} {spawned : Option Nat}
    (h : ∀ answer, e ≠ .returned answer) : Aside session (.act i e spawned) := by
  cases e with
  | returned answer => exact absurd rfl (h answer)
  | _ => trivial

/-- Whoever owes the next step of the command can take it. -/
theorem Live.due (h : Live s) (howes : Owes command s n d) : Due Step (duties d) s := by
  obtain ⟨ctrl, session⟩ := s
  cases howes with
  | unlock result hsession =>
    cases hsession
    exact ⟨.unlocked result, _, trivial, .unlock ctrl command result⟩
  | call c k n hsession =>
    cases hsession
    exact ⟨.calls ctrl.next c, _, trivial, .calls ctrl command c k⟩
  | turn c k n i pc hsession hk hi hfree =>
    obtain ⟨c', k', pc', hrest, hi', hfits⟩ := h.waits _ _ i hsession
    cases hi.symm.trans hi'
    obtain ⟨eff, hact⟩ := act_of_fits hfits hfree.joined
    have hmachine := Machine.Step.act ctrl i _ .ready eff hi (h.granted hi hfree) hact
    have hduty : duties (.task i) ⟨ctrl, session⟩
        (.task (.act i eff.event (eff.spawned.map fun _ => ctrl.next))) :=
      ⟨rfl, _, hi, .inl ⟨c, pc, rfl⟩⟩
    rcases call_advances (act_call hact) hfits with ⟨-, -, -, -, he⟩ | ⟨answer, r, -, he, hr⟩
    · exact ⟨_, _, hduty, .task ctrl _ session _ (aside_act he) hmachine⟩
    · cases hsession
      rw [he] at hmachine hduty
      exact ⟨_, _, hduty, .answered ctrl _ command c k i answer _ r hr hmachine⟩
  | behind c k n i pc lock mode j mode' hsession hk hi hawaits hbefore =>
    obtain ⟨hji, t, hj, hawaits'⟩ := h.queued.of_mem_before (hbefore ▸ List.mem_cons_self)
    obtain ⟨-, hcan⟩ := proxy_of_awaits hawaits' (h.other hi hj hji)
    obtain ⟨ch, eff, hact, he⟩ := hcan ctrl.shared ctrl.tasks ctrl.next
    have hgranted : ctrl.granted j t = true :=
      (h.queued.granted_iff hj hawaits').mpr
        ⟨State.next_of_first hbefore, h.free hi hawaits mode'⟩
    have hprompt : Prompt t := .inr fun hnone => by cases hawaits'.symm.trans hnone
    have hmachine := Machine.Step.act ctrl j t ch eff hj hgranted hact
    have hduty : duties (.task j) ⟨ctrl, session⟩
        (.task (.act j eff.event (eff.spawned.map fun _ => ctrl.next))) := ⟨rfl, t, hj, hprompt⟩
    have haside : Aside session (.act j eff.event (eff.spawned.map fun _ => ctrl.next)) := by
      rw [he]
      trivial
    exact ⟨_, _, hduty, .task ctrl _ session _ haside hmachine⟩
  | join c k n i hd hsession hk hi halive =>
    obtain ⟨t, ht⟩ := Option.ne_none_iff_exists'.mp halive
    have haborted : ctrl.shared.aborted.contains hd = true :=
      List.contains_iff_mem.mpr (h.joins i c hd hi)
    exact ⟨.task (.cancel hd), _, rfl,
      .task ctrl _ session (.cancel hd) trivial (.cancel ctrl hd t ht haborted)⟩

-- ---------------------------------------------------------------------------
-- What is owed gets less
-- ---------------------------------------------------------------------------

/-- There is a session in hand as long as somebody owes it a step. -/
theorem Owes.session (h : Owes command s n d) :
    ∃ rest waiting, s.session = some ⟨command, rest, waiting⟩ := by
  cases h with
  | unlock _ hsession => exact ⟨_, _, hsession⟩
  | call _ _ _ hsession => exact ⟨_, _, hsession⟩
  | turn _ _ _ _ _ hsession => exact ⟨_, _, hsession⟩
  | behind _ _ _ _ _ _ _ _ _ hsession => exact ⟨_, _, hsession⟩
  | join _ _ _ _ _ hsession => exact ⟨_, _, hsession⟩

/-- What is owed before a call, and while it is under way. -/
theorem Owes.calling (h : Owes command s n d) {c : Call} {k : c.Res → Program}
    (hsession : s.session = some ⟨command, .op c k, none⟩) :
    ∃ m, n = 20 * (m + 1) ∧ ∀ r, (k r).AtMost (fun _ => true) m := by
  cases h with
  | call c' k' m hsession' hk =>
    cases hsession.symm.trans hsession'
    exact ⟨m, rfl, hk⟩
  | unlock _ hsession' | turn _ _ _ _ _ hsession' | behind _ _ _ _ _ _ _ _ _ hsession'
  | join _ _ _ _ _ hsession' => cases hsession.symm.trans hsession'

/-- While the session waits for a call, that call is under way, and it has at most as many
steps left as the rank allows for. -/
theorem Owes.waiting (h : Owes command s n d) {c : Call} {k : c.Res → Program}
    (hsession : s.session = some ⟨command, .op c k, some i⟩) :
    ∃ m pc, s.controller.tasks i = some (.call c pc) ∧ (∀ r, (k r).AtMost (fun _ => true) m) ∧
      20 * m + 2 * pc.stepsLeft ≤ n := by
  cases h with
  | unlock _ hsession' | call _ _ _ hsession' => cases hsession.symm.trans hsession'
  | turn _ _ m _ pc hsession' hk hi =>
    cases hsession.symm.trans hsession'
    exact ⟨m, pc, hi, hk, Nat.le_refl _⟩
  | behind _ _ m _ pc _ _ _ _ hsession' hk hi =>
    cases hsession.symm.trans hsession'
    exact ⟨m, pc, hi, hk, Nat.le_succ _⟩
  | join _ _ m _ hd hsession' hk hi =>
    cases hsession.symm.trans hsession'
    exact ⟨m, _, hi, hk, Nat.le_succ _⟩

/-- A call that goes on has fewer steps left. -/
theorem Live.call_less {ctrl ctrl' : Controller.State} {session : Option Session}
    (h : Live ⟨ctrl, session⟩) {l : controller.Label}
    (hmachine : Machine.Step controller ctrl l ctrl') {a : Nat} (ha : l.actor = some a)
    {c : Call} {pc pc' : CallPc} (hi : ctrl.tasks a = some (.call c pc))
    (hi' : ctrl'.tasks a = some (.call c pc')) : pc'.stepsLeft < pc.stepsLeft := by
  obtain ⟨command, rest, hsession⟩ := h.settled.serial a c pc hi
  obtain ⟨c₀, k₀, pc₀, -, hi₀, hfits⟩ := h.waits command _ a hsession
  cases hi.symm.trans hi₀
  cases hmachine with
  | call => cases ha
  | act j t ch eff hj hgrant hact =>
    obtain rfl : j = a := Option.some.inj ha
    cases hi.symm.trans hj
    rw [ctrl.apply_self] at hi'
    rcases call_advances (act_call hact) hfits with ⟨pc'', htask, -, hless, -⟩ | ⟨-, -, hnone, -⟩
    · cases htask.symm.trans hi'
      exact hless
    · cases hnone.symm.trans hi'
  | cancel j t hj haborted =>
    obtain rfl : j = a := Option.some.inj ha
    cases (if_pos rfl : (ctrl.remove j).tasks j = none).symm.trans hi'

/-- The command lets go of the mutex. -/
def Released (command : Command) (s : State) (l : Label) : Prop :=
  ∃ result, s.session = some ⟨command, .pure result, none⟩ ∧ l = .unlocked result

/-- One of the tasks that the session does not wait for makes a step. -/
theorem Live.step_other {ctrl ctrl' : Controller.State} {session : Option Session}
    (h : Live ⟨ctrl, session⟩) (h' : Live ⟨ctrl', session⟩) {l : controller.Label}
    (hmachine : Machine.Step controller ctrl l ctrl') {a : Nat} (ha : l.actor = some a)
    (hother : ∀ x, session = some x → x.waiting ≠ some a)
    (howes : Owes command ⟨ctrl, session⟩ n d) :
    (∃ m e, m < n ∧ Owes command ⟨ctrl', session⟩ m e) ∨
      (Owes command ⟨ctrl', session⟩ n d ∧ ¬ duties d ⟨ctrl, session⟩ (.task l)) := by
  have hkept : ∀ {i c pc}, ctrl.tasks i = some (.call c pc) → i ≠ a →
      ctrl'.tasks i = some (.call c pc) := by
    intro i c pc hi hia
    rw [tasks_step hmachine ha (h.settled.fresh.lt hi) hia, hi]
  have hnotDuty : ∀ i, i ≠ a → ¬ duties (.task i) ⟨ctrl, session⟩ (.task l) := by
    intro i hia hduty
    cases l with
    | act j e spawned =>
      obtain rfl : j = a := Option.some.inj ha
      exact hia hduty.1.symm
    | call | cancel => exact hduty
  cases howes with
  | unlock result hsession => exact .inr ⟨.unlock result hsession, id⟩
  | call c k n hsession hk => exact .inr ⟨.call c k n hsession hk, id⟩
  | turn c k n i pc hsession hk hi hfree =>
    have hia : i ≠ a := fun heq => hother _ hsession (congrArg some heq)
    refine .inr ⟨.turn c k n i pc hsession hk (hkept hi hia) ⟨?_, ?_⟩, hnotDuty i hia⟩
    · intro lock mode hawaits waiter hmem
      rw [before_step hmachine ha (h.queued.listed i _ lock mode hi hawaits) hia] at hmem
      exact hfree.next lock mode hawaits waiter (List.mem_of_mem_filter hmem)
    · intro hd heq
      have hdead := hfree.joined hd heq
      subst heq
      have hlt : hd < ctrl.next := (h.life.handles hd (.inr (h.joins i c hd hi))).1
      have hda : hd ≠ a := by
        rintro rfl
        obtain ⟨t, ht⟩ := actor_step hmachine ha
        rw [hdead] at ht
        cases ht
      rw [tasks_step hmachine ha hlt hda, hdead]
  | behind c k n i pc lock mode j mode' hsession hk hi hawaits hbefore =>
    have hia : i ≠ a := fun heq => hother _ hsession (congrArg some heq)
    have hbefore' := before_step hmachine ha (h.queued.listed i _ lock mode hi hawaits) hia
    rw [hbefore] at hbefore'
    by_cases hja : j = a
    · -- it was the one before, and is so no more
      subst hja
      rw [List.filter_cons_of_neg (by simp), List.filter_nil] at hbefore'
      refine .inl ⟨_, _, Nat.lt_succ_self _, .turn c k n i pc hsession hk (hkept hi hia) ⟨?_, ?_⟩⟩
      · intro lock' mode'' heq waiter hmem
        obtain ⟨rfl, rfl⟩ := Prod.mk.inj (Option.some.inj (hawaits.symm.trans heq))
        rw [hbefore'] at hmem
        cases hmem
      · rintro hd rfl
        cases hawaits
    · rw [List.filter_cons_of_pos (by simp [hja]), List.filter_nil] at hbefore'
      exact .inr ⟨.behind c k n i pc lock mode j mode' hsession hk (hkept hi hia) hawaits hbefore',
        hnotDuty j hja⟩
  | join c k n i hd hsession hk hi halive =>
    have hia : i ≠ a := fun heq => hother _ hsession (congrArg some heq)
    by_cases halive' : ctrl'.tasks hd = none
    · refine .inl ⟨20 * n + 2 * CallPc.stepsLeft (.stop (.join hd)), _, Nat.lt_succ_self _,
        .turn c k n i _ hsession hk (hkept hi hia) ⟨nofun, fun hd' heq => ?_⟩⟩
      cases heq
      exact halive'
    · refine .inr ⟨.join c k n i hd hsession hk (hkept hi hia) halive', fun hduty => halive' ?_⟩
      cases hmachine with
      | cancel j t hj haborted =>
        obtain rfl : j = hd := hduty
        exact if_pos rfl
      | call | act => exact hduty.elim

/-- A step of the command's, of the task that it waits for, or of another one. -/
theorem Live.rank_step {l : Label} (h : Live s) (howes : Owes command s n d)
    (hstep : Step s l s') :
    Released command s l ∨ (∃ m e, m < n ∧ Owes command s' m e) ∨
      (Owes command s' n d ∧ ¬ duties d s l) := by
  have h' := live_step h hstep
  obtain ⟨rest, waiting, hsession⟩ := howes.session
  cases hstep with
  | lock => cases hsession
  | unlock ctrl command' result =>
    cases hsession
    exact .inl ⟨result, rfl, rfl⟩
  | calls ctrl command' c k =>
    cases hsession
    refine .inr (.inl ?_)
    obtain ⟨c', k', pc, hrest, hi, -⟩ := h'.waits _ _ _ rfl
    cases hrest
    obtain ⟨m, rfl, hk⟩ := howes.calling rfl
    obtain ⟨e, b, hb, howes'⟩ := h'.owes_waiting rfl hk hi
    have hle := pc.stepsLeft_bounds.2
    exact ⟨_, e, by omega, howes'⟩
  | answered ctrl ctrl' command' c k i answer spawned r hr hmachine =>
    cases hsession
    obtain ⟨m, pc, -, hk, hle⟩ := howes.waiting rfl
    obtain ⟨m', hm', howes'⟩ := owes_idle (s := ⟨ctrl', some ⟨command, k r, none⟩⟩) rfl (hk r)
    have hpos := pc.stepsLeft_bounds.1
    exact .inr (.inl ⟨m', _, by omega, howes'⟩)
  | task ctrl ctrl' session l haside hmachine =>
    obtain rfl : session = some ⟨command, rest, waiting⟩ := hsession
    cases hactor : l.actor with
    | none => cases l <;> first | exact haside.elim | cases hactor
    | some a =>
      by_cases hown : waiting = some a
      · subst hown
        refine .inr (.inl ?_)
        obtain ⟨c, k, pc', rfl, hi', -⟩ := h'.waits _ _ a rfl
        obtain ⟨m, pc, hi, hk, hle⟩ := howes.waiting rfl
        have hless := h.call_less hmachine hactor hi hi'
        obtain ⟨e, b, hb, howes'⟩ := h'.owes_waiting rfl hk hi'
        exact ⟨_, e, by omega, howes'⟩
      · refine .inr (h.step_other h' hmachine hactor (fun x hx => ?_) howes)
        cases hx
        exact hown

/-- **The mutex is let go of.** Whoever has it makes its calls and comes to its end, where
the guard is dropped; the tray's `Quit` ends the process there, with the mutex in its hands. -/
theorem mutex_released {config : ProxyConfig} {discoveryAddr : Option Net.SocketAddr}
    {x : Behaviour Step} (hstart : x.state 0 = start config discoveryAddr)
    (hfair : ∀ d, x.WeakFair (duties d)) {n : Nat} {session : Session}
    (hsession : (x.state n).session = some session) :
    ∃ m, n ≤ m ∧ x.Takes (Released session.command) m := by
  have hlive : ∀ n, Live (x.state n) :=
    x.invariant (by rw [hstart]; exact live_start config discoveryAddr) fun _ _ _ => live_step
  have hranking : Ranking Step duties (Released session.command) Live
      fun n d s => Owes session.command s n d :=
    ⟨fun _ _ _ h => h.due, fun _ _ _ _ _ h => h.rank_step⟩
  obtain ⟨k, d, howes⟩ := (hlive n).owes hsession
  exact hranking.reached hfair (fun m _ => hlive m) howes

-- ---------------------------------------------------------------------------
-- A start and a stop
-- ---------------------------------------------------------------------------

/-- Without commands and tasks there is nothing to do. -/
theorem not_due_of_idle (hsession : s.session = none) (htasks : ∀ i, s.controller.tasks i = none)
    (d : Duty) : ¬ Due Step (duties d) s := by
  rintro ⟨l, s', hduty, hstep⟩
  cases hstep with
  | lock => cases d <;> exact hduty
  | calls | answered | unlock => cases hsession
  | task ctrl ctrl' session l haside hmachine =>
    cases hactor : l.actor with
    | none => cases l <;> first | exact haside.elim | cases hactor
    | some a =>
      obtain ⟨t, ht⟩ := actor_step hmachine hactor
      cases (htasks a).symm.trans ht

/-- The tray stops the proxy that it has started. -/
theorem mutex_released_tray : ∃ (x : Behaviour Step) (n m : Nat),
    x.state 0 = start endpointA none ∧ (∀ d, x.WeakFair (duties d)) ∧
      x.label n = some (.locked .trayStop) ∧ n ≤ m ∧ x.Takes (Released .trayStop) m := by
  have hstarted : Run Step (start endpointA none) _ _ :=
    ((((((Run.nil _).snoc (.lock _ .trayStart)).snoc (.calls _ _ .start _)).snoc
      (.task _ _ _ (.act 0 Event.progress none) trivial
        (step_of_perform (a := .act 0 Choice.ready) rfl))).snoc
      (.task _ _ _ (.act 0 Event.progress none) trivial
        (step_of_perform (a := .act 0 Choice.ready) rfl))).snoc
      (.answered _ _ _ .start _ 0 .unit (some 1) () rfl
        (step_of_perform (a := .act 0 Choice.ready) rfl))).snoc (.unlock _ _ _)
  have hstopping := (((hstarted.snoc (.lock _ .trayStop)).snoc (.calls _ _ .stop _)).snoc
    (.task _ _ _ (.act 2 Event.progress none) trivial
      (step_of_perform (a := .act 2 Choice.ready) rfl))).snoc
    (.task _ _ _ (.act 2 Event.progress none) trivial
      (step_of_perform (a := .act 2 Choice.ready) rfl))
  have hstopped := (((hstopping.snoc
    (.task _ _ _ (.cancel 1) trivial (step_of_perform (a := .cancel 1) rfl))).snoc
    (.task _ _ _ (.act 2 Event.progress none) trivial
      (step_of_perform (a := .act 2 Choice.ready) rfl))).snoc
    (.answered _ _ _ .stop _ 2 .unit none () rfl
      (step_of_perform (a := .act 2 Choice.ready) rfl))).snoc (.unlock _ _ _)
  obtain ⟨ls, s, hrun, hstop, hidle, htasks⟩ : ∃ ls s, Run Step (start endpointA none) ls s ∧
      ls[6]? = some (.locked .trayStop) ∧ s.session = none ∧
        ∀ i, s.controller.tasks i = none := by
    have hlive := hstopped.invariant (live_start _ _) fun _ _ _ => live_step
    refine ⟨_, _, hstopped, rfl, rfl, fun i => ?_⟩
    match i with
    | 0 | 1 | 2 => rfl
    | i + 3 => exact hlive.settled.fresh _ (Nat.le_add_left 3 i)
  obtain ⟨x, hstart, hlabel, hrest⟩ := exists_behaviour hrun
  have hfair : ∀ d, x.WeakFair (duties d) := fun d =>
    x.weakFair_of_rest hrest (not_due_of_idle hidle htasks d)
  have hlocked : x.label 6 = some (.locked .trayStop) := (hlabel 6).trans hstop
  have hsession : (x.state 7).session = some ⟨.trayStop, Command.program .trayStop, none⟩ := by
    have hstep := x.step 6 _ hlocked
    generalize x.state 6 = s, x.state 7 = s' at hstep
    cases hstep
    rfl
  obtain ⟨m, hm, hreleased⟩ := mutex_released hstart hfair hsession
  exact ⟨x, 6, m, hstart, hfair, hlocked, by omega, hreleased⟩

end Gui

end Torpc
