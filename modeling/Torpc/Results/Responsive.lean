import Torpc.Results.Progress
import Torpc.Results.Window

/-!
# The window answers

A click sets a handler of the page going, which asks for one thing after the other
and may have to wait at the mutex behind the polls, the tray and other clicks.
It always comes to its end (`handler_ends`). What that takes is

* what it takes under the mutex (`mutex_released` of the GUI), and the mutex given
  back by whoever is done;
* the mutex being fair: who asks for it again and again while it is free gets it;
* a network in which a test of the connection ends, in whatever way.

Only the tray's *Quit* ends the process with handlers still under way.
-/

namespace Torpc

open Effects Prog

namespace Desktop

open Lts

variable {x : Surroundings}

-- ---------------------------------------------------------------------------
-- Who has to do something
-- ---------------------------------------------------------------------------

inductive Duty where
  /-- the command that has the mutex, and the controller's tasks -/
  | gui (d : Gui.Duty)
  /-- a handler that waits for nobody -/
  | handler (i : Nat)
  /-- a handler gets the mutex -/
  | lock (i : Nat)

def duties : Duty → State → Label → Prop
  | .gui d, s, .inside l => Gui.duties d s.gui l
  | .gui .session, _, .unlocked _ _ _ _ => True
  | .handler i, _, .notified j _ => j = i
  | .handler i, _, .refused j _ => j = i
  | .handler i, _, .tested j _ _ _ => j = i
  | .handler i, _, .ended j => j = i
  | .lock i, _, .locked owner _ => owner = some i
  | _, _, _ => False

/-- Everybody does what there is to do, and the mutex is fair. -/
structure Fair (b : Behaviour (Step x)) : Prop where
  gui : ∀ d, b.WeakFair (duties (.gui d))
  handler : ∀ i, b.WeakFair (duties (.handler i))
  lock : ∀ i, b.StrongFair (duties (.lock i))

/-- The process is about to end. -/
def Quits (s : State) : Prop :=
  ∃ result, s.gui.session = some ⟨.trayQuit, .pure result, none⟩

structure Going (s : State) : Prop where
  sound : Sound s
  live : Gui.Live s.gui

/-- At launch nobody has the mutex and nobody waits for it. -/
theorem going_launch (file : SettingsFile) (discoveryAddr : Option Net.SocketAddr) :
    Going (launch file discoveryAddr) :=
  ⟨sound_launch file discoveryAddr, Gui.live_start _ discoveryAddr⟩

section Step

variable {s s' : State} {l : Label} {i : Nat} {p : Page}

/-- A step keeps the sessions sound, and able to go on. -/
theorem going_step (h : Going s) (hstep : Step x s l s') : Going s' := by
  refine ⟨sound_step h.sound hstep, ?_⟩
  rcases step_gui hstep with heq | ⟨l', hgui, -⟩
  · rw [heq]
    exact h.live
  · exact Gui.live_step h.live hgui

-- ---------------------------------------------------------------------------
-- A handler's own steps
-- ---------------------------------------------------------------------------

/-- The handler that goes on. -/
def Label.mover : Label → Option Nat
  | .notified i _ | .refused i _ | .tested i _ _ _ | .ended i => some i
  | .unlocked owner _ _ _ => owner
  | .event _ _ | .locked _ _ | .inside _ => none

/-- A step that is not the handler's own leaves its program as it is. -/
theorem handler_kept (h : Going s) (hstep : Step x s l s') (hi : s.handlers i = some p)
    (hl : l.mover ≠ some i) : s'.handlers i = some p := by
  have hother : ∀ {j} {next : Option Page}, some j ≠ some i →
      Function.update s.handlers j next i = some p := by
    intro j next hj
    rw [Function.update_of_ne (fun heq => hj (congrArg some heq.symm)), hi]
  cases hstep with
  | event e =>
    refine hother fun heq => ?_
    rw [← Option.some.inj heq, h.sound.fresh _ (Nat.le_refl _)] at hi
    cases hi
  | notify | refuse | test | answer | ended => exact hother hl
  | lock | tray | inside | trayDone => exact hi

/-- A handler that goes on has the rest of its program left. -/
theorem goesOn_self (s : State) (i : Nat) (p : Page) : (s.goesOn i p).handlers i = some p :=
  Function.update_self ..

/-- A step of the handler's own either ends it, or performs the operation at the head of its
program. -/
theorem handler_moved (hstep : Step x s l s') (hi : s.handlers i = some p)
    (hl : l.mover = some i) :
    (p = .pure () ∧ l = .ended i) ∨ ∃ o c r, p = .op o c ∧ s'.handlers i = some (c r) := by
  cases hstep with
  | event | lock | tray | inside | trayDone => cases hl
  | notify j n c hj =>
    cases hl
    exact .inr ⟨.notify n, c, (), Option.some.inj (hi.symm.trans hj), goesOn_self ..⟩
  | refuse j r c message hj =>
    cases hl
    exact .inr ⟨.invoke r, c, .error message, Option.some.inj (hi.symm.trans hj), goesOn_self ..⟩
  | test j onionEndpoint torProxy c net hnet hj =>
    cases hl
    exact .inr ⟨.testConnection onionEndpoint torProxy, c, _, Option.some.inj (hi.symm.trans hj),
      goesOn_self ..⟩
  | answer j r c command result value write file howner hj =>
    cases hl
    exact .inr ⟨.invoke r, c, value, Option.some.inj (hi.symm.trans hj), goesOn_self ..⟩
  | ended j hj =>
    cases hl
    exact .inl ⟨Option.some.inj (hi.symm.trans hj), rfl⟩

-- ---------------------------------------------------------------------------
-- The mutex is given back
-- ---------------------------------------------------------------------------

/-- The answers to a command can be given to whoever has asked. -/
theorem Request.result_of_answers {r : Request} {command : Gui.Command}
    (hr : r.command = some command) {result : Except String Controller.Answer}
    (h : command.Answers result) : ∃ value, r.result result = some value := by
  cases result with
  | error e => exact ⟨.error e, rfl⟩
  | ok answer =>
    cases r with
    | updateConfig page =>
      obtain ⟨config, -, rfl⟩ := Option.map_eq_some_iff.mp hr
      cases answer <;> first | exact ⟨_, rfl⟩ | exact h.elim
    | _ =>
      cases hr
      cases answer <;> first | exact ⟨_, rfl⟩ | exact h.elim

/-- Every command can write its part of the settings file, or find that it cannot; some
result of the write exists. -/
theorem exists_persists (command : Gui.Command) (file : SettingsFile) :
    ∃ write file', Persists command file write file' := by
  by_cases h : ∃ config, command = .updateConfig config
  · obtain ⟨config, rfl⟩ := h
    exact ⟨_, _, .update config file .saved⟩
  · exact ⟨none, file, .other command file fun config heq => h ⟨config, heq⟩⟩

/-- A session whose command has returned can let go of the mutex, and can do nothing else.
-/
theorem unlock_due (h : Going s) {command : Gui.Command}
    {result : Except String Controller.Answer}
    (hsession : s.gui.session = some ⟨command, .pure result, none⟩) (hquit : ¬ Quits s) :
    Due (Step x) (duties (.gui .session)) s := by
  cases howner : s.owner with
  | none =>
    have hne : command ≠ .trayQuit := by
      rintro rfl
      exact hquit ⟨result, hsession⟩
    exact ⟨.unlocked none command result none, _, trivial,
      .trayDone s command result howner hsession hne⟩
  | some i =>
    obtain ⟨r, c, hi, hr⟩ := h.sound.page command _ _ i hsession howner
    have hanswers : command.Answers result := h.live.yields _ _ _ hsession
    obtain ⟨value, hvalue⟩ := Request.result_of_answers hr hanswers
    obtain ⟨write, file, hfile⟩ := exists_persists command s.file
    exact ⟨.unlocked (some i) command result write, _, trivial,
      .answer s i r c command result value write file howner hi hsession hvalue hfile⟩

/-- The command lets go of the mutex. -/
def Released (command : Gui.Command) (s : State) (l : Label) : Prop :=
  ∃ result write, s.gui.session = some ⟨command, .pure result, none⟩ ∧
    l = .unlocked s.owner command result write

variable {command : Gui.Command} {n : Nat} {d : Gui.Duty}

/-- A duty of the GUI's session or of its tasks that is owed can be done. -/
theorem gui_due (h : Going s) (hquit : ¬ Quits s) (howes : Gui.Owes command s.gui n d) :
    Due (Step x) (duties (.gui d)) s := by
  obtain ⟨l, gui, hduty, hstep⟩ := h.live.due howes
  cases l with
  | locked => cases d <;> exact hduty.elim
  | calls i c => exact ⟨.inside (.calls i c), _, hduty, .inside s _ gui trivial hstep⟩
  | task l => exact ⟨.inside (.task l), _, hduty, .inside s _ gui trivial hstep⟩
  | unlocked result =>
    cases d with
    | session =>
      generalize hgui : s.gui = g at hstep
      cases hstep with
      | unlock ctrl command' => exact unlock_due h (by rw [hgui]) hquit
    | task | cancel => exact hduty.elim

/-- While the session owes work, every step either releases the mutex, or makes the work
less, or is not the one that is owed. -/
theorem gui_rank (h : Going s) (howes : Gui.Owes command s.gui n d) (hstep : Step x s l s') :
    Released command s l ∨ (∃ m e, m < n ∧ Gui.Owes command s'.gui m e) ∨
      (Gui.Owes command s'.gui n d ∧ ¬ duties (.gui d) s l) := by
  obtain ⟨rest, waiting, hsession⟩ := howes.session
  cases hstep with
  | event | notify | refuse | test | ended =>
    exact .inr (.inr ⟨howes, by cases d <;> exact id⟩)
  | lock i r c command' hi hr hfree => cases hsession.symm.trans hfree
  | tray command' htray hfree => cases hsession.symm.trans hfree
  | inside l gui hl hgui =>
    rcases h.live.rank_step howes hgui with ⟨result, -, rfl⟩ | hless | hkept
    · exact hl.elim
    · exact .inr (.inl hless)
    · exact .inr (.inr hkept)
  | answer i r c command' result value write file howner hi hsession' =>
    cases hsession.symm.trans hsession'
    exact .inl ⟨result, write, hsession', by rw [howner]⟩
  | trayDone command' result howner hsession' =>
    cases hsession.symm.trans hsession'
    exact .inl ⟨result, none, hsession', by rw [howner]⟩

/-- A handler that asks for no command can always take its next step, given any network. -/
theorem handler_due (hi : s.handlers i = some p) (hnet : ∃ net, x.network net)
    (hp : ∀ r c, p = .op (.invoke r) c → r.command = none) :
    Due (Step x) (duties (.handler i)) s := by
  cases p with
  | pure u => exact ⟨.ended i, _, rfl, .ended s i hi⟩
  | op o c =>
    cases o with
    | notify n => exact ⟨.notified i n, _, rfl, .notify s i n c hi⟩
    | invoke r => exact ⟨.refused i "", _, rfl, .refuse s i r c "" hi (hp r c rfl)⟩
    | testConnection onionEndpoint torProxy =>
      obtain ⟨net, hnet⟩ := hnet
      exact ⟨.tested i onionEndpoint torProxy _, _, rfl,
        .test s i onionEndpoint torProxy c net hnet hi⟩

/-- A step of a handler's duty is a step of that handler. -/
theorem mover_of_duty (h : duties (.handler i) s l) : l.mover = some i := by
  cases l with
  | notified | refused | tested | ended => exact congrArg some h
  | event | locked | inside | unlocked => exact h.elim

/-- Handler `i` has the mutex. -/
def Holds (i : Nat) (s : State) : Prop := s.owner = some i ∧ s.gui.session ≠ none

/-- A handler that has the mutex keeps it until it makes a step of its own. -/
theorem holds_step (h : Holds i s) (hstep : Step x s l s') : l.mover = some i ∨ Holds i s' := by
  obtain ⟨howner, hsession⟩ := h
  cases hstep with
  | event | notify | refuse | test | ended => exact .inr ⟨howner, hsession⟩
  | lock j r c command hj hr hfree => exact absurd hfree hsession
  | tray command htray hfree => exact absurd hfree hsession
  | inside l gui hl hgui =>
    refine .inr ⟨howner, fun hnone => ?_⟩
    generalize s.gui = g at hsession hgui
    cases hgui with
    | lock | unlock => exact hl.elim
    | calls | answered => cases hnone
    | task => exact hsession hnone
  | answer j r c command result value write file howner' =>
    exact .inl (howner'.symm.trans howner)
  | trayDone command result howner' => cases howner.symm.trans howner'

/-- A handler has the mutex once it has taken it. -/
theorem holds_of_locked {command : Gui.Command}
    (hstep : Step x s (.locked (some i) command) s') : Holds i s' := by
  cases hstep with
  | lock => exact ⟨rfl, nofun⟩

/-- Letting go of the mutex leaves it free. -/
theorem free_of_unlocked {owner : Option Nat} {command : Gui.Command}
    {result : Except String Controller.Answer} {write : Option Write}
    (hstep : Step x s (.unlocked owner command result write) s') : s'.gui.session = none := by
  cases hstep with
  | answer | trayDone => rfl

end Step

-- ---------------------------------------------------------------------------
-- Behaviours
-- ---------------------------------------------------------------------------

section Behaviour

variable {b : Behaviour (Step x)} {n i : Nat} {p : Page}

/-- Whoever has the mutex gives it back, unless the process ends. -/
theorem given_back (hgoing : ∀ n, Going (b.state n)) (hfair : Fair b)
    (hquit : ∀ m, n ≤ m → ¬ Quits (b.state m)) {session : Gui.Session}
    (hsession : (b.state n).gui.session = some session) :
    ∃ m, n ≤ m ∧ b.Takes (Released session.command) m := by
  have hranking : Ranking (Step x) (fun d => duties (.gui d)) (Released session.command)
      (fun s => Going s ∧ ¬ Quits s) fun n d s => Gui.Owes session.command s.gui n d :=
    ⟨fun _ _ _ h => gui_due h.1 h.2, fun _ _ _ _ _ h => gui_rank h.1⟩
  obtain ⟨k, d, howes⟩ := (hgoing n).live.owes hsession
  exact hranking.reached hfair.gui (fun m hm => ⟨hgoing m, hquit m hm⟩) howes

/-- So it is free again and again. -/
theorem free_again (hgoing : ∀ n, Going (b.state n)) (hfair : Fair b)
    (hquit : ∀ m, n ≤ m → ¬ Quits (b.state m)) :
    ∃ m, n ≤ m ∧ (b.state m).gui.session = none := by
  cases hsession : (b.state n).gui.session with
  | none => exact ⟨n, Nat.le_refl n, hsession⟩
  | some session =>
    obtain ⟨m, hm, l, hl, result, write, -, rfl⟩ := given_back hgoing hfair hquit hsession
    exact ⟨m + 1, by omega, free_of_unlocked (b.step m _ hl)⟩

/-- Along a fair behaviour a handler that is under way makes its next step, if need be after
it has waited for the mutex. -/
theorem next_move (hgoing : ∀ n, Going (b.state n)) (hfair : Fair b)
    (hnet : ∃ net, x.network net) (hquit : ∀ m, n ≤ m → ¬ Quits (b.state m))
    (hi : (b.state n).handlers i = some p) :
    ∃ m, n ≤ m ∧ (b.state m).handlers i = some p ∧ b.Takes (fun _ l => l.mover = some i) m := by
  have hsplit : (∃ m, n ≤ m ∧ (b.state m).handlers i = some p ∧
        b.Takes (fun _ l => l.mover = some i) m) ∨
      ∀ m, n ≤ m → (b.state m).handlers i = some p ∧ ¬ b.Takes (fun _ l => l.mover = some i) m :=
    b.takes_or_kept (P := fun s => s.handlers i = some p) hi fun m l _ hP hstep =>
      or_iff_not_imp_left.mpr fun hl => handler_kept (hgoing m) hstep hP hl
  refine hsplit.resolve_right fun hkept => ?_
  -- it never moves, so it is at an `invoke` and waits for the mutex
  by_cases hp : ∃ r c command, p = .op (.invoke r) c ∧ r.command = some command
  · obtain ⟨r, c, command, rfl, hr⟩ := hp
    have hnever : ∀ m, n ≤ m → ¬ Holds i (b.state m) := by
      intro m hm hholds
      have hheld : ∀ k, m ≤ k → Holds i (b.state k) := fun k hk =>
        b.kept hholds (fun k hk => (hkept k (by omega)).2)
          (fun k l _ h hstep => holds_step h hstep) hk
      obtain ⟨session, hsession⟩ := Option.ne_none_iff_exists'.mp hholds.2
      obtain ⟨k, hk, l, hl, result, write, -, rfl⟩ :=
        given_back hgoing hfair (fun k hk => hquit k (by omega)) hsession
      exact (hkept k (by omega)).2 ⟨_, hl, (hheld k hk).1⟩
    have hdue : ∀ k, n ≤ k → ∃ m, k ≤ m ∧ Due (Step x) (duties (.lock i)) (b.state m) := by
      intro k hk
      obtain ⟨m, hm, hfree⟩ := free_again (n := k) hgoing hfair fun m hm => hquit m (by omega)
      exact ⟨m, hm, .locked (some i) command, _, rfl,
        .lock _ i r c command (hkept m (by omega)).1 hr hfree⟩
    obtain ⟨m, hm, l, hl, hduty⟩ := hfair.lock i n hdue
    cases l with
    | locked owner command' =>
      obtain rfl : owner = some i := hduty
      exact hnever (m + 1) (by omega) (holds_of_locked (b.step m _ hl))
    | event | notified | refused | tested | inside | unlocked | ended => exact hduty
  · have hdue : ∀ m, n ≤ m → Due (Step x) (duties (.handler i)) (b.state m) := by
      refine fun m hm => handler_due (hkept m hm).1 hnet fun r c heq => ?_
      cases hr : r.command with
      | none => rfl
      | some command => exact absurd ⟨r, c, command, heq, hr⟩ hp
    obtain ⟨m, hm, l, hl, hduty⟩ := hfair.handler i n hdue
    exact (hkept m hm).2 ⟨l, hl, mover_of_duty hduty⟩

/-- Along a fair behaviour without a Quit, a handler that is under way ends: each of its
operations is due until it is done, and those that need the mutex get it since every session
before them lets go. -/
theorem handler_done (hgoing : ∀ n, Going (b.state n)) (hfair : Fair b)
    (hnet : ∃ net, x.network net) (hquit : ∀ m, n ≤ m → ¬ Quits (b.state m))
    (hi : (b.state n).handlers i = some p) : ∃ m, n ≤ m ∧ b.label m = some (.ended i) := by
  induction p generalizing n with
  | pure u =>
    obtain ⟨m, hm, hi', l, hl, hmover⟩ := next_move hgoing hfair hnet hquit hi
    rcases handler_moved (b.step m l hl) hi' hmover with ⟨-, rfl⟩ | ⟨o, c, r, heq, -⟩
    · exact ⟨m, hm, hl⟩
    · cases heq
  | op o c ih =>
    obtain ⟨m, hm, hi', l, hl, hmover⟩ := next_move hgoing hfair hnet hquit hi
    rcases handler_moved (b.step m l hl) hi' hmover with ⟨heq, -⟩ | ⟨o', c', r, heq, hnext⟩
    · cases heq
    · cases heq
      obtain ⟨k, hk, hended⟩ := ih r (fun k hk => hquit k (by omega)) hnext
      exact ⟨k, by omega, hended⟩

/-- **The window answers.** Whatever sets a handler going, it comes to its end, unless
the process does. -/
theorem handler_ends {file : SettingsFile} {discoveryAddr : Option Net.SocketAddr}
    (hstart : b.state 0 = launch file discoveryAddr) (hfair : Fair b)
    (hnet : ∃ net, x.network net) {e : Event} (hevent : b.label n = some (.event i e)) :
    (∃ m, n < m ∧ b.label m = some (.ended i)) ∨ ∃ m, n < m ∧ Quits (b.state m) := by
  by_cases hquit : ∃ m, n < m ∧ Quits (b.state m)
  · exact .inr hquit
  · have hgoing : ∀ n, Going (b.state n) :=
      b.invariant (by rw [hstart]; exact going_launch file discoveryAddr) fun _ _ _ => going_step
    have hi : ∃ p, (b.state (n + 1)).handlers i = some p := by
      have hstep := b.step n _ hevent
      generalize b.state n = s, b.state (n + 1) = s' at hstep
      cases hstep
      exact ⟨_, Function.update_self ..⟩
    obtain ⟨p, hi⟩ := hi
    obtain ⟨m, hm, hended⟩ := handler_done hgoing hfair hnet
      (fun m hm hq => hquit ⟨m, hm, hq⟩) hi
    exact .inl ⟨m, hm, hended⟩

end Behaviour

-- ---------------------------------------------------------------------------
-- Two polls
-- ---------------------------------------------------------------------------

/-- Where nothing is under way, nobody owes anything. -/
theorem not_due_of_rest {s : State} (hsession : s.gui.session = none)
    (htasks : ∀ i, s.gui.controller.tasks i = none) (hhandlers : ∀ i, s.handlers i = none)
    (d : Duty) : ¬ Due (Step x) (duties d) s := by
  rintro ⟨l, s', hduty, hstep⟩
  cases hstep with
  | event => cases d <;> exact hduty
  | notify i _ _ hi | refuse i _ _ _ hi | test i _ _ _ _ _ hi | lock i _ _ _ hi | ended i hi =>
    cases (hhandlers i).symm.trans hi
  | tray =>
    cases d with
    | lock i => cases hduty
    | gui | handler => exact hduty
  | inside l gui hl hgui =>
    cases d with
    | gui d => exact Gui.not_due_of_idle hsession htasks d ⟨l, gui, hduty, hgui⟩
    | handler | lock => exact hduty
  | answer _ _ _ _ _ _ _ _ _ _ hsession' => cases hsession.symm.trans hsession'
  | trayDone _ _ _ hsession' => cases hsession.symm.trans hsession'

/-- The window polls twice, and the second poll comes while the first has the mutex: they
take turns, and both come to their end. -/
theorem handler_ends_polls : ∃ b : Behaviour (Step helpful),
    b.state 0 = launch .missing none ∧ Fair b ∧ b.label 0 = some (.event 0 .interval) ∧
      b.label 1 = some (.locked (some 0) .getStatus) ∧ b.label 2 = some (.event 1 .interval) ∧
      ((∃ m, 0 < m ∧ b.label m = some (.ended 0)) ∨ ∃ m, 0 < m ∧ Quits (b.state m)) ∧
      ((∃ m, 2 < m ∧ b.label m = some (.ended 1)) ∨ ∃ m, 2 < m ∧ Quits (b.state m)) := by
  -- the first handler has its status when the second gets the mutex
  have hfirst : Run (Step helpful) (launch .missing none) _ _ :=
    ((((((Run.nil _).snoc (.event _ .interval)).snoc
      (.lock _ 0 .getStatus _ .getStatus rfl rfl rfl)).snoc (.event _ .interval)).snoc
      (.inside _ _ _ (by exact trivial) (.calls _ _ .getStatus _))).snoc
      (.inside _ _ _ (by exact trivial) (.answered _ _ _ .getStatus _ 0 (.status .stopped) none
        .stopped rfl (perform_ready rfl)))).snoc
      (.answer _ 0 .getStatus _ .getStatus _ _ _ _ rfl rfl rfl rfl (.other _ _ nofun))
  have hsecond := (((hfirst.snoc
    (.lock _ 1 .getStatus _ .getStatus rfl rfl rfl)).snoc
    (.inside _ _ _ (by exact trivial) (.calls _ _ .getStatus _))).snoc
    (.inside _ _ _ (by exact trivial) (.answered _ _ _ .getStatus _ 1 (.status .stopped) none
      .stopped rfl (perform_ready rfl)))).snoc
    (.answer _ 1 .getStatus _ .getStatus _ _ _ _ rfl rfl rfl rfl (.other _ _ nofun))
  -- and so with the configuration
  have hasked := (((hsecond.snoc
    (.lock _ 0 .getConfig _ .getConfig rfl rfl rfl)).snoc
    (.inside _ _ _ (by exact trivial) (.calls _ _ .getConfig _))).snoc
    (.inside _ _ _ (by exact trivial) (.answered _ _ _ .getConfig _ 2
      (.config (launchConfig .missing)) none (launchConfig .missing) rfl (perform_ready rfl)))).snoc
    (.answer _ 0 .getConfig _ .getConfig _ _ _ _ rfl rfl rfl rfl (.other _ _ nofun))
  have hagain := (((hasked.snoc
    (.lock _ 1 .getConfig _ .getConfig rfl rfl rfl)).snoc
    (.inside _ _ _ (by exact trivial) (.calls _ _ .getConfig _))).snoc
    (.inside _ _ _ (by exact trivial) (.answered _ _ _ .getConfig _ 3
      (.config (launchConfig .missing)) none (launchConfig .missing) rfl (perform_ready rfl)))).snoc
    (.answer _ 1 .getConfig _ .getConfig _ _ _ _ rfl rfl rfl rfl (.other _ _ nofun))
  have hpolled := (((hagain.snoc (.notify _ 0 _ _ rfl)).snoc (.ended _ 0 rfl)).snoc
    (.notify _ 1 _ _ rfl)).snoc (.ended _ 1 rfl)
  obtain ⟨ls, s, hrun, hlabels, hsession, htasks, hhandlers⟩ : ∃ ls s,
      Run (Step helpful) (launch .missing none) ls s ∧
        (ls[0]? = some (.event 0 .interval) ∧ ls[1]? = some (.locked (some 0) .getStatus) ∧
          ls[2]? = some (.event 1 .interval)) ∧
        s.gui.session = none ∧ (∀ i, s.gui.controller.tasks i = none) ∧
        ∀ i, s.handlers i = none := by
    have hgoing := hpolled.invariant (going_launch _ _) fun _ _ _ => going_step
    refine ⟨_, _, hpolled, ⟨rfl, rfl, rfl⟩, rfl, fun i => ?_, fun i => ?_⟩
    · match i with
      | 0 | 1 | 2 | 3 => rfl
      | i + 4 => exact hgoing.sound.gui.fresh _ (Nat.le_add_left 4 i)
    · match i with
      | 0 | 1 => rfl
      | i + 2 => exact hgoing.sound.fresh _ (Nat.le_add_left 2 i)
  obtain ⟨b, hstart, hlabel, hrest⟩ := exists_behaviour hrun
  have hidle := not_due_of_rest (x := helpful) hsession htasks hhandlers
  have hfair : Fair b :=
    ⟨fun d => b.weakFair_of_rest hrest (hidle (.gui d)),
      fun i => b.weakFair_of_rest hrest (hidle (.handler i)),
      fun i => b.strongFair_of_rest hrest (hidle (.lock i))⟩
  have hpoll : b.label 0 = some (.event 0 .interval) := (hlabel 0).trans hlabels.1
  have hother : b.label 2 = some (.event 1 .interval) := (hlabel 2).trans hlabels.2.2
  exact ⟨b, hstart, hfair, hpoll, (hlabel 1).trans hlabels.2.1, hother,
    handler_ends hstart hfair ⟨_, rfl⟩ hpoll, handler_ends hstart hfair ⟨_, rfl⟩ hother⟩

end Desktop

end Torpc
