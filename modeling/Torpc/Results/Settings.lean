import Torpc.Results.Resave
import Torpc.Results.Sessions

/-!
# Settings across restarts

`update_config` stores the settings and writes them to the file, and the next
launch starts with what it finds there. Once they have been written, they are
what the controller has and what every later launch starts with, until somebody
saves again or writes the file: however often the application is stopped, is
killed or starts anew, and whatever is clicked meanwhile (`settings_survive`).

The addresses are texts in the page and in the file. They come back as what they
were because the page has sent them as texts in the first place.
-/

namespace Torpc

open Effects Prog Lts

namespace Desktop

variable {x : Surroundings}

-- ---------------------------------------------------------------------------
-- The file
-- ---------------------------------------------------------------------------

/-- What is written to the file, a launch reads. -/
theorem launchConfig_saveConfig {config : ProxyConfig} (h : Written config) :
    launchConfig (.table (Torpc.saveConfig config)) = config := by
  have hloaded : Torpc.loadConfig (some (Torpc.saveConfig config)) = some config := by
    refine loadConfig_eq_some.mpr ⟨?_, ?_, rfl⟩
    · exact (Net.SocketAddr.parse_display _).trans (congrArg some h.1)
    · exact (Net.SocketAddr.parse_display _).trans (congrArg some h.2)
  rw [launchConfig, hloaded, Option.getD_some]

-- ---------------------------------------------------------------------------
-- The session and whom it works for
-- ---------------------------------------------------------------------------

/-- Within a session the command stays what it is. -/
theorem inside_session {g g' : Gui.State} {l : Gui.Label} (hl : IsInside l)
    (h : Gui.Step g l g') {command : Gui.Command} {rest : Gui.Program} {waiting : Option Nat}
    (hsession : g'.session = some ⟨command, rest, waiting⟩) :
    ∃ rest' waiting', g.session = some ⟨command, rest', waiting'⟩ := by
  cases h with
  | lock | unlock => exact hl.elim
  | calls | answered =>
    cases hsession
    exact ⟨_, _, rfl⟩
  | task => exact ⟨rest, waiting, hsession⟩

structure Sound (s : State) : Prop where
  gui : Gui.Settled s.gui
  fresh : ∀ i, s.next ≤ i → s.handlers i = none
  tray : ∀ command rest waiting, s.gui.session = some ⟨command, rest, waiting⟩ →
    s.owner = none → IsTray command
  /-- the handler that the session works for waits for its answer -/
  page : ∀ command rest waiting i, s.gui.session = some ⟨command, rest, waiting⟩ →
    s.owner = some i → ∃ r k, s.handlers i = some (.op (.invoke r) k) ∧ r.command = some command

/-- At launch there is no session and no handler. -/
theorem sound_launch (file : SettingsFile) (discoveryAddr : Option Net.SocketAddr) :
    Sound (launch file discoveryAddr) where
  gui := Gui.settled_start _ discoveryAddr
  fresh := fun _ _ => rfl
  tray := nofun
  page := nofun

section Step

variable {s s' : State} {l : Label}

/-- What a step is to the GUI behind the page. -/
theorem step_gui (h : Step x s l s') : s'.gui = s.gui ∨ ∃ l', Gui.Step s.gui l' s'.gui ∧
    ∀ command, l' = .locked command → ∃ owner, l = .locked owner command := by
  have htaken : ∀ owner command, s.gui.session = none →
      Gui.Step s.gui (.locked command) (s.lock owner command).gui := by
    intro owner command hfree
    have hgui : s.gui = ⟨s.gui.controller, none⟩ := by rw [← hfree]
    rw [hgui]
    exact .lock s.gui.controller command
  have hdropped : ∀ command result file,
      s.gui.session = some ⟨command, .pure result, none⟩ →
      Gui.Step s.gui (.unlocked result) (s.unlock file).gui := by
    intro command result file hsession
    have hgui : s.gui = ⟨s.gui.controller, some ⟨command, .pure result, none⟩⟩ := by
      rw [← hsession]
    rw [hgui]
    exact .unlock s.gui.controller command result
  cases h with
  | event | notify | refuse | test | ended => exact .inl rfl
  | lock i r k command hi hr hfree =>
    refine .inr ⟨_, htaken (some i) command hfree, ?_⟩
    rintro _ ⟨⟩
    exact ⟨_, rfl⟩
  | tray command htray hfree =>
    refine .inr ⟨_, htaken none command hfree, ?_⟩
    rintro _ ⟨⟩
    exact ⟨_, rfl⟩
  | inside l gui hl h =>
    refine .inr ⟨l, h, ?_⟩
    rintro _ rfl
    exact hl.elim
  | answer i r k command result value write file howner hi hsession =>
    exact .inr ⟨_, hdropped command result file hsession, nofun⟩
  | trayDone command result howner hsession =>
    exact .inr ⟨_, hdropped command result s.file hsession, nofun⟩

/-- The handler that waits for the session is none that does something else. -/
theorem Sound.page_kept (h : Sound s) {j : Nat} {next : Option Page}
    (hj : ∀ r k, s.handlers j = some (.op (.invoke r) k) → r.command = none)
    (command : Gui.Command) (program : Gui.Program) (waiting : Option Nat) (i : Nat)
    (hsession : s.gui.session = some ⟨command, program, waiting⟩) (howner : s.owner = some i) :
    ∃ r k, Function.update s.handlers j next i = some (.op (.invoke r) k) ∧
      r.command = some command := by
  obtain ⟨r, k, hi, hr⟩ := h.page command program waiting i hsession howner
  have hij : i ≠ j := by
    rintro rfl
    rw [hj r k hi] at hr
    cases hr
  exact ⟨r, k, by rw [Function.update_of_ne hij, hi], hr⟩

/-- The numbers of the handlers to come are free, whatever becomes of one that is there. -/
theorem Sound.fresh_update (h : Sound s) {j : Nat} {p : Page} (hj : s.handlers j = some p)
    (next : Option Page) (i : Nat) (hi : s.next ≤ i) :
    Function.update s.handlers j next i = none := by
  have hij : i ≠ j := by
    rintro rfl
    rw [h.fresh i hi] at hj
    cases hj
  rw [Function.update_of_ne hij, h.fresh i hi]

/-- The handler that a session works for waits for its answer, after every step of the
application. -/
theorem sound_step (h : Sound s) (hstep : Step x s l s') : Sound s' := by
  have hgui : Gui.Settled s'.gui := by
    rcases step_gui hstep with hsame | ⟨l', hl', -⟩
    · rw [hsame]
      exact h.gui
    · exact Gui.settled_step h.gui hl'
  -- a handler that does anything else than invoke is not the one that is waited for
  have hother : ∀ {j : Nat} {p : Page}, s.handlers j = some p →
      (∀ r k, p ≠ .op (.invoke r) k) → ∀ r k, s.handlers j = some (.op (.invoke r) k) →
      r.command = none := by
    intro j p hj hp r k hj'
    exact absurd (Option.some.inj (hj.symm.trans hj')) (hp r k)
  cases hstep with
  | event e =>
    refine ⟨hgui, fun i hi => ?_, h.tray, h.page_kept fun r k hj => ?_⟩
    · have hi : s.next + 1 ≤ i := hi
      have hne : i ≠ s.next := by omega
      exact (Function.update_of_ne hne _ _).trans (h.fresh i (by omega))
    · rw [h.fresh s.next (Nat.le_refl _)] at hj
      cases hj
  | notify i n k hi =>
    exact ⟨hgui, h.fresh_update hi _, h.tray, h.page_kept (hother hi nofun)⟩
  | refuse i r k message hi hr =>
    refine ⟨hgui, h.fresh_update hi _, h.tray, h.page_kept fun r' k' hi' => ?_⟩
    rw [hi] at hi'
    cases hi'
    exact hr
  | test i onionEndpoint torProxy k net hnet hi =>
    exact ⟨hgui, h.fresh_update hi _, h.tray, h.page_kept (hother hi nofun)⟩
  | ended i hi => exact ⟨hgui, h.fresh_update hi _, h.tray, h.page_kept (hother hi nofun)⟩
  | lock i r k command hi hr hfree =>
    refine ⟨hgui, h.fresh, nofun, ?_⟩
    rintro _ _ _ j ⟨⟩ ⟨⟩
    exact ⟨r, k, hi, hr⟩
  | tray command htray hfree =>
    refine ⟨hgui, h.fresh, ?_, nofun⟩
    rintro _ _ _ ⟨⟩ -
    exact htray
  | inside l gui hl hinside =>
    refine ⟨hgui, h.fresh, ?_, ?_⟩
    · intro command rest waiting hsession
      obtain ⟨rest', waiting', hsession'⟩ := inside_session hl hinside hsession
      exact h.tray command rest' waiting' hsession'
    · intro command rest waiting i hsession
      obtain ⟨rest', waiting', hsession'⟩ := inside_session hl hinside hsession
      exact h.page command rest' waiting' i hsession'
  | answer i r k command result value write file howner hi hsession hvalue hfile =>
    exact ⟨hgui, h.fresh_update hi _, nofun, nofun⟩
  | trayDone command result howner hsession hquit => exact ⟨hgui, h.fresh, nofun, nofun⟩

end Step

/-- What an `update_config` session brings has come from the page. -/
theorem Sound.written {s : State} (h : Sound s) {config : ProxyConfig} {rest : Gui.Program}
    {waiting : Option Nat} (hsession : s.gui.session = some ⟨.updateConfig config, rest, waiting⟩) :
    Written config := by
  cases howner : s.owner with
  | none => rcases h.tray _ _ _ hsession howner with h | h | h <;> cases h
  | some i =>
    obtain ⟨r, k, -, hr⟩ := h.page _ _ _ i hsession howner
    cases r with
    | updateConfig page =>
      obtain ⟨config', hconfig, heq⟩ := Option.map_eq_some_iff.mp hr
      cases heq
      exact written_ofPage hconfig
    | _ => cases hr

-- ---------------------------------------------------------------------------
-- From a save on
-- ---------------------------------------------------------------------------

/-- Somebody saves, or writes the file. -/
def MachineLabel.Changes : MachineLabel → Prop
  | .did (.locked _ (.updateConfig _)) => True
  | .edited _ => True
  | _ => False

/-- The settings are `config`: in the file, and in the application while it runs. -/
def Machine.Has (config : ProxyConfig) : Machine → Prop
  | .off file => launchConfig file = config
  | .on s => s.gui.controller.shared.config = config ∧ launchConfig s.file = config

def Machine.Sound : Machine → Prop
  | .off _ => True
  | .on s => Desktop.Sound s

/-- Nobody is about to change them. -/
def Machine.Quiet : Machine → Prop
  | .off _ => True
  | .on s => ∀ config rest waiting,
    s.gui.session ≠ some ⟨.updateConfig config, rest, waiting⟩

/-- So does one step of the machine, which may also end the GUI or launch it again. -/
theorem machine_sound_step {m m' : Machine} {l : MachineLabel} (h : m.Sound)
    (hstep : MachineStep x m l m') : m'.Sound := by
  cases hstep with
  | launch file discoveryAddr => exact sound_launch file discoveryAddr
  | step s s' l hl => exact sound_step h hl
  | quit | kill | editOff => trivial
  | editOn s file => exact ⟨h.gui, h.fresh, h.tray, h.page⟩

/-- Another step than a save leaves the settings and the quiet. -/
theorem quiet_step {s s' : State} {l : Label} {config : ProxyConfig} (h : Sound s)
    (hhas : (Machine.on s).Has config) (hquiet : (Machine.on s).Quiet)
    (hchange : ¬ (MachineLabel.did l).Changes) (hstep : Step x s l s') :
    (Machine.on s').Has config ∧ (Machine.on s').Quiet := by
  have hconfig : s'.gui.controller.shared.config = config := by
    rcases step_gui hstep with hsame | ⟨l', hl', -⟩
    · rw [hsame]
      exact hhas.1
    · rcases h.gui.config_step hl' with hsame | ⟨rest, waiting, hsession⟩
      · exact hsame.trans hhas.1
      · exact absurd hsession (hquiet _ rest waiting)
  cases hstep with
  | event | notify | refuse | test | ended => exact ⟨hhas, hquiet⟩
  | lock i r k command hi hr hfree =>
    refine ⟨hhas, ?_⟩
    rintro _ _ _ ⟨⟩
    exact hchange trivial
  | tray command htray hfree =>
    refine ⟨hhas, ?_⟩
    rintro _ _ _ ⟨⟩
    exact hchange trivial
  | inside l gui hl hinside =>
    refine ⟨⟨hconfig, hhas.2⟩, fun config' rest waiting hsession => ?_⟩
    obtain ⟨rest', waiting', hsession'⟩ := inside_session hl hinside hsession
    exact hquiet config' rest' waiting' hsession'
  | answer i r k command result value write file howner hi hsession hvalue hfile =>
    refine ⟨⟨hhas.1, ?_⟩, nofun⟩
    cases hfile with
    | update config' => exact absurd hsession (hquiet config' _ _)
    | other => exact hhas.2
  | trayDone command result howner hsession hquit => exact ⟨hhas, nofun⟩

/-- As long as nobody changes the settings, one step leaves them on disk as they are, and
leaves nothing under way that would write others. -/
theorem quiet_machine_step {m m' : Machine} {l : MachineLabel} {config : ProxyConfig}
    (h : m.Sound) (hhas : m.Has config) (hquiet : m.Quiet) (hl : ¬ l.Changes)
    (hstep : MachineStep x m l m') : m'.Has config ∧ m'.Quiet := by
  cases hstep with
  | launch file discoveryAddr => exact ⟨⟨hhas, hhas⟩, nofun⟩
  | step s s' l hstep => exact quiet_step h hhas hquiet hl hstep
  | quit s result hsession => exact ⟨hhas.2, trivial⟩
  | kill s file hleaves =>
    rcases hleaves with rfl | ⟨config', result, w, hsession, -⟩
    · exact ⟨hhas.2, trivial⟩
    · exact absurd hsession (hquiet config' _ _)
  | editOff | editOn => exact absurd trivial hl

/-- As long as nobody changes the settings, a whole run leaves them as they are. -/
theorem quiet_run {m m' : Machine} {ls : List MachineLabel} {config : ProxyConfig}
    (h : Run (MachineStep x) m ls m') (hsound : m.Sound) (hhas : m.Has config)
    (hquiet : m.Quiet) (hls : ∀ l ∈ ls, ¬ l.Changes) : m'.Has config := by
  have hall : m'.Sound ∧ m'.Has config ∧ m'.Quiet := by
    induction h with
    | nil => exact ⟨hsound, hhas, hquiet⟩
    | snoc _ hstep ih =>
      obtain ⟨hsound', hhas', hquiet'⟩ := ih fun l hl => hls l (List.mem_append_left _ hl)
      have hlast := hls _ (List.mem_append_right _ (List.mem_singleton_self _))
      exact ⟨machine_sound_step hsound' hstep,
        quiet_machine_step hsound' hhas' hquiet' hlast hstep⟩
  exact hall.2.1

/-- Right after the save, they are there and nobody is at them. -/
theorem saved_step {s s' : State} {owner : Option Nat} {config : ProxyConfig}
    {result : Except String Controller.Answer} (h : Sound s)
    (hstep : Step x s (.unlocked owner (.updateConfig config) result (some .saved)) s') :
    (Machine.on s').Has config ∧ (Machine.on s').Quiet := by
  cases hstep with
  | answer i r k _ _ value _ file howner hi hsession hvalue hfile =>
    refine ⟨⟨h.gui.done config result none hsession, ?_⟩, nofun⟩
    cases hfile with
    | update => exact launchConfig_saveConfig (h.written hsession)

/-- **Saved settings stay.** Once a save has been answered with success, the file and the
running application have these settings until somebody saves others or edits the file,
through any number of ends and launches of the GUI. -/
theorem settings_survive {file : SettingsFile} {pre post : List MachineLabel} {m : Machine}
    {owner : Option Nat} {config : ProxyConfig} {result : Except String Controller.Answer}
    (h : Run (MachineStep x) (.off file)
      (pre ++ .did (.unlocked owner (.updateConfig config) result (some .saved)) :: post) m)
    (hpost : ∀ l ∈ post, ¬ l.Changes) : m.Has config := by
  obtain ⟨t, t', hpre, hstep, hrest⟩ := h.at_label
  have hsound : t.Sound := hpre.invariant trivial fun _ _ _ => machine_sound_step
  cases hstep with
  | step s s' _ hsave =>
    obtain ⟨hhas, hquiet⟩ := saved_step hsound hsave
    exact quiet_run hrest (sound_step hsound hsave) hhas hquiet hpost

/-- The handler of a form that sends something. -/
theorem submit_step {inputs : SettingsForm.Inputs} {page : SettingsForm.Config}
    {answered : Except String Unit → SettingsForm.Toast}
    (h : SettingsForm.saveConfig x.parseIntText inputs = .updateConfig page answered) (s : State) :
    Step x s (.event s.next (.submit inputs))
      { s with
        handlers := Function.update s.handlers s.next (some (.op (.invoke (.updateConfig page))
          fun result => notify (.toast (answered result))))
        next := s.next + 1 } := by
  have hhandler : (Event.submit inputs).handler x.parseIntText =
      .op (.invoke (.updateConfig page)) fun result => notify (.toast (answered result)) := by
    rw [Event.handler, saveConfig, h]
    rfl
  rw [← hhandler]
  exact .event s (.submit inputs)

/-- The command that a configuration is sent with. -/
theorem updateConfig_command {config : ProxyConfig} (h : Written config) :
    (Request.updateConfig (toPage config)).command = some (.updateConfig config) :=
  congrArg (Option.map Gui.Command.updateConfig) (ofPage_toPage h)

/-- A first save, from the click to the answer. -/
theorem run_save {config : ProxyConfig} (hwritten : Written config) {inputs : SettingsForm.Inputs}
    {answered : Except String Unit → SettingsForm.Toast}
    (h : SettingsForm.saveConfig x.parseIntText inputs = .updateConfig (toPage config) answered)
    (file : SettingsFile) :
    ∃ ls s, Run (Step x) (launch file none) ls s ∧ ∃ s',
      Step x s (.unlocked (some 0) (.updateConfig config) (.ok .unit) (some .saved)) s' := by
  have hrun : Run (Step x) (launch file none) _ _ :=
    ((((((Run.nil _).snoc (submit_step h _)).snoc
      (.lock _ 0 _ _ _ rfl (updateConfig_command hwritten) rfl)).snoc
      (.inside _ _ _ (by exact trivial) (.calls _ _ (.updateConfig config) _))).snoc
      (.inside _ _ _ (by exact trivial) (.task _ _ _ (.act 0 Controller.Event.progress none) trivial
        (Tasks.Machine.step_of_perform (a := .act 0 Controller.Choice.ready) rfl)))).snoc
      (.inside _ _ _ (by exact trivial) (.task _ _ _ (.act 0 (Controller.Event.stored config) none)
        trivial (Tasks.Machine.step_of_perform (a := .act 0 Controller.Choice.ready) rfl)))).snoc
      (.inside _ _ _ (by exact trivial) (.answered _ _ _ (.updateConfig config) _ 0 .unit none ()
        rfl (Tasks.Machine.step_of_perform (a := .act 0 Controller.Choice.ready) rfl)))
  exact ⟨_, _, hrun, _, .answer _ 0 _ _ _ _ (.ok ()) _ _ rfl rfl rfl rfl (.update config _ .saved)⟩

/-- What the GUI does is something that the machine does. -/
theorem run_machine {s s' : State} {ls : List Label} (h : Run (Step x) s ls s') :
    Run (MachineStep x) (.on s) (ls.map .did) (.on s') := by
  induction h with
  | nil => exact .nil _
  | snoc _ hstep ih =>
    rw [List.map_append]
    exact ih.snoc (.step _ _ _ hstep)

/-- The first save of all; the process is killed, and the next one has the settings. -/
theorem settings_survive_killed : ∃ (ls : List MachineLabel) (s : State),
    Run (MachineStep ⟨fun digits => digits, fun _ => False⟩) (.off .missing) ls (.on s) ∧
      .killed ∈ ls ∧ s.gui.controller.shared.config = resaved otherHost := by
  let x : Surroundings := ⟨fun digits => digits, fun _ => False⟩
  obtain ⟨ls, s, hrun, s', hsave⟩ := run_save (x := x) (written_resaved ⟨rfl, rfl⟩)
    (saveConfig_loaded (fun _ => rfl) acceptable_otherHost) .missing
  have hpre : Run (MachineStep x) (.off .missing) ([.launched none] ++ ls.map .did) (.on s) :=
    (Run.single (.launch .missing none)).append (run_machine hrun)
  have hpost : Run (MachineStep x) (.on s') [.killed, .launched none] (.on (launch s'.file none)) :=
    (Run.single (.kill s' s'.file (.inl rfl))).snoc (.launch s'.file none)
  have hall := (hpre.snoc (.step s s' _ hsave)).append hpost
  rw [List.append_assoc] at hall
  refine ⟨_, _, hall, by simp, ?_⟩
  have hhas := settings_survive hall fun l hl => ?_
  · exact hhas.1
  · rcases List.mem_pair.mp hl with rfl | rfl <;> exact id

end Desktop

end Torpc
