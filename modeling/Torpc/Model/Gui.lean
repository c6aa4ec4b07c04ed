import Torpc.Lib.Prog
import Torpc.Lib.Text
import Torpc.Model.ClientConfig
import Torpc.Model.Lifecycle

/-!
# The desktop GUI

`torpc-proxy-gui/src/main.rs`: the commands of the settings window and the events
of the tray. All of them go through one `Mutex<ProxyController>`, so each is a
program of calls that runs with nobody else's calls in between, while the tasks
that earlier calls have spawned go on as they like.
-/

namespace Torpc

open Effects Prog Tasks

-- ---------------------------------------------------------------------------
-- Commands
-- ---------------------------------------------------------------------------

/-- The type of a call's answer. -/
abbrev Controller.Call.Res : Controller.Call → Type
  | .start | .stop | .updateConfig _ => Unit
  | .isRunning => Bool
  | .getStatus => ProxyStatus
  | .getConfig => ProxyConfig

/-- What an answer says to the call it is for. -/
def Controller.Answer.toRes : (c : Controller.Call) → Controller.Answer → Option c.Res
  | .start, .unit => some ()
  | .stop, .unit => some ()
  | .updateConfig _, .unit => some ()
  | .isRunning, .running b => some b
  | .getStatus, .status s => some s
  | .getConfig, .config c => some c
  | _, _ => none

namespace Gui

/-- What the window and the tray ask for. -/
inductive Command where
  | getStatus
  | startProxy
  | stopProxy
  | getConfig
  | updateConfig (config : ProxyConfig)
  | trayStart
  | trayStop
  | trayQuit
  deriving DecidableEq, Repr

abbrev Program := Prog Controller.Call Controller.Call.Res (Except String Controller.Answer)

/-- One call on the controller. -/
abbrev ask (c : Controller.Call) : Prog Controller.Call Controller.Call.Res c.Res := perform c

/-- `trim().is_empty()`. -/
def isBlank (text : String) : Bool := (Text.trim Text.isWhitespace text.toList).isEmpty

def noEndpoint : String :=
  "No onion endpoint configured. Open Settings and enter the .onion address before " ++
    "starting the proxy."

/-- `start_proxy`. -/
def startProxy : Program := do
  let config ← ask .getConfig
  if isBlank config.onionEndpoint then return .error noEndpoint
  else
    ask .start
    return .ok .unit

/-- The calls a command makes with the mutex in its hands. `update_config` then
tries to write the file, and the process ends with `trayQuit`. -/
def Command.program : Command → Program
  | .getStatus => do
    let status ← ask .getStatus
    return .ok (.status status)
  | .startProxy => Gui.startProxy
  | .stopProxy | .trayStop | .trayQuit => do
    ask .stop
    return .ok .unit
  | .getConfig => do
    let config ← ask .getConfig
    return .ok (.config config)
  | .updateConfig config => do
    ask (.updateConfig config)
    return .ok .unit
  | .trayStart => do
    ask .start
    return .ok .unit

-- ---------------------------------------------------------------------------
-- One command at a time
-- ---------------------------------------------------------------------------

/-- A command that has the mutex, what is left of it, and the call it waits for. -/
structure Session where
  command : Command
  rest : Program
  waiting : Option Nat

structure State where
  controller : Controller.State
  session : Option Session

inductive Label where
  | locked (command : Command)
  | calls (i : Nat) (c : Controller.Call)
  | task (l : controller.Label)
  | unlocked (result : Except String Controller.Answer)

/-- A step that is no call, and does not answer the call that the session waits for. -/
def Aside (session : Option Session) : controller.Label → Prop
  | .call _ _ => False
  | .act i (Controller.Event.returned _) _ => ∀ s, session = some s → s.waiting ≠ some i
  | _ => True

/-- One step of the GUI. -/
inductive Step : State → Label → State → Prop where
  | lock (s : Controller.State) (command : Command) :
      Step ⟨s, none⟩ (.locked command) ⟨s, some ⟨command, command.program, none⟩⟩
  | calls (s : Controller.State) (command : Command) (c : Controller.Call)
      (k : c.Res → Program) :
      Step ⟨s, some ⟨command, .op c k, none⟩⟩ (.calls s.next c)
        ⟨s.add (Controller.enter c), some ⟨command, .op c k, some s.next⟩⟩
  | answered (s s' : Controller.State) (command : Command) (c : Controller.Call)
      (k : c.Res → Program) (i : Nat) (answer : Controller.Answer) (spawned : Option Nat)
      (r : c.Res) (hr : answer.toRes c = some r)
      (h : Machine.Step controller s (.act i (Controller.Event.returned answer) spawned) s') :
      Step ⟨s, some ⟨command, .op c k, some i⟩⟩
        (.task (.act i (Controller.Event.returned answer) spawned))
        ⟨s', some ⟨command, k r, none⟩⟩
  | task (s s' : Controller.State) (session : Option Session) (l : controller.Label)
      (hl : Aside session l) (h : Machine.Step controller s l s') :
      Step ⟨s, session⟩ (.task l) ⟨s', session⟩
  /-- the guard is dropped; for `trayQuit`, which exits with its guard in its hands, this is the
  end of the process -/
  | unlock (s : Controller.State) (command : Command)
      (result : Except String Controller.Answer) :
      Step ⟨s, some ⟨command, .pure result, none⟩⟩ (.unlocked result) ⟨s, none⟩

/-- The GUI with the configuration it has loaded. -/
def start (config : ProxyConfig) (discoveryAddr : Option Net.SocketAddr) : State :=
  ⟨controller.start (Controller.new config discoveryAddr), none⟩

end Gui

end Torpc
