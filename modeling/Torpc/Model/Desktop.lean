import Torpc.Model.Gui
import Torpc.Model.Probe
import Torpc.Model.SettingsForm

/-!
# The desktop application

The settings window of `torpc-proxy-gui` with what is behind it: the handlers of
`ui/app.js`, which go from one `invoke` to the next and are at home in a page of
their own; the commands of `src/main.rs`, which take turns at the controller's
mutex with the events of the tray; the file that `update_config` writes and a
launch reads; and the process, which `Quit` ends and the user starts again.

Between an `invoke` and its answer anything may happen. A click may come at any
time: that the page disables or hides a button only takes clicks away.
-/

namespace Torpc

open Effects Prog

namespace Desktop

-- ---------------------------------------------------------------------------
-- What goes between the page and the commands
-- ---------------------------------------------------------------------------

/-- A `ProxyConfig` as the page gets it: the addresses are texts. -/
def toPage (config : ProxyConfig) : SettingsForm.Config where
  listenAddr := config.listenAddr.display.toList
  torProxy := config.torProxy.display.toList
  onionEndpoint := config.onionEndpoint.toList

/-- The argument of `update_config`; a text that is no address is refused. -/
def ofPage (config : SettingsForm.Config) : Option ProxyConfig := do
  let listenAddr ← Net.SocketAddr.parse (String.ofList config.listenAddr)
  let torProxy ← Net.SocketAddr.parse (String.ofList config.torProxy)
  some ⟨listenAddr, torProxy, String.ofList config.onionEndpoint⟩

/-- What the page can invoke besides the test. -/
inductive Request where
  | getStatus
  | startProxy
  | stopProxy
  | getConfig
  | updateConfig (config : SettingsForm.Config)

namespace Request

abbrev Res : Request → Type
  | .getStatus => ProxyStatus
  | .getConfig => SettingsForm.Config
  | .startProxy | .stopProxy | .updateConfig _ => Unit

/-- The command with its arguments, if they can be read. -/
def command : Request → Option Gui.Command
  | .getStatus => some .getStatus
  | .startProxy => some .startProxy
  | .stopProxy => some .stopProxy
  | .getConfig => some .getConfig
  | .updateConfig config => (ofPage config).map .updateConfig

/-- A command's answer, as the page gets it. -/
def answer : (r : Request) → Controller.Answer → Option r.Res
  | .getStatus, .status s => some s
  | .getConfig, .config c => some (toPage c)
  | .startProxy, .unit => some ()
  | .stopProxy, .unit => some ()
  | .updateConfig _, .unit => some ()
  | _, _ => none

def result (r : Request) : Except String Controller.Answer → Option (Except String r.Res)
  | .ok answer => (r.answer answer).map .ok
  | .error e => some (.error e)

end Request

/-- What `updateStatus` puts on the page. -/
structure View where
  dot : String
  text : String
  startBtn : Bool
  stopBtn : Bool
  /-- the URL of the proxy, when it is shown -/
  proxyUrl : Option String

/-- What the user gets to see. -/
inductive Notice where
  | toast (t : SettingsForm.Toast)
  /-- the toast with this text is taken away -/
  | dismiss (text : String)
  | errorModal (title body : String)
  | startButton (enabled : Bool) (text : String)
  | status (view : View)
  | statusUnknown
  /-- the inputs of the form; `none` leaves one as it is -/
  | inputs (onionEndpoint listenPort : List Char) (torProxy : Option (List Char))

inductive PageOp where
  | invoke (r : Request)
  | testConnection (onionEndpoint torProxy : List Char)
  | notify (n : Notice)

abbrev PageOp.Res : PageOp → Type
  | .invoke r => Except String r.Res
  | .testConnection _ _ => Except String String
  | .notify _ => Unit

abbrev Page := Prog PageOp PageOp.Res Unit

def notify (n : Notice) : Prog PageOp PageOp.Res Unit := perform (PageOp.notify n)

def invoke (r : Request) : Prog PageOp PageOp.Res (Except String r.Res) := perform (PageOp.invoke r)

def toast (text kind : String) (duration : Option Nat) : Page :=
  notify (.toast ⟨text, kind, duration⟩)

-- ---------------------------------------------------------------------------
-- app.js
-- ---------------------------------------------------------------------------

/-- `listen_addr.split(':').pop()`. -/
def portOf (listenAddr : List Char) : List Char := ((listenAddr.splitOn ':').getLast?).getD []

/-- The `switch` of `updateStatus`. -/
def statusView (config : SettingsForm.Config) : ProxyStatus → View
  | .running =>
    ⟨"running", "Proxy is running", false, true,
      some ("http://localhost:" ++ String.ofList (portOf config.listenAddr))⟩
  | .stopped => ⟨"stopped", "Proxy is stopped", true, false, none⟩
  | .starting => ⟨"starting", "Starting proxy...", false, false, none⟩
  | .stopping => ⟨"stopping", "Stopping proxy...", false, false, none⟩
  | .error message => ⟨"stopped", "Error: " ++ message, true, false, none⟩

def updateStatus : Page := do
  match ← invoke .getStatus with
  | .error _ => notify .statusUnknown
  | .ok status =>
    match ← invoke .getConfig with
    | .error _ => notify .statusUnknown
    | .ok config => notify (.status (statusView config status))

/-- The values that `loadConfig` gives the inputs. -/
def formInputs (config : SettingsForm.Config) : Notice :=
  let parts := config.torProxy.splitOn ':'
  let torProxyPort := parts.getLast?.getD []
  let torProxyHost := [':'].intercalate parts.dropLast
  .inputs config.onionEndpoint (portOf config.listenAddr)
    (if 2 ≤ parts.length then some (torProxyHost ++ ':' :: torProxyPort) else none)

def loadConfig : Page := do
  match ← invoke .getConfig with
  | .error _ => toast "Failed to load configuration" "error" (some 4000)
  | .ok config => notify (formInputs config)

/-- `saveConfig`; the form decides on the inputs. -/
def saveConfig (parseIntText : List Char → List Char) (inputs : SettingsForm.Inputs) : Page :=
  match SettingsForm.saveConfig parseIntText inputs with
  | .toast t => notify (.toast t)
  | .updateConfig config answered => do
    let result ← invoke (.updateConfig config)
    notify (.toast (answered result))

def verifying : String :=
  "Verifying connection to the onion endpoint (this can take up to 30 seconds)…"

def restoreButton : Page := notify (.startButton true "Start Proxy")

/-- The `catch` of `startProxy`. -/
def startFailed (error : String) : Page := do
  toast ("Failed to start proxy: " ++ error) "error" (some 4000)
  restoreButton

def startVerified : Page := do
  notify (.dismiss verifying)
  notify (.startButton false "Starting…")
  toast "Verification passed. Starting proxy…" "info" (some 0)
  match ← invoke .startProxy with
  | .error error => startFailed error
  | .ok _ =>
    updateStatus
    notify (.dismiss "Verification passed. Starting proxy…")
    toast "Proxy is running." "success" (some 4000)
    restoreButton

def startProxy : Page := do
  match ← invoke .getConfig with
  | .error error => startFailed error
  | .ok config =>
    if Text.trim SettingsForm.isSpace config.onionEndpoint = [] then
      toast "Please configure the onion endpoint first" "error" (some 4000)
    else
      notify (.startButton false "Verifying…")
      toast verifying "info" (some 0)
      match ← (perform (PageOp.testConnection config.onionEndpoint config.torProxy) :
        Prog PageOp PageOp.Res (Except String String)) with
      | .error testError =>
        notify (.dismiss verifying)
        notify (.errorModal "Cannot start proxy" testError)
        restoreButton
      | .ok _ => startVerified

def stopProxy : Page := do
  toast "Stopping proxy…" "info" (some 0)
  match ← invoke .stopProxy with
  | .error error =>
    notify (.dismiss "Stopping proxy…")
    toast ("Failed to stop proxy: " ++ error) "error" (some 4000)
  | .ok _ =>
    notify (.dismiss "Stopping proxy…")
    toast "Proxy stopped." "success" (some 4000)

/-- What sets a handler going. -/
inductive Event where
  | domContentLoaded
  | interval
  | submit (inputs : SettingsForm.Inputs)
  | startClick
  | stopClick

def Event.handler (parseIntText : List Char → List Char) : Event → Page
  | .domContentLoaded => do
    loadConfig
    updateStatus
  | .interval => updateStatus
  | .submit inputs => saveConfig parseIntText inputs
  | .startClick => startProxy
  | .stopClick => stopProxy

-- ---------------------------------------------------------------------------
-- The file
-- ---------------------------------------------------------------------------

/-- What there is at the path of the settings: a table, or text that is none. -/
inductive SettingsFile where
  | missing
  | table (t : Toml.Table)
  | unreadable

/-- `load_config`, and the defaults that `main` puts where it fails. -/
def launchConfig : SettingsFile → ProxyConfig
  | .missing => (Torpc.loadConfig none).getD defaultConfig
  | .table t => (Torpc.loadConfig (some t)).getD defaultConfig
  | .unreadable => defaultConfig

/-- How `save_config` comes out. -/
inductive Write where
  | saved
  /-- there is no directory for it, or it cannot be opened -/
  | untouched
  /-- a part of the text is in it, from which nothing can be loaded -/
  | torn
  deriving DecidableEq, Repr

def Write.apply (config : ProxyConfig) (file : SettingsFile) : Write → SettingsFile
  | .saved => .table (Torpc.saveConfig config)
  | .untouched => file
  | .torn => .unreadable

/-- What a command does to the file before it lets go of the mutex. -/
inductive Persists : Gui.Command → SettingsFile → Option Write → SettingsFile → Prop where
  | update (config : ProxyConfig) (file : SettingsFile) (w : Write) :
      Persists (.updateConfig config) file (some w) (w.apply config file)
  | other (command : Gui.Command) (file : SettingsFile)
      (h : ∀ config, command ≠ .updateConfig config) : Persists command file none file

-- ---------------------------------------------------------------------------
-- One process
-- ---------------------------------------------------------------------------

structure State where
  gui : Gui.State
  /-- the handler that the session works for; none when it is the tray's -/
  owner : Option Nat
  file : SettingsFile
  /-- the handlers of the page, each with what is left of it -/
  handlers : Nat → Option Page
  next : Nat

inductive Label where
  | event (i : Nat) (e : Event)
  | notified (i : Nat) (n : Notice)
  | refused (i : Nat) (message : String)
  | tested (i : Nat) (onionEndpoint torProxy : List Char) (result : Except String String)
  | locked (owner : Option Nat) (command : Gui.Command)
  | inside (l : Gui.Label)
  | unlocked (owner : Option Nat) (command : Gui.Command)
      (result : Except String Controller.Answer) (write : Option Write)
  | ended (i : Nat)

/-- What the tray asks for. -/
def IsTray (command : Gui.Command) : Prop :=
  command = .trayStart ∨ command = .trayStop ∨ command = .trayQuit

/-- A step of the GUI within a session, or of a task. -/
def IsInside : Gui.Label → Prop
  | .calls _ _ => True
  | .task _ => True
  | _ => False

/-- What is outside: how the page writes a number, and what the network does in a test. -/
structure Surroundings where
  parseIntText : List Char → List Char
  network : ProbeNetwork → Prop

/-- Handler `i` goes on. -/
def State.goesOn (s : State) (i : Nat) (rest : Page) : State :=
  { s with handlers := Function.update s.handlers i (some rest) }

/-- The mutex is taken for a command. -/
def State.lock (s : State) (owner : Option Nat) (command : Gui.Command) : State :=
  { s with gui := ⟨s.gui.controller, some ⟨command, command.program, none⟩⟩, owner }

/-- And let go of. -/
def State.unlock (s : State) (file : SettingsFile) : State :=
  { s with gui := ⟨s.gui.controller, none⟩, owner := none, file }

inductive Step (x : Surroundings) : State → Label → State → Prop where
  | event (s : State) (e : Event) :
      Step x s (.event s.next e)
        { s with
          handlers := Function.update s.handlers s.next (some (e.handler x.parseIntText))
          next := s.next + 1 }
  | notify (s : State) (i : Nat) (n : Notice) (k : Unit → Page)
      (hi : s.handlers i = some (.op (.notify n) k)) :
      Step x s (.notified i n) (s.goesOn i (k ()))
  | refuse (s : State) (i : Nat) (r : Request) (k : Except String r.Res → Page)
      (message : String) (hi : s.handlers i = some (.op (.invoke r) k)) (hr : r.command = none) :
      Step x s (.refused i message) (s.goesOn i (k (.error message)))
  | test (s : State) (i : Nat) (onionEndpoint torProxy : List Char)
      (k : Except String String → Page) (net : ProbeNetwork) (hnet : x.network net)
      (hi : s.handlers i = some (.op (.testConnection onionEndpoint torProxy) k)) :
      Step x s
        (.tested i onionEndpoint torProxy
          (testConnection net (String.ofList onionEndpoint) (String.ofList torProxy)))
        (s.goesOn i
          (k (testConnection net (String.ofList onionEndpoint) (String.ofList torProxy))))
  | lock (s : State) (i : Nat) (r : Request) (k : Except String r.Res → Page)
      (command : Gui.Command) (hi : s.handlers i = some (.op (.invoke r) k))
      (hr : r.command = some command) (hfree : s.gui.session = none) :
      Step x s (.locked (some i) command) (s.lock (some i) command)
  | tray (s : State) (command : Gui.Command) (htray : IsTray command)
      (hfree : s.gui.session = none) :
      Step x s (.locked none command) (s.lock none command)
  | inside (s : State) (l : Gui.Label) (gui : Gui.State) (hl : IsInside l)
      (h : Gui.Step s.gui l gui) : Step x s (.inside l) { s with gui }
  | answer (s : State) (i : Nat) (r : Request) (k : Except String r.Res → Page)
      (command : Gui.Command) (result : Except String Controller.Answer)
      (value : Except String r.Res) (write : Option Write) (file : SettingsFile)
      (howner : s.owner = some i) (hi : s.handlers i = some (.op (.invoke r) k))
      (hsession : s.gui.session = some ⟨command, .pure result, none⟩)
      (hvalue : r.result result = some value) (hfile : Persists command s.file write file) :
      Step x s (.unlocked (some i) command result write) ((s.unlock file).goesOn i (k value))
  | trayDone (s : State) (command : Gui.Command) (result : Except String Controller.Answer)
      (howner : s.owner = none) (hsession : s.gui.session = some ⟨command, .pure result, none⟩)
      (hquit : command ≠ .trayQuit) :
      Step x s (.unlocked none command result none) (s.unlock s.file)
  | ended (s : State) (i : Nat) (hi : s.handlers i = some (.pure ())) :
      Step x s (.ended i) { s with handlers := Function.update s.handlers i none }

/-- What `main` starts with. -/
def launch (file : SettingsFile) (discoveryAddr : Option Net.SocketAddr) : State :=
  ⟨Gui.start (launchConfig file) discoveryAddr, none, file, fun _ => none, 0⟩

-- ---------------------------------------------------------------------------
-- One process after another
-- ---------------------------------------------------------------------------

inductive Machine where
  | off (file : SettingsFile)
  | on (s : State)

inductive MachineLabel where
  | launched (discoveryAddr : Option Net.SocketAddr)
  | did (l : Label)
  | quit
  | killed
  | edited (file : SettingsFile)

/-- What a process leaves when it is killed: a write may have been on its way. -/
def Leaves (s : State) (file : SettingsFile) : Prop :=
  file = s.file ∨ ∃ config result, ∃ w : Write,
    s.gui.session = some ⟨.updateConfig config, .pure result, none⟩ ∧ file = w.apply config s.file

/-- The application from launch to launch; somebody else may write the file as well. -/
inductive MachineStep (x : Surroundings) : Machine → MachineLabel → Machine → Prop where
  | launch (file : SettingsFile) (discoveryAddr : Option Net.SocketAddr) :
      MachineStep x (.off file) (.launched discoveryAddr) (.on (launch file discoveryAddr))
  | step (s s' : State) (l : Label) (h : Step x s l s') : MachineStep x (.on s) (.did l) (.on s')
  | quit (s : State) (result : Except String Controller.Answer)
      (h : s.gui.session = some ⟨.trayQuit, .pure result, none⟩) :
      MachineStep x (.on s) .quit (.off s.file)
  | kill (s : State) (file : SettingsFile) (h : Leaves s file) :
      MachineStep x (.on s) .killed (.off file)
  | editOff (file file' : SettingsFile) : MachineStep x (.off file) (.edited file') (.off file')
  | editOn (s : State) (file' : SettingsFile) :
      MachineStep x (.on s) (.edited file') (.on { s with file := file' })

end Desktop

end Torpc
