import Torpc.Lib.Tasks
import Torpc.Model.ClientProxy

/-!
# The life of a wallet-side proxy

`ProxyController` of `torpc-proxy-core/src/lib.rs` with the tasks it sets going:
`TorRpcProxy::run` accepts connections in a task of the controller's, and spawns
one task for each connection and one for the discovery server. The controller
keeps the handle of the first alone.

An operation is followed from await to await. Its three locks are those of the
struct; a guard that is dropped before the next await is not seen, so what a
waiting operation can hold is the status while it waits for the handle, and the
handle from there on. Anybody may call anything at any time.
-/

namespace Torpc

open Tasks

inductive ProxyStatus where
  | stopped
  | starting
  | running
  | stopping
  | error (message : String)
  deriving DecidableEq, Repr

namespace Controller

inductive Lock where
  | config
  | status
  | handle
  deriving DecidableEq, Repr

inductive Call where
  | start
  | stop
  | updateConfig (newConfig : ProxyConfig)
  | isRunning
  | getStatus
  | getConfig
  deriving DecidableEq, Repr

inductive Answer where
  | unit
  | running (b : Bool)
  | status (s : ProxyStatus)
  | config (c : ProxyConfig)
  deriving DecidableEq, Repr

/-- The awaits of `start`. -/
inductive StartPc where
  | lockStatus
  | lockHandle
  | readConfig
  deriving DecidableEq, Repr

/-- The awaits of `stop`. -/
inductive StopPc where
  | lockStatus
  | lockHandle
  | join (task : Nat)
  | setStopped
  deriving DecidableEq, Repr

/-- Where a call waits; `update_config` goes through `stop` and `start`. -/
inductive CallPc where
  | readStatus
  | readConfig
  | start (pc : StartPc)
  | stop (pc : StopPc)
  | writeConfig (restart : Bool)
  /-- nothing left to wait for -/
  | finish
  deriving DecidableEq, Repr

/-- Where the controller's task waits, in `start` and in `run`. -/
inductive ProxyPc where
  /-- not polled yet: it does not even wait for the status -/
  | spawned
  | setRunning
  | bind
  | accept
  | setError (message : String)
  deriving DecidableEq, Repr

inductive Task where
  | call (c : Call) (pc : CallPc)
  | proxy (config : ProxyConfig) (pc : ProxyPc)
  | connection (config : ProxyConfig)
  | discovery (addr : Net.SocketAddr) (config : ProxyConfig) (token : String) (listening : Bool)
  | discoveryRequest (config : ProxyConfig) (token : String)
  deriving DecidableEq, Repr

/-- The controller, the tasks that have been told to stop, and what the discovery
server depends on: the address it is enabled on and the token file. -/
structure Shared where
  config : ProxyConfig
  status : ProxyStatus
  handle : Option Nat
  aborted : List Nat
  discoveryAddr : Option Net.SocketAddr
  tokenFile : Option String
  deriving DecidableEq, Repr

/-- How the surroundings answer a task that waits. -/
inductive Choice where
  /-- it goes on: the lock is there, the port is bound, somebody connects, a request comes -/
  | ready
  | failed (message : String)
  /-- the random token of a discovery server, and whether it could be written down -/
  | token (token : String) (persisted : Bool)
  /-- the other end closes the connection -/
  | closed

inductive Event where
  | progress
  | stored (newConfig : ProxyConfig)
  | returned (answer : Answer)
  | accepted
  | forwarded (onionEndpoint : String)
  deriving DecidableEq, Repr

abbrev Effect := Tasks.Effect Shared Task Event

/-- The first await of a call. -/
def enter : Call → Task
  | .start => .call .start (.start .lockStatus)
  | .stop => .call .stop (.stop .lockStatus)
  | .updateConfig newConfig => .call (.updateConfig newConfig) .readStatus
  | .isRunning => .call .isRunning .readStatus
  | .getStatus => .call .getStatus .readStatus
  | .getConfig => .call .getConfig .readConfig

def Task.awaits : Task → Option (Lock × Mode)
  | .call _ .readStatus => some (.status, .read)
  | .call _ .readConfig => some (.config, .read)
  | .call _ (.start .lockStatus) => some (.status, .write)
  | .call _ (.start .lockHandle) => some (.handle, .write)
  | .call _ (.start .readConfig) => some (.config, .read)
  | .call _ (.stop .lockStatus) => some (.status, .write)
  | .call _ (.stop .lockHandle) => some (.handle, .write)
  | .call _ (.stop (.join _)) => none
  | .call _ (.stop .setStopped) => some (.status, .write)
  | .call _ (.writeConfig _) => some (.config, .write)
  | .call _ .finish => none
  | .proxy _ .setRunning => some (.status, .write)
  | .proxy _ (.setError _) => some (.status, .write)
  | _ => none

def Task.holds : Task → Lock → Option Mode
  | .call _ (.start .lockHandle), .status => some .write
  | .call _ (.start .readConfig), .handle => some .write
  | .call _ (.stop .lockHandle), .status => some .write
  | .call _ (.stop (.join _)), .handle => some .write
  | .call _ (.stop .setStopped), .handle => some .write
  | _, _ => none

/-- The address a task listens on; port 0 is a free one each time. -/
def Task.listens : Task → Option Net.SocketAddr
  | .proxy config .accept => if config.listenAddr.port = 0 then none else some config.listenAddr
  | .discovery addr _ _ true => if addr.port = 0 then none else some addr
  | _ => none

/-- The configuration whose endpoint a task forwards to. -/
def Task.forwards : Task → Option ProxyConfig
  | .proxy config _ => some config
  | .connection config => some config
  | _ => none

-- ---------------------------------------------------------------------------
-- ProxyController
-- ---------------------------------------------------------------------------

/-- The call goes on to wait at `pc`. -/
def goto (s : Shared) (c : Call) (pc : CallPc) : Effect := ⟨s, some (.call c pc), none, .progress⟩

def returns (s : Shared) (answer : Answer) : Effect := ⟨s, none, none, .returned answer⟩

/-- `start`. The last thing it does is to spawn the proxy's task, which gets the
id `next`, and to keep its handle. -/
def startStep (s : Shared) (next : Nat) (c : Call) : StartPc → Effect
  | .lockStatus => goto s c (.start .lockHandle)
  | .lockHandle =>
    if s.status = .running ∨ s.status = .starting then returns s .unit
    else goto { s with status := .starting } c (.start .readConfig)
  | .readConfig =>
    ⟨{ s with handle := some next }, none, some (.proxy s.config .spawned), .returned .unit⟩

/-- What comes after `stop`: `update_config` goes on to the configuration. -/
def stopDone (s : Shared) : Call → Effect
  | .updateConfig newConfig => goto s (.updateConfig newConfig) (.writeConfig true)
  | _ => returns s .unit

/-- `stop`. -/
def stopStep (s : Shared) (tasks : Nat → Option Task) (c : Call) : StopPc → Option Effect
  | .lockStatus => some (goto s c (.stop .lockHandle))
  | .lockHandle =>
    match s.handle with
    | some h =>
      some (goto { s with handle := none, status := .stopping, aborted := h :: s.aborted } c
        (.stop (.join h)))
    | none => some (stopDone s c)
  | .join h => if (tasks h).isSome then none else some (goto s c (.stop .setStopped))
  | .setStopped => some (stopDone { s with status := .stopped } c)

/-- The calls, from the await they stand at. -/
def callStep (s : Shared) (tasks : Nat → Option Task) (next : Nat) :
    Call → CallPc → Option Effect
  | c, .start pc => some (startStep s next c pc)
  | c, .stop pc => stopStep s tasks c pc
  | .updateConfig newConfig, .readStatus =>
    some (goto s (.updateConfig newConfig)
      (if s.status = .running then .stop .lockStatus else .writeConfig false))
  | .isRunning, .readStatus => some (returns s (.running (decide (s.status = .running))))
  | .getStatus, .readStatus => some (returns s (.status s.status))
  | .updateConfig newConfig, .writeConfig restart =>
    some ⟨{ s with config := newConfig },
      some (.call (.updateConfig newConfig) (if restart then .start .lockStatus else .finish)),
      none, .stored newConfig⟩
  | .updateConfig _, .finish => some (returns s .unit)
  | .getConfig, .readConfig => some (returns s (.config s.config))
  | _, _ => none

-- ---------------------------------------------------------------------------
-- TorRpcProxy
-- ---------------------------------------------------------------------------

/-- Whether an address can be bound: nobody listens on it yet. -/
def addrFree (tasks : Nat → Option Task) (next : Nat) (addr : Net.SocketAddr) : Bool :=
  (List.range next).all fun j => (tasks j).all fun t => t.listens ≠ some addr

/-- The controller's task: it reports that it is running, starts the discovery
server if that is enabled, binds and accepts. -/
def proxyStep (s : Shared) (tasks : Nat → Option Task) (next : Nat) (config : ProxyConfig) :
    ProxyPc → Choice → Option Effect
  | .spawned, .ready => some ⟨s, some (.proxy config .setRunning), none, .progress⟩
  | .setRunning, ch =>
    match s.discoveryAddr, ch with
    | none, .ready =>
      some ⟨{ s with status := .running }, some (.proxy config .bind), none, .progress⟩
    | some addr, .token token persisted =>
      some ⟨{ s with
          status := .running
          tokenFile := if persisted then some token else s.tokenFile },
        some (.proxy config .bind), some (.discovery addr config token false), .progress⟩
    | _, _ => none
  | .bind, .ready =>
    if addrFree tasks next config.listenAddr then
      some ⟨s, some (.proxy config .accept), none, .progress⟩
    else none
  | .bind, .failed _ =>
    some ⟨s, some (.proxy config (.setError ("Failed to bind " ++ config.listenAddr.display))),
      none, .progress⟩
  | .accept, .ready => some ⟨s, some (.proxy config .accept), some (.connection config), .accepted⟩
  | .accept, .failed message =>
    some ⟨s, some (.proxy config (.setError message)), none, .progress⟩
  | .setError message, .ready =>
    some ⟨{ s with status := .error message }, none, none, .progress⟩
  | _, _ => none

/-- `handle_connection`: any number of requests, each forwarded to the endpoint
of the configuration that came with the connection. -/
def connectionStep (s : Shared) (config : ProxyConfig) : Choice → Option Effect
  | .ready => some ⟨s, some (.connection config), none, .forwarded config.onionEndpoint⟩
  | .closed => some ⟨s, none, none, .progress⟩
  | _ => none

/-- The task of `start_discovery_server`. -/
def discoveryStep (s : Shared) (tasks : Nat → Option Task) (next : Nat) (addr : Net.SocketAddr)
    (config : ProxyConfig) (token : String) : Bool → Choice → Option Effect
  | false, .ready =>
    if addrFree tasks next addr then
      some ⟨s, some (.discovery addr config token true), none, .progress⟩
    else none
  | false, .failed _ => some ⟨s, none, none, .progress⟩
  | true, .ready =>
    some ⟨s, some (.discovery addr config token true), some (.discoveryRequest config token),
      .accepted⟩
  -- a failed accept does not end it
  | true, .failed _ => some ⟨s, some (.discovery addr config token true), none, .progress⟩
  | _, _ => none

def discoveryRequestStep (s : Shared) (config : ProxyConfig) (token : String) :
    Choice → Option Effect
  | .ready => some ⟨s, some (.discoveryRequest config token), none, .progress⟩
  | .closed => some ⟨s, none, none, .progress⟩
  | _ => none

def act (s : Shared) (tasks : Nat → Option Task) (next : Nat) : Task → Choice → Option Effect
  | .call c pc, .ready => callStep s tasks next c pc
  | .call _ _, _ => none
  | .proxy config pc, ch => proxyStep s tasks next config pc ch
  | .connection config, ch => connectionStep s config ch
  | .discovery addr config token listening, ch =>
    discoveryStep s tasks next addr config token listening ch
  | .discoveryRequest config token, ch => discoveryRequestStep s config token ch

end Controller

/-- A controller and its tasks. -/
def controller : Machine where
  Shared := Controller.Shared
  Task := Controller.Task
  Lock := Controller.Lock
  Call := Controller.Call
  Choice := Controller.Choice
  Event := Controller.Event
  enter := Controller.enter
  awaits := Controller.Task.awaits
  holds := Controller.Task.holds
  act := Controller.act
  aborted s i := s.aborted.contains i
  lockEq := inferInstance

instance : DecidableEq controller.Call := inferInstanceAs (DecidableEq Controller.Call)
instance : DecidableEq controller.Event := inferInstanceAs (DecidableEq Controller.Event)

/-- `ProxyController::new`, with the discovery server enabled on `discoveryAddr` or not. -/
def Controller.new (config : ProxyConfig) (discoveryAddr : Option Net.SocketAddr) : Shared :=
  ⟨config, .stopped, none, [], discoveryAddr, none⟩

end Torpc
