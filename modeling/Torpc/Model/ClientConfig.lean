import Torpc.Lib.Toml
import Torpc.Model.ClientProxy

/-!
# The wallet side's configuration file

The GUI and the CLI read and write one file, each as its own record:
`load_config` and `save_config` of the GUI with the `ProxyConfig` that a proxy
runs with, and `Config` of `torpc-proxy-core/src/config.rs` with `start_proxy` of
the CLI.
-/

namespace Torpc

open Toml

-- ---------------------------------------------------------------------------
-- config.rs
-- ---------------------------------------------------------------------------

/-- `Config`. -/
structure Config where
  port : UInt16
  torProxyHost : String
  torProxyPort : UInt16
  onionEndpoint : String
  logLevel : String
  deriving DecidableEq, Repr

def defaultPort : UInt16 := 8545
def defaultTorHost : String := "127.0.0.1"
def defaultTorPort : UInt16 := 9050
def defaultLogLevel : String := "info"

namespace Config

/-- `Config::default`. -/
def default : Config := ⟨defaultPort, defaultTorHost, defaultTorPort, "", defaultLogLevel⟩

/-- `Config::load_from_file`. -/
def loadFromFile (file : Table) : Option Config := do
  let port ← file.withDefault "port" uint16 defaultPort
  let torProxyHost ← file.withDefault "tor_proxy_host" string defaultTorHost
  let torProxyPort ← file.withDefault "tor_proxy_port" uint16 defaultTorPort
  let onionEndpoint ← file.withDefault "onion_endpoint" string ""
  let logLevel ← file.withDefault "log_level" string defaultLogLevel
  some ⟨port, torProxyHost, torProxyPort, onionEndpoint, logLevel⟩

/-- `save_to_file`. -/
def saveToFile (config : Config) : Table where
  fields := [
    ("port", .integer config.port.toNat),
    ("tor_proxy_host", .string config.torProxyHost),
    ("tor_proxy_port", .integer config.torProxyPort.toNat),
    ("onion_endpoint", .string config.onionEndpoint),
    ("log_level", .string config.logLevel)]
  nodup := by simp

/-- `tor_proxy_addr`. -/
def torProxyAddr (config : Config) : Net.SocketAddr :=
  (Net.SocketAddr.parse
    (config.torProxyHost ++ ":" ++ String.ofList (Net.decimal config.torProxyPort.toNat))).getD
      (.ofV4 127 0 0 1 9050)

end Config

-- ---------------------------------------------------------------------------
-- The CLI
-- ---------------------------------------------------------------------------

/-- The flags of `start`. -/
structure Overrides where
  port : Option UInt16
  onion : Option String
  torHost : Option String
  torPort : Option UInt16

def Overrides.none : Overrides := ⟨.none, .none, .none, .none⟩

/-- How `start_proxy` ends before it has run a proxy. -/
inductive StartFailure where
  | error (context : String)
  | exit (code : Nat) (messages : List String)
  deriving DecidableEq, Repr

/-- The configuration after the flags. -/
def Config.override (config : Config) (o : Overrides) : Config :=
  { config with
    port := o.port.getD config.port
    onionEndpoint := o.onion.getD config.onionEndpoint
    torProxyHost := o.torHost.getD config.torProxyHost
    torProxyPort := o.torPort.getD config.torProxyPort }

/-- The `ProxyConfig` that `start_proxy` runs a proxy with. No file is no error. -/
def startProxy (file : Option Table) (o : Overrides) : Except StartFailure ProxyConfig := do
  let config ← match file with
    | some file =>
      match Config.loadFromFile file with
      | some config => .ok config
      | none => .error (.error "Failed to load configuration")
    | none => .ok .default
  let config := config.override o
  if config.onionEndpoint = "" then
    .error (.exit 1 ["No onion endpoint specified!",
      "Provide --onion <addr.onion:port> or set onion_endpoint in the config file"])
  else .ok ⟨.ofV4 127 0 0 1 config.port, config.torProxyAddr, config.onionEndpoint⟩

/-- The configuration that `test_tor_connectivity` goes by: a file that does not
load is no error either. -/
def testConfig : Option Table → Config
  | some file => (Config.loadFromFile file).getD .default
  | none => .default

/-- `test_tor_connectivity` up to its first probe, as the address it probes. -/
def testTorConnectivity (file : Option Table) (torHostOverride : Option String)
    (torPortOverride : Option UInt16) : Except String Net.SocketAddr :=
  let config := testConfig file
  let torHost := torHostOverride.getD config.torProxyHost
  let torPort := torPortOverride.getD config.torProxyPort
  let text := torHost ++ ":" ++ String.ofList (Net.decimal torPort.toNat)
  match Net.SocketAddr.parse text with
  | some torAddr => .ok torAddr
  | none => .error ("Invalid Tor SOCKS5 address: " ++ text)

/-- The configuration that `start_proxy` goes by, unless the file does not load. -/
def startConfig (file : Option Table) (o : Overrides) : Option Config :=
  match file with
  | some file => (Config.loadFromFile file).map fun config => config.override o
  | none => some (Config.default.override o)

/-- `start_proxy` fails on that file, asks for an endpoint, or goes ahead. -/
theorem startProxy_eq (file : Option Table) (o : Overrides) :
    startProxy file o = match startConfig file o with
      | none => .error (.error "Failed to load configuration")
      | some config =>
        if config.onionEndpoint = "" then
          .error (.exit 1 ["No onion endpoint specified!",
            "Provide --onion <addr.onion:port> or set onion_endpoint in the config file"])
        else .ok ⟨.ofV4 127 0 0 1 config.port, config.torProxyAddr, config.onionEndpoint⟩ := by
  cases file with
  | none => rfl
  | some file =>
    unfold startProxy startConfig
    cases hloaded : Config.loadFromFile file with
    | none => simp only [hloaded]; rfl
    | some config => simp only [hloaded]; rfl

/-- The CLI starts a proxy just if its file and flags make a configuration with an endpoint
in it; it listens on 127.0.0.1, whatever the file says. -/
theorem startProxy_ok_iff {file : Option Table} {o : Overrides} {p : ProxyConfig} :
    startProxy file o = .ok p ↔ ∃ config, startConfig file o = some config ∧
      config.onionEndpoint ≠ "" ∧
      p = ⟨.ofV4 127 0 0 1 config.port, config.torProxyAddr, config.onionEndpoint⟩ := by
  rw [startProxy_eq]
  cases startConfig file o with
  | none => simp
  | some config =>
    dsimp only
    split
    · next hnone => simp [hnone]
    · next hsome =>
      constructor
      · rintro ⟨⟩
        exact ⟨config, rfl, hsome, rfl⟩
      · rintro ⟨_, ⟨⟩, -, rfl⟩
        rfl

/-- `start` and `test` read a file that loads alike. -/
theorem startConfig_eq_some {file : Option Table} {o : Overrides} {config : Config}
    (h : startConfig file o = some config) : config = (testConfig file).override o := by
  cases file with
  | none => exact (Option.some.inj h).symm
  | some file =>
    obtain ⟨loaded, hfile, rfl⟩ := Option.map_eq_some_iff.mp h
    rw [testConfig, hfile, Option.getD_some]

-- ---------------------------------------------------------------------------
-- The GUI
-- ---------------------------------------------------------------------------

def defaultConfig : ProxyConfig := ⟨.ofV4 127 0 0 1 8545, .ofV4 127 0 0 1 9050, ""⟩

def loadConfig : Option Table → Option ProxyConfig
  | some file => do
    let listenAddr ← file.required "listen_addr" (viaString Net.SocketAddr.parse)
    let torProxy ← file.required "tor_proxy" (viaString Net.SocketAddr.parse)
    let onionEndpoint ← file.required "onion_endpoint" string
    some ⟨listenAddr, torProxy, onionEndpoint⟩
  | none => some defaultConfig

def saveConfig (config : ProxyConfig) : Table where
  fields := [
    ("listen_addr", .string config.listenAddr.display),
    ("tor_proxy", .string config.torProxy.display),
    ("onion_endpoint", .string config.onionEndpoint)]
  nodup := by simp

-- ---------------------------------------------------------------------------
-- What each of them makes of a file
-- ---------------------------------------------------------------------------

/-- The CLI's reading of a file, without flags. -/
theorem startProxy_loaded {file : Table} {config : Config}
    (h : Config.loadFromFile file = some config) :
    startProxy (some file) .none =
      if config.onionEndpoint = "" then
        .error (.exit 1 ["No onion endpoint specified!",
          "Provide --onion <addr.onion:port> or set onion_endpoint in the config file"])
      else .ok ⟨.ofV4 127 0 0 1 config.port, config.torProxyAddr, config.onionEndpoint⟩ := by
  rw [startProxy_eq, startConfig, h]
  rfl

/-- The GUI loads a file just if all its three keys are there and can be decoded. -/
theorem loadConfig_eq_some {file : Table} {p : ProxyConfig} :
    loadConfig (some file) = some p ↔
      file.required "listen_addr" (viaString Net.SocketAddr.parse) = some p.listenAddr ∧
      file.required "tor_proxy" (viaString Net.SocketAddr.parse) = some p.torProxy ∧
      file.required "onion_endpoint" string = some p.onionEndpoint := by
  simp only [loadConfig, Option.bind_eq_bind, Option.bind_eq_some_iff]
  constructor
  · rintro ⟨l, hl, t, ht, o, ho, hp⟩
    cases hp
    exact ⟨hl, ht, ho⟩
  · rintro ⟨hl, ht, ho⟩
    exact ⟨_, hl, _, ht, _, ho, rfl⟩

/-- The CLI finds one of the GUI's three fields, and takes the defaults. -/
theorem loadFromFile_saveConfig (c : ProxyConfig) :
    Config.loadFromFile (saveConfig c) =
      some ⟨defaultPort, defaultTorHost, defaultTorPort, c.onionEndpoint, defaultLogLevel⟩ :=
  rfl

/-- A port that is written as an integer is read back. -/
theorem uint16_toNat (n : UInt16) : uint16 (.integer n.toNat) = some n := by
  have hlt := n.toNat_lt
  have hrange : (0 : Int) ≤ n.toNat ∧ (n.toNat : Int) < 2 ^ 16 := by omega
  rw [uint16, if_pos hrange, Int.toNat_natCast, UInt16.ofNat_toNat]

/-- A `Config` that is saved to its own file is loaded from it again as it was. -/
theorem loadFromFile_saveToFile (config : Config) :
    Config.loadFromFile config.saveToFile = some config := by
  have hgetPort : config.saveToFile.get "port" = some (.integer config.port.toNat) := rfl
  have hgetTor : config.saveToFile.get "tor_proxy_port" =
      some (.integer config.torProxyPort.toNat) := rfl
  have hport := (Table.withDefault_of_get hgetPort defaultPort).trans (uint16_toNat config.port)
  have htor := (Table.withDefault_of_get hgetTor defaultTorPort).trans
    (uint16_toNat config.torProxyPort)
  have hhost : config.saveToFile.withDefault "tor_proxy_host" string defaultTorHost =
      some config.torProxyHost := rfl
  have honion : config.saveToFile.withDefault "onion_endpoint" string "" =
      some config.onionEndpoint := rfl
  have hlog : config.saveToFile.withDefault "log_level" string defaultLogLevel =
      some config.logLevel := rfl
  simp only [Config.loadFromFile, hport, hhost, htor, honion, hlog, Option.bind_eq_bind,
    Option.bind_some]

/-- It has none of the fields that only the GUI asks for. -/
theorem loadConfig_saveToFile (config : Config) : loadConfig (some config.saveToFile) = none :=
  rfl

end Torpc
