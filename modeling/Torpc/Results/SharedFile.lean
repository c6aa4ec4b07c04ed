import Torpc.Model.ClientConfig

/-!
# One configuration file, two readers

The GUI writes `listen_addr`, `tor_proxy` and `onion_endpoint`; the CLI reads
`port`, `tor_proxy_host`, `tor_proxy_port` and `onion_endpoint`, ignores the rest
and puts defaults where it finds nothing. So the CLI runs what the GUI saved
only where that is the CLI's own default, and the GUI loads what the CLI runs
only where the file spells the two addresses out a second time in the GUI's
fields (`shared_file_iff`). A file that the CLI itself has written never does
(`cli_file_refused`).
-/

namespace Torpc

open Toml

/-- The CLI, without flags, runs what the GUI has saved. -/
def GuiToCli (c : ProxyConfig) : Prop := startProxy (some (saveConfig c)) .none = .ok c

/-- The GUI loads from this file what the CLI, without flags, runs. -/
def CliToGui (file : Table) : Prop :=
  ∃ c, loadConfig (some file) = some c ∧ startProxy (some file) .none = .ok c

/-- The configuration that the CLI runs by default, whatever the endpoint. -/
def IsCliDefault (c : ProxyConfig) : Prop :=
  c.listenAddr = .ofV4 127 0 0 1 8545 ∧ c.torProxy = .ofV4 127 0 0 1 9050 ∧ c.onionEndpoint ≠ ""

/-- The file has the GUI's fields as well, and there they say what `config` says. -/
structure SpelledTwice (file : Table) (config : Config) : Prop where
  listenAddr : file.required "listen_addr" (viaString Net.SocketAddr.parse) =
    some (.ofV4 127 0 0 1 config.port)
  torProxy : file.required "tor_proxy" (viaString Net.SocketAddr.parse) =
    some config.torProxyAddr
  onionEndpoint : ∃ endpoint, file.required "onion_endpoint" string = some endpoint ∧
    endpoint ≠ ""

/-- The default host and port are dialled as they stand. -/
theorem torProxyAddr_default (port : UInt16) (onionEndpoint logLevel : String) :
    Config.torProxyAddr ⟨port, defaultTorHost, defaultTorPort, onionEndpoint, logLevel⟩ =
      .ofV4 127 0 0 1 9050 := by
  have hparse : Net.SocketAddr.parse
      (defaultTorHost ++ ":" ++ String.ofList (Net.decimal defaultTorPort.toNat)) =
        some (.ofV4 127 0 0 1 9050) := by decide
  rw [Config.torProxyAddr, hparse, Option.getD_some]

/-- Of a configuration that the GUI saved, the CLI keeps the endpoint. -/
theorem startProxy_saveConfig {c : ProxyConfig} (h : c.onionEndpoint ≠ "") :
    startProxy (some (saveConfig c)) .none =
      .ok ⟨.ofV4 127 0 0 1 8545, .ofV4 127 0 0 1 9050, c.onionEndpoint⟩ := by
  rw [startProxy_loaded (loadFromFile_saveConfig c), if_neg h, torProxyAddr_default]
  rfl

/-- What the GUI has saved without an endpoint starts no proxy. -/
theorem startProxy_saveConfig_empty {c : ProxyConfig} (h : c.onionEndpoint = "")
    (p : ProxyConfig) : startProxy (some (saveConfig c)) .none ≠ .ok p := by
  rw [startProxy_loaded (loadFromFile_saveConfig c), if_pos h]
  rintro ⟨⟩

/-- The CLI takes over the GUI's settings just if these are its own defaults. -/
theorem guiToCli_iff (c : ProxyConfig) : GuiToCli c ↔ IsCliDefault c := by
  unfold GuiToCli IsCliDefault
  by_cases h : c.onionEndpoint = ""
  · exact iff_of_false (startProxy_saveConfig_empty h c) fun hc => hc.2.2 h
  · rw [startProxy_saveConfig h, Except.ok.injEq]
    obtain ⟨listenAddr, torProxy, onionEndpoint⟩ := c
    rw [ProxyConfig.mk.injEq]
    constructor
    · rintro ⟨rfl, rfl, -⟩
      exact ⟨rfl, rfl, h⟩
    · rintro ⟨hlisten, htor, -⟩
      exact ⟨hlisten.symm, htor.symm, rfl⟩

/-- The endpoint is the one field that both read under one name. -/
theorem onionEndpoint_shared {file : Table} {config : Config} {endpoint : String}
    (h : Config.loadFromFile file = some config)
    (hfield : file.required "onion_endpoint" string = some endpoint) :
    config.onionEndpoint = endpoint := by
  simp only [Config.loadFromFile, Option.bind_eq_bind, Option.bind_eq_some_iff] at h
  obtain ⟨port, -, host, -, torPort, -, onion, honion, log, -, hconfig⟩ := h
  cases hconfig
  rw [Table.withDefault_of_required hfield] at honion
  exact (Option.some.inj honion).symm

/-- The GUI takes over the CLI's file just if it says everything in the GUI's words, too. -/
theorem cliToGui_iff {file : Table} {config : Config}
    (h : Config.loadFromFile file = some config) : CliToGui file ↔ SpelledTwice file config := by
  constructor
  · rintro ⟨c, hgui, hcli⟩
    obtain ⟨hlisten, htor, hendpoint⟩ := loadConfig_eq_some.mp hgui
    rw [startProxy_loaded h] at hcli
    split at hcli
    · cases hcli
    · next hne =>
      cases hcli
      exact ⟨hlisten, htor, _, hendpoint, hne⟩
  · rintro ⟨hlisten, htor, endpoint, hendpoint, hne⟩
    obtain rfl := onionEndpoint_shared h hendpoint
    refine ⟨⟨.ofV4 127 0 0 1 config.port, config.torProxyAddr, config.onionEndpoint⟩,
      loadConfig_eq_some.mpr ⟨hlisten, htor, hendpoint⟩, ?_⟩
    rw [startProxy_loaded h, if_neg hne]

/-- What the CLI has written, the GUI cannot read. -/
theorem cli_file_refused (config : Config) : ¬ CliToGui config.saveToFile := by
  rintro ⟨c, hgui, -⟩
  rw [loadConfig_saveToFile] at hgui
  cases hgui

/-- **One file for both.** In each direction the settings get across just under the
condition that the field names leave. -/
theorem shared_file_iff (c : ProxyConfig) {file : Table} {config : Config}
    (h : Config.loadFromFile file = some config) :
    (GuiToCli c ↔ IsCliDefault c) ∧ (CliToGui file ↔ SpelledTwice file config) :=
  ⟨guiToCli_iff c, cliToGui_iff h⟩

/-- A file of the GUI's with the default addresses is read alike by both. -/
theorem shared_file_default :
    let c : ProxyConfig := ⟨.ofV4 127 0 0 1 8545, .ofV4 127 0 0 1 9050, "a.onion:80"⟩
    GuiToCli c ∧ CliToGui (saveConfig c) := by
  intro c
  have hboth := shared_file_iff c (loadFromFile_saveConfig c)
  have hread : ∀ addr : Net.SocketAddr, addr = .ofV4 127 0 0 1 8545 ∨ addr = .ofV4 127 0 0 1 9050 →
      Net.SocketAddr.parse addr.display = some addr := by
    rintro addr (rfl | rfl) <;> decide
  refine ⟨hboth.1.mpr ⟨rfl, rfl, by decide⟩,
    hboth.2.mpr ⟨hread _ (.inl rfl), ?_, _, rfl, by decide⟩⟩
  rw [torProxyAddr_default]
  exact hread _ (.inr rfl)

/-- Tor Browser's port in the GUI is 9050 for the CLI, and a file of the CLI's is
none for the GUI. -/
theorem tor_port_lost :
    let c : ProxyConfig := ⟨.ofV4 127 0 0 1 8545, .ofV4 127 0 0 1 9150, "a.onion:80"⟩
    let config : Config := { Config.default with onionEndpoint := "a.onion:80" }
    startProxy (some (saveConfig c)) .none =
        .ok ⟨.ofV4 127 0 0 1 8545, .ofV4 127 0 0 1 9050, "a.onion:80"⟩ ∧
      ¬ GuiToCli c ∧
      Config.loadFromFile config.saveToFile = some config ∧
      loadConfig (some config.saveToFile) = none ∧ ¬ CliToGui config.saveToFile := by
  intro c config
  have hne : c.onionEndpoint ≠ "" := by decide
  refine ⟨startProxy_saveConfig hne, fun h => ?_, loadFromFile_saveToFile config,
    loadConfig_saveToFile config, cli_file_refused config⟩
  exact absurd ((guiToCli_iff c).mp h).2.1 (by decide)

end Torpc
