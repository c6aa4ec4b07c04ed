import Torpc.Lib.HostPort
import Torpc.Model.ClientConfig

/-!
# The Tor address of the CLI

`start` and `test` put the Tor address together from the same host and port, and
read it by themselves. `test` refuses a text that is no socket address; `start`
takes 127.0.0.1:9050 for it, and the wallet's traffic goes to a proxy that
nobody has named (`tor_address_kept_iff`). A bare IPv6 address is such a text.
-/

namespace Torpc

open Toml

namespace Config

/-- The address that the host and the port name, if the host is an IP address. -/
def givenAddr (config : Config) : Option Net.SocketAddr :=
  (Net.Host.parse config.torProxyHost).map (·.at config.torProxyPort)

/-- The host is an IPv4 address, or an IPv6 address in brackets. -/
def HostIsAddr (config : Config) : Prop :=
  (Net.Host.ofAddrText config.torProxyHost.toList).isSome = true

end Config

/-- `start` dials the address that was given, or refuses to. -/
def DialsGiven (file : Option Table) (o : Overrides) : Prop :=
  ∀ p, startProxy file o = .ok p →
    ∃ config, startConfig file o = some config ∧ config.givenAddr = some p.torProxy

/-- Where `start` has a configuration with an endpoint, it dials the address that
`test` probes, and refuses the one that `test` refuses. -/
def DialsProbed (file : Option Table) (o : Overrides) : Prop :=
  ∀ config, startConfig file o = some config → config.onionEndpoint ≠ "" →
    (startProxy file o).toOption.map ProxyConfig.torProxy =
      (testTorConnectivity file o.torHost o.torPort).toOption

/-- The Tor address is the one that was given and the one that is tested. -/
structure TorAddressKept (file : Option Table) (o : Overrides) : Prop where
  given : DialsGiven file o
  probed : DialsProbed file o

/-- The address that is dialled is the configured host, if it is an IP address, with the
configured port; else it is the default. -/
theorem Config.torProxyAddr_eq (config : Config) : config.torProxyAddr =
    ((Net.Host.ofAddrText config.torProxyHost.toList).map (·.at config.torProxyPort)).getD
      (.ofV4 127 0 0 1 9050) := by
  rw [torProxyAddr, Net.parse_hostPort]

/-- `test` probes the address of its host and port, and refuses a host that no
socket address has. -/
theorem testTorConnectivity_eq (file : Option Table) (o : Overrides) :
    (testTorConnectivity file o.torHost o.torPort).toOption =
      (Net.Host.ofAddrText ((testConfig file).override o).torProxyHost.toList).map
        (·.at ((testConfig file).override o).torProxyPort) := by
  rw [testTorConnectivity, Net.parse_hostPort]
  show _ = Option.map _ (Net.Host.ofAddrText (o.torHost.getD (testConfig file).torProxyHost).toList)
  cases Net.Host.ofAddrText (o.torHost.getD (testConfig file).torProxyHost).toList <;> rfl

/-- With a host that no socket address has, nobody has given the address that
`start` dials. -/
theorem torProxyAddr_given_iff (config : Config) :
    config.givenAddr = some config.torProxyAddr ↔ config.HostIsAddr := by
  rw [Config.givenAddr, config.torProxyAddr_eq, Config.HostIsAddr]
  cases haddr : Net.Host.ofAddrText config.torProxyHost.toList with
  | some host => simp [Net.Host.parse_of_addrText haddr]
  | none =>
    refine iff_of_false (fun hgiven => ?_) Bool.false_ne_true
    obtain ⟨host, hparse, hat⟩ := Option.map_eq_some_iff.mp hgiven
    -- a bare IPv6 address is not the IPv4 address of the fallback
    obtain ⟨ip, rfl⟩ := Net.Host.parse_of_not_addrText haddr hparse
    cases hat

/-- The command `start` dials what it is given just if the host that it ends up with is an
IP address. -/
theorem dialsGiven_iff (file : Option Table) (o : Overrides) :
    DialsGiven file o ↔ ∀ config, startConfig file o = some config →
      config.onionEndpoint ≠ "" → config.HostIsAddr := by
  constructor
  · intro h config hconfig hendpoint
    obtain ⟨config', hconfig', hgiven⟩ :=
      h _ (startProxy_ok_iff.mpr ⟨config, hconfig, hendpoint, rfl⟩)
    obtain rfl := Option.some.inj (hconfig.symm.trans hconfig')
    exact (torProxyAddr_given_iff config).mp hgiven
  · intro h p hp
    obtain ⟨config, hconfig, hendpoint, rfl⟩ := startProxy_ok_iff.mp hp
    exact ⟨config, hconfig, (torProxyAddr_given_iff config).mpr (h config hconfig hendpoint)⟩

/-- The two commands end alike, a refusal being one like the other, if `start`
goes ahead with the hosts that `test` accepts. -/
theorem dials_eq_probes_iff (file : Option Table) (o : Overrides) :
    (startProxy file o).toOption.map ProxyConfig.torProxy =
        (testTorConnectivity file o.torHost o.torPort).toOption ↔
      ((∃ p, startProxy file o = .ok p) ↔ ((testConfig file).override o).HostIsAddr) := by
  rw [testTorConnectivity_eq, Config.HostIsAddr]
  cases hstart : startProxy file o with
  | error e =>
    cases Net.Host.ofAddrText ((testConfig file).override o).torProxyHost.toList <;>
      simp [Except.toOption]
  | ok p =>
    obtain ⟨config, hconfig, -, rfl⟩ := startProxy_ok_iff.mp hstart
    rw [startConfig_eq_some hconfig]
    show some (Config.torProxyAddr _) = _ ↔ _
    rw [Config.torProxyAddr_eq]
    cases Net.Host.ofAddrText ((testConfig file).override o).torProxyHost.toList <;> simp

/-- Where `start` gets to dial at all, it dials the address that `test` probes just if the
host is an IP address. -/
theorem dialsProbed_iff (file : Option Table) (o : Overrides) :
    DialsProbed file o ↔ ∀ config, startConfig file o = some config →
      config.onionEndpoint ≠ "" → config.HostIsAddr := by
  refine forall_congr' fun config => forall₂_congr fun hconfig hendpoint => ?_
  have hahead : ∃ p, startProxy file o = .ok p :=
    ⟨_, startProxy_ok_iff.mpr ⟨config, hconfig, hendpoint, rfl⟩⟩
  rw [dials_eq_probes_iff, iff_true_left hahead, startConfig_eq_some hconfig]

/-- **The Tor address of the CLI.** For every file and all flags it is the one
that was given and the one that is tested if and only if the host, where it comes
to be used, is an IPv4 address or an IPv6 address in brackets. If `start` may also
refuse for want of a file or an endpoint, it and `test` end alike if and only if
`start` goes ahead with just these hosts. -/
theorem tor_address_kept_iff (file : Option Table) (o : Overrides) :
    (TorAddressKept file o ↔ ∀ config, startConfig file o = some config →
      config.onionEndpoint ≠ "" → config.HostIsAddr) ∧
    ((startProxy file o).toOption.map ProxyConfig.torProxy =
        (testTorConnectivity file o.torHost o.torPort).toOption ↔
      ((∃ p, startProxy file o = .ok p) ↔ ((testConfig file).override o).HostIsAddr)) :=
  ⟨⟨fun h => (dialsGiven_iff file o).mp h.given,
      fun h => ⟨(dialsGiven_iff file o).mpr h, (dialsProbed_iff file o).mpr h⟩⟩,
    dials_eq_probes_iff file o⟩

/-- A Tor proxy on the IPv6 loopback. -/
def ipv6Tor : Overrides :=
  { Overrides.none with onion := some "a.onion:80", torHost := some "::1", torPort := some 9150 }

/-- With an IPv6 host on the command line `start` dials the default address instead, and
`test` takes it for an invalid one. -/
theorem ipv6_host_replaced :
    startProxy none ipv6Tor =
      .ok ⟨.ofV4 127 0 0 1 8545, .ofV4 127 0 0 1 9050, "a.onion:80"⟩ ∧
    testTorConnectivity none ipv6Tor.torHost ipv6Tor.torPort =
      .error "Invalid Tor SOCKS5 address: ::1:9150" ∧
    ¬ TorAddressKept none ipv6Tor := by
  refine ⟨by decide +kernel, by decide +kernel, fun hkept => ?_⟩
  have hhost : (Net.Host.ofAddrText "::1".toList).isSome = true :=
    (dialsGiven_iff none ipv6Tor).mp hkept.given _ rfl (by decide)
  exact absurd hhost (by decide)

end Torpc
