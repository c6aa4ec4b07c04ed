import Torpc.Model.AppConfig
import Torpc.Model.Auth
import Torpc.Model.PublicRouter

/-!
# The daemon as it is assembled

`build_app` of `app.rs`, with `create_mev_client` and the constructors of
`ProxyState`: what becomes of the settings. A signing key that cannot be used is
no error; the daemon then starts as one without a key. What has been built is
where the runs of the daemon start (`BuiltApp.shared_eq_initial`).

What is taken from third-party code is a `Platform`: it signs, it encodes, and it
builds HTTP clients or fails to.
-/

namespace Torpc

structure Platform where
  externals : Externals
  crypto : Crypto
  /-- `Client::builder().timeout(_).build()`, with the error's text -/
  httpClient : Nat → Except String Unit

-- ---------------------------------------------------------------------------
-- mev/types.rs, mev/client.rs
-- ---------------------------------------------------------------------------

structure MevConfig where
  relayUrl : String
  signingKey : String
  requestTimeout : Nat
  blocksAhead : UInt64

/-- `create_mev_client`. -/
def createMevClient (platform : Platform) (config : MevConfig) : ProxyResult MevRelayClient :=
  MevRelayClient.new platform.crypto (platform.httpClient config.requestTimeout)
    config.signingKey config.blocksAhead

-- ---------------------------------------------------------------------------
-- proxy.rs
-- ---------------------------------------------------------------------------

def writeMethodDefaultLimit : RateLimitConfig :=
  ⟨writeMethodDefaultRequests, fromSecs writeMethodDefaultWindowSecs⟩

structure ProxyState where
  gethUrl : String
  flashbotsUrl : String
  metrics : SecurityMetrics
  gethCircuit : CircuitBreaker
  writeMethodLimiter : RateLimiter

namespace ProxyState

/-- `ProxyState::new`. -/
def new (platform : Platform) (gethUrl flashbotsUrl : String) : ProxyResult ProxyState :=
  match platform.httpClient (30 * nanosPerSec) with
  | .error e => .error (.internalError ("HTTP client init failed: " ++ e))
  | .ok () => .ok {
      gethUrl
      flashbotsUrl
      metrics := ⟨0, 0, 0⟩
      gethCircuit := .new
      writeMethodLimiter := .new writeMethodDefaultLimit }

/-- `ProxyState::new_with_write_limit`. -/
def newWithWriteLimit (platform : Platform) (gethUrl flashbotsUrl : String)
    (maxRequests : UInt32) (window : Nat) : ProxyResult ProxyState :=
  (new platform gethUrl flashbotsUrl).map fun state =>
    { state with writeMethodLimiter := .new ⟨maxRequests, window⟩ }

end ProxyState

-- ---------------------------------------------------------------------------
-- app.rs
-- ---------------------------------------------------------------------------

/-- What the two routers of `BuiltApp` work on. -/
structure BuiltApp where
  baseState : ProxyState
  mevClient : Option MevRelayClient
  rateLimiter : RateLimiter
  maxConcurrent : UInt64
  security : SecurityConfig

namespace AppConfig

/-- The MEV client of `build_app`: none without a key, and none with one that is
of no use. -/
def mevState (config : AppConfig) (platform : Platform) : Option MevRelayClient :=
  match config.mevSigningKey with
  | none => none
  | some signingKey =>
    let mevConfig : MevConfig :=
      ⟨config.mevRelayUrl, signingKey, config.mevRequestTimeout, 1⟩
    match createMevClient platform mevConfig with
    | .ok client => some client
    | .error _ => none

/-- `build_app`; an error is its context and its cause. -/
def buildApp (config : AppConfig) (platform : Platform) : Except (String × ProxyError) BuiltApp :=
  match ProxyState.newWithWriteLimit platform config.gethUrl config.flashbotsUrl
      config.writeMethodLimitMax config.writeMethodLimitWindow with
  | .error e => .error ("failed to construct ProxyState", e)
  | .ok baseState => .ok {
      baseState
      mevClient := config.mevState platform
      rateLimiter := .new config.rateLimit
      maxConcurrent := config.maxConcurrent
      security := config.security }

end AppConfig

namespace BuiltApp

/-- The daemon that serves what has been built. -/
def daemon (built : BuiltApp) (platform : Platform) : Daemon where
  externals := platform.externals
  mevClient := built.mevClient
  rateLimit := built.rateLimiter.config
  writeLimit := built.baseState.writeMethodLimiter.config
  requestTimeout := built.security.requestTimeout

/-- What its requests share at the start; the relay's breaker is in its client. -/
def shared (built : BuiltApp) (now : Nat) : Shared where
  now
  rateLimiter := built.rateLimiter
  writeMethodLimiter := built.baseState.writeMethodLimiter
  gethCircuit := built.baseState.gethCircuit
  mevCircuit := .new
  metrics := built.baseState.metrics

end BuiltApp

/-- What `build_app` has made, part by part: the relay's client if there is one, fresh
limiters with the numbers of the settings, a closed circuit, and metrics at zero. -/
theorem AppConfig.buildApp_ok {config : AppConfig} {platform : Platform} {built : BuiltApp}
    (h : config.buildApp platform = .ok built) :
    built.mevClient = config.mevState platform ∧
      built.rateLimiter = .new config.rateLimit ∧
      built.baseState.writeMethodLimiter =
        .new ⟨config.writeMethodLimitMax, config.writeMethodLimitWindow⟩ ∧
      built.baseState.gethCircuit = .new ∧ built.baseState.metrics = ⟨0, 0, 0⟩ ∧
      built.security = config.security := by
  unfold buildApp ProxyState.newWithWriteLimit ProxyState.new at h
  cases hclient : platform.httpClient (30 * nanosPerSec) with
  | error e =>
    rw [hclient] at h
    cases h
  | ok u =>
    rw [hclient] at h
    obtain rfl := Except.ok.inj h
    exact ⟨rfl, rfl, rfl, rfl, rfl, rfl⟩

/-- What has been built is where the daemon starts. -/
theorem BuiltApp.shared_eq_initial {config : AppConfig} {platform : Platform} {built : BuiltApp}
    (h : config.buildApp platform = .ok built) (now : Nat) :
    built.shared now = (built.daemon platform).initial now := by
  obtain ⟨-, hlimiter, hwrite, hgeth, hmetrics, -⟩ := AppConfig.buildApp_ok h
  simp only [shared, Daemon.initial, daemon, hlimiter, hwrite, hgeth, hmetrics, RateLimiter.new]

end Torpc
