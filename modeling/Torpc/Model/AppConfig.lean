import Torpc.Lib.Decimal
import Torpc.Model.RateLimit

/-!
# The daemon's settings

`AppConfig::from_env` of `app.rs` with `env_u64`, and `SecurityConfig::from_env`
of `security.rs`: every knob is read from the environment, and a value that is
missing or not a number is replaced by a default. Durations are nanoseconds, a
`usize` has 64 bits. The limiters are those that `build_app` makes of the
settings.
-/

namespace Torpc

open Net

/-- `std::env::var`: `none` for a variable that is not set or not Unicode. -/
abbrev Env := String → Option String

/-- `Duration::from_secs`. -/
def fromSecs (secs : UInt64) : Nat := secs.toNat * 1000000000

/-- `env_u64`. -/
def envU64 (env : Env) (name : String) (default : UInt64) : UInt64 :=
  match env name with
  | some raw => (parseU64 raw).getD default
  | none => default

/-- `first_env_var`. -/
def firstEnvVar (env : Env) (names : List String) : Option String := names.findSome? env

structure SecurityConfig where
  maxBodySize : UInt64
  requestTimeout : Nat
  strictHeaders : Bool

/-- `SecurityConfig::from_env`. -/
def SecurityConfig.fromEnv (env : Env) : SecurityConfig where
  maxBodySize :=
    ((firstEnvVar env ["MAX_REQUEST_SIZE", "MAX_BODY_SIZE"]).bind parseU64).getD (1024 * 1024)
  requestTimeout := fromSecs (((env "REQUEST_TIMEOUT").bind parseU64).getD 30)
  strictHeaders :=
    ((firstEnvVar env ["STRICT_SECURITY_HEADERS", "STRICT_HEADERS"]).map fun s =>
      s.toLower == "true").getD true

def writeMethodDefaultRequests : UInt32 := 10

def writeMethodDefaultWindowSecs : UInt64 := 60

structure AppConfig where
  gethUrl : String
  flashbotsUrl : String
  bindAddr : String
  adminBindAddr : String
  mevSigningKey : Option String
  mevRelayUrl : String
  mevRequestTimeout : Nat
  rateLimit : RateLimitConfig
  writeMethodLimitMax : UInt32
  writeMethodLimitWindow : Nat
  maxConcurrent : UInt64
  security : SecurityConfig
  staticDir : String

namespace AppConfig

/-- `AppConfig::from_env`. The two limits are cut down to 32 bits. -/
def fromEnv (env : Env) : AppConfig :=
  let flashbotsUrl := (env "FLASHBOTS_URL").getD "https://relay.flashbots.net"
  { gethUrl := (env "GETH_URL").getD "http://127.0.0.1:8545"
    flashbotsUrl
    bindAddr := (env "BIND_ADDR").getD "127.0.0.1:8080"
    adminBindAddr := (env "ADMIN_BIND_ADDR").getD "127.0.0.1:9001"
    mevSigningKey := env "FLASHBOTS_SIGNING_KEY"
    mevRelayUrl := (env "FLASHBOTS_RELAY_URL").getD flashbotsUrl
    mevRequestTimeout := fromSecs (envU64 env "FLASHBOTS_REQUEST_TIMEOUT" 5)
    rateLimit :=
      { maxRequests := (envU64 env "RATE_LIMIT_REQUESTS" 100).toUInt32
        windowDuration := fromSecs (envU64 env "RATE_LIMIT_WINDOW" 60) }
    writeMethodLimitMax :=
      (envU64 env "WRITE_RATE_LIMIT_REQUESTS" writeMethodDefaultRequests.toUInt64).toUInt32
    writeMethodLimitWindow :=
      fromSecs (envU64 env "WRITE_RATE_LIMIT_WINDOW" writeMethodDefaultWindowSecs)
    maxConcurrent := envU64 env "MAX_CONCURRENT_CONNECTIONS" 256
    security := .fromEnv env
    staticDir := "static" }

/-- The limiter of `rate_limit_middleware`, which the cleanup task shares. -/
def rateLimiter (config : AppConfig) : RateLimiter := .new config.rateLimit

/-- The limiter of `ProxyState::new_with_write_limit`. -/
def writeMethodLimiter (config : AppConfig) : RateLimiter :=
  .new ⟨config.writeMethodLimitMax, config.writeMethodLimitWindow⟩

end AppConfig

end Torpc
