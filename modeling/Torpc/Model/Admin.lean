import Torpc.Lib.Observe
import Torpc.Model.PublicRouter

/-!
# The admin router

`health_check` and `security_metrics` of `security.rs`, on the second listener of
the daemon. They look at what the public router's requests change: the counters
of `SecurityMetrics`, one load at a time, and the two circuit breakers, whose
`state_summary` does not wait for a lock. They change nothing, so they are
readers of the public router (`Observe.lean`), with its requests going on between
any two looks.

The counters are loaded with `Relaxed` ordering. That gives no order between two
of them, and none between two loads of one of them in different tasks: a load may
lag behind, and show what its counter was some time ago.

Nothing in the daemon increments the counters of oversized requests and of
suspicious patterns.
-/

namespace Torpc

open Effects Prog

/-- `state_summary`; the lock is tried and not waited for. -/
def CircuitBreaker.stateSummary (cb : CircuitBreaker) (contended : Bool) : String :=
  if contended then "unknown"
  else
    match cb.state with
    | .closed _ => "closed"
    | .opened _ => "open"
    | .halfOpen => "half_open"

inductive AdminQuery where
  | stateSummary (circuit : Circuit)
  | load (counter : Counter)
  | loadOversized
  | loadSuspicious
  | elapsed
  | utcNow
  deriving DecidableEq, Repr

abbrev AdminAnswer : AdminQuery → Type
  | .stateSummary _ => String
  | .load _ => Nat
  | .loadOversized => Nat
  | .loadSuspicious => Nat
  | .elapsed => Nat
  | .utcNow => String

/-- What a look at the shared state can show; `start_time` is when the state was
built. A counter grows by one at a time, so any number up to its present one is a
value that it has had, and a `Relaxed` load may show it. -/
def AdminQuery.reads (startTime : Nat) (s : Shared) : (q : AdminQuery) → AdminAnswer q → Prop
  | .stateSummary c, summary => ∃ contended, summary = (s.circuit c).stateSummary contended
  | .load k, n => n ≤ s.metrics.read k
  | .loadOversized, n => n = 0
  | .loadSuspicious, n => n = 0
  | .elapsed, secs => secs = (s.now - startTime) / nanosPerSec
  | .utcNow, _ => True

abbrev AdminHandler (α : Type) := Prog AdminQuery AdminAnswer α

abbrev look (q : AdminQuery) : AdminHandler (AdminAnswer q) := perform q

/-- What `SecurityMetrics::snapshot` loads. -/
structure MetricsSnapshot where
  blockedRequestsTotal : Nat
  rateLimitHits : Nat
  oversizedRequests : Nat
  invalidMethods : Nat
  suspiciousPatterns : Nat
  deriving DecidableEq, Repr

/-- What the snapshot says of a counter that handlers increment. -/
def MetricsSnapshot.read (m : MetricsSnapshot) : Counter → Nat
  | .blockedRequests => m.blockedRequestsTotal
  | .rateLimitHits => m.rateLimitHits
  | .invalidMethods => m.invalidMethods

/-- `SecurityMetrics::snapshot`: the loads, in the order in which `json!` makes them. -/
def snapshot : AdminHandler MetricsSnapshot := do
  let blocked : Nat ← look (.load .blockedRequests)
  let hits : Nat ← look (.load .rateLimitHits)
  let oversized : Nat ← look .loadOversized
  let invalid : Nat ← look (.load .invalidMethods)
  let suspicious : Nat ← look .loadSuspicious
  return ⟨blocked, hits, oversized, invalid, suspicious⟩

structure MetricsReport where
  securityMetrics : MetricsSnapshot
  geth : String
  mevRelay : String
  mevCircuit : String
  uptimeSeconds : Nat
  timestamp : String
  deriving DecidableEq, Repr

structure HealthReport where
  uptimeSeconds : Nat
  timestamp : String
  deriving DecidableEq, Repr

inductive AdminBody where
  | health (report : HealthReport)
  | metrics (report : MetricsReport)
  deriving DecidableEq, Repr

/-- A `u64` in a `json!` text. -/
def u64Value (n : Nat) : Value := .nat (.ofNat n)

def MetricsSnapshot.toValue (m : MetricsSnapshot) : Value :=
  .object [("blocked_requests_total", u64Value m.blockedRequestsTotal),
    ("rate_limit_hits", u64Value m.rateLimitHits),
    ("oversized_requests", u64Value m.oversizedRequests),
    ("invalid_methods", u64Value m.invalidMethods),
    ("suspicious_patterns", u64Value m.suspiciousPatterns)]

def AdminBody.toValue : AdminBody → Value
  | .health r => .object [("status", .string "ok"), ("service", .string "torpc"),
      ("version", .string "0.1.0"), ("uptime_seconds", u64Value r.uptimeSeconds),
      ("timestamp", .string r.timestamp)]
  | .metrics r => .object [("security_metrics", r.securityMetrics.toValue),
      ("circuits", .object [("geth", .string r.geth), ("mev_relay", .string r.mevRelay),
        ("mev_circuit", .string r.mevCircuit)]),
      ("uptime_seconds", u64Value r.uptimeSeconds), ("timestamp", .string r.timestamp)]

/-- `health_check`. -/
def healthCheck : AdminHandler AdminBody := do
  let uptime : Nat ← look .elapsed
  let timestamp : String ← look .utcNow
  return .health ⟨uptime, timestamp⟩

/-- What `security_metrics` says of the relay: whether there is one, and its circuit. -/
def relaySummary : Option MevRelayClient → AdminHandler (String × String)
  | some _ => do
    let summary : String ← look (.stateSummary .mevRelay)
    return ("configured", summary)
  | none => return ("disabled", "n/a")

/-- `security_metrics`. -/
def securityMetrics (mevClient : Option MevRelayClient) : AdminHandler AdminBody := do
  let geth : String ← look (.stateSummary .geth)
  let (mevRelay, mevCircuit) ← relaySummary mevClient
  let counters ← snapshot
  let uptime : Nat ← look .elapsed
  let timestamp : String ← look .utcNow
  return .metrics ⟨counters, geth, mevRelay, mevCircuit, uptime, timestamp⟩

inductive AdminEndpoint where
  | healthCheck
  | securityMetrics
  deriving DecidableEq, Repr

def adminRouter : Http.Router AdminEndpoint where
  routes := [("/health", Http.get .healthCheck), ("/metrics", Http.get .securityMetrics)]

structure AdminRequest where
  method : Http.Method
  path : String
  deriving DecidableEq, Repr

structure AdminResponse where
  status : Nat
  body : Option AdminBody
  deriving DecidableEq, Repr

namespace Daemon

/-- The admin router. -/
def adminRespond (d : Daemon) (v : AdminRequest) : AdminHandler AdminResponse :=
  match adminRouter.dispatch v.method v.path with
  | .to .healthCheck => do return ⟨200, some (← healthCheck)⟩
  | .to .securityMetrics => do return ⟨200, some (← securityMetrics d.mevClient)⟩
  | .methodNotAllowed => return ⟨405, none⟩
  | .fallback => return ⟨404, none⟩

/-- A look at the state of the public router. -/
def adminReads (d : Daemon) (files : StaticFiles) (startTime : Nat)
    (c : (d.publicSystem files).Config) : (q : AdminQuery) → AdminAnswer q → Prop :=
  AdminQuery.reads startTime c.shared

/-- What happens to a daemon with both its routers. -/
abbrev BothLabel (d : Daemon) (files : StaticFiles) : Type :=
  Observe.Label (d.publicSystem files).Label AdminRequest AdminResponse AdminQuery AdminAnswer

abbrev BothConfig (d : Daemon) (files : StaticFiles) : Type :=
  Observe.Watched (d.publicSystem files).Config AdminQuery AdminAnswer AdminResponse

/-- A run of the daemon with both its routers, from its start at instant `t`. -/
def BothRun (d : Daemon) (files : StaticFiles) (t : Nat) (ls : List (d.BothLabel files))
    (w : d.BothConfig files) : Prop :=
  Lts.Run (Observe.WStep (System.Step (d.publicSystem files)) (d.adminReads files t)
    d.adminRespond) (Observe.start ((d.publicSystem files).start (d.initial t))) ls w

section BothRun

variable {d : Daemon} {files : StaticFiles} {t : Nat} {ls : List (d.BothLabel files)}
  {w : d.BothConfig files}

/-- The public router goes on, whoever is looking. -/
theorem BothRun.goesOn (h : d.BothRun files t ls w) {ls' : List (d.publicSystem files).Label}
    {c : (d.publicSystem files).Config}
    (hrun : Lts.Run (System.Step (d.publicSystem files)) w.base ls' c) :
    d.BothRun files t (ls ++ ls'.map .base) ⟨c, w.readers, w.next⟩ :=
  Lts.Run.append h (Observe.run_lift hrun _ _)

end BothRun

end Daemon

end Torpc
