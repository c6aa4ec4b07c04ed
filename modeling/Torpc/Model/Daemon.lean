import Mathlib.Data.Rat.Lemmas
import Torpc.Lib.Interleave
import Torpc.Model.CircuitBreaker
import Torpc.Model.RateLimit
import Torpc.Model.RpcTypes

/-!
# What a request handler does to the daemon

The daemon's handlers are `async fn`s over state they share: two circuit
breakers, two rate limiters, the metrics and the clock. A handler is modelled as
a program over the operations below. An operation is what happens between two
points at which the future may be suspended, so other requests run between any
two of them and never inside one. The futures that can be dropped while they
wait are those of the locks, of the two HTTP clients and of the sleep
(`Op.awaits`); the rest of an operation list runs on with no gap.

The upstreams are on the other side: what is put on the wire is an operation,
and so is what comes back, of which nothing is assumed. HTTP replies arrive as a
status and then a body. Geth's body is taken as the JSON value it spells,
because the daemon only ever decodes it; the relay's is text.
-/

namespace Torpc

/-- Third-party code the daemon calls, as the functions it computes. -/
structure Externals where
  /-- `serde_json::from_str` into a `Value`, with the error's text -/
  parseJson : String → Except String Value
  /-- `serde_json::to_string` -/
  encodeJson : Value → Except String String
  /-- the error's text when a reply body is no `JsonRpcResponse` -/
  responseError : Value → String
  /-- the error's text when a value is no `Bundle` -/
  bundleError : Value → String
  /-- `Display` of an HTTP status -/
  statusText : Nat → String
  /-- the build checks integer overflow -/
  overflowChecks : Bool

/-- The two upstreams that have a circuit breaker. -/
inductive Circuit where
  | geth
  | mevRelay
  deriving DecidableEq, Repr

/-- The counters of `SecurityMetrics` that handlers increment. -/
inductive Counter where
  | blockedRequests
  | rateLimitHits
  | invalidMethods
  deriving DecidableEq, Repr

inductive Op where
  | canProceed (circuit : Circuit)
  | recordSuccess (circuit : Circuit)
  | recordFailure (circuit : Circuit)
  | checkWriteLimit (method : String)
  | checkConnLimit (identifier : String)
  | increment (counter : Counter)
  | sendToGeth (request : JsonRpcRequest)
  | gethReply
  | gethText
  | gethJson
  | sendToRelay (body signature : String)
  | relayReply
  | relayText
  | genJitter (range : Rat)
  | sleep (millis : Nat)
  | panic

/-- The answers. A client error is its text; a panic is never answered. -/
abbrev Res : Op → Type
  | .canProceed _ => Bool
  | .recordSuccess _ => Unit
  | .recordFailure _ => Unit
  | .checkWriteLimit _ => Bool
  | .checkConnLimit _ => Bool
  | .increment _ => Unit
  | .sendToGeth _ => Unit
  | .gethReply => Except String Nat
  | .gethText => Except String String
  | .gethJson => Except String Value
  | .sendToRelay _ _ => Unit
  | .relayReply => Except String Nat
  | .relayText => Except String String
  | .genJitter _ => Rat
  | .sleep _ => Unit
  | .panic => Empty

/-- The future may be suspended, and so dropped, before this operation. -/
def Op.awaits : Op → Bool
  | .increment _ | .sendToGeth _ | .sendToRelay _ _ | .genJitter _ | .panic => false
  | _ => true

abbrev Handler (α : Type) := Effects.Prog Op Res α

abbrev call (o : Op) : Handler (Res o) := Effects.Prog.perform o

abbrev OpEvent := Effects.Event Op Res

/-- The counters of `SecurityMetrics`. -/
structure SecurityMetrics where
  blockedRequestsTotal : Nat
  rateLimitHits : Nat
  invalidMethods : Nat
  deriving DecidableEq, Repr

def SecurityMetrics.increment (m : SecurityMetrics) : Counter → SecurityMetrics
  | .blockedRequests => { m with blockedRequestsTotal := m.blockedRequestsTotal + 1 }
  | .rateLimitHits => { m with rateLimitHits := m.rateLimitHits + 1 }
  | .invalidMethods => { m with invalidMethods := m.invalidMethods + 1 }

/-- What a counter stands at. -/
def SecurityMetrics.read (m : SecurityMetrics) : Counter → Nat
  | .blockedRequests => m.blockedRequestsTotal
  | .rateLimitHits => m.rateLimitHits
  | .invalidMethods => m.invalidMethods

/-- The events that a counter counts. -/
def Counter.counts (k : Counter) : OpEvent → Bool
  | ⟨.increment k', _⟩ => k' == k
  | _ => false

/-- Counting one event makes one counter greater by one, and leaves the others. -/
theorem SecurityMetrics.read_increment (m : SecurityMetrics) (k k' : Counter) :
    (m.increment k').read k = m.read k + if k.counts ⟨.increment k', ()⟩ then 1 else 0 := by
  cases k <;> cases k' <;> rfl

/-- What the requests share. -/
structure Shared where
  now : Nat
  rateLimiter : RateLimiter
  writeMethodLimiter : RateLimiter
  gethCircuit : CircuitBreaker
  mevCircuit : CircuitBreaker
  metrics : SecurityMetrics

namespace Shared

def circuit (s : Shared) : Circuit → CircuitBreaker
  | .geth => s.gethCircuit
  | .mevRelay => s.mevCircuit

def setCircuit (s : Shared) (c : Circuit) (cb : CircuitBreaker) : Shared :=
  match c with
  | .geth => { s with gethCircuit := cb }
  | .mevRelay => { s with mevCircuit := cb }

@[simp] theorem circuit_setCircuit (s : Shared) (c : Circuit) (cb : CircuitBreaker) :
    (s.setCircuit c cb).circuit c = cb := by
  cases c <;> rfl

/-- Setting one circuit leaves the other one as it is. -/
theorem circuit_setCircuit_ne (s : Shared) {c c' : Circuit} (h : c' ≠ c) (cb : CircuitBreaker) :
    (s.setCircuit c' cb).circuit c = s.circuit c := by
  cases c <;> cases c' <;> first | exact absurd rfl h | rfl

@[simp] theorem setCircuit_writeMethodLimiter (s : Shared) (c : Circuit) (cb : CircuitBreaker) :
    (s.setCircuit c cb).writeMethodLimiter = s.writeMethodLimiter := by
  cases c <;> rfl

@[simp] theorem setCircuit_now (s : Shared) (c : Circuit) (cb : CircuitBreaker) :
    (s.setCircuit c cb).now = s.now := by
  cases c <;> rfl

@[simp] theorem setCircuit_metrics (s : Shared) (c : Circuit) (cb : CircuitBreaker) :
    (s.setCircuit c cb).metrics = s.metrics := by
  cases c <;> rfl

/-- The operations on what is shared: the answer and the state left behind.
`none` where the answer comes from elsewhere. -/
def perform (s : Shared) : (o : Op) → Option (Res o × Shared)
  | .canProceed c =>
    let (ok, cb) := (s.circuit c).canProceed s.now
    some (ok, s.setCircuit c cb)
  | .recordSuccess c => some ((), s.setCircuit c (s.circuit c).recordSuccess)
  | .recordFailure c => some ((), s.setCircuit c ((s.circuit c).recordFailure s.now))
  | .checkWriteLimit method =>
    let (ok, limiter) := s.writeMethodLimiter.checkRateLimit s.now method
    some (ok, { s with writeMethodLimiter := limiter })
  | .checkConnLimit identifier =>
    let (ok, limiter) := s.rateLimiter.checkRateLimit s.now identifier
    some (ok, { s with rateLimiter := limiter })
  | .increment counter => some ((), { s with metrics := s.metrics.increment counter })
  | _ => none

end Shared

/-- The answers that can come from elsewhere: any at all, except that the jitter
is drawn from its range. -/
def Op.Answers : (o : Op) → Res o → Prop
  | .genJitter range, jitter => -range ≤ jitter ∧ jitter ≤ range
  | _, _ => True

/-- One operation. -/
def exec (s : Shared) (o : Op) (r : Res o) (s' : Shared) : Prop :=
  match s.perform o with
  | some out => out = (r, s')
  | none => s' = s ∧ o.Answers r

/-- For an operation on the shared state, the answer and the state afterwards are what the
operation computes. -/
theorem exec_perform {s s' : Shared} {o : Op} {r : Res o} {out : Res o × Shared}
    (hperform : s.perform o = some out) (h : exec s o r s') : out.1 = r ∧ out.2 = s' := by
  unfold exec at h
  rw [hperform] at h
  have h : out = (r, s') := h
  rw [h]
  exact ⟨rfl, rfl⟩

/-- Any other operation leaves the state alone, and may be answered in whatever way is
possible for it. -/
theorem exec_elsewhere {s s' : Shared} {o : Op} {r : Res o} (hperform : s.perform o = none)
    (h : exec s o r s') : s' = s ∧ o.Answers r := by
  unfold exec at h
  rw [hperform] at h
  exact h

/-- A Closed circuit lets through and stays as it is. -/
theorem exec_canProceed_closed {s : Shared} {c : Circuit} {n : Nat}
    (h : (s.circuit c).state = .closed n) : exec s (.canProceed c) true s := by
  have hproceed : (s.circuit c).canProceed s.now = (true, s.circuit c) := by
    unfold CircuitBreaker.canProceed
    rw [h]
  have hset : s.setCircuit c (s.circuit c) = s := by cases c <;> rfl
  simp only [exec, Shared.perform, hproceed, hset]

/-- Nothing but its own check changes the write limiter. -/
theorem exec_writeMethodLimiter {s s' : Shared} {o : Op} {r : Res o} (h : exec s o r s')
    (ho : ∀ method, o ≠ .checkWriteLimit method) :
    s'.writeMethodLimiter = s.writeMethodLimiter := by
  cases o with
  | checkWriteLimit method => exact absurd rfl (ho method)
  | canProceed c => rw [← (exec_perform rfl h).2, Shared.setCircuit_writeMethodLimiter]
  | recordSuccess c => rw [← (exec_perform rfl h).2, Shared.setCircuit_writeMethodLimiter]
  | recordFailure c => rw [← (exec_perform rfl h).2, Shared.setCircuit_writeMethodLimiter]
  | checkConnLimit identifier => rw [← (exec_perform rfl h).2]
  | increment counter => rw [← (exec_perform rfl h).2]
  | _ => rw [(exec_elsewhere rfl h).1]

/-- Only its own increments change a counter. -/
theorem exec_metrics {s s' : Shared} {o : Op} {r : Res o} (h : exec s o r s') (k : Counter) :
    s'.metrics.read k = s.metrics.read k + if k.counts ⟨o, r⟩ then 1 else 0 := by
  cases o with
  | increment k' =>
    rw [← (exec_perform rfl h).2]
    exact s.metrics.read_increment k k'
  | canProceed c =>
    rw [← (exec_perform rfl h).2, Shared.setCircuit_metrics]
    rfl
  | recordSuccess c =>
    rw [← (exec_perform rfl h).2, Shared.setCircuit_metrics]
    rfl
  | recordFailure c =>
    rw [← (exec_perform rfl h).2, Shared.setCircuit_metrics]
    rfl
  | checkWriteLimit method =>
    rw [← (exec_perform rfl h).2]
    rfl
  | checkConnLimit identifier =>
    rw [← (exec_perform rfl h).2]
    rfl
  | _ =>
    rw [(exec_elsewhere rfl h).1]
    rfl

/-- An operation takes no time. -/
theorem exec_now {s s' : Shared} {o : Op} {r : Res o} (h : exec s o r s') : s'.now = s.now := by
  cases o with
  | canProceed c => rw [← (exec_perform rfl h).2, Shared.setCircuit_now]
  | recordSuccess c => rw [← (exec_perform rfl h).2, Shared.setCircuit_now]
  | recordFailure c => rw [← (exec_perform rfl h).2, Shared.setCircuit_now]
  | checkWriteLimit method => rw [← (exec_perform rfl h).2]
  | checkConnLimit identifier => rw [← (exec_perform rfl h).2]
  | increment counter => rw [← (exec_perform rfl h).2]
  | _ => rw [(exec_elsewhere rfl h).1]

/-- What an operation does to a circuit, as a call of its breaker. -/
def Op.breakerCall (c : Circuit) : Op → Option BreakerCall
  | .canProceed c' => if c' = c then some .canProceed else none
  | .recordSuccess c' => if c' = c then some .recordSuccess else none
  | .recordFailure c' => if c' = c then some .recordFailure else none
  | _ => none

/-- A call on one circuit, seen from either. -/
theorem Shared.circuit_call (s : Shared) (c c' : Circuit) (call : BreakerCall) :
    (s.setCircuit c' ((s.circuit c').step (s.now, call))).circuit c =
      match if c' = c then some call else none with
      | some call => (s.circuit c).step (s.now, call)
      | none => s.circuit c := by
  by_cases hc : c' = c
  · subst hc
    rw [if_pos rfl, circuit_setCircuit]
  · rw [if_neg hc, circuit_setCircuit_ne s hc]

/-- An operation makes its breaker call, if it has one, and leaves the circuit
alone otherwise. -/
theorem exec_circuit {s s' : Shared} {o : Op} {r : Res o} (h : exec s o r s') (c : Circuit) :
    s'.circuit c = match o.breakerCall c with
      | some call => (s.circuit c).step (s.now, call)
      | none => s.circuit c := by
  cases o with
  | canProceed c' =>
    rw [← (exec_perform rfl h).2]
    exact s.circuit_call c c' .canProceed
  | recordSuccess c' =>
    rw [← (exec_perform rfl h).2]
    exact s.circuit_call c c' .recordSuccess
  | recordFailure c' =>
    rw [← (exec_perform rfl h).2]
    exact s.circuit_call c c' .recordFailure
  -- the rest of what is shared is no circuit
  | checkWriteLimit method =>
    rw [← (exec_perform rfl h).2]
    cases c <;> rfl
  | checkConnLimit identifier =>
    rw [← (exec_perform rfl h).2]
    cases c <;> rfl
  | increment counter =>
    rw [← (exec_perform rfl h).2]
    cases c <;> rfl
  -- and what comes from elsewhere changes nothing
  | _ => rw [(exec_elsewhere rfl h).1]; rfl

end Torpc
