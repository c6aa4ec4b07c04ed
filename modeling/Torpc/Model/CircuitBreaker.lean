/-!
# The circuit breaker

`mev/retry.rs` and the `CircuitState` of `mev/types.rs`. One instance guards
upstream Geth, another the relay. The state sits behind a mutex that every
method takes for its whole body, so a method is one atomic step and any
interleaving of concurrent callers is a sequence of calls, each at the instant
it reads the clock. Instants are natural numbers; `elapsed()` saturates at zero
as `Instant` does.
-/

namespace Torpc

/-- `CircuitState`. -/
inductive CircuitState where
  | closed (consecutiveFailures : Nat)
  | opened (openedAt : Nat)
  | halfOpen
  deriving DecidableEq, Repr

structure CircuitBreaker where
  state : CircuitState
  failureThreshold : Nat
  recoveryTimeout : Nat
  deriving DecidableEq, Repr

/-- The methods a caller of a breaker uses. -/
inductive BreakerCall where
  | canProceed
  | recordSuccess
  | recordFailure
  deriving DecidableEq, Repr

/-- Nanoseconds in a second: the unit of instants and durations. -/
def nanosPerSec : Nat := 1000000000

namespace CircuitBreaker

/-- `CircuitBreaker::with_config`. -/
def withConfig (failureThreshold recoveryTimeout : Nat) : CircuitBreaker :=
  ⟨.closed 0, failureThreshold, recoveryTimeout⟩

/-- `CircuitBreaker::new`: threshold 5, recovery 30s. -/
def new : CircuitBreaker := withConfig 5 (30 * nanosPerSec)

/-- `can_proceed` at instant `now`: the answer, and the breaker left behind. -/
def canProceed (now : Nat) (cb : CircuitBreaker) : Bool × CircuitBreaker :=
  match cb.state with
  | .closed _ => (true, cb)
  | .opened openedAt =>
    if cb.recoveryTimeout ≤ now - openedAt then (true, { cb with state := .halfOpen })
    else (false, cb)
  | .halfOpen => (true, cb)

/-- `record_success`. -/
def recordSuccess (cb : CircuitBreaker) : CircuitBreaker :=
  match cb.state with
  | .halfOpen => { cb with state := .closed 0 }
  | .closed _ => { cb with state := .closed 0 }
  -- a late success while Open: stay Open until the recovery timeout elapses
  | .opened _ => cb

/-- `record_failure` at instant `now`. -/
def recordFailure (now : Nat) (cb : CircuitBreaker) : CircuitBreaker :=
  match cb.state with
  | .closed consecutiveFailures =>
    let next := consecutiveFailures + 1
    if cb.failureThreshold ≤ next then { cb with state := .opened now }
    else { cb with state := .closed next }
  | .halfOpen => { cb with state := .opened now }
  -- already Open: the timestamp still measures from the first opening
  | .opened _ => cb

/-- The breaker is Open. -/
def isOpen (cb : CircuitBreaker) : Prop := ∃ t, cb.state = .opened t

/-- The breaker after one call. -/
def step (cb : CircuitBreaker) (call : Nat × BreakerCall) : CircuitBreaker :=
  match call.2 with
  | .canProceed => (cb.canProceed call.1).2
  | .recordSuccess => cb.recordSuccess
  | .recordFailure => cb.recordFailure call.1

/-- The breaker after a sequence of calls, each with its instant. -/
def after (cb : CircuitBreaker) (calls : List (Nat × BreakerCall)) : CircuitBreaker :=
  calls.foldl step cb

@[simp] theorem after_append (cb : CircuitBreaker) (calls calls' : List (Nat × BreakerCall)) :
    cb.after (calls ++ calls') = (cb.after calls).after calls' := by
  simp [after]

@[simp] theorem after_singleton (cb : CircuitBreaker) (call : Nat × BreakerCall) :
    cb.after [call] = cb.step call := rfl

-- ---------------------------------------------------------------------------
-- What one call can do
-- ---------------------------------------------------------------------------

/-- `can_proceed` lets everything through unless the breaker has been Open for
less than the recovery timeout; it changes the state only when it flips an Open
breaker to HalfOpen. -/
theorem canProceed_cases (now : Nat) (cb : CircuitBreaker) :
    (∃ n, cb.state = .closed n ∧ cb.canProceed now = (true, cb)) ∨
    (cb.state = .halfOpen ∧ cb.canProceed now = (true, cb)) ∨
    (∃ t, cb.state = .opened t ∧ cb.recoveryTimeout ≤ now - t ∧
      cb.canProceed now = (true, { cb with state := .halfOpen })) ∨
    (∃ t, cb.state = .opened t ∧ now - t < cb.recoveryTimeout ∧
      cb.canProceed now = (false, cb)) := by
  unfold canProceed
  cases hs : cb.state with
  | closed n => exact .inl ⟨n, rfl, rfl⟩
  | halfOpen => exact .inr (.inl ⟨rfl, rfl⟩)
  | opened t =>
    by_cases ht : cb.recoveryTimeout ≤ now - t
    · exact .inr (.inr (.inl ⟨t, rfl, ht, by simp [ht]⟩))
    · exact .inr (.inr (.inr ⟨t, rfl, by omega, by simp [ht]⟩))

/-- Right after a failure the breaker is Open, or Closed with one more failure
than before and still below the threshold. -/
theorem recordFailure_cases (now : Nat) (cb : CircuitBreaker) :
    (cb.recordFailure now).isOpen ∨
    (∃ n, cb.state = .closed n ∧ n + 1 < cb.failureThreshold ∧
      (cb.recordFailure now).state = .closed (n + 1)) := by
  unfold recordFailure
  cases hs : cb.state with
  | closed n =>
    by_cases hn : cb.failureThreshold ≤ n + 1
    · exact .inl ⟨now, by simp [hn]⟩
    · exact .inr ⟨n, rfl, by omega, by simp [hn]⟩
  | halfOpen => exact .inl ⟨now, rfl⟩
  | opened t => exact .inl ⟨t, hs⟩

/-- A success leaves HalfOpen and resets the count; it does not touch Open. -/
theorem recordSuccess_cases (cb : CircuitBreaker) :
    (cb.isOpen ∧ cb.recordSuccess = cb) ∨ cb.recordSuccess.state = .closed 0 := by
  unfold recordSuccess
  cases hs : cb.state with
  | closed n => exact .inr rfl
  | halfOpen => exact .inr rfl
  | opened t => exact .inl ⟨⟨t, hs⟩, rfl⟩

/-- A call changes the state and not the configuration. -/
theorem step_with_state (cb : CircuitBreaker) (call : Nat × BreakerCall) :
    ∃ state, cb.step call = { cb with state } := by
  obtain ⟨now, call⟩ := call
  cases call with
  | canProceed =>
    rcases canProceed_cases now cb with ⟨_, -, h⟩ | ⟨-, h⟩ | ⟨_, -, -, h⟩ | ⟨_, -, -, h⟩ <;>
      exact ⟨_, congrArg Prod.snd h⟩
  | recordSuccess =>
    dsimp only [step, recordSuccess]
    split <;> exact ⟨_, rfl⟩
  | recordFailure =>
    dsimp only [step, recordFailure]
    split
    · split <;> exact ⟨_, rfl⟩
    · exact ⟨_, rfl⟩
    · exact ⟨_, rfl⟩

@[simp] theorem step_failureThreshold (cb : CircuitBreaker) (call : Nat × BreakerCall) :
    (cb.step call).failureThreshold = cb.failureThreshold := by
  obtain ⟨state, h⟩ := cb.step_with_state call
  rw [h]

@[simp] theorem step_recoveryTimeout (cb : CircuitBreaker) (call : Nat × BreakerCall) :
    (cb.step call).recoveryTimeout = cb.recoveryTimeout := by
  obtain ⟨state, h⟩ := cb.step_with_state call
  rw [h]

/-- No call changes the threshold that the breaker was made with. -/
theorem after_failureThreshold (cb : CircuitBreaker) (calls : List (Nat × BreakerCall)) :
    (cb.after calls).failureThreshold = cb.failureThreshold := by
  induction calls generalizing cb with
  | nil => rfl
  | cons call calls ih => exact (ih _).trans (cb.step_failureThreshold call)

/-- Nor does one change the timeout after which the breaker lets a probe through. -/
theorem after_recoveryTimeout (cb : CircuitBreaker) (calls : List (Nat × BreakerCall)) :
    (cb.after calls).recoveryTimeout = cb.recoveryTimeout := by
  induction calls generalizing cb with
  | nil => rfl
  | cons call calls ih => exact (ih _).trans (cb.step_recoveryTimeout call)

/-- From Closed a breaker stays Closed with its count of failures, or opens with the failure
that brings the count to the threshold. -/
theorem step_closed {cb : CircuitBreaker} {n : Nat} (h : cb.state = .closed n)
    (call : Nat × BreakerCall) :
    (cb.step call).state = match call.2 with
      | .canProceed => .closed n
      | .recordSuccess => .closed 0
      | .recordFailure =>
        if cb.failureThreshold ≤ n + 1 then .opened call.1 else .closed (n + 1) := by
  obtain ⟨now, kind⟩ := call
  cases kind with
  | canProceed => simp only [step, canProceed, h]
  | recordSuccess => simp only [step, recordSuccess, h]
  | recordFailure =>
    simp only [step, recordFailure, h]
    split <;> rfl

/-- From Open: only `can_proceed` gets out, once the timeout is over. -/
theorem step_opened {cb : CircuitBreaker} {t : Nat} (h : cb.state = .opened t)
    (call : Nat × BreakerCall) :
    (cb.step call).state =
      if call.2 = .canProceed ∧ cb.recoveryTimeout ≤ call.1 - t then .halfOpen
      else .opened t := by
  obtain ⟨now, kind⟩ := call
  cases kind with
  | canProceed =>
    simp only [step, canProceed, h, true_and]
    split
    · rfl
    · exact h
  | recordSuccess => simp [step, recordSuccess, h]
  | recordFailure => simp [step, recordFailure, h]

/-- From HalfOpen: the first result decides. -/
theorem step_halfOpen_state {cb : CircuitBreaker} (h : cb.state = .halfOpen)
    (call : Nat × BreakerCall) :
    (cb.step call).state = match call.2 with
      | .canProceed => .halfOpen
      | .recordSuccess => .closed 0
      | .recordFailure => .opened call.1 := by
  obtain ⟨now, kind⟩ := call
  cases kind <;> simp only [step, canProceed, recordSuccess, recordFailure, h]

end CircuitBreaker

-- ---------------------------------------------------------------------------
-- The simpler tracker
-- ---------------------------------------------------------------------------

/-- `ConsecutiveFailureTracker`. -/
structure ConsecutiveFailureTracker where
  failures : UInt32
  threshold : UInt32
  deriving DecidableEq, Repr

namespace ConsecutiveFailureTracker

/-- `ConsecutiveFailureTracker::new`. -/
def new (threshold : UInt32) : ConsecutiveFailureTracker := ⟨0, threshold⟩

/-- `record_success`. -/
def recordSuccess (tracker : ConsecutiveFailureTracker) : ConsecutiveFailureTracker :=
  { tracker with failures := 0 }

/-- `record_failure`: whether the threshold is reached, and the tracker left
behind. `none` is the panic of an overflow in a build that checks for one. -/
def recordFailure (overflowChecks : Bool) (tracker : ConsecutiveFailureTracker) :
    Option (Bool × ConsecutiveFailureTracker) :=
  if overflowChecks = true ∧ tracker.failures.toNat + 1 = UInt32.size then none
  else
    let failures := tracker.failures + 1
    some (decide (tracker.threshold ≤ failures), { tracker with failures := failures })

/-- One of the two calls a tracker takes; only a failure is answered. -/
def step (overflowChecks : Bool) (tracker : ConsecutiveFailureTracker) :
    BreakerCall → Option (Bool × ConsecutiveFailureTracker)
  | .recordFailure => tracker.recordFailure overflowChecks
  | .recordSuccess => some (false, tracker.recordSuccess)
  | .canProceed => none

/-- The tracker after a sequence of calls. -/
def after (overflowChecks : Bool) (tracker : ConsecutiveFailureTracker)
    (calls : List BreakerCall) : Option ConsecutiveFailureTracker :=
  calls.foldlM (fun tracker call => (tracker.step overflowChecks call).map Prod.snd) tracker

/-- The tracker after one more call is the tracker after the others, stepped once more. -/
theorem after_snoc (overflowChecks : Bool) (tracker : ConsecutiveFailureTracker)
    (calls : List BreakerCall) (call : BreakerCall) :
    tracker.after overflowChecks (calls ++ [call]) =
      (tracker.after overflowChecks calls).bind fun tracker =>
        (tracker.step overflowChecks call).map Prod.snd := by
  unfold after
  rw [List.foldlM_append]
  cases hcalls : List.foldlM
    (fun tracker call => (step overflowChecks tracker call).map Prod.snd) tracker calls with
  | none => rfl
  | some t => simp

/-- Below the top of its range, the tracker counts. -/
theorem recordFailure_eq (tracker : ConsecutiveFailureTracker) (overflowChecks : Bool)
    (h : tracker.failures.toNat + 1 < UInt32.size) :
    tracker.recordFailure overflowChecks =
      some (decide (tracker.threshold.toNat ≤ tracker.failures.toNat + 1),
        { tracker with failures := tracker.failures + 1 }) ∧
      (tracker.failures + 1).toNat = tracker.failures.toNat + 1 := by
  have hadd : (tracker.failures + 1).toNat = tracker.failures.toNat + 1 := by
    rw [UInt32.toNat_add]
    exact Nat.mod_eq_of_lt h
  refine ⟨?_, hadd⟩
  unfold recordFailure
  rw [if_neg (by omega)]
  simp only [UInt32.le_iff_toNat_le, hadd]

end ConsecutiveFailureTracker

end Torpc
