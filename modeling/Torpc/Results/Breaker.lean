import Torpc.Model.CircuitBreaker
import Mathlib.Data.List.Induction

/-!
# The circuit breaker over whole runs

A run is a sequence of method calls on one breaker, by any number of callers:
the mutex makes each call atomic, so an interleaving is such a sequence.

Main results:

* `single_probe_iff` — after an Open breaker flips to HalfOpen, the flipping
  `can_proceed` is the only one let through until a result is recorded
  *exactly* in the runs where nobody calls `can_proceed` on a HalfOpen breaker:
  nothing in the state remembers that a probe is outstanding.
* `second_probe_admitted` — a concrete run with two probes.
-/

namespace Torpc

namespace CircuitBreaker

/-- `can_proceed` at `now` would flip this breaker from Open to HalfOpen. -/
def Flips (now : Nat) (cb : CircuitBreaker) : Prop :=
  ∃ openedAt, cb.state = .opened openedAt ∧ cb.recoveryTimeout ≤ now - openedAt

/-- A breaker whose timeout is over lets the caller through, and is half-open from then on.
-/
theorem Flips.canProceed {now : Nat} {cb : CircuitBreaker} (h : Flips now cb) :
    cb.canProceed now = (true, { cb with state := .halfOpen }) := by
  obtain ⟨openedAt, hs, ht⟩ := h
  simp [CircuitBreaker.canProceed, hs, ht]

/-- A HalfOpen breaker lets every caller through and stays as it is. -/
theorem canProceed_halfOpen {cb : CircuitBreaker} (h : cb.state = .halfOpen) (now : Nat) :
    cb.canProceed now = (true, cb) := by
  simp [canProceed, h]

/-- The only call that leaves a breaker HalfOpen is a `can_proceed`, and the
breaker was HalfOpen before it or was flipped by it. -/
theorem step_halfOpen {cb : CircuitBreaker} {call : Nat × BreakerCall}
    (h : (cb.step call).state = .halfOpen) :
    call.2 = .canProceed ∧ (cb.state = .halfOpen ∨ Flips call.1 cb) := by
  obtain ⟨now, kind⟩ := call
  cases kind with
  | canProceed =>
    refine ⟨rfl, ?_⟩
    simp only [step] at h
    rcases canProceed_cases now cb with ⟨n, hs, hc⟩ | ⟨hs, -⟩ | ⟨t, hs, ht, -⟩ | ⟨t, hs, -, hc⟩
    · -- a Closed breaker stays Closed
      rw [hc, hs] at h
      cases h
    · exact Or.inl hs
    · exact Or.inr ⟨t, hs, ht⟩
    · rw [hc, hs] at h
      cases h
  | recordSuccess =>
    simp only [step] at h
    rcases recordSuccess_cases cb with ⟨⟨t, hs⟩, hc⟩ | hc
    · rw [hc, hs] at h
      cases h
    · rw [hc] at h
      cases h
  | recordFailure =>
    simp only [step] at h
    rcases recordFailure_cases now cb with ⟨t, ht⟩ | ⟨n, -, -, hc⟩
    · rw [ht] at h
      cases h
    · rw [hc] at h
      cases h

/-- A breaker found HalfOpen was flipped by an earlier `can_proceed`, and only
`can_proceed` has been called since. -/
theorem halfOpen_origin {cb : CircuitBreaker} (hcb : cb.state ≠ .halfOpen) :
    ∀ calls, (cb.after calls).state = .halfOpen →
      ∃ pre now mid, calls = pre ++ (now, .canProceed) :: mid ∧ Flips now (cb.after pre) ∧
        ∀ call ∈ mid, call.2 = .canProceed := by
  intro calls
  induction calls using List.reverseRecOn with
  | nil =>
    intro h
    exact absurd h hcb
  | append_singleton calls call ih =>
    intro h
    rw [after_append, after_singleton] at h
    obtain ⟨hkind, hs | hflip⟩ := step_halfOpen h
    · -- HalfOpen already before the call: the flip is further back
      obtain ⟨pre, now, mid, rfl, hflip, hmid⟩ := ih hs
      refine ⟨pre, now, mid ++ [call], by simp, hflip, ?_⟩
      intro c hc
      rcases List.mem_append.mp hc with hc | hc
      · exact hmid c hc
      · rw [List.mem_singleton.mp hc]
        exact hkind
    · -- this very call flips
      obtain ⟨now, kind⟩ := call
      obtain rfl : kind = .canProceed := hkind
      exact ⟨calls, now, [], rfl, hflip, by simp⟩

/-- While only `can_proceed` is called, a HalfOpen breaker stays HalfOpen. -/
theorem after_halfOpen {cb : CircuitBreaker} (h : cb.state = .halfOpen) :
    ∀ calls : List (Nat × BreakerCall), (∀ call ∈ calls, call.2 = .canProceed) →
      cb.after calls = cb := by
  intro calls
  induction calls with
  | nil => exact fun _ => rfl
  | cons call calls ih =>
    intro hcalls
    obtain ⟨now, kind⟩ := call
    obtain rfl : kind = .canProceed := hcalls _ List.mem_cons_self
    have hstep : cb.step (now, .canProceed) = cb := by
      simp only [step, canProceed_halfOpen h]
    have hrest := ih fun c hc => hcalls c (List.mem_cons_of_mem _ hc)
    rw [show cb.after ((now, .canProceed) :: calls) = (cb.step (now, .canProceed)).after calls
      from rfl, hstep, hrest]

-- ---------------------------------------------------------------------------
-- One probe at a time
-- ---------------------------------------------------------------------------

/-- From a flip to HalfOpen until the next recorded result, the flipping
`can_proceed` returns true and every other one returns false. -/
def SingleProbe (cb : CircuitBreaker) (calls : List (Nat × BreakerCall)) : Prop :=
  ∀ pre now mid, pre ++ (now, .canProceed) :: mid <+: calls → Flips now (cb.after pre) →
    (∀ call ∈ mid, call.2 = .canProceed) →
    ((cb.after pre).canProceed now).1 = true ∧
    ∀ mid' now' post, mid = mid' ++ (now', .canProceed) :: post →
      ((cb.after (pre ++ (now, .canProceed) :: mid')).canProceed now').1 = false

/-- No `can_proceed` reaches the breaker while it is HalfOpen. -/
def NoCallWhileHalfOpen (cb : CircuitBreaker) (calls : List (Nat × BreakerCall)) : Prop :=
  ∀ pre now post, calls = pre ++ (now, .canProceed) :: post → (cb.after pre).state ≠ .halfOpen

/-- **When the probe is single.** In a run of calls on a fresh breaker, of any
configuration, the documented "exactly one probe" holds if and only if no
caller asks while the breaker is HalfOpen. -/
theorem single_probe_iff (failureThreshold recoveryTimeout : Nat)
    (calls : List (Nat × BreakerCall)) :
    SingleProbe (withConfig failureThreshold recoveryTimeout) calls ↔
      NoCallWhileHalfOpen (withConfig failureThreshold recoveryTimeout) calls := by
  set cb := withConfig failureThreshold recoveryTimeout with hcb
  have hstart : cb.state ≠ .halfOpen := by simp [hcb, withConfig]
  constructor
  · -- a call on a HalfOpen breaker is a second probe after the flip behind it
    intro hsingle before now' post hcalls hhalf
    obtain ⟨pre, now, mid, rfl, hflip, hmid⟩ := halfOpen_origin hstart before hhalf
    have hprefix : pre ++ (now, .canProceed) :: (mid ++ [(now', .canProceed)]) <+: calls :=
      ⟨post, by simp [hcalls]⟩
    have hkinds : ∀ call ∈ mid ++ [(now', BreakerCall.canProceed)], call.2 = .canProceed := by
      intro call hcall
      rcases List.mem_append.mp hcall with hc | hc
      · exact hmid call hc
      · rw [List.mem_singleton.mp hc]
    have hfalse := (hsingle pre now _ hprefix hflip hkinds).2 mid now' [] rfl
    rw [canProceed_halfOpen hhalf] at hfalse
    cases hfalse
  · -- between the flip and the next result the breaker is HalfOpen, so nobody calls
    intro hnone pre now mid hprefix hflip hmid
    refine ⟨by rw [hflip.canProceed], ?_⟩
    rintro mid' now' post rfl
    obtain ⟨rest, hrest⟩ := hprefix
    have hhalf : (cb.after (pre ++ (now, .canProceed) :: mid')).state = .halfOpen := by
      have hflipped : (cb.after (pre ++ [(now, .canProceed)])).state = .halfOpen := by
        rw [after_append, after_singleton, step, hflip.canProceed]
      rw [show pre ++ (now, BreakerCall.canProceed) :: mid' =
        (pre ++ [(now, .canProceed)]) ++ mid' by simp, after_append,
        after_halfOpen hflipped mid' fun c hc => hmid c (List.mem_append_left _ hc)]
      exact hflipped
    exact absurd hhalf (hnone _ now' (post ++ rest) (by rw [← hrest]; simp))

/-- Two callers at the recovery edge: the flip at 10 and a second probe at 11. -/
theorem second_probe_admitted :
    ¬ SingleProbe (withConfig 1 10)
      [(0, .recordFailure), (10, .canProceed), (11, .canProceed)] := by
  intro h
  have := (h [(0, .recordFailure)] 10 [(11, .canProceed)] (List.prefix_refl _)
    ⟨0, by decide, by decide⟩ (by simp)).2 [] 11 [] rfl
  revert this
  decide

end CircuitBreaker

end Torpc
