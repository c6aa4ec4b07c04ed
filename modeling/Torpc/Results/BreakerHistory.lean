import Mathlib.Data.List.Count
import Torpc.Lib.History
import Torpc.Model.App

/-!
# What a breaker remembers of its calls

The state of a breaker is a summary of all the calls that were ever made on it,
by any number of requests in any order. Closed counts the failures since the
last reset (`closed_counts`), Open holds the instant of the latest opening and
of nothing later (`opened_iff`). In every run of the daemon its breakers have
histories of this kind (`Daemon.circuit_history`).

* `counts_consecutive_failures` — no failure is lost or counted twice, the
  counter cannot overflow, and the `ConsecutiveFailureTracker` agrees on the
  call that opens the breaker.
* `denies_iff_recently_opened` — `can_proceed` answers false while the latest
  opening is younger than the timeout, and never otherwise.
-/

namespace Torpc

open History

namespace CircuitBreaker

/-- A success that starts the count again. -/
def Resets (cb : CircuitBreaker) (call : Nat × BreakerCall) : Prop :=
  call.2 = .recordSuccess ∧ ((∃ n, cb.state = .closed n) ∨ cb.state = .halfOpen)

/-- A call that takes the breaker into Open. -/
def Opens (cb : CircuitBreaker) (call : Nat × BreakerCall) : Prop :=
  ¬ cb.isOpen ∧ (cb.step call).isOpen

/-- The failures recorded among `calls`. -/
def failuresIn (calls : List (Nat × BreakerCall)) : Nat :=
  calls.countP fun call => call.2 = .recordFailure

/-- The failures of a history, counted up to its last call. -/
theorem failuresIn_snoc (calls : List (Nat × BreakerCall)) (call : Nat × BreakerCall) :
    failuresIn (calls ++ [call]) =
      failuresIn calls + if call.2 = .recordFailure then 1 else 0 := by
  simp [failuresIn, List.countP_append, List.countP_singleton]

theorem not_isOpen_closed {cb : CircuitBreaker} {n : Nat} (h : cb.state = .closed n) :
    ¬ cb.isOpen := by
  rintro ⟨t, ht⟩
  rw [h] at ht
  cases ht

theorem not_isOpen_halfOpen {cb : CircuitBreaker} (h : cb.state = .halfOpen) : ¬ cb.isOpen := by
  rintro ⟨t, ht⟩
  rw [h] at ht
  cases ht

/-- A breaker is not made open. -/
theorem withConfig_not_isOpen (failureThreshold recoveryTimeout : Nat) :
    ¬ (withConfig failureThreshold recoveryTimeout).isOpen :=
  not_isOpen_closed rfl

-- ---------------------------------------------------------------------------
-- The count of a Closed breaker
-- ---------------------------------------------------------------------------

/-- Only a success sets the count of failures back. -/
theorem not_resets {cb : CircuitBreaker} {call : Nat × BreakerCall}
    (h : call.2 ≠ .recordSuccess) : ¬ Resets cb call :=
  fun hreset => h hreset.1

/-- A breaker that is Closed after a call was reset by it, or was Closed before
and has counted the call if it is a failure. -/
theorem closed_step {cb : CircuitBreaker} {call : Nat × BreakerCall} {n : Nat}
    (h : (cb.step call).state = .closed n) :
    (Resets cb call ∧ n = 0) ∨
    (¬ Resets cb call ∧ ∃ m, cb.state = .closed m ∧
      n = m + (if call.2 = .recordFailure then 1 else 0) ∧
      (call.2 = .recordFailure → n < cb.failureThreshold)) := by
  obtain ⟨now, kind⟩ := call
  cases hs : cb.state with
  | closed m =>
    rw [step_closed hs] at h
    cases kind with
    | canProceed =>
      cases h
      exact .inr ⟨not_resets nofun, n, rfl, rfl, nofun⟩
    | recordSuccess =>
      cases h
      exact .inl ⟨⟨rfl, .inl ⟨m, hs⟩⟩, rfl⟩
    | recordFailure =>
      dsimp only at h
      split at h
      · cases h
      · next hlow =>
        cases h
        exact .inr ⟨not_resets nofun, m, rfl, rfl, fun _ => by omega⟩
  | opened t =>
    rw [step_opened hs] at h
    split at h <;> cases h
  | halfOpen =>
    rw [step_halfOpen_state hs] at h
    cases kind with
    | canProceed => cases h
    | recordSuccess =>
      cases h
      exact .inl ⟨⟨rfl, .inr hs⟩, rfl⟩
    | recordFailure => cases h

/-- **The count.** Closed holds the number of failures since the last reset, or
since the breaker was made; it is below the threshold. -/
theorem closed_counts {failureThreshold recoveryTimeout : Nat} (hN : 1 ≤ failureThreshold)
    (calls : List (Nat × BreakerCall)) : ∀ n,
    ((withConfig failureThreshold recoveryTimeout).after calls).state = .closed n →
    n < failureThreshold ∧ ∃ since,
      Since step Resets (withConfig failureThreshold recoveryTimeout) calls since ∧
      n = failuresIn since := by
  induction calls using List.reverseRecOn with
  | nil =>
    rintro n ⟨⟩
    exact ⟨hN, [], since_nil, rfl⟩
  | append_singleton calls call ih =>
    intro n hn
    rw [after_append, after_singleton] at hn
    rcases closed_step hn with ⟨hreset, rfl⟩ | ⟨hkeep, m, hm, rfl, hlow⟩
    · exact ⟨hN, [], since_self hreset, rfl⟩
    · obtain ⟨hmlow, since, hsince, rfl⟩ := ih m hm
      refine ⟨?_, since ++ [call], hsince.snoc hkeep, (failuresIn_snoc since call).symm⟩
      split
      · next hfailure =>
        have := hlow hfailure
        rwa [if_pos hfailure, after_failureThreshold] at this
      · exact hmlow

/-- A Closed breaker is left at the failure that makes the count the threshold. -/
theorem leaves_closed_iff {cb : CircuitBreaker} {n : Nat} (h : cb.state = .closed n)
    (hn : n < cb.failureThreshold) (call : Nat × BreakerCall) :
    (∀ m, (cb.step call).state ≠ .closed m) ↔
      call.2 = .recordFailure ∧ n + 1 = cb.failureThreshold := by
  obtain ⟨now, kind⟩ := call
  rw [step_closed h]
  cases kind with
  | canProceed => simp
  | recordSuccess => simp
  | recordFailure =>
    dsimp only
    split
    · simp
      omega
    · simp
      omega

-- ---------------------------------------------------------------------------
-- The tracker
-- ---------------------------------------------------------------------------

/-- The breaker has not been Open so far. -/
def NeverOpen (cb : CircuitBreaker) (calls : List (Nat × BreakerCall)) : Prop :=
  ∀ p, p <+: calls → ¬ (cb.after p).isOpen

/-- `call`, made after `pre`, is the first to leave the breaker Open. -/
def FirstOpens (cb : CircuitBreaker) (pre : List (Nat × BreakerCall))
    (call : Nat × BreakerCall) : Prop :=
  cb.NeverOpen pre ∧ (cb.after (pre ++ [call])).isOpen

/-- A breaker that has never opened has not opened with the last call. -/
theorem neverOpen_snoc {cb : CircuitBreaker} {calls : List (Nat × BreakerCall)}
    {call : Nat × BreakerCall} : cb.NeverOpen (calls ++ [call]) ↔
      cb.NeverOpen calls ∧ ¬ (cb.after (calls ++ [call])).isOpen := by
  simp only [NeverOpen, List.prefix_concat_iff, or_imp, forall_and, forall_eq, and_comm]

end CircuitBreaker

namespace ConsecutiveFailureTracker

/-- The tracker answers true to `call`, made after `pre`. -/
def Trips (overflowChecks : Bool) (tracker : ConsecutiveFailureTracker)
    (pre : List BreakerCall) (call : BreakerCall) : Prop :=
  ∃ t t', tracker.after overflowChecks pre = some t ∧
    t.step overflowChecks call = some (true, t')

/-- The tracker has not answered true so far. -/
def NeverTrips (overflowChecks : Bool) (tracker : ConsecutiveFailureTracker)
    (calls : List BreakerCall) : Prop :=
  ∀ p c, p ++ [c] <+: calls → ¬ tracker.Trips overflowChecks p c

/-- `call`, made after `pre`, is the first to which the tracker answers true. -/
def FirstTrips (overflowChecks : Bool) (tracker : ConsecutiveFailureTracker)
    (pre : List BreakerCall) (call : BreakerCall) : Prop :=
  tracker.NeverTrips overflowChecks pre ∧ tracker.Trips overflowChecks pre call

/-- And a tracker has not tripped with the last call. -/
theorem neverTrips_snoc {overflowChecks : Bool} {tracker : ConsecutiveFailureTracker}
    {calls : List BreakerCall} {call : BreakerCall} :
    tracker.NeverTrips overflowChecks (calls ++ [call]) ↔
      tracker.NeverTrips overflowChecks calls ∧ ¬ tracker.Trips overflowChecks calls call := by
  constructor
  · intro hall
    exact ⟨fun p c hp => hall p c (List.prefix_concat_iff.mpr (.inr hp)),
      hall _ _ List.prefix_rfl⟩
  · rintro ⟨hearlier, hlast⟩ p c hp
    rcases List.prefix_concat_iff.mp hp with heq | hp
    · obtain ⟨rfl, hc⟩ := List.append_inj' heq rfl
      obtain rfl := List.head_eq_of_cons_eq hc
      exact hlast
    · exact hearlier p c hp

/-- A tracker answers true to a call if its step says so. -/
theorem trips_iff {overflowChecks : Bool} {tracker t t' : ConsecutiveFailureTracker}
    {calls : List BreakerCall} {call : BreakerCall} {trips : Bool}
    (ht : tracker.after overflowChecks calls = some t)
    (hans : t.step overflowChecks call = some (trips, t')) :
    tracker.Trips overflowChecks calls call ↔ trips = true := by
  constructor
  · rintro ⟨u, u', hu, hans'⟩
    obtain rfl := Option.some.inj (ht.symm.trans hu)
    rw [hans] at hans'
    exact (Prod.mk.inj (Option.some.inj hans')).1
  · rintro rfl
    exact ⟨t, t', ht, hans⟩

end ConsecutiveFailureTracker

namespace CircuitBreaker

/-- A breaker that has not opened and a tracker of the same threshold. -/
structure Agree (cb : CircuitBreaker) (tracker : ConsecutiveFailureTracker) : Prop where
  threshold : cb.failureThreshold = tracker.threshold.toNat
  state : cb.state = .closed tracker.failures.toNat
  low : tracker.failures.toNat < tracker.threshold.toNat

/-- A call that both take has the tracker answer true if it opens the breaker,
and leaves them in agreement if not. -/
theorem Agree.step {cb : CircuitBreaker} {tracker : ConsecutiveFailureTracker}
    (h : Agree cb tracker) (overflowChecks : Bool) {call : Nat × BreakerCall}
    (hcall : call.2 ≠ .canProceed) :
    ∃ trips tracker', tracker.step overflowChecks call.2 = some (trips, tracker') ∧
      (trips = true ↔ (cb.step call).isOpen) ∧ (trips = false → Agree (cb.step call) tracker') := by
  obtain ⟨now, kind⟩ := call
  have hstate := step_closed h.state (now, kind)
  have hlow := h.low
  cases kind with
  | canProceed => exact absurd rfl hcall
  | recordSuccess =>
    refine ⟨false, _, rfl, ?_, fun _ => ⟨?_, hstate, Nat.zero_lt_of_lt hlow⟩⟩
    · simp [not_isOpen_closed hstate]
    · rw [step_failureThreshold, h.threshold]
      rfl
  | recordFailure =>
    -- the count stays below the threshold, so the tracker's own does not overflow
    have hsize := tracker.threshold.toNat_lt_size
    obtain ⟨htracker, hadd⟩ := tracker.recordFailure_eq overflowChecks (by omega)
    refine ⟨_, _, htracker, ?_⟩
    rw [h.threshold] at hstate
    by_cases hfull : tracker.threshold.toNat ≤ tracker.failures.toNat + 1
    · have hopen : (cb.step (now, .recordFailure)).isOpen := ⟨now, by simp [hstate, hfull]⟩
      simp [hfull, hopen]
    · have hclosed : (cb.step (now, .recordFailure)).state =
          .closed (tracker.failures + 1).toNat := by
        rw [hstate, hadd]
        exact if_neg hfull
      refine ⟨by simp [hfull, not_isOpen_closed hclosed], fun _ => ⟨?_, hclosed, ?_⟩⟩
      · rw [step_failureThreshold, h.threshold]
      · dsimp only
        omega

/-- The tracker and a breaker with the same threshold agree when they are made. -/
theorem tracker_new_agrees {N : UInt32} (hN : 1 ≤ N) (recoveryTimeout : Nat) :
    Agree (withConfig N.toNat recoveryTimeout) (.new N) :=
  ⟨rfl, rfl, UInt32.le_iff_toNat_le.mp hN⟩

/-- The tracker answers true to a call that opens the breaker, and to no other;
after any other they still agree. -/
theorem Agree.call {cb : CircuitBreaker} {tracker t : ConsecutiveFailureTracker}
    {overflowChecks : Bool} {calls : List (Nat × BreakerCall)} {call : Nat × BreakerCall}
    (ht : tracker.after overflowChecks (calls.map Prod.snd) = some t)
    (h : Agree (cb.after calls) t) (hcall : call.2 ≠ .canProceed) :
    ((cb.after (calls ++ [call])).isOpen ↔
      tracker.Trips overflowChecks (calls.map Prod.snd) call.2) ∧
    (¬ (cb.after (calls ++ [call])).isOpen → ∃ t',
      tracker.after overflowChecks ((calls ++ [call]).map Prod.snd) = some t' ∧
        Agree (cb.after (calls ++ [call])) t') := by
  obtain ⟨trips, t', hans, hverdict, hnext⟩ := h.step overflowChecks hcall
  rw [after_append, after_singleton, ConsecutiveFailureTracker.trips_iff ht hans, hverdict]
  refine ⟨Iff.rfl, fun hshut => ⟨t', ?_, hnext ?_⟩⟩
  · rw [List.map_append, List.map_singleton, ConsecutiveFailureTracker.after_snoc, ht]
    simp [hans]
  · rw [← Bool.not_eq_true, hverdict]
    exact hshut

/-- A breaker and a tracker that agree do so until the breaker opens, which it
has not done as long as the tracker has not answered true. -/
theorem agree_until_open {cb : CircuitBreaker} {tracker : ConsecutiveFailureTracker}
    (h : Agree cb tracker) (overflowChecks : Bool) (calls : List (Nat × BreakerCall))
    (hcalls : ∀ call ∈ calls, call.2 ≠ .canProceed) :
    (cb.NeverOpen calls ↔ tracker.NeverTrips overflowChecks (calls.map Prod.snd)) ∧
    (cb.NeverOpen calls → ∃ t,
      tracker.after overflowChecks (calls.map Prod.snd) = some t ∧ Agree (cb.after calls) t) := by
  induction calls using List.reverseRecOn with
  | nil =>
    refine ⟨⟨fun _ p c hp => by simp at hp, fun _ p hp => ?_⟩, fun _ => ⟨tracker, rfl, h⟩⟩
    rw [List.prefix_nil.mp hp]
    exact not_isOpen_closed h.state
  | append_singleton calls call ih =>
    obtain ⟨hiff, hagree⟩ := ih fun c hc => hcalls c (List.mem_append_left _ hc)
    have hcall : call.2 ≠ .canProceed := hcalls call (by simp)
    constructor
    · rw [neverOpen_snoc, List.map_append, List.map_singleton,
        ConsecutiveFailureTracker.neverTrips_snoc, ← hiff]
      refine and_congr_right fun hnever => not_congr ?_
      obtain ⟨t, ht, hag⟩ := hagree hnever
      exact (hag.call ht hcall).1
    · intro hnever
      obtain ⟨hnever, hshut⟩ := neverOpen_snoc.mp hnever
      obtain ⟨t, ht, hag⟩ := hagree hnever
      exact (hag.call ht hcall).2 hshut

/-- The breaker opens first at the call at which the tracker answers true first. -/
theorem firstOpens_iff_firstTrips {cb : CircuitBreaker} {tracker : ConsecutiveFailureTracker}
    (h : Agree cb tracker) (overflowChecks : Bool) {calls : List (Nat × BreakerCall)}
    {call : Nat × BreakerCall} (hcalls : ∀ c ∈ calls ++ [call], c.2 ≠ .canProceed) :
    cb.FirstOpens calls call ↔
      tracker.FirstTrips overflowChecks (calls.map Prod.snd) call.2 := by
  obtain ⟨hiff, hagree⟩ := agree_until_open h overflowChecks calls
    fun c hc => hcalls c (List.mem_append_left _ hc)
  unfold FirstOpens ConsecutiveFailureTracker.FirstTrips
  rw [← hiff]
  refine and_congr_right fun hnever => ?_
  obtain ⟨t, ht, hag⟩ := hagree hnever
  exact (hag.call ht (hcalls call (by simp))).1

/-- **Counting.** In every state reached, Closed holds the number of failures
since the last reset, below the threshold and so within its range; it is left at
the failure that makes the number the threshold. Of recorded results, the breaker
and a tracker make the same. -/
theorem counts_consecutive_failures {N : UInt32} (hN : 1 ≤ N) (recoveryTimeout : Nat)
    (calls : List (Nat × BreakerCall)) :
    (∀ n, ((withConfig N.toNat recoveryTimeout).after calls).state = .closed n →
      (∃ since, Since step Resets (withConfig N.toNat recoveryTimeout) calls since ∧
        n = failuresIn since) ∧
      n < N.toNat ∧ n + 1 < UInt32.size ∧
      ∀ call, (∀ m, (((withConfig N.toNat recoveryTimeout).after calls).step call).state ≠
        .closed m) ↔ call.2 = .recordFailure ∧ n + 1 = N.toNat) ∧
    ∀ overflowChecks call, (∀ c ∈ calls ++ [call], c.2 ≠ .canProceed) →
      ((withConfig N.toNat recoveryTimeout).FirstOpens calls call ↔
        (ConsecutiveFailureTracker.new N).FirstTrips overflowChecks (calls.map Prod.snd)
          call.2) := by
  refine ⟨fun n hn => ?_, fun overflowChecks call hcalls => ?_⟩
  · have hpos : 1 ≤ N.toNat := UInt32.le_iff_toNat_le.mp hN
    obtain ⟨hlow, since, hsince, hcount⟩ := closed_counts hpos calls n hn
    have hsize := N.toNat_lt_size
    have hthreshold : ((withConfig N.toNat recoveryTimeout).after calls).failureThreshold =
        N.toNat := after_failureThreshold _ calls
    refine ⟨⟨since, hsince, hcount⟩, hlow, by omega, fun call => ?_⟩
    have hleaves := leaves_closed_iff hn (hthreshold.symm ▸ hlow) call
    rwa [hthreshold] at hleaves
  · exact firstOpens_iff_firstTrips (tracker_new_agrees hN recoveryTimeout) overflowChecks hcalls

/-- With threshold 2: failure, success, failure, and the next failure opens. -/
theorem counts_consecutive_failures_two :
    (withConfig 2 10).FirstOpens [(0, .recordFailure), (1, .recordSuccess), (2, .recordFailure)]
      (3, .recordFailure) ∧
    (ConsecutiveFailureTracker.new 2).FirstTrips true
      [.recordFailure, .recordSuccess, .recordFailure] .recordFailure := by
  have hsame := (counts_consecutive_failures (N := 2) (by decide) 10
    [(0, .recordFailure), (1, .recordSuccess), (2, .recordFailure)]).2 true (3, .recordFailure)
    (by decide)
  have hfirst : (withConfig 2 10).FirstOpens
      [(0, .recordFailure), (1, .recordSuccess), (2, .recordFailure)] (3, .recordFailure) := by
    refine ⟨fun p hp => ?_, ⟨3, rfl⟩⟩
    simp only [List.prefix_cons_iff, List.prefix_nil] at hp
    rcases hp with rfl | ⟨p, rfl, rfl | ⟨p, rfl, rfl | ⟨p, rfl, rfl⟩⟩⟩ <;>
      exact not_isOpen_closed rfl
  exact ⟨hfirst, hsame.mp hfirst⟩

-- ---------------------------------------------------------------------------
-- The instant of an Open breaker
-- ---------------------------------------------------------------------------

/-- The latest transition into Open was at `t₀`, and the breaker has been Open since. -/
def OpenSince (cb : CircuitBreaker) (calls : List (Nat × BreakerCall)) (t₀ : Nat) : Prop :=
  ∃ pre kind post, Latest step Opens cb calls pre (t₀, kind) post ∧
    ∀ mid, mid <+: post → (cb.after (pre ++ (t₀, kind) :: mid)).isOpen

/-- A breaker found Open after a call was Open before with the same instant, or
has been opened by this call. -/
theorem opened_step {cb : CircuitBreaker} {call : Nat × BreakerCall} {t₀ : Nat}
    (h : (cb.step call).state = .opened t₀) :
    cb.state = .opened t₀ ∨ (Opens cb call ∧ call.1 = t₀) := by
  have hopen : (cb.step call).isOpen := ⟨t₀, h⟩
  obtain ⟨now, kind⟩ := call
  cases hs : cb.state with
  | closed n =>
    refine .inr ⟨⟨not_isOpen_closed hs, hopen⟩, ?_⟩
    rw [step_closed hs] at h
    cases kind with
    | recordFailure =>
      dsimp only at h
      split at h <;> cases h
      rfl
    | canProceed => cases h
    | recordSuccess => cases h
  | opened t =>
    rw [step_opened hs] at h
    split at h <;> cases h
    exact .inl rfl
  | halfOpen =>
    refine .inr ⟨⟨not_isOpen_halfOpen hs, hopen⟩, ?_⟩
    rw [step_halfOpen_state hs] at h
    cases kind with
    | recordFailure =>
      cases h
      rfl
    | canProceed => cases h
    | recordSuccess => cases h

/-- An open breaker tells since when: its last call that opened it was made at that time,
and since then it has let nobody through. -/
theorem openSince_of_opened {cb : CircuitBreaker} (hcb : ¬ cb.isOpen)
    (calls : List (Nat × BreakerCall)) : ∀ t₀, (cb.after calls).state = .opened t₀ →
      cb.OpenSince calls t₀ := by
  induction calls using List.reverseRecOn with
  | nil =>
    intro t₀ h
    exact absurd ⟨t₀, h⟩ hcb
  | append_singleton calls call ih =>
    intro t₀ h
    rw [after_append, after_singleton] at h
    rcases opened_step h with hs | ⟨hopens, rfl⟩
    · -- Open before: nothing opens it now
      obtain ⟨pre, kind, post, hlatest, hopen⟩ := ih t₀ hs
      have hkeep : ¬ Opens (cb.after calls) call := fun hopens => hopens.1 ⟨t₀, hs⟩
      refine ⟨pre, kind, post ++ [call], hlatest.snoc hkeep, fun mid hmid => ?_⟩
      rcases List.prefix_concat_iff.mp hmid with rfl | hmid
      · refine ⟨t₀, ?_⟩
        rw [← List.cons_append, ← List.append_assoc, ← hlatest.split, after_append,
          after_singleton]
        exact h
      · exact hopen mid hmid
    · obtain ⟨now, kind⟩ := call
      refine ⟨calls, kind, [], latest_self hopens, fun mid hmid => ?_⟩
      rw [List.prefix_nil.mp hmid, after_append, after_singleton]
      exact hopens.2

/-- **The instant.** Open holds the instant of the latest transition into Open,
and says that the breaker has been Open since. -/
theorem opened_iff {cb : CircuitBreaker} (hcb : ¬ cb.isOpen) {calls : List (Nat × BreakerCall)}
    {t₀ : Nat} : (cb.after calls).state = .opened t₀ ↔ cb.OpenSince calls t₀ := by
  refine ⟨openSince_of_opened hcb calls t₀, ?_⟩
  rintro ⟨pre, kind, post, hlatest, hopen⟩
  obtain ⟨t, ht⟩ := hopen post List.prefix_rfl
  rw [← hlatest.split] at ht
  -- its own history has the same latest opening
  obtain ⟨pre', kind', post', hlatest', -⟩ := openSince_of_opened hcb calls t ht
  obtain ⟨-, heq, -⟩ := hlatest.unique hlatest'
  rw [(Prod.mk.inj heq).1]
  exact ht

/-- A breaker refuses just if it is open and its timeout is not over. -/
theorem canProceed_false_iff {cb : CircuitBreaker} {now : Nat} :
    (cb.canProceed now).1 = false ↔
      ∃ t₀, cb.state = .opened t₀ ∧ now - t₀ < cb.recoveryTimeout := by
  rcases canProceed_cases now cb with ⟨n, hs, hc⟩ | ⟨hs, hc⟩ | ⟨t, hs, ht, hc⟩ | ⟨t, hs, ht, hc⟩
  · simp [hc, hs]
  · simp [hc, hs]
  · simp [hc, hs, ht]
  · simp [hc, hs, ht]

/-- Every `can_proceed` among `calls`, made after `pre`, is answered false. -/
def Denied (cb : CircuitBreaker) (pre calls : List (Nat × BreakerCall)) : Prop :=
  ∀ mid now post, calls = mid ++ (now, .canProceed) :: post →
    ((cb.after (pre ++ mid)).canProceed now).1 = false

/-- As long as nobody is let through, an Open breaker keeps its instant. -/
theorem opened_of_denied {cb : CircuitBreaker} {pre : List (Nat × BreakerCall)} {t₀ : Nat}
    (h : (cb.after pre).state = .opened t₀) (calls : List (Nat × BreakerCall)) :
    cb.Denied pre calls → (cb.after (pre ++ calls)).state = .opened t₀ := by
  induction calls using List.reverseRecOn with
  | nil =>
    intro _
    rwa [List.append_nil]
  | append_singleton calls call ih =>
    intro hdenied
    have hs := ih fun mid now post hsplit => hdenied mid now (post ++ [call]) (by simp [hsplit])
    rw [← List.append_assoc, after_append, after_singleton, step_opened hs]
    refine if_neg ?_
    rintro ⟨hkind, hlate⟩
    obtain ⟨now, kind⟩ := call
    obtain rfl : kind = .canProceed := hkind
    obtain ⟨t, ht, hearly⟩ := canProceed_false_iff.mp (hdenied calls now [] rfl)
    rw [hs] at ht
    cases ht
    omega

/-- **Denial.** At every point of every run `can_proceed` answers false if and
only if the latest transition into Open is younger than the timeout and the
breaker has been Open since; what is recorded meanwhile does not make it
younger. So a stretch of denials ends before the timeout is over, measured from
that transition, and every state has an instant from which it denies nothing. -/
theorem denies_iff_recently_opened (failureThreshold recoveryTimeout : Nat)
    (calls : List (Nat × BreakerCall)) :
    (∀ t, (((withConfig failureThreshold recoveryTimeout).after calls).canProceed t).1 = false ↔
      ∃ t₀, (withConfig failureThreshold recoveryTimeout).OpenSince calls t₀ ∧
        t - t₀ < recoveryTimeout) ∧
    (∀ t₀ call, (withConfig failureThreshold recoveryTimeout).OpenSince calls t₀ →
      call.2 ≠ .canProceed →
      (withConfig failureThreshold recoveryTimeout).OpenSince (calls ++ [call]) t₀) ∧
    (∀ pre t₁ mid t₂ post,
      calls = pre ++ (t₁, .canProceed) :: mid ++ (t₂, .canProceed) :: post →
      calls.Pairwise (fun call call' => call.1 ≤ call'.1) →
      (withConfig failureThreshold recoveryTimeout).Denied pre
        ((t₁, .canProceed) :: mid ++ [(t₂, .canProceed)]) →
      ∃ t₀, (withConfig failureThreshold recoveryTimeout).OpenSince pre t₀ ∧ t₀ ≤ t₁ ∧
        t₂ - t₀ < recoveryTimeout ∧ t₂ - t₁ < recoveryTimeout) ∧
    ∃ T, ∀ t, T ≤ t →
      (((withConfig failureThreshold recoveryTimeout).after calls).canProceed t).1 = true := by
  set cb := withConfig failureThreshold recoveryTimeout with hcb
  have hshut : ¬ cb.isOpen := withConfig_not_isOpen failureThreshold recoveryTimeout
  have htimeout : ∀ calls, (cb.after calls).recoveryTimeout = recoveryTimeout :=
    after_recoveryTimeout cb
  refine ⟨fun t => ?_, fun t₀ call hsince hkind => ?_, ?_, ?_⟩
  · simp only [canProceed_false_iff, htimeout, opened_iff hshut]
  · rw [← opened_iff hshut] at hsince ⊢
    rw [after_append, after_singleton, step_opened hsince, if_neg fun h => hkind h.1]
  · rintro pre t₁ mid t₂ post rfl hsorted hdenied
    obtain ⟨t₀, ht₀, -⟩ := canProceed_false_iff.mp (hdenied [] t₁ (mid ++ [(t₂, .canProceed)]) rfl)
    rw [List.append_nil] at ht₀
    have hopen := opened_of_denied ht₀ ((t₁, .canProceed) :: mid)
      fun mid' now post' hsplit => hdenied mid' now (post' ++ [(t₂, .canProceed)])
        (by simp [hsplit])
    obtain ⟨t, ht, hlast⟩ :=
      canProceed_false_iff.mp (hdenied ((t₁, .canProceed) :: mid) t₂ [] rfl)
    rw [hopen] at ht
    cases ht
    rw [htimeout] at hlast
    have hsince := (opened_iff hshut).mp ht₀
    have hle : t₀ ≤ t₁ := by
      obtain ⟨pre', kind, post', hlatest, -⟩ := hsince
      have hmem : (t₀, kind) ∈ pre := by
        rw [hlatest.split]
        simp
      rw [List.append_assoc] at hsorted
      exact (List.pairwise_append.mp hsorted).2.2 (t₀, kind) hmem (t₁, .canProceed) (by simp)
    exact ⟨t₀, hsince, hle, hlast, by omega⟩
  · cases hs : (cb.after calls).state with
    | opened t₀ =>
      refine ⟨t₀ + recoveryTimeout, fun t ht => ?_⟩
      rw [← Bool.not_eq_false, canProceed_false_iff, htimeout]
      rintro ⟨t', ht', hearly⟩
      rw [hs] at ht'
      cases ht'
      omega
    | closed n => exact ⟨0, fun t _ => by simp [canProceed, hs]⟩
    | halfOpen => exact ⟨0, fun t _ => by simp [canProceed, hs]⟩

end CircuitBreaker

-- ---------------------------------------------------------------------------
-- The daemon's circuits
-- ---------------------------------------------------------------------------

/-- In every run of the daemon each circuit is a fresh breaker after some calls,
made in the order of their instants. -/
theorem Daemon.circuit_history {d : Daemon} {t : Nat} {ls : List d.system.Label}
    {c : d.system.Config} (h : d.RunFrom t ls c) (circuit : Circuit) :
    ∃ calls, c.shared.circuit circuit = CircuitBreaker.new.after calls ∧
      calls.Pairwise (fun call call' => call.1 ≤ call'.1) ∧
      ∀ call ∈ calls, call.1 ≤ c.shared.now := by
  induction h with
  | nil =>
    refine ⟨[], ?_, .nil, nofun⟩
    cases circuit <;> rfl
  | @snoc c c' ls l _ hstep ih =>
    obtain ⟨calls, hcircuit, hsorted, hpast⟩ := ih
    cases hstep with
    | spawn job hacc => exact ⟨calls, hcircuit, hsorted, hpast⟩
    | done i job a hi => exact ⟨calls, hcircuit, hsorted, hpast⟩
    | cancel i job o k hi hc => exact ⟨calls, hcircuit, hsorted, hpast⟩
    | act i job o k r s' hi hex =>
      have hnow : s'.now = c.shared.now := exec_now hex
      have hafter := exec_circuit hex circuit
      cases hcall : o.breakerCall circuit with
      | none =>
        rw [hcall, hcircuit] at hafter
        exact ⟨calls, hafter, hsorted, fun call hmem => hnow ▸ hpast call hmem⟩
      | some call =>
        -- one call more, made now
        rw [hcall, hcircuit] at hafter
        refine ⟨calls ++ [(c.shared.now, call)], ?_, ?_, ?_⟩
        · rw [CircuitBreaker.after_append, CircuitBreaker.after_singleton]
          exact hafter
        · refine List.pairwise_append.mpr ⟨hsorted, List.pairwise_singleton _ _, ?_⟩
          intro call' hmem last hlast
          rw [List.mem_singleton.mp hlast]
          exact hpast call' hmem
        · intro call' hmem
          show call'.1 ≤ s'.now
          rw [hnow]
          rcases List.mem_append.mp hmem with hmem | hmem
          · exact hpast call' hmem
          · rw [List.mem_singleton.mp hmem]
    | env s' henv =>
      rcases henv with ⟨now, hnow, rfl⟩ | ⟨l, -, rfl⟩ | ⟨peer, rfl⟩
      · refine ⟨calls, ?_, hsorted, fun call hmem => (hpast call hmem).trans hnow⟩
        cases circuit <;> exact hcircuit
      · refine ⟨calls, ?_, hsorted, hpast⟩
        cases circuit <;> exact hcircuit
      · refine ⟨calls, ?_, hsorted, hpast⟩
        cases circuit <;> exact hcircuit

end Torpc
