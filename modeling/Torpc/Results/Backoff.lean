import Mathlib.Tactic.Linarith
import Torpc.Model.MevClient

/-!
# How long a retry waits

The wait before a retry doubles with every attempt up to a greatest delay, and
jitter moves it by a fraction of itself either way. The doubling is a power of
two in 32 bits, taken before the cap: from attempt 32 on a build with overflow
checks panics there, and one without waits for zero. Up to attempt 31 the wait
is within the jitter of the capped delay, as far as 64 bits of milliseconds go
(`backoff_bounds`).
-/

namespace Torpc

open Effects Prog

/-- The delay without the jitter, in whole milliseconds. -/
def RetryPolicy.cappedMillis (p : RetryPolicy) (attempt : Nat) : Nat :=
  min (asMillis p.initialDelay * 2 ^ attempt) (asMillis p.maxDelay)

/-- What is left of a number of milliseconds as `u64`. -/
def truncateMillis (q : Rat) : Nat := min (max q 0).floor.toNat (2 ^ 64 - 1)

/-- The call samples a jitter once, from a range that is not empty, and whatever
it gets, the delay is within the jitter of the capped one. -/
def RetryPolicy.WithinBounds (p : RetryPolicy) (x : Externals) (attempt : Nat) : Prop :=
  ∃ (range : Rat) (delay : Rat → Nat),
    p.calculateDelay x attempt =
      .op (.genJitter range) (fun jitter : Rat => .pure (delay jitter)) ∧
    0 ≤ range ∧ ∀ jitter, -range ≤ jitter → jitter ≤ range →
      ((1 - p.jitterFactor) * p.cappedMillis attempt).floor ≤ (delay jitter : Int) ∧
      (delay jitter : Rat) ≤ (1 + p.jitterFactor) * p.cappedMillis attempt

/-- The attempts for which the delay comes out right. -/
def RetryPolicy.Representable (p : RetryPolicy) (x : Externals) (attempt : Nat) : Prop :=
  (attempt < 32 ∨
    (x.overflowChecks = false ∧ (1 - p.jitterFactor) * p.cappedMillis attempt < 1)) ∧
  (1 - p.jitterFactor) * p.cappedMillis attempt < 2 ^ 64

-- ---------------------------------------------------------------------------
-- Truncation
-- ---------------------------------------------------------------------------

/-- The whole milliseconds of a delay that is not negative, as an integer. -/
theorem floor_toNat (q : Rat) : ((max q 0).floor.toNat : Int) = (max q 0).floor := by
  have hfloor : (0 : Int) ≤ (max q 0).floor :=
    Rat.le_floor_iff.mpr (by rw [Int.cast_zero]; exact le_max_right q 0)
  omega

/-- Truncation never makes a delay longer. -/
theorem truncateMillis_le {q bound : Rat} (hq : q ≤ bound) (hbound : 0 ≤ bound) :
    (truncateMillis q : Rat) ≤ bound := by
  have hmin : (truncateMillis q : Int) ≤ (max q 0).floor := by
    rw [← floor_toNat]
    unfold truncateMillis
    omega
  calc (truncateMillis q : Rat) = ((truncateMillis q : Int) : Rat) := (Int.cast_natCast _).symm
    _ ≤ (max q 0).floor := Int.cast_le.mpr hmin
    _ ≤ max q 0 := Rat.floor_le _
    _ ≤ bound := max_le hq hbound

/-- A bound that 64 bits hold survives the truncation. -/
theorem floor_le_truncateMillis {low q : Rat} (hq : low ≤ q) (hlow : low < 2 ^ 64) :
    low.floor ≤ (truncateMillis q : Int) := by
  have hfloor : low.floor ≤ (max q 0).floor := Rat.floor_monotone (hq.trans (le_max_left q 0))
  have hbig : low.floor < 2 ^ 64 := Rat.floor_lt_iff.mpr (by exact_mod_cast hlow)
  have hnat := floor_toNat q
  unfold truncateMillis
  omega

/-- A delay that is truncated to no less than its whole milliseconds fits into 64 bits. -/
theorem lt_of_floor_le_truncateMillis {low q : Rat}
    (h : low.floor ≤ (truncateMillis q : Int)) : low < 2 ^ 64 := by
  have hbig : low.floor < (2 ^ 64 : Int) := by
    unfold truncateMillis at h
    omega
  have hlow := Rat.floor_lt_iff.mp hbig
  exact_mod_cast hlow

-- ---------------------------------------------------------------------------
-- The delay
-- ---------------------------------------------------------------------------

variable {p : RetryPolicy} {x : Externals} {attempt factor : Nat}

/-- A call that gets through the power of two samples around the capped delay. -/
theorem calculateDelay_eq (hj : 0 ≤ p.jitterFactor)
    (hfactor : pow2 x.overflowChecks attempt = some factor) {capped : Nat}
    (hcapped : min (asMillis p.initialDelay * factor) (asMillis p.maxDelay) = capped) :
    p.calculateDelay x attempt = .op (.genJitter (capped * p.jitterFactor))
      (fun jitter : Rat => .pure (truncateMillis (capped + jitter))) := by
  have hcast : min ((asMillis p.initialDelay : Rat) * factor) (asMillis p.maxDelay) = capped := by
    rw [← hcapped, Nat.cast_min, Nat.cast_mul]
  have hrange : ¬ (capped : Rat) * p.jitterFactor < 0 :=
    not_lt.mpr (mul_nonneg (Nat.cast_nonneg capped) hj)
  unfold RetryPolicy.calculateDelay
  rw [hfactor]
  simp only []
  rw [hcast, if_neg hrange]
  rfl

/-- What is sampled and what is returned can be read off the call. -/
theorem sampled_inj {range range' : Rat} {delay delay' : Rat → Nat}
    (h : (.op (.genJitter range) (fun jitter : Rat => .pure (delay jitter)) : Handler Nat) =
      .op (.genJitter range') (fun jitter : Rat => .pure (delay' jitter))) :
    range = range' ∧ delay = delay' := by
  injection h with hop hk
  injection hop with hrange
  subst hrange
  refine ⟨rfl, funext fun jitter => ?_⟩
  have hpure := congrFun hk jitter
  injection hpure

/-- The bounds hold for a call that samples around `capped` if they hold for
every jitter of its range, and only then. -/
theorem withinBounds_iff_sampled (hj : 0 ≤ p.jitterFactor)
    (hfactor : pow2 x.overflowChecks attempt = some factor) {capped : Nat}
    (hcapped : min (asMillis p.initialDelay * factor) (asMillis p.maxDelay) = capped) :
    p.WithinBounds x attempt ↔
      ∀ jitter, -(capped * p.jitterFactor) ≤ jitter → jitter ≤ capped * p.jitterFactor →
        ((1 - p.jitterFactor) * p.cappedMillis attempt).floor ≤
          (truncateMillis (capped + jitter) : Int) ∧
        (truncateMillis (capped + jitter) : Rat) ≤
          (1 + p.jitterFactor) * p.cappedMillis attempt := by
  have hcall := calculateDelay_eq hj hfactor hcapped
  constructor
  · rintro ⟨range, delay, heq, -, hdelay⟩
    obtain ⟨rfl, rfl⟩ := sampled_inj (hcall.symm.trans heq)
    exact hdelay
  · intro h
    exact ⟨_, _, hcall, mul_nonneg (Nat.cast_nonneg capped) hj, h⟩

theorem upper_nonneg (hj : 0 ≤ p.jitterFactor) (attempt : Nat) :
    0 ≤ (1 + p.jitterFactor) * p.cappedMillis attempt :=
  mul_nonneg (by linarith) (Nat.cast_nonneg _)

/-- Below 32 attempts the bounds are kept just if the shortest delay with jitter fits into
64 bits. -/
theorem withinBounds_low (hj : 0 ≤ p.jitterFactor) (hattempt : attempt < 32) :
    p.WithinBounds x attempt ↔ (1 - p.jitterFactor) * p.cappedMillis attempt < 2 ^ 64 := by
  have hfactor : pow2 x.overflowChecks attempt = some (2 ^ attempt) := if_pos hattempt
  rw [withinBounds_iff_sampled hj hfactor (show _ = p.cappedMillis attempt from rfl)]
  have hrange : 0 ≤ (p.cappedMillis attempt : Rat) * p.jitterFactor :=
    mul_nonneg (Nat.cast_nonneg _) hj
  constructor
  · intro h
    -- the least jitter of the range
    exact lt_of_floor_le_truncateMillis (h _ le_rfl (by linarith)).1
  · intro hbig jitter hlow hhigh
    refine ⟨floor_le_truncateMillis (by linarith) hbig, ?_⟩
    exact truncateMillis_le (by linarith) (upper_nonneg hj attempt)

/-- From the 32nd attempt on the power overflows: then the bounds are kept only without
overflow checks, and with a shortest delay below one millisecond. -/
theorem withinBounds_high (hj : 0 ≤ p.jitterFactor) (hattempt : ¬ attempt < 32) :
    p.WithinBounds x attempt ↔
      x.overflowChecks = false ∧ (1 - p.jitterFactor) * p.cappedMillis attempt < 1 := by
  cases hchecks : x.overflowChecks with
  | true =>
    constructor
    · rintro ⟨range, delay, heq, -⟩
      have hpow : pow2 x.overflowChecks attempt = none := by
        rw [pow2, if_neg hattempt, hchecks, if_pos rfl]
      -- the call panics before it samples
      unfold RetryPolicy.calculateDelay at heq
      rw [hpow] at heq
      injection heq with hop
      cases hop
    · rintro ⟨hfalse, -⟩
      cases hfalse
  | false =>
    have hfactor : pow2 x.overflowChecks attempt = some 0 := by
      rw [pow2, if_neg hattempt, hchecks, if_neg (by decide)]
    have hzero : min (asMillis p.initialDelay * 0) (asMillis p.maxDelay) = 0 := by
      rw [Nat.mul_zero, Nat.zero_min]
    rw [withinBounds_iff_sampled hj hfactor hzero]
    have hdelay : truncateMillis ((0 : Nat) + 0) = 0 := by decide +kernel
    constructor
    · intro h
      have hfloor := (h 0 (by simp) (by simp)).1
      rw [hdelay] at hfloor
      refine ⟨rfl, ?_⟩
      have hlow := Rat.floor_lt_iff.mp (Int.lt_add_one_of_le hfloor)
      exact_mod_cast hlow
    · rintro ⟨-, hone⟩ jitter hlow hhigh
      obtain rfl : jitter = 0 := by
        rw [Nat.cast_zero, zero_mul] at hlow hhigh
        linarith
      rw [hdelay]
      refine ⟨?_, ?_⟩
      · have hfloor : ((1 - p.jitterFactor) * p.cappedMillis attempt).floor < 1 :=
          Rat.floor_lt_iff.mpr (by exact_mod_cast hone)
        omega
      · rw [Nat.cast_zero]
        exact upper_nonneg hj attempt

/-- The two cases together: the bounds are kept just if the numbers can be represented. -/
theorem withinBounds_iff (hj : 0 ≤ p.jitterFactor) (x : Externals) (attempt : Nat) :
    p.WithinBounds x attempt ↔ p.Representable x attempt := by
  unfold RetryPolicy.Representable
  by_cases hattempt : attempt < 32
  · rw [withinBounds_low hj hattempt]
    simp only [hattempt, true_or, true_and]
  · rw [withinBounds_high hj hattempt]
    simp only [hattempt, false_or]
    constructor
    · rintro ⟨hchecks, hone⟩
      exact ⟨⟨hchecks, hone⟩, hone.trans (by norm_num)⟩
    · exact And.left

/-- Before the jitter, a later attempt waits no less than an earlier one. -/
theorem cappedMillis_mono (p : RetryPolicy) {attempt attempt' : Nat} (h : attempt ≤ attempt') :
    p.cappedMillis attempt ≤ p.cappedMillis attempt' := by
  have hpow : 2 ^ attempt ≤ 2 ^ attempt' := Nat.pow_le_pow_right (by omega) h
  have hbase := Nat.mul_le_mul_left (asMillis p.initialDelay) hpow
  unfold RetryPolicy.cappedMillis
  omega

/-- A delay samples once and stays within the jitter of the capped delay just if
the attempt's power of two fits in 32 bits, or is lost where nothing of the delay
was due, and 64 bits hold the milliseconds. The capped delay grows with the
attempt and stays at the greatest delay once it is there. -/
theorem backoff_bounds (p : RetryPolicy) (hj : 0 ≤ p.jitterFactor) (x : Externals) :
    (∀ attempt, p.WithinBounds x attempt ↔ p.Representable x attempt) ∧
    (∀ attempt attempt', attempt ≤ attempt' →
      p.cappedMillis attempt ≤ p.cappedMillis attempt' ∧
      (p.cappedMillis attempt = asMillis p.maxDelay →
        p.cappedMillis attempt' = asMillis p.maxDelay)) := by
  refine ⟨withinBounds_iff hj x, fun attempt attempt' h => ?_⟩
  have hmono := cappedMillis_mono p h
  refine ⟨hmono, fun hmax => le_antisymm (Nat.min_le_right _ _) ?_⟩
  rw [← hmax]
  exact hmono

/-- The third retry of the default policy, after 800 milliseconds and a quarter
either way. -/
theorem backoff_bounds_default : RetryPolicy.default.cappedMillis 3 = 800 ∧
    ∀ x : Externals, RetryPolicy.default.WithinBounds x 3 := by
  refine ⟨by decide, fun x => ?_⟩
  exact ((backoff_bounds .default (by decide +kernel) x).1 3).mpr
    ⟨.inl (by decide), by decide +kernel⟩

/-- Attempt 32 of the default policy panics or comes at once, instead of after
five seconds less a quarter at least. -/
theorem default_high_attempt :
    (1 - RetryPolicy.default.jitterFactor) * RetryPolicy.default.cappedMillis 32 = 3750 ∧
    ∀ x : Externals, ¬ RetryPolicy.default.WithinBounds x 32 := by
  have hlow : (1 - RetryPolicy.default.jitterFactor) * RetryPolicy.default.cappedMillis 32 =
      3750 := by decide +kernel
  refine ⟨hlow, fun x hbounds => ?_⟩
  obtain ⟨hsmall, -⟩ := (withinBounds_iff (by decide +kernel) x 32).mp hbounds
  rw [hlow] at hsmall
  rcases hsmall with hsmall | ⟨-, hsmall⟩
  · exact absurd hsmall (by decide)
  · exact absurd hsmall (by norm_num)

end Torpc
