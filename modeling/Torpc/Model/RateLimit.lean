import Mathlib.Data.List.AList
import Torpc.Lib.FixedWindow
import Torpc.Lib.Net

/-!
# The rate limiter

`rate_limit.rs`. One instance sits in front of the public routes, keyed by the
connection; another one guards the write methods, keyed by the method name. The
map sits behind a mutex held for the whole of `check_rate_limit` and of
`cleanup`, and the clock is read under it, so both are atomic steps at
non-decreasing instants. The order of the map's entries is never looked at.

The model is tied to the general counters of `FixedWindow` by `window`, which
reads off the counter an identifier has.

Main results:

* `checkRateLimit_refines`, `cleanup_refines` — the limiter's two operations are
  the store's charge and sweep.
-/

namespace Torpc

open FixedWindow

/-- The longest `Duration`, in nanoseconds. -/
def durationMax : Nat := 2 ^ 64 * 1000000000 - 1

structure RateLimitConfig where
  maxRequests : UInt32
  windowDuration : Nat
  deriving DecidableEq, Repr

/-- `RateLimitConfig::default`: 100 requests a minute. -/
def RateLimitConfig.default : RateLimitConfig := ⟨100, 60 * 1000000000⟩

structure RateLimiter where
  config : RateLimitConfig
  requests : AList fun _ : String => UInt32 × Nat

namespace RateLimiter

/-- `RateLimiter::new`. -/
def new (config : RateLimitConfig) : RateLimiter := ⟨config, ∅⟩

/-- `check_rate_limit` at instant `now`. -/
def checkRateLimit (now : Nat) (identifier : String) (l : RateLimiter) : Bool × RateLimiter :=
  match l.requests.lookup identifier with
  | some (count, windowStart) =>
    if now - windowStart < l.config.windowDuration then
      if l.config.maxRequests ≤ count then (false, l)
      else (true, { l with requests := l.requests.insert identifier (count + 1, windowStart) })
    else (true, { l with requests := l.requests.insert identifier (1, now) })
  | none => (true, { l with requests := l.requests.insert identifier (1, now) })

/-- `HashMap::retain`. -/
def retain (keep : String → UInt32 × Nat → Bool) (m : AList fun _ : String => UInt32 × Nat) :
    AList fun _ : String => UInt32 × Nat :=
  ⟨m.entries.filter fun e => keep e.1 e.2, m.nodupKeys.sublist List.filter_sublist⟩

/-- `cleanup` at instant `now`. Doubling the window panics when the result is
no `Duration`. -/
def cleanup (now : Nat) (l : RateLimiter) : Option RateLimiter :=
  let cutoff := l.config.windowDuration * 2
  if cutoff ≤ durationMax then
    some { l with requests := retain (fun _ e => decide (now - e.2 < cutoff)) l.requests }
  else none

end RateLimiter

/-- `get_request_identifier`, from the peer address that the server attaches. -/
def getRequestIdentifier : Option (Net.IpAddr × UInt16) → String
  | some (ip, port) => Net.ipPort ip port
  | none => "unknown"

-- ---------------------------------------------------------------------------
-- Identifiers
-- ---------------------------------------------------------------------------

/-- Different peers have different identifiers, and none of them is that of an unknown peer.
-/
theorem getRequestIdentifier_injective : Function.Injective getRequestIdentifier := by
  -- the fallback name has no colon, an address and port have one
  have hcolon : ∀ ip port, ':' ∈ (Net.ipPort ip port).toList := by
    intro ip port
    rw [Net.ipPort_toList]
    simp
  intro peer peer' h
  cases peer with
  | none =>
    cases peer' with
    | none => rfl
    | some p' =>
      have hmem := hcolon p'.1 p'.2
      rw [show Net.ipPort p'.1 p'.2 = "unknown" from h.symm] at hmem
      exact absurd hmem (by decide)
  | some p =>
    cases peer' with
    | none =>
      have hmem := hcolon p.1 p.2
      rw [show Net.ipPort p.1 p.2 = "unknown" from h] at hmem
      exact absurd hmem (by decide)
    | some p' =>
      obtain ⟨hip, hport⟩ := Net.ipPort_injective h
      rw [Prod.ext hip hport]

-- ---------------------------------------------------------------------------
-- The limiter as a store of counters
-- ---------------------------------------------------------------------------

namespace RateLimiter

/-- The counter that an identifier has. -/
def window (l : RateLimiter) : Store String := fun identifier =>
  (l.requests.lookup identifier).map fun e => ⟨e.1.toNat, e.2⟩

@[simp] theorem window_new (config : RateLimitConfig) (identifier : String) :
    (new config).window identifier = none := by
  simp [window, new]

/-- An entry that is written is the window of its own identifier, and of no other. -/
theorem window_insert (l : RateLimiter) (identifier : String) (e : UInt32 × Nat) :
    window { l with requests := l.requests.insert identifier e } =
      Function.update l.window identifier (some ⟨e.1.toNat, e.2⟩) := by
  funext k
  by_cases hk : k = identifier
  · subst hk
    simp [window]
  · rw [Function.update_of_ne hk]
    simp [window, AList.lookup_insert_ne hk]

@[simp] theorem checkRateLimit_config (now : Nat) (identifier : String) (l : RateLimiter) :
    (l.checkRateLimit now identifier).2.config = l.config := by
  simp only [checkRateLimit]
  split
  · split
    · split <;> rfl
    · rfl
  · rfl

/-- A check is a charge of the identifier's counter and touches no other one. -/
theorem checkRateLimit_refines (now : Nat) (identifier : String) (l : RateLimiter) :
    (l.checkRateLimit now identifier).1 =
      (charge l.config.maxRequests.toNat l.config.windowDuration now (l.window identifier)).1 ∧
    (l.checkRateLimit now identifier).2.window = Function.update l.window identifier
      (some (charge l.config.maxRequests.toNat l.config.windowDuration now
        (l.window identifier)).2) := by
  cases hl : l.requests.lookup identifier with
  | none =>
    have hw : l.window identifier = none := by rw [window, hl]; rfl
    rw [hw]
    simp only [checkRateLimit, hl, charge, window_insert]
    exact ⟨trivial, rfl⟩
  | some e =>
    obtain ⟨count, windowStart⟩ := e
    have hw : l.window identifier = some ⟨count.toNat, windowStart⟩ := by rw [window, hl]; rfl
    rw [hw]
    simp only [checkRateLimit, hl, charge]
    by_cases hin : now - windowStart < l.config.windowDuration
    · rw [if_pos hin, if_pos hin]
      by_cases hfull : l.config.maxRequests ≤ count
      · rw [if_pos hfull, if_pos (UInt32.le_iff_toNat_le.mp hfull)]
        refine ⟨rfl, ?_⟩
        rw [← hw, Function.update_eq_self]
      · have hlt : count.toNat < l.config.maxRequests.toNat := by
          have := mt UInt32.le_iff_toNat_le.mpr hfull
          omega
        -- below the limit, so the 32-bit count does not wrap
        have hcount : (count + 1).toNat = count.toNat + 1 := by
          have := l.config.maxRequests.toNat_lt
          rw [UInt32.toNat_add, UInt32.toNat_one]
          omega
        rw [if_neg hfull, if_neg (by omega), window_insert, hcount]
        exact ⟨rfl, rfl⟩
    · rw [if_neg hin, if_neg hin, window_insert]
      exact ⟨rfl, rfl⟩

/-- A lookup in a map some of whose entries have been dropped finds the entry if it has been
kept. -/
theorem dlookup_filter {m : List (Sigma fun _ : String => UInt32 × Nat)} (hm : m.NodupKeys)
    (keep : String → UInt32 × Nat → Bool) (k : String) :
    List.dlookup k (m.filter fun e => keep e.1 e.2) = (List.dlookup k m).filter (keep k) := by
  induction m with
  | nil => rfl
  | cons e m ih =>
    obtain ⟨k', v⟩ := e
    have hrest := ih (List.nodupKeys_cons.mp hm).2
    by_cases hk : k = k'
    · subst hk
      rw [List.dlookup_cons_eq, Option.filter_some]
      cases hkeep : keep k v with
      | true => rw [List.filter_cons_of_pos (by exact hkeep), List.dlookup_cons_eq, if_pos rfl]
      | false =>
        -- no second entry for the key is left
        have hnot : List.dlookup k m = none :=
          List.dlookup_eq_none.mpr (List.nodupKeys_cons.mp hm).1
        rw [hnot] at hrest
        rw [List.filter_cons_of_neg (by simp [hkeep]), hrest]
        simp
    · have hskip : List.dlookup k (⟨k', v⟩ :: m) = List.dlookup k m :=
        List.dlookup_cons_ne m _ hk
      rw [hskip]
      cases hkeep : keep k' v with
      | true =>
        rw [List.filter_cons_of_pos (by exact hkeep), ← hrest]
        exact List.dlookup_cons_ne _ _ hk
      | false => rw [List.filter_cons_of_neg (by simp [hkeep]), hrest]

/-- The cleanup is a sweep. -/
theorem cleanup_refines {now : Nat} {l l' : RateLimiter} (h : l.cleanup now = some l') :
    l'.config = l.config ∧ l'.window = fun identifier => (l.window identifier).filter fun w =>
      decide (now - w.start < l.config.windowDuration * 2) := by
  simp only [cleanup] at h
  split at h
  · obtain rfl := Option.some.inj h
    refine ⟨rfl, funext fun k => ?_⟩
    simp only [window, retain, AList.lookup]
    rw [dlookup_filter l.requests.nodupKeys (fun _ e => decide (now - e.2 < _)) k]
    cases List.dlookup k l.requests.entries with
    | none => rfl
    | some e =>
      by_cases hkeep : now - e.2 < l.config.windowDuration * 2 <;>
        simp [Option.filter_some, hkeep]
  · exact absurd h (by simp)

/-- The cleanup goes through whenever twice the window is a `Duration`. -/
theorem cleanup_isSome {l : RateLimiter} (h : l.config.windowDuration * 2 ≤ durationMax)
    (now : Nat) : ∃ l', l.cleanup now = some l' := by
  simp only [cleanup, if_pos h]
  exact ⟨_, rfl⟩

end RateLimiter

end Torpc
