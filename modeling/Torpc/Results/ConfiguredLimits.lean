import Torpc.Model.AppConfig
import Torpc.Results.Limiter

/-!
# What becomes of a configured limit

The two limits are read as 64-bit numbers, and the limiters compare 32-bit
counts. In between the upper half is cut off, and the limiter admits the request
that opens a window without a comparison: a limit of zero admits one request in a
window, and so does one of `2^32`. The windows are seconds, of which `cleanup`
takes the double, and no `Duration` holds the double of `2^63` seconds: with such
a window the first tick of the cleanup task is its last (`configured_limits`).
-/

namespace Torpc

open FixedWindow

/-- The two limits on requests. -/
inductive RequestLimit where
  | perConnection
  | writes

namespace RequestLimit

/-- The number of requests that the operator has set. -/
def requests (env : Env) : RequestLimit → UInt64
  | perConnection => envU64 env "RATE_LIMIT_REQUESTS" 100
  | writes => envU64 env "WRITE_RATE_LIMIT_REQUESTS" writeMethodDefaultRequests.toUInt64

/-- The limiter that enforces it. -/
def limiter (config : AppConfig) : RequestLimit → RateLimiter
  | perConnection => config.rateLimiter
  | writes => config.writeMethodLimiter

/-- The limit `n` comes out right for `k` requests in one window. -/
def Honoured (n k : Nat) : Prop :=
  (1 ≤ n ∧ n < 2 ^ 32) ∨ (k ≤ n ∧ k ≤ Nat.max (n % 2 ^ 32) 1)

/-- Each of the limiters is made fresh from its configuration. -/
theorem limiter_eq_new (config : AppConfig) (limit : RequestLimit) :
    limit.limiter config = .new (limit.limiter config).config := by
  cases limit <;> rfl

/-- A limiter allows the configured number in 32 bits, and what does not fit is cut off. -/
theorem limiter_maxRequests (env : Env) (limit : RequestLimit) :
    (limit.limiter (.fromEnv env)).config.maxRequests = (limit.requests env).toUInt32 := by
  cases limit <;> rfl

end RequestLimit

/-- Among `k` requests the limiter admits as many as the configured number allows, just if
that number is honoured. -/
theorem honoured_iff (n k : Nat) :
    min k (Nat.max (n % 2 ^ 32) 1) = min k n ↔ RequestLimit.Honoured n k := by
  unfold RequestLimit.Honoured
  have hmax : Nat.max (n % 2 ^ 32) 1 = if n % 2 ^ 32 = 0 then 1 else n % 2 ^ 32 := by
    split
    · next h => rw [h]; rfl
    · next h => exact Nat.max_eq_left (by omega)
  rw [hmax]
  split <;> omega

namespace RateLimiter

/-- A step that does not panic is the store's, whatever the window. -/
theorem step_some {l l' : RateLimiter} {e : Event String} {decision : Option (String × Bool)}
    (h : l.step e = some (decision, l')) : l'.config = l.config ∧
      (decision, l'.window) = Store.step l.config.maxRequests.toNat l.config.windowDuration
        (l.config.windowDuration * 2) l.window e := by
  cases e with
  | check now identifier =>
    obtain ⟨hok, hwindow⟩ := checkRateLimit_refines now identifier l
    have hstep : l.step (.check now identifier) = some (some (identifier,
        (l.checkRateLimit now identifier).1), (l.checkRateLimit now identifier).2) := rfl
    obtain ⟨hdecision, hl'⟩ := Prod.mk.inj (Option.some.inj (hstep.symm.trans h))
    rw [← hdecision, ← hl']
    refine ⟨checkRateLimit_config now identifier l, ?_⟩
    rw [hok, hwindow]
    rfl
  | sweep now =>
    obtain ⟨l₁, hl₁, heq⟩ := Option.map_eq_some_iff.mp h
    obtain ⟨rfl, rfl⟩ := Prod.mk.inj heq
    obtain ⟨hconfig, hwindow⟩ := cleanup_refines hl₁
    refine ⟨hconfig, ?_⟩
    simp only [Store.step, hwindow]

/-- A run without a panic is the store's run. -/
theorem run_some {events : List (Event String)} {l : RateLimiter} {out : List (String × Bool)}
    (h : l.run events = some out) :
    out = Store.run l.config.maxRequests.toNat l.config.windowDuration
      (l.config.windowDuration * 2) l.window events := by
  induction events generalizing l out with
  | nil =>
    obtain rfl := Option.some.inj h
    rfl
  | cons e es ih =>
    obtain ⟨⟨decision, l'⟩, hstep, hrest⟩ := Option.bind_eq_some_iff.mp h
    obtain ⟨out', hout', rfl⟩ := Option.map_eq_some_iff.mp hrest
    obtain ⟨hconfig, hstore⟩ := step_some hstep
    have hnext := ih hout'
    rw [hconfig] at hnext
    rw [Store.run, ← hstore, hnext]

/-- How many of the requests of one window a new limiter admits. -/
theorem admitted_count {config : RateLimitConfig} {events : List (Event String)}
    (hsorted : events.Pairwise fun e e' => e.now ≤ e'.now) {out : List (String × Bool)}
    (hrun : (new config).run events = some out) {identifier : String}
    (hwindow : OneWindow config.windowDuration (timesOf identifier events)) :
    (decisionsOf identifier out).count true =
      min (timesOf identifier events).length (Nat.max config.maxRequests.toNat 1) := by
  have hout := run_some hrun
  have hempty : (new config).window = fun _ => none := funext (window_new config)
  rw [hempty] at hout
  have hcutoff : config.windowDuration ≤ config.windowDuration * 2 := by omega
  have hagree : ∀ e ∈ events, Agree config.windowDuration e.now none none :=
    fun e _ => .inl rfl
  rw [hout, show (new config).config = config from rfl,
    Store.run_eq_alone hcutoff identifier events hsorted (fun _ => none) none hagree]
  exact count_decisions_new hwindow

/-- A limiter never panics just if its cleanup does not. -/
theorem run_isSome_iff (l : RateLimiter) :
    (∀ events, l.run events ≠ none) ↔ l.config.windowDuration * 2 ≤ durationMax := by
  constructor
  · intro h
    by_contra hW
    refine h [.sweep 0] ?_
    simp only [run, step, cleanup, if_neg hW, Option.map_none, Option.bind_none]
  · intro hW events
    rw [run_refines events hW]
    exact Option.some_ne_none _

end RateLimiter

/-- The double of a window can be represented just if the window is shorter than 2^63
seconds. -/
theorem fromSecs_double_le (secs : UInt64) :
    fromSecs secs * 2 ≤ durationMax ↔ secs.toNat < 2 ^ 63 := by
  unfold fromSecs durationMax
  omega

/-- Of the requests of one identifier in one window, as many as configured are
admitted just if the number is one that 32 bits hold and not zero, or they are so
few that it makes no difference. No step of the connections' limiter panics just
if the window is shorter than `2^63` seconds; its count never overflows. -/
theorem configured_limits (env : Env) :
    (∀ (limit : RequestLimit) (events : List (Event String)) (out : List (String × Bool))
      (identifier : String), (events.Pairwise fun e e' => e.now ≤ e'.now) →
      (limit.limiter (.fromEnv env)).run events = some out →
      OneWindow (limit.limiter (.fromEnv env)).config.windowDuration (timesOf identifier events) →
      ((decisionsOf identifier out).count true =
          min (timesOf identifier events).length (limit.requests env).toNat ↔
        RequestLimit.Honoured (limit.requests env).toNat (timesOf identifier events).length)) ∧
    ((∀ events, (AppConfig.fromEnv env).rateLimiter.run events ≠ none) ↔
      (envU64 env "RATE_LIMIT_WINDOW" 60).toNat < 2 ^ 63) ∧
    (∀ (l : RateLimiter) (count : UInt32), ¬ l.config.maxRequests ≤ count →
      (count + 1).toNat = count.toNat + 1) := by
  refine ⟨?_, ?_, ?_⟩
  · intro limit events out identifier hsorted hrun hwindow
    rw [limit.limiter_eq_new] at hrun
    have hcount := RateLimiter.admitted_count hsorted hrun hwindow
    rw [limit.limiter_maxRequests, UInt64.toNat_toUInt32] at hcount
    rw [hcount]
    exact honoured_iff _ _
  · rw [RateLimiter.run_isSome_iff]
    exact fromSecs_double_le _
  · intro l count hroom
    have hlt : count.toNat < l.config.maxRequests.toNat := by
      have := mt UInt32.le_iff_toNat_le.mpr hroom
      omega
    have := l.config.maxRequests.toNat_lt
    rw [UInt32.toNat_add, UInt32.toNat_one]
    omega

/-- The default settings, two requests of one client. -/
theorem configured_limits_default : ∃ out,
    (AppConfig.fromEnv fun _ => none).rateLimiter.run
      [.check 0 "127.0.0.1:40001", .sweep 5, .check 9 "127.0.0.1:40001"] = some out ∧
    (decisionsOf "127.0.0.1:40001" out).count true = 2 := by
  obtain ⟨hcount, hpanic, -⟩ := configured_limits fun _ => none
  obtain ⟨out, hout⟩ := Option.ne_none_iff_exists'.mp (hpanic.mpr (by decide)
    [.check 0 "127.0.0.1:40001", .sweep 5, .check 9 "127.0.0.1:40001"])
  refine ⟨out, hout, ?_⟩
  refine ((hcount .perConnection _ out "127.0.0.1:40001" (by decide) hout ?_).mpr
    (.inl (by decide))).trans (by decide)
  unfold OneWindow
  decide

/-- An operator who allows no request, in windows of `2^63` seconds. -/
def closedEnv : Env
  | "RATE_LIMIT_REQUESTS" => some "0"
  | "RATE_LIMIT_WINDOW" => some "9223372036854775808"
  | _ => none

/-- One request is admitted where none is allowed, and the cleanup panics. -/
theorem closed_admits_one :
    (RequestLimit.perConnection.requests closedEnv).toNat = 0 ∧
    ((AppConfig.fromEnv closedEnv).rateLimiter.run [.check 0 "127.0.0.1:40001"]).map
      (fun out => (decisionsOf "127.0.0.1:40001" out).count true) = some 1 ∧
    (AppConfig.fromEnv closedEnv).rateLimiter.run [.sweep 0] = none := by
  decide

end Torpc
