import Torpc.Model.RateLimit

/-!
# What a client's traffic is charged

The limiter's map is shared by every client and loses entries whenever the
background task calls `cleanup`. Neither shows: the decision a client gets is
that of a fixed-window counter of its own, and what the others send, and when
the map is cleaned, makes no difference to it. Two facts carry this. The cleanup
keeps an entry for twice the window, so an entry it drops was due for a reset.
And the identifier spells the peer's address and port so that both can be read
back, the unbracketed IPv6 text included.
-/

namespace Torpc.RateLimiter

open FixedWindow

/-- One operation on the limiter; a check is reported with its identifier. -/
def step (l : RateLimiter) : Event String → Option (Option (String × Bool) × RateLimiter)
  | .check now identifier =>
    let (ok, l') := l.checkRateLimit now identifier
    some (some (identifier, ok), l')
  | .sweep now => (l.cleanup now).map fun l' => (none, l')

/-- The decisions of a sequence of operations, `none` if one of them panics. -/
def run : RateLimiter → List (Event String) → Option (List (String × Bool))
  | _, [] => some []
  | l, e :: es =>
    (l.step e).bind fun (decision, l') => (l'.run es).map fun out => decision.toList ++ out

/-- One step of the limiter is a step of the store of counters, with the same decision: its
windows are all that the decisions depend on. -/
theorem step_refines {l : RateLimiter} (hW : l.config.windowDuration * 2 ≤ durationMax)
    (e : Event String) : ∃ decision l', l.step e = some (decision, l') ∧ l'.config = l.config ∧
      (decision, l'.window) = Store.step l.config.maxRequests.toNat l.config.windowDuration
        (l.config.windowDuration * 2) l.window e := by
  cases e with
  | check now identifier =>
    obtain ⟨hok, hwindow⟩ := checkRateLimit_refines now identifier l
    refine ⟨some (identifier, (l.checkRateLimit now identifier).1),
      (l.checkRateLimit now identifier).2, rfl, checkRateLimit_config now identifier l, ?_⟩
    rw [hok, hwindow]
    rfl
  | sweep now =>
    obtain ⟨l', hl'⟩ := cleanup_isSome hW now
    obtain ⟨hconfig, hwindow⟩ := cleanup_refines hl'
    refine ⟨none, l', ?_, hconfig, ?_⟩
    · simp only [step, hl', Option.map_some]
    · simp only [Store.step, hwindow]

/-- The limiter's run is the store's run. -/
theorem run_refines (events : List (Event String)) {l : RateLimiter}
    (hW : l.config.windowDuration * 2 ≤ durationMax) :
    l.run events = some (Store.run l.config.maxRequests.toNat l.config.windowDuration
      (l.config.windowDuration * 2) l.window events) := by
  induction events generalizing l with
  | nil => rfl
  | cons e es ih =>
    obtain ⟨decision, l', hstep, hconfig, hstore⟩ := step_refines hW e
    have hnext := ih (l := l') (by rw [hconfig]; exact hW)
    rw [hconfig] at hnext
    rw [run, hstep, Option.bind_some, Store.run, ← hstore]
    simp only [hnext, Option.map_some]

/-- From an empty map, the decisions for an identifier are those of its own
counter. -/
theorem run_new_alone {config : RateLimitConfig} (hW : config.windowDuration * 2 ≤ durationMax)
    {events : List (Event String)} (hsorted : events.Pairwise fun e e' => e.now ≤ e'.now) :
    ∃ out, (new config).run events = some out ∧ ∀ identifier,
      decisionsOf identifier out =
        decisions config.maxRequests.toNat config.windowDuration none
          (timesOf identifier events) := by
  refine ⟨_, run_refines events hW, fun identifier => ?_⟩
  refine Store.run_eq_alone (by simp only [new]; omega) identifier events hsorted _ none ?_
  intro e _
  exact .inl (window_new config identifier)

abbrev Peer := Net.IpAddr × UInt16

/-- The limiter's operations when these peers send requests at these times. -/
def traffic (arrivals : List (Event Peer)) : List (Event String) :=
  arrivals.map (Event.map fun peer => getRequestIdentifier (some peer))

/-- Two clients have two identifiers, since an address is displayed without loss. -/
theorem identifier_injective :
    Function.Injective fun peer : Peer => getRequestIdentifier (some peer) :=
  fun _ _ h => Option.some.inj (getRequestIdentifier_injective h)

/-- The traffic comes in the order of the arrivals. -/
theorem traffic_sorted {arrivals : List (Event Peer)}
    (h : arrivals.Pairwise fun e e' => e.now ≤ e'.now) :
    (traffic arrivals).Pairwise fun e e' => e.now ≤ e'.now := by
  rw [traffic, List.pairwise_map]
  simpa using h

/-- The shared map with its cleanup decides like one counter for each identifier,
identifiers are one for each peer, and so what a peer gets depends on its own
arrivals alone. -/
theorem clients_isolated (config : RateLimitConfig)
    (hW : config.windowDuration * 2 ≤ durationMax) :
    (∀ events : List (Event String), (events.Pairwise fun e e' => e.now ≤ e'.now) →
      ∃ out, (new config).run events = some out ∧ ∀ identifier, decisionsOf identifier out =
        decisions config.maxRequests.toNat config.windowDuration none
          (timesOf identifier events)) ∧
    (Function.Injective fun peer : Peer => getRequestIdentifier (some peer)) ∧
    (∀ arrivals arrivals' : List (Event Peer),
      (arrivals.Pairwise fun e e' => e.now ≤ e'.now) →
      (arrivals'.Pairwise fun e e' => e.now ≤ e'.now) →
      ∀ peer, timesOf peer arrivals = timesOf peer arrivals' →
        ((new config).run (traffic arrivals)).map
            (decisionsOf (getRequestIdentifier (some peer))) =
          ((new config).run (traffic arrivals')).map
            (decisionsOf (getRequestIdentifier (some peer)))) := by
  refine ⟨fun events hsorted => run_new_alone hW hsorted, identifier_injective, ?_⟩
  intro arrivals arrivals' hsorted hsorted' peer htimes
  obtain ⟨out, hout, halone⟩ := run_new_alone hW (traffic_sorted hsorted)
  obtain ⟨out', hout', halone'⟩ := run_new_alone hW (traffic_sorted hsorted')
  have hpeer := timesOf_map identifier_injective peer
  rw [hout, hout', Option.map_some, Option.map_some, halone, halone', traffic, traffic, hpeer,
    hpeer, htimes]

/-- One request a minute. -/
def oneAMinute : RateLimitConfig := ⟨1, 60 * 1000000000⟩

/-- What two clients have sent when the map is cleaned after two minutes: the first has been
refused a request and has been silent since, the second has just come. -/
def beforeSweep : RateLimiter :=
  let l := ((new oneAMinute).checkRateLimit 0 "10.0.0.1:40001").2
  let l := (l.checkRateLimit 1000000000 "10.0.0.1:40001").2
  (l.checkRateLimit (100 * 1000000000) "10.0.0.2:40002").2

/-- All that they send, with the cleanup in between. -/
def sweptTraffic : List (Event String) :=
  [.check 0 "10.0.0.1:40001", .check 1000000000 "10.0.0.1:40001",
    .check (100 * 1000000000) "10.0.0.2:40002", .sweep (120 * 1000000000),
    .check (120 * 1000000000) "10.0.0.1:40001", .check (121 * 1000000000) "10.0.0.2:40002"]

/-- The cleanup drops the entry of the first and keeps the second's, and neither notices. -/
theorem clients_isolated_swept :
    (∃ l, beforeSweep.cleanup (120 * 1000000000) = some l ∧
      l.requests.lookup "10.0.0.1:40001" = none ∧
      l.requests.lookup "10.0.0.2:40002" = some (1, 100 * 1000000000)) ∧
    ∃ out, (new oneAMinute).run sweptTraffic = some out ∧
      decisionsOf "10.0.0.1:40001" out = [true, false, true] ∧
      decisionsOf "10.0.0.2:40002" out = [true, false] := by
  refine ⟨⟨_, rfl, by decide, by decide⟩, ?_⟩
  obtain ⟨out, hout, halone⟩ := (clients_isolated oneAMinute (by decide)).1 sweptTraffic (by decide)
  refine ⟨out, hout, ?_, ?_⟩
  · rw [halone]
    decide
  · rw [halone]
    decide

end Torpc.RateLimiter
