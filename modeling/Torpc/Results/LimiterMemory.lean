import Mathlib.Data.Finset.Card
import Torpc.Results.Limiter

/-!
# How much the limiter remembers

Every circuit is a new identifier, so the limiter's map grows with the traffic
and only the background task makes it smaller. An entry carries the start of its
window, which is the time of some check of its identifier, and not the time of
the last one; a cleanup keeps it for twice the window from then. So with a
cleanup in every period, what is in the map was checked within two windows and a
period (`memory_bounded`), and no entry goes while its window is open.
-/

namespace Torpc.RateLimiter

open FixedWindow

/-- The limiter after a sequence of operations, `none` if one of them panics. -/
def after : RateLimiter → List (Event String) → Option RateLimiter
  | l, [] => some l
  | l, e :: es => (l.step e).bind fun (_, l') => l'.after es

/-- The operations at times up to `t`. -/
def upTo (t : Nat) (events : List (Event String)) : List (Event String) :=
  events.filter fun e => decide (e.now ≤ t)

/-- The identifier of a check at a time in `(t - span, t]`. -/
def recentIdentifier (span t : Nat) : Event String → Option String
  | .check now identifier => if t < now + span ∧ now ≤ t then some identifier else none
  | .sweep _ => none

/-- The identifiers checked at times in `(t - span, t]`. -/
def recentIdentifiers (span t : Nat) (events : List (Event String)) : Finset String :=
  (events.filterMap (recentIdentifier span t)).toFinset

/-- The recent identifiers are those that have asked within the last stretch of time. -/
theorem mem_recentIdentifiers {span t : Nat} {events : List (Event String)} {identifier : String} :
    identifier ∈ recentIdentifiers span t events ↔
      ∃ now, .check now identifier ∈ events ∧ t < now + span ∧ now ≤ t := by
  rw [recentIdentifiers, List.mem_toFinset, List.mem_filterMap]
  constructor
  · rintro ⟨e, he, hrecent⟩
    cases e with
    | check now k =>
      simp only [recentIdentifier, Option.ite_none_right_eq_some, Option.some.injEq] at hrecent
      obtain ⟨hin, rfl⟩ := hrecent
      exact ⟨now, he, hin⟩
    | sweep now => cases hrecent
  · rintro ⟨now, he, hin⟩
    exact ⟨_, he, by rw [recentIdentifier, if_pos hin]⟩

/-- The events up to a time are those that happened by then. -/
theorem mem_upTo {t : Nat} {events : List (Event String)} {e : Event String} :
    e ∈ upTo t events ↔ e ∈ events ∧ e.now ≤ t := by
  rw [upTo, List.mem_filter, decide_eq_true_eq]

/-- What the limiter's map shows is what the store remembers. -/
theorem after_refines (events : List (Event String)) {l : RateLimiter}
    (hW : l.config.windowDuration * 2 ≤ durationMax) :
    ∃ l', l.after events = some l' ∧ l'.window = Store.after l.config.maxRequests.toNat
      l.config.windowDuration (l.config.windowDuration * 2) l.window events := by
  induction events generalizing l with
  | nil => exact ⟨l, rfl, rfl⟩
  | cons e es ih =>
    obtain ⟨decision, l₁, hstep, hconfig, hstore⟩ := step_refines hW e
    obtain ⟨l', hafter, hwindow⟩ := ih (l := l₁) (by rw [hconfig]; exact hW)
    refine ⟨l', ?_, ?_⟩
    · rw [after, hstep, Option.bind_some]
      exact hafter
    · rw [hwindow, hconfig, Store.after, ← hstore]

/-- An identifier that has an entry has a window. -/
theorem exists_window {l : RateLimiter} {identifier : String} (h : identifier ∈ l.requests) :
    ∃ v, l.window identifier = some v := by
  obtain ⟨e, he⟩ := Option.isSome_iff_exists.mp (AList.lookup_isSome.mpr h)
  exact ⟨⟨e.1.toNat, e.2⟩, by rw [window, he]; rfl⟩

/-- An entry whose window is open stays. -/
theorem cleanup_keeps {l l' : RateLimiter} {now : Nat} (h : l.cleanup now = some l')
    {identifier : String} {e : UInt32 × Nat} (he : l.requests.lookup identifier = some e)
    (hopen : now - e.2 < l.config.windowDuration) : l'.requests.lookup identifier = some e := by
  simp only [cleanup] at h
  split at h
  · obtain rfl := Option.some.inj h
    have hkept : now - e.2 < l.config.windowDuration * 2 := by omega
    simp only [retain, AList.lookup] at he ⊢
    rw [dlookup_filter l.requests.nodupKeys (fun _ e => decide (now - e.2 < _)) identifier, he,
      Option.filter_some, if_pos (decide_eq_true hkept)]
  · cases h

/-- There are no more entries than identifiers that may have one. -/
theorem length_keys_le {l : RateLimiter} {s : Finset String} (h : ∀ k ∈ l.requests, k ∈ s) :
    l.requests.keys.length ≤ s.card := by
  have hcard := List.toFinset_card_of_nodup l.requests.keys_nodup
  rw [← hcard]
  refine Finset.card_le_card fun k hk => ?_
  exact h k (AList.mem_keys.mpr (List.mem_toFinset.mp hk))

/-- With a cleanup in every period, the map holds nothing but identifiers checked
within twice the window and a period, each of them once, and a cleanup drops no
entry whose window is open. -/
theorem memory_bounded (config : RateLimitConfig)
    (hW : config.windowDuration * 2 ≤ durationMax) (since period t : Nat)
    (events : List (Event String)) (hsorted : events.Pairwise fun e e' => e.now ≤ e'.now)
    (hsince : ∀ e ∈ events, since ≤ e.now) (hswept : SweptEvery period since t events) :
    (∃ l, (new config).after (upTo t events) = some l ∧
      (∀ identifier ∈ l.requests, ∃ now, .check now identifier ∈ events ∧
        t < now + (config.windowDuration * 2 + period) ∧ now ≤ t) ∧
      l.requests.keys.Nodup ∧
      l.requests.keys.length ≤
        (recentIdentifiers (config.windowDuration * 2 + period) t events).card) ∧
    (∀ (l l' : RateLimiter) (now : Nat), l.cleanup now = some l' →
      ∀ identifier e, l.requests.lookup identifier = some e →
        now - e.2 < l.config.windowDuration → l'.requests.lookup identifier = some e) := by
  refine ⟨?_, fun l l' now h identifier e he hopen => cleanup_keeps h he hopen⟩
  obtain ⟨l, hafter, hwindow⟩ := after_refines (upTo t events) (l := new config) hW
  have hempty : (new config).window = fun _ => none := funext (window_new config)
  rw [hempty] at hwindow
  -- no sweep that the period promises comes after `t`
  have hsweptBy : SweptEvery period since t (upTo t events) := by
    intro a ha hat
    obtain ⟨now, hsweep, hlow, hhigh⟩ := hswept a ha hat
    have hnow : (Event.sweep now : Event String).now ≤ t := hhigh.trans hat
    exact ⟨now, mem_upTo.mpr ⟨hsweep, hnow⟩, hlow, hhigh⟩
  have hrecent : ∀ identifier ∈ l.requests, ∃ now, .check now identifier ∈ events ∧
      t < now + (config.windowDuration * 2 + period) ∧ now ≤ t := by
    intro identifier hmem
    obtain ⟨v, hv⟩ := exists_window hmem
    rw [hwindow] at hv
    obtain ⟨hcheck, hle, hlt⟩ := Store.recent_check (hsorted.sublist List.filter_sublist)
      (fun e he => ⟨hsince e (mem_upTo.mp he).1, (mem_upTo.mp he).2⟩) hsweptBy hv
    refine ⟨v.start, (mem_upTo.mp hcheck).1, ?_, hle⟩
    simp only [new] at hlt
    omega
  refine ⟨l, hafter, hrecent, l.requests.keys_nodup, length_keys_le fun k hk => ?_⟩
  exact mem_recentIdentifiers.mpr (hrecent k hk)

/-- The daemon's period of five minutes with the default window: a client of the
first second is forgotten after eight minutes, whoever else has come. -/
theorem memory_bounded_default : ∃ l, (new .default).after
      (upTo (500 * 1000000000) [.check 0 "127.0.0.1:40001", .sweep (300 * 1000000000),
        .check (400 * 1000000000) "127.0.0.1:40002"]) = some l ∧
    l.requests.keys.length ≤ 1 := by
  obtain ⟨l, hafter, -, -, hlen⟩ := (memory_bounded .default (by decide) 0 (300 * 1000000000)
    (500 * 1000000000) [.check 0 "127.0.0.1:40001", .sweep (300 * 1000000000),
      .check (400 * 1000000000) "127.0.0.1:40002"] (by decide) (by decide)
    (fun a _ ha => ⟨300 * 1000000000, by simp, by omega, by omega⟩)).1
  exact ⟨l, hafter, hlen.trans (by decide)⟩

end Torpc.RateLimiter
