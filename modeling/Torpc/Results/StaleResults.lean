import Torpc.Results.BreakerHistory

/-!
# Results that come late

A request asks `can_proceed`, runs for as long as it likes, and records one
result, unless it is refused or dropped. When the breaker opens meanwhile, the
result is one of the previous era. `record_success` and `record_failure` see to
it that such a result does nothing while the breaker is Open, but they cannot
tell it from another one afterwards: in HalfOpen the first result decides, and
in Closed every result counts, whoever it is from. So late results are harmless
exactly in the runs in which they find the breaker Open (`stale_results_iff`),
as they all do when no request runs for as long as the timeout
(`stale_results_of_short`).
-/

namespace Torpc

open History

/-- A call on a breaker, by whom and when. -/
structure Visit where
  request : Nat
  now : Nat
  call : BreakerCall
  deriving DecidableEq, Repr

namespace CircuitBreaker

/-- The breaker after a visit. -/
def visit (cb : CircuitBreaker) (v : Visit) : CircuitBreaker := cb.step (v.now, v.call)

/-- The breaker after visits. -/
def visited (cb : CircuitBreaker) (vs : List Visit) : CircuitBreaker := vs.foldl visit cb

/-- A visit that takes the breaker into Open. -/
def OpenedBy (cb : CircuitBreaker) (v : Visit) : Prop := Opens cb (v.now, v.call)

/-- Request `i` has asked and was let through. -/
def Admitted (cb : CircuitBreaker) (vs : List Visit) (i : Nat) : Prop :=
  ∃ pre now post, vs = pre ++ ⟨i, now, .canProceed⟩ :: post ∧
    ((cb.visited pre).canProceed now).1 = true

/-- Any number of requests, in any order: each asks once, and one that was let
through records at most one result. Time does not run backwards. -/
inductive Interleaving (cb : CircuitBreaker) : List Visit → Prop where
  | nil : Interleaving cb []
  | ask {vs : List Visit} {i now : Nat} : Interleaving cb vs → (∀ v ∈ vs, v.request ≠ i) →
      (∀ v ∈ vs, v.now ≤ now) → Interleaving cb (vs ++ [⟨i, now, .canProceed⟩])
  | record {vs : List Visit} {i now : Nat} {call : BreakerCall} : Interleaving cb vs →
      call ≠ .canProceed → Admitted cb vs i →
      (∀ v ∈ vs, v.request = i → v.call = .canProceed) → (∀ v ∈ vs, v.now ≤ now) →
      Interleaving cb (vs ++ [⟨i, now, call⟩])

/-- Request `i` asked before the most recent opening of the breaker. -/
def Stale (cb : CircuitBreaker) (vs : List Visit) (i : Nat) : Prop :=
  ∃ pre v post asked, Latest visit OpenedBy cb vs pre v post ∧ ⟨i, asked, .canProceed⟩ ∈ pre

/-- Request `i` asked after the most recent opening, once its timeout was over. -/
def AskedAfterTimeout (cb : CircuitBreaker) (vs : List Visit) (i : Nat) : Prop :=
  ∃ pre v post asked, Latest visit OpenedBy cb vs pre v post ∧
    ⟨i, asked, .canProceed⟩ ∈ post ∧ v.now + cb.recoveryTimeout ≤ asked

/-- No result of a request from before the most recent opening changes the state,
and a result that moves the breaker out of HalfOpen is of a request admitted
after the timeout of that opening. -/
def StaleResultsKeep (cb : CircuitBreaker) (vs : List Visit) : Prop :=
  ∀ pre i now call post, vs = pre ++ ⟨i, now, call⟩ :: post → call ≠ .canProceed →
    (Stale cb pre i → (cb.visited (pre ++ [⟨i, now, call⟩])).state = (cb.visited pre).state) ∧
    ((cb.visited pre).state = .halfOpen → AskedAfterTimeout cb pre i)

/-- Such a result finds the breaker Open, or is a success and finds it Closed with
no failure to forget. -/
def StaleResultsFindOpen (cb : CircuitBreaker) (vs : List Visit) : Prop :=
  ∀ pre i now call post, vs = pre ++ ⟨i, now, call⟩ :: post → call ≠ .canProceed →
    Stale cb pre i → (cb.visited pre).isOpen ∨
      (call = .recordSuccess ∧ (cb.visited pre).state = .closed 0)

-- ---------------------------------------------------------------------------
-- One visit
-- ---------------------------------------------------------------------------

/-- One more visit is one more step of the breaker. -/
theorem visited_snoc (cb : CircuitBreaker) (vs : List Visit) (v : Visit) :
    cb.visited (vs ++ [v]) = (cb.visited vs).visit v := by
  simp [visited]

/-- No visit changes the timeout. -/
theorem visited_recoveryTimeout (cb : CircuitBreaker) (vs : List Visit) :
    (cb.visited vs).recoveryTimeout = cb.recoveryTimeout := by
  induction vs using List.reverseRecOn with
  | nil => rfl
  | append_singleton vs v ih => rw [visited_snoc, visit, step_recoveryTimeout, ih]

/-- A recorded result leaves the state alone if and only if the breaker is Open, or
the result is a success and there is no failure to forget. -/
theorem record_keeps_iff {cb : CircuitBreaker} {v : Visit} (h : v.call ≠ .canProceed) :
    (cb.visit v).state = cb.state ↔
      cb.isOpen ∨ (v.call = .recordSuccess ∧ cb.state = .closed 0) := by
  obtain ⟨i, now, call⟩ := v
  have h : call ≠ .canProceed := h
  unfold visit
  cases hs : cb.state with
  | closed n =>
    rw [step_closed hs]
    cases call with
    | canProceed => exact absurd rfl h
    | recordSuccess => simp [not_isOpen_closed hs, eq_comm]
    | recordFailure =>
      dsimp only
      split <;> simp [not_isOpen_closed hs]
  | opened t =>
    rw [step_opened hs, if_neg fun hcall => h hcall.1]
    simp [show cb.isOpen from ⟨t, hs⟩]
  | halfOpen =>
    rw [step_halfOpen_state hs]
    cases call with
    | canProceed => exact absurd rfl h
    | recordSuccess => simp [not_isOpen_halfOpen hs]
    | recordFailure => simp [not_isOpen_halfOpen hs]

/-- Only a recorded failure opens a breaker, and it does so at its own instant. -/
theorem OpenedBy.failure {cb : CircuitBreaker} {v : Visit} (h : OpenedBy cb v) :
    v.call = .recordFailure ∧ (cb.visit v).state = .opened v.now := by
  obtain ⟨hshut, t, ht⟩ := h
  rcases opened_step ht with hs | ⟨-, rfl⟩
  · exact absurd ⟨t, hs⟩ hshut
  · refine ⟨?_, ht⟩
    obtain ⟨i, now, call⟩ := v
    cases call with
    | recordFailure => rfl
    | canProceed =>
      simp only [step] at ht
      rcases canProceed_cases now cb with ⟨n, hs, hc⟩ | ⟨hs, hc⟩ | ⟨t, hs, -, -⟩ | ⟨t, hs, -, -⟩
      · rw [hc, hs] at ht
        cases ht
      · rw [hc, hs] at ht
        cases ht
      · exact absurd ⟨t, hs⟩ hshut
      · exact absurd ⟨t, hs⟩ hshut
    | recordSuccess =>
      simp only [step] at ht
      rcases recordSuccess_cases cb with ⟨hopen, -⟩ | hc
      · exact absurd hopen hshut
      · rw [hc] at ht
        cases ht

-- ---------------------------------------------------------------------------
-- After the latest opening
-- ---------------------------------------------------------------------------

/-- Since its latest opening, at `v`, the breaker has been Open all the time, or
somebody has asked once the timeout was over. -/
theorem opened_or_asked {cb : CircuitBreaker} {pre : List Visit} {v : Visit}
    (post : List Visit) : ∀ vs, Latest visit OpenedBy cb vs pre v post →
    (cb.visited vs).state = .opened v.now ∨
      ∃ u ∈ post, u.call = .canProceed ∧ cb.recoveryTimeout ≤ u.now - v.now := by
  induction post using List.reverseRecOn with
  | nil =>
    intro vs h
    obtain rfl := h.split
    rw [visited_snoc]
    exact .inl (OpenedBy.failure h.kind).2
  | append_singleton post u ih =>
    intro vs h
    obtain rfl : vs = (pre ++ v :: post) ++ [u] := by rw [h.split]; simp
    rcases ih _ h.before with hopen | ⟨w, hw, hwall⟩
    · rw [visited_snoc, visit, step_opened hopen, visited_recoveryTimeout]
      split
      · next hflip => exact .inr ⟨u, by simp, hflip⟩
      · exact .inl rfl
    · exact .inr ⟨w, by simp [hw], hwall⟩

/-- The visits of an interleaving come in the order of time. -/
theorem Interleaving.sorted {cb : CircuitBreaker} {vs : List Visit} (h : Interleaving cb vs) :
    vs.Pairwise fun v v' => v.now ≤ v'.now := by
  induction h with
  | nil => exact .nil
  | ask _ _ hpast ih =>
    refine List.pairwise_append.mpr ⟨ih, List.pairwise_singleton _ _, fun v hv u hu => ?_⟩
    rw [List.mem_singleton.mp hu]
    exact hpast v hv
  | record _ _ _ _ hpast ih =>
    refine List.pairwise_append.mpr ⟨ih, List.pairwise_singleton _ _, fun v hv u hu => ?_⟩
    rw [List.mem_singleton.mp hu]
    exact hpast v hv

/-- What comes before a visit of an interleaving is an interleaving, of which a
recorded result is a legal continuation. -/
theorem Interleaving.before {cb : CircuitBreaker} {vs : List Visit} (h : Interleaving cb vs) :
    ∀ pre i now call post, vs = pre ++ ⟨i, now, call⟩ :: post → Interleaving cb pre ∧
      (∀ v ∈ pre, v.now ≤ now) ∧ (call ≠ .canProceed → Admitted cb pre i) := by
  induction h with
  | nil =>
    intro pre i now call post hsplit
    simp at hsplit
  | ask hvs hfresh hpast ih =>
    intro pre i now call post hsplit
    rcases snoc_split hsplit with ⟨rfl, heq, -⟩ | ⟨post', -, hsplit⟩
    · cases heq
      exact ⟨hvs, hpast, fun h => absurd rfl h⟩
    · exact ih pre i now call post' hsplit
  | record hvs hcall hadmitted honce hpast ih =>
    intro pre i now call post hsplit
    rcases snoc_split hsplit with ⟨rfl, heq, -⟩ | ⟨post', -, hsplit⟩
    · cases heq
      exact ⟨hvs, hpast, fun _ => hadmitted⟩
    · exact ih pre i now call post' hsplit

/-- A breaker that has never opened is Closed. -/
theorem closed_of_never {cb : CircuitBreaker} {n : Nat} (hcb : cb.state = .closed n)
    (vs : List Visit) : Never visit OpenedBy cb vs → ∃ m, (cb.visited vs).state = .closed m := by
  induction vs using List.reverseRecOn with
  | nil => exact fun _ => ⟨n, hcb⟩
  | append_singleton vs v ih =>
    intro hnever
    obtain ⟨m, hm⟩ := ih hnever.of_append
    have hshut : ¬ OpenedBy (cb.visited vs) v := hnever vs v [] rfl
    have hstate := step_closed hm (v.now, v.call)
    rw [visited_snoc, visit]
    revert hstate
    split
    · exact fun hstate => ⟨m, hstate⟩
    · exact fun hstate => ⟨0, hstate⟩
    · split
      · exact fun hstate => absurd ⟨not_isOpen_closed hm, v.now, hstate⟩ hshut
      · exact fun hstate => ⟨m + 1, hstate⟩

/-- A request that asked after the latest opening was let through only when the
timeout of that opening was over. -/
theorem admitted_late {cb : CircuitBreaker} {vs pre mid rest : List Visit} {v : Visit}
    {i asked : Nat} (hvs : Interleaving cb vs)
    (hlatest : Latest visit OpenedBy cb vs pre v (mid ++ ⟨i, asked, .canProceed⟩ :: rest))
    (hans : ((cb.visited (pre ++ v :: mid)).canProceed asked).1 = true) :
    v.now + cb.recoveryTimeout ≤ asked := by
  have hsplit := hlatest.split
  have hsorted := hvs.sorted
  rw [hsplit, show pre ++ v :: (mid ++ ⟨i, asked, .canProceed⟩ :: rest) =
    (pre ++ v :: mid) ++ ⟨i, asked, .canProceed⟩ :: rest by simp] at hsorted
  have hpast := (List.pairwise_append.mp hsorted).2.2
  have hv : v.now ≤ asked := hpast v (by simp) _ List.mem_cons_self
  rcases opened_or_asked mid _ hlatest.before with hopen | ⟨u, hu, -, hwall⟩
  · by_contra hearly
    have hdenied : ((cb.visited (pre ++ v :: mid)).canProceed asked).1 = false := by
      refine canProceed_false_iff.mpr ⟨v.now, hopen, ?_⟩
      rw [visited_recoveryTimeout]
      omega
    rw [hans] at hdenied
    cases hdenied
  · have hle : u.now ≤ asked := hpast u (by simp [hu]) _ List.mem_cons_self
    omega

/-- A request whose result finds the breaker HalfOpen and is not from before the
most recent opening was admitted after its timeout. -/
theorem askedAfterTimeout_of_not_stale {cb : CircuitBreaker} {n : Nat}
    (hcb : cb.state = .closed n) {vs : List Visit} {i : Nat} (hvs : Interleaving cb vs)
    (hhalf : (cb.visited vs).state = .halfOpen) (hadmitted : Admitted cb vs i)
    (hfresh : ¬ Stale cb vs i) : AskedAfterTimeout cb vs i := by
  rcases never_or_latest visit OpenedBy cb vs with hnever | ⟨pre, v, post, hlatest⟩
  · obtain ⟨m, hm⟩ := closed_of_never hcb vs hnever
    rw [hm] at hhalf
    cases hhalf
  obtain ⟨p, asked, q, hask, hans⟩ := hadmitted
  rcases split_cases (hlatest.split.symm.trans hask) with
    ⟨mid, rfl, rfl⟩ | ⟨-, rfl, -⟩ | ⟨mid, rfl, -⟩
  · exact ⟨pre, v, _, asked, hlatest, by simp, admitted_late hvs hlatest hans⟩
  · -- asking opens no breaker
    cases (OpenedBy.failure hlatest.kind).1
  · exact absurd ⟨_, v, post, asked, hlatest, by simp⟩ hfresh

/-- Stale results decide nothing where they find the breaker Open, or are successes
that find nothing to forget. -/
theorem staleResultsKeep_of_findOpen {failureThreshold recoveryTimeout : Nat} {vs : List Visit}
    (h : Interleaving (withConfig failureThreshold recoveryTimeout) vs)
    (hfind : StaleResultsFindOpen (withConfig failureThreshold recoveryTimeout) vs) :
    StaleResultsKeep (withConfig failureThreshold recoveryTimeout) vs := by
  intro pre i now call post hsplit hcall
  obtain ⟨hpre, -, hadmitted⟩ := h.before pre i now call post hsplit
  have hfound := hfind pre i now call post hsplit hcall
  refine ⟨fun hstale => ?_, fun hhalf => ?_⟩
  · rw [visited_snoc]
    exact (record_keeps_iff hcall).mpr (hfound hstale)
  · refine askedAfterTimeout_of_not_stale rfl hpre hhalf (hadmitted hcall) fun hstale => ?_
    rcases hfound hstale with hopen | ⟨-, hclosed⟩
    · exact not_isOpen_halfOpen hhalf hopen
    · rw [hclosed] at hhalf
      cases hhalf

/-- **Stale results.** In a run of requests, in any order, on a breaker of any
configuration, results from before the most recent opening decide nothing if and
only if they find the breaker Open, or are successes and find nothing to forget. -/
theorem stale_results_iff {failureThreshold recoveryTimeout : Nat} {vs : List Visit}
    (h : Interleaving (withConfig failureThreshold recoveryTimeout) vs) :
    StaleResultsKeep (withConfig failureThreshold recoveryTimeout) vs ↔
      StaleResultsFindOpen (withConfig failureThreshold recoveryTimeout) vs := by
  refine ⟨fun hkeep pre i now call post hsplit hcall hstale => ?_, staleResultsKeep_of_findOpen h⟩
  have hsame := (hkeep pre i now call post hsplit hcall).1 hstale
  rw [visited_snoc] at hsame
  exact (record_keeps_iff hcall).mp hsame

/-- Every request records its result before it has run for the recovery timeout. -/
def RunsShort (cb : CircuitBreaker) (vs : List Visit) : Prop :=
  ∀ pre i now call post asked, vs = pre ++ ⟨i, now, call⟩ :: post → call ≠ .canProceed →
    ⟨i, asked, .canProceed⟩ ∈ pre → now < asked + cb.recoveryTimeout

/-- When requests run shorter than the recovery timeout, late results are harmless. -/
theorem stale_results_of_short {failureThreshold recoveryTimeout : Nat} {vs : List Visit}
    (h : Interleaving (withConfig failureThreshold recoveryTimeout) vs)
    (hshort : RunsShort (withConfig failureThreshold recoveryTimeout) vs) :
    StaleResultsKeep (withConfig failureThreshold recoveryTimeout) vs := by
  refine staleResultsKeep_of_findOpen h fun pre i now call post hsplit hcall hstale => .inl ?_
  obtain ⟨hpre, hpast, -⟩ := h.before pre i now call post hsplit
  obtain ⟨p, v, q, asked, hlatest, hask⟩ := hstale
  have hmem : ⟨i, asked, .canProceed⟩ ∈ pre := by
    rw [hlatest.split]
    exact List.mem_append_left _ hask
  have hlate := hshort pre i now call post asked hsplit hcall hmem
  have hsorted := hpre.sorted
  rw [hlatest.split] at hsorted
  have hv : asked ≤ v.now := (List.pairwise_append.mp hsorted).2.2 _ hask v List.mem_cons_self
  rcases opened_or_asked q pre hlatest with hopen | ⟨u, hu, -, hwall⟩
  · exact ⟨v.now, hopen⟩
  · -- somebody asked after the timeout, so this request has run for as long
    have hupre : u ∈ pre := by
      rw [hlatest.split]
      exact List.mem_append_right _ (List.mem_cons_of_mem _ hu)
    have hnow := hpast u hupre
    have hlong : asked + (withConfig failureThreshold recoveryTimeout).recoveryTimeout ≤ now := by
      have hvu : v.now ≤ u.now :=
        (List.pairwise_cons.mp (List.pairwise_append.mp hsorted).2.1).1 u hu
      omega
    omega

/-- Two requests are let through. -/
def bothAsk : List Visit := [⟨0, 0, .canProceed⟩, ⟨1, 0, .canProceed⟩]

/-- The failure of one opens the breaker. -/
def firstFailure : List Visit := bothAsk ++ [⟨0, 1, .recordFailure⟩]

/-- Two calls ask, and the first of them fails. -/
theorem interleaving_firstFailure : Interleaving (withConfig 1 10) firstFailure := by
  have hask : Interleaving (withConfig 1 10) ([] ++ [⟨0, 0, .canProceed⟩]) :=
    .ask .nil (by simp) (by simp)
  have hboth : Interleaving (withConfig 1 10) bothAsk :=
    hask.ask (i := 1) (by decide) (by decide)
  exact .record hboth (by decide) ⟨[], 0, _, rfl, rfl⟩ (by decide) (by decide)

/-- The other one fails as well, and finds the breaker Open. -/
theorem stale_results_failure : StaleResultsKeep (withConfig 1 10)
    (firstFailure ++ [⟨1, 2, .recordFailure⟩]) := by
  have hrun : Interleaving (withConfig 1 10) (firstFailure ++ [⟨1, 2, .recordFailure⟩]) :=
    .record interleaving_firstFailure (by decide)
      ⟨[⟨0, 0, .canProceed⟩], 0, [⟨0, 1, .recordFailure⟩], rfl, rfl⟩ (by decide) (by decide)
  refine (stale_results_iff hrun).mpr fun pre i now call post hsplit hcall hstale => .inl ?_
  -- what has opened the breaker is the failure of the first
  obtain ⟨p, v, q, asked, hlatest, hask⟩ := hstale
  have hfailure := (OpenedBy.failure hlatest.kind).1
  have hv : v ∈ pre := by
    rw [hlatest.split]
    simp
  rcases snoc_split hsplit with ⟨rfl, -, -⟩ | ⟨post', -, hfirst⟩
  · exact ⟨1, rfl⟩
  · have hfirst : bothAsk ++ [⟨0, 1, .recordFailure⟩] = pre ++ ⟨i, now, call⟩ :: post' := hfirst
    have hboth : v ∈ bothAsk := by
      rcases snoc_split hfirst with ⟨rfl, -, -⟩ | ⟨post'', -, hasks⟩
      · exact hv
      · rw [hasks]
        exact List.mem_append_left _ hv
    have hasked : ∀ u ∈ bothAsk, u.call = .canProceed := by decide
    rw [hasked v hboth] at hfailure
    cases hfailure

/-- A third request is let through after the timeout, and the success of the
second, from before the opening, closes the breaker. -/
theorem stale_success_closes :
    Interleaving (withConfig 1 10)
      (firstFailure ++ [⟨2, 11, .canProceed⟩] ++ [⟨1, 12, .recordSuccess⟩]) ∧
    ¬ StaleResultsKeep (withConfig 1 10)
      (firstFailure ++ [⟨2, 11, .canProceed⟩] ++ [⟨1, 12, .recordSuccess⟩]) := by
  have hprobe : Interleaving (withConfig 1 10) (firstFailure ++ [⟨2, 11, .canProceed⟩]) :=
    .ask interleaving_firstFailure (by decide) (by decide)
  refine ⟨.record hprobe (by decide) ⟨[⟨0, 0, .canProceed⟩], 0, _, rfl, rfl⟩ (by decide)
    (by decide), fun hkeep => ?_⟩
  have hstale : Stale (withConfig 1 10) (firstFailure ++ [⟨2, 11, .canProceed⟩]) 1 := by
    have hopens : OpenedBy ((withConfig 1 10).visited
        [⟨0, 0, .canProceed⟩, ⟨1, 0, .canProceed⟩]) ⟨0, 1, .recordFailure⟩ :=
      ⟨not_isOpen_closed rfl, 1, rfl⟩
    refine ⟨_, _, _, 0, (latest_self hopens).snoc ?_, by simp⟩
    exact fun hflip => hflip.1 ⟨1, rfl⟩
  have hsame := (hkeep (firstFailure ++ [⟨2, 11, .canProceed⟩]) 1 12 .recordSuccess [] rfl
    (by decide)).1 hstale
  revert hsame
  decide

end CircuitBreaker

end Torpc
