import Torpc.Model.App

/-!
# How many writes get out

A write method has one bucket for the whole daemon. Its window starts with the
charge that finds the last one run out, so an interval as long as the window can
meet two of them: what passes in it is at most twice the limit, and what passes
in one window at most the limit (`write_cap`). Nothing of a write request is put
on the wire before the request has passed. The times are those of the steps, and
every run has them (`Daemon.timed_of_run`).
-/

namespace Torpc

open Effects Prog FixedWindow Lts

/-- The steps of the daemon, each with its time. -/
abbrev Daemon.Timed (d : Daemon) :
    d.system.Config → Nat × d.system.Label → d.system.Config → Prop :=
  Lts.Timed (fun c => c.shared.now) (System.Step d.system)

/-- Every run of the daemon is one of these, with the times it has. -/
theorem Daemon.timed_of_run {d : Daemon} {t : Nat} {ls : List d.system.Label}
    {c : d.system.Config} (h : d.RunFrom t ls c) :
    ∃ tls, tls.map Prod.snd = ls ∧ Run d.Timed (d.system.start (d.initial t)) tls c :=
  h.timed _

/-- A request asks for a charge of a write budget. -/
structure Check where
  now : Nat
  request : Nat
  ok : Bool

/-- The check that a step makes of the budget of `method`. -/
def checkOf {d : Daemon} (method : String) : Nat × d.system.Label → Option Check
  | (now, .act i ⟨.checkWriteLimit m, ok⟩) => if m = method then some ⟨now, i, ok⟩ else none
  | _ => none

def checksOf {d : Daemon} (method : String) (ls : List (Nat × d.system.Label)) : List Check :=
  ls.filterMap (checkOf method)

/-- The decisions of the bucket with their times. -/
def decided (checks : List Check) : List (Nat × Bool) :=
  checks.map fun check => (check.now, check.ok)

/-- The requests that pass at times in `[lo, hi)`, each as often as it does. -/
def passersIn (lo hi : Nat) (checks : List Check) : List Nat :=
  (checks.filter fun check => check.ok && decide (lo ≤ check.now ∧ check.now < hi)).map
    Check.request

def passers (checks : List Check) : List Nat := (checks.filter Check.ok).map Check.request

/-- The request is for `method`, and something of it is put on the wire to an upstream. -/
def HandedOn {d : Daemon} (method : String) (ls : List (Nat × d.system.Label)) (i : Nat) : Prop :=
  ∃ a : Arrival, .spawn i a ∈ ls.map Prod.snd ∧ a.request.method = method ∧
    ∃ e : OpEvent, .act i e ∈ ls.map Prod.snd ∧ e.op.isSend = true

/-- The requests that pass in an interval are as many as the limiter has admitted in it. -/
theorem length_passersIn (lo hi : Nat) (checks : List Check) :
    (passersIn lo hi checks).length = admittedIn lo hi (decided checks) := by
  rw [passersIn, List.length_map, ← List.countP_eq_length_filter, admittedIn, decided,
    List.countP_map]
  rfl

/-- The requests that pass are as many as it has admitted at all. -/
theorem length_passers (checks : List Check) :
    (passers checks).length = admitted (decided checks) := by
  rw [passers, List.length_map, ← List.countP_eq_length_filter, admitted, decided, List.countP_map]
  rfl

-- ---------------------------------------------------------------------------
-- The bucket over a run
-- ---------------------------------------------------------------------------

/-- A step that does not check the budget leaves the bucket alone. -/
theorem step_noCheck {d : Daemon} {method : String} {c c' : d.system.Config} {now : Nat}
    {l : d.system.Label} (h : System.Step d.system c l c') (hl : checkOf method (now, l) = none) :
    c'.shared.writeMethodLimiter.config = c.shared.writeMethodLimiter.config ∧
      c'.shared.writeMethodLimiter.window method = c.shared.writeMethodLimiter.window method := by
  cases h with
  | spawn job hacc => exact ⟨rfl, rfl⟩
  | act i job o k r s' hi hexec =>
    by_cases ho : ∃ m, o = .checkWriteLimit m
    · obtain ⟨m, rfl⟩ := ho
      have hm : m ≠ method := by
        rintro rfl
        simp [checkOf] at hl
      have hexec : exec c.shared (.checkWriteLimit m) r s' := hexec
      obtain ⟨-, hs'⟩ := exec_perform rfl hexec
      rw [← hs']
      refine ⟨RateLimiter.checkRateLimit_config _ _ _, ?_⟩
      show ((c.shared.writeMethodLimiter).checkRateLimit c.shared.now m).2.window method = _
      rw [(RateLimiter.checkRateLimit_refines _ _ _).2, Function.update_of_ne (Ne.symm hm)]
    · have hs' := exec_writeMethodLimiter hexec fun m hm => ho ⟨m, hm⟩
      show s'.writeMethodLimiter.config = _ ∧ s'.writeMethodLimiter.window method = _
      rw [hs']
      exact ⟨rfl, rfl⟩
  | done i job a hi => exact ⟨rfl, rfl⟩
  | cancel i job o k hi hc => exact ⟨rfl, rfl⟩
  | env s' henv =>
    rcases henv with ⟨now, -, rfl⟩ | ⟨l, -, rfl⟩ | ⟨peer, rfl⟩ <;> exact ⟨rfl, rfl⟩

/-- A step that checks the limiter for the method makes one charge, at the time of the step.
-/
theorem step_check {d : Daemon} {method : String} {c c' : d.system.Config} {now : Nat}
    {l : d.system.Label} (h : System.Step d.system c l c') {check : Check}
    (hl : checkOf method (now, l) = some check) :
    check.now = now ∧ c'.shared.now = c.shared.now ∧
      c'.shared.writeMethodLimiter.config = c.shared.writeMethodLimiter.config ∧
      let limit := c.shared.writeMethodLimiter.config
      let charged := charge limit.maxRequests.toNat limit.windowDuration c.shared.now
        (c.shared.writeMethodLimiter.window method)
      check.ok = charged.1 ∧ c'.shared.writeMethodLimiter.window method = some charged.2 := by
  cases h with
  | act i job o k r s' hi hexec =>
    unfold checkOf at hl
    split at hl
    · next now' i' m ok heq =>
      cases heq
      split at hl
      · next hm =>
        subst hm
        cases hl
        have hexec : exec c.shared (.checkWriteLimit m) ok s' := hexec
        obtain ⟨hok, hs'⟩ := exec_perform rfl hexec
        obtain ⟨hdecided, hwindow⟩ :=
          RateLimiter.checkRateLimit_refines c.shared.now m c.shared.writeMethodLimiter
        refine ⟨rfl, ?_, ?_, ?_, ?_⟩
        · rw [← hs']
        · rw [← hs']
          exact RateLimiter.checkRateLimit_config _ _ _
        · rw [← hok]
          exact hdecided
        · rw [← hs']
          show ((c.shared.writeMethodLimiter).checkRateLimit c.shared.now m).2.window m = _
          rw [hwindow, Function.update_self]
      · cases hl
    · cases hl
  | _ => cases hl

/-- No step of the daemon sets the clock back. -/
theorem step_now_le {d : Daemon} {c c' : d.system.Config} {l : d.system.Label}
    (h : System.Step d.system c l c') : c.shared.now ≤ c'.shared.now := by
  cases h with
  | act i job o k r s' hi hexec =>
    exact (exec_now hexec).ge
  | env s' henv =>
    rcases henv with ⟨now, hle, rfl⟩ | ⟨l, -, rfl⟩ | ⟨peer, rfl⟩
    · exact hle
    · exact Nat.le_refl _
    · exact Nat.le_refl _
  | _ => exact Nat.le_refl _

/-- The times of the checks. -/
def checkTimes (checks : List Check) : List Nat := checks.map Check.now

/-- A bucket over a run: its decisions are those of one counter that is charged
at the times of the checks. -/
structure Ledger {d : Daemon} (method : String) (c₁ : d.system.Config)
    (ls : List (Nat × d.system.Label)) (c₂ : d.system.Config) : Prop where
  config : c₂.shared.writeMethodLimiter.config = c₁.shared.writeMethodLimiter.config
  sorted : (checkTimes (checksOf method ls)).Pairwise (· ≤ ·)
  past : ∀ t ∈ checkTimes (checksOf method ls), t ≤ c₂.shared.now
  decided : decided (checksOf method ls) =
    outcomes c₁.shared.writeMethodLimiter.config.maxRequests.toNat
      c₁.shared.writeMethodLimiter.config.windowDuration
      (c₁.shared.writeMethodLimiter.window method) (checkTimes (checksOf method ls))
  window : c₂.shared.writeMethodLimiter.window method =
    after c₁.shared.writeMethodLimiter.config.maxRequests.toNat
      c₁.shared.writeMethodLimiter.config.windowDuration
      (c₁.shared.writeMethodLimiter.window method) (checkTimes (checksOf method ls))

/-- The checks of a history are those of its first part and those of its second. -/
theorem checksOf_append {d : Daemon} (method : String) (ls ls' : List (Nat × d.system.Label)) :
    checksOf method (ls ++ ls') = checksOf method ls ++ checksOf method ls' :=
  List.filterMap_append

/-- Over a run the limiter's bucket for a method is what its checks have made of it, and
these come in the order of their times. -/
theorem run_ledger {d : Daemon} (method : String) {c₁ c₂ : d.system.Config}
    {ls : List (Nat × d.system.Label)} (h : Run d.Timed c₁ ls c₂) : Ledger method c₁ ls c₂ := by
  induction h with
  | nil => exact ⟨rfl, .nil, nofun, rfl, rfl⟩
  | @snoc c c' ls l _ hstep ih =>
    obtain ⟨now, l⟩ := l
    obtain ⟨hnow, hstep⟩ := hstep
    have hnow : c.shared.now = now := hnow
    have hle := step_now_le hstep
    have hone : checksOf method [(now, l)] = (checkOf method (now, l)).toList := by
      rw [checksOf, List.filterMap_cons, List.filterMap_nil]
      cases checkOf method (now, l) <;> rfl
    cases hl : checkOf method (now, l) with
    | none =>
      obtain ⟨hconfig, hwindow⟩ := step_noCheck hstep hl
      have hsame : checksOf method (ls ++ [(now, l)]) = checksOf method ls := by
        rw [checksOf_append, hone, hl, Option.toList_none, List.append_nil]
      refine ⟨hconfig.trans ih.config, ?_, fun t ht => ?_, ?_, ?_⟩ <;> rw [hsame] at *
      · exact ih.sorted
      · exact Nat.le_trans (ih.past t ht) hle
      · exact ih.decided
      · exact hwindow.trans ih.window
    | some check =>
      -- one more charge, no earlier than those before it
      obtain ⟨htime, hclock, hconfig, hok, hwindow⟩ := step_check hstep hl
      have hmore : checksOf method (ls ++ [(now, l)]) = checksOf method ls ++ [check] := by
        rw [checksOf_append, hone, hl, Option.toList_some]
      rw [ih.config, ih.window, hnow, ← htime] at hok hwindow
      have hlast : check.now = c.shared.now := htime.trans hnow.symm
      refine ⟨hconfig.trans ih.config, ?_, fun t ht => ?_, ?_, ?_⟩
      · rw [hmore, checkTimes, List.map_append, List.pairwise_append]
        refine ⟨ih.sorted, List.pairwise_singleton _ _, fun t ht t' ht' => ?_⟩
        obtain rfl := List.mem_singleton.mp ht'
        rw [hlast]
        exact ih.past t ht
      · rw [hmore, checkTimes, List.map_append, List.mem_append] at ht
        rcases ht with ht | ht
        · exact Nat.le_trans (ih.past t ht) hle
        · obtain rfl := List.mem_singleton.mp ht
          rw [hlast]
          exact hle
      · rw [hmore, checkTimes, List.map_append, outcomes_append, Torpc.decided, List.map_append]
        refine congrArg₂ _ ih.decided ?_
        simp only [List.map_cons, List.map_nil, outcomes]
        rw [hok]
        rfl
      · rw [hmore, checkTimes, List.map_append, after_append, hwindow]
        rfl

-- ---------------------------------------------------------------------------
-- Nothing is sent before a check
-- ---------------------------------------------------------------------------

/-- The request has passed the check of this method. -/
def notePass (method : String) (passed : Bool) : OpEvent → Bool
  | ⟨.checkWriteLimit m, ok⟩ => passed || (decide (m = method) && ok)
  | _ => passed

/-- Only a request that has passed sends. -/
def SendsPassed (passed : Bool) (o : Op) : Prop := o.isSend = true → passed = true

/-- A pass that has been noted stays noted. -/
theorem notePass_true (method : String) (e : OpEvent) : notePass method true e = true := by
  unfold notePass
  split <;> rfl

/-- From the pass on there is nothing to watch. -/
theorem sat_passed {α : Type} (method : String) (p : Handler α) :
    p.Sat (notePass method) SendsPassed (fun _ _ => True) true := by
  induction p with
  | pure a => trivial
  | op o k ih =>
    refine ⟨fun _ => rfl, fun r => ?_⟩
    rw [notePass_true]
    exact ih r

/-- What stands behind a check of the method. -/
theorem sat_checked {method : String} (hmethod : method ∈ writeMethods)
    (f : Handler (ProxyResult JsonRpcResponse)) :
    ((checkWriteMethodRateLimit method).andThen fun _ => f).Sat (notePass method) SendsPassed
      (fun _ _ => True) false := by
  have hcheck : (checkWriteMethodRateLimit method).Sat (notePass method) SendsPassed
      (fun r passed => r = .ok () → passed = true) false := by
    unfold checkWriteMethodRateLimit
    rw [if_neg (by simpa using hmethod)]
    refine ⟨nofun, fun ok => ?_⟩
    cases ok
    · exact ⟨nofun, fun _ => nofun⟩
    · intro _
      simp [notePass]
  refine hcheck.andThen (fun _ passed hpassed => ?_) fun _ _ _ => trivial
  rw [hpassed rfl]
  exact sat_passed method f

/-- Behind the gates nothing is sent before the write limiter has been passed. -/
theorem sat_gated {request : JsonRpcRequest} (hmethod : request.method ∈ writeMethods)
    (forward : Handler (ProxyResult JsonRpcResponse)) :
    (gated request forward).Sat (notePass request.method) SendsPassed (fun _ _ => True) false := by
  unfold gated
  split
  · trivial
  · split
    · exact ⟨nofun, fun _ => ⟨nofun, fun _ => trivial⟩⟩
    · exact sat_checked hmethod forward

/-- The same is true of everything that a request's handler does, on every route. -/
theorem sat_serve (d : Daemon) {a : Arrival} (hmethod : a.request.method ∈ writeMethods) :
    (d.serve a).Sat (notePass a.request.method) SendsPassed (fun _ _ => True) false := by
  refine ⟨nofun, fun ok => ?_⟩
  cases ok
  · trivial
  have hhandler : (d.handler a.route a.request).Sat (notePass a.request.method) SendsPassed
      (fun _ _ => True) false := by
    rcases d.handler_cases a.route with ⟨-, heq⟩ | ⟨-, heq⟩
    · rw [heq]
      exact sat_gated hmethod _
    · rw [heq]
      exact sat_checked hmethod _
  exact hhandler.bind fun _ _ _ => trivial

/-- A pass that is noted is in the trace. -/
theorem mem_of_notePass {method : String} {tr : List OpEvent}
    (h : tr.foldl (notePass method) false = true) :
    (⟨.checkWriteLimit method, true⟩ : OpEvent) ∈ tr := by
  induction tr using List.reverseRecOn with
  | nil => cases h
  | append_singleton tr e ih =>
    rw [List.foldl_append, List.foldl_cons, List.foldl_nil] at h
    unfold notePass at h
    split at h
    · next m ok =>
      rcases Bool.or_eq_true_iff.mp h with h | h
      · exact List.mem_append_left _ (ih h)
      · rw [Bool.and_eq_true, decide_eq_true_eq] at h
        obtain ⟨rfl, rfl⟩ := h
        simp
    · exact List.mem_append_left _ (ih h)

/-- Whoever has passed the limiter is among the passers. -/
theorem mem_passers {d : Daemon} {method : String} {ls : List (Nat × d.system.Label)} {i : Nat}
    (h : .act i ⟨.checkWriteLimit method, true⟩ ∈ ls.map Prod.snd) :
    i ∈ passers (checksOf method ls) := by
  obtain ⟨⟨now, l⟩, hmem, rfl⟩ := List.mem_map.mp h
  have hcheck : (⟨now, i, true⟩ : Check) ∈ checksOf method ls :=
    List.mem_filterMap.mpr ⟨_, hmem, if_pos rfl⟩
  exact List.mem_map.mpr ⟨_, List.mem_filter.mpr ⟨hcheck, rfl⟩, rfl⟩

/-- Before anything of a write request is sent, it has passed. -/
theorem passed_of_send {d : Daemon} {t : Nat} {ls pre post : List d.system.Label}
    {c : d.system.Config} (h : d.RunFrom t ls c) {i : Nat} {e : OpEvent}
    (hls : ls = pre ++ .act i e :: post) (hsend : e.op.isSend = true) {a : Arrival}
    (ha : .spawn i a ∈ ls) (hmethod : a.request.method ∈ writeMethods) :
    .act i ⟨.checkWriteLimit a.request.method, true⟩ ∈ pre := by
  subst hls
  obtain ⟨job, k, hjob, htr⟩ := System.run_act h
  obtain rfl : job = a := System.run_spawn_unique h (List.mem_append_left _ hjob) ha
  have hpassed := ((sat_serve d hmethod).rest htr).1 hsend
  exact System.mem_eventsOf.mp (mem_of_notePass hpassed)

-- ---------------------------------------------------------------------------
-- The cap
-- ---------------------------------------------------------------------------

/-- What the write limit means for a method, over every run of the daemon. -/
structure WriteCap (d : Daemon) (method : String) : Prop where
  /-- requests that pass within an interval as long as the window -/
  interval : ∀ {t ls c}, Run d.Timed (d.system.start (d.initial t)) ls c → ∀ a,
    (passersIn a (a + d.writeLimit.windowDuration) (checksOf method ls)).length ≤
      2 * Nat.max d.writeLimit.maxRequests.toNat 1
  /-- requests that pass in one window: the first check of this part of the run
  opens it, and the others fall into it -/
  window : ∀ {t pre c₁ ls c₂ now later}, Run d.Timed (d.system.start (d.initial t)) pre c₁ →
    Run d.Timed c₁ ls c₂ → checkTimes (checksOf method ls) = now :: later →
    (∀ v ∈ c₁.shared.writeMethodLimiter.window method,
      d.writeLimit.windowDuration ≤ now - v.start) →
    (∀ t' ∈ later, t' - now < d.writeLimit.windowDuration) →
    (passers (checksOf method ls)).length ≤ Nat.max d.writeLimit.maxRequests.toNat 1
  /-- whatever is sent has passed before -/
  checked : ∀ {t ls c}, Run d.Timed (d.system.start (d.initial t)) ls c →
    ∀ {pre now i e post}, ls = pre ++ (now, .act i e) :: post → e.op.isSend = true →
    ∀ {a : Arrival}, .spawn i a ∈ ls.map Prod.snd → a.request.method = method →
    i ∈ passers (checksOf method pre)
  /-- so the requests that are handed on are as few as those that pass -/
  handedOn : ∀ {t ls c}, Run d.Timed (d.system.start (d.initial t)) ls c → ∀ a {ids : List Nat},
    ids.Nodup → (∀ i ∈ ids, HandedOn method ls i ∧
      i ∈ passersIn a (a + d.writeLimit.windowDuration) (checksOf method ls)) →
    ids.length ≤ 2 * Nat.max d.writeLimit.maxRequests.toNat 1

/-- At first the limiter has its configuration and no window. -/
theorem initial_bucket (d : Daemon) (t : Nat) (method : String) :
    (d.initial t).writeMethodLimiter.config = d.writeLimit ∧
      (d.initial t).writeMethodLimiter.window method = none :=
  ⟨rfl, RateLimiter.window_new _ _⟩

/-- In any stretch as long as a window at most twice the budget passes, and at most two
where the budget is 0. -/
theorem passersIn_le {d : Daemon} {t : Nat} {ls : List (Nat × d.system.Label)}
    {c : d.system.Config} (h : Run d.Timed (d.system.start (d.initial t)) ls c) (method : String)
    (a : Nat) : (passersIn a (a + d.writeLimit.windowDuration) (checksOf method ls)).length ≤
      2 * Nat.max d.writeLimit.maxRequests.toNat 1 := by
  have hledger := run_ledger method h
  obtain ⟨hconfig, hnone⟩ := initial_bucket d t method
  rw [length_passersIn, hledger.decided]
  show admittedIn a _ (outcomes (d.initial t).writeMethodLimiter.config.maxRequests.toNat _
    ((d.initial t).writeMethodLimiter.window method) _) ≤ _
  rw [hconfig, hnone]
  exact admittedIn_le hledger.sorted a

/-- The configuration of the write limiter is the daemon's, in every state. -/
theorem writeLimit_of_run {d : Daemon} {t : Nat} {ls : List (Nat × d.system.Label)}
    {c : d.system.Config} (h : Run d.Timed (d.system.start (d.initial t)) ls c) :
    c.shared.writeMethodLimiter.config = d.writeLimit :=
  (run_ledger "" h).config

theorem write_cap (d : Daemon) {method : String} (hmethod : method ∈ writeMethods) :
    WriteCap d method where
  interval h a := passersIn_le h method a
  window := by
    intro t pre c₁ ls c₂ now later hpre h htimes hopens hin
    have hledger := run_ledger method h
    rw [length_passers, hledger.decided, writeLimit_of_run hpre, htimes]
    exact admitted_window_le hopens hin
  checked := by
    rintro t ls c h pre now i e post rfl hsend a ha rfl
    have hrun := h.untimed
    rw [List.map_append, List.map_cons] at hrun
    rw [List.map_append, List.map_cons] at ha
    exact mem_passers (passed_of_send hrun rfl hsend ha hmethod)
  handedOn := by
    intro t ls c h a ids hnodup hids
    have hsub : ids ⊆ passersIn a (a + d.writeLimit.windowDuration) (checksOf method ls) :=
      fun i hi => (hids i hi).2
    exact Nat.le_trans (List.subperm_of_subset hnodup hsub).length_le (passersIn_le h method a)

theorem write_cap_rawTransaction : WriteCap plainDaemon "eth_sendRawTransaction" :=
  write_cap plainDaemon (by decide)

end Torpc
