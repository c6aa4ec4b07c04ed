import Torpc.Model.PublicRouter

/-!
# When Geth is well again

The breaker in front of Geth is there for outages, and has to be out of the way
without one. Once every answer of Geth is a healthy one, no failure is recorded
any more (`no_failure_of_healthy`): a handler records one only after an answer
of its own that was not. From then on the breaker cannot open. If it was not
Open it refuses nobody; if it was, it refuses nobody once its 30 seconds are
over, and the first exchange that succeeds after it has let one through closes
it for good (`geth_recovers`). What the relay does makes no difference, nor does
who is dropped where.
-/

namespace Torpc

open Effects Prog System Lts

/-- Geth has not shown itself to be down: not by a lost connection, a 5xx status or
a body that is no response. -/
def healthy : OpEvent → Bool
  | ⟨.gethReply, reply⟩ =>
    match (reply : Except String Nat) with
    | .ok status => !isServerError status
    | .error _ => false
  | ⟨.gethJson, body⟩ =>
    match (body : Except String Value) with
    | .ok v => (JsonRpcResponse.ofValue v).isSome
    | .error _ => false
  | _ => true

-- ---------------------------------------------------------------------------
-- One request
-- ---------------------------------------------------------------------------

/-- Whether all the answers so far have been healthy. -/
def wellSoFar (well : Bool) (e : OpEvent) : Bool := well && healthy e

/-- A failure of Geth is recorded only after an answer that is not healthy. -/
def FailsForCause (well : Bool) (o : Op) : Prop := o = .recordFailure .geth → well = false

/-- A program that has no exchange with Geth has nothing to show. -/
theorem sat_apart {α : Type} {p : Handler α} (hp : p.Ops fun o => o.isGethOutcome = false)
    (well : Bool) : p.Sat wellSoFar FailsForCause (fun _ _ => True) well := by
  refine (sat_frame hp (fun o ho r => ?_) fun o ho hrecord => ?_).mono (fun _ _ h => h)
    fun _ _ _ => trivial
  · have hwell : healthy ⟨o, r⟩ = true := by
      cases o <;> first | rfl | cases ho
    rw [wellSoFar, hwell, Bool.and_true]
  · subst hrecord
    cases ho

/-- What is done with the relay tells Geth's breaker nothing. -/
theorem isGethOutcome_of_relayOp {o : Op} (h : o.isRelayOp = true) : o.isGethOutcome = false := by
  cases o with
  | recordSuccess circuit => cases circuit <;> first | rfl | cases h
  | recordFailure circuit => cases circuit <;> first | rfl | cases h
  | _ => first | rfl | cases h

/-- Reading a reply of Geth records a failure only after an answer that is not healthy. -/
theorem sat_readGethResponse (x : Externals) (well : Bool) :
    (readGethResponse x).Sat wellSoFar FailsForCause (fun _ _ => True) well := by
  simp only [readGethResponse, perform_bind, sat_op]
  refine ⟨nofun, fun body => ?_⟩
  cases body with
  | error e =>
    refine ⟨fun _ => ?_, fun _ => trivial⟩
    exact Bool.and_false well
  | ok v =>
    simp only []
    split
    · next hv =>
      refine ⟨fun _ => ?_, fun _ => trivial⟩
      simp [wellSoFar, healthy, hv]
    · exact ⟨nofun, fun _ => trivial⟩

/-- Each failure that `proxy_to_geth` records has its cause. -/
theorem sat_awaitGeth (x : Externals) (well : Bool) :
    (awaitGeth x).Sat wellSoFar FailsForCause (fun _ _ => True) well := by
  simp only [awaitGeth, perform_bind, sat_op]
  refine ⟨nofun, fun reply => ?_⟩
  cases reply with
  | error e =>
    refine ⟨fun _ => ?_, fun _ => trivial⟩
    exact Bool.and_false well
  | ok status =>
    simp only []
    split
    · exact sat_readGethResponse x _
    · refine ⟨nofun, fun text => ?_⟩
      split
      · next herror =>
        refine ⟨fun _ => ?_, fun _ => trivial⟩
        simp [wellSoFar, healthy, herror]
      · trivial

/-- Forwarding to Geth records a failure only after an answer that is not healthy, and never
before it has asked. -/
theorem sat_proxyToGeth (x : Externals) (request : JsonRpcRequest) (well : Bool) :
    (proxyToGeth x request).Sat wellSoFar FailsForCause (fun _ _ => True) well := by
  refine ⟨nofun, fun ok => ?_⟩
  cases ok
  · trivial
  · exact ⟨nofun, fun _ => sat_awaitGeth x _⟩

/-- So does each that a handler records: the rest of it has nothing to do with Geth. -/
theorem Daemon.sat_handler_cause (d : Daemon) (route : Route) (request : JsonRpcRequest)
    (well : Bool) :
    (d.handler route request).Sat wellSoFar FailsForCause (fun _ _ => True) well := by
  have hpanic : (panic : Handler (ProxyResult String)).Ops fun o => o.isGethOutcome = false :=
    ops_panic.mono fun _ ho => isGethOutcome_of_relayOp (Op.isRelayOp_of_isPause ho)
  refine d.walk_handler (walk_sat wellSoFar FailsForCause fun _ => True) ?_ ?_ ?_ ?_ ?_ route
    request well trivial
  · exact fun _ _ _ => ⟨nofun, fun _ => ⟨nofun, fun _ => trivial⟩⟩
  · exact fun method well _ => sat_apart (ops_checkWriteMethodRateLimit rfl rfl) well
  · exact fun r well _ => sat_proxyToGeth d.externals r well
  · exact fun well _ => sat_apart hpanic well
  · exact fun client _ bundle well _ => sat_apart
      ((client.ops_sendBundle d.externals bundle).mono fun _ => isGethOutcome_of_relayOp) well

/-- Whatever is asked of the router, a failure it records has its cause. -/
theorem Daemon.sat_respond_cause (d : Daemon) (files : StaticFiles) (v : PublicRequest) :
    (d.respond files v).Sat wellSoFar FailsForCause (fun _ _ => True) true := by
  cases hv : v.arrival with
  | none =>
    refine sat_apart ((d.ops_respond_other hv files).mono ?_) true
    rintro o rfl
    rfl
  | some a =>
    rw [d.respond_eq_serve hv files]
    refine ⟨nofun, fun ok => ?_⟩
    cases ok
    · trivial
    · exact (d.sat_handler_cause a.route a.request _).bind fun _ _ _ => trivial

/-- The monitor is well after a history just if it was well before, and the history is
healthy throughout. -/
theorem foldl_wellSoFar (well : Bool) (tr : List OpEvent) :
    tr.foldl wellSoFar well = (well && tr.all healthy) := by
  induction tr generalizing well with
  | nil => rw [List.foldl_nil, List.all_nil, Bool.and_true]
  | cons e tr ih => rw [List.foldl_cons, ih, wellSoFar, List.all_cons, Bool.and_assoc]

-- ---------------------------------------------------------------------------
-- Runs
-- ---------------------------------------------------------------------------

section Run

variable {d : Daemon} {files : StaticFiles} {t : Nat} {pre ls : List (d.publicSystem files).Label}
  {m c : (d.publicSystem files).Config}

/-- In this part of a run Geth has answered everything well, also to the requests
that were in flight before it. -/
structure WellSince (pre : List (d.publicSystem files).Label) (m : (d.publicSystem files).Config)
    (ls : List (d.publicSystem files).Label) : Prop where
  answers : ∀ i e, .act i e ∈ ls → healthy e = true
  inFlight : ∀ i th, m.threads i = some th → ∀ e ∈ eventsOf i pre, healthy e = true

/-- If Geth has been well in a longer stretch of time, it has been in the beginning of it.
-/
theorem WellSince.of_append {ls' : List (d.publicSystem files).Label}
    (h : WellSince pre m (ls ++ ls')) : WellSince pre m ls :=
  ⟨fun i e he => h.answers i e (List.mem_append_left _ he), h.inFlight⟩

/-- As long as Geth is well no failure is recorded. -/
theorem no_failure_of_healthy (hpre : d.PublicRun files t pre m)
    (hrun : Run (Step (d.publicSystem files)) m ls c) (hwell : WellSince pre m ls) (i : Nat) :
    .act i ⟨.recordFailure .geth, ()⟩ ∉ ls := by
  intro hmem
  obtain ⟨ls₁, ls₂, rfl⟩ := List.append_of_mem hmem
  have hall : d.PublicRun files t (pre ++ ls₁ ++ .act i ⟨.recordFailure .geth, ()⟩ :: ls₂) c := by
    rw [List.append_assoc]
    exact hpre.append hrun
  obtain ⟨v, k, hspawn, htr⟩ := run_act hall
  have hcause := ((d.sat_respond_cause files v).rest htr).1 rfl
  rw [foldl_wellSoFar, Bool.true_and] at hcause
  -- so one of its answers was not healthy, before this part of the run or in it
  obtain ⟨e, he, hsick⟩ := List.all_eq_false.mp hcause
  rw [eventsOf_append] at he
  rcases List.mem_append.mp he with he | he
  · -- then it was in flight when this part began, for it goes on
    cases hth : m.threads i with
    | some th => exact hsick (hwell.inFlight i th hth e he)
    | none =>
      have hlt : i < m.next := lt_of_act hpre (mem_eventsOf.mp he)
      have hsilent := (run_silent hrun hlt hth).2.2
      have hact : (⟨.recordFailure .geth, ()⟩ : OpEvent) ∈
          eventsOf i (ls₁ ++ .act i ⟨.recordFailure .geth, ()⟩ :: ls₂) :=
        mem_eventsOf.mpr (List.mem_append_right _ List.mem_cons_self)
      rw [hsilent] at hact
      cases hact
  · exact hsick (hwell.answers i e (List.mem_append_left _ (mem_eventsOf.mp he)))

/-- The recovery timeout is the one `CircuitBreaker::new` sets. -/
theorem gethCircuit_timeout (h : d.PublicRun files t ls c) :
    c.shared.gethCircuit.recoveryTimeout = 30 * nanosPerSec := by
  refine Run.invariant (I := fun c : (d.publicSystem files).Config =>
    c.shared.gethCircuit.recoveryTimeout = 30 * nanosPerSec) h rfl fun c l c' hc hstep => ?_
  cases hstep with
  | spawn => exact hc
  | done => exact hc
  | cancel => exact hc
  | act i job o k r s' hi hex =>
    have hcircuit : s'.gethCircuit = _ := exec_circuit hex .geth
    show s'.gethCircuit.recoveryTimeout = _
    rw [hcircuit]
    cases o.breakerCall .geth with
    | none => exact hc
    | some call => exact (CircuitBreaker.step_recoveryTimeout _ _).trans hc
  | env s' henv =>
    rcases henv with ⟨now, -, rfl⟩ | ⟨l, -, rfl⟩ <;> exact hc

/-- A step that records no failure leaves the breaker Closed or HalfOpen if it was,
and does not move the opening of an Open one. -/
structure Mends (s s' : CircuitState) : Prop where
  closed : ∀ n, s = .closed n → ∃ n', s' = .closed n' ∧ n' ≤ n
  halfOpen : s = .halfOpen → s' = .halfOpen ∨ s' = .closed 0
  opened : ∀ since, s = .opened since → s' = .opened since ∨ s' = .halfOpen

/-- A breaker that stays as it is gets no worse. -/
theorem Mends.refl (s : CircuitState) : Mends s s :=
  ⟨fun n h => ⟨n, h, Nat.le_refl n⟩, .inl, fun _ h => .inl h⟩

/-- No call but a failure makes the breaker worse. -/
theorem CircuitBreaker.step_mends (cb : CircuitBreaker) {now : Nat} {call : BreakerCall}
    (hcall : call ≠ .recordFailure) : Mends cb.state (cb.step (now, call)).state := by
  refine ⟨fun n hn => ?_, fun hhalf => ?_, fun since hsince => ?_⟩
  · rw [step_closed hn]
    cases call with
    | canProceed => exact ⟨n, rfl, Nat.le_refl n⟩
    | recordSuccess => exact ⟨0, rfl, Nat.zero_le n⟩
    | recordFailure => exact absurd rfl hcall
  · rw [step_halfOpen_state hhalf]
    cases call with
    | canProceed => exact .inl rfl
    | recordSuccess => exact .inr rfl
    | recordFailure => exact absurd rfl hcall
  · rw [step_opened hsince]
    split
    · exact .inr rfl
    · exact .inl rfl

/-- No step of the daemon but the record of a failure makes Geth's breaker worse. -/
theorem step_mends {c c' : (d.publicSystem files).Config} {l : (d.publicSystem files).Label}
    (hstep : Step (d.publicSystem files) c l c')
    (hl : ∀ i, l ≠ .act i ⟨.recordFailure .geth, ()⟩) :
    Mends c.shared.gethCircuit.state c'.shared.gethCircuit.state := by
  cases hstep with
  | spawn => exact .refl _
  | done => exact .refl _
  | cancel => exact .refl _
  | act i job o k r s' hi hex =>
    have hcircuit : s'.gethCircuit = _ := exec_circuit hex .geth
    show Mends c.shared.gethCircuit.state s'.gethCircuit.state
    rw [hcircuit]
    cases hcall : o.breakerCall .geth with
    | none => exact .refl _
    | some call =>
      refine CircuitBreaker.step_mends _ fun hfailure => ?_
      subst hfailure
      -- the only operation that makes this call
      cases o with
      | recordFailure circuit =>
        cases circuit with
        | geth => exact hl i rfl
        | mevRelay => cases hcall
      | recordSuccess circuit => cases circuit <;> cases hcall
      | canProceed circuit => cases circuit <;> cases hcall
      | _ => cases hcall
  | env s' henv =>
    rcases henv with ⟨now, -, rfl⟩ | ⟨l, -, rfl⟩ <;> exact .refl _

/-- Without a failure a breaker that is not Open stays so. -/
theorem notOpen_of_run (hrun : Run (Step (d.publicSystem files)) m ls c)
    (hno : ∀ i, .act i ⟨.recordFailure .geth, ()⟩ ∉ ls)
    (hm : ¬ m.shared.gethCircuit.isOpen) : ¬ c.shared.gethCircuit.isOpen := by
  induction hrun with
  | nil => exact hm
  | @snoc c c' ls l _ hstep ih =>
    have hnot := ih fun i hi => hno i (List.mem_append_left _ hi)
    have hmends := step_mends hstep fun i hl => hno i (by rw [hl]; simp)
    rintro ⟨since, hopen⟩
    cases hstate : c.shared.gethCircuit.state with
    | closed n =>
      obtain ⟨n', hclosed, -⟩ := hmends.closed n hstate
      rw [hclosed] at hopen
      cases hopen
    | halfOpen =>
      rcases hmends.halfOpen hstate with h | h <;> rw [h] at hopen <;> cases hopen
    | opened since' => exact hnot ⟨since', hstate⟩

/-- And a Closed one with nothing against it stays that. -/
theorem closed_of_run (hrun : Run (Step (d.publicSystem files)) m ls c)
    (hno : ∀ i, .act i ⟨.recordFailure .geth, ()⟩ ∉ ls)
    (hm : m.shared.gethCircuit.state = .closed 0) : c.shared.gethCircuit.state = .closed 0 := by
  induction hrun with
  | nil => exact hm
  | @snoc c c' ls l _ hstep ih =>
    have hclosed := ih fun i hi => hno i (List.mem_append_left _ hi)
    have hmends := step_mends hstep fun i hl => hno i (by rw [hl]; simp)
    obtain ⟨n, hn, hle⟩ := hmends.closed 0 hclosed
    rw [hn, Nat.le_zero.mp hle]

/-- An Open one is Open since the same instant, or no longer. -/
theorem openSince_of_run (hrun : Run (Step (d.publicSystem files)) m ls c)
    (hno : ∀ i, .act i ⟨.recordFailure .geth, ()⟩ ∉ ls) {since : Nat}
    (hm : m.shared.gethCircuit.state = .opened since) :
    c.shared.gethCircuit.state = .opened since ∨ ¬ c.shared.gethCircuit.isOpen := by
  induction hrun with
  | nil => exact .inl hm
  | @snoc c c' ls l _ hstep ih =>
    have hlast : ∀ i, .act i ⟨.recordFailure .geth, ()⟩ ∉ [l] := fun i hi =>
      hno i (List.mem_append_right _ hi)
    rcases ih fun i hi => hno i (List.mem_append_left _ hi) with hopen | hnot
    · have hmends := step_mends hstep fun i hl => hlast i (by rw [hl]; simp)
      rcases hmends.opened since hopen with h | h
      · exact .inl h
      · refine .inr ?_
        rintro ⟨t, ht⟩
        rw [h] at ht
        cases ht
    · exact .inr (notOpen_of_run (.single hstep) hlast hnot)

/-- A breaker that lets a request through is not Open any more. -/
theorem notOpen_of_admitted {c' : (d.publicSystem files).Config} {i : Nat}
    (hstep : Step (d.publicSystem files) c (.act i ⟨.canProceed .geth, true⟩) c') :
    ¬ c'.shared.gethCircuit.isOpen := by
  have hexec : exec c.shared (.canProceed .geth) true c'.shared := hstep.exec
  obtain ⟨hanswer, hshared⟩ := exec_perform rfl hexec
  have hafter : c'.shared.gethCircuit = (c.shared.gethCircuit.canProceed c.shared.now).2 := by
    rw [← hshared]
    rfl
  have hok : (c.shared.gethCircuit.canProceed c.shared.now).1 = true := hanswer
  rw [hafter]
  rintro ⟨since, hopen⟩
  rcases CircuitBreaker.canProceed_cases c.shared.now c.shared.gethCircuit with
    ⟨n, hs, h⟩ | ⟨hs, h⟩ | ⟨s, -, -, h⟩ | ⟨s, -, -, h⟩ <;> rw [h] at hopen hok
  · rw [hs] at hopen
    cases hopen
  · rw [hs] at hopen
    cases hopen
  · cases hopen
  · cases hok

/-- A success closes a breaker that is not Open. -/
theorem closed_of_success {c' : (d.publicSystem files).Config} {i : Nat}
    (hstep : Step (d.publicSystem files) c (.act i ⟨.recordSuccess .geth, ()⟩) c')
    (hnot : ¬ c.shared.gethCircuit.isOpen) : c'.shared.gethCircuit.state = .closed 0 := by
  have hexec : exec c.shared (.recordSuccess .geth) () c'.shared := hstep.exec
  have hafter : c'.shared.gethCircuit = c.shared.gethCircuit.recordSuccess := by
    rw [← (exec_perform rfl hexec).2]
    rfl
  rw [hafter]
  exact (CircuitBreaker.recordSuccess_cases _).resolve_left fun h => hnot h.1

/-- What is left of an outage once Geth is well again. -/
structure Recovers (m : (d.publicSystem files).Config) (ls : List (d.publicSystem files).Label)
    (c : (d.publicSystem files).Config) : Prop where
  /-- the breaker does not open -/
  notOpened : ¬ m.shared.gethCircuit.isOpen → ¬ c.shared.gethCircuit.isOpen
  /-- it counts nothing -/
  clean : m.shared.gethCircuit.state = .closed 0 → c.shared.gethCircuit.state = .closed 0
  /-- whoever asks it now is let through, unless it was Open and its time is not over -/
  admits : (∀ since, m.shared.gethCircuit.state = .opened since →
      30 * nanosPerSec ≤ c.shared.now - since) →
    ∀ i ok c', Step (d.publicSystem files) c (.act i ⟨.canProceed .geth, ok⟩) c' → ok = true
  /-- a success that comes after one was let through closes it for good -/
  closes : ∀ ls₁ i ls₂ j ls₃, ls = ls₁ ++ .act i ⟨.canProceed .geth, true⟩ :: ls₂ ++
      .act j ⟨.recordSuccess .geth, ()⟩ :: ls₃ → c.shared.gethCircuit.state = .closed 0

/-- From any reachable state on, whatever happened before: as long as Geth answers
well, to the requests in flight too, its breaker recovers and is in nobody's way. -/
theorem geth_recovers (hpre : d.PublicRun files t pre m)
    (hrun : Run (Step (d.publicSystem files)) m ls c) (hwell : WellSince pre m ls) :
    Recovers m ls c := by
  have hno := no_failure_of_healthy hpre hrun hwell
  refine ⟨notOpen_of_run hrun hno, closed_of_run hrun hno, ?_, ?_⟩
  · intro htime i ok c' hstep
    have hexec : exec c.shared (.canProceed .geth) ok c'.shared := hstep.exec
    have hanswer : (c.shared.gethCircuit.canProceed c.shared.now).1 = ok :=
      (exec_perform rfl hexec).1
    have htimeout := gethCircuit_timeout (hpre.append hrun)
    rcases CircuitBreaker.canProceed_cases c.shared.now c.shared.gethCircuit with
      ⟨n, -, h⟩ | ⟨-, h⟩ | ⟨s, -, -, h⟩ | ⟨s, hs, hearly, h⟩ <;> rw [h] at hanswer
    · exact hanswer.symm
    · exact hanswer.symm
    · exact hanswer.symm
    · -- refused, so it has been Open all the time, and that is too long
      have hopen : m.shared.gethCircuit.isOpen := by
        by_contra hnot
        exact notOpen_of_run hrun hno hnot ⟨s, hs⟩
      obtain ⟨since, hsince⟩ := hopen
      rcases openSince_of_run hrun hno hsince with hstill | hnot
      · rw [hs] at hstill
        cases hstill
        have hover := htime s hsince
        rw [htimeout] at hearly
        omega
      · exact absurd ⟨s, hs⟩ hnot
  · rintro ls₁ i ls₂ j ls₃ rfl
    obtain ⟨c₁, c₂, hfirst, hsuccess, hlast⟩ := hrun.at_label
    obtain ⟨c₃, c₄, -, hadmit, hmid⟩ := hfirst.at_label
    have hnot₄ := notOpen_of_admitted hadmit
    have hnot₁ := notOpen_of_run hmid (fun i' hi' => hno i' (by simp [hi'])) hnot₄
    exact closed_of_run hlast (fun i' hi' => hno i' (by simp [hi']))
      (closed_of_success hsuccess hnot₁)

end Run

-- ---------------------------------------------------------------------------
-- An outage, and its end
-- ---------------------------------------------------------------------------

/-- The chain's id, asked for at an instant by a client without a name. -/
def queryAt (now : Nat) : PublicRequest := { chainIdQuery with arrived := now }

/-- The answer that Geth has for it, passed on. -/
def chainIdAnswer : HttpResponse := ⟨200, some ⟨"2.0", some (.string "0x1"), none, none⟩⟩

/-- Geth's port is closed. -/
def refusedExchange : List OpEvent :=
  [⟨.checkConnLimit "unknown", true⟩, ⟨.canProceed .geth, true⟩,
    ⟨.sendToGeth ⟨"2.0", "eth_chainId", none, some (.nat 1)⟩, ()⟩,
    ⟨.gethReply, .error "connection refused"⟩, ⟨.recordFailure .geth, ()⟩]

/-- The plain daemon at an instant of its first minute, when `asked` queries have come
and the breaker is in the given state. -/
structure Facing (s : Shared) (now asked : Nat) (state : CircuitState) : Prop where
  clock : s.now = now
  minute : now < 60 * nanosPerSec
  limit : s.rateLimiter.config = .default
  asked : s.rateLimiter.requests.lookup "unknown" = some (UInt32.ofNat asked, 0)
  circuit : s.gethCircuit = { CircuitBreaker.new with state := state }

/-- The limiter has room for one more. -/
theorem Facing.exec_conn {s : Shared} {now asked : Nat} {state : CircuitState}
    (h : Facing s now asked state) (hroom : asked < 100) :
    ∃ s', exec s (.checkConnLimit "unknown") true s' ∧ Facing s' now (asked + 1) state := by
  let l : RateLimiter := { s.rateLimiter with
    requests := s.rateLimiter.requests.insert "unknown" (UInt32.ofNat asked + 1, 0) }
  have hpass : s.rateLimiter.checkRateLimit s.now "unknown" = (true, l) := by
    have hin : s.now - 0 < s.rateLimiter.config.windowDuration := by
      rw [h.limit, h.clock]
      exact h.minute
    have hfree : ¬ s.rateLimiter.config.maxRequests ≤ UInt32.ofNat asked := by
      rw [h.limit, UInt32.not_le, UInt32.lt_iff_toNat_lt, UInt32.toNat_ofNat']
      exact lt_of_le_of_lt (Nat.mod_le _ _) hroom
    rw [RateLimiter.checkRateLimit, h.asked]
    dsimp only
    rw [if_pos hin, if_neg hfree]
  refine ⟨{ s with rateLimiter := l }, ?_, ⟨h.clock, h.minute, h.limit, ?_, h.circuit⟩⟩
  · simp only [exec, Shared.perform, hpass]
  · rw [UInt32.ofNat_add]
    exact AList.lookup_insert _

/-- While the breaker is Closed, a query that Geth does not take is one more failure. -/
theorem Facing.performs_refused {s : Shared} {now asked n : Nat}
    (h : Facing s now asked (.closed n)) (hroom : asked < 100) (files : StaticFiles) :
    ∃ s', Performs exec (plainDaemon.respond files (queryAt now)) s refusedExchange
        (.pure (ProxyError.upstreamError "upstream unavailable").intoResponse) s' ∧
      Facing s' now (asked + 1) (if 5 ≤ n + 1 then .opened now else .closed (n + 1)) := by
  obtain ⟨s₁, hconn, h₁⟩ := h.exec_conn hroom
  have hproceed : exec s₁ (.canProceed .geth) true s₁ :=
    exec_canProceed_closed (c := .geth) (n := n) (congrArg CircuitBreaker.state h₁.circuit)
  refine ⟨{ s₁ with gethCircuit := s₁.gethCircuit.recordFailure s₁.now }, ?_, ?_⟩
  · exact .cons hconn (.cons hproceed (.cons ⟨rfl, trivial⟩ (.cons ⟨rfl, trivial⟩
      (.cons rfl (.nil _ _)))))
  · refine ⟨h₁.clock, h₁.minute, h₁.limit, h₁.asked, ?_⟩
    show s₁.gethCircuit.recordFailure s₁.now = _
    rw [h₁.circuit, h₁.clock]
    by_cases hn : 5 ≤ n + 1
    · simp [CircuitBreaker.recordFailure, CircuitBreaker.new, CircuitBreaker.withConfig, hn]
    · simp [CircuitBreaker.recordFailure, CircuitBreaker.new, CircuitBreaker.withConfig, hn]

/-- An Open breaker whose 30 seconds are over lets a query through, and the success
closes it. -/
theorem Facing.performs_recovered {s : Shared} {now asked since : Nat}
    (h : Facing s now asked (.opened since)) (hroom : asked < 100)
    (hover : 30 * nanosPerSec ≤ now - since) (files : StaticFiles) :
    ∃ s', Performs exec (plainDaemon.respond files (queryAt now)) s chainIdExchange
      (.pure chainIdAnswer) s' := by
  obtain ⟨s₁, hconn, h₁⟩ := h.exec_conn hroom
  let s₂ : Shared := { s₁ with gethCircuit := { CircuitBreaker.new with state := .halfOpen } }
  have hproceed : exec s₁ (.canProceed .geth) true s₂ := by
    have hprobe : s₁.gethCircuit.canProceed s₁.now =
        (true, { CircuitBreaker.new with state := .halfOpen }) := by
      rw [h₁.circuit, h₁.clock]
      exact if_pos hover
    simp only [exec, Shared.perform, Shared.circuit, Shared.setCircuit, hprobe, s₂]
  exact ⟨_, .cons hconn (.cons hproceed (.cons ⟨rfl, trivial⟩ (.cons ⟨rfl, trivial⟩
    (.cons ⟨rfl, trivial⟩ (.cons rfl (.nil _ _))))))⟩

section Outage

variable (files : StaticFiles)

/-- A query that Geth has been sent; the answer changes nothing at an Open breaker. -/
def WithGeth (p : Handler HttpResponse) : Prop :=
  ∀ s since, s.gethCircuit.state = .opened since → Performs exec p s (chainIdExchange.drop 3)
    (.pure chainIdAnswer) s

/-- The first query is with Geth, and `n` more have been refused after it. -/
structure Outage (n : Nat) (ls : List (plainDaemon.publicSystem files).Label)
    (c : (plainDaemon.publicSystem files).Config) : Prop where
  run : plainDaemon.PublicRun files 0 ls c
  facing : Facing c.shared 0 (n + 1) (if 5 ≤ n then .opened 0 else .closed n)
  next : c.next = n + 1
  inFlight : ∃ p, c.threads = Function.update (fun _ => none) 0 (some ⟨chainIdQuery, p⟩) ∧
    WithGeth p
  sent : ∀ e, .act 0 e ∈ ls → healthy e = true

/-- Geth has been sent the first query. -/
theorem outage_zero : ∃ ls c, Outage files 0 ls c := by
  have hjob : (plainDaemon.publicSystem files).accepts (plainDaemon.initial 0) chainIdQuery := rfl
  have hsent : Performs exec (plainDaemon.respond files chainIdQuery) (plainDaemon.initial 0)
      (chainIdExchange.take 3) (.op .gethReply _) (plainDaemon.admitted 0 "unknown") :=
    .cons (plainDaemon.exec_first_conn 0 "unknown") (.cons rfl (.cons ⟨rfl, trivial⟩ (.nil _ _)))
  refine ⟨_, _, System.run_alone hjob hsent, ⟨rfl, by decide, rfl, ?_, rfl⟩, rfl,
    ⟨_, rfl, fun s since hopen => ?_⟩, fun e he => ?_⟩
  · exact AList.lookup_insert _
  · have hlate : s.gethCircuit.recordSuccess = s.gethCircuit := by
      rw [CircuitBreaker.recordSuccess, hopen]
    have hrecord : exec s (.recordSuccess .geth) () s := by
      simp only [exec, Shared.perform, Shared.circuit, Shared.setCircuit, hlate]
    exact .cons ⟨rfl, trivial⟩ (.cons ⟨rfl, trivial⟩ (.cons hrecord (.nil _ _)))
  · have hall : (chainIdExchange.take 3).all healthy = true := rfl
    rcases List.mem_cons.mp he with hspawn | he
    · cases hspawn
    · obtain ⟨e', he', heq⟩ := List.mem_map.mp he
      cases heq
      exact List.all_eq_true.mp hall e he'

/-- In an outage one more query comes, finds the connection to Geth refused, and is one more
failure for the breaker. -/
theorem outage_succ {n : Nat} (hn : n < 5) {ls : List (plainDaemon.publicSystem files).Label}
    {c : (plainDaemon.publicSystem files).Config} (h : Outage files n ls c) :
    ∃ ls' c', Outage files (n + 1) ls' c' := by
  have hfacing := h.facing
  rw [if_neg (by omega)] at hfacing
  obtain ⟨s', hperf, hfacing'⟩ := hfacing.performs_refused (by omega) files
  obtain ⟨c', hrun, rfl, hnext, hthreads⟩ := h.run.served hfacing.clock.symm hperf
  obtain ⟨p, hp, hwith⟩ := h.inFlight
  have hother : c.next ≠ 0 := by
    rw [h.next]
    exact Nat.succ_ne_zero n
  refine ⟨_, c', hrun, hfacing', by rw [hnext, h.next], ⟨p, ?_, hwith⟩, fun e he => ?_⟩
  · rw [hthreads, hp, Function.update_comm hother.symm, Function.update_eq_self_iff.mpr rfl]
  · rcases List.mem_append.mp he with he | he
    · exact h.sent e he
    · simp [hother] at he

/-- After five failures the breaker is Open, with the first query still on its way. -/
theorem outage_five : ∃ ls c, Outage files 5 ls c := by
  have hall : ∀ n, n ≤ 5 → ∃ ls c, Outage files n ls c := by
    intro n
    induction n with
    | zero => exact fun _ => outage_zero files
    | succ n ih =>
      intro hn
      obtain ⟨ls, c, h⟩ := ih (by omega)
      exact outage_succ files (by omega) h
  exact hall 5 (Nat.le_refl 5)

/-- How it ends: the first query is answered, time passes, and the next one is served. -/
def recoveryLabels : List (plainDaemon.publicSystem files).Label :=
  (chainIdExchange.drop 3).map (.act 0) ++ [.env] ++
    (.spawn 6 (queryAt (30 * nanosPerSec)) :: chainIdExchange.map (.act 6) ++
      [.done 6 chainIdAnswer])

/-- All that Geth answers in it is well. -/
theorem healthy_recovery {i : Nat} {e : OpEvent} (h : .act i e ∈ recoveryLabels files) :
    healthy e = true := by
  have hall : chainIdExchange.all healthy = true := rfl
  refine List.all_eq_true.mp hall e ?_
  have hacts : ∀ {j : Nat} {tr : List OpEvent},
      (Label.act (S := plainDaemon.publicSystem files) i e) ∈ tr.map (.act j) → e ∈ tr := by
    intro j tr hmem
    obtain ⟨e', he', heq⟩ := List.mem_map.mp hmem
    cases heq
    exact he'
  rcases List.mem_append.mp h with h | h
  · rcases List.mem_append.mp h with h | h
    · exact List.mem_of_mem_drop (hacts h)
    · cases List.mem_singleton.mp h
  · rcases List.mem_append.mp h with h | h
    · exact hacts ((List.mem_cons.mp h).resolve_left nofun)
    · cases List.mem_singleton.mp h

end Outage

/-- Five connections are refused while a query is with Geth. Half a minute later Geth
answers that one, the next one is let through, and the breaker is Closed again. -/
theorem geth_recovers_exchange : ∃ pre m ls c,
    plainDaemon.PublicRun (fun _ _ => 404) 0 pre m ∧
    m.shared.gethCircuit.state = .opened 0 ∧ (m.threads 0).isSome = true ∧
    Run (Step (plainDaemon.publicSystem fun _ _ => 404)) m ls c ∧
    .act 0 ⟨.recordSuccess .geth, ()⟩ ∈ ls ∧ .spawn 6 (queryAt (30 * nanosPerSec)) ∈ ls ∧
    .act 6 ⟨.canProceed .geth, true⟩ ∈ ls ∧ Recovers m ls c ∧
    c.shared.gethCircuit.state = .closed 0 := by
  let files : StaticFiles := fun _ _ => 404
  obtain ⟨pre, m₀, h⟩ := outage_five files
  obtain ⟨p, hthreads, hwith⟩ := h.inFlight
  -- 29 seconds later the breaker is still Open, and Geth is well from now on
  let m : (plainDaemon.publicSystem files).Config :=
    ⟨{ m₀.shared with now := 29 * nanosPerSec }, m₀.threads, m₀.next⟩
  have hm : plainDaemon.PublicRun files 0 (pre ++ [.env]) m :=
    h.run.snoc (.env _ _ (.inl ⟨_, by rw [h.facing.clock]; exact Nat.zero_le _, rfl⟩))
  have hopen : m.shared.gethCircuit.state = .opened 0 :=
    congrArg CircuitBreaker.state h.facing.circuit
  have hthread : m.threads 0 = some ⟨chainIdQuery, p⟩ := by
    show m₀.threads 0 = _
    rw [hthreads, Function.update_self]
  -- the first query is answered, which changes nothing
  have hlate := System.run_performs (S := plainDaemon.publicSystem files)
    (hwith m.shared 0 hopen) hthread
  -- a second later another one comes
  let m₁ : (plainDaemon.publicSystem files).Config :=
    ⟨{ m.shared with now := 30 * nanosPerSec }, Function.update m.threads 0
      (some ⟨chainIdQuery, .pure chainIdAnswer⟩), m.next⟩
  have htime : Step (plainDaemon.publicSystem files) ⟨m.shared, _, m.next⟩ .env m₁ :=
    .env _ _ (.inl ⟨_, Nat.mul_le_mul_right _ (by decide), rfl⟩)
  have hfacing : Facing m₁.shared (30 * nanosPerSec) 6 (.opened 0) :=
    ⟨rfl, by decide, h.facing.limit, h.facing.asked, h.facing.circuit⟩
  obtain ⟨s', hperf⟩ := hfacing.performs_recovered (by decide) (Nat.le_refl _) files
  have hjob : (plainDaemon.publicSystem files).accepts m₁.shared (queryAt (30 * nanosPerSec)) :=
    rfl
  obtain ⟨c, hserved, -⟩ := System.run_served (S := plainDaemon.publicSystem files) hjob hperf
  have hnext : m₁.next = 6 := h.next
  rw [hnext] at hserved
  have hrun : Run (Step (plainDaemon.publicSystem files)) m (recoveryLabels files) c :=
    (hlate.snoc htime).append hserved
  have hwell : WellSince (pre ++ [.env]) m (recoveryLabels files) := by
    refine ⟨fun i e he => healthy_recovery files he, fun i th hth e he => ?_⟩
    -- only the first query is in flight
    have hi : i = 0 := by
      by_contra hi
      rw [show m.threads i = m₀.threads i from rfl, hthreads, Function.update_of_ne hi] at hth
      cases hth
    subst hi
    have hact := mem_eventsOf.mp he
    exact h.sent e ((List.mem_append.mp hact).resolve_right (by simp))
  have hrecovers := geth_recovers hm hrun hwell
  have hclosed : c.shared.gethCircuit.state = .closed 0 :=
    hrecovers.closes ((chainIdExchange.drop 3).map (.act 0) ++ [.env] ++
      [.spawn 6 (queryAt (30 * nanosPerSec)), .act 6 ⟨.checkConnLimit "unknown", true⟩]) 6
      (((chainIdExchange.drop 2).take 3).map (.act 6)) 6 [.done 6 chainIdAnswer] rfl
  exact ⟨_, m, _, c, hm, hopen, by rw [hthread]; rfl, hrun, by simp [recoveryLabels,
    chainIdExchange], by simp [recoveryLabels], by simp [recoveryLabels, chainIdExchange],
    hrecovers, hclosed⟩

end Torpc
