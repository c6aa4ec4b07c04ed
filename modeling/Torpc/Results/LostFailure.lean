import Mathlib.Data.List.Perm.Subperm
import Torpc.Model.App

/-!
# Failures the breaker never hears of

`proxy_to_geth` records a failure after the await at which Geth let it down. The
timeout middleware drops the handler's future at that very await, and with it
the recording: the default timeout equals the HTTP client's and starts earlier,
so on a hanging Geth it is the middleware that wins. The breaker hears of every
call that ends without a response exactly when no request is cut off in the
middle of its exchange with Geth (`failures_recorded_iff`).

What a request has done is followed by a monitor (`GethCall`), which knows where
its exchange stands and what it has recorded. `serve_consistent` is what every
handler keeps; the rest is about runs.
-/

namespace Torpc

open Effects Prog System

-- ---------------------------------------------------------------------------
-- Following one exchange
-- ---------------------------------------------------------------------------

inductive GethPhase where
  | notAsked
  /-- past `can_proceed`, `proxy_to_geth` has not returned -/
  | inExchange
  | over
  deriving DecidableEq, Repr

/-- What a request's events say about its exchange with Geth. -/
structure GethCall where
  phase : GethPhase
  /-- the HTTP client gave up: no connection, its own timeout, a body cut short -/
  noReply : Bool
  status : Option Nat
  /-- the calls of `record_failure` on `geth_circuit` -/
  failures : Nat
  deriving DecidableEq, Repr

namespace GethCall

def start : GethCall := ⟨.notAsked, false, none, 0⟩

def observe (g : GethCall) : OpEvent → GethCall
  | ⟨.canProceed .geth, ok⟩ => { g with phase := if ok = true then .inExchange else .over }
  | ⟨.gethReply, reply⟩ =>
    match (reply : Except String Nat) with
    | .ok status => { g with status := some status }
    | .error _ => { g with noReply := true }
  | ⟨.gethJson, body⟩ =>
    match (body : Except String Value) with
    | .ok _ => g
    | .error _ => { g with noReply := true }
  -- an error status other than 5xx is not recorded
  | ⟨.gethText, _⟩ =>
    if g.status.any isServerError then g else { g with phase := .over }
  | ⟨.recordFailure .geth, _⟩ => { g with phase := .over, failures := g.failures + 1 }
  | ⟨.recordSuccess .geth, _⟩ => { g with phase := .over }
  | _ => g

/-- The exchange after a request's events. -/
def after (tr : List OpEvent) : GethCall := tr.foldl observe start

/-- In the exchange nothing is recorded yet, and past it a missing reply is
recorded once. -/
def Consistent (g : GethCall) : Prop :=
  (g.phase = .inExchange → g.failures = 0) ∧
  (g.phase ≠ .inExchange → g.noReply = true → g.failures = 1)

/-- Before anything has happened there is nothing to record. -/
theorem start_consistent : start.Consistent :=
  ⟨fun h => absurd h (by decide), fun _ h => absurd h (by decide)⟩

end GethCall

/-- An operation that is no part of an exchange with Geth. -/
def Op.Aside (o : Op) : Prop := ∀ g r, GethCall.observe g ⟨o, r⟩ = g

/-- What is done with the relay says nothing of Geth. -/
theorem aside_of_relayOp {o : Op} (h : o.isRelayOp = true) : o.Aside := by
  intro g r
  cases o with
  | canProceed c => cases c <;> first | rfl | exact absurd h (by decide)
  | recordSuccess c => cases c <;> first | rfl | exact absurd h (by decide)
  | recordFailure c => cases c <;> first | rfl | exact absurd h (by decide)
  | _ => first | rfl | exact absurd h (by simp [Op.isRelayOp])

section Keeps

variable {α β : Type} {g : GethCall}

/-- The program keeps the exchange consistent and does not end in the middle of it. -/
def KeepsConsistent (p : Handler α) (g : GethCall) : Prop :=
  p.Sat GethCall.observe (fun g _ => g.Consistent)
    (fun _ g => g.Consistent ∧ g.phase ≠ .inExchange) g

/-- A program that leaves the exchange alone. -/
theorem sat_aside {p : Handler α} (hp : p.Ops Op.Aside) (hg : g.Consistent) :
    p.Sat GethCall.observe (fun g _ => g.Consistent) (fun _ g' => g' = g) g :=
  sat_frame hp (fun _ ho r => ho g r) fun _ _ => hg

/-- A program that has nothing to do with Geth keeps the account of an exchange consistent,
unless one is going on. -/
theorem keeps_aside {p : Handler α} (hp : p.Ops Op.Aside) (hg : g.Consistent)
    (hphase : g.phase ≠ .inExchange) : KeepsConsistent p g := by
  refine (sat_aside hp hg).mono (fun _ _ h => h) ?_
  rintro _ _ rfl
  exact ⟨hg, hphase⟩

theorem consistent_inExchange (noReply : Bool) (status : Option Nat) :
    GethCall.Consistent ⟨.inExchange, noReply, status, 0⟩ :=
  ⟨fun _ => rfl, fun h => absurd rfl h⟩

theorem over_ne : GethPhase.over ≠ .inExchange := by decide

/-- With a reply, what is recorded does not matter here. -/
theorem over_replied (status : Option Nat) (failures : Nat) :
    GethCall.Consistent ⟨.over, false, status, failures⟩ ∧ GethPhase.over ≠ .inExchange :=
  ⟨⟨fun h => absurd h over_ne, fun _ h => absurd h Bool.false_ne_true⟩, over_ne⟩

/-- Without one, the failure has been recorded. -/
theorem over_unanswered (status : Option Nat) :
    GethCall.Consistent ⟨.over, true, status, 1⟩ ∧ GethPhase.over ≠ .inExchange :=
  ⟨⟨fun h => absurd h over_ne, fun _ _ => rfl⟩, over_ne⟩

/-- The last record of an exchange that got a reply. -/
theorem keeps_readGethResponse (x : Externals) (status : Option Nat) :
    KeepsConsistent (readGethResponse x) ⟨.inExchange, false, status, 0⟩ := by
  unfold KeepsConsistent readGethResponse
  simp only [perform_bind, sat_op]
  have hin := consistent_inExchange false status
  refine ⟨hin, fun body => ?_⟩
  cases body with
  | error e => exact ⟨consistent_inExchange _ _, fun _ => over_unanswered _⟩
  | ok v =>
    simp only []
    cases JsonRpcResponse.ofValue v with
    | none => exact ⟨hin, fun _ => over_replied _ _⟩
    | some response => exact ⟨hin, fun _ => over_replied _ _⟩

/-- Once the request is sent, waiting for Geth records the failure of whatever has failed:
by the exits of the source, one by one. -/
theorem keeps_awaitGeth (x : Externals) :
    KeepsConsistent (awaitGeth x) ⟨.inExchange, false, none, 0⟩ := by
  unfold KeepsConsistent awaitGeth
  simp only [perform_bind, sat_op]
  refine ⟨consistent_inExchange _ _, fun reply => ?_⟩
  cases reply with
  | error e =>
    exact ⟨consistent_inExchange _ _, fun _ => over_unanswered _⟩
  | ok status =>
    simp only []
    by_cases hs : isSuccess status = true
    · rw [if_pos hs]
      exact keeps_readGethResponse x (some status)
    · rw [if_neg hs]
      refine ⟨consistent_inExchange _ _, fun text => ?_⟩
      -- program and monitor branch on the same test of the status
      show Prog.Sat _ _ _ (if isServerError status = true then _ else _)
        (if isServerError status = true then (⟨.inExchange, false, some status, 0⟩ : GethCall)
          else ⟨.over, false, some status, 0⟩)
      by_cases h5 : isServerError status = true
      · rw [if_pos h5, if_pos h5]
        exact ⟨consistent_inExchange _ _, fun _ => over_replied _ _⟩
      · rw [if_neg h5, if_neg h5]
        exact over_replied _ _

/-- The exchange with Geth keeps the account from its start to each of its ends. -/
theorem keeps_proxyToGeth (x : Externals) (request : JsonRpcRequest) :
    KeepsConsistent (proxyToGeth x request) .start := by
  refine ⟨GethCall.start_consistent, fun ok => ?_⟩
  cases ok
  · exact over_replied _ _
  · exact ⟨consistent_inExchange _ _, fun _ => keeps_awaitGeth x⟩

/-- An exchange followed by a program that leaves it alone. -/
theorem keeps_andThen {ε : Type} {p : Handler (Except ε α)} {f : α → Handler (Except ε β)}
    (hp : KeepsConsistent p g) (hf : ∀ a, (f a).Ops Op.Aside) :
    KeepsConsistent (p.andThen f) g :=
  Sat.andThen hp (fun a _ hg => keeps_aside (hf a) hg.1 hg.2) fun _ _ hg => hg

/-- An exchange after a program that leaves it alone. -/
theorem keeps_after {ε : Type} {p : Handler (Except ε α)} {f : α → Handler (Except ε β)}
    (hp : p.Ops Op.Aside) (hf : ∀ a, KeepsConsistent (f a) .start) :
    KeepsConsistent (p.andThen f) .start := by
  refine Sat.andThen (sat_aside hp GethCall.start_consistent) ?_ ?_
  · rintro a _ rfl
    exact hf a
  · rintro e _ rfl
    exact ⟨GethCall.start_consistent, by decide⟩

theorem keeps_start (a : α) : KeepsConsistent (.pure a : Handler α) .start :=
  ⟨GethCall.start_consistent, by decide⟩

end Keeps

/-- The write limiter has nothing to do with Geth. -/
theorem aside_checkWrite (method : String) :
    (checkWriteMethodRateLimit method).Ops Op.Aside :=
  ops_checkWriteMethodRateLimit (fun _ _ => rfl) (fun _ _ => rfl)

/-- Behind the gates the account is kept as without them. -/
theorem keeps_gated {request : JsonRpcRequest} {f : Handler (ProxyResult JsonRpcResponse)}
    (hf : KeepsConsistent f .start) : KeepsConsistent (gated request f) .start := by
  unfold gated
  split
  · exact keeps_start _
  · split
    · exact keeps_aside ⟨fun _ _ => rfl, fun _ => ⟨fun _ _ => rfl, fun _ => trivial⟩⟩
        GethCall.start_consistent (by decide)
    · exact keeps_after (aside_checkWrite _) fun _ => hf

/-- The handler without a key keeps the account, whether it forwards the request or answers
it itself. -/
theorem keeps_proxyToFlashbots (x : Externals) (request : JsonRpcRequest) :
    KeepsConsistent (proxyToFlashbots x request) .start := by
  unfold proxyToFlashbots
  split
  · exact keeps_start _
  · exact keeps_proxyToGeth x request

/-- So does everything that the relay's client does with a request. -/
theorem keeps_dispatch (client : MevRelayClient) (x : Externals) (request : JsonRpcRequest) :
    KeepsConsistent (client.dispatch x request) .start := by
  unfold MevRelayClient.dispatch
  split
  · refine keeps_andThen (keeps_proxyToGeth x blockNumberRequest) fun blockResp => ?_
    cases currentBlockOf blockResp with
    | error e => trivial
    | ok currentBlock =>
      exact ((client.ops_handleSendRawTransaction x request currentBlock).mono
        fun _ => aside_of_relayOp).andThen fun _ => trivial
  · split
    · refine keeps_aside ?_ GethCall.start_consistent (by decide)
      exact ((client.ops_handleSendBundle x request).mono
        fun _ => aside_of_relayOp).andThen fun _ => trivial
    · exact keeps_proxyToGeth x request

/-- Every request of the public router keeps its exchange consistent. -/
theorem serve_keeps (d : Daemon) (a : Arrival) : KeepsConsistent (d.serve a) .start := by
  refine ⟨GethCall.start_consistent, fun ok => ?_⟩
  cases ok
  · exact keeps_start _
  have hhandler : KeepsConsistent (d.handler a.route a.request) .start := by
    have hrpc : KeepsConsistent (handleRpc d.externals a.request) .start :=
      keeps_gated (keeps_proxyToGeth _ _)
    have hmev : KeepsConsistent (handleFlashbotsWithMev d.externals d.mevClient a.request)
        .start := by
      refine keeps_after (aside_checkWrite _) fun _ => ?_
      cases d.mevClient with
      | some client => exact keeps_dispatch client _ _
      | none =>
        -- handed over to the standard handler
        refine keeps_gated ?_
        split
        · exact keeps_proxyToFlashbots _ _
        · exact keeps_proxyToGeth _ _
    rcases d.handler_cases a.route with ⟨-, hhandler⟩ | ⟨-, hhandler⟩
    · rw [hhandler]
      exact hrpc
    · rw [hhandler]
      exact hmev
  show KeepsConsistent (d.handler a.route a.request >>= fun result =>
    (.pure (intoResponse result) : Handler HttpResponse)) .start
  exact Sat.bind hhandler fun _ _ hg => hg

/-- Where a request stands, after any of its traces. -/
theorem serve_consistent {d : Daemon} {a : Arrival} {tr : List OpEvent} {q : Handler HttpResponse}
    (h : Trace (d.serve a) tr q) : (GethCall.after tr).Consistent ∧
      ∀ r, q = .pure r → (GethCall.after tr).phase ≠ .inExchange := by
  have hsat := (serve_keeps d a).rest h
  cases q with
  | pure r => exact ⟨hsat.1, fun _ _ => hsat.2⟩
  | op o k => exact ⟨hsat.1, fun r hr => by cases hr⟩

-- ---------------------------------------------------------------------------
-- Calls in a run
-- ---------------------------------------------------------------------------

section Runs

variable {d : Daemon}

/-- Request `i` is in the middle of its exchange with Geth. -/
def InExchange (i : Nat) (ls : List d.system.Label) : Prop :=
  (GethCall.after (eventsOf i ls)).phase = .inExchange

/-- No request is cut off in the middle of its exchange with Geth. -/
def NoCutOffInExchange (ls : List d.system.Label) : Prop :=
  ∀ pre i post, ls = pre ++ .cancel i :: post → ¬ InExchange i pre

/-- A call of `proxy_to_geth` that passed `can_proceed` and ended without a
response: the HTTP client gave up, or the request was cut off. -/
def EndedUnanswered (ls : List d.system.Label) (i : Nat) : Prop :=
  (∃ response, .done i response ∈ ls ∧ (GethCall.after (eventsOf i ls)).noReply = true) ∨
    ∃ pre post, ls = pre ++ .cancel i :: post ∧ InExchange i pre

/-- Each such call has recorded exactly one failure. -/
def FailuresRecorded (ls : List d.system.Label) : Prop :=
  ∀ i, EndedUnanswered ls i → (GethCall.after (eventsOf i ls)).failures = 1

/-- After the history `pre`, this step is the end of such a call. -/
def EndsUnanswered (pre : List d.system.Label) (l : d.system.Label) (i : Nat) : Prop :=
  (l = .act i ⟨.recordFailure .geth, ()⟩ ∧ (GethCall.after (eventsOf i pre)).noReply = true) ∨
    (l = .cancel i ∧ InExchange i pre)

/-- `failure_threshold` such calls, with no success in between, leave the
breaker Open when the last of them ends. -/
def OpensAfterThreshold (t : Nat) (ls : List d.system.Label) : Prop :=
  ∀ pre seg l post c (calls : List Nat) i, ls = pre ++ (seg ++ [l]) ++ post →
    d.RunFrom t (pre ++ (seg ++ [l])) c →
    (∀ j, .act j ⟨.recordSuccess .geth, ()⟩ ∉ seg ++ [l]) →
    calls.Nodup → CircuitBreaker.new.failureThreshold ≤ calls.length →
    (∀ j ∈ calls, ∃ a m b, seg ++ [l] = a ++ m :: b ∧ EndsUnanswered (pre ++ a) m j) →
    EndsUnanswered (pre ++ seg) l i → c.shared.gethCircuit.isOpen

/-- The requests that record a failure of Geth, one for each record. -/
def failed (ls : List d.system.Label) : List Nat :=
  ls.filterMap fun l => match l with
    | .act i ⟨.recordFailure .geth, _⟩ => some i
    | _ => none

/-- The failures of a run are those of its first part and those of its second. -/
theorem failed_append (ls ls' : List d.system.Label) :
    failed (ls ++ ls') = failed ls ++ failed ls' :=
  List.filterMap_append

/-- Whoever records a failure is among those who have. -/
theorem mem_failed {i : Nat} {ls : List d.system.Label}
    (h : .act i ⟨.recordFailure .geth, ()⟩ ∈ ls) : i ∈ failed ls :=
  List.mem_filterMap.mpr ⟨_, h, rfl⟩

/-- Three operations call Geth's breaker. -/
theorem breakerCall_geth {o : Op} {call : BreakerCall} (h : o.breakerCall .geth = some call) :
    (o = .canProceed .geth ∧ call = .canProceed) ∨
    (o = .recordSuccess .geth ∧ call = .recordSuccess) ∨
    (o = .recordFailure .geth ∧ call = .recordFailure) := by
  cases o with
  | canProceed c =>
    cases c <;> cases h
    exact .inl ⟨rfl, rfl⟩
  | recordSuccess c =>
    cases c <;> cases h
    exact .inr (.inl ⟨rfl, rfl⟩)
  | recordFailure c =>
    cases c <;> cases h
    exact .inr (.inr ⟨rfl, rfl⟩)
  | _ => cases h

/-- What a step does to Geth's breaker. -/
theorem step_gethCircuit {c c' : d.system.Config} {l : d.system.Label}
    (h : System.Step d.system c l c') :
    (∃ i e call, l = .act i e ∧ e.op.breakerCall .geth = some call ∧
      c'.shared.gethCircuit = c.shared.gethCircuit.step (c.shared.now, call)) ∨
    (failed [l] = [] ∧ c'.shared.gethCircuit = c.shared.gethCircuit) := by
  cases h with
  | act i job o k r s' hi hex =>
    have hcircuit := exec_circuit hex .geth
    cases hcall : o.breakerCall .geth with
    | some call =>
      rw [hcall] at hcircuit
      exact .inl ⟨i, ⟨o, r⟩, call, rfl, hcall, hcircuit⟩
    | none =>
      rw [hcall] at hcircuit
      refine .inr ⟨?_, hcircuit⟩
      -- a record of a failure would be a call of the breaker
      refine List.filterMap_eq_nil_iff.mpr fun m hm => ?_
      rw [List.mem_singleton] at hm
      subst hm
      split
      · next heq =>
        cases heq
        cases hcall
      · rfl
  | spawn job hacc => exact .inr ⟨rfl, rfl⟩
  | done i job a hi => exact .inr ⟨rfl, rfl⟩
  | cancel i job o k hi hc => exact .inr ⟨rfl, rfl⟩
  | env s' henv =>
    refine .inr ⟨rfl, ?_⟩
    rcases henv with ⟨now, -, rfl⟩ | ⟨l, -, rfl⟩ | ⟨peer, rfl⟩ <;> rfl

/-- A breaker that a stretch without successes leaves Closed has counted all
its failures. -/
theorem failed_le_of_closed {c₀ c : d.system.Config} {seg : List d.system.Label}
    (h : Lts.Run (System.Step d.system) c₀ seg c)
    (hsucc : ∀ j, .act j ⟨.recordSuccess .geth, ()⟩ ∉ seg) :
    ∀ n, c.shared.gethCircuit.state = .closed n → (failed seg).length ≤ n := by
  induction h with
  | nil => exact fun n _ => Nat.zero_le n
  | @snoc c₁ c₂ seg l hrun hstep ih =>
    intro n hn
    have ih := ih fun j hj => hsucc j (List.mem_append_left _ hj)
    rw [failed_append, List.length_append]
    rcases step_gethCircuit hstep with ⟨i, ⟨o, r⟩, call, rfl, hcall, hcb⟩ | ⟨hnil, hcb⟩
    · rw [hcb] at hn
      rcases breakerCall_geth hcall with ⟨rfl, rfl⟩ | ⟨rfl, rfl⟩ | ⟨rfl, rfl⟩
      · -- asking leaves a Closed breaker as it is, and closes none
        simp only [CircuitBreaker.step] at hn
        rcases CircuitBreaker.canProceed_cases c₁.shared.now c₁.shared.gethCircuit with
          ⟨m, hs, hc⟩ | ⟨hs, hc⟩ | ⟨t, hs, -, hc⟩ | ⟨t, hs, -, hc⟩
        · rw [hc] at hn
          exact ih n hn
        · rw [hc, hs] at hn
          cases hn
        · rw [hc] at hn
          cases hn
        · rw [hc, hs] at hn
          cases hn
      · exact absurd (List.mem_append_right _ (List.mem_singleton_self _)) (hsucc i)
      · -- a failure is counted, or opens the breaker
        simp only [CircuitBreaker.step] at hn
        rcases CircuitBreaker.recordFailure_cases c₁.shared.now c₁.shared.gethCircuit with
          ⟨t, ht⟩ | ⟨m, hs, -, hc⟩
        · rw [ht] at hn
          cases hn
        · rw [hc] at hn
          cases hn
          exact Nat.succ_le_succ (ih m hs)
    · rw [hcb] at hn
      rw [hnil, List.length_nil]
      exact ih n hn

/-- The breaker keeps the threshold that it was made with. -/
theorem failureThreshold_of_run {t : Nat} {c : d.system.Config} {ls : List d.system.Label}
    (h : d.RunFrom t ls c) :
    c.shared.gethCircuit.failureThreshold = CircuitBreaker.new.failureThreshold := by
  refine h.invariant (I := fun c => c.shared.gethCircuit.failureThreshold =
    CircuitBreaker.new.failureThreshold) rfl ?_
  intro c l c' hc hstep
  rcases step_gethCircuit hstep with ⟨i, e, call, -, -, hcb⟩ | ⟨-, hcb⟩
  · rw [hcb, CircuitBreaker.step_failureThreshold, hc]
  · rw [hcb, hc]

/-- With the threshold reached and no success in between, the last failure
leaves the breaker Open. -/
theorem open_of_failed {t i : Nat} {pre seg : List d.system.Label} {c : d.system.Config}
    (h : d.RunFrom t (pre ++ (seg ++ [.act i ⟨.recordFailure .geth, ()⟩])) c)
    (hsucc : ∀ j, .act j ⟨.recordSuccess .geth, ()⟩ ∉ seg)
    (hlen : CircuitBreaker.new.failureThreshold ≤ (failed seg).length + 1) :
    c.shared.gethCircuit.isOpen := by
  obtain ⟨c₀, hpre, hseg⟩ := h.split
  obtain ⟨c₁, hrun, hstep⟩ := Lts.run_snoc hseg
  have hthreshold := failureThreshold_of_run (hpre.append hrun)
  rcases step_gethCircuit hstep with ⟨j, e, call, hl, hcall, hcb⟩ | ⟨hnil, -⟩
  · cases hl
    cases hcall
    rw [hcb]
    rcases CircuitBreaker.recordFailure_cases c₁.shared.now c₁.shared.gethCircuit with
      hopen | ⟨n, hs, hn, -⟩
    · exact hopen
    · have hle := failed_le_of_closed hrun hsucc n hs
      omega
  · cases hnil

/-- Where no call is cut off, all that end unanswered are on record. -/
theorem opens_of_noCutOff {t : Nat} {ls : List d.system.Label} (h : NoCutOffInExchange ls) :
    OpensAfterThreshold t ls := by
  intro pre seg l post c calls i hls hrun hsucc hnodup hlen hcalls hlast
  -- with no cut-off, every such call ends in a record
  have hrecord : ∀ a m b j, seg ++ [l] = a ++ m :: b → EndsUnanswered (pre ++ a) m j →
      m = .act j ⟨.recordFailure .geth, ()⟩ := by
    intro a m b j hsplit hend
    rcases hend with ⟨hm, -⟩ | ⟨rfl, hin⟩
    · exact hm
    · have hcut : ls = (pre ++ a) ++ .cancel j :: (b ++ post) := by
        rw [hls, hsplit]
        simp
      exact absurd hin (h _ _ _ hcut)
  obtain rfl := hrecord seg l [] i rfl hlast
  have hsub : calls ⊆ failed (seg ++ [.act i ⟨.recordFailure .geth, ()⟩]) := by
    intro j hj
    obtain ⟨a, m, b, hsplit, hend⟩ := hcalls j hj
    obtain rfl := hrecord a m b j hsplit hend
    refine mem_failed ?_
    rw [hsplit]
    exact List.mem_append_right _ List.mem_cons_self
  -- distinct calls have distinct records, so there are as many records as calls
  have hle := (hnodup.subperm hsub).length_le
  rw [failed_append, List.length_append] at hle
  exact open_of_failed hrun (fun j hj => hsucc j (List.mem_append_left _ hj)) (hlen.trans hle)

/-- A call that returned has recorded what it had to. -/
theorem failures_of_done {t i : Nat} {ls : List d.system.Label} {c : d.system.Config}
    (h : d.RunFrom t ls c) {response : HttpResponse} (hdone : .done i response ∈ ls)
    (hreply : (GethCall.after (eventsOf i ls)).noReply = true) :
    (GethCall.after (eventsOf i ls)).failures = 1 := by
  obtain ⟨pre, post, rfl⟩ := List.append_of_mem hdone
  obtain ⟨a, -, htrace⟩ := run_done h
  obtain ⟨hcons, hphase⟩ := serve_consistent htrace
  rw [events_done h] at hreply ⊢
  exact hcons.2 (hphase response rfl) hreply

/-- A call that was cut off has recorded nothing. -/
theorem failures_of_cutOff {t i : Nat} {pre post : List d.system.Label} {c : d.system.Config}
    (h : d.RunFrom t (pre ++ .cancel i :: post) c) (hin : InExchange i pre) :
    (GethCall.after (eventsOf i (pre ++ .cancel i :: post))).failures = 0 := by
  obtain ⟨a, o, k, m, -, htrace, -⟩ := run_cancel h
  rw [events_cancel h]
  exact (serve_consistent htrace).1.1 hin

/-- **Failures of Geth.** Every failed exchange is recorded, and the breaker opens after the
threshold of them, just if no request is dropped while its exchange goes on. -/
theorem failures_recorded_iff {t : Nat} {ls : List d.system.Label} {c : d.system.Config}
    (h : d.RunFrom t ls c) :
    FailuresRecorded ls ∧ OpensAfterThreshold t ls ↔ NoCutOffInExchange ls := by
  constructor
  · rintro ⟨hrecorded, -⟩ pre i post rfl hin
    have hone := hrecorded i (.inr ⟨pre, post, rfl, hin⟩)
    have hzero := failures_of_cutOff h hin
    omega
  · intro hno
    refine ⟨fun i hend => ?_, opens_of_noCutOff hno⟩
    rcases hend with ⟨response, hdone, hreply⟩ | ⟨pre, post, hls, hin⟩
    · exact failures_of_done h hdone hreply
    · exact absurd hin (hno pre i post hls)

end Runs

/-- A request for the chain id. -/
def chainIdArrival : Arrival := ⟨.rpc, ⟨"2.0", "eth_chainId", none, some (.nat 1)⟩, none, 0⟩

/-- It is admitted and sent to Geth. -/
def chainIdEvents : List OpEvent :=
  [⟨.checkConnLimit "unknown", true⟩, ⟨.canProceed .geth, true⟩,
    ⟨.sendToGeth chainIdArrival.request, ()⟩]

/-- Geth cannot be reached: the failure is recorded. -/
theorem failures_recorded_refused : ∃ (ls : List plainDaemon.system.Label)
    (c : plainDaemon.system.Config), plainDaemon.RunFrom 0 ls c ∧ EndedUnanswered ls 0 ∧
      FailuresRecorded ls ∧ OpensAfterThreshold 0 ls := by
  have hjob : plainDaemon.system.accepts (plainDaemon.initial 0) chainIdArrival := rfl
  have hserve : Performs exec (plainDaemon.serve chainIdArrival) (plainDaemon.initial 0)
      (chainIdEvents ++ [⟨.gethReply, .error "connection refused"⟩, ⟨.recordFailure .geth, ()⟩])
      (.pure (intoResponse (.error (.upstreamError "upstream unavailable"))))
      { plainDaemon.admitted 0 "unknown" with
        gethCircuit := CircuitBreaker.new.recordFailure 0 } :=
    .cons (plainDaemon.exec_first_conn 0 "unknown")
      (.cons rfl (.cons ⟨rfl, trivial⟩ (.cons ⟨rfl, trivial⟩ (.cons rfl (.nil _ _)))))
  have hdone := (System.run_alone hjob hserve).snoc (.done _ 0 chainIdArrival _ rfl)
  refine ⟨_, _, hdone, .inl ⟨_, List.mem_append_right _ List.mem_cons_self, rfl⟩,
    (failures_recorded_iff hdone).mpr fun pre i post hls _ => ?_⟩
  have hmem : System.Label.cancel i ∈ pre ++ System.Label.cancel i :: post := by simp
  rw [← hls] at hmem
  simp at hmem

/-- An operator who lets nobody wait longer than five seconds. -/
def hastyDaemon : Daemon := { plainDaemon with requestTimeout := 5 * nanosPerSec }

/-- Geth hangs for the five seconds, which is less than its client would wait: the failure
is lost. -/
theorem failure_lost : ∃ (ls : List hastyDaemon.system.Label) (c : hastyDaemon.system.Config),
    hastyDaemon.RunFrom 0 ls c ∧ EndedUnanswered ls 0 ∧
      (GethCall.after (eventsOf 0 ls)).failures = 0 ∧ c.shared.gethCircuit = .new ∧
      ¬ FailuresRecorded ls := by
  have hjob : hastyDaemon.system.accepts (hastyDaemon.initial 0) chainIdArrival := rfl
  have hserve : Performs exec (hastyDaemon.serve chainIdArrival) (hastyDaemon.initial 0)
      chainIdEvents (.op .gethReply _) (hastyDaemon.admitted 0 "unknown") :=
    .cons (hastyDaemon.exec_first_conn 0 "unknown")
      (.cons rfl (.cons ⟨rfl, trivial⟩ (.nil _ _)))
  have hwait := (System.run_alone hjob hserve).snoc
    (.env _ _ (.inl ⟨5 * nanosPerSec, Nat.zero_le _, rfl⟩))
  have hcut := hwait.snoc (.cancel _ 0 chainIdArrival _ _ rfl ⟨rfl, Nat.le_refl _⟩)
  refine ⟨_, _, hcut, .inr ⟨_, [], rfl, rfl⟩, rfl, rfl, fun h => ?_⟩
  have hone : 0 = 1 := h 0 (.inr ⟨_, [], rfl, rfl⟩)
  cases hone

end Torpc
