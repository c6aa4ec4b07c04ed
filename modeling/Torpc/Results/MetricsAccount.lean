import Torpc.Model.PublicRouter

/-!
# What the metrics account for

A refusal by the write budget is counted where it is made, and so is a method
that is not on the allow-list by the two standard handlers. The middleware in
front of every route answers 429 and counts nothing, and the relay handler looks
at neither list nor metrics. With nothing in flight, the counters are right
exactly if neither has happened (`metrics_account_iff`).

What a request does to the counters is settled before its future can be dropped:
nothing waits between a refusal and its increment, or between the two increments
of a blocked method. So a request that is gone has one of five courses
(`Account`), and each counter is a number of requests (`rateLimitHits_eq`,
`read_eq_blocked`).
-/

namespace Torpc

open Effects Prog System Lts

-- ---------------------------------------------------------------------------
-- What is counted
-- ---------------------------------------------------------------------------

section Counted

variable {d : Daemon} {files : StaticFiles}

/-- The per-connection limiter has refused the request. -/
def TurnedAway (ls : List (d.publicSystem files).Label) (i : Nat) : Prop :=
  ∃ identifier, .act i ⟨.checkConnLimit identifier, false⟩ ∈ ls

/-- The write-method limiter has refused the request. -/
def OverBudget (ls : List (d.publicSystem files).Label) (i : Nat) : Prop :=
  ∃ method, .act i ⟨.checkWriteLimit method, false⟩ ∈ ls

/-- The request was answered 429 by one of the limiters. -/
def RateLimited (ls : List (d.publicSystem files).Label) (i : Nat) : Prop :=
  (∃ response, .done i response ∈ ls ∧ response.status = 429) ∧
    (TurnedAway ls i ∨ OverBudget ls i)

/-- The request passed the limiters. -/
def PassedLimiters (ls : List (d.publicSystem files).Label) (i : Nat) : Prop :=
  (∃ identifier, .act i ⟨.checkConnLimit identifier, true⟩ ∈ ls) ∧ ¬ OverBudget ls i

end Counted

/-- A JSON-RPC request that passes validation, with a method that is not on the
allow-list. -/
def JsonRpcRequest.Disallowed (request : JsonRpcRequest) : Prop :=
  request.validate = .ok () ∧ isMethodAllowed request.method = false

/-- The request goes to a JSON-RPC handler, valid, with a method that is not on
the allow-list. -/
def PublicRequest.Disallowed (v : PublicRequest) : Prop :=
  ∃ route request, publicRouter.dispatch v.method v.path = .to (.jsonRpc route) ∧
    v.body = .ok request ∧ request.Disallowed

/-- Its handler is the one that dispatches to the relay client. -/
def PublicRequest.ForRelay (d : Daemon) (v : PublicRequest) : Prop :=
  d.mevClient.isSome = true ∧
    (publicRouter.dispatch v.method v.path = .to (.jsonRpc .flashbots) ∨
      publicRouter.dispatch v.method v.path = .to (.jsonRpc .flashbotsSlash))

section Account

variable {d : Daemon} {files : StaticFiles}

/-- A request whose method is not on the allow-list has passed the limiters and validation. -/
def BlockedMethod (ls : List (d.publicSystem files).Label) (i : Nat) : Prop :=
  (∃ v : PublicRequest, .spawn i v ∈ ls ∧ v.Disallowed) ∧ PassedLimiters ls i

/-- The metrics account for the rejections of a run. -/
structure MetricsAccount (ls : List (d.publicSystem files).Label) (m : SecurityMetrics) :
    Prop where
  rateLimitHits : m.rateLimitHits = {i | RateLimited ls i}.ncard
  invalidMethods : m.invalidMethods = {i | BlockedMethod ls i}.ncard
  blockedRequests : m.blockedRequestsTotal = {i | BlockedMethod ls i}.ncard

/-- Every request that is put to the per-connection limiter finds room in its
bucket, and is none that the relay handler would have to block. -/
def AllCounted (t : Nat) (ls : List (d.publicSystem files).Label)
    (c : (d.publicSystem files).Config) : Prop :=
  ∀ i m e m', StepIn (d.initial t) ls c i m e m' → ∀ identifier, e.op = .checkConnLimit identifier →
    (m.shared.rateLimiter.checkRateLimit m.shared.now identifier).1 = true ∧
    ∀ v : PublicRequest, .spawn i v ∈ ls → ¬ (v.Disallowed ∧ v.ForRelay d)

end Account

-- ---------------------------------------------------------------------------
-- The course of one request
-- ---------------------------------------------------------------------------

/-- The events the account is about: the answers of the per-connection limiter,
the refusals of the write-method limiter and the increments. -/
def watched : OpEvent → Bool
  | ⟨.checkConnLimit _, _⟩ | ⟨.increment _, _⟩ => true
  | ⟨.checkWriteLimit _, ok⟩ => !ok
  | _ => false

/-- The operations that are not watched, whatever their answer. -/
def Op.isUnwatched : Op → Bool
  | .checkConnLimit _ | .checkWriteLimit _ | .increment _ => false
  | _ => true

/-- The future may be dropped before this operation. -/
def Op.MayEnd (o : Op) : Prop := o.awaits = true ∨ o = .panic

/-- Nothing comes between an increment and what is before it. -/
theorem Op.not_mayEnd_increment {k : Counter} : ¬ Op.MayEnd (.increment k) := by
  rintro (h | h) <;> cases h

/-- What a request that is gone can have done, with the status of its answer if
it was answered. -/
inductive Account (d : Daemon) (v : PublicRequest) : List OpEvent → Option Nat → Prop where
  | noLimiter (status : Option Nat) : Account d v [] status
  | turnedAway (identifier : String) :
      Account d v [⟨.checkConnLimit identifier, false⟩] (some 429)
  | served (identifier : String) (status : Option Nat) (h : v.Disallowed → v.ForRelay d) :
      Account d v [⟨.checkConnLimit identifier, true⟩] status
  | blocked (identifier : String) (status : Option Nat) (hv : v.Disallowed)
      (hd : ¬ v.ForRelay d) : Account d v [⟨.checkConnLimit identifier, true⟩,
        ⟨.increment .invalidMethods, ()⟩, ⟨.increment .blockedRequests, ()⟩] status
  | overBudget (identifier method : String) (h : ¬ v.Disallowed) : Account d v
      [⟨.checkConnLimit identifier, true⟩, ⟨.checkWriteLimit method, false⟩,
        ⟨.increment .rateLimitHits, ()⟩] (some 429)

/-- Where its future may be dropped, the account of a request is in order. -/
def DropsInOrder (d : Daemon) (v : PublicRequest) (log : List OpEvent) (o : Op) : Prop :=
  o.MayEnd → Account d v log none

/-- The account of a handler's result. -/
def ResultInOrder (d : Daemon) (v : PublicRequest) (result : ProxyResult JsonRpcResponse)
    (log : List OpEvent) : Prop :=
  Account d v log (some (intoResponse result).status)

/-- An operation that the account does not watch leaves the log as it is. -/
theorem noting_unwatched {o : Op} (h : o.isUnwatched = true) (log : List OpEvent) (r : Res o) :
    noting watched log ⟨o, r⟩ = log := by
  have hskip : watched ⟨o, r⟩ = false := by
    cases o <;> first | rfl | cases h
  rw [noting, hskip]
  rfl

/-- Telling the breaker how an exchange went is not watched. -/
theorem Op.isUnwatched_of_outcome {o : Op} (h : o.isGethOutcome = true) :
    o.isUnwatched = true := by
  cases o <;> first | rfl | cases h

/-- Nor is what is done with the relay. -/
theorem Op.isUnwatched_of_isRelayOp {o : Op} (h : o.isRelayOp = true) : o.isUnwatched = true := by
  cases o <;> first | rfl | cases h

/-- Forwarding to Geth does nothing that is watched. -/
theorem ops_proxyToGeth_unwatched (x : Externals) (request : JsonRpcRequest) :
    (proxyToGeth x request).Ops fun o => o.isUnwatched = true :=
  ops_proxyToGeth x request rfl rfl fun _ => Op.isUnwatched_of_outcome

/-- The same without a key, where a bundle is answered at once and the rest is forwarded. -/
theorem ops_proxyToFlashbots_unwatched (x : Externals) (request : JsonRpcRequest) :
    (proxyToFlashbots x request).Ops fun o => o.isUnwatched = true := by
  unfold proxyToFlashbots
  split
  · trivial
  · exact ops_proxyToGeth_unwatched x request

/-- The relay handler looks at no metrics. -/
theorem MevRelayClient.ops_dispatch_unwatched (client : MevRelayClient) (x : Externals)
    (request : JsonRpcRequest) :
    (client.dispatch x request).Ops fun o => o.isUnwatched = true :=
  client.ops_dispatch (ops_proxyToGeth_unwatched x) fun _ => Op.isUnwatched_of_isRelayOp

/-- The methods of the write budget are on the allow-list. -/
theorem isMethodAllowed_of_write {method : String} (h : method ∈ writeMethods) :
    isMethodAllowed method = true := by
  revert method
  decide

section Log

variable {d : Daemon} {v : PublicRequest} {log : List OpEvent} {status : Option Nat}

/-- A refusal of the write budget is one hit. -/
theorem Account.rateLimitHits (h : Account d v log status) :
    ((∃ method, ⟨.checkWriteLimit method, false⟩ ∈ log) ∧
      log.countP Counter.rateLimitHits.counts = 1) ∨
    ((¬ ∃ method, ⟨.checkWriteLimit method, false⟩ ∈ log) ∧
      log.countP Counter.rateLimitHits.counts = 0) := by
  cases h with
  | overBudget identifier method hv => exact .inl ⟨⟨method, by simp⟩, rfl⟩
  | _ => exact .inr ⟨by simp, rfl⟩

/-- A refusal of either limiter is answered 429. -/
theorem Account.refused (h : Account d v log status)
    (hrefused : (∃ identifier, ⟨.checkConnLimit identifier, false⟩ ∈ log) ∨
      ∃ method, ⟨.checkWriteLimit method, false⟩ ∈ log) : status = some 429 := by
  cases h with
  | turnedAway identifier => rfl
  | overBudget identifier method hv => rfl
  | _ => simp at hrefused

/-- Only one of the limiters refuses. -/
theorem Account.turnedAway_only (h : Account d v log status)
    (hturned : ∃ identifier, ⟨.checkConnLimit identifier, false⟩ ∈ log) :
    ¬ ∃ method, ⟨.checkWriteLimit method, false⟩ ∈ log := by
  cases h with
  | turnedAway identifier => simp
  | _ => simp at hturned

/-- A method that is not on the allow-list is no write. -/
theorem Account.not_overBudget (h : Account d v log status) (hv : v.Disallowed) :
    ¬ ∃ method, ⟨.checkWriteLimit method, false⟩ ∈ log := by
  cases h with
  | overBudget identifier method hv' => exact absurd hv hv'
  | _ => simp

/-- Off the relay handler a disallowed method is counted once by each of the two
counters, and nothing else is. -/
theorem Account.increments (h : Account d v log status) {k : Counter} (hk : k ≠ .rateLimitHits) :
    ((v.Disallowed ∧ ¬ v.ForRelay d ∧ ∃ identifier, ⟨.checkConnLimit identifier, true⟩ ∈ log) ∧
      log.countP k.counts = 1) ∨
    (¬ (v.Disallowed ∧ ¬ v.ForRelay d ∧ ∃ identifier, ⟨.checkConnLimit identifier, true⟩ ∈ log) ∧
      log.countP k.counts = 0) := by
  have hcounts : ∀ method, [⟨.checkConnLimit method, true⟩, ⟨.increment .invalidMethods, ()⟩,
      ⟨.increment .blockedRequests, ()⟩].countP k.counts = 1 := by
    intro method
    cases k <;> first | rfl | exact absurd rfl hk
  cases h with
  | blocked identifier status hv hd =>
    exact .inl ⟨⟨hv, hd, identifier, by simp⟩, hcounts identifier⟩
  | noLimiter status => exact .inr ⟨by simp, rfl⟩
  | turnedAway identifier => exact .inr ⟨by simp, rfl⟩
  | served identifier status hv => exact .inr ⟨fun h => h.2.1 (hv h.1), rfl⟩
  | overBudget identifier method hv =>
    refine .inr ⟨fun h => hv h.1, ?_⟩
    cases k <;> first | rfl | exact absurd rfl hk

end Log

section Course

variable {d : Daemon} {v : PublicRequest} {log : List OpEvent}

/-- What is not watched leaves the account as it is. -/
theorem account_unwatched {p : Handler (ProxyResult JsonRpcResponse)}
    (hp : p.Ops fun o => o.isUnwatched = true) (hlog : ∀ status, Account d v log status) :
    p.Sat (noting watched) (DropsInOrder d v) (ResultInOrder d v) log := by
  have hframe : p.Sat (noting watched) (DropsInOrder d v) (fun _ log' => log' = log) log :=
    sat_frame hp (fun _ ho r => noting_unwatched ho log r) fun _ _ _ => hlog none
  refine hframe.mono (fun _ _ h => h) fun result log' hlog' => ?_
  rw [hlog']
  exact hlog _

/-- Behind the per-connection limiter, a refusal of the write budget is counted. -/
theorem account_budgeted {identifier method : String} {f : Handler (ProxyResult JsonRpcResponse)}
    (hmethod : method ∈ writeMethods → ¬ v.Disallowed)
    (hf : f.Sat (noting watched) (DropsInOrder d v) (ResultInOrder d v)
      [⟨.checkConnLimit identifier, true⟩]) :
    ((checkWriteMethodRateLimit method).andThen fun _ => f).Sat (noting watched)
      (DropsInOrder d v) (ResultInOrder d v) [⟨.checkConnLimit identifier, true⟩] := by
  unfold checkWriteMethodRateLimit
  by_cases hwrite : method ∈ writeMethods
  · have hv := hmethod hwrite
    rw [if_neg (by simpa using hwrite)]
    refine ⟨fun _ => .served identifier none fun h => absurd h hv, fun ok => ?_⟩
    cases ok
    · exact ⟨fun hend => absurd hend Op.not_mayEnd_increment,
        fun _ => .overBudget identifier method hv⟩
    · exact hf
  · rw [if_pos (by simpa using hwrite)]
    exact hf

/-- Off the relay handler, a method that is not on the allow-list is counted. -/
theorem account_gated {identifier : String} {request : JsonRpcRequest}
    {forward : Handler (ProxyResult JsonRpcResponse)} (hv : v.Disallowed ↔ request.Disallowed)
    (hd : ¬ v.ForRelay d) (hforward : forward.Ops fun o => o.isUnwatched = true) :
    (gated request forward).Sat (noting watched) (DropsInOrder d v) (ResultInOrder d v)
      [⟨.checkConnLimit identifier, true⟩] := by
  have hserved : ¬ request.Disallowed → ∀ status,
      Account d v [⟨.checkConnLimit identifier, true⟩] status :=
    fun hr status => .served identifier status fun h => absurd (hv.mp h) hr
  unfold gated
  cases hvalid : request.validate with
  | error e => exact hserved (fun h => by cases hvalid.symm.trans h.1) _
  | ok u =>
    dsimp only
    by_cases ha : isMethodAllowed request.method = true
    · have hr : ¬ request.Disallowed := fun h => by cases ha.symm.trans h.2
      rw [ha]
      exact account_budgeted (fun _ h => hr (hv.mp h)) (account_unwatched hforward (hserved hr))
    · have ha : isMethodAllowed request.method = false := by simpa using ha
      rw [ha]
      refine ⟨fun hend => absurd hend Op.not_mayEnd_increment, fun _ => ?_⟩
      refine ⟨fun hend => absurd hend Op.not_mayEnd_increment, fun _ => ?_⟩
      exact .blocked identifier _ (hv.mpr ⟨hvalid, ha⟩) hd

/-- A write method is on the allow-list. -/
theorem not_disallowed_of_write {request : JsonRpcRequest} (hv : v.Disallowed ↔ request.Disallowed)
    (hwrite : request.method ∈ writeMethods) : ¬ v.Disallowed := by
  intro h
  cases (isMethodAllowed_of_write hwrite).symm.trans (hv.mp h).2

/-- A handler notes what the account expects of its request: one check of the limiter, and
one count for whatever is turned away. -/
theorem account_handler {identifier : String} {route : Route} {request : JsonRpcRequest}
    (hroute : publicRouter.dispatch v.method v.path = .to (.jsonRpc route))
    (hbody : v.body = .ok request) :
    (d.handler route request).Sat (noting watched) (DropsInOrder d v) (ResultInOrder d v)
      [⟨.checkConnLimit identifier, true⟩] := by
  have hv : v.Disallowed ↔ request.Disallowed := by
    constructor
    · rintro ⟨route', request', -, hbody', hr⟩
      cases hbody.symm.trans hbody'
      exact hr
    · intro hr
      exact ⟨route, request, hroute, hbody, hr⟩
  have hd : v.ForRelay d ↔
      d.mevClient.isSome = true ∧ (route = .flashbots ∨ route = .flashbotsSlash) := by
    rw [PublicRequest.ForRelay, hroute]
    simp
  have hstandard : ¬ v.ForRelay d → (handleFlashbots d.externals request).Sat (noting watched)
      (DropsInOrder d v) (ResultInOrder d v) [⟨.checkConnLimit identifier, true⟩] := by
    intro hnone
    refine account_gated hv hnone ?_
    split
    · exact ops_proxyToFlashbots_unwatched _ _
    · exact ops_proxyToGeth_unwatched _ _
  rcases d.handler_cases route with ⟨hr, heq⟩ | ⟨hr, heq⟩
  · rw [heq]
    refine account_gated hv (fun h => ?_) (ops_proxyToGeth_unwatched _ _)
    rcases hr with rfl | rfl <;> simp [hd] at h
  · rw [heq]
    refine account_budgeted (not_disallowed_of_write hv) ?_
    cases hclient : d.mevClient with
    | none => exact hstandard fun h => by simp [hd, hclient] at h
    | some client =>
      -- dispatched as it is, whatever its method
      have hrelay : v.ForRelay d := hd.mpr ⟨by rw [hclient]; rfl, hr⟩
      exact account_unwatched (client.ops_dispatch_unwatched _ _)
        fun status => .served identifier status fun _ => hrelay

/-- The middleware answers for itself, or hands on a request that has been let in. -/
theorem account_limited {next : Handler HttpResponse}
    (hnext : ∀ identifier, next.Sat (noting watched) (DropsInOrder d v)
      (fun response log => Account d v log (some response.status))
      [⟨.checkConnLimit identifier, true⟩]) :
    (rateLimitMiddleware v.peer next).Sat (noting watched) (DropsInOrder d v)
      (fun response log => Account d v log (some response.status)) [] := by
  refine ⟨fun _ => .noLimiter none, fun ok => ?_⟩
  cases ok
  · exact .turnedAway _
  · exact hnext _

/-- What a request has to show, from its arrival to wherever it ends. -/
theorem account_respond (d : Daemon) (files : StaticFiles) (v : PublicRequest) :
    (d.respond files v).Sat (noting watched) (DropsInOrder d v)
      (fun response log => Account d v log (some response.status)) [] := by
  -- a request that no JSON-RPC handler takes is none with a method
  have hother : ∀ {identifier status}, ¬ v.Disallowed →
      Account d v [⟨.checkConnLimit identifier, true⟩] status :=
    fun hv => .served _ _ fun h => absurd h hv
  unfold Daemon.respond
  cases hroute : publicRouter.dispatch v.method v.path with
  | fallback => exact .noLimiter _
  | methodNotAllowed =>
    refine account_limited fun identifier => hother ?_
    rintro ⟨route, request, hto, -⟩
    cases hroute.symm.trans hto
  | «to» e =>
    refine account_limited fun identifier => ?_
    cases e with
    | serveRoot =>
      refine hother ?_
      rintro ⟨route, request, hto, -⟩
      cases hroute.symm.trans hto
    | jsonRpc route =>
      unfold Daemon.endpoint
      cases hbody : v.body with
      | error status =>
        refine hother ?_
        rintro ⟨route, request, -, hok, -⟩
        cases hbody.symm.trans hok
      | ok request => exact (account_handler hroute hbody).bind fun _ _ h => h

end Course

-- ---------------------------------------------------------------------------
-- The counters over a run
-- ---------------------------------------------------------------------------

/-- After a run a counter stands at the number of events of the run that count for it. -/
theorem run_metrics {d : Daemon} {files : StaticFiles} {t : Nat}
    {ls : List (d.publicSystem files).Label} {c : (d.publicSystem files).Config}
    (h : d.PublicRun files t ls c) (k : Counter) :
    c.shared.metrics.read k = totalOf k.counts c.next ls := by
  have hzero : (d.initial t).metrics.read k = 0 := by cases k <;> rfl
  have henv : ∀ s s' : Shared, Daemon.housekeeping s s' → s'.metrics.read k = s.metrics.read k := by
    rintro s s' (⟨now, -, rfl⟩ | ⟨l, -, rfl⟩) <;> rfl
  have hcounter := @run_counter _ _ _ (d.publicSystem files) (fun s : Shared => s.metrics.read k)
    k.counts (fun _ _ _ _ hexec => exec_metrics hexec k) henv _ _ _ h
  rw [hcounter, hzero, Nat.zero_add]

section Run

variable {d : Daemon} {files : StaticFiles} {t : Nat} {ls : List (d.publicSystem files).Label}
  {c : (d.publicSystem files).Config}

/-- The watched events of a request. -/
def logOf (ls : List (d.publicSystem files).Label) (i : Nat) : List OpEvent :=
  (eventsOf i ls).filter watched

/-- The log of a request holds its watched events and no others. -/
theorem mem_logOf {i : Nat} {e : OpEvent} (he : watched e = true) :
    e ∈ logOf ls i ↔ .act i e ∈ ls := by
  rw [logOf, List.mem_filter, mem_eventsOf]
  exact and_iff_left he

/-- The counts of a request can be taken from its log. -/
theorem countP_logOf (k : Counter) (i : Nat) :
    (logOf ls i).countP k.counts = (eventsOf i ls).countP k.counts := by
  rw [logOf, List.countP_filter]
  refine List.countP_congr fun e _ => ?_
  have hwatched : k.counts e = true → watched e = true := by
    obtain ⟨o, r⟩ := e
    cases o <;> first | exact fun _ => rfl | exact nofun
  simpa using hwatched

/-- Whether a request was turned away by the limiter is in its log. -/
theorem turnedAway_iff {i : Nat} :
    TurnedAway ls i ↔ ∃ identifier, ⟨.checkConnLimit identifier, false⟩ ∈ logOf ls i :=
  exists_congr fun _ => (mem_logOf rfl).symm

/-- So is whether the write budget has refused it. -/
theorem overBudget_iff {i : Nat} :
    OverBudget ls i ↔ ∃ method, ⟨.checkWriteLimit method, false⟩ ∈ logOf ls i :=
  exists_congr fun _ => (mem_logOf rfl).symm

/-- The request was let in by the per-connection limiter. -/
theorem letIn_iff {i : Nat} : (∃ identifier, .act i ⟨.checkConnLimit identifier, true⟩ ∈ ls) ↔
    ∃ identifier, (⟨.checkConnLimit identifier, true⟩ : OpEvent) ∈ logOf ls i :=
  exists_congr fun _ => (mem_logOf rfl).symm

/-- **The account of a request.** A request that is gone has one, and if it says
429 it was answered so. -/
theorem exists_account (h : d.PublicRun files t ls c) {i : Nat} (hi : i < c.next)
    (hgone : c.threads i = none) : ∃ (v : PublicRequest) (status : Option Nat), .spawn i v ∈ ls ∧
      Account d v (logOf ls i) status ∧
      ∀ n, status = some n → ∃ response, .done i response ∈ ls ∧ response.status = n := by
  obtain ⟨v, -, hv, -⟩ := (run_known h i).born hi
  have hsat := account_respond d files v
  rcases settled_trace h hv hgone with ⟨response, hdone, htr⟩ | ⟨o, k, m, htr, hmay⟩
  · refine ⟨v, some response.status, hv, hsat.log_rest htr, fun n hn => ?_⟩
    exact ⟨response, hdone, Option.some.inj hn⟩
  · exact ⟨v, none, hv, (hsat.log_rest htr).1 hmay, nofun⟩

-- ---------------------------------------------------------------------------
-- What each counter says when nothing is in flight
-- ---------------------------------------------------------------------------

/-- A request with a method that is not on the allow-list is blocked by its handler. -/
def BlockedHere (ls : List (d.publicSystem files).Label) (i : Nat) : Prop :=
  ∃ v : PublicRequest, .spawn i v ∈ ls ∧ v.Disallowed ∧ ¬ v.ForRelay d ∧
    ∃ identifier, .act i ⟨.checkConnLimit identifier, true⟩ ∈ ls

/-- A request with such a method is let in and dispatched by the relay handler. -/
def SlipsThrough (ls : List (d.publicSystem files).Label) (i : Nat) : Prop :=
  ∃ v : PublicRequest, .spawn i v ∈ ls ∧ v.Disallowed ∧ v.ForRelay d ∧
    ∃ identifier, .act i ⟨.checkConnLimit identifier, true⟩ ∈ ls

/-- Only requests that have come in are limited. -/
theorem lt_of_rateLimited (h : d.PublicRun files t ls c) {i : Nat} (hi : RateLimited ls i) :
    i < c.next := by
  rcases hi.2 with ⟨identifier, hact⟩ | ⟨method, hact⟩
  · exact lt_of_act h hact
  · exact lt_of_act h hact

/-- A counter that each request increments once or not at all. -/
theorem read_eq_ncard (h : d.PublicRun files t ls c) {k : Counter} {P : Nat → Prop}
    (hlt : ∀ i, P i → i < c.next)
    (hcount : ∀ i, i < c.next → (P i ∧ (logOf ls i).countP k.counts = 1) ∨
      (¬ P i ∧ (logOf ls i).countP k.counts = 0)) :
    c.shared.metrics.read k = {i | P i}.ncard := by
  refine (run_metrics h k).trans (totalOf_eq_ncard hlt fun i hi => ?_)
  rw [← countP_logOf]
  exact hcount i hi

/-- `rate_limit_hits` is the number of requests refused for their write budget. -/
theorem rateLimitHits_eq (h : d.PublicRun files t ls c) (hquiet : ∀ i, c.threads i = none) :
    c.shared.metrics.rateLimitHits = {i | OverBudget ls i}.ncard := by
  have hlt : ∀ i, OverBudget ls i → i < c.next := by
    rintro i ⟨method, hact⟩
    exact lt_of_act h hact
  refine read_eq_ncard h (k := .rateLimitHits) hlt fun i hi => ?_
  obtain ⟨v, status, -, hlog, -⟩ := exists_account h hi (hquiet i)
  rw [overBudget_iff]
  exact hlog.rateLimitHits

/-- The other two count the requests blocked by their handler. -/
theorem read_eq_blocked (h : d.PublicRun files t ls c) (hquiet : ∀ i, c.threads i = none)
    {k : Counter} (hk : k ≠ .rateLimitHits) :
    c.shared.metrics.read k = {i | BlockedHere ls i}.ncard := by
  have hlt : ∀ i, BlockedHere ls i → i < c.next := by
    rintro i ⟨v, hv, -⟩
    exact run_spawn_lt h hv
  refine read_eq_ncard h hlt fun i hi => ?_
  obtain ⟨v, status, hv, hlog, -⟩ := exists_account h hi (hquiet i)
  rcases hlog.increments hk with ⟨⟨hdis, hd, hadm⟩, hone⟩ | ⟨hnot, hzero⟩
  · exact .inl ⟨⟨v, hv, hdis, hd, letIn_iff.mpr hadm⟩, hone⟩
  · -- an id is handed out once, so this is the request that was not blocked
    refine .inr ⟨?_, hzero⟩
    rintro ⟨v', hv', hdis, hd, hadm⟩
    obtain rfl : v' = v := run_spawn_unique h hv' hv
    exact hnot ⟨hdis, hd, letIn_iff.mp hadm⟩

/-- The hits are all the 429s if the per-connection limiter has refused none. -/
theorem hits_account_iff (h : d.PublicRun files t ls c) (hquiet : ∀ i, c.threads i = none) :
    c.shared.metrics.rateLimitHits = {i | RateLimited ls i}.ncard ↔ ∀ i, ¬ TurnedAway ls i := by
  have hanswered : ∀ i, i < c.next → TurnedAway ls i ∨ OverBudget ls i → RateLimited ls i := by
    intro i hi hrefused
    obtain ⟨v, status, -, hlog, hdone⟩ := exists_account h hi (hquiet i)
    have hstatus := hlog.refused (hrefused.imp turnedAway_iff.mp overBudget_iff.mp)
    exact ⟨hdone 429 hstatus, hrefused⟩
  have hover : ∀ i, OverBudget ls i → RateLimited ls i := by
    rintro i ⟨method, hact⟩
    exact hanswered i (lt_of_act h hact) (.inr ⟨method, hact⟩)
  rw [rateLimitHits_eq h hquiet, ncard_eq_iff (fun i => lt_of_rateLimited h) hover]
  constructor
  · rintro hall i ⟨identifier, hact⟩
    have hi := lt_of_act h hact
    obtain ⟨v, status, -, hlog, -⟩ := exists_account h hi (hquiet i)
    have hnot := hlog.turnedAway_only (turnedAway_iff.mp ⟨identifier, hact⟩)
    exact hnot (overBudget_iff.mp (hall i (hanswered i hi (.inl ⟨identifier, hact⟩))))
  · intro hnone i hlimited
    exact hlimited.2.resolve_left (hnone i)

/-- The other two count every disallowed method if none has got past the relay handler. -/
theorem blocked_account_iff (h : d.PublicRun files t ls c) (hquiet : ∀ i, c.threads i = none)
    {k : Counter} (hk : k ≠ .rateLimitHits) :
    c.shared.metrics.read k = {i | BlockedMethod ls i}.ncard ↔ ∀ i, ¬ SlipsThrough ls i := by
  have hpassed : ∀ i (v : PublicRequest), .spawn i v ∈ ls → v.Disallowed →
      (∃ identifier, .act i ⟨.checkConnLimit identifier, true⟩ ∈ ls) → BlockedMethod ls i := by
    intro i v hv hdis hadm
    obtain ⟨v', status, hv', hlog, -⟩ := exists_account h (run_spawn_lt h hv) (hquiet i)
    obtain rfl : v' = v := run_spawn_unique h hv' hv
    exact ⟨⟨v', hv, hdis⟩, hadm, fun hover => hlog.not_overBudget hdis (overBudget_iff.mp hover)⟩
  have hlt : ∀ i, BlockedMethod ls i → i < c.next := by
    rintro i ⟨⟨v, hv, -⟩, -⟩
    exact run_spawn_lt h hv
  have hsub : ∀ i, BlockedHere ls i → BlockedMethod ls i := by
    rintro i ⟨v, hv, hdis, -, hadm⟩
    exact hpassed i v hv hdis hadm
  rw [read_eq_blocked h hquiet hk, ncard_eq_iff hlt hsub]
  constructor
  · rintro hall i ⟨v, hv, hdis, hrelay, hadm⟩
    obtain ⟨v', hv', -, hd, -⟩ := hall i (hpassed i v hv hdis hadm)
    obtain rfl : v' = v := run_spawn_unique h hv' hv
    exact hd hrelay
  · rintro hnone i ⟨⟨v, hv, hdis⟩, hadm, -⟩
    exact ⟨v, hv, hdis, fun hrelay => hnone i ⟨v, hv, hdis, hrelay, hadm⟩, hadm⟩

/-- The condition, by what the per-connection limiter has answered. -/
theorem allCounted_iff (h : d.PublicRun files t ls c) : AllCounted t ls c ↔
    (∀ i, ¬ TurnedAway ls i) ∧ ∀ i, ¬ SlipsThrough ls i := by
  -- the answer is the limiter's in the state before the step
  have hanswer : ∀ {i m m' identifier ok},
      StepIn (d.initial t) ls c i m ⟨.checkConnLimit identifier, ok⟩ m' →
      (m.shared.rateLimiter.checkRateLimit m.shared.now identifier).1 = ok := by
    intro i m m' identifier ok hin
    have hexec : exec m.shared (.checkConnLimit identifier) ok m'.shared := hin.exec
    exact (exec_perform rfl hexec).1
  constructor
  · intro hall
    constructor
    · rintro i ⟨identifier, hact⟩
      obtain ⟨m, m', hin⟩ := stepIn_of_mem h (mem_eventsOf.mpr hact)
      cases (hanswer hin).symm.trans (hall i m _ m' hin identifier rfl).1
    · rintro i ⟨v, hv, hdis, hrelay, identifier, hact⟩
      obtain ⟨m, m', hin⟩ := stepIn_of_mem h (mem_eventsOf.mpr hact)
      exact (hall i m _ m' hin identifier rfl).2 v hv ⟨hdis, hrelay⟩
  · rintro ⟨hroom, hrelay⟩ i m ⟨o, ok⟩ m' hin identifier rfl
    have hact : .act i ⟨.checkConnLimit identifier, ok⟩ ∈ ls := mem_eventsOf.mp hin.mem
    cases ok
    · exact absurd ⟨identifier, hact⟩ (hroom i)
    · refine ⟨hanswer hin, fun v hv hslips => hrelay i ?_⟩
      exact ⟨v, hv, hslips.1, hslips.2, identifier, hact⟩

end Run

/-- **The metrics account for the rejections.** In a run of the public router,
with nothing in flight, the counters are right exactly if every request found
room in its connection's bucket and none with a method off the allow-list was
let through to the relay handler. -/
theorem metrics_account_iff (d : Daemon) (files : StaticFiles) {t : Nat}
    {ls : List (d.publicSystem files).Label} {c : (d.publicSystem files).Config}
    (h : d.PublicRun files t ls c) (hquiet : ∀ i, c.threads i = none) :
    MetricsAccount ls c.shared.metrics ↔ AllCounted t ls c := by
  rw [allCounted_iff h]
  constructor
  · intro haccount
    exact ⟨(hits_account_iff h hquiet).mp haccount.rateLimitHits,
      (blocked_account_iff h hquiet (k := .invalidMethods) nofun).mp haccount.invalidMethods⟩
  · rintro ⟨hroom, hrelay⟩
    exact ⟨(hits_account_iff h hquiet).mpr hroom,
      (blocked_account_iff h hquiet (k := .invalidMethods) nofun).mpr hrelay,
      (blocked_account_iff h hquiet (k := .blockedRequests) nofun).mpr hrelay⟩

-- ---------------------------------------------------------------------------
-- What is counted, and what is not
-- ---------------------------------------------------------------------------

/-- A circuit of the local Tor daemon. -/
def torPeer : Option (Net.IpAddr × UInt16) := some (.v4 ⟨127, 0, 0, 1⟩, 40000)

def noFiles : StaticFiles := fun _ _ => 404

def adminRequest : JsonRpcRequest := ⟨"2.0", "admin_nodeInfo", none, some (.nat 1)⟩

/-- A POST of `admin_nodeInfo`. -/
def adminPost (route : Route) : PublicRequest := ⟨.post, route.path, .ok adminRequest, torPeer, 0⟩

/-- One request on the standard route, with a method that is not on the allow-list. -/
def blockedLabels : List (plainDaemon.publicSystem noFiles).Label :=
  [.spawn 0 (adminPost .rpc), .act 0 ⟨.checkConnLimit (getRequestIdentifier torPeer), true⟩,
    .act 0 ⟨.increment .invalidMethods, ()⟩, .act 0 ⟨.increment .blockedRequests, ()⟩,
    .done 0 (ProxyError.methodNotAllowed "admin_nodeInfo").intoResponse]

/-- A request with a method that is not allowed, alone on a daemon, is blocked and counted.
-/
theorem metrics_account_blocked : ∃ c, plainDaemon.PublicRun noFiles 0 blockedLabels c ∧
    (∀ i, c.threads i = none) ∧ MetricsAccount blockedLabels c.shared.metrics := by
  have hperf : Performs exec (plainDaemon.respond noFiles (adminPost .rpc))
      (plainDaemon.initial 0) _ (.pure (ProxyError.methodNotAllowed "admin_nodeInfo").intoResponse)
      _ :=
    .cons (plainDaemon.exec_first_conn 0 (getRequestIdentifier torPeer))
      (.cons rfl (.cons rfl (.nil _ _)))
  have hstart : plainDaemon.PublicRun noFiles 0 [] _ := .nil _
  obtain ⟨c, hrun, -, hnext, -⟩ := hstart.served rfl hperf
  have hrun : plainDaemon.PublicRun noFiles 0 blockedLabels c := hrun
  have hquiet := quiet_of_one hrun hnext
    (a := (ProxyError.methodNotAllowed "admin_nodeInfo").intoResponse) (by simp [blockedLabels])
  refine ⟨c, hrun, hquiet, (metrics_account_iff _ _ hrun hquiet).mpr ?_⟩
  refine (allCounted_iff hrun).mpr ⟨?_, ?_⟩
  · rintro i ⟨identifier, hact⟩
    simp [blockedLabels] at hact
  · rintro i ⟨v, -, -, ⟨hsome, -⟩, -⟩
    cases hsome

/-- A daemon that takes one request a minute from a connection. -/
def onePerMinute : Daemon := { plainDaemon with rateLimit := ⟨1, 60 * nanosPerSec⟩ }

def pageGet : PublicRequest := ⟨.get, "/", .error 415, torPeer, 0⟩

/-- The page, asked for twice over one connection. -/
def refusedLabels : List (onePerMinute.publicSystem noFiles).Label :=
  [.spawn 0 pageGet, .act 0 ⟨.checkConnLimit (getRequestIdentifier torPeer), true⟩,
    .done 0 ⟨200, none⟩,
    .spawn 1 pageGet, .act 1 ⟨.checkConnLimit (getRequestIdentifier torPeer), false⟩,
    .done 1 ⟨429, none⟩]

/-- With a limit of one per minute, a second request of the same client finds no room. -/
theorem exec_second_conn (identifier : String) :
    exec (onePerMinute.admitted 0 identifier) (.checkConnLimit identifier) false
      (onePerMinute.admitted 0 identifier) := by
  have hfull : (onePerMinute.admitted 0 identifier).rateLimiter.checkRateLimit 0 identifier =
      (false, (onePerMinute.admitted 0 identifier).rateLimiter) := by
    have hentry : (onePerMinute.admitted 0 identifier).rateLimiter.requests.lookup identifier =
        some (1, 0) := AList.lookup_insert _
    rw [RateLimiter.checkRateLimit, hentry]
    rfl
  have hnow : (onePerMinute.admitted 0 identifier).now = 0 := rfl
  simp only [exec, Shared.perform, hnow, hfull]
  rfl

/-- The second request is answered 429 and is counted nowhere. -/
theorem refusal_uncounted : ∃ c, onePerMinute.PublicRun noFiles 0 refusedLabels c ∧
    (∀ i, c.threads i = none) ∧ RateLimited refusedLabels 1 ∧
    c.shared.metrics.rateLimitHits = 0 ∧ ¬ MetricsAccount refusedLabels c.shared.metrics := by
  have hfirst : Performs exec (onePerMinute.respond noFiles pageGet) (onePerMinute.initial 0) _
      (.pure ⟨200, none⟩) _ :=
    .cons (onePerMinute.exec_first_conn 0 (getRequestIdentifier torPeer)) (.nil _ _)
  have hstart : onePerMinute.PublicRun noFiles 0 [] _ := .nil _
  obtain ⟨c₁, hrun₁, hshared₁, hnext₁, -⟩ := hstart.served rfl hfirst
  have hsecond : Performs exec (onePerMinute.respond noFiles pageGet) c₁.shared
      [⟨.checkConnLimit (getRequestIdentifier torPeer), false⟩] (.pure ⟨429, none⟩) _ :=
    .cons (by rw [hshared₁]; exact exec_second_conn _) (.nil _ _)
  obtain ⟨c, hrun, hshared, hnext, -⟩ := hrun₁.served (by rw [hshared₁]; rfl) hsecond
  rw [hnext₁] at hrun hnext
  have hrun : onePerMinute.PublicRun noFiles 0 refusedLabels c := hrun
  have hquiet : ∀ i, c.threads i = none := by
    refine quiet_of_done hrun fun i hi => ?_
    have hi : i < 2 := by
      rw [hnext] at hi
      exact hi
    obtain rfl | rfl : i = 0 ∨ i = 1 := by omega
    · exact ⟨⟨200, none⟩, by simp [refusedLabels]⟩
    · exact ⟨⟨429, none⟩, by simp [refusedLabels]⟩
  have hturned : TurnedAway refusedLabels 1 :=
    ⟨getRequestIdentifier torPeer, by simp [refusedLabels]⟩
  refine ⟨c, hrun, hquiet, ⟨⟨⟨429, none⟩, by simp [refusedLabels], rfl⟩, .inl hturned⟩, ?_, ?_⟩
  · rw [hshared]
    rfl
  · intro haccount
    exact (hits_account_iff hrun hquiet).mp haccount.rateLimitHits 1 hturned

/-- The same method on the relay route, with Geth out of reach. -/
def relayLabels : List (relayDaemon.publicSystem noFiles).Label :=
  [.spawn 0 (adminPost .flashbots),
    .act 0 ⟨.checkConnLimit (getRequestIdentifier torPeer), true⟩, .act 0 ⟨.canProceed .geth, true⟩,
    .act 0 ⟨.sendToGeth adminRequest, ()⟩, .act 0 ⟨.gethReply, .error "connection refused"⟩,
    .act 0 ⟨.recordFailure .geth, ()⟩,
    .done 0 (ProxyError.upstreamError "upstream unavailable").intoResponse]

/-- With a relay, a method that is not on the allow-list is counted nowhere. -/
theorem relay_method_uncounted : ∃ c, relayDaemon.PublicRun noFiles 0 relayLabels c ∧
    (∀ i, c.threads i = none) ∧ BlockedMethod relayLabels 0 ∧
    c.shared.metrics.invalidMethods = 0 ∧ c.shared.metrics.blockedRequestsTotal = 0 := by
  have hperf : Performs exec (relayDaemon.respond noFiles (adminPost .flashbots))
      (relayDaemon.initial 0) [⟨.checkConnLimit (getRequestIdentifier torPeer), true⟩,
        ⟨.canProceed .geth, true⟩, ⟨.sendToGeth adminRequest, ()⟩,
        ⟨.gethReply, .error "connection refused"⟩, ⟨.recordFailure .geth, ()⟩]
      (.pure (ProxyError.upstreamError "upstream unavailable").intoResponse) _ :=
    .cons (relayDaemon.exec_first_conn 0 (getRequestIdentifier torPeer)) (.cons rfl
      (.cons ⟨rfl, trivial⟩ (.cons ⟨rfl, trivial⟩ (.cons rfl (.nil _ _)))))
  have hstart : relayDaemon.PublicRun noFiles 0 [] _ := .nil _
  obtain ⟨c, hrun, hshared, hnext, -⟩ := hstart.served rfl hperf
  have hrun : relayDaemon.PublicRun noFiles 0 relayLabels c := hrun
  have hquiet := quiet_of_one hrun hnext
    (a := (ProxyError.upstreamError "upstream unavailable").intoResponse) (by simp [relayLabels])
  have hdisallowed : (adminPost .flashbots).Disallowed :=
    ⟨.flashbots, adminRequest, dispatch_jsonRpc_iff.mpr ⟨rfl, rfl⟩, rfl, rfl, by decide⟩
  refine ⟨c, hrun, hquiet, ⟨⟨_, by simp [relayLabels], hdisallowed⟩, ?_, ?_⟩, ?_, ?_⟩
  · exact ⟨getRequestIdentifier torPeer, by simp [relayLabels]⟩
  · rintro ⟨method, hact⟩
    simp [relayLabels] at hact
  · rw [hshared]
    rfl
  · rw [hshared]
    rfl

end Torpc
