import Torpc.Model.App

/-!
# What a rejected request leaves behind

A request that the daemon finds at fault ought to cost nothing but its answer.
On `/rpc` it does: the gates come first. On `/rpc/flashbots` a write is charged
to its budget before anybody looks at it, and with a relay configured Geth is
asked for the block before the transaction is looked for in the parameters. So
what is rejected there has left a trace, unless the charge itself leaves none,
which takes a window of length zero (`rejected_traceless_iff`).
-/

namespace Torpc

open Effects Prog System Lts FixedWindow

/-- The errors that put a client in the wrong. -/
def ProxyError.isRejection : ProxyError → Bool
  | .invalidRequest _ | .methodNotAllowed _ => true
  | _ => false

/-- A handler's result is a rejection. -/
def Rejected {α : Type} (result : ProxyResult α) : Prop :=
  ∃ e : ProxyError, result = .error e ∧ e.isRejection = true

/-- The response to a rejected request. -/
def RejectedWith (response : HttpResponse) : Prop :=
  ∃ e : ProxyError, response = e.intoResponse ∧ e.isRejection = true

/-- The step sends nothing and finds both breakers and every write bucket as it leaves them. -/
def Quiet (o : Op) (s s' : Shared) : Prop :=
  o.isSend = false ∧ s'.gethCircuit = s.gethCircuit ∧ s'.mevCircuit = s.mevCircuit ∧
    s'.writeMethodLimiter.window = s.writeMethodLimiter.window

/-- The request is charged before it is looked at. -/
def ChargedFirst (a : Arrival) : Prop :=
  (a.route = .flashbots ∨ a.route = .flashbotsSlash) ∧ a.request.method ∈ writeMethods

/-- An upstream hears of the request before it is rejected: Geth of a
transaction, the relay of a bundle that decodes. -/
def Forwarded (d : Daemon) (a : Arrival) : Prop :=
  d.mevClient.isSome ∧ (a.request.method = "eth_sendRawTransaction" ∨
    (a.request.firstParam >>= Bundle.ofValue).isSome)

/-- A charge of this budget would change nothing: its window has no length, and
it has been charged at this very instant. -/
def Idle (s : Shared) (method : String) : Prop :=
  s.writeMethodLimiter.config.windowDuration = 0 ∧
    s.writeMethodLimiter.window method = some ⟨1, s.now⟩

-- ---------------------------------------------------------------------------
-- Which results are rejections
-- ---------------------------------------------------------------------------

/-- The code tells them from the other errors. -/
theorem ProxyError.isRejection_code (e : ProxyError) :
    e.isRejection = decide (e.toJsonRpcCode = -32600 ∨ e.toJsonRpcCode = -32601) := by
  cases e <;> rfl

/-- The code in a response. -/
def HttpResponse.code (response : HttpResponse) : Option Int64 :=
  (response.body >>= JsonRpcResponse.error).map JsonRpcError.code

/-- The status tells an error from a response, and the code one error from another. -/
theorem rejected_of_response {result : ProxyResult JsonRpcResponse}
    (h : RejectedWith (intoResponse result)) : Rejected result := by
  obtain ⟨e, he, hreject⟩ := h
  cases result with
  | ok response =>
    have hstatus : 200 = e.intoResponse.status := congrArg HttpResponse.status he
    cases e <;> cases hreject <;> cases hstatus
  | error e' =>
    have hcode : e'.toJsonRpcCode = e.toJsonRpcCode :=
      Option.some.inj (congrArg HttpResponse.code he)
    refine ⟨e', rfl, ?_⟩
    rw [ProxyError.isRejection_code] at hreject ⊢
    rw [hcode]
    exact hreject

/-- What ends in an exchange with Geth has not been rejected by a check. -/
theorem Exchange.not_rejected {x : Externals} {request : JsonRpcRequest} {tr : List OpEvent}
    {result : ProxyResult JsonRpcResponse} (h : Exchange x request tr result) :
    ¬ Rejected result := by
  rintro ⟨e, he, hreject⟩
  cases h with
  | body status v hs =>
    unfold gethOutcome at he
    split at he
    · cases he
      cases hreject
    · cases he
  | _ =>
    cases he
    cases hreject

/-- An exchange that brings a response has sent the request. -/
theorem Exchange.sent {x : Externals} {request : JsonRpcRequest} {tr : List OpEvent}
    {response : JsonRpcResponse} (h : Exchange x request tr (.ok response)) :
    (⟨.sendToGeth request, ()⟩ : OpEvent) ∈ tr := by
  generalize hresult : (Except.ok response : ProxyResult JsonRpcResponse) = result at h
  cases h with
  | body status v hs => simp
  | _ => cases hresult

-- ---------------------------------------------------------------------------
-- What the relay client rejects
-- ---------------------------------------------------------------------------

/-- Something has been put on the wire. -/
def noteSend (sent : Bool) (e : OpEvent) : Bool := sent || e.op.isSend

/-- After a trace it is noted whether something has been sent, then or before. -/
theorem foldl_noteSend (sent : Bool) (tr : List OpEvent) :
    tr.foldl noteSend sent = (sent || tr.any fun e => e.op.isSend) := by
  induction tr generalizing sent with
  | nil => rw [List.foldl_nil, List.any_nil, Bool.or_false]
  | cons e tr ih => rw [List.foldl_cons, ih, noteSend, List.any_cons, Bool.or_assoc]

/-- A rejection comes after a send. -/
def RejectsSent {α : Type} (result : ProxyResult α) (sent : Bool) : Prop :=
  Rejected result → sent = true

def SendsFirst {α : Type} (p : Handler (ProxyResult α)) (sent : Bool) : Prop :=
  p.Sat noteSend (fun _ _ => True) RejectsSent sent

/-- Once something has been sent, any outcome is in order. -/
theorem sendsFirst_sent {α : Type} (p : Handler (ProxyResult α)) : SendsFirst p true := by
  induction p with
  | pure result => exact fun _ => rfl
  | op o k ih => exact ⟨trivial, fun r => ih r⟩

/-- A result that is no error is no rejection. -/
theorem not_rejected_ok {α : Type} (a : α) : ¬ Rejected (.ok a : ProxyResult α) := by
  rintro ⟨e, he, -⟩
  cases he

/-- An error is a rejection just if its kind is. -/
theorem rejected_error {α : Type} {e : ProxyError} :
    Rejected (.error e : ProxyResult α) ↔ e.isRejection = true := by
  constructor
  · rintro ⟨e', he, hreject⟩
    obtain rfl := Except.error.inj he
    exact hreject
  · intro hreject
    exact ⟨e, rfl, hreject⟩

/-- Without a signature nothing is sent, but then the fault is not the client's. -/
theorem sendsFirst_sendBundleAttempt (client : MevRelayClient) (x : Externals) (body : String)
    (sent : Bool) : SendsFirst (client.sendBundleAttempt x body) sent := by
  unfold SendsFirst MevRelayClient.sendBundleAttempt
  split
  · intro hreject
    cases rejected_error.mp hreject
  · next signature hs =>
    refine ⟨trivial, fun _ => ?_⟩
    have hsent : noteSend sent ⟨.sendToRelay body signature, ()⟩ = true := Bool.or_true sent
    rw [hsent]
    exact sendsFirst_sent _

/-- The loop of attempts rejects nothing by itself: if it ends in such an error, that is the
error of an attempt which has sent the bundle. -/
theorem sendsFirst_attempts (client : MevRelayClient) (x : Externals) (body : String)
    (left attempt : Nat) (lastError : Option ProxyError) {sent : Bool}
    (hlast : ∀ e ∈ lastError, e.isRejection = true → sent = true) :
    SendsFirst (client.attempts x body left attempt lastError) sent := by
  induction left generalizing attempt lastError sent with
  | zero =>
    refine ⟨trivial, fun _ hreject => ?_⟩
    rw [noteSend, show Op.isSend _ = false from rfl, Bool.or_false]
    have hreject := rejected_error.mp hreject
    cases lastError with
    | none => cases hreject
    | some e => exact hlast e rfl hreject
  | succ left ih =>
    have hwait : (client.backoff x attempt).Sat noteSend (fun _ _ => True)
        (fun _ sent' => sent' = sent) sent := by
      refine sat_frame (client.ops_backoff x attempt) (fun o ho r => ?_) fun _ _ => trivial
      have hsend : o.isSend = false := by
        cases o <;> first | rfl | cases ho
      rw [noteSend, hsend, Bool.or_false]
    unfold SendsFirst
    rw [MevRelayClient.attempts]
    refine hwait.bind fun _ sent' hsent' => ?_
    subst hsent'
    refine (sendsFirst_sendBundleAttempt client x body _).bind fun result sent' hresult => ?_
    cases result with
    | ok bundleHash => exact ⟨trivial, fun _ hreject => absurd hreject (not_rejected_ok _)⟩
    | error e =>
      show Sat _ _ _ (if RetryPolicy.shouldRetry e.display = true then _ else _) _
      split
      · refine ih (attempt + 1) (some e) fun e' he' hreject => hresult (rejected_error.mpr ?_)
        obtain rfl := Option.some.inj he'
        exact hreject
      · refine ⟨trivial, fun _ hreject => ?_⟩
        rw [noteSend, show Op.isSend _ = false from rfl, Bool.or_false]
        exact hresult hreject

/-- So it is the relay that rejects a bundle, and it has been sent it. -/
theorem sendBundle_rejected {client : MevRelayClient} {x : Externals} {bundle : Bundle}
    {tr : List OpEvent} {result : ProxyResult String}
    (h : Trace (client.sendBundle x bundle) tr (.pure result)) (hreject : Rejected result) :
    ∃ e ∈ tr, e.op.isSend = true := by
  have hsat : SendsFirst (client.sendBundle x bundle) false := by
    unfold SendsFirst MevRelayClient.sendBundle
    simp only [perform_bind, sat_op]
    refine ⟨trivial, fun ok => ?_⟩
    cases ok
    · intro hreject
      cases rejected_error.mp hreject
    · simp only [if_true]
      split
      · intro hreject
        cases rejected_error.mp hreject
      · exact sendsFirst_attempts client x _ _ 0 none (fun e he => by cases he)
  have hsent : tr.foldl noteSend false = true := hsat.rest h hreject
  rw [foldl_noteSend, Bool.false_or] at hsent
  exact List.any_eq_true.mp hsent

/-- A bundle that does not decode is rejected at once. -/
theorem handleSendBundle_rejected {client : MevRelayClient} {x : Externals}
    {request : JsonRpcRequest} {tr : List OpEvent} {result : ProxyResult String}
    (h : Trace (client.handleSendBundle x request) tr (.pure result)) (hreject : Rejected result) :
    (request.firstParam >>= Bundle.ofValue = none ∧ tr = []) ∨
    ((request.firstParam >>= Bundle.ofValue).isSome ∧ ∃ e ∈ tr, e.op.isSend = true) := by
  unfold MevRelayClient.handleSendBundle at h
  cases hparam : request.firstParam with
  | none =>
    rw [hparam] at h
    exact .inl ⟨rfl, (trace_pure h).1⟩
  | some bundleJson =>
    rw [hparam] at h
    dsimp only at h
    cases hbundle : Bundle.ofValue bundleJson with
    | none =>
      rw [hbundle] at h
      exact .inl ⟨hbundle, (trace_pure h).1⟩
    | some bundle =>
      rw [hbundle] at h
      refine .inr ⟨?_, sendBundle_rejected h hreject⟩
      rw [Option.bind_eq_bind, Option.bind_some, hbundle]
      rfl

-- ---------------------------------------------------------------------------
-- What the handlers reject
-- ---------------------------------------------------------------------------

/-- Operations that touch neither breaker nor budget, and send nothing. -/
def Op.isAside : Op → Bool
  | .checkConnLimit _ | .increment _ => true
  | _ => false

/-- The relay handler rejects no method that it passes on to Geth. -/
theorem dispatch_rejected {client : MevRelayClient} {x : Externals} {request : JsonRpcRequest}
    {tr : List OpEvent} {result : ProxyResult JsonRpcResponse}
    (h : Trace (client.dispatch x request) tr (.pure result)) (hreject : Rejected result) :
    (request.method = "eth_sendBundle" ∧ request.firstParam >>= Bundle.ofValue = none ∧ tr = []) ∨
    (request.method ∈ writeMethods ∧ (request.method = "eth_sendRawTransaction" ∨
      (request.firstParam >>= Bundle.ofValue).isSome) ∧ ∃ e ∈ tr, e.op.isSend = true) := by
  unfold MevRelayClient.dispatch at h
  split at h
  · next hmethod =>
    have hwrite : request.method ∈ writeMethods := by
      rw [hmethod]
      decide
    refine .inr ⟨hwrite, .inl hmethod, ?_⟩
    rcases h.of_andThen with ⟨blockResp, tr₁, tr₂, rfl, hask, -⟩ | ⟨e, rfl, hask⟩
    · exact ⟨_, List.mem_append_left _ (proxyToGeth_exchange hask).sent, rfl⟩
    · exact absurd hreject (proxyToGeth_exchange hask).not_rejected
  · split at h
    · next hmethod =>
      have hwrite : request.method ∈ writeMethods := by
        rw [hmethod]
        decide
      have hbundle : ∃ result' : ProxyResult String,
          Trace (client.handleSendBundle x request) tr (.pure result') ∧ Rejected result' := by
        rcases h.of_andThen with ⟨bundleHash, tr₁, tr₂, rfl, -, hrest⟩ | ⟨e, rfl, hsubmit⟩
        · obtain ⟨-, hr⟩ := trace_pure hrest
          rw [Prog.pure.inj hr] at hreject
          exact absurd hreject (not_rejected_ok _)
        · exact ⟨_, hsubmit, rejected_error.mpr (rejected_error.mp hreject)⟩
      obtain ⟨result', hsubmit, hreject'⟩ := hbundle
      rcases handleSendBundle_rejected hsubmit hreject' with ⟨hnone, rfl⟩ | ⟨hsome, hsent⟩
      · exact .inl ⟨hmethod, hnone, rfl⟩
      · exact .inr ⟨hwrite, .inr hsome, hsent⟩
    · exact absurd hreject (proxyToGeth_exchange h).not_rejected

/-- The standard handlers reject at the gates, and nothing but metrics is touched. -/
theorem gated_rejected {request : JsonRpcRequest}
    {forward : Handler (ProxyResult JsonRpcResponse)} {tr : List OpEvent}
    {result : ProxyResult JsonRpcResponse}
    (hforward : ∀ tr, Trace forward tr (.pure result) → ¬ Rejected result)
    (h : Trace (gated request forward) tr (.pure result)) (hreject : Rejected result) :
    ∀ e ∈ tr, e.op.isAside = true := by
  rcases gated_trace h with ⟨-, hpassed⟩ | ⟨-, hcounters, -⟩
  · rcases checked_trace hpassed with ⟨-, hrest⟩ | ⟨-, tr', -, hrest⟩ | ⟨-, -, rfl⟩
    · exact absurd hreject (hforward _ hrest)
    · exact absurd hreject (hforward _ hrest)
    · cases rejected_error.mp hreject
  · intro e he
    obtain ⟨counter, hop⟩ := hcounters e he
    rw [hop]
    rfl

/-- A request that the handler rejects has done nothing but what is aside: the limiter and
the counts. -/
theorem handleFlashbots_rejected {x : Externals} {request : JsonRpcRequest} {tr : List OpEvent}
    {result : ProxyResult JsonRpcResponse}
    (h : Trace (handleFlashbots x request) tr (.pure result)) (hreject : Rejected result) :
    ∀ e ∈ tr, e.op.isAside = true := by
  refine gated_rejected (fun tr hforward => ?_) h hreject
  split at hforward
  · rcases proxyToFlashbots_trace hforward with ⟨-, -, response, rfl, -⟩ | ⟨-, hexchange⟩
    · exact not_rejected_ok _
    · exact hexchange.not_rejected
  · exact (proxyToGeth_exchange hforward).not_rejected

/-- A handler behind the budget: a read comes to it as it is, a write is charged. -/
theorem charged_rejected {f : Handler (ProxyResult JsonRpcResponse)} {request : JsonRpcRequest}
    {known : Prop} {tr : List OpEvent} {result : ProxyResult JsonRpcResponse}
    (hf : ∀ tr, Trace f tr (.pure result) →
      (¬ known ∧ ∀ e ∈ tr, e.op.isAside = true) ∨
        (request.method ∈ writeMethods ∧ known ∧ ∃ e ∈ tr, e.op.isSend = true))
    (h : Trace ((checkWriteMethodRateLimit request.method).andThen fun _ => f) tr (.pure result))
    (hreject : Rejected result) :
    (request.method ∉ writeMethods ∧ ∀ e ∈ tr, e.op.isAside = true) ∨
    (request.method ∈ writeMethods ∧ ∃ tr', tr = ⟨.checkWriteLimit request.method, true⟩ :: tr' ∧
      ((¬ known ∧ ∀ e ∈ tr', e.op.isAside = true) ∨
        (known ∧ ∃ e ∈ tr', e.op.isSend = true))) := by
  rcases checked_trace h with ⟨hread, hrest⟩ | ⟨hwrite, tr', rfl, hrest⟩ | ⟨-, -, rfl⟩
  · rcases hf _ hrest with ⟨-, haside⟩ | ⟨hwrite, -⟩
    · exact .inl ⟨hread, haside⟩
    · exact absurd hwrite hread
  · rcases hf _ hrest with hquiet | ⟨-, hsent⟩
    · exact .inr ⟨hwrite, tr', rfl, .inl hquiet⟩
    · exact .inr ⟨hwrite, tr', rfl, .inr hsent⟩
  · cases rejected_error.mp hreject

/-- The relay handler charges a write, and whatever comes then. -/
theorem handleFlashbotsWithMev_rejected {x : Externals} {mevClient : Option MevRelayClient}
    {request : JsonRpcRequest} {tr : List OpEvent} {result : ProxyResult JsonRpcResponse}
    (h : Trace (handleFlashbotsWithMev x mevClient request) tr (.pure result))
    (hreject : Rejected result) :
    (request.method ∉ writeMethods ∧ ∀ e ∈ tr, e.op.isAside = true) ∨
    (request.method ∈ writeMethods ∧ ∃ tr', tr = ⟨.checkWriteLimit request.method, true⟩ :: tr' ∧
      ((¬ (mevClient.isSome ∧ (request.method = "eth_sendRawTransaction" ∨
          (request.firstParam >>= Bundle.ofValue).isSome)) ∧ ∀ e ∈ tr', e.op.isAside = true) ∨
        ((mevClient.isSome ∧ (request.method = "eth_sendRawTransaction" ∨
          (request.firstParam >>= Bundle.ofValue).isSome)) ∧ ∃ e ∈ tr', e.op.isSend = true))) := by
  cases mevClient with
  | none =>
    refine charged_rejected (f := handleFlashbots x request) (fun tr hrest => ?_) h hreject
    exact .inl ⟨fun hknown => Bool.false_ne_true hknown.1, handleFlashbots_rejected hrest hreject⟩
  | some client =>
    refine charged_rejected (f := client.dispatch x request) (fun tr hrest => ?_) h hreject
    rcases dispatch_rejected hrest hreject with ⟨hmethod, hnone, rfl⟩ | ⟨hwrite, hknown, hsent⟩
    · refine .inl ⟨?_, nofun⟩
      rintro ⟨-, hraw | hsome⟩
      · rw [hmethod] at hraw
        exact absurd hraw (by decide)
      · rw [hnone] at hsome
        cases hsome
    · exact .inr ⟨hwrite, ⟨rfl, hknown⟩, hsent⟩

/-- Where a rejected request has been when it is rejected. -/
theorem serve_rejected {d : Daemon} {a : Arrival} {tr : List OpEvent} {response : HttpResponse}
    (h : Trace (d.serve a) tr (.pure response)) (hreject : RejectedWith response) :
    (¬ ChargedFirst a ∧ ∀ e ∈ tr, e.op.isAside = true) ∨
    (ChargedFirst a ∧ ¬ Forwarded d a ∧
      (⟨.checkWriteLimit a.request.method, true⟩ : OpEvent) ∈ tr ∧
      ∀ e ∈ tr, e.op.isAside = true ∨ e = ⟨.checkWriteLimit a.request.method, true⟩) ∨
    (ChargedFirst a ∧ Forwarded d a ∧ ∃ e ∈ tr, e.op.isSend = true) := by
  rcases Daemon.serve_trace h with ⟨tr', result, rfl, hhandler, rfl⟩ | ⟨-, rfl⟩
  · have hreject := rejected_of_response hreject
    have hconn : ∀ {tr : List OpEvent}, (∀ e ∈ tr, e.op.isAside = true) → ∀ e ∈
        (⟨.checkConnLimit (getRequestIdentifier a.peer), true⟩ :: tr : List OpEvent),
        e.op.isAside = true := fun haside e he => by
      rcases List.mem_cons.mp he with rfl | he
      · rfl
      · exact haside e he
    rcases d.handler_cases a.route with ⟨hroute, heq⟩ | ⟨hroute, heq⟩ <;> rw [heq] at hhandler
    · have haside : ∀ e ∈ tr', e.op.isAside = true :=
        gated_rejected (fun _ hforward => (proxyToGeth_exchange hforward).not_rejected) hhandler
          hreject
      refine .inl ⟨?_, hconn haside⟩
      rcases hroute with hroute | hroute <;> simp [ChargedFirst, hroute]
    · rcases handleFlashbotsWithMev_rejected hhandler hreject with
        ⟨hread, haside⟩ | ⟨hwrite, tr'', rfl, ⟨hkept, haside⟩ | ⟨hknown, e, he, hsend⟩⟩
      · exact .inl ⟨fun hfirst => hread hfirst.2, hconn haside⟩
      · refine .inr (.inl ⟨⟨hroute, hwrite⟩, hkept, ?_, fun e he => ?_⟩)
        · exact List.mem_cons_of_mem _ List.mem_cons_self
        · rcases List.mem_cons.mp he with rfl | he
          · exact .inl rfl
          · rcases List.mem_cons.mp he with rfl | he
            · exact .inr rfl
            · exact .inl (haside e he)
      · exact .inr (.inr ⟨⟨hroute, hwrite⟩, hknown, e,
          List.mem_cons_of_mem _ (List.mem_cons_of_mem _ he), hsend⟩)
  · obtain ⟨e, he, -⟩ := hreject
    cases congrArg HttpResponse.body he

-- ---------------------------------------------------------------------------
-- What is left behind
-- ---------------------------------------------------------------------------

/-- Such an operation sends nothing, and leaves both breakers and the write buckets as they
are. -/
theorem quiet_of_aside {s s' : Shared} {o : Op} {r : Res o} (hexec : exec s o r s')
    (haside : o.isAside = true) : Quiet o s s' := by
  have hgeth := exec_circuit hexec .geth
  have hmev := exec_circuit hexec .mevRelay
  cases o with
  | checkConnLimit identifier =>
    exact ⟨rfl, hgeth, hmev, congrArg _ (exec_writeMethodLimiter hexec nofun)⟩
  | increment counter =>
    exact ⟨rfl, hgeth, hmev, congrArg _ (exec_writeMethodLimiter hexec nofun)⟩
  | _ => cases haside

/-- A charge that is let through can be seen in the bucket, unless the budget is idle. -/
theorem quiet_charge_iff {s s' : Shared} {method : String}
    (hexec : exec s (.checkWriteLimit method) true s') :
    Quiet (.checkWriteLimit method) s s' ↔ Idle s method := by
  have hgeth := exec_circuit hexec .geth
  have hmev := exec_circuit hexec .mevRelay
  obtain ⟨hok, hs'⟩ := exec_perform rfl hexec
  obtain ⟨hdecided, hwindow⟩ :=
    RateLimiter.checkRateLimit_refines s.now method s.writeMethodLimiter
  have hadmitted := hdecided.symm.trans hok
  have hafter : s'.writeMethodLimiter.window = _ := (congrArg (·.writeMethodLimiter.window)
    hs'.symm).trans hwindow
  unfold Quiet Idle
  rw [hafter, Function.update_eq_self_iff, charge_same_iff hadmitted]
  exact ⟨fun hquiet => hquiet.2.2.2, fun hidle => ⟨rfl, hgeth, hmev, hidle⟩⟩

/-- **Rejected requests.** A request that the daemon rejects leaves no trace if
and only if it was not charged first, or the charge changed nothing and no
upstream heard of it. -/
theorem rejected_traceless_iff (d : Daemon) {t : Nat} {ls : List d.system.Label}
    {c : d.system.Config} (h : d.RunFrom t ls c) {i : Nat} {a : Arrival} {response : HttpResponse}
    (ha : .spawn i a ∈ ls) (hdone : .done i response ∈ ls) (hreject : RejectedWith response) :
    (∀ m e m', StepIn (S := d.system) (d.initial t) ls c i m e m' →
      Quiet e.op m.shared m'.shared) ↔
    ¬ ChargedFirst a ∨ (¬ Forwarded d a ∧
      ∀ m e m', StepIn (S := d.system) (d.initial t) ls c i m e m' →
        e.op = .checkWriteLimit a.request.method → Idle m.shared a.request.method) := by
  have htr : Trace (d.serve a) (eventsOf i ls) (.pure response) := done_trace h ha hdone
  constructor
  · intro hquiet
    rcases serve_rejected htr hreject with
      ⟨hfirst, -⟩ | ⟨-, hkept, -, hall⟩ | ⟨-, -, e, he, hsend⟩
    · exact .inl hfirst
    · refine .inr ⟨hkept, fun m e m' hstep hop => ?_⟩
      rcases hall e hstep.mem with haside | rfl
      · rw [hop] at haside
        cases haside
      · have hq := hquiet m _ m' hstep
        obtain ⟨pre, post, -, -, hact, -⟩ := hstep
        exact (quiet_charge_iff hact.exec).mp hq
    · obtain ⟨m, m', hstep⟩ := stepIn_of_mem h he
      have hsilent := (hquiet m e m' hstep).1
      rw [hsend] at hsilent
      cases hsilent
  · intro hcond m e m' hstep
    have hmem := hstep.mem
    have hidle : e.op = .checkWriteLimit a.request.method → ChargedFirst a →
        Idle m.shared a.request.method := fun hop hfirst =>
      (hcond.resolve_left fun hnot => hnot hfirst).2 m e m' hstep hop
    obtain ⟨pre, post, -, -, hact, -⟩ := hstep
    have hexec : exec m.shared e.op e.res m'.shared := hact.exec
    rcases serve_rejected htr hreject with
      ⟨-, haside⟩ | ⟨hfirst, -, -, hall⟩ | ⟨hfirst, hforwarded, -⟩
    · exact quiet_of_aside hexec (haside e hmem)
    · rcases hall e hmem with haside | rfl
      · exact quiet_of_aside hexec haside
      · exact (quiet_charge_iff hexec).mpr (hidle rfl hfirst)
    · rcases hcond with hnot | ⟨hkept, -⟩
      · exact absurd hfirst hnot
      · exact absurd hforwarded hkept

/-- A bundle that is no JSON-RPC 2.0. -/
def oldVersion (route : Route) : Arrival :=
  ⟨route, ⟨"1.0", "eth_sendBundle", some (.array []), some (.nat 1)⟩, none, 0⟩

def versionError : HttpResponse :=
  (ProxyError.invalidRequest "Invalid jsonrpc version").intoResponse

/-- A wrong version is rejected, as an example. -/
theorem versionError_rejected : RejectedWith versionError := ⟨_, rfl, rfl⟩

/-- On `/rpc` such a request leaves no trace. -/
theorem rejected_traceless_rpc : ∃ ls c, plainDaemon.RunFrom 0 ls c ∧
    .spawn 0 (oldVersion .rpc) ∈ ls ∧ .done 0 versionError ∈ ls ∧
    ∀ m e m', StepIn (S := plainDaemon.system) (plainDaemon.initial 0) ls c 0 m e m' →
      Quiet e.op m.shared m'.shared := by
  have hperf : Performs exec (plainDaemon.serve (oldVersion .rpc)) (plainDaemon.initial 0)
      [⟨.checkConnLimit "unknown", true⟩] (.pure versionError)
      (plainDaemon.admitted 0 "unknown") :=
    .cons (plainDaemon.exec_first_conn 0 "unknown") (.nil _ _)
  obtain ⟨ls, c, hrun, hspawn, hdone, -⟩ := Daemon.run_alone_done rfl hperf
  refine ⟨ls, c, hrun, hspawn, hdone, ?_⟩
  refine (rejected_traceless_iff plainDaemon hrun hspawn hdone versionError_rejected).mpr (.inl ?_)
  rintro ⟨hroute | hroute, -⟩ <;> cases hroute

/-- On `/rpc/flashbots` it takes one of the writes that are left. -/
theorem rejected_write_charged : ∃ ls c m e m', plainDaemon.RunFrom 0 ls c ∧
    .spawn 0 (oldVersion .flashbots) ∈ ls ∧ .done 0 versionError ∈ ls ∧
    StepIn (S := plainDaemon.system) (plainDaemon.initial 0) ls c 0 m e m' ∧
    ¬ Quiet e.op m.shared m'.shared := by
  obtain ⟨k, hperf, hk⟩ : ∃ k : Bool → Handler HttpResponse,
      Performs exec (plainDaemon.serve (oldVersion .flashbots)) (plainDaemon.initial 0)
        [⟨.checkConnLimit "unknown", true⟩] (.op (.checkWriteLimit "eth_sendBundle") k)
        (plainDaemon.admitted 0 "unknown") ∧ k true = .pure versionError :=
    ⟨_, .cons (plainDaemon.exec_first_conn 0 "unknown") (.nil _ _), rfl⟩
  have hjob : plainDaemon.system.accepts (plainDaemon.initial 0) (oldVersion .flashbots) := rfl
  have hconn := System.run_alone hjob hperf
  let charged : Shared := { plainDaemon.admitted 0 "unknown" with
    writeMethodLimiter :=
      ((RateLimiter.new plainDaemon.writeLimit).checkRateLimit 0 "eth_sendBundle").2 }
  have hexec : exec (plainDaemon.admitted 0 "unknown") (.checkWriteLimit "eth_sendBundle") true
      charged := rfl
  let thread (rest : Handler HttpResponse) : Nat → Option plainDaemon.system.Thread :=
    Function.update (fun _ => none) 0 (some ⟨oldVersion .flashbots, rest⟩)
  have hcheck := Step.act (S := plainDaemon.system)
    ⟨plainDaemon.admitted 0 "unknown", thread (.op (.checkWriteLimit "eth_sendBundle") k), 1⟩ 0
    (oldVersion .flashbots) (.checkWriteLimit "eth_sendBundle") k true charged rfl hexec
  rw [hk] at hcheck
  have hdone := Step.done (S := plainDaemon.system) ⟨charged, Function.update
    (thread (.op (.checkWriteLimit "eth_sendBundle") k)) 0
    (some ⟨oldVersion .flashbots, .pure versionError⟩), 1⟩ 0 _ versionError rfl
  refine ⟨_, _, _, _, _, (hconn.snoc hcheck).snoc hdone, List.mem_cons_self,
    List.mem_append_right _ List.mem_cons_self,
    ⟨_, _, List.append_assoc _ [_] [_], hconn, hcheck, .single hdone⟩, fun hquiet => ?_⟩
  have hidle := (quiet_charge_iff hexec).mp hquiet
  cases hidle.2

end Torpc
