import Torpc.Model.PublicRouter
import Torpc.Model.Submission

/-!
# Where an answer comes from

A wallet acts on what it is told, so the daemon must not tell it of a success
that there was not. Whatever the interleaving, a JSON-RPC answer with status 200
is what Geth answered to this very request, or says the bundle hash that the relay
named for a POST of this request, or is the daemon's own error that it has no
relay for bundles; and one with any other status carries no result, be it a
refusal of the handler or the word of the middleware that the time was up
(`answer_provenance`). The evidence is among the request's own events.
-/

namespace Torpc

open Effects Prog System Lts

/-- The evidence for the body of an answer, in the events of its request. -/
inductive Origin (d : Daemon) (request : JsonRpcRequest) (tr : List OpEvent)
    (body : JsonRpcResponse) : Prop where
  /-- Geth was sent the request, and the body is what it answered -/
  | geth (status : Nat) (v : Value) (sent : ⟨.sendToGeth request, ()⟩ ∈ tr)
      (replied : ⟨.gethReply, .ok status⟩ ∈ tr) (hstatus : isSuccess status = true)
      (read : ⟨.gethJson, .ok v⟩ ∈ tr) (hv : JsonRpcResponse.ofValue v = some body)
  /-- a bundle was posted for the request, and the relay gave it a hash -/
  | relay (text signature : String) (status : Nat) (answer : Except String String)
      (bundleHash : String) (posted : ⟨.sendToRelay text signature, ()⟩ ∈ tr)
      (replied : ⟨.relayReply, .ok status⟩ ∈ tr) (hstatus : isSuccess status = true)
      (read : ⟨.relayText, answer⟩ ∈ tr)
      (hhash : parseBundleResponse d.externals (readText answer) = .ok bundleHash)
      (hid : body.id = request.id) (herror : body.error = none)
      (hresult : body.result = some (if request.method = "eth_sendRawTransaction" then
        .string bundleHash else .object [("bundleHash", .string bundleHash)]))
  /-- a bundle, and the daemon has no relay -/
  | noRelay (hnone : d.mevClient = none) (hmethod : request.method = "eth_sendBundle")
      (hid : body.id = request.id) (hresult : body.result = none)
      (herror : body.error.isSome = true)

variable {d : Daemon} {request : JsonRpcRequest} {tr tr' : List OpEvent} {body : JsonRpcResponse}

/-- What a body comes from stays where it is in a longer trace. -/
theorem Origin.mono (h : Origin d request tr body) (hsub : ∀ e ∈ tr, e ∈ tr') :
    Origin d request tr' body := by
  cases h with
  | geth status v sent replied hstatus read hv =>
    exact .geth status v (hsub _ sent) (hsub _ replied) hstatus (hsub _ read) hv
  | relay text signature status answer bundleHash posted replied hstatus read hhash hid herror
      hresult =>
    exact .relay text signature status answer bundleHash (hsub _ posted) (hsub _ replied) hstatus
      (hsub _ read) hhash hid herror hresult
  | noRelay hnone hmethod hid hresult herror => exact .noRelay hnone hmethod hid hresult herror

-- ---------------------------------------------------------------------------
-- From the exchange to the answer
-- ---------------------------------------------------------------------------

/-- What is a success of `proxy_to_geth` is what Geth has answered, with a 2xx status and a
body that decodes. -/
theorem origin_of_exchange (h : Exchange d.externals request tr (.ok body)) :
    Origin d request tr body := by
  generalize hresult : (Except.ok body : ProxyResult JsonRpcResponse) = result at h
  cases h with
  | circuitOpen => cases hresult
  | noReply e => cases hresult
  | errorStatus status text hs => cases hresult
  | badBody status e hs => cases hresult
  | body status v hs =>
    unfold gethOutcome at hresult
    cases hv : JsonRpcResponse.ofValue v with
    | none =>
      rw [hv] at hresult
      cases hresult
    | some response =>
      rw [hv] at hresult
      obtain rfl := Except.ok.inj hresult
      exact .geth status v (by simp) (by simp) hs (by simp) hv

/-- The write budget adds nothing to a success. -/
theorem origin_of_checked {f : Handler (ProxyResult JsonRpcResponse)}
    (hf : ∀ tr, Trace f tr (.pure (.ok body)) → Origin d request tr body)
    (h : Trace ((checkWriteMethodRateLimit request.method).andThen fun _ => f) tr
      (.pure (.ok body))) : Origin d request tr body := by
  rcases checked_trace h with ⟨-, hrest⟩ | ⟨-, tr₁, rfl, hrest⟩ | ⟨-, -, he⟩
  · exact hf tr hrest
  · exact (hf tr₁ hrest).mono fun e he => List.mem_cons_of_mem _ he
  · cases he

/-- A handler behind the gates answers from where the guarded one does, since the gates
themselves answer with errors only. -/
theorem origin_of_gated {forward : Handler (ProxyResult JsonRpcResponse)}
    (hforward : ∀ tr, Trace forward tr (.pure (.ok body)) → Origin d request tr body)
    (h : Trace (gated request forward) tr (.pure (.ok body))) : Origin d request tr body := by
  rcases gated_trace h with ⟨-, hpassed⟩ | ⟨-, -, e, he⟩
  · exact origin_of_checked hforward hpassed
  · cases he

/-- What `/rpc` answers comes from Geth, unless it is an error of the daemon. -/
theorem origin_of_handleRpc (h : Trace (handleRpc d.externals request) tr (.pure (.ok body))) :
    Origin d request tr body :=
  origin_of_gated (fun _ h => origin_of_exchange (proxyToGeth_exchange h)) h

/-- Without a key `/rpc/flashbots` answers a bundle itself, and everything else as Geth
does. -/
theorem origin_of_handleFlashbots (hnone : d.mevClient = none)
    (h : Trace (handleFlashbots d.externals request) tr (.pure (.ok body))) :
    Origin d request tr body := by
  refine origin_of_gated (fun tr h => ?_) h
  split at h
  · unfold proxyToFlashbots at h
    split at h
    · next hmethod =>
      obtain ⟨rfl, hr⟩ := trace_pure h
      obtain rfl := Except.ok.inj (Prog.pure.inj hr)
      exact .noRelay hnone hmethod rfl rfl rfl
    · exact origin_of_exchange (proxyToGeth_exchange h)
  · exact origin_of_exchange (proxyToGeth_exchange h)

/-- What the relay has accepted. -/
structure Accepted (x : Externals) (tr : List OpEvent) (bundleHash : String) : Prop where
  evidence : ∃ text signature status answer, ⟨.sendToRelay text signature, ()⟩ ∈ tr ∧
    ⟨.relayReply, .ok status⟩ ∈ tr ∧ isSuccess status = true ∧ ⟨.relayText, answer⟩ ∈ tr ∧
    parseBundleResponse x (readText answer) = .ok bundleHash

/-- A reply that accepts a bundle is still there in a longer trace. -/
theorem Accepted.mono {x : Externals} {bundleHash : String} (h : Accepted x tr bundleHash)
    (hsub : ∀ e ∈ tr, e ∈ tr') : Accepted x tr' bundleHash := by
  obtain ⟨text, signature, status, answer, hpost, hreply, hs, hread, hhash⟩ := h.evidence
  exact ⟨text, signature, status, answer, hsub _ hpost, hsub _ hreply, hs, hsub _ hread, hhash⟩

/-- A call that ends well ends with an attempt that the relay has answered with a hash. -/
theorem Submission.accepted_of_ok {x : Externals} {text signature : String} {left : Nat}
    {rs : List Reply} {bundleHash : String}
    (h : Submission x text signature left tr rs (.ok bundleHash)) : Accepted x tr bundleHash := by
  generalize hresult : (Except.ok bundleHash : ProxyResult String) = result at h
  induction h with
  | @accepted left pause tr r hash hpause hattempt hr =>
    obtain rfl := Except.ok.inj hresult
    cases hattempt with
    | lost e => cases hr
    | received status answer =>
      unfold Reply.result at hr
      by_cases hs : isSuccess status = true
      · simp only [hs, if_true] at hr
        exact ⟨text, signature, status, answer, by simp, by simp, hs, by simp, hr⟩
      · simp [hs] at hr
  | failed => cases hresult
  | @retried left pause tr rest r e rs result hpause hattempt hr hretry hrest ih =>
    exact (ih hresult).mono fun e he =>
      List.mem_append_right _ (List.mem_append_right _ he)

/-- Without a signature no attempt ends well. -/
theorem MevRelayClient.attempts_unsigned {client : MevRelayClient} {x : Externals}
    {text bundleHash e : String} (hsign : client.signRequest text = .error e) {left attempt : Nat}
    {lastError : Option ProxyError} :
    ¬ Trace (client.attempts x text left attempt lastError) tr (.pure (.ok bundleHash)) := by
  induction left generalizing attempt lastError tr with
  | zero =>
    intro h
    cases h with
    | cons h => cases (trace_pure h).2
  | succ left ih =>
    intro h
    rw [attempts] at h
    obtain ⟨_, pause, tr, rfl, -, h⟩ := h.of_bind
    obtain ⟨result, attempted, rest, rfl, hattempt, h⟩ := h.of_bind
    unfold sendBundleAttempt at hattempt
    rw [hsign] at hattempt
    obtain rfl := Prog.pure.inj (trace_pure hattempt).2
    by_cases hretry : RetryPolicy.shouldRetry
        (ProxyError.internalError ("Failed to sign request: " ++ e)).display = true
    · simp only [hretry, if_true] at h
      exact ih h
    · simp only [hretry] at h
      cases h with
      | cons h => cases (trace_pure h).2

/-- A bundle hash that is handed back stands in a reply of the relay that accepts the
bundle. -/
theorem MevRelayClient.accepted_of_sendBundle {client : MevRelayClient} {x : Externals}
    {bundle : Bundle} {bundleHash : String}
    (h : Trace (client.sendBundle x bundle) tr (.pure (.ok bundleHash))) :
    Accepted x tr bundleHash := by
  unfold sendBundle at h
  cases h with
  | @cons _ _ ok tr₁ _ h =>
  cases ok with
  | false => cases (trace_pure h).2
  | true =>
    cases hencode : x.encodeJson (SendBundleRequest.new bundle 1).toValue with
    | error e =>
      simp only [hencode] at h
      cases (trace_pure h).2
    | ok text =>
      simp only [hencode] at h
      cases hsign : client.signRequest text with
      | error e => exact absurd h (client.attempts_unsigned hsign)
      | ok signature =>
        cases hmax : client.retryPolicy.maxAttempts with
        | zero =>
          rw [hmax] at h
          cases h with
          | cons h => cases (trace_pure h).2
        | succ left =>
          rw [hmax] at h
          have h : Trace (client.attempts x text (left + 1) 0 none) tr₁
              (.pure (.ok bundleHash)) := h
          obtain ⟨rs, hloop⟩ := client.attempts_trace hsign h
          exact hloop.accepted_of_ok.mono fun e he => List.mem_cons_of_mem _ he

/-- So does the one that a transaction is answered with. -/
theorem MevRelayClient.accepted_of_handleSendRawTransaction {client : MevRelayClient}
    {x : Externals} {currentBlock : UInt64} {bundleHash : String}
    (h : Trace (client.handleSendRawTransaction x request currentBlock) tr
      (.pure (.ok bundleHash))) : Accepted x tr bundleHash := by
  unfold handleSendRawTransaction at h
  split at h
  · cases (trace_pure h).2
  · split at h
    · -- a panic never returns
      cases h with
      | @cons _ _ never _ _ h => exact nomatch never
    · exact client.accepted_of_sendBundle h

/-- And the one that a bundle is answered with. -/
theorem MevRelayClient.accepted_of_handleSendBundle {client : MevRelayClient}
    {x : Externals} {bundleHash : String}
    (h : Trace (client.handleSendBundle x request) tr (.pure (.ok bundleHash))) :
    Accepted x tr bundleHash := by
  unfold handleSendBundle at h
  split at h
  · cases (trace_pure h).2
  · split at h
    · cases (trace_pure h).2
    · exact client.accepted_of_sendBundle h

/-- The hash in the answer is the one the relay has named. -/
theorem Accepted.origin {bundleHash : String} (h : Accepted d.externals tr bundleHash)
    (hid : body.id = request.id) (herror : body.error = none)
    (hresult : body.result = some (if request.method = "eth_sendRawTransaction" then
      .string bundleHash else .object [("bundleHash", .string bundleHash)])) :
    Origin d request tr body := by
  obtain ⟨text, signature, status, answer, hpost, hreply, hs, hread, hhash⟩ := h.evidence
  exact .relay text signature status answer bundleHash hpost hreply hs hread hhash hid herror
    hresult

/-- What the relay's client answers comes from the relay for a write, and from Geth for
anything else. -/
theorem MevRelayClient.origin_of_dispatch {client : MevRelayClient}
    (h : Trace (client.dispatch d.externals request) tr (.pure (.ok body))) :
    Origin d request tr body := by
  unfold dispatch at h
  split at h
  · next hmethod =>
    unfold submitTransaction at h
    rcases h.of_andThen with ⟨blockResp, tr₁, tr₂, rfl, -, h⟩ | ⟨e, he, -⟩
    · cases hblock : currentBlockOf blockResp with
      | error e =>
        rw [hblock] at h
        cases (trace_pure h).2
      | ok currentBlock =>
        rw [hblock] at h
        rcases h.of_andThen with ⟨bundleHash, tr₃, tr₄, rfl, hsend, h⟩ | ⟨e, he, -⟩
        · obtain ⟨rfl, hr⟩ := trace_pure h
          obtain rfl := Except.ok.inj (Prog.pure.inj hr)
          have haccepted : Accepted d.externals (tr₁ ++ (tr₃ ++ [])) bundleHash :=
            (client.accepted_of_handleSendRawTransaction hsend).mono fun e he => by simp [he]
          exact haccepted.origin rfl rfl (by rw [if_pos hmethod])
        · cases he
    · cases he
  · next hraw =>
    split at h
    · unfold submitBundle at h
      rcases h.of_andThen with ⟨bundleHash, tr₁, tr₂, rfl, hsend, h⟩ | ⟨e, he, -⟩
      · obtain ⟨rfl, hr⟩ := trace_pure h
        obtain rfl := Except.ok.inj (Prog.pure.inj hr)
        rw [List.append_nil]
        exact (client.accepted_of_handleSendBundle hsend).origin rfl rfl (by rw [if_neg hraw])
      · cases he
    · exact origin_of_exchange (proxyToGeth_exchange h)

/-- What the handler with a relay answers comes from one of the two upstreams. -/
theorem origin_of_handleFlashbotsWithMev
    (h : Trace (handleFlashbotsWithMev d.externals d.mevClient request) tr (.pure (.ok body))) :
    Origin d request tr body := by
  unfold handleFlashbotsWithMev at h
  cases hclient : d.mevClient with
  | some client =>
    rw [hclient] at h
    exact origin_of_checked (fun _ h => client.origin_of_dispatch h) h
  | none =>
    rw [hclient] at h
    exact origin_of_checked (fun _ h => origin_of_handleFlashbots hclient h) h

-- ---------------------------------------------------------------------------
-- The answer
-- ---------------------------------------------------------------------------

/-- Only a JSON-RPC handler answers with a body. -/
theorem Daemon.body_none_of_other {files : StaticFiles} {v : PublicRequest} (hv : v.arrival = none)
    {response : HttpResponse} (h : Trace (d.respond files v) tr (.pure response)) :
    response.body = none := by
  have hlimited : ∀ status, Trace (rateLimitMiddleware v.peer (return ⟨status, none⟩)) tr
      (.pure response) → response.body = none := by
    intro status h
    unfold rateLimitMiddleware at h
    cases h with
    | @cons _ _ ok _ _ h =>
    cases ok <;> exact (Prog.pure.inj (trace_pure h).2) ▸ rfl
  unfold respond at h
  split at h
  · next e hroute =>
    cases e with
    | serveRoot => exact hlimited 200 h
    | jsonRpc route =>
      dsimp only [endpoint] at h
      cases hbody : v.body with
      | error status =>
        rw [hbody] at h
        exact hlimited status h
      | ok request => simp [PublicRequest.arrival, hroute, hbody] at hv
  · exact hlimited 405 h
  · exact (Prog.pure.inj (trace_pure h).2) ▸ rfl

/-- What the daemon says when it does not say 200: an error without a result, that
names no request. -/
structure Refusal (response : HttpResponse) (body : JsonRpcResponse) : Prop where
  status : response.status ∈ [400, 405, 429, 500]
  result : body.result = none
  error : body.error.isSome = true
  id : body.id = none

/-- The body of an error is a refusal with the error's own code. -/
theorem refusal_intoResponse (e : ProxyError) (hbody : e.intoResponse.body = some body) :
    Refusal e.intoResponse body := by
  obtain rfl := Option.some.inj hbody
  refine ⟨?_, rfl, rfl, rfl⟩
  unfold ProxyError.intoResponse
  split <;> simp

/-- On every route, a body with status 200 comes from an upstream. -/
theorem origin_of_handler {route : Route}
    (h : Trace (d.handler route request) tr (.pure (.ok body))) : Origin d request tr body := by
  rcases d.handler_cases route with ⟨-, hroute⟩ | ⟨-, hroute⟩ <;> rw [hroute] at h
  · exact origin_of_handleRpc h
  · exact origin_of_handleFlashbotsWithMev h

/-- What a handler answers has its origin among the events of its request, or is a
refusal. -/
theorem origin_of_done {files : StaticFiles} {t : Nat} {ls : List (d.publicSystem files).Label}
    {c : (d.publicSystem files).Config} (hrun : d.PublicRun files t ls c) {i : Nat}
    {v : PublicRequest} (hspawn : .spawn i v ∈ ls) {response : HttpResponse}
    (hdone : .done i response ∈ ls) (hbody : response.body = some body) :
    ∃ a, v.arrival = some a ∧
      (response.status = 200 ∧ Origin d a.request (System.eventsOf i ls) body ∨
        Refusal response body) := by
  have htr : Trace (d.respond files v) (System.eventsOf i ls) (.pure response) :=
    System.done_trace hrun hspawn hdone
  cases hv : v.arrival with
  | none =>
    rw [d.body_none_of_other hv htr] at hbody
    cases hbody
  | some a =>
    refine ⟨a, rfl, ?_⟩
    rw [Daemon.respond_eq_serve hv] at htr
    rcases Daemon.serve_trace htr with ⟨tr', result, heq, hhandler, rfl⟩ | ⟨-, rfl⟩
    · cases result with
      | ok response =>
        obtain rfl := Option.some.inj hbody
        refine .inl ⟨rfl, (origin_of_handler hhandler).mono fun e he => ?_⟩
        rw [heq]
        exact List.mem_cons_of_mem _ he
      | error e => exact .inr (refusal_intoResponse e hbody)
    · cases hbody

/-- In every run, whatever else is going on: an answer with a JSON-RPC body says that
the time of its request was up, or it is to a request that a handler took, and has
its origin among that request's events or is a refusal. -/
theorem answer_provenance {files : StaticFiles} {t : Nat} {ls : List (d.publicSystem files).Label}
    {c : (d.publicSystem files).Config} (hrun : d.PublicRun files t ls c) {i : Nat}
    {v : PublicRequest} (hspawn : .spawn i v ∈ ls) {response : HttpResponse}
    (hsaid : .done i response ∈ ls ∨ .cancel i ∈ ls ∧ response = Daemon.timeoutResponse)
    (hbody : response.body = some body) :
    (.cancel i ∈ ls ∧ response.status = 504 ∧
        body = .mkError none (-32001) "upstream timeout" none) ∨
      ∃ a, v.arrival = some a ∧
        (response.status = 200 ∧ Origin d a.request (System.eventsOf i ls) body ∨
          Refusal response body) := by
  rcases hsaid with hdone | ⟨hcancel, rfl⟩
  · exact .inr (origin_of_done hrun hspawn hdone hbody)
  · exact .inl ⟨hcancel, rfl, (Option.some.inj hbody).symm⟩

/-- The answer to a wallet that asks for the chain. -/
theorem answer_provenance_chainId : ∃ ls c a, ∃ response : HttpResponse, ∃ body,
    plainDaemon.PublicRun (fun _ _ => 404) 0 ls c ∧ .done 0 response ∈ ls ∧
    response.status = 200 ∧ response.body = some body ∧ chainIdQuery.arrival = some a ∧
    Origin plainDaemon a.request (System.eventsOf 0 ls) body := by
  let files : StaticFiles := fun _ _ => 404
  have hjob : (plainDaemon.publicSystem files).accepts (plainDaemon.initial 0) chainIdQuery := rfl
  obtain ⟨c, hrun, -⟩ := System.run_served (S := plainDaemon.publicSystem files)
    (c := (plainDaemon.publicSystem files).start (plainDaemon.initial 0)) hjob
    (performs_chainIdExchange files)
  rcases answer_provenance hrun (i := 0) (v := chainIdQuery) List.mem_cons_self
    (.inl (List.mem_append_right _ List.mem_cons_self)) rfl with
    ⟨-, h504, -⟩ | ⟨a, ha, ⟨h200, horigin⟩ | hrefusal⟩
  · cases h504
  · exact ⟨_, c, a, _, _, hrun, List.mem_append_right _ List.mem_cons_self, h200, rfl, ha, horigin⟩
  · have hstatus := hrefusal.status
    simp at hstatus

end Torpc
