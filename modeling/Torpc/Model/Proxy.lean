import Torpc.Model.Daemon

/-!
# The standard handlers

`proxy.rs`: the two handlers that serve requests when no relay is configured,
the forwarding to Geth behind its circuit breaker, and the budget for write
methods. The handlers share their first half, `gated`: validation, the
allow-list, then the write budget.
-/

namespace Torpc

open Effects Prog

/-- Methods that submit transactions. -/
def writeMethods : List String := ["eth_sendRawTransaction", "eth_sendBundle"]

def checkWriteMethodRateLimit (method : String) : Handler (ProxyResult Unit) := do
  if !writeMethods.contains method then return .ok ()
  else if ← call (.checkWriteLimit method) then return .ok ()
  else
    call (.increment .rateLimitHits)
    return .error .rateLimitExceeded

/-- `StatusCode::is_success`. -/
def isSuccess (status : Nat) : Bool := 200 ≤ status && status < 300

/-- `StatusCode::is_server_error`. -/
def isServerError (status : Nat) : Bool := 500 ≤ status && status < 600

/-- The end of `proxy_to_geth`, from a 2xx status on: the body has to be a
response object, and only then does the breaker learn of a success. -/
def readGethResponse (x : Externals) : Handler (ProxyResult JsonRpcResponse) := do
  let fail (e : String) : Handler (ProxyResult JsonRpcResponse) := do
    call (.recordFailure .geth)
    return .error (.upstreamError ("Failed to parse response: " ++ e))
  let body : Except String Value ← call .gethJson
  match body with
  | .error e => fail e
  | .ok v =>
    match JsonRpcResponse.ofValue v with
    | none => fail (x.responseError v)
    | some response => do
      call (.recordSuccess .geth)
      return .ok response

/-- The middle of `proxy_to_geth`, once the request is on the wire. -/
def awaitGeth (x : Externals) : Handler (ProxyResult JsonRpcResponse) := do
  let reply : Except String Nat ← call .gethReply
  match reply with
  | .error _ => do
    call (.recordFailure .geth)
    return .error (.upstreamError "upstream unavailable")
  | .ok status =>
    if isSuccess status then readGethResponse x
    else
      -- the body is read to be logged, and only logged
      let _ ← call .gethText
      if isServerError status then
        call (.recordFailure .geth)
        return .error (.upstreamError ("upstream returned status " ++ toString status))
      else return .error (.upstreamError ("upstream returned status " ++ toString status))

/-- Forward a request to Geth, gated by its circuit breaker. -/
def proxyToGeth (x : Externals) (request : JsonRpcRequest) :
    Handler (ProxyResult JsonRpcResponse) := do
  if ← call (.canProceed .geth) then
    call (.sendToGeth request)
    awaitGeth x
  else return .error (.upstreamError
    "Upstream Ethereum node temporarily unavailable (circuit breaker open)")

/-- Bundles cannot be authenticated without a signing key; everything else goes
to Geth. -/
def proxyToFlashbots (x : Externals) (request : JsonRpcRequest) :
    Handler (ProxyResult JsonRpcResponse) := do
  if request.method = "eth_sendBundle" then
    return .ok (.mkError request.id (-32004)
      "MEV protection not configured: set FLASHBOTS_SIGNING_KEY to enable bundle submission" none)
  else proxyToGeth x request

/-- What `handle_rpc` and `handle_flashbots` do before they forward. -/
def gated (request : JsonRpcRequest) (forward : Handler (ProxyResult JsonRpcResponse)) :
    Handler (ProxyResult JsonRpcResponse) := do
  match request.validate with
  | .error e => return .error (.invalidRequest e)
  | .ok () =>
    if !isMethodAllowed request.method then
      call (.increment .invalidMethods)
      call (.increment .blockedRequests)
      return .error (.methodNotAllowed request.method)
    else (checkWriteMethodRateLimit request.method).andThen fun _ => forward

def handleRpc (x : Externals) (request : JsonRpcRequest) :
    Handler (ProxyResult JsonRpcResponse) :=
  gated request (proxyToGeth x request)

def handleFlashbots (x : Externals) (request : JsonRpcRequest) :
    Handler (ProxyResult JsonRpcResponse) :=
  gated request <|
    if request.method = "eth_sendRawTransaction" ∨ request.method = "eth_sendBundle" then
      proxyToFlashbots x request
    else proxyToGeth x request

-- ---------------------------------------------------------------------------
-- The operations of each part
-- ---------------------------------------------------------------------------

/-- An operation that puts a message on the wire to an upstream. -/
def Op.isSend : Op → Bool
  | .sendToGeth _ | .sendToRelay _ _ => true
  | _ => false

/-- The check of the write budget asks the limiter, and counts a refusal; a method that is
no write costs nothing. -/
theorem ops_checkWriteMethodRateLimit {P : Op → Prop} {method : String}
    (hcheck : P (.checkWriteLimit method)) (hinc : P (.increment .rateLimitHits)) :
    (checkWriteMethodRateLimit method).Ops P := by
  unfold checkWriteMethodRateLimit
  split
  · trivial
  · refine ⟨hcheck, fun ok => ?_⟩
    cases ok
    · exact ⟨hinc, fun _ => trivial⟩
    · trivial

/-- For a write method the check is a question to the limiter, and a count if the answer is
no. -/
theorem checkWrite_eq {method : String} (hmethod : method ∈ writeMethods) :
    checkWriteMethodRateLimit method = .op (.checkWriteLimit method) fun ok =>
      if ok then .pure (.ok ())
      else .op (.increment .rateLimitHits) fun _ => .pure (.error .rateLimitExceeded) := by
  unfold checkWriteMethodRateLimit
  have hcontains : writeMethods.contains method = true := List.contains_iff_mem.mpr hmethod
  rw [hcontains]
  rfl

/-- Operations by which the daemon learns how the exchange with Geth went. -/
def Op.isGethOutcome : Op → Bool
  | .gethReply | .gethText | .gethJson | .recordSuccess .geth | .recordFailure .geth => true
  | _ => false

/-- Reading a reply performs nothing but the reading and the record of how it went. -/
theorem ops_readGethResponse (x : Externals) :
    (readGethResponse x).Ops fun o => o.isGethOutcome = true := by
  simp only [readGethResponse, perform_bind, ops_op]
  refine ⟨rfl, fun body => ?_⟩
  cases body with
  | error e => exact ⟨rfl, fun _ => trivial⟩
  | ok v =>
    simp only []
    split <;> exact ⟨rfl, fun _ => trivial⟩

/-- So with all that comes after the call of Geth has been sent. -/
theorem ops_awaitGeth (x : Externals) :
    (awaitGeth x).Ops fun o => o.isGethOutcome = true := by
  simp only [awaitGeth, perform_bind, ops_op]
  refine ⟨rfl, fun reply => ?_⟩
  cases reply with
  | error e => exact ⟨rfl, fun _ => trivial⟩
  | ok status =>
    simp only []
    split
    · exact ops_readGethResponse x
    · refine ⟨rfl, fun _ => ?_⟩
      split
      · exact ⟨rfl, fun _ => trivial⟩
      · trivial

/-- `proxy_to_geth` asks the breaker, sends this request and learns the outcome. -/
theorem ops_proxyToGeth {P : Op → Prop} (x : Externals) (request : JsonRpcRequest)
    (hcan : P (.canProceed .geth)) (hsend : P (.sendToGeth request))
    (hout : ∀ o, Op.isGethOutcome o = true → P o) : (proxyToGeth x request).Ops P := by
  refine ⟨hcan, fun ok => ?_⟩
  cases ok
  · trivial
  · exact ⟨hsend, fun _ => (ops_awaitGeth x).mono hout⟩

/-- The gates come first: what is forwarded comes from a request that passed
them, and a request that does not pass them only touches metrics. -/
theorem ops_gated {P : Op → Prop} {request : JsonRpcRequest}
    {forward : Handler (ProxyResult JsonRpcResponse)} (hinc : ∀ c, P (.increment c))
    (hcheck : request.passesGates = true → P (.checkWriteLimit request.method))
    (hforward : request.passesGates = true → forward.Ops P) : (gated request forward).Ops P := by
  unfold gated
  cases hv : request.validate with
  | error e => trivial
  | ok u =>
    simp only []
    by_cases ha : isMethodAllowed request.method = true
    · have hpass : request.passesGates = true :=
        JsonRpcRequest.passesGates_iff.mpr ⟨hv, ha⟩
      rw [ha]
      exact (ops_checkWriteMethodRateLimit (hcheck hpass) (hinc _)).andThen
        fun _ => hforward hpass
    · rw [Bool.eq_false_iff.mpr ha]
      exact ⟨hinc _, fun _ => ⟨hinc _, fun _ => trivial⟩⟩

-- ---------------------------------------------------------------------------
-- The exchange with Geth
-- ---------------------------------------------------------------------------

/-- The outcome of a 2xx reply with this body. -/
def gethOutcome (x : Externals) (body : Value) : ProxyResult JsonRpcResponse :=
  match JsonRpcResponse.ofValue body with
  | none => .error (.upstreamError ("Failed to parse response: " ++ x.responseError body))
  | some response => .ok response

/-- Everything a completed `proxy_to_geth` can have done. -/
inductive Exchange (x : Externals) (request : JsonRpcRequest) :
    List OpEvent → ProxyResult JsonRpcResponse → Prop where
  | circuitOpen : Exchange x request [⟨.canProceed .geth, false⟩] (.error (.upstreamError
      "Upstream Ethereum node temporarily unavailable (circuit breaker open)"))
  | noReply (e : String) : Exchange x request
      [⟨.canProceed .geth, true⟩, ⟨.sendToGeth request, ()⟩, ⟨.gethReply, .error e⟩,
        ⟨.recordFailure .geth, ()⟩] (.error (.upstreamError "upstream unavailable"))
  | errorStatus (status : Nat) (text : Except String String) (h : isSuccess status = false) :
      Exchange x request
        ([⟨.canProceed .geth, true⟩, ⟨.sendToGeth request, ()⟩, ⟨.gethReply, .ok status⟩,
          ⟨.gethText, text⟩] ++
          if isServerError status then [⟨.recordFailure .geth, ()⟩] else [])
        (.error (.upstreamError ("upstream returned status " ++ toString status)))
  | badBody (status : Nat) (e : String) (h : isSuccess status = true) : Exchange x request
      [⟨.canProceed .geth, true⟩, ⟨.sendToGeth request, ()⟩, ⟨.gethReply, .ok status⟩,
        ⟨.gethJson, .error e⟩, ⟨.recordFailure .geth, ()⟩]
      (.error (.upstreamError ("Failed to parse response: " ++ e)))
  | body (status : Nat) (v : Value) (h : isSuccess status = true) : Exchange x request
      [⟨.canProceed .geth, true⟩, ⟨.sendToGeth request, ()⟩, ⟨.gethReply, .ok status⟩,
        ⟨.gethJson, .ok v⟩,
        if (JsonRpcResponse.ofValue v).isSome then ⟨.recordSuccess .geth, ()⟩
        else ⟨.recordFailure .geth, ()⟩] (gethOutcome x v)

/-- From a 2xx status on, one record and the outcome. -/
theorem readGethResponse_trace {x : Externals} {tr : List OpEvent}
    {result : ProxyResult JsonRpcResponse}
    (h : Trace (readGethResponse x) tr (.pure result)) :
    (∃ e, tr = [⟨.gethJson, .error e⟩, ⟨.recordFailure .geth, ()⟩] ∧
      result = .error (.upstreamError ("Failed to parse response: " ++ e))) ∨
    ∃ v, tr = [⟨.gethJson, .ok v⟩, if (JsonRpcResponse.ofValue v).isSome then
      ⟨.recordSuccess .geth, ()⟩ else ⟨.recordFailure .geth, ()⟩] ∧ result = gethOutcome x v := by
  unfold readGethResponse at h
  cases h with
  | @cons _ _ body _ _ h =>
  cases body with
  | error e =>
    cases h with
    | cons h =>
      obtain ⟨rfl, hr⟩ := trace_pure h
      exact .inl ⟨e, rfl, Prog.pure.inj hr⟩
  | ok v =>
    have h : Trace (match JsonRpcResponse.ofValue v with
      | none => _
      | some response => _) _ _ := h
    unfold gethOutcome
    cases hv : JsonRpcResponse.ofValue v with
    | none =>
      rw [hv] at h
      cases h with
      | cons h =>
        obtain ⟨rfl, hr⟩ := trace_pure h
        exact .inr ⟨v, by rw [hv]; rfl, by rw [hv]; exact Prog.pure.inj hr⟩
    | some response =>
      rw [hv] at h
      cases h with
      | cons h =>
        obtain ⟨rfl, hr⟩ := trace_pure h
        exact .inr ⟨v, by rw [hv]; rfl, by rw [hv]; exact Prog.pure.inj hr⟩

/-- A `proxy_to_geth` that has returned is one of the exchanges: refused by the circuit,
without a reply, with an error status, or with a body. -/
theorem proxyToGeth_exchange {x : Externals} {request : JsonRpcRequest} {tr : List OpEvent}
    {result : ProxyResult JsonRpcResponse}
    (h : Trace (proxyToGeth x request) tr (.pure result)) : Exchange x request tr result := by
  unfold proxyToGeth at h
  cases h with
  | @cons _ _ ok _ _ h =>
  cases ok
  · -- the breaker refuses, and nothing is sent
    obtain ⟨rfl, hr⟩ := trace_pure h
    cases hr
    exact .circuitOpen
  cases h with
  | cons h =>
  unfold awaitGeth at h
  cases h with
  | @cons _ _ reply _ _ h =>
  cases reply with
  | error e =>
    cases h with
    | cons h =>
      obtain ⟨rfl, hr⟩ := trace_pure h
      cases hr
      exact .noReply e
  | ok status =>
    have h : Trace (if isSuccess status then readGethResponse x else _) _ _ := h
    by_cases hs : isSuccess status = true
    · rw [if_pos hs] at h
      rcases readGethResponse_trace h with ⟨e, rfl, rfl⟩ | ⟨v, rfl, rfl⟩
      · exact .badBody status e hs
      · exact .body status v hs
    · -- an error status: its body is read in any case, a failure recorded for 5xx
      rw [if_neg hs] at h
      cases h with
      | @cons _ _ text _ _ h =>
      have herr : Exchange x request _ _ := .errorStatus status text (by simpa using hs)
      have h : Trace (if isServerError status then _ else _) _ _ := h
      by_cases h5 : isServerError status = true
      · rw [if_pos h5] at h herr
        cases h with
        | cons h =>
          obtain ⟨rfl, hr⟩ := trace_pure h
          cases hr
          exact herr
      · rw [if_neg h5] at h herr
        obtain ⟨rfl, hr⟩ := trace_pure h
        cases hr
        exact herr

-- ---------------------------------------------------------------------------
-- Completed handlers
-- ---------------------------------------------------------------------------

/-- What stands behind the write budget runs if the method is none of its, or it
has room. -/
theorem checked_trace {method : String} {f : Handler (ProxyResult JsonRpcResponse)}
    {tr : List OpEvent} {result : ProxyResult JsonRpcResponse}
    (h : Trace ((checkWriteMethodRateLimit method).andThen fun _ => f) tr (.pure result)) :
    (method ∉ writeMethods ∧ Trace f tr (.pure result)) ∨
    (method ∈ writeMethods ∧ ∃ tr', tr = ⟨.checkWriteLimit method, true⟩ :: tr' ∧
      Trace f tr' (.pure result)) ∨
    (method ∈ writeMethods ∧ tr = [⟨.checkWriteLimit method, false⟩,
      ⟨.increment .rateLimitHits, ()⟩] ∧ result = .error .rateLimitExceeded) := by
  unfold checkWriteMethodRateLimit at h
  by_cases hwrite : writeMethods.contains method = true
  · rw [hwrite] at h
    have hmem : method ∈ writeMethods := List.contains_iff_mem.mp hwrite
    cases h with
    | @cons _ _ ok tr' _ h =>
    cases ok
    · cases h with
      | cons h =>
      obtain ⟨rfl, hr⟩ := trace_pure h
      exact .inr (.inr ⟨hmem, rfl, (Prog.pure.inj hr)⟩)
    · exact .inr (.inl ⟨hmem, tr', rfl, h⟩)
  · rw [Bool.eq_false_of_not_eq_true hwrite] at h
    exact .inl ⟨fun hmem => hwrite (List.contains_iff_mem.mpr hmem), h⟩

/-- What is forwarded has passed the gates; a request that has not is rejected,
and only metrics are touched. -/
theorem gated_trace {request : JsonRpcRequest} {forward : Handler (ProxyResult JsonRpcResponse)}
    {tr : List OpEvent} {result : ProxyResult JsonRpcResponse}
    (h : Trace (gated request forward) tr (.pure result)) :
    (request.passesGates = true ∧ Trace ((checkWriteMethodRateLimit request.method).andThen
      fun _ => forward) tr (.pure result)) ∨
    (request.passesGates = false ∧ (∀ e ∈ tr, ∃ counter, e.op = .increment counter) ∧
      ∃ e, result = .error e) := by
  unfold gated at h
  unfold JsonRpcRequest.passesGates
  cases hv : request.validate with
  | error e =>
    rw [hv] at h
    obtain ⟨rfl, hr⟩ := trace_pure h
    exact .inr ⟨rfl, nofun, _, Prog.pure.inj hr⟩
  | ok u =>
    rw [hv] at h
    dsimp only at h
    by_cases ha : isMethodAllowed request.method = true
    · rw [ha] at h ⊢
      exact .inl ⟨rfl, h⟩
    · rw [Bool.eq_false_of_not_eq_true ha] at h ⊢
      cases h with
      | cons h =>
      cases h with
      | cons h =>
      obtain ⟨rfl, hr⟩ := trace_pure h
      refine .inr ⟨rfl, fun e he => ?_, _, Prog.pure.inj hr⟩
      rcases List.mem_cons.mp he with rfl | he
      · exact ⟨_, rfl⟩
      · obtain rfl := List.mem_singleton.mp he
        exact ⟨_, rfl⟩

/-- Without a relay a bundle is answered by the daemon itself. -/
theorem proxyToFlashbots_trace {x : Externals} {request : JsonRpcRequest} {tr : List OpEvent}
    {result : ProxyResult JsonRpcResponse}
    (h : Trace (proxyToFlashbots x request) tr (.pure result)) :
    (request.method = "eth_sendBundle" ∧ tr = [] ∧ ∃ response, result = .ok response ∧
      response.id = request.id) ∨
    (request.method ≠ "eth_sendBundle" ∧ Exchange x request tr result) := by
  unfold proxyToFlashbots at h
  split at h
  · next hmethod =>
    obtain ⟨rfl, hr⟩ := trace_pure h
    exact .inl ⟨hmethod, rfl, _, Prog.pure.inj hr, rfl⟩
  · next hmethod => exact .inr ⟨hmethod, proxyToGeth_exchange h⟩

end Torpc
