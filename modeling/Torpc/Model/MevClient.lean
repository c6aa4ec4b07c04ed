import Mathlib.Data.List.Infix
import Mathlib.Tactic.NormNum
import Torpc.Model.Proxy

/-!
# The relay client

`mev/client.rs` with the types of `mev/types.rs` and the retry policy of
`mev/retry.rs`: a bundle is encoded and signed, posted to the relay up to
`max_attempts` times with a jittered exponential backoff in between, and the
relay's circuit breaker is told how it ended. Delays are exact rationals of
milliseconds, where the code has doubles. A panic is an operation that is never
answered: the connection's task is gone and with it the request.
-/

namespace Torpc

open Effects Prog

/-- `str::contains`. -/
def containsStr (s pattern : String) : Bool := decide (pattern.toList <:+: s.toList)

-- ---------------------------------------------------------------------------
-- retry.rs: RetryPolicy
-- ---------------------------------------------------------------------------

structure RetryPolicy where
  maxAttempts : Nat
  initialDelay : Nat
  maxDelay : Nat
  jitterFactor : Rat

/-- `RetryPolicy::default`: 3 attempts, 100ms, 5s, a quarter. -/
def RetryPolicy.default : RetryPolicy := ⟨3, 100 * 1000000, 5 * nanosPerSec, 1 / 4⟩

/-- `Duration::as_millis`. -/
def asMillis (duration : Nat) : Nat := duration / 1000000

/-- `2_u32.pow(attempt)`; an unchecked overflow wraps to zero. -/
def pow2 (overflowChecks : Bool) (attempt : Nat) : Option Nat :=
  if attempt < 32 then some (2 ^ attempt) else if overflowChecks then none else some 0

def panic {α : Type} : Handler α := do
  let never : Empty ← call .panic
  nomatch never

def RetryPolicy.calculateDelay (p : RetryPolicy) (x : Externals) (attempt : Nat) : Handler Nat := do
  match pow2 x.overflowChecks attempt with
  | none => panic
  | some factor =>
    let baseDelay : Rat := asMillis p.initialDelay * factor
    let cappedDelay : Rat := min baseDelay (asMillis p.maxDelay)
    let jitterRange : Rat := cappedDelay * p.jitterFactor
    -- sampling from an empty range panics
    if jitterRange < 0 then panic
    else
      let jitter : Rat ← call (.genJitter jitterRange)
      -- `as u64` cuts the fraction off and saturates
      return min (max (cappedDelay + jitter) 0).floor.toNat (2 ^ 64 - 1)

def RetryPolicy.shouldRetry (error : String) : Bool :=
  if containsStr error "authentication" || containsStr error "unauthorized" then false
  else if containsStr error "invalid" || containsStr error "malformed" then false
  else if containsStr error "timeout" || containsStr error "connection" ||
      containsStr error "network" || containsStr error "temporarily unavailable" then true
  -- retry on generic errors
  else true

-- ---------------------------------------------------------------------------
-- types.rs: Bundle, SendBundleRequest
-- ---------------------------------------------------------------------------

structure Bundle where
  txs : List String
  blockNumber : String
  minTimestamp : Option UInt64
  maxTimestamp : Option UInt64
  deriving DecidableEq, Repr

/-- `Vec<String>`. -/
def stringArray : Value → Option (List String)
  | .array xs => xs.mapM Value.asStr
  | _ => none

/-- `u64`. -/
def u64Field : Value → Option UInt64
  | .number n => n.asU64
  | _ => none

/-- The derived `Deserialize`. -/
def Bundle.ofValue (v : Value) : Option Bundle :=
  match structFields ["txs", "blockNumber", "minTimestamp", "maxTimestamp"] v with
  | some [some txs, some (.string blockNumber), minTimestamp, maxTimestamp] => do
    let txs ← stringArray txs
    let minTimestamp ← optionField u64Field minTimestamp
    let maxTimestamp ← optionField u64Field maxTimestamp
    some ⟨txs, blockNumber, minTimestamp, maxTimestamp⟩
  | _ => none

/-- The derived `Serialize`. -/
def Bundle.toValue (b : Bundle) : Value :=
  .object ([("txs", .array (b.txs.map .string)), ("blockNumber", .string b.blockNumber)] ++
    skipNone "minTimestamp" (b.minTimestamp.map .nat) ++
    skipNone "maxTimestamp" (b.maxTimestamp.map .nat))

structure SendBundleRequest where
  jsonrpc : String
  method : String
  params : List Bundle
  id : UInt64

/-- `SendBundleRequest::new`. -/
def SendBundleRequest.new (bundle : Bundle) (id : UInt64) : SendBundleRequest :=
  ⟨"2.0", "eth_sendBundle", [bundle], id⟩

/-- The derived `Serialize`. -/
def SendBundleRequest.toValue (r : SendBundleRequest) : Value :=
  .object [("jsonrpc", .string r.jsonrpc), ("method", .string r.method),
    ("params", .array (r.params.map Bundle.toValue)), ("id", .nat r.id)]

-- ---------------------------------------------------------------------------
-- client.rs
-- ---------------------------------------------------------------------------

structure MevRelayClient where
  blocksAhead : UInt64
  retryPolicy : RetryPolicy
  /-- the authenticator, as the header it computes for a body -/
  signRequest : String → Except String String

/-- `create_bundle_from_tx`: the block after the current one, `none` where the
addition panics. -/
def MevRelayClient.createBundleFromTx (client : MevRelayClient) (x : Externals) (rawTx : String)
    (currentBlock : UInt64) : Option Bundle :=
  if x.overflowChecks ∧ 2 ^ 64 ≤ currentBlock.toNat + client.blocksAhead.toNat then none
  else
    let targetBlock := currentBlock + client.blocksAhead
    some ⟨[rawTx], "0x" ++ String.ofList (Net.hex targetBlock.toNat), none, none⟩

def parseBundleResponse (x : Externals) (responseText : String) : ProxyResult String :=
  match x.parseJson responseText with
  | .error e => .error (.upstreamError ("Invalid JSON response from relay: " ++ e))
  | .ok response =>
    match response.get "error" with
    | some error =>
      let msg := (error.get "message" >>= Value.asStr).getD "Unknown error"
      .error (.upstreamError ("Relay error: " ++ msg))
    | none =>
      match response.get "result" >>= Value.get "bundleHash" >>= Value.asStr with
      | some bundleHash => .ok bundleHash
      | none => .error (.upstreamError "Missing bundleHash in response")

def mapRelayError (x : Externals) (status : Nat) (body : String) : ProxyError :=
  if status = 401 then
    .internalError "Flashbots authentication failed - check signing key"
  else if status = 400 then
    match x.parseJson body with
    | .ok json =>
      match json.get "error" >>= Value.get "message" >>= Value.asStr with
      | some msg => .invalidRequest ("Bundle validation failed: " ++ msg)
      | none => .invalidRequest "Invalid bundle format"
    | .error _ => .invalidRequest "Invalid bundle format"
  else if status = 429 then .upstreamError "MEV relay rate limit exceeded"
  else .upstreamError ("MEV relay error " ++ x.statusText status ++ ": " ++ body)

/-- `text().unwrap_or_else`. -/
def readText (read : Except String String) : String :=
  match read with
  | .ok text => text
  | .error _ => "Failed to read response body"

/-- `send_bundle_attempt`: sign, post, read the reply. -/
def MevRelayClient.sendBundleAttempt (client : MevRelayClient) (x : Externals) (body : String) :
    Handler (ProxyResult String) := do
  match client.signRequest body with
  | .error e => return .error (.internalError ("Failed to sign request: " ++ e))
  | .ok signature =>
    call (.sendToRelay body signature)
    let reply : Except String Nat ← call .relayReply
    match reply with
    | .error e => return .error (.upstreamError ("Network error: " ++ e))
    | .ok status =>
      let read : Except String String ← call .relayText
      let text := readText read
      if isSuccess status then return parseBundleResponse x text
      else return .error (mapRelayError x status text)

/-- The wait before attempt number `attempt`. -/
def MevRelayClient.backoff (client : MevRelayClient) (x : Externals) (attempt : Nat) :
    Handler Unit := do
  if 0 < attempt then
    let delay ← client.retryPolicy.calculateDelay x (attempt - 1)
    call (.sleep delay)

/-- The attempts of `send_bundle` from number `attempt` on, `left` of them. -/
def MevRelayClient.attempts (client : MevRelayClient) (x : Externals) (body : String) :
    (left attempt : Nat) → Option ProxyError → Handler (ProxyResult String)
  | 0, _, lastError => do
    call (.recordFailure .mevRelay)
    return .error (lastError.getD
      (.upstreamError "Bundle submission failed after all retries"))
  | left + 1, attempt, _ => do
    client.backoff x attempt
    let result ← client.sendBundleAttempt x body
    match result with
    | .ok bundleHash => do
      call (.recordSuccess .mevRelay)
      return .ok bundleHash
    | .error e =>
      if RetryPolicy.shouldRetry e.display then client.attempts x body left (attempt + 1) (some e)
      else
        call (.recordFailure .mevRelay)
        return .error e

def MevRelayClient.sendBundle (client : MevRelayClient) (x : Externals) (bundle : Bundle) :
    Handler (ProxyResult String) := do
  if ← call (.canProceed .mevRelay) then
    match x.encodeJson (SendBundleRequest.new bundle 1).toValue with
    | .error e => return .error (.internalError ("Failed to serialize bundle: " ++ e))
    | .ok body => client.attempts x body client.retryPolicy.maxAttempts 0 none
  else return .error (.upstreamError "MEV relay circuit breaker is open - too many failures")

/-- `params[0]`. -/
def JsonRpcRequest.firstParam (request : JsonRpcRequest) : Option Value :=
  request.params >>= Value.asArray >>= List.head?

def MevRelayClient.handleSendRawTransaction (client : MevRelayClient) (x : Externals)
    (request : JsonRpcRequest) (currentBlock : UInt64) : Handler (ProxyResult String) := do
  match request.firstParam >>= Value.asStr with
  | none => return .error (.invalidRequest "Missing transaction data in params")
  | some rawTx =>
    match client.createBundleFromTx x rawTx currentBlock with
    | none => panic
    | some bundle => client.sendBundle x bundle

def MevRelayClient.handleSendBundle (client : MevRelayClient) (x : Externals)
    (request : JsonRpcRequest) : Handler (ProxyResult String) := do
  match request.firstParam with
  | none => return .error (.invalidRequest "Missing bundle in params")
  | some bundleJson =>
    match Bundle.ofValue bundleJson with
    | none =>
      return .error (.invalidRequest ("Invalid bundle format: " ++ x.bundleError bundleJson))
    | some bundle => client.sendBundle x bundle

-- ---------------------------------------------------------------------------
-- The operations of the relay client
-- ---------------------------------------------------------------------------

/-- Operations of an exchange with the relay. -/
def Op.isRelayOp : Op → Bool
  | .canProceed .mevRelay | .recordSuccess .mevRelay | .recordFailure .mevRelay
  | .sendToRelay _ _ | .relayReply | .relayText | .genJitter _ | .sleep _ | .panic => true
  | _ => false

/-- The call records how it ended. -/
def Op.isVerdict : Op → Bool
  | .recordSuccess .mevRelay | .recordFailure .mevRelay => true
  | _ => false

/-- Operations of the wait between two attempts. -/
def Op.isPause : Op → Bool
  | .genJitter _ | .sleep _ | .panic => true
  | _ => false

/-- Operations of an attempt that comes to no POST. -/
def Op.isSilent (o : Op) : Bool := o.isPause || o.isVerdict

/-- A pause brings no POST. -/
theorem Op.isSilent_of_isPause {o : Op} (h : o.isPause = true) : o.isSilent = true := by
  rw [Op.isSilent, h, Bool.true_or]

/-- The pauses belong to the exchange with the relay. -/
theorem Op.isRelayOp_of_isPause {o : Op} (h : o.isPause = true) : o.isRelayOp = true := by
  cases o <;> first | rfl | exact nomatch h

/-- Nothing is sent in a pause. -/
theorem Op.isSend_of_isPause {o : Op} (h : o.isPause = true) : o.isSend = false := by
  cases o <;> first | rfl | exact nomatch h

/-- A panic counts as a pause here: it sends nothing and records nothing. -/
theorem ops_panic {α : Type} : (panic : Handler α).Ops fun o => o.isPause = true :=
  ⟨rfl, fun never => nomatch never⟩

/-- To calculate a delay takes no more than a random number, or ends in a panic. -/
theorem RetryPolicy.ops_calculateDelay (p : RetryPolicy) (x : Externals) (attempt : Nat) :
    (p.calculateDelay x attempt).Ops fun o => o.isPause = true := by
  unfold calculateDelay
  split
  · exact ops_panic
  · simp only []
    split
    · exact ops_panic
    · exact ⟨rfl, fun _ => trivial⟩

/-- Between two attempts the client waits, and does nothing else. -/
theorem MevRelayClient.ops_backoff (client : MevRelayClient) (x : Externals) (attempt : Nat) :
    (client.backoff x attempt).Ops fun o => o.isPause = true := by
  unfold backoff
  split
  · exact (RetryPolicy.ops_calculateDelay _ x _).bind fun _ => ⟨rfl, fun _ => trivial⟩
  · trivial

/-- The range of the default policy's jitter is never empty. -/
theorem RetryPolicy.jitterRange_nonneg (factor : Nat) :
    (0 : Rat) ≤ min ((asMillis RetryPolicy.default.initialDelay : Rat) * factor)
      (asMillis RetryPolicy.default.maxDelay) * RetryPolicy.default.jitterFactor := by
  refine mul_nonneg (le_min ?_ (Nat.cast_nonneg _)) (by norm_num [RetryPolicy.default])
  exact mul_nonneg (Nat.cast_nonneg _) (Nat.cast_nonneg _)

/-- With the default policy the wait before the second attempt can pass without
jitter, and leaves the shared state alone. -/
theorem MevRelayClient.performs_backoff {client : MevRelayClient}
    (hpolicy : client.retryPolicy = .default) (x : Externals) (s : Shared) :
    ∃ range millis, Performs exec (client.backoff x 1) s
      [⟨.genJitter range, 0⟩, ⟨.sleep millis, ()⟩] (.pure ()) s := by
  obtain ⟨blocksAhead, policy, signRequest⟩ := client
  obtain rfl : policy = .default := hpolicy
  have hfactor : pow2 x.overflowChecks (1 - 1) = some 1 := rfl
  have hnonneg := RetryPolicy.jitterRange_nonneg 1
  simp only [backoff, RetryPolicy.calculateDelay, hfactor, Nat.zero_lt_one, if_true]
  rw [if_neg (not_lt.mpr hnonneg)]
  exact ⟨_, _, .cons ⟨rfl, neg_nonpos.mpr hnonneg, hnonneg⟩ (.cons ⟨rfl, trivial⟩ (.nil _ _))⟩

/-- The attempts of a call ask the relay, wait and record; what they post is the
body with its signature. -/
theorem MevRelayClient.ops_attempts_of {P : Op → Prop} {client : MevRelayClient} {body : String}
    (hquiet : ∀ o, Op.isRelayOp o = true → Op.isSend o = false → P o)
    (hsend : ∀ signature, client.signRequest body = .ok signature → P (.sendToRelay body signature))
    (x : Externals) (left attempt : Nat) (lastError : Option ProxyError) :
    (client.attempts x body left attempt lastError).Ops P := by
  have hpause : ∀ o, Op.isPause o = true → P o := fun o ho =>
    hquiet o (Op.isRelayOp_of_isPause ho) (Op.isSend_of_isPause ho)
  have hattempt : (client.sendBundleAttempt x body).Ops P := by
    unfold sendBundleAttempt
    cases hs : client.signRequest body with
    | error e => trivial
    | ok signature =>
      simp only [perform_bind, ops_op]
      refine ⟨hsend signature hs, fun _ => ⟨hquiet _ rfl rfl, fun reply => ?_⟩⟩
      cases reply with
      | error e => trivial
      | ok status =>
        refine ⟨hquiet _ rfl rfl, fun read => ?_⟩
        dsimp only
        split <;> trivial
  induction left generalizing attempt lastError with
  | zero => exact ⟨hquiet _ rfl rfl, fun _ => trivial⟩
  | succ left ih =>
    rw [attempts]
    refine ((client.ops_backoff x attempt).mono hpause).bind fun _ => ?_
    refine hattempt.bind fun result => ?_
    cases result with
    | ok bundleHash => exact ⟨hquiet _ rfl rfl, fun _ => trivial⟩
    | error e =>
      simp only []
      split
      · exact ih (attempt + 1) (some e)
      · exact ⟨hquiet _ rfl rfl, fun _ => trivial⟩

/-- What is said of the attempts, and of the breaker's question, holds of the call. -/
theorem MevRelayClient.ops_sendBundle_of {P : Op → Prop} {client : MevRelayClient} {x : Externals}
    {bundle : Bundle} (hquiet : ∀ o, Op.isRelayOp o = true → Op.isSend o = false → P o)
    (hsend : ∀ body signature, x.encodeJson (SendBundleRequest.new bundle 1).toValue = .ok body →
      client.signRequest body = .ok signature → P (.sendToRelay body signature)) :
    (client.sendBundle x bundle).Ops P := by
  unfold sendBundle
  simp only [perform_bind, ops_op]
  refine ⟨hquiet _ rfl rfl, fun ok => ?_⟩
  cases ok
  · trivial
  simp only [if_true]
  split
  · trivial
  · next body hbody =>
    exact client.ops_attempts_of hquiet (fun signature => hsend body signature hbody) x _ 0 none

/-- A bundle that can be encoded and signed is posted if the circuit is Closed:
the first attempt waits for nothing. -/
theorem MevRelayClient.reaches_sendBundle {client : MevRelayClient} {x : Externals}
    {bundle : Bundle} {body signature : String} (hmax : 0 < client.retryPolicy.maxAttempts)
    (hbody : x.encodeJson (SendBundleRequest.new bundle 1).toValue = .ok body)
    (hsign : client.signRequest body = .ok signature) {s : Shared} {n : Nat}
    (hs : s.mevCircuit.state = .closed n) :
    Reaches exec (client.sendBundle x bundle) s ⟨.sendToRelay body signature, ()⟩ := by
  obtain ⟨left, hleft⟩ := Nat.exists_eq_succ_of_ne_zero (Nat.pos_iff_ne_zero.mp hmax)
  refine .next (exec_canProceed_closed (c := .mevRelay) hs) ?_
  have hfirst : Reaches exec (client.attempts x body (left + 1) 0 none) s
      ⟨.sendToRelay body signature, ()⟩ := by
    refine Reaches.bind (p := client.sendBundleAttempt x body) ?_ _
    unfold sendBundleAttempt
    rw [hsign]
    exact .here ⟨rfl, trivial⟩
  simp only [hbody, hleft]
  exact hfirst

/-- Without a signature an attempt ends before the POST. -/
theorem MevRelayClient.ops_attempts_unsigned {client : MevRelayClient} {body : String}
    (h : ∀ signature, client.signRequest body ≠ .ok signature) (x : Externals)
    (left attempt : Nat) (lastError : Option ProxyError) :
    (client.attempts x body left attempt lastError).Ops fun o => o.isSilent = true := by
  have hattempt : (client.sendBundleAttempt x body).Ops fun o => o.isSilent = true := by
    unfold sendBundleAttempt
    cases hs : client.signRequest body with
    | error e => trivial
    | ok signature => exact absurd hs (h signature)
  induction left generalizing attempt lastError with
  | zero => exact ⟨rfl, fun _ => trivial⟩
  | succ left ih =>
    rw [attempts]
    refine ((client.ops_backoff x attempt).mono fun _ => Op.isSilent_of_isPause).bind fun _ => ?_
    refine hattempt.bind fun result => ?_
    cases result with
    | ok bundleHash => exact ⟨rfl, fun _ => trivial⟩
    | error e =>
      simp only []
      split
      · exact ih (attempt + 1) (some e)
      · exact ⟨rfl, fun _ => trivial⟩

/-- All that `send_bundle` performs belongs to the exchange with the relay; Geth has no part
in it. -/
theorem MevRelayClient.ops_sendBundle (client : MevRelayClient) (x : Externals)
    (bundle : Bundle) : (client.sendBundle x bundle).Ops fun o => o.isRelayOp = true :=
  client.ops_sendBundle_of (fun _ h _ => h) fun _ _ _ _ => rfl

-- ---------------------------------------------------------------------------
-- Walks through the handlers
-- ---------------------------------------------------------------------------

/-- A judgement on handlers that composes: it holds of one that returns at once,
and of two in a row if it holds of both. What is to be said of all that a handler
does is of this kind, and then one walk through the source is enough for it. -/
structure Walk (K : (α : Type) → Handler (ProxyResult α) → Prop) : Prop where
  done : ∀ {α : Type} (r : ProxyResult α), K α (.pure r)
  andThen : ∀ {α β : Type} {p : Handler (ProxyResult α)} {f : α → Handler (ProxyResult β)},
    K α p → (∀ a, K β (f a)) → K β (p.andThen f)

/-- What is said of every operation. -/
theorem walk_ops (P : Op → Prop) : Walk fun _ p => p.Ops P :=
  ⟨fun _ => trivial, Ops.andThen⟩

/-- What a monitor is told, from every state that the parts of the handler hand on. -/
theorem walk_sat {S : Type} (δ : S → OpEvent → S) (J : S → Op → Prop) (I : S → Prop) :
    Walk fun _ p => ∀ s, I s → p.Sat δ J (fun _ s' => I s') s :=
  ⟨fun _ _ hs => hs, fun hp hf s hs =>
    (hp s hs).andThen (fun a s' hs' => hf a s' hs') fun _ _ hs' => hs'⟩

section Walks

variable {K : (α : Type) → Handler (ProxyResult α) → Prop} {client : MevRelayClient}
  {x : Externals} {request : JsonRpcRequest}

/-- A transaction for the relay is refused, or fails to make a bundle, or is sent
as one. -/
theorem Walk.handleSendRawTransaction (w : Walk K) (hpanic : K String panic)
    (hbundle : ∀ bundle, K String (client.sendBundle x bundle)) (currentBlock : UInt64) :
    K String (client.handleSendRawTransaction x request currentBlock) := by
  unfold MevRelayClient.handleSendRawTransaction
  split
  · exact w.done _
  · split
    · exact hpanic
    · exact hbundle _

/-- A bundle for the relay is refused or sent. -/
theorem Walk.handleSendBundle (w : Walk K)
    (hbundle : ∀ bundle, K String (client.sendBundle x bundle)) :
    K String (client.handleSendBundle x request) := by
  unfold MevRelayClient.handleSendBundle
  split
  · exact w.done _
  · split
    · exact w.done _
    · exact hbundle _

end Walks

/-- So with the handler for a transaction, once it knows the current block. -/
theorem MevRelayClient.ops_handleSendRawTransaction (client : MevRelayClient) (x : Externals)
    (request : JsonRpcRequest) (currentBlock : UInt64) :
    (client.handleSendRawTransaction x request currentBlock).Ops fun o => o.isRelayOp = true :=
  (walk_ops _).handleSendRawTransaction (ops_panic.mono fun _ => Op.isRelayOp_of_isPause)
    (client.ops_sendBundle x) currentBlock

/-- And so with the handler for a bundle. -/
theorem MevRelayClient.ops_handleSendBundle (client : MevRelayClient) (x : Externals)
    (request : JsonRpcRequest) :
    (client.handleSendBundle x request).Ops fun o => o.isRelayOp = true :=
  (walk_ops _).handleSendBundle (client.ops_sendBundle x)

end Torpc
