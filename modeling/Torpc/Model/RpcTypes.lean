import Torpc.Model.Json

/-!
# JSON-RPC messages, errors and the allow-list

`rpc_types.rs`, `error.rs` and `whitelist.rs`: the request, response and error
objects with their derived codecs, the validation every handler is supposed to
run, the error type of the daemon with the code, text and HTTP status of each
variant, and the methods a client may call.
-/

namespace Torpc

-- ---------------------------------------------------------------------------
-- rpc_types.rs
-- ---------------------------------------------------------------------------

structure JsonRpcRequest where
  jsonrpc : String
  method : String
  params : Option Value
  id : Option Value
  deriving Repr

structure JsonRpcError where
  code : Int64
  message : String
  data : Option Value
  deriving Repr

structure JsonRpcResponse where
  jsonrpc : String
  result : Option Value
  error : Option JsonRpcError
  id : Option Value
  deriving Repr

/-- A field of type `Option<T>`: absent and null decode to `None`. -/
def optionField {α : Type} (decode : Value → Option α) : Option Value → Option (Option α)
  | none => some none
  | some .null => some none
  | some v => (decode v).map some

namespace JsonRpcRequest

/-- The derived `Deserialize`. -/
def ofValue (v : Value) : Option JsonRpcRequest :=
  match structFields ["jsonrpc", "method", "params", "id"] v with
  | some [some (.string jsonrpc), some (.string method), params, id] =>
    some ⟨jsonrpc, method, optionValue params, optionValue id⟩
  | _ => none

/-- The derived `Serialize`: no field is ever skipped. -/
def toValue (r : JsonRpcRequest) : Value :=
  .object [("jsonrpc", .string r.jsonrpc), ("method", .string r.method),
    ("params", orNull r.params), ("id", orNull r.id)]

/-- Validate that this is a valid JSON-RPC 2.0 request. -/
def validate (r : JsonRpcRequest) : Except String Unit :=
  if r.jsonrpc ≠ "2.0" then .error "Invalid jsonrpc version"
  else if r.method = "" then .error "Method cannot be empty"
  else .ok ()

end JsonRpcRequest

namespace JsonRpcError

/-- The derived `Deserialize`. -/
def ofValue (v : Value) : Option JsonRpcError :=
  match structFields ["code", "message", "data"] v with
  | some [some (.number code), some (.string message), data] =>
    code.asI64.map fun code => ⟨code, message, optionValue data⟩
  | _ => none

/-- The derived `Serialize`. -/
def toValue (e : JsonRpcError) : Value :=
  .object ([("code", .number (.ofI64 e.code)), ("message", .string e.message)] ++
    skipNone "data" e.data)

end JsonRpcError

namespace JsonRpcResponse

/-- The derived `Deserialize`. -/
def ofValue (v : Value) : Option JsonRpcResponse :=
  match structFields ["jsonrpc", "result", "error", "id"] v with
  | some [some (.string jsonrpc), result, error, id] =>
    (optionField JsonRpcError.ofValue error).map fun error =>
      ⟨jsonrpc, optionValue result, error, optionValue id⟩
  | _ => none

/-- The derived `Serialize`: `result` and `error` are skipped when `None`, `id` is not. -/
def toValue (r : JsonRpcResponse) : Value :=
  .object ([("jsonrpc", .string r.jsonrpc)] ++ skipNone "result" r.result ++
    skipNone "error" (r.error.map JsonRpcError.toValue) ++ [("id", orNull r.id)])

/-- Create an error response. -/
def mkError (id : Option Value) (code : Int64) (message : String) (data : Option Value) :
    JsonRpcResponse :=
  ⟨"2.0", none, some ⟨code, message, data⟩, id⟩

end JsonRpcResponse

-- ---------------------------------------------------------------------------
-- error.rs
-- ---------------------------------------------------------------------------

inductive ProxyError where
  | invalidRequest (msg : String)
  | methodNotAllowed (method : String)
  | rateLimitExceeded
  | upstreamError (msg : String)
  | jsonError (msg : String)
  | httpError (msg : String)
  | internalError (msg : String)
  | mevRelayError (msg : String)
  | bundleSimulationError (msg : String)
  | flashbotsAuthError
  deriving DecidableEq, Repr

abbrev ProxyResult (α : Type) := Except ProxyError α

/-- What reaches the client: a status code and, except for the bare status of
the per-connection limiter, a JSON-RPC body. -/
structure HttpResponse where
  status : Nat
  body : Option JsonRpcResponse
  deriving Repr

namespace ProxyError

/-- `Display`, from the `#[error(..)]` attributes. -/
def display : ProxyError → String
  | invalidRequest msg => "Invalid JSON-RPC request: " ++ msg
  | methodNotAllowed method => "Method not allowed: " ++ method
  | rateLimitExceeded => "Rate limit exceeded"
  | upstreamError msg => "Upstream connection error: " ++ msg
  | jsonError msg => "JSON parsing error: " ++ msg
  | httpError msg => "HTTP request error: " ++ msg
  | internalError msg => "Internal server error: " ++ msg
  | mevRelayError msg => "MEV relay error: " ++ msg
  | bundleSimulationError msg => "Bundle simulation failed: " ++ msg
  | flashbotsAuthError => "Flashbots authentication failed"

/-- Convert to JSON-RPC error code. -/
def toJsonRpcCode : ProxyError → Int64
  | invalidRequest _ => -32600
  | methodNotAllowed _ => -32601
  | rateLimitExceeded => -32000
  | jsonError _ => -32700
  | upstreamError _ => -32001
  | httpError _ => -32002
  | internalError _ => -32603
  | mevRelayError _ => -32003
  | bundleSimulationError _ => -32004
  | flashbotsAuthError => -32005

/-- Convert to JSON-RPC error response. -/
def toJsonRpcResponse (e : ProxyError) (id : Option Value) : JsonRpcResponse :=
  .mkError id e.toJsonRpcCode e.display none

/-- `impl IntoResponse`: the request is no longer at hand, so the id is `None`. -/
def intoResponse (e : ProxyError) : HttpResponse :=
  let status := match e with
    | invalidRequest _ => 400
    | methodNotAllowed _ => 405
    | rateLimitExceeded => 429
    | jsonError _ => 400
    | _ => 500
  ⟨status, some (e.toJsonRpcResponse none)⟩

end ProxyError

/-- `IntoResponse` of a handler's `ProxyResult<Json<JsonRpcResponse>>`. -/
def intoResponse : ProxyResult JsonRpcResponse → HttpResponse
  | .ok response => ⟨200, some response⟩
  | .error e => e.intoResponse

-- ---------------------------------------------------------------------------
-- whitelist.rs
-- ---------------------------------------------------------------------------

/-- List of allowed RPC methods. -/
def allowedMethods : List String := [
  -- Read-only methods
  "eth_blockNumber",
  "eth_getBalance",
  "eth_getStorageAt",
  "eth_getTransactionCount",
  "eth_getBlockTransactionCountByHash",
  "eth_getBlockTransactionCountByNumber",
  "eth_getCode",
  "eth_call",
  "eth_estimateGas",
  "eth_getBlockByHash",
  "eth_getBlockByNumber",
  "eth_getTransactionByHash",
  "eth_getTransactionByBlockHashAndIndex",
  "eth_getTransactionByBlockNumberAndIndex",
  "eth_getTransactionReceipt",
  "eth_getUncleByBlockHashAndIndex",
  "eth_getUncleByBlockNumberAndIndex",
  "eth_getUncleCountByBlockHash",
  "eth_getUncleCountByBlockNumber",
  "eth_protocolVersion",
  "eth_chainId",
  "eth_syncing",
  "eth_gasPrice",
  "eth_feeHistory",
  "eth_maxPriorityFeePerGas",
  "eth_getLogs",
  -- Network info
  "net_version",
  "net_listening",
  "net_peerCount",
  -- Web3 methods
  "web3_clientVersion",
  "web3_sha3",
  -- Write methods we allow
  "eth_sendRawTransaction",
  "eth_sendBundle"]

/-- Check if a method is allowed. -/
def isMethodAllowed (method : String) : Bool := allowedMethods.contains method

/-- What a request has to pass before anything derived from it may leave the
daemon: validation and the allow-list. -/
def JsonRpcRequest.passesGates (r : JsonRpcRequest) : Bool :=
  r.validate.isOk && isMethodAllowed r.method

example : isMethodAllowed "ETH_BLOCKNUMBER" = false := by decide

/-- A request passes the gates just if it is valid and its method is on the list. -/
theorem JsonRpcRequest.passesGates_iff {r : JsonRpcRequest} :
    r.passesGates = true ↔ r.validate = .ok () ∧ isMethodAllowed r.method = true := by
  unfold passesGates
  rw [Bool.and_eq_true]
  cases r.validate <;> simp [Except.isOk, Except.toBool]

end Torpc
