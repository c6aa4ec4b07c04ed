import Torpc.Lib.Http
import Torpc.Model.MevClient

/-!
# The public router

`mev/mev_handler.rs`, and of `app.rs` and `security.rs` what stands between an
arriving request and its handler: the four JSON-RPC routes, the per-connection
limiter in front of them, and the timeout that drops a request's future while it
waits. The daemon is then a system of interleaved handlers over its shared
state, with time passing and the limiter's map being cleaned in between.
-/

namespace Torpc

open Effects Prog

-- ---------------------------------------------------------------------------
-- mev_handler.rs
-- ---------------------------------------------------------------------------

/-- One more digit of `u64::from_str_radix(_, 16)`. -/
def radix16Step (acc : Except String Nat) (c : Char) : Except String Nat :=
  match acc, Net.digitVal 16 c with
  | .error e, _ => .error e
  | .ok _, none => .error "invalid digit found in string"
  | .ok n, some d =>
    if 2 ^ 64 ≤ n * 16 + d then .error "number too large to fit in target type"
    else .ok (n * 16 + d)

def fromStrRadix16 (s : String) : Except String UInt64 :=
  match s.toList with
  | [] => .error "cannot parse integer from empty string"
  | ['+'] => .error "invalid digit found in string"
  | '+' :: digits => (digits.foldl radix16Step (.ok 0)).map .ofNat
  | digits => (digits.foldl radix16Step (.ok 0)).map .ofNat

/-- `trim_start_matches("0x")`: the prefix goes as often as it stands there. -/
def trimHexPrefix : List Char → List Char
  | '0' :: 'x' :: cs => trimHexPrefix cs
  | cs => cs

/-- The block number of a reply to `eth_blockNumber`. -/
def currentBlockOf (response : JsonRpcResponse) : ProxyResult UInt64 :=
  match response.result >>= Value.asStr with
  | none => .error (.internalError "Failed to get block number")
  | some blockHex =>
    match fromStrRadix16 (String.ofList (trimHexPrefix blockHex.toList)) with
    | .error e => .error (.internalError ("Invalid block number: " ++ e))
    | .ok currentBlock => .ok currentBlock

/-- The daemon's own request for the current block number. -/
def blockNumberRequest : JsonRpcRequest := ⟨"2.0", "eth_blockNumber", none, some (.nat 1)⟩

/-- The arm for `eth_sendRawTransaction`. -/
def MevRelayClient.submitTransaction (client : MevRelayClient) (x : Externals)
    (request : JsonRpcRequest) : Handler (ProxyResult JsonRpcResponse) :=
  (proxyToGeth x blockNumberRequest).andThen fun blockResp =>
    match currentBlockOf blockResp with
    | .error e => return .error e
    | .ok currentBlock =>
      (client.handleSendRawTransaction x request currentBlock).andThen fun bundleHash =>
        return .ok ⟨"2.0", some (.string bundleHash), none, request.id⟩

/-- The arm for `eth_sendBundle`. -/
def MevRelayClient.submitBundle (client : MevRelayClient) (x : Externals)
    (request : JsonRpcRequest) : Handler (ProxyResult JsonRpcResponse) :=
  (client.handleSendBundle x request).andThen fun bundleHash =>
    return .ok ⟨"2.0", some (.object [("bundleHash", .string bundleHash)]), none, request.id⟩

/-- The dispatch on the method, with a relay configured. -/
def MevRelayClient.dispatch (client : MevRelayClient) (x : Externals) (request : JsonRpcRequest) :
    Handler (ProxyResult JsonRpcResponse) :=
  if request.method = "eth_sendRawTransaction" then client.submitTransaction x request
  else if request.method = "eth_sendBundle" then client.submitBundle x request
  -- other methods go to Geth as they are
  else proxyToGeth x request

def handleFlashbotsWithMev (x : Externals) (mevClient : Option MevRelayClient)
    (request : JsonRpcRequest) : Handler (ProxyResult JsonRpcResponse) :=
  (checkWriteMethodRateLimit request.method).andThen fun _ =>
    match mevClient with
    | some client => client.dispatch x request
    | none => handleFlashbots x request

/-- What holds of the daemon's own question, of the call that is passed on, and
of the relay client, holds of the dispatch. Only a method that is none of the
relay's is passed on. -/
theorem Walk.dispatch {K : (α : Type) → Handler (ProxyResult α) → Prop} {client : MevRelayClient}
    {x : Externals} {request : JsonRpcRequest} (w : Walk K)
    (hquestion : K JsonRpcResponse (proxyToGeth x blockNumberRequest))
    (hcall : request.method ≠ "eth_sendRawTransaction" → request.method ≠ "eth_sendBundle" →
      K JsonRpcResponse (proxyToGeth x request))
    (hpanic : K String panic) (hbundle : ∀ bundle, K String (client.sendBundle x bundle)) :
    K JsonRpcResponse (client.dispatch x request) := by
  unfold MevRelayClient.dispatch
  split
  · refine w.andThen hquestion fun blockResp => ?_
    split
    · exact w.done _
    · exact w.andThen (w.handleSendRawTransaction hpanic hbundle _) fun _ => w.done _
  · next hraw =>
    split
    · exact w.andThen (w.handleSendBundle hbundle) fun _ => w.done _
    · next hother => exact hcall hraw hother

/-- The operations of the dispatch are those of calls of Geth and of the relay client. -/
theorem MevRelayClient.ops_dispatch {P : Op → Prop} (client : MevRelayClient) {x : Externals}
    {request : JsonRpcRequest} (hgeth : ∀ r, (proxyToGeth x r).Ops P)
    (hrelay : ∀ o, Op.isRelayOp o = true → P o) : (client.dispatch x request).Ops P :=
  (walk_ops P).dispatch (hgeth _) (fun _ _ => hgeth _)
    (ops_panic.mono fun o ho => hrelay o (Op.isRelayOp_of_isPause ho))
    fun bundle => (client.ops_sendBundle x bundle).mono hrelay

-- ---------------------------------------------------------------------------
-- Block numbers are read back
-- ---------------------------------------------------------------------------

/-- The accumulator goes through the digits of a 64-bit number without overflow, and ends
with the number. -/
theorem foldl_radix16Step {n : Nat} (h : n < 2 ^ 64) :
    (Net.hex n).foldl radix16Step (.ok 0) = .ok n := by
  have hdigit : ∀ d < 16, Net.digitVal 16 d.digitChar = some d := by decide
  induction n using Nat.strong_induction_on with
  | _ n ih =>
    rw [Net.hex, Nat.toDigits_eq_if (by omega)]
    by_cases hn : n < 16
    · rw [if_pos hn, List.foldl_cons, List.foldl_nil]
      simp only [radix16Step, hdigit n hn]
      rw [if_neg (by omega), Nat.zero_mul, Nat.zero_add]
    · have hmod : n % 16 < 16 := Nat.mod_lt _ (by omega)
      have hrec : (Nat.toDigits 16 (n / 16)).foldl radix16Step (.ok 0) = .ok (n / 16) :=
        ih (n / 16) (by omega) (by omega)
      rw [if_neg hn, List.foldl_append, hrec, List.foldl_cons, List.foldl_nil]
      simp only [radix16Step, hdigit _ hmod]
      rw [if_neg (by omega), Nat.div_add_mod']

/-- The text of a block number, without its prefix, is parsed as that number. -/
theorem fromStrRadix16_hex (n : UInt64) :
    fromStrRadix16 (String.ofList (Net.hex n.toNat)) = .ok n := by
  have hplus : '+' ∉ Net.hex n.toNat := Net.notMem_hex (by decide) _
  have hfold := foldl_radix16Step n.toNat_lt
  unfold fromStrRadix16
  rw [String.toList_ofList]
  split
  · next h => exact absurd h Nat.toDigits_ne_nil
  · next h => exact absurd (h ▸ List.mem_cons_self) hplus
  · next h => exact absurd (h ▸ List.mem_cons_self) hplus
  · rw [hfold]
    simp [Except.map]

/-- There is no prefix to trim from a text without an `x`. -/
theorem trimHexPrefix_eq {cs : List Char} (h : 'x' ∉ cs) : trimHexPrefix cs = cs := by
  unfold trimHexPrefix
  split
  · exact absurd (by simp) h
  · rfl

/-- The block number of a reply with the quantity `0x{n:x}` is `n`. -/
theorem currentBlockOf_quantity {response : JsonRpcResponse} {n : UInt64}
    (h : response.result = some (.string ("0x" ++ String.ofList (Net.hex n.toNat)))) :
    currentBlockOf response = .ok n := by
  have hx : 'x' ∉ Net.hex n.toNat := Net.notMem_hex (by decide) _
  have htrim : trimHexPrefix ("0x" ++ String.ofList (Net.hex n.toNat)).toList =
      Net.hex n.toNat := by
    rw [String.toList_append, String.toList_ofList, String.toList_ofList]
    show trimHexPrefix (Net.hex n.toNat) = _
    exact trimHexPrefix_eq hx
  simp only [currentBlockOf, h, Option.bind_eq_bind, Option.bind_some, Value.asStr, htrim,
    fromStrRadix16_hex]

-- ---------------------------------------------------------------------------
-- app.rs
-- ---------------------------------------------------------------------------

/-- The routes that take JSON-RPC. -/
inductive Route where
  | rpc
  | rpcSlash
  | flashbots
  | flashbotsSlash
  deriving DecidableEq, Repr

def Route.path : Route → String
  | .rpc => "/rpc"
  | .rpcSlash => "/rpc/"
  | .flashbots => "/rpc/flashbots"
  | .flashbotsSlash => "/rpc/flashbots/"

/-- The handlers of the public router. -/
inductive Endpoint where
  | serveRoot
  | jsonRpc (route : Route)
  deriving DecidableEq, Repr

/-- The route table; what it does not list is left to `ServeDir`. -/
def publicRouter : Http.Router Endpoint where
  routes := [
    ("/", Http.get .serveRoot),
    (Route.rpc.path, Http.post (.jsonRpc .rpc)),
    (Route.rpcSlash.path, Http.post (.jsonRpc .rpcSlash)),
    (Route.flashbots.path, Http.post (.jsonRpc .flashbots)),
    (Route.flashbotsSlash.path, Http.post (.jsonRpc .flashbotsSlash))]

/-- The JSON-RPC handlers are where their routes say, for POST alone. -/
theorem dispatch_jsonRpc_iff {method : Http.Method} {path : String} {route : Route} :
    publicRouter.dispatch method path = .to (.jsonRpc route) ↔
      method = .post ∧ path = route.path := by
  constructor
  · intro h
    obtain ⟨methods, hroute, hmethod⟩ := Http.Router.mem_of_dispatch h
    simp only [publicRouter, List.mem_cons, List.not_mem_nil, or_false, Prod.mk.injEq] at hroute
    rcases hroute with ⟨-, rfl⟩ | ⟨rfl, rfl⟩ | ⟨rfl, rfl⟩ | ⟨rfl, rfl⟩ | ⟨rfl, rfl⟩
    · simp [Http.get] at hmethod
    all_goals
      simp only [Http.post, List.mem_singleton, Prod.mk.injEq, Endpoint.jsonRpc.injEq] at hmethod
      obtain ⟨rfl, rfl⟩ := hmethod
      exact ⟨rfl, rfl⟩
  · rintro ⟨rfl, rfl⟩
    cases route <;> decide

/-- What `build_app` fixes. -/
structure Daemon where
  externals : Externals
  mevClient : Option MevRelayClient
  rateLimit : RateLimitConfig
  writeLimit : RateLimitConfig
  requestTimeout : Nat

/-- A parsed request on its way to a handler. -/
structure Arrival where
  route : Route
  request : JsonRpcRequest
  peer : Option (Net.IpAddr × UInt16)
  arrived : Nat

namespace Daemon

def handler (d : Daemon) : Route → JsonRpcRequest → Handler (ProxyResult JsonRpcResponse)
  | .rpc | .rpcSlash => handleRpc d.externals
  | .flashbots | .flashbotsSlash => handleFlashbotsWithMev d.externals d.mevClient

/-- The four routes have two handlers. -/
theorem handler_cases (d : Daemon) (route : Route) :
    ((route = .rpc ∨ route = .rpcSlash) ∧ d.handler route = handleRpc d.externals) ∨
    ((route = .flashbots ∨ route = .flashbotsSlash) ∧
      d.handler route = handleFlashbotsWithMev d.externals d.mevClient) := by
  cases route with
  | rpc => exact .inl ⟨.inl rfl, rfl⟩
  | rpcSlash => exact .inl ⟨.inr rfl, rfl⟩
  | flashbots => exact .inr ⟨.inl rfl, rfl⟩
  | flashbotsSlash => exact .inr ⟨.inr rfl, rfl⟩

/-- What holds of each of its parts holds of a handler: of a method that is counted
as blocked, of the write budget, of a call of Geth and of the relay client. -/
theorem walk_handler {K : (α : Type) → Handler (ProxyResult α) → Prop} (d : Daemon) (w : Walk K)
    (hblocked : ∀ method, K JsonRpcResponse (.op (.increment .invalidMethods) fun _ =>
      .op (.increment .blockedRequests) fun _ => .pure (.error (.methodNotAllowed method))))
    (hcheck : ∀ method, K Unit (checkWriteMethodRateLimit method))
    (hgeth : ∀ r, K JsonRpcResponse (proxyToGeth d.externals r)) (hpanic : K String panic)
    (hbundle : ∀ client ∈ d.mevClient, ∀ bundle, K String (client.sendBundle d.externals bundle))
    (route : Route) (request : JsonRpcRequest) : K JsonRpcResponse (d.handler route request) := by
  have hgated : ∀ f, K JsonRpcResponse f → K JsonRpcResponse (gated request f) := by
    intro f hf
    unfold gated
    split
    · exact w.done _
    · split
      · exact hblocked _
      · exact w.andThen (hcheck _) fun _ => hf
  rcases d.handler_cases route with ⟨-, heq⟩ | ⟨-, heq⟩
  · rw [heq]
    exact hgated _ (hgeth request)
  · rw [heq]
    refine w.andThen (hcheck _) fun _ => ?_
    cases hclient : d.mevClient with
    | some client => exact w.dispatch (hgeth _) (fun _ _ => hgeth _) hpanic (hbundle client hclient)
    | none =>
      -- handed over to the standard handler
      refine hgated _ ?_
      split
      · unfold proxyToFlashbots
        split
        · exact w.done _
        · exact hgeth request
      · exact hgeth request

/-- A request behind the timeout: `rate_limit_middleware`, then the handler. -/
def serve (d : Daemon) (a : Arrival) : Handler HttpResponse := do
  if ← call (.checkConnLimit (getRequestIdentifier a.peer)) then
    let result ← d.handler a.route a.request
    return intoResponse result
  else return ⟨429, none⟩

/-- Behind the per-connection limiter, a response is what the handler returned. -/
theorem serve_trace {d : Daemon} {a : Arrival} {tr : List OpEvent} {response : HttpResponse}
    (h : Trace (d.serve a) tr (.pure response)) :
    (∃ tr' result, tr = ⟨.checkConnLimit (getRequestIdentifier a.peer), true⟩ :: tr' ∧
      Trace (d.handler a.route a.request) tr' (.pure result) ∧ response = intoResponse result) ∨
    (tr = [⟨.checkConnLimit (getRequestIdentifier a.peer), false⟩] ∧ response = ⟨429, none⟩) := by
  unfold serve at h
  cases h with
  | @cons _ _ ok tr' _ h =>
  cases ok
  · obtain ⟨rfl, hr⟩ := trace_pure h
    exact .inr ⟨rfl, Prog.pure.inj hr⟩
  · have h : Trace (d.handler a.route a.request >>= fun result =>
        Pure.pure (intoResponse result)) tr' (.pure response) := h
    obtain ⟨result, tr₁, tr₂, rfl, hhandler, hrest⟩ := h.of_bind
    obtain ⟨rfl, hr⟩ := trace_pure hrest
    rw [List.append_nil]
    exact .inl ⟨tr₁, result, rfl, hhandler, Prog.pure.inj hr⟩

/-- The answer of `json_rpc_timeout_middleware` to a request it has dropped. -/
def timeoutResponse : HttpResponse := ⟨504, some (.mkError none (-32001) "upstream timeout" none)⟩

/-- What the requests share when the daemon starts. -/
def initial (d : Daemon) (now : Nat) : Shared :=
  ⟨now, .new d.rateLimit, .new d.writeLimit, .new, .new, ⟨0, 0, 0⟩⟩

/-- The daemon after the per-connection limiter has admitted its first request. -/
def admitted (d : Daemon) (t : Nat) (identifier : String) : Shared :=
  { d.initial t with
    rateLimiter := ((RateLimiter.new d.rateLimit).checkRateLimit t identifier).2 }

/-- The first request of all has its connection admitted, whoever sends it. -/
theorem exec_first_conn (d : Daemon) (t : Nat) (identifier : String) :
    exec (d.initial t) (.checkConnLimit identifier) true (d.admitted t identifier) := rfl

/-- Time passes, the cleanup task runs, or the per-connection limiter is charged
for a request that reaches no handler here: one for the page at `/`, or with a
method or body that its route does not take. -/
def env (s s' : Shared) : Prop :=
  (∃ now, s.now ≤ now ∧ s' = { s with now := now }) ∨
    (∃ l, s.rateLimiter.cleanup s.now = some l ∧ s' = { s with rateLimiter := l }) ∨
    ∃ peer, s' = { s with
      rateLimiter := (s.rateLimiter.checkRateLimit s.now (getRequestIdentifier peer)).2 }

/-- The daemon serving requests: any number at once, each dropped while it
awaits something if its time is up. -/
def system (d : Daemon) : System Op Res HttpResponse where
  Shared := Shared
  Job := Arrival
  prog := d.serve
  accepts s a := a.arrived = s.now
  exec := exec
  env := env
  mayCancel s a o := o.awaits = true ∧ d.requestTimeout ≤ s.now - a.arrived

/-- A run of the daemon from its start at instant `t`. -/
def RunFrom (d : Daemon) (t : Nat) (ls : List d.system.Label) (c : d.system.Config) : Prop :=
  Lts.Run (System.Step d.system) (d.system.start (d.initial t)) ls c

/-- A request that is alone with the daemon, to its end. -/
theorem run_alone_done {d : Daemon} {a : Arrival} {tr : List OpEvent} {response : HttpResponse}
    {s' : Shared} (ha : a.arrived = 0)
    (h : Performs exec (d.serve a) (d.initial 0) tr (.pure response) s') :
    ∃ ls c, d.RunFrom 0 ls c ∧ .spawn 0 a ∈ ls ∧ .done 0 response ∈ ls ∧
      System.eventsOf 0 ls = tr := by
  obtain ⟨c, hrun, -⟩ := System.run_served (S := d.system) (c := d.system.start (d.initial 0)) ha h
  refine ⟨_, c, hrun, List.mem_cons_self, List.mem_append_right _ List.mem_cons_self, ?_⟩
  show System.eventsOf 0 (tr.map (.act 0) ++ [.done 0 response]) = tr
  rw [System.eventsOf_append, System.eventsOf_map_act]
  exact List.append_nil tr

end Daemon

/-- A daemon without a relay and with the default limits. -/
def plainDaemon : Daemon where
  externals := ⟨fun _ => .error "", fun _ => .ok "", fun _ => "", fun _ => "", toString, false⟩
  mevClient := none
  rateLimit := .default
  writeLimit := ⟨10, 60 * nanosPerSec⟩
  requestTimeout := 30 * nanosPerSec

/-- The same with a relay. -/
def relayDaemon : Daemon :=
  { plainDaemon with mevClient := some ⟨1, .default, fun _ => .ok ""⟩ }

end Torpc
