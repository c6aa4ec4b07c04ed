import Torpc.Model.App
import Torpc.Model.ClientProxy

/-!
# A wallet's request at the daemon's router

The wallet-side proxy and the daemon each have their own idea of the paths: the
proxy passes the wallet's path on, and the wallet is told a URL without one; the
daemon takes JSON-RPC at four paths and serves a page at `/`. Composed, they
send every request that a wallet makes to the URL it was told, and the GUI's
own probe, to a method that `/` does not serve (`wallet_never_reaches_jsonRpc`).
A wallet that adds one of the four paths is served
(`walletDispatch_jsonRpc_iff`).
-/

namespace Torpc

open Http

/-- Where the daemon's router sends what the proxy makes of a wallet's request. -/
def walletDispatch (config : ProxyConfig) (req : Request) : Except Unsent (Dispatch Endpoint) :=
  (upstreamRequest config req).map fun up => publicRouter.dispatch up.method up.path

/-- Where it sends what was read as a request line. -/
def lineDispatch : Option (Method × PathAndQuery) → Except Unsent (Dispatch Endpoint)
  | none => .error (.response 400 "")
  | some (method, target) => .ok (publicRouter.dispatch method target.pathStr)

/-- Where it sends the probe. -/
def probeDispatch (onionEndpoint : String) : Except Unsent (Dispatch Endpoint) :=
  lineDispatch (requestLine (probeRequest onionEndpoint).toList)

/-- A request is dispatched to a JSON-RPC handler. -/
def ReachesJsonRpc (dispatch : Except Unsent (Dispatch Endpoint)) : Prop :=
  ∃ route, dispatch = .ok (.to (.jsonRpc route))

/-- A POST to the URL that the wallet is told, with any query, headers and body. -/
structure WalletRequest (config : ProxyConfig) extends Request where
  post : method = .post
  atUrl : toRequest.path = urlPath (suggestedRpcUrl config)

/-- The proxy adds nothing to the question and takes nothing away: what goes on
is dispatched as the wallet wrote it. -/
theorem walletDispatch_ok {config : ProxyConfig} {req : Request} (htarget : req.target ≠ none)
    {dispatch : Dispatch Endpoint} (h : walletDispatch config req = .ok dispatch) :
    dispatch = publicRouter.dispatch req.method req.path := by
  unfold walletDispatch at h
  cases hup : upstreamRequest config req with
  | error e =>
    rw [hup] at h
    cases h
  | ok up =>
    rw [hup] at h
    cases h
    obtain ⟨hmethod, hpath⟩ := upstreamRequest_ok hup
    rw [← hmethod, ← hpath htarget]

/-- The proxy forwards method and path as they are, so a wallet's request gets to a JSON-RPC
handler just if it is a POST for that handler's path. -/
theorem walletDispatch_jsonRpc_iff {config : ProxyConfig} {req up : Request}
    (htarget : req.target ≠ none) (hup : upstreamRequest config req = .ok up) {route : Route} :
    walletDispatch config req = .ok (.to (.jsonRpc route)) ↔
      req.method = .post ∧ req.path = route.path := by
  have hsent : walletDispatch config req =
      .ok (publicRouter.dispatch req.method req.path) := by
    have hok : walletDispatch config req = .ok (publicRouter.dispatch up.method up.path) := by
      rw [walletDispatch, hup]
      rfl
    rw [hok, ← walletDispatch_ok htarget hok]
  rw [hsent, Except.ok.injEq, dispatch_jsonRpc_iff]

/-- A wallet that is configured with the suggested URL asks for `/`. -/
theorem WalletRequest.path_eq {config : ProxyConfig} (req : WalletRequest config) :
    req.toRequest.path = "/" :=
  req.atUrl.trans (urlPath_suggestedRpcUrl config)

theorem WalletRequest.target_ne {config : ProxyConfig} (req : WalletRequest config) :
    req.target ≠ none := by
  intro hnone
  have hpath := req.path_eq
  rw [Request.path, hnone] at hpath
  exact absurd hpath (by decide)

/-- The page at `/` is served for GET and HEAD, so a POST there is a method that is not
allowed. -/
theorem dispatch_root_post : publicRouter.dispatch .post "/" = .methodNotAllowed := by decide

/-- Whatever reaches the daemon from a wallet is refused there. -/
theorem walletDispatch_wallet {config : ProxyConfig} (req : WalletRequest config)
    {dispatch : Dispatch Endpoint} (h : walletDispatch config req.toRequest = .ok dispatch) :
    dispatch = .methodNotAllowed := by
  rw [walletDispatch_ok req.target_ne h, req.post, req.path_eq, dispatch_root_post]

/-- The connection test's POST for `/` gets to no handler. -/
theorem probeDispatch_eq (onionEndpoint : String) :
    probeDispatch onionEndpoint = .ok .methodNotAllowed := by
  obtain ⟨pq, hline, hpath⟩ := requestLine_probe onionEndpoint
  rw [probeDispatch, hline, lineDispatch, hpath, dispatch_root_post]

/-- **The wallet's URL.** Neither a wallet with the suggested URL nor the connection test
ever gets to a JSON-RPC handler. -/
theorem wallet_never_reaches_jsonRpc (config : ProxyConfig) :
    (∀ req : WalletRequest config, ¬ ReachesJsonRpc (walletDispatch config req.toRequest)) ∧
      ∀ onionEndpoint, ¬ ReachesJsonRpc (probeDispatch onionEndpoint) := by
  refine ⟨fun req ⟨route, hroute⟩ => ?_, fun onionEndpoint ⟨route, hroute⟩ => ?_⟩
  · cases walletDispatch_wallet req hroute
  · rw [probeDispatch_eq] at hroute
    cases hroute

def exampleConfig : ProxyConfig := ⟨.ofV4 127 0 0 1 8545, .ofV4 127 0 0 1 9050, "a.onion:80"⟩

/-- A wallet's first request, to `http://127.0.0.1:8545`. -/
def chainIdPost : WalletRequest exampleConfig where
  method := .post
  target := some ⟨['/'], none, by decide, .inr (.inr rfl)⟩
  headers := [("host", "127.0.0.1:8545"), ("content-type", "application/json")]
  body := "\x7b\"jsonrpc\":\"2.0\",\"method\":\"eth_chainId\",\"id\":1\x7d".toList.map
    fun c => .ofNat c.toNat
  post := rfl
  atUrl := (urlPath_suggestedRpcUrl _).symm

/-- It reaches the daemon, and is refused. -/
theorem chainId_refused :
    walletDispatch exampleConfig chainIdPost.toRequest = .ok .methodNotAllowed ∧
      ¬ ReachesJsonRpc (walletDispatch exampleConfig chainIdPost.toRequest) := by
  obtain ⟨up, hup⟩ : ∃ up, upstreamRequest exampleConfig chainIdPost.toRequest = .ok up :=
    upstreamRequest_sent rfl rfl (by decide) (by decide)
  have hsent : walletDispatch exampleConfig chainIdPost.toRequest = .ok .methodNotAllowed := by
    have hok : walletDispatch exampleConfig chainIdPost.toRequest =
        .ok (publicRouter.dispatch up.method up.path) := by rw [walletDispatch, hup]; rfl
    rw [hok, walletDispatch_wallet chainIdPost hok]
  refine ⟨hsent, fun ⟨route, hroute⟩ => ?_⟩
  rw [hsent] at hroute
  cases hroute

end Torpc
