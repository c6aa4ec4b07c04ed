import Torpc.Lib.Http
import Torpc.Lib.Net

/-!
# The wallet-side proxy's requests

`torpc-proxy-core/src/proxy.rs`: how a wallet's request is rewritten before it
goes through the tunnel, and the URL that the discovery server tells the wallet
to use; and from the GUI the probe that `test_connection` writes by hand.

The Tor tunnel and the two ends of HTTP/1.1 framing are outside: what
`do_proxy` hands to the client connection is what the daemon's router sees.
-/

namespace Torpc

open Http

/-- `ProxyConfig`. -/
structure ProxyConfig where
  listenAddr : Net.SocketAddr
  torProxy : Net.SocketAddr
  onionEndpoint : String
  deriving DecidableEq, Repr

def maxResponseBytes : Nat := 4 * 1024 * 1024

/-- `CARGO_PKG_VERSION`: both crates take the workspace's. -/
def cargoPkgVersion : String := "0.1.0"

def isHopByHop (name : String) : Bool :=
  ["connection", "keep-alive", "proxy-authenticate", "proxy-authorization", "te", "trailer",
    "transfer-encoding", "upgrade"].contains name.toLower

def isWalletFingerprint (name : String) : Bool :=
  let n := name.toLower
  ["user-agent", "accept-language", "origin", "referer", "cookie", "authorization", "dnt",
    "x-forwarded-for", "x-real-ip"].contains n ||
    "sec-".toList.isPrefixOf n.toList || "x-wallet-".toList.isPrefixOf n.toList

def forwardedUserAgent : String := "torpc-proxy/" ++ cargoPkgVersion

/-- The ways in which `do_proxy` sends nothing on: a response of its own, or an
error that ends the wallet's connection. -/
inductive Unsent where
  | response (status : Nat) (msg : String)
  | error (context : String)
  deriving DecidableEq, Repr

/-- The header fields of the request that goes on. -/
def forwardedHeaders (config : ProxyConfig) (req : Request) : List (String × String) :=
  let kept := req.headers.filter fun field =>
    !(field.1 == "host" || isHopByHop field.1 || isWalletFingerprint field.1)
  let set := kept ++ [("host", config.onionEndpoint), ("user-agent", forwardedUserAgent)]
  if req.body.isEmpty then set else set ++ [("content-length", toString req.body.length)]

/-- `do_proxy` with an open tunnel, up to `send_request`. -/
def upstreamRequest (config : ProxyConfig) (req : Request) : Except Unsent Request :=
  let pathAndQuery := match req.target with
    | none => ['/']
    | some pq => pq.asStr
  if maxResponseBytes < req.body.length then
    .error (.response 413 "Request body exceeds proxy limit")
  else
    match PathAndQuery.parse pathAndQuery with
    | none => .error (.error "building upstream request")
    | some target =>
      if isHeaderValue config.onionEndpoint then
        .ok ⟨req.method, some target, forwardedHeaders config req, req.body⟩
      else .error (.error "building upstream request")

/-- When a request goes on, and what goes on. -/
theorem upstreamRequest_eq_ok {config : ProxyConfig} {req up : Request} :
    upstreamRequest config req = .ok up ↔
      ∃ target, PathAndQuery.parse ((req.target.map PathAndQuery.asStr).getD ['/']) =
          some target ∧
        req.body.length ≤ maxResponseBytes ∧ isHeaderValue config.onionEndpoint = true ∧
        up = ⟨req.method, some target, forwardedHeaders config req, req.body⟩ := by
  have htext : (match req.target with | none => ['/'] | some pq => pq.asStr) =
      (req.target.map PathAndQuery.asStr).getD ['/'] := by
    cases req.target <;> rfl
  unfold upstreamRequest
  rw [htext]
  dsimp only
  split
  · next hsize => simp [Nat.not_le.mpr hsize]
  · next hsize =>
    cases PathAndQuery.parse ((req.target.map PathAndQuery.asStr).getD ['/']) with
    | none => simp
    | some target =>
      cases isHeaderValue config.onionEndpoint with
      | false => simp
      | true => simp [Nat.not_lt.mp hsize, eq_comm]

/-- What goes on keeps the method and the path. -/
theorem upstreamRequest_ok {config : ProxyConfig} {req up : Request}
    (h : upstreamRequest config req = .ok up) :
    up.method = req.method ∧ (req.target ≠ none → up.path = req.path) := by
  obtain ⟨target, htarget, -, -, rfl⟩ := upstreamRequest_eq_ok.mp h
  refine ⟨rfl, fun hsome => ?_⟩
  unfold Request.path
  cases hreq : req.target with
  | none => exact absurd hreq hsome
  | some pq =>
    rw [hreq] at htarget
    exact PathAndQuery.parse_asStr htarget

/-- A request with a path is sent on, unless it is too large or the endpoint is
no header value. -/
theorem upstreamRequest_sent {config : ProxyConfig} {req : Request} {pq : PathAndQuery}
    (htarget : req.target = some pq) (hpath : pq.path.head? = some '/')
    (hsize : req.body.length ≤ maxResponseBytes)
    (hhost : isHeaderValue config.onionEndpoint = true) :
    ∃ up, upstreamRequest config req = .ok up := by
  obtain ⟨target, hparse⟩ := PathAndQuery.exists_parse hpath
  refine ⟨_, upstreamRequest_eq_ok.mpr ⟨target, ?_, hsize, hhost, rfl⟩⟩
  rw [htarget]
  exact hparse

/-- The `suggested_rpc_url` of the discovery descriptor. -/
def suggestedRpcUrl (config : ProxyConfig) : String := "http://" ++ config.listenAddr.display

/-- The wallet is told a URL without a path. -/
theorem urlPath_suggestedRpcUrl (config : ProxyConfig) :
    urlPath (suggestedRpcUrl config) = "/" := by
  have hforeign : Net.Foreign '/' ∧ Net.Foreign '?' ∧ Net.Foreign '#' := by
    unfold Net.Foreign
    decide
  obtain ⟨hslash, hmark, hhash⟩ := hforeign
  refine urlPath_authority fun c hc => ⟨?_, ?_, ?_⟩ <;> rintro rfl
  · exact config.listenAddr.foreign_notMem hslash hc
  · exact config.listenAddr.foreign_notMem hmark hc
  · exact config.listenAddr.foreign_notMem hhash hc

/-- The body of the probe. -/
def probeBody : String :=
  "\x7b\"jsonrpc\":\"2.0\",\"method\":\"web3_clientVersion\",\"params\":[],\"id\":1\x7d"

def probeRequestLine : String := "POST / HTTP/1.1\r\n"

/-- The request that `test_connection` writes into the tunnel. -/
def probeRequest (onionEndpoint : String) : String :=
  probeRequestLine ++
    "Host: " ++ onionEndpoint ++ "\r\n" ++
    "User-Agent: torpc-proxy-gui/" ++ cargoPkgVersion ++ "\r\n" ++
    "Content-Type: application/json\r\n" ++
    "Content-Length: " ++ toString probeBody.utf8ByteSize ++ "\r\n" ++
    "Connection: close\r\n" ++
    "\r\n" ++ probeBody

/-- Its request line does not depend on the endpoint. -/
theorem requestLine_probe (onionEndpoint : String) :
    ∃ pq, requestLine (probeRequest onionEndpoint).toList = some (.post, pq) ∧
      pq.pathStr = "/" := by
  have hline : probeRequestLine.toList = ['P', 'O', 'S', 'T', ' ', '/', ' ',
      'H', 'T', 'T', 'P', '/', '1', '.', '1', '\r', '\n'] := by decide
  simp only [probeRequest, String.toList_append, List.append_assoc, hline]
  exact ⟨_, rfl, rfl⟩

end Torpc
