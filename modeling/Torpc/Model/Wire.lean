import Torpc.Lib.Clients
import Torpc.Model.PublicRouter
import Torpc.Model.Tunnel

/-!
# Wallets in front of the daemon

The two programs of this repository put together. A wallet's request goes
through the wallet-side proxy (`Tunnel.lean`) and the Tor network to the onion
service, behind which the daemon serves its public router
(`PublicRouter.lean`). Any number of wallets do so at once, beside whatever
else reaches the daemon.

What stands between the two is HTTP/1.1, which is outside: a request that
`do_proxy` sends may get lost, before or after it has reached the daemon, and a
response may break off. What does arrive is what has been sent. The bytes of a
body are read and written by `serde_json`, which is outside too.
-/

namespace Torpc

open Effects Http

/-- Third-party code at the daemon's end of the connection. -/
structure BodyCodec where
  /-- the `mime` crate: a content type whose bodies are JSON -/
  isJson : String → Bool
  /-- `serde_json::from_slice` into a `Value` -/
  read : List UInt8 → Option Value
  /-- the status of the rejection of a text that is no JSON -/
  rejection : List UInt8 → Nat
  /-- `serde_json::to_vec` -/
  write : Value → List UInt8

/-- The front of the daemon: `build_app`'s layers outside the route table. -/
structure Front where
  files : StaticFiles
  codec : BodyCodec
  maxBodySize : Nat

namespace Front

/-- The `Json` extractor behind `DefaultBodyLimit`. -/
def jsonBody (front : Front) (req : Request) : Except Nat JsonRpcRequest :=
  match req.headers.lookup "content-type" with
  | none => .error 415
  | some contentType =>
    if !front.codec.isJson contentType then .error 415
    else if front.maxBodySize < req.body.length then .error 413
    else
      match front.codec.read req.body with
      | none => .error (front.codec.rejection req.body)
      | some value =>
        match JsonRpcRequest.ofValue value with
        | none => .error 422
        | some request => .ok request

/-- The public router gets a request as `v`. -/
structure Reads (front : Front) (req : Request) (v : PublicRequest) : Prop where
  method : v.method = req.method
  path : v.path = req.path
  body : v.body = front.jsonBody req

end Front

/-- A wallet's request, with its body, at the proxy that the wallet has. -/
structure WalletExchange where
  config : ProxyConfig
  request : Request

/-- The statuses with which hyper answers what it cannot read as a request. -/
def unreadableStatuses : List Nat := [400, 414, 431]

/-- What the operations of `do_proxy` get, given what the daemon has answered. -/
inductive TunnelAnswers (front : Front) (x : WalletExchange) :
    Option HttpResponse → (o : TunnelOp) → TunnelRes o → Prop where
  | connect (said : Option HttpResponse) (torProxy : Net.SocketAddr) (onionEndpoint : String)
      (stream : Except String Unit) :
      TunnelAnswers front x said (.connect torProxy onionEndpoint) stream
  | handshake (said : Option HttpResponse) (sender : Except String Unit) :
      TunnelAnswers front x said .handshake sender
  | body (said : Option HttpResponse) : TunnelAnswers front x said .readBody (.ok x.request.body)
  | noBody (said : Option HttpResponse) (e : String) :
      TunnelAnswers front x said .readBody (.error e)
  | lost (said : Option HttpResponse) (up : Request) (e : String) :
      TunnelAnswers front x said (.sendRequest up) (.error e)
  | unreadable (up : Request) (head : Response) (h : head.status ∈ unreadableStatuses) :
      TunnelAnswers front x none (.sendRequest up) (.ok head)
  | head (answer : HttpResponse) (up : Request) (head : Response)
      (h : head.status = answer.status) :
      TunnelAnswers front x (some answer) (.sendRequest up) (.ok head)
  | brokenOff (said : Option HttpResponse) (e : String) :
      TunnelAnswers front x said .readResponse (.error e)
  | noAnswer (bytes : List UInt8) : TunnelAnswers front x none .readResponse (.ok bytes)
  | whole (answer : HttpResponse) (bytes : List UInt8)
      (h : ∀ body, answer.body = some body → bytes = front.codec.write body.toValue) :
      TunnelAnswers front x (some answer) .readResponse (.ok bytes)

/-- `proxy_request`'s answer when the 45 seconds are over. -/
def gatewayTimeout : Response := simpleResponse 504 "Upstream onion request timed out"

/-- The wallets of a daemon. -/
def wallets (d : Daemon) (front : Front) :
    Clients (d.publicSystem front.files) TunnelOp TunnelRes (Except String Response) where
  Job := WalletExchange
  prog x := doProxy x.config x.request
  asks _ o v :=
    match o with
    | .sendRequest up => front.Reads up v
    | _ => False
  answers := TunnelAnswers front
  dropped answer := answer = Daemon.timeoutResponse
  givenUp result := result = .ok gatewayTimeout

/-- A run of the daemon and its wallets, from the daemon's start at instant `t`. -/
def WalletRun (d : Daemon) (front : Front) (t : Nat) (ls : List (wallets d front).Label)
    (w : (wallets d front).Config) : Prop :=
  Lts.Run (Clients.Step (wallets d front)) ((wallets d front).start (d.initial t)) ls w

/-- What the daemon has done in it is a run of the daemon. -/
theorem WalletRun.daemon {d : Daemon} {front : Front} {t : Nat}
    {ls : List (wallets d front).Label} {w : (wallets d front).Config}
    (h : WalletRun d front t ls w) :
    d.PublicRun front.files t (Clients.serverLabels ls) w.server := (Clients.run_server h).1

end Torpc
